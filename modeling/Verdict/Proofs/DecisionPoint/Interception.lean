/-
The order of the interceptors.

Whatever the order of registration, interceptors run by ascending priority, and those of
one priority in the order in which they were registered.  This leaves a single order, so
that other registrations make a difference only among equal priorities, and an interceptor
that only reports makes none anywhere.

* `Arranges`: a list in ascending order of a key, the items of one key as they stood before.
* `Arranges.unique`, `arranges_mergeSort`: there is one such order, and sorting finds it.
* `Interceptor.inOrder_perm`, `applyAll_of_slots`: permuted registrations, and added reports.
* `Combination`, `DecisionPoint.combinations`: what the interceptors get to see.
* `DecisionPoint.decide_intercepts_in_order`: the decisions are the combinations folded through
  the interceptors, without repetitions.
-/
import Mathlib.Data.List.ReduceOption
import Verdict.DecisionPoint.Basic
import Verdict.Proofs.Stream.Image

namespace Verdict

/-! ### Arrangements -/

section Arrangements

variable {α β : Type} {key : α → Int} {items order order' : List α}

/-- The order is ascending in the key, and the items of one key follow each other as they did
before. -/
structure Arranges (key : α → Int) (items order : List α) : Prop where
  ascending : order.Pairwise fun a b => key a ≤ key b
  ties : ∀ k, order.filter (key · = k) = items.filter (key · = k)

namespace Arranges

lemma mem_iff (h : Arranges key items order) {a : α} : a ∈ order ↔ a ∈ items := by
  have hmem : a ∈ order.filter (key · = key a) ↔ a ∈ items.filter (key · = key a) := by
    rw [h.ties]
  simpa using hmem

/-- A first item is the first one of the least key. -/
lemma head_eq {a b : α} (h : Arranges key items (a :: order))
    (h' : Arranges key items (b :: order')) : a = b := by
  have hab : key a ≤ key b := by
    rcases List.mem_cons.mp (h.mem_iff.mpr (h'.mem_iff.mp List.mem_cons_self)) with rfl | hmem
    · exact Int.le_refl _
    · exact List.rel_of_pairwise_cons h.ascending hmem
  have hba : key b ≤ key a := by
    rcases List.mem_cons.mp (h'.mem_iff.mpr (h.mem_iff.mp List.mem_cons_self)) with rfl | hmem
    · exact Int.le_refl _
    · exact List.rel_of_pairwise_cons h'.ascending hmem
  have hfirst := (h.ties (key a)).trans (h'.ties (key a)).symm
  rw [List.filter_cons_of_pos (by simp),
    List.filter_cons_of_pos (by simpa using Int.le_antisymm hba hab)] at hfirst
  exact (List.cons.inj hfirst).1

/-- Nothing is left open by the key and the order before. -/
theorem unique (h : Arranges key items order) (h' : Arranges key items order') :
    order = order' := by
  induction order generalizing items order' with
  | nil =>
    refine (List.eq_nil_iff_forall_not_mem.mpr fun a ha => ?_).symm
    exact absurd (h.mem_iff.mpr (h'.mem_iff.mp ha)) List.not_mem_nil
  | cons a rest ih =>
    cases order' with
    | nil => exact absurd (h'.mem_iff.mpr (h.mem_iff.mp List.mem_cons_self)) List.not_mem_nil
    | cons b rest' =>
      obtain rfl := h.head_eq h'
      have hrest : Arranges key rest rest' := by
        refine ⟨h'.ascending.of_cons, fun k => ?_⟩
        have hties := (h'.ties k).trans (h.ties k).symm
        rw [List.filter_cons, List.filter_cons] at hties
        split at hties
        · exact (List.cons.inj hties).2
        · exact hties
      rw [ih ⟨h.ascending.of_cons, fun _ => rfl⟩ hrest]

/-- Empty slots do not matter to the order of the others. -/
lemma reduceOption {items order : List (Option α)} {f : Option α → Int}
    (h : Arranges f items order) :
    Arranges (fun a => f (some a)) items.reduceOption order.reduceOption where
  ascending := by
    refine List.pairwise_filterMap.mpr (h.ascending.imp fun hab c hc d hd => ?_)
    obtain rfl : _ = some c := hc
    obtain rfl : _ = some d := hd
    exact hab
  ties k := by
    have hfilter (slots : List (Option α)) :
        slots.reduceOption.filter (fun a => f (some a) = k)
          = (slots.filter (f · = k)).reduceOption := by
      induction slots with
      | nil => rfl
      | cons slot rest ih =>
        cases slot with
        | none => by_cases hk : f none = k <;> simpa [hk] using ih
        | some a => by_cases hk : f (some a) = k <;> simpa [hk] using ih
    rw [hfilter, hfilter, h.ties]

end Arranges

lemma map_some_reduceOption {slots : List (Option α)} (h : ∀ slot ∈ slots, slot.isSome) :
    slots.reduceOption.map some = slots := by
  induction slots with
  | nil => rfl
  | cons slot rest ih =>
    obtain ⟨a, rfl⟩ := Option.isSome_iff_exists.mp (h slot List.mem_cons_self)
    rw [List.reduceOption_cons_of_some, List.map_cons,
      ih fun slot hmem => h slot (List.mem_cons_of_mem _ hmem)]

/-- Sorting is stable, and so it leaves the items of one key as they stood. -/
lemma arranges_mergeSort (key : α → Int) (items : List α) :
    Arranges key items (items.mergeSort fun a b => decide (key a ≤ key b)) := by
  have htrans (a b c : α) (hab : decide (key a ≤ key b) = true)
      (hbc : decide (key b ≤ key c) = true) : decide (key a ≤ key c) = true := by
    rw [decide_eq_true_eq] at *
    exact Int.le_trans hab hbc
  have htotal (a b : α) : (decide (key a ≤ key b) || decide (key b ≤ key a)) = true := by
    simpa using Int.le_total (key a) (key b)
  refine ⟨?_, fun k => ?_⟩
  · simpa only [decide_eq_true_eq] using List.pairwise_mergeSort htrans htotal items
  · have htied : (items.filter (key · = k)).Pairwise fun a b => decide (key a ≤ key b) = true := by
      refine List.pairwise_of_forall_mem_list fun a ha b hb => ?_
      rw [List.mem_filter, decide_eq_true_eq] at ha hb
      exact decide_eq_true (Int.le_of_eq (ha.2.trans hb.2.symm))
    have hsub := (List.sublist_mergeSort htrans htotal htied List.filter_sublist).filter
      (key · = k)
    rw [List.filter_filter] at hsub
    simp only [Bool.and_self] at hsub
    exact (hsub.eq_of_length
      ((List.mergeSort_perm items _).filter (key · = k)).length_eq.symm).symm

end Arrangements

/-! ### Registrations -/

namespace Interceptor

variable {interceptors others : List Interceptor}

/-- The interceptors run in the order of their priorities. -/
lemma arranges_inOrder (interceptors : List Interceptor) :
    Arranges Interceptor.priority interceptors (inOrder interceptors) :=
  arranges_mergeSort _ _

/-- The registration decides among equal priorities alone. -/
lemma inOrder_perm (h : others.Perm interceptors) (hdistinct : (interceptors.map priority).Nodup) :
    inOrder others = inOrder interceptors := by
  refine (arranges_inOrder others).unique ⟨(arranges_inOrder interceptors).ascending, fun k => ?_⟩
  rw [(arranges_inOrder interceptors).ties]
  have hany (list : List Interceptor) : list.Pairwise fun _ _ => True :=
    List.pairwise_of_forall fun _ _ => trivial
  -- No two interceptors have this priority, and so their order is not in question.
  refine (List.Perm.eq_of_pairwise (fun a b ha hb _ _ => ?_) (hany _) (hany _)
    (h.filter (priority · = k))).symm
  rw [List.mem_filter, decide_eq_true_eq] at ha hb
  exact List.inj_on_of_nodup_map hdistinct (h.mem_iff.mp ha.1) hb.1 (ha.2.trans hb.2.symm)

/-- An empty slot is filled with an interceptor that only reports. -/
def ofSlot (slot : Option Interceptor) : Interceptor := slot.getD reporting

lemma foldl_ofSlot (trace : DecisionTrace) (slots : List (Option Interceptor))
    (decision : AuthorizationDecision) :
    (slots.map ofSlot).foldl (fun decision i => i.intercept trace decision) decision
      = slots.reduceOption.foldl (fun decision i => i.intercept trace decision) decision := by
  induction slots generalizing decision with
  | nil => rfl
  | cons slot rest ih =>
    cases slot with
    | none => exact ih decision
    | some i => exact ih (i.intercept trace decision)

/-- Reports do not show, wherever they stand. -/
lemma applyAll_of_slots (slots : List (Option Interceptor)) :
    applyAll (slots.map ofSlot) = applyAll slots.reduceOption := by
  have hsorted : inOrder (slots.map ofSlot)
      = (slots.mergeSort fun a b => decide ((ofSlot a).priority ≤ (ofSlot b).priority)).map
          ofSlot := (List.map_mergeSort (f := ofSlot) fun _ _ _ _ => rfl).symm
  have hrest : (slots.mergeSort fun a b =>
      decide ((ofSlot a).priority ≤ (ofSlot b).priority)).reduceOption
        = inOrder slots.reduceOption :=
    (arranges_mergeSort (fun slot => (ofSlot slot).priority) slots).reduceOption.unique
      (arranges_inOrder slots.reduceOption)
  funext trace decision
  rw [applyAll, applyAll, hsorted, foldl_ofSlot, hrest]

end Interceptor

/-! ### Combinations -/

/-- What the documents come to by an algorithm. -/
structure Combination where
  algorithm : CombiningAlgorithm
  combined : Combined

namespace Combination

/-- The trace that the interceptors get. -/
def trace (s : AuthorizationSubscription) (c : Combination) : DecisionTrace where
  subscription := s
  algorithm := c.algorithm
  documents := c.combined.documents.map DocumentReport.ofDecision
  error := c.combined.error.map EvalError.message

/-- The combined authorization folded through interceptors, the first one first. -/
def folded (s : AuthorizationSubscription) (order : List Interceptor) (c : Combination) :
    AuthorizationDecision :=
  order.foldl (fun decision i => i.intercept (c.trace s) decision) c.combined.authorization

end Combination

namespace DecisionPoint

variable {W : World → Prop}

/-- What is combined under a configuration, nothing if it may not be in force. -/
def combinationsUnder (point : DecisionPoint) (s : AuthorizationSubscription)
    (retrieval : Retrieval) (configuration : PdpConfiguration) : Stream (Option Combination) :=
  match configuration.validate with
  | .error _ => .just none
  | .ok c => (combineLive c.algorithm (units retrieval (point.context c s))).map
      fun combined => some ⟨c.algorithm, combined⟩

/-- What is combined for a subscription, whether interceptors are there or not. -/
def combinations (point : DecisionPoint) (s : AuthorizationSubscription) :
    Stream (Option Combination) :=
  point.retrieval.switchMapBounded fun retrieval =>
    point.configuration.switchMap (point.combinationsUnder s retrieval)

/-- The decision that a combination leads to. -/
def settled (point : DecisionPoint) (s : AuthorizationSubscription) :
    Option Combination → AuthorizationDecision
  | none => .plain .indeterminate
  | some c => c.folded s (Interceptor.inOrder point.interceptors)

/-- The decisions under a configuration are those that its combinations lead to. -/
lemma image_evaluate (point : DecisionPoint) (s : AuthorizationSubscription)
    (retrieval : Retrieval) (configuration : PdpConfiguration) :
    (point.combinationsUnder s retrieval configuration).Image (point.settled s)
      (point.evaluate s retrieval configuration) := by
  rw [combinationsUnder, evaluate]
  cases configuration.validate with
  | error cause => exact .finite [none]
  | ok c => exact .map _ _

/-- The combinations settle all decisions, but for the repetitions among them. -/
lemma image_decide (point : DecisionPoint) (s : AuthorizationSubscription) :
    (point.combinations s).Image (point.settled s)
      (point.retrieval.switchMapBounded fun retrieval =>
        point.configuration.switchMap (point.evaluate s retrieval)) :=
  .switch true _ (fun retrieval => .switch false _ (point.image_evaluate s retrieval) (.finite []))
    (.finite [])

/-- Something is combined under every valid configuration. -/
lemma always_isSome_combinations {point : DecisionPoint} (s : AuthorizationSubscription)
    (hvalid : point.configuration.Always W fun c => c.validate = .ok c) :
    (point.combinations s).Always W fun c => c.isSome := by
  refine Stream.Always.switch (.trivial _) (fun retrieval _ => ?_) .ended
  refine hvalid.switchMap fun c hc => ?_
  rw [combinationsUnder, hc]
  exact (Stream.Always.trivial _).map fun _ _ => rfl

/-- Only what the interceptors make of a combination is of concern to the decisions. -/
lemma decide_congr (point : DecisionPoint) {others : List Interceptor}
    (h : Interceptor.applyAll others = Interceptor.applyAll point.interceptors)
    (s : AuthorizationSubscription) :
    { point with interceptors := others }.decide s = point.decide s := by
  have hintercepted : { point with interceptors := others }.intercepted = point.intercepted := by
    funext algorithm s combined
    rw [intercepted, intercepted, h]
  have hevaluate : { point with interceptors := others }.evaluate = point.evaluate := by
    funext s retrieval configuration
    rw [evaluate, evaluate, hintercepted]
    rfl
  rw [decide, decide, hevaluate]

/-- Every decision is a combined authorization folded through the interceptors in their one
order, in which the priorities ascend and equal priorities keep the order of registration, and
the decisions come without repetitions.  The decisions stay the same when interceptors of
pairwise different priorities are registered in another order, and when reports are added at
any positions. -/
theorem decide_intercepts_in_order {point : DecisionPoint} (s : AuthorizationSubscription)
    (hvalid : point.configuration.Always W fun c => c.validate = .ok c) :
    (∃ order, Arranges Interceptor.priority point.interceptors order ∧
      (∀ order', Arranges Interceptor.priority point.interceptors order' → order' = order) ∧
      ∀ h, ReadIn W h → ∃ h', ∃ combinations : List Combination, ReadsAlong h' h ∧
        (point.combinations s).delivered h' = combinations.map some ∧
        (point.decide s).delivered h = (combinations.map (Combination.folded s order)).destutter
          (fun a b => a.same b = false) ∧
        ((point.decide s).left h = none ↔ (point.combinations s).left h' = none) ∧
        ((point.decide s).awake h = false → (point.combinations s).awake h' = false)) ∧
    (∀ others : List Interceptor, others.Perm point.interceptors →
      (point.interceptors.map Interceptor.priority).Nodup →
      { point with interceptors := others }.decide s = point.decide s) ∧
    ∀ slots : List (Option Interceptor), slots.reduceOption = point.interceptors →
      { point with interceptors := slots.map Interceptor.ofSlot }.decide s = point.decide s := by
  refine ⟨⟨Interceptor.inOrder point.interceptors, Interceptor.arranges_inOrder _,
    fun order' horder => horder.unique (Interceptor.arranges_inOrder _), fun h hr => ?_⟩,
    fun others hperm hdistinct => point.decide_congr ?_ s,
    fun slots hslots => point.decide_congr ?_ s⟩
  · obtain ⟨h', halong, hitems, hends, hwaits⟩ :=
      (point.image_decide s).distinct AuthorizationDecision.same h
    have hsome := ((always_isSome_combinations s hvalid).delivered (halong.readIn hr)).2
    refine ⟨h', _, halong, (map_some_reduceOption hsome).symm, ?_, hends, hwaits⟩
    refine hitems.trans (congrArg (List.destutter _) ?_)
    conv_lhs => rw [← map_some_reduceOption hsome, List.map_map]
    rfl
  · funext trace decision
    rw [Interceptor.applyAll, Interceptor.applyAll, Interceptor.inOrder_perm hperm hdistinct]
  · rw [Interceptor.applyAll_of_slots, hslots]

/-- An interceptor that leaves a mark in the advice. -/
def marking (priority : Int) (mark : String) : Interceptor :=
  ⟨priority, fun _ d => { d with advice := d.advice ++ [.string mark] }⟩

/-- A point with two interceptors that are registered against their priorities. -/
def marked : DecisionPoint :=
  fixed {} {} .empty {} [marking 10 "second", marking (-1) "first"]

/-- The marks stand in the order of the priorities.  They do so as well if the interceptors are
registered in the order in which they run, with a report between them. -/
theorem decide_intercepts_in_order_marked :
    (marked.configuration.Always (fun _ => True) fun c => c.validate = .ok c) ∧
    (∀ h, ∃ combinations : List Combination,
      (marked.decide ⟨.null, .null, .null, none⟩).delivered h
        = (combinations.map fun c => { c.combined.authorization with
            advice := c.combined.authorization.advice ++ [.string "first", .string "second"]
          }).destutter (fun a b => a.same b = false)) ∧
    { marked with
        interceptors := [marking (-1) "first", .reporting, marking 10 "second"] }.decide
          ⟨.null, .null, .null, none⟩ = marked.decide ⟨.null, .null, .null, none⟩ := by
  have hvalid (others : List Interceptor) :
      { marked with interceptors := others }.configuration.Always (fun _ => True)
        fun c : PdpConfiguration => c.validate = Except.ok c :=
    .lasting fun c hc => List.mem_singleton.mp hc ▸ rfl
  let inOrder : List Interceptor := [marking (-1) "first", marking 10 "second"]
  obtain ⟨⟨order, -, hunique, hruns⟩, hperm, -⟩ :=
    decide_intercepts_in_order ⟨.null, .null, .null, none⟩ (hvalid marked.interceptors)
  obtain ⟨-, -, hreports⟩ :=
    decide_intercepts_in_order ⟨.null, .null, .null, none⟩ (hvalid inOrder)
  have harranged : Arranges Interceptor.priority marked.interceptors inOrder := by
    refine ⟨by decide, fun k => ?_⟩
    simp only [inOrder, marked, fixed, marking, List.filter_cons, List.filter_nil]
    by_cases hfirst : -1 = k
    · subst hfirst
      rfl
    · simp [hfirst]
  refine ⟨hvalid _, fun h => ?_, ?_⟩
  · obtain ⟨-, combinations, -, -, hitems, -, -⟩ := hruns h fun _ _ _ => trivial
    refine ⟨combinations, hitems.trans ?_⟩
    rw [← hunique _ harranged]
    refine congrArg (List.destutter _) (List.map_congr_left fun c _ => ?_)
    simp [Combination.folded, inOrder, marking]
  · refine (hreports [some (marking (-1) "first"), none, some (marking 10 "second")] rfl).trans ?_
    exact hperm inOrder (.swap _ _ _) (by decide)

end DecisionPoint

end Verdict
