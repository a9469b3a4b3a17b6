/-
What documents decide, however their attributes change.

Every decision that a document ever delivers names it and fits its failure.  A
policy decides its entitlement, or that it does not apply, or that it failed;
and where it decides its entitlement its constraints are values of the
expressions that declare them.

* `Stream.Delivers`: an item that a stream may deliver.
* `Constraints.Declared`: constraints whose parts come from the expressions that
  declare them, and `Constraints.ofValues_declared`.
* `DocumentDecision.Own`: a decision names its document and fits its failure.
* `Policy.Decides`: the decisions that a policy may make.
* `combineLive_coherent`: live combinations fit their failures.
* `Policy.evaluate_decides`, `PolicySet.evaluate_own`: policies and sets.
* `PolicyDocument.always_coherent`: documents.
-/
import Verdict.Evaluation.Document
import Verdict.Proofs.Authorization.Coherence
import Verdict.Proofs.Evaluation.Rewriting
import Verdict.Proofs.Stream.Always

namespace Verdict

variable {α : Type} {W : World → Prop}

/-! ### Items that are delivered -/

/-- The stream may deliver the item, read in worlds of the kind. -/
def Stream.Delivers (W : World → Prop) (s : Stream α) (a : α) : Prop :=
  ∃ t, s.Reaches W t ∧ ∃ w, W w ∧ a ∈ (t.run w).toList

lemma Stream.Always.delivers (s : Stream α) : s.Always W (s.Delivers W) :=
  fun t ht w hw _ ha => ⟨t, ht, w, hw, ha⟩

/-- The values that are combined come from the expressions in their order. -/
lemma Expression.evaluateEach_always (ctx : EvaluationContext) (inBody : Bool) (relative : Value)
    (es : List Expression) :
    (Stream.combineLatest (Expression.evaluateEach ctx inBody relative es)).Always W
      (List.Forall₂ (fun e value => (e.evaluate ctx inBody relative).Delivers W value) es) := by
  have hmap : Expression.evaluateEach ctx inBody relative es
      = es.map (Expression.evaluate ctx inBody relative) := by
    induction es with
    | nil => rfl
    | cons e rest ih => rw [Expression.evaluateEach, ih, List.map_cons]
  rw [hmap]
  have hslots : ∀ (i : Nat) (s : Stream Value),
      (es.map (Expression.evaluate ctx inBody relative))[i]? = some s →
      s.Always W fun value => ∀ e : Expression, es[i]? = some e →
        (e.evaluate ctx inBody relative).Delivers W value := by
    intro i s hs
    refine (Stream.Always.delivers s).mono fun value hvalue e he => ?_
    rw [List.getElem?_map, he, Option.map_some, Option.some.injEq] at hs
    exact hs ▸ hvalue
  refine (Stream.Always.combineLatest hslots).mono ?_
  rintro values ⟨hlength, hvalues⟩
  rw [List.length_map] at hlength
  refine List.forall₂_iff_get.mpr ⟨hlength.symm, fun i hi hi' => ?_⟩
  exact hvalues i _ (List.getElem?_eq_getElem hi') _ (List.getElem?_eq_getElem hi)

/-! ### Constraints -/

namespace Constraints

/-- The constraints come from expressions that are evaluated in the context: one
obligation from each, in their order, the defined ones of the advice, and a
resource exactly if there is a transformation. -/
structure Declared (W : World → Prop) (ctx : EvaluationContext)
    (obligations advice : List Expression) (transformation : Option Expression) (c : Constraints) :
    Prop where
  obligations : List.Forall₂
    (fun e json => (e.evaluate ctx true .undefined).Delivers W (.defined json))
    obligations c.obligations
  advice : ∃ values, List.Forall₂
    (fun e value => (e.evaluate ctx true .undefined).Delivers W value) advice values ∧
    c.advice = values.filterMap Value.json?
  resource : Option.Rel
    (fun e json => (e.evaluate ctx true .undefined).Delivers W (.defined json))
    transformation c.resource

lemma obligationsOf_eq_ok {values : List Value} {obligations : List Json}
    (h : obligationsOf values = .ok obligations) : values = obligations.map .defined := by
  induction values generalizing obligations with
  | nil => cases h; rfl
  | cons value rest ih =>
    rw [obligationsOf, List.mapM_cons] at h
    cases value with
    | error cause => cases h
    | undefined => cases h
    | defined json =>
      cases hrest : obligationsOf rest with
      | error cause => rw [obligationsOf] at hrest; rw [hrest] at h; cases h
      | ok more =>
        rw [obligationsOf] at hrest
        rw [hrest] at h
        cases h
        rw [List.map_cons, ih hrest]

lemma adviceOf_eq_ok {values : List Value} {advice : List Json}
    (h : adviceOf values = .ok advice) : advice = values.filterMap Value.json? := by
  rw [adviceOf] at h
  split at h
  · cases h
  · exact (Except.ok.inj h).symm

/-- Constraints that values are read as come from what the values come from. -/
lemma ofValues_declared {ctx : EvaluationContext} {obligations advice : List Expression}
    {transformation : Option Expression} {values : List Value}
    (hvalues : List.Forall₂ (fun e value => (e.evaluate ctx true .undefined).Delivers W value)
      (obligations ++ advice ++ transformation.toList) values) {c : Constraints}
    (h : ofValues obligations.length advice.length values = .ok c) :
    c.Declared W ctx obligations advice transformation := by
  obtain ⟨obligationValues, hobligations, h⟩ := Json.exists_of_bind_eq_ok h
  obtain ⟨adviceValues, hadvice, h⟩ := Json.exists_of_bind_eq_ok h
  obtain ⟨resource, hresource, h⟩ := Json.exists_of_bind_eq_ok h
  obtain rfl := Except.ok.inj h
  have hfirst := List.forall₂_take obligations.length hvalues
  have hrest := List.forall₂_drop obligations.length hvalues
  rw [List.append_assoc, List.take_left] at hfirst
  rw [List.append_assoc, List.drop_left] at hrest
  have hsecond := List.forall₂_take advice.length hrest
  have hlast := List.forall₂_drop advice.length hrest
  rw [List.take_left] at hsecond
  rw [List.drop_left, List.drop_drop] at hlast
  refine ⟨?_, ⟨_, hsecond, adviceOf_eq_ok hadvice⟩, ?_⟩
  · rw [obligationsOf_eq_ok hobligations, List.forall₂_map_right_iff] at hfirst
    exact hfirst
  · generalize values.drop (obligations.length + advice.length) = last at hlast hresource
    cases transformation with
    | none =>
      cases hlast
      obtain rfl := Except.ok.inj hresource
      exact .none
    | some e =>
      obtain ⟨value, hvalue, rfl⟩ : ∃ value, (e.evaluate ctx true .undefined).Delivers W value ∧
          last = [value] := by
        cases hlast with
        | cons hvalue hnil =>
          cases hnil
          exact ⟨_, hvalue, rfl⟩
      cases value with
      | error cause => cases hresource
      | undefined => cases hresource
      | defined json =>
        obtain rfl := Except.ok.inj hresource
        exact .some hvalue

/-- Whatever is evaluated from declared constraints comes from them. -/
lemma evaluate_always (ctx : EvaluationContext) (obligations advice : List Expression)
    (transformation : Option Expression) :
    (evaluate ctx obligations advice transformation).Always W fun evaluated =>
      ∀ c, evaluated = .ok c → c.Declared W ctx obligations advice transformation :=
  (Expression.evaluateEach_always ctx true .undefined _).map fun _ hvalues _ h =>
    ofValues_declared hvalues h

end Constraints

/-! ### Policies -/

/-- The decision names the document and fits its failure. -/
structure DocumentDecision.Own (document : String) (d : DocumentDecision) : Prop where
  document : d.document = document
  coherent : d.Coherent

namespace DocumentDecision.Own

variable {document : String}

lemma notApplicable : Own document (.notApplicable document) :=
  ⟨rfl, .notApplicable⟩

lemma indeterminate (cause : EvalError) : Own document (.indeterminate document cause) :=
  ⟨rfl, .indeterminate cause⟩

/-- A permit or a deny that names the document. -/
lemma of_decided {a : AuthorizationDecision} (h : a.decision = .permit ∨ a.decision = .deny) :
    Own document ⟨document, a, none⟩ :=
  ⟨rfl, .of_decided h⟩

end DocumentDecision.Own

/-- What a document decides whose target does not hold. -/
lemma DocumentDecision.ofTarget_eq (document : String) (value : Value) :
    ofTarget document value = .notApplicable document ∨
      ∃ cause, ofTarget document value = .indeterminate document cause := by
  unfold ofTarget
  split
  · exact .inl rfl
  · exact .inl rfl
  · exact .inr ⟨_, rfl⟩
  · exact .inr ⟨_, rfl⟩

/-- Under the guard of a target the decisions are those of what it guards, and
those of a document that does not apply or that failed. -/
lemma guardedBy_always {P : DocumentDecision → Prop} (ctx : EvaluationContext) {document : String}
    (target : Option Expression) {matched : Stream DocumentDecision} (h : matched.Always W P)
    (hnot : P (.notApplicable document)) (hfailed : ∀ cause, P (.indeterminate document cause)) :
    (guardedBy ctx document target matched).Always W P := by
  have hother (value : Value) : P (.ofTarget document value) := by
    rcases DocumentDecision.ofTarget_eq document value with heq | ⟨cause, heq⟩
    · exact heq ▸ hnot
    · exact heq ▸ hfailed cause
  cases target with
  | none => exact h
  | some target =>
    refine (Stream.Always.trivial _).switchMap fun value _ => ?_
    split
    · exact h
    · exact .just (hother _)

namespace Policy

/-- The policy does not apply, or it failed, or it decides its entitlement; then
its body was satisfied, and its constraints come from the expressions that
declare them. -/
def Decides (W : World → Prop) (ctx : EvaluationContext) (policy : Policy)
    (a : AuthorizationDecision) : Prop :=
  a.decision = .notApplicable ∨ a.decision = .indeterminate ∨
    ∃ inner c, (evaluateBody ctx policy.body).Delivers W (.satisfied inner) ∧
      Constraints.Declared W inner policy.obligations policy.advice policy.transformation c ∧
      a = ⟨policy.entitlement.decision, c.resource, c.obligations, c.advice⟩

/-- All that a policy decides is its own and one of these. -/
theorem evaluate_decides (policy : Policy) (ctx : EvaluationContext) :
    (policy.evaluate ctx).Always W fun d =>
      d.Own policy.name ∧ policy.Decides W ctx d.authorization := by
  have hnot : (DocumentDecision.notApplicable policy.name).Own policy.name ∧
      policy.Decides W ctx (DocumentDecision.notApplicable policy.name).authorization :=
    ⟨.notApplicable, .inl rfl⟩
  have hfailed (cause : EvalError) :
      (DocumentDecision.indeterminate policy.name cause).Own policy.name ∧
        policy.Decides W ctx (DocumentDecision.indeterminate policy.name cause).authorization :=
    ⟨.indeterminate cause, .inr (.inl rfl)⟩
  have hdecided : policy.entitlement.decision = .permit ∨ policy.entitlement.decision = .deny := by
    cases policy.entitlement with
    | permit => exact .inl rfl
    | deny => exact .inr rfl
  refine (guardedBy_always ctx policy.target ?_ hnot hfailed).distinct _
  refine (Stream.Always.delivers _).switchMap fun outcome houtcome => ?_
  cases outcome with
  | unsatisfied => exact .just hnot
  | failed cause => exact .just (hfailed cause)
  | satisfied inner =>
    refine (Constraints.evaluate_always inner _ _ _).map fun evaluated hevaluated => ?_
    cases evaluated with
    | error cause => exact hfailed cause
    | ok c => exact ⟨.of_decided hdecided, .inr (.inr ⟨inner, c, houtcome, hevaluated c rfl, rfl⟩)⟩

end Policy

/-! ### Policy sets -/

/-- The first applicable one of decisions that fit their failures fits its own,
whatever was seen before. -/
lemma firstApplicableLive_coherent {units : List (Stream DocumentDecision)}
    (h : ∀ unit ∈ units, unit.Always W DocumentDecision.Coherent) {seen : List DocumentDecision}
    (hseen : ∀ d ∈ seen, d.Coherent) :
    (firstApplicableLive units seen).Always W Combined.Coherent := by
  induction units generalizing seen with
  | nil => exact .just (Combining.firstApplicable_coherent hseen)
  | cons unit rest ih =>
    rw [List.forall_mem_cons] at h
    refine h.1.switchMap fun d hd => ?_
    have hmore : ∀ e ∈ seen ++ [d], e.Coherent := by
      simp only [List.mem_append, List.mem_singleton]
      rintro e (he | rfl)
      · exact hseen e he
      · exact hd
    split
    · exact ih h.2 hmore
    · exact .just (Combining.firstApplicable_coherent hmore)

/-- Live decisions that fit their failures are combined to such. -/
theorem combineLive_coherent (algorithm : CombiningAlgorithm)
    {units : List (Stream DocumentDecision)}
    (h : ∀ unit ∈ units, unit.Always W DocumentDecision.Coherent) :
    (combineLive algorithm units).Always W Combined.Coherent := by
  refine Stream.Always.distinct ?_ _
  split
  · exact firstApplicableLive_coherent h (by simp)
  · refine (Stream.Always.combineLatest fun i unit hi => h unit (List.mem_of_getElem? hi)).map ?_
    rintro ds ⟨-, hds⟩
    refine combine_coherent algorithm fun d hd => ?_
    obtain ⟨i, hi⟩ := List.mem_iff_getElem?.mp hd
    exact hds i d hi

namespace PolicySet

/-- With the constraints of the set in it, a permit or a deny stays the set's own. -/
lemma decide_own (set : PolicySet) (ctx : EvaluationContext) {combined : Combined}
    (h : combined.Coherent) : (set.decide ctx combined).Always W (·.Own set.name) := by
  simp only [decide]
  split
  · rename_i happlies
    refine (Stream.Always.trivial _).map fun evaluated _ => ?_
    cases evaluated with
    | error cause => exact .indeterminate cause
    | ok c => exact .of_decided happlies.1
  · exact .just ⟨rfl, h⟩

/-- All that a set decides is its own. -/
theorem evaluate_own (set : PolicySet) (ctx : EvaluationContext) :
    (set.evaluate ctx).Always W (·.Own set.name) := by
  refine (guardedBy_always ctx set.target ?_ .notApplicable .indeterminate).distinct _
  refine (Stream.Always.trivial _).switchMap fun bound _ => ?_
  cases bound with
  | error cause => exact .just (.indeterminate cause)
  | ok inner =>
    refine (combineLive_coherent set.algorithm fun unit hunit => ?_).switchMap
      fun combined hcombined => set.decide_own inner hcombined
    obtain ⟨policy, -, rfl⟩ := List.mem_map.mp hunit
    exact (policy.evaluate_decides inner).mono fun d hd => hd.1.coherent

end PolicySet

/-! ### Documents -/

/-- Whatever a document decides, in worlds of any kind and however they change:
it names itself and fits its failure, and a policy does not apply, has failed, or
decides its entitlement with constraints from the expressions that declare them. -/
theorem PolicyDocument.always_coherent (W : World → Prop) (document : PolicyDocument)
    (ctx : EvaluationContext) :
    (document.evaluate ctx).Always W fun d =>
      d.document = document.name ∧
      (d.error.isSome ↔ d.decision = .indeterminate) ∧
      (d.decision = .indeterminate ∨ d.decision = .notApplicable →
        d.authorization.resource = none ∧ d.authorization.obligations = [] ∧
          d.authorization.advice = []) ∧
      ∀ policy, document = .policy policy → policy.Decides W ctx d.authorization := by
  cases document with
  | policy p =>
    refine (p.evaluate_decides ctx).mono fun d ⟨hown, hdecides⟩ => ?_
    refine ⟨hown.document, hown.coherent.failed, hown.coherent.bare, ?_⟩
    intro policy hpolicy
    obtain rfl := PolicyDocument.policy.inj hpolicy
    exact hdecides
  | set s =>
    refine (s.evaluate_own ctx).mono fun d hown => ?_
    exact ⟨hown.document, hown.coherent.failed, hown.coherent.bare, by simp⟩

end Verdict
