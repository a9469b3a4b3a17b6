/-
Several subscriptions at once.

The decisions for several subscriptions are those for each of them, interleaved.
Reading them all, a selection asks only those that an event has woken, while a reader
of one of them asks it in every read; since a stream that was read to the end sleeps
until something happens that it waits for, this makes no difference.

* `Stream.Mirrors`: a selection stands as its children would on their own.
* `Stream.Mirrors.movedAll`: it does so whatever happens.
* `decisionsFor`: the decisions under one id.
* `MultiSubscription.nodup_ofList`: the ids of several subscriptions are distinct.
* `DecisionPoint.decideAll_interleaves`: each subscription gets the decisions that its
  own reader would get, read by read.
-/
import Verdict.Proofs.DecisionPoint.Moves
import Verdict.Proofs.DecisionPoint.Reporting
import Verdict.Proofs.Evaluation.Punctual

namespace Verdict

variable {α β : Type}

open Session (Move)

namespace Stream

/-! ### Selections -/

/-- The selection stands as its children do on their own: it has ended when all of
them have, and those that it is not going to ask are at rest. -/
def Mirrors (w : World) (ts : List (Stream α)) (s : Stream (Nat × α)) : Prop :=
  (s = ended ∧ ∀ t ∈ ts, t.isEnded = true) ∨
    ∃ queue, s = .select (StreamList.ofList ts) queue ∧
      ∀ i t, ts[i]? = some t → i ∉ queue → t.Rested w

namespace Mirrors

variable {w : World} {ts : List (Stream α)} {s : Stream (Nat × α)}

lemma merge (w : World) (ts : List (Stream α)) : Mirrors w ts (Stream.merge ts) := by
  refine .inr ⟨_, rfl, fun i t ht hi => absurd (List.mem_range.mpr ?_) hi⟩
  exact (List.getElem?_eq_some_iff.mp ht).1

/-- Reading the selection delivers of each child what the child delivers. -/
theorem itemsOf_run (h : Mirrors w ts s) (i : Nat) :
    itemsOf i (s.run w).toList = ((ts[i]?).map fun t => (t.run w).toList).getD [] := by
  rcases h with ⟨rfl, hended⟩ | ⟨queue, rfl, hrest⟩
  · have hnil : itemsOf i ((ended : Stream (Nat × α)).run w).toList = [] := rfl
    rw [hnil]
    cases ht : ts[i]? with
    | none => rfl
    | some t =>
      rw [eq_ended_of_isEnded (hended t (List.mem_of_getElem? ht))]
      rfl
  · rw [itemsOf_run_select]
    split
    · rfl
    · rename_i hi
      cases ht : ts[i]? with
      | none => rfl
      | some t => exact (hrest i t ht hi).toList_run.symm

lemma drainedAt_eq {queue : List Nat} (hrest : ∀ i t, ts[i]? = some t → i ∉ queue → t.Rested w) :
    drainedAt w queue ts = ts.map (drained w) := by
  refine List.ext_getElem? fun i => ?_
  rw [drainedAt, List.getElem?_mapIdx, List.getElem?_map]
  cases ht : ts[i]? with
  | none => rfl
  | some t =>
    by_cases hi : i ∈ queue
    · simp [hi]
    · simp [hi, (hrest i t ht hi).drained]

/-- Reading it to the end leaves it at the end exactly if the children all end. -/
theorem isEnded_drained (h : Mirrors w ts s) :
    (s.drained w).isEnded = true ↔ ∀ t ∈ ts, (t.drained w).isEnded = true := by
  rcases h with ⟨rfl, hended⟩ | ⟨queue, rfl, hrest⟩
  · refine iff_of_true rfl fun t ht => ?_
    rw [eq_ended_of_isEnded (hended t ht)]
    rfl
  · rw [drained_select, drainedAt_eq hrest]
    split
    · rename_i hall
      exact iff_of_true rfl (by simpa using hall)
    · rename_i hsome
      refine iff_of_false Bool.false_ne_true fun hall => hsome ?_
      simpa using hall

/-- And it stands as the children do that were read to the end. -/
theorem drained (h : Mirrors w ts s) (hts : ∀ t ∈ ts, t.Punctual) :
    Mirrors w (ts.map (Stream.drained w)) (s.drained w) := by
  rcases h with ⟨rfl, hended⟩ | ⟨queue, rfl, hrest⟩
  · refine .inl ⟨rfl, List.forall_mem_map.mpr fun t ht => ?_⟩
    rw [eq_ended_of_isEnded (hended t ht)]
    rfl
  · rw [drained_select, drainedAt_eq hrest]
    split
    · exact .inl ⟨rfl, List.all_eq_true.mp ‹_›⟩
    · have hall : ∀ t ∈ ts.map (Stream.drained w), t.Rested w :=
        List.forall_mem_map.mpr fun t ht => ((hts t ht).drained w).2
      exact .inr ⟨[], rfl, fun i t ht _ => hall t (List.mem_of_getElem? ht)⟩

/-- Being told of a change, it wakes the children that wait for it. -/
theorem heard (h : Mirrors w ts s) (m : Move) :
    Mirrors (w.moved m) (ts.map fun t => t.heard (m.events w t)) (s.heard (m.events w s)) := by
  rcases h with ⟨rfl, hended⟩ | ⟨queue, rfl, hrest⟩
  · refine .inl ⟨heard_ended _, List.forall_mem_map.mpr fun t ht => ?_⟩
    rw [isEnded_heard]
    exact hended t ht
  · set s := Stream.select (StreamList.ofList ts) queue with hs
    have hpart (t) (ht : t ∈ ts) (d) (hd : d ∈ t.deadlines) : d ∈ s.deadlines :=
      StreamList.mem_deadlines_ofList.mpr ⟨t, ht, hd⟩
    obtain ⟨queue', hheard, hqueue⟩ := heard_select (m.events w s) ts queue
    have hown : ts.map (Stream.heard (m.events w s))
        = ts.map fun t => t.heard (m.events w t) :=
      List.map_congr_left fun t ht => heard_events_of_part (hpart t ht) w m
    rw [hown] at hheard
    refine .inr ⟨queue', hheard, fun i t' ht' hi => ?_⟩
    rw [List.getElem?_map, Option.map_eq_some_iff] at ht'
    obtain ⟨t, ht, rfl⟩ := ht'
    rw [hqueue, not_or] at hi
    -- A child that was not woken is as it was, and so is all that it waits for.
    have hdeaf : ¬ t.Hears (m.events w s) := fun hhears => hi.2 ⟨t, ht, hhears⟩
    have hmem := hpart t (List.mem_of_getElem? ht)
    rw [← heard_events_of_part hmem, heard_of_not_hears hdeaf]
    exact (hrest i t ht hi.1).of_unmoved (unmoved_of_not_hears hmem hdeaf)

/-- Whatever is done, the selection stands as its children do on their own. -/
theorem moved (h : Mirrors w ts s) (hts : ∀ t ∈ ts, t.Punctual) (id : String) (m : Move) :
    Mirrors (w.moved m) (ts.map (Stream.moved id w m)) (s.moved id w m) := by
  have hmoved {γ : Type} : Stream.moved id w m (α := γ)
      = fun t => if m.reads id then t.drained w else t.heard (m.events w t) := rfl
  rw [hmoved, hmoved]
  by_cases hreads : m.reads id = true
  · have hworld : w.moved m = w := by
      cases m <;> first | rfl | cases hreads
    simp only [hreads, ↓reduceIte, hworld]
    exact h.drained hts
  · simp only [hreads]
    exact h.heard m

theorem movedAll (h : Mirrors w ts s) (hts : ∀ t ∈ ts, t.Punctual) (id : String)
    (moves : List Move) :
    Mirrors (moves.foldl World.moved w) (ts.map fun t => t.movedAll id w moves)
      (s.movedAll id w moves) := by
  induction moves generalizing w ts s with
  | nil =>
    have hsame : (ts.map fun t => t.movedAll id w []) = ts := List.map_id' ts
    rw [hsame]
    exact h
  | cons m rest ih =>
    have hpunctual : ∀ t ∈ ts.map (Stream.moved id w m), t.Punctual :=
      List.forall_mem_map.mpr fun t ht => (hts t ht).moved id w m
    have hrest := ih (h.moved hts id m) hpunctual
    rw [List.map_map] at hrest
    exact hrest

end Mirrors

end Stream

/-! ### Decisions for several subscriptions -/

/-- The decisions for the subscription of an id among those for several. -/
def decisionsFor (id : String) (got : List (String × AuthorizationDecision)) :
    List AuthorizationDecision :=
  got.filterMap fun (i, d) => if i = id then some d else none

/-- Items that stand under an id in each slot, with different ids in different slots:
those of an id are those of its slot. -/
lemma decisionsFor_eq {items : List (Nat × String × AuthorizationDecision)} {ids : List String}
    (hslot : ∀ item ∈ items, ids[item.1]? = some item.2.1) (hids : ids.Nodup) {i : Nat}
    {id : String} (hi : ids[i]? = some id) :
    decisionsFor id (items.map Prod.snd) = (itemsOf i items).map Prod.snd := by
  rw [decisionsFor, itemsOf, List.filterMap_map, List.map_filterMap]
  refine List.filterMap_congr fun item hitem => ?_
  have hown := hslot item hitem
  have hlt : i < ids.length := (List.getElem?_eq_some_iff.mp hi).1
  by_cases hslot : item.1 = i
  · have hid : item.2.1 = id := by
      rw [hslot, hi] at hown
      exact (Option.some.inj hown).symm
    simp [hslot, hid]
  · have hid : item.2.1 ≠ id := by
      intro hid
      rw [hid, ← hi] at hown
      exact hslot ((List.getElem?_inj hlt hids).mp hown.symm).symm
    simp [hslot, hid]

/-- There are none for an id that no slot has. -/
lemma decisionsFor_eq_nil {items : List (Nat × String × AuthorizationDecision)} {ids : List String}
    (hslot : ∀ item ∈ items, ids[item.1]? = some item.2.1) {id : String} (hid : id ∉ ids) :
    decisionsFor id (items.map Prod.snd) = [] := by
  rw [decisionsFor, List.filterMap_eq_nil_iff]
  intro entry hentry
  obtain ⟨item, hitem, rfl⟩ := List.mem_map.mp hentry
  refine if_neg fun h => hid ?_
  rw [← h]
  exact List.mem_of_getElem? (hslot item hitem)

namespace MultiSubscription

/-- A subscription takes its place among ids in ascending order. -/
lemma pairwise_insert (id : String) (s : AuthorizationSubscription)
    {done : List (String × AuthorizationSubscription)} (h : (done.map Prod.fst).Pairwise (· < ·)) :
    ((insert id s done).map Prod.fst).Pairwise (· < ·) ∧
      ∀ i ∈ (insert id s done).map Prod.fst, i = id ∨ i ∈ done.map Prod.fst := by
  induction done with
  | nil => simp [insert]
  | cons entry rest ih =>
    obtain ⟨i, t⟩ := entry
    have hdone := h
    rw [List.map_cons, List.pairwise_cons] at h
    obtain ⟨hfirst, hrest⟩ := h
    rw [insert]
    split
    · rename_i hlt
      refine ⟨List.pairwise_cons.mpr ⟨?_, hdone⟩, by simp⟩
      exact List.forall_mem_cons.mpr ⟨hlt, fun j hj => lt_trans hlt (hfirst j hj)⟩
    · split
      · rename_i heq
        subst heq
        exact ⟨hdone, by simp⟩
      · rename_i hnot hne
        obtain ⟨hsorted, hmem⟩ := ih hrest
        refine ⟨List.pairwise_cons.mpr ⟨fun j hj => ?_, hsorted⟩, fun j hj => ?_⟩
        · rcases hmem j hj with rfl | hj
          · exact lt_of_le_of_ne (not_lt.mp hnot) (Ne.symm hne)
          · exact hfirst j hj
        · rcases List.mem_cons.mp hj with rfl | hj
          · exact .inr List.mem_cons_self
          · exact (hmem j hj).imp_right (List.mem_cons_of_mem _)

/-- The ids of several subscriptions are distinct. -/
theorem nodup_ofList (subscriptions : List (String × AuthorizationSubscription)) :
    ((ofList subscriptions).subscriptions.map Prod.fst).Nodup := by
  have hfold (done : List (String × AuthorizationSubscription))
      (h : (done.map Prod.fst).Pairwise (· < ·)) :
      ((subscriptions.foldl (fun done entry => insert entry.1 entry.2 done) done).map
        Prod.fst).Pairwise (· < ·) := by
    induction subscriptions generalizing done with
    | nil => exact h
    | cons entry rest ih => exact ih _ (pairwise_insert entry.1 entry.2 h).1
  exact (hfold [] .nil).imp ne_of_lt

end MultiSubscription

/-- A selection among streams under ids delivers each item under the id of its slot. -/
lemma Stream.Mirrors.getElem?_of_mem {w : World} {entries : List (String × Stream α)}
    {s : Stream (Nat × String × α)}
    (h : Stream.Mirrors w (entries.map fun (id, t) => t.mapped (id, ·)) s) :
    ∀ item ∈ (s.run w).toList, (entries.map Prod.fst)[item.1]? = some item.2.1 := by
  intro item hitem
  have hmem := mem_itemsOf hitem
  rw [h.itemsOf_run, List.getElem?_map] at hmem
  rw [List.getElem?_map]
  cases hentry : entries[item.1]? with
  | none => simp [hentry] at hmem
  | some entry =>
    simp only [hentry, Option.map_some, Option.getD_some, Stream.toList_run_mapped] at hmem
    obtain ⟨a, -, ha⟩ := List.mem_map.mp hmem
    rw [Option.map_some, ← ha]

namespace DecisionPoint

/-- The live decisions for several subscriptions are an interleaving of those for each
of them.  Whatever owners and readers do before it, and whatever was read before, a
read of them gives decisions under the ids of the subscriptions alone; those under an
id are what a reader of the decisions for its subscription would get in the same read
after the same moves; and they have ended exactly if those for every subscription have. -/
theorem decideAll_interleaves {point : DecisionPoint} (hpoint : point.Punctual)
    (m : MultiSubscription) (hids : (m.subscriptions.map Prod.fst).Nodup) (s : Session)
    (reader : String) (moves : List Session.Move) (hmoves : ∀ move ∈ moves, move.Drains reader) :
    let all := s.drainAfter reader
      ((point.decideAll m).map fun entry => Delivery.identified entry.1 entry.2) moves
    let alone := fun subscription =>
      s.drainAfter reader ((point.decide subscription).map Delivery.decision) moves
    ∃ got : List (String × AuthorizationDecision),
      all.1 = got.map (fun entry => Delivery.identified entry.1 entry.2) ∧
      (∀ id subscription, (id, subscription) ∈ m.subscriptions →
        (alone subscription).1 = (decisionsFor id got).map Delivery.decision) ∧
      (∀ id, id ∉ m.subscriptions.map Prod.fst → decisionsFor id got = []) ∧
      (all.2 = true ↔ ∀ id subscription, (id, subscription) ∈ m.subscriptions →
        (alone subscription).2 = true) := by
  intro all alone
  -- The streams of the subscriptions as their own readers have them after the moves.
  set w := moves.foldl World.moved s.world with hw
  let rest (subscription : AuthorizationSubscription) : Stream AuthorizationDecision :=
    (point.decide subscription).movedAll reader s.world moves
  have halone (subscription : AuthorizationSubscription) : alone subscription
      = (((rest subscription).run w).toList.map .decision,
        ((rest subscription).drained w).isEnded) :=
    Session.drainAfter_eq hmoves rfl _ s
  let entries := m.subscriptions.map fun entry => (entry.1, rest entry.2)
  have hkeys : entries.map Prod.fst = m.subscriptions.map Prod.fst := by
    rw [List.map_map]
    rfl
  -- The selection among them stands as they do.
  let children := m.subscriptions.map fun entry => (point.decide entry.2).map (entry.1, ·)
  set selection := (Stream.merge children).movedAll reader s.world moves with hselection
  have hmirrors :
      Stream.Mirrors w (entries.map fun entry => entry.2.mapped (entry.1, ·)) selection := by
    have hpunctual : ∀ t ∈ children, t.Punctual :=
      List.forall_mem_map.mpr fun entry _ => (decide_punctual hpoint entry.2).map _
    have h := (Stream.Mirrors.merge s.world children).movedAll hpunctual reader moves
    have hentries : (entries.map fun entry => entry.2.mapped (entry.1, ·))
        = children.map fun t => t.movedAll reader s.world moves := by
      rw [List.map_map, List.map_map]
      exact List.map_congr_left fun entry _ => (Stream.movedAll_map rfl ..).symm
    rw [hentries]
    exact h
  have hslot := hmirrors.getElem?_of_mem
  rw [hkeys] at hslot
  have hall : all = ((selection.run w).toList.map fun item => .identified item.2.1 item.2.2,
      (selection.drained w).isEnded) := by
    have heq : (point.decideAll m).movedAll reader s.world moves = selection.mapped Prod.snd :=
      Stream.movedAll_map rfl reader s.world moves Prod.snd
    have hdrain := Session.drainAfter_eq hmoves (t := point.decideAll m) rfl
      (fun entry => Delivery.identified entry.1 entry.2) s
    simp only [heq, Stream.toList_run_mapped, Stream.drained_mapped, Stream.isEnded_mapped,
      List.map_map] at hdrain
    exact hdrain
  refine ⟨(selection.run w).toList.map Prod.snd, ?_, fun id subscription hentry => ?_,
    fun id hid => decisionsFor_eq_nil hslot hid, ?_⟩
  · rw [hall, List.map_map]
    rfl
  · obtain ⟨i, hi⟩ := List.mem_iff_getElem?.mp hentry
    have hid : (m.subscriptions.map Prod.fst)[i]? = some id := by
      rw [List.getElem?_map, hi]
      rfl
    rw [halone, decisionsFor_eq hslot hids hid, hmirrors.itemsOf_run, List.getElem?_map,
      List.getElem?_map, hi]
    simp only [Option.map_some, Option.getD_some, Stream.toList_run_mapped, List.map_map]
    rfl
  · rw [hall]
    simp only [hmirrors.isEnded_drained, entries, List.forall_mem_map, Stream.drained_mapped,
      Stream.isEnded_mapped, halone]
    exact ⟨fun h id subscription hentry => h (id, subscription) hentry,
      fun h entry hentry => h entry.1 entry.2 hentry⟩

/-- The first gate of a policy opens between two reads of the decisions for two
subscriptions. -/
theorem decideAll_interleaves_gate :
    let point := Reporting.gatekeeper
    let m := MultiSubscription.ofList [("b", Reporting.anyone), ("a", Reporting.anyone)]
    let moves : List Session.Move := [.poll "pdp" none, .publish "a" (.ofBool true)]
    let all := Session.drainAfter { world := Reporting.gated } "pdp"
      ((point.decideAll m).map fun entry => Delivery.identified entry.1 entry.2) moves
    ∃ got : List (String × AuthorizationDecision),
      all.1 = got.map (fun entry => Delivery.identified entry.1 entry.2) ∧
      (∀ id ∈ ["a", "b"], decisionsFor id got = [.plain .permit]) ∧
      decisionsFor "c" got = [] ∧ all.2 = false := by
  intro point m moves all
  have hmoves : ∀ move ∈ moves, move.Drains "pdp" := by
    simp [moves, Session.Move.Drains, Session.Move.Spares]
  obtain ⟨got, hgot, halone, hforeign, hends⟩ := decideAll_interleaves
    (watching_punctual .empty (.watching ["a", "b"]) []) m (MultiSubscription.nodup_ofList _)
    { world := Reporting.gated } "pdp" moves hmoves
  have hsubscriptions : m.subscriptions = [("a", Reporting.anyone), ("b", Reporting.anyone)] := by
    cbv
  have hread : Session.drainAfter { world := Reporting.gated } "pdp"
      ((point.decide Reporting.anyone).map Delivery.decision) moves
        = ([.decision (.plain .permit)], false) := by
    simp only [point, moves]
    cbv
  refine ⟨got, hgot, fun id hid => ?_, hforeign "c" ?_, Bool.eq_false_iff.mpr fun hended => ?_⟩
  · have hmem : (id, Reporting.anyone) ∈ m.subscriptions := by
      rw [hsubscriptions]
      simpa using hid
    have heq : (decisionsFor id got).map Delivery.decision = [.plain .permit].map .decision :=
      (halone id Reporting.anyone hmem).symm.trans (congrArg Prod.fst hread)
    exact List.map_injective_iff.mpr (fun _ _ => Delivery.decision.inj) heq
  · rw [hsubscriptions]
    simp
  · have hgone := hends.mp hended "a" Reporting.anyone (by simp [hsubscriptions])
    exact absurd (hgone.symm.trans (congrArg Prod.snd hread)) (by simp)

end DecisionPoint

end Verdict
