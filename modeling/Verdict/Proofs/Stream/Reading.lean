/-
What reading a stream to the end delivers, and what it leaves behind.

* `passed`, `stateAfter`: what a stateful step lets through of a list, and the
  state behind the list.
* `Stream.drained`: the stream as it stands when everything that it has to
  deliver in a world has been read.
* `Run.toList_through`, `Run.final_through`: reading through a state.
* `Stream.current`, `Stream.run_switch`: a switch reads the stream of the last
  item of its source.
* `Child.itemsOf_schedule`, `Child.final_schedule`: a selection delivers what its
  children deliver, and leaves each of them drained.
-/
import Mathlib.Tactic.Common
import Verdict.Stream.Lemmas

namespace Verdict

variable {σ α β : Type}

/-! ### Steps through a state -/

/-- What a step lets through of a list of items. -/
def passed (step : σ → α → σ × Option β) (state : σ) : List α → List β
  | [] => []
  | a :: rest => (step state a).2.toList ++ passed step (step state a).1 rest

/-- The state behind a list of items. -/
def stateAfter (step : σ → α → σ × Option β) (state : σ) : List α → σ
  | [] => state
  | a :: rest => stateAfter step (step state a).1 rest

@[simp] lemma passed_nil (step : σ → α → σ × Option β) (state : σ) :
    passed step state [] = [] := rfl

/-- What a stage lets through for an item, and then for the rest in the state behind it. -/
lemma passed_cons (step : σ → α → σ × Option β) (state : σ) (a : α) (rest : List α) :
    passed step state (a :: rest) = (step state a).2.toList ++ passed step (step state a).1 rest :=
  rfl

@[simp] lemma stateAfter_nil (step : σ → α → σ × Option β) (state : σ) :
    stateAfter step state [] = state := rfl

/-- A stage that maps lets every item through. -/
lemma passed_map (f : α → β) (items : List α) :
    passed (fun (_ : Unit) a => ((), some (f a))) () items = items.map f := by
  induction items with
  | nil => rfl
  | cons a rest ih => simp [passed, ih]

namespace Run

/-- Behind a stage stand the items that it lets through. -/
lemma toList_through (stage : σ → Stream α → Stream β) (step : σ → α → σ × Option β)
    (state : σ) (r : Run α) :
    (r.through stage step state).toList = passed step state r.toList := by
  induction r generalizing state with
  | pending rest => rfl
  | ended => rfl
  | item a rest more ih =>
    simp only [through, toList, passed]
    rcases step state a with ⟨next, _ | b⟩ <;> simp [toList, ih]

/-- Behind the items stands the stage in its last state, above what is left of the source. -/
lemma final_through (stage : σ → Stream α → Stream β) (step : σ → α → σ × Option β)
    (state : σ) (r : Run α) :
    (r.through stage step state).final
      = r.final.map (stage (stateAfter step state r.toList)) := by
  induction r generalizing state with
  | pending rest => rfl
  | ended => rfl
  | item a rest more ih =>
    simp only [through, toList, final, stateAfter]
    rcases step state a with ⟨next, _ | b⟩ <;> simp [final, ih]

/-- A switch has ended where its source and what it runs have, and otherwise waits above
both. -/
lemma final_switched (bounded : Bool) (project : α → Stream β) (source : Stream α) (r : Run β) :
    (r.switched bounded project source).final
      = match r.final with
        | some inner => some (.switch bounded project source inner)
        | none => if source.isEnded then none
            else some (.switch bounded project source Stream.ended) := by
  induction r with
  | pending rest => rfl
  | ended =>
    simp only [switched, final]
    split <;> rfl
  | item a rest more ih => simp [switched, final, ih]

/-- The last item is there exactly if there is an item at all. -/
lemma last?_none_eq (r : Run α) : r.last? none = r.toList.getLast? := by
  simp [last?_eq]

end Run

/-! ### The children of a selection -/

/-- The items of one slot among the items of all. -/
def itemsOf (slot : Nat) (items : List (Nat × α)) : List α :=
  items.filterMap fun (i, a) => if i = slot then some a else none

@[simp] lemma itemsOf_nil (slot : Nat) : itemsOf slot ([] : List (Nat × α)) = [] := rfl

/-- An item is one of its own slot. -/
lemma itemsOf_cons (slot i : Nat) (a : α) (items : List (Nat × α)) :
    itemsOf slot ((i, a) :: items) =
      if i = slot then a :: itemsOf slot items else itemsOf slot items := by
  by_cases h : i = slot <;> simp [itemsOf, h]

/-- Replacing an element by one of the same image leaves the images as they are. -/
lemma map_set_of_getElem? {γ : Type*} {δ : Type*} (f : δ → γ) {xs : List δ} {i : Nat} {old new : δ}
    (h : xs[i]? = some old) (heq : f new = f old) : (xs.set i new).map f = xs.map f := by
  refine List.ext_getElem? fun j => ?_
  rw [List.getElem?_map, List.getElem?_map, List.getElem?_set]
  split
  · rename_i hij
    subst hij
    rw [if_pos (List.getElem?_eq_some_iff.mp h).1, h, Option.map_some, Option.map_some, heq]
  · rfl

namespace Child

/-- The items that a child is still going to deliver. -/
def remaining : Child α → List α
  | ready _ r => r.toList
  | _ => []

/-- The child when it has delivered everything. -/
def settled : Child α → Child α
  | ready _ r =>
    match r.final with
    | some s => idle s
    | none => gone
  | child => child

/-- Every child that may still deliver stands in the queue. -/
def Queued (children : List (Child α)) (queue : List Nat) : Prop :=
  ∀ i s r, children[i]? = some (ready s r) → i ∈ queue

/-- Putting a child in place keeps those with unread items queued, if it is queued itself where
it has some. -/
lemma Queued.set {children : List (Child α)} {queue queue' : List Nat} {i : Nat} {new : Child α}
    (h : Queued children (i :: queue)) (hsub : ∀ j ∈ queue, j ∈ queue')
    (hnew : ∀ s r, new = ready s r → i ∈ queue') : Queued (children.set i new) queue' := by
  intro j s r hj
  rw [List.getElem?_set] at hj
  split at hj
  · rename_i hij
    subst hij
    split at hj
    · exact hnew s r (by simpa using hj)
    · simp at hj
  · rename_i hij
    rcases List.mem_cons.mp (h j s r hj) with rfl | hmem
    · exact absurd rfl hij
    · exact hsub j hmem

/-- A slot without unread items may leave the queue. -/
lemma Queued.tail {children : List (Child α)} {queue : List Nat} {i : Nat}
    (h : Queued children (i :: queue)) (hi : ∀ s r, children[i]? ≠ some (ready s r)) :
    Queued children queue := by
  intro j s r hj
  rcases List.mem_cons.mp (h j s r hj) with rfl | hmem
  · exact absurd hj (hi s r)
  · exact hmem

lemma Queued.map_settled_nil {children : List (Child α)} (h : Queued children []) :
    children.map settled = children := by
  refine List.ext_getElem? fun i => ?_
  rw [List.getElem?_map]
  cases hi : children[i]? with
  | none => rfl
  | some child =>
    cases child with
    | gone => rfl
    | idle s => rfl
    | ready s r => exact absurd (h i s r hi) (by simp)

/-! Asking the child at the front of the queue. -/

/-- A queued child delivers one item and goes to the back of the queue. -/
lemma schedule_item {children : List (Child α)} {i : Nat} {s₀ s : Stream α} {a : α} {more : Run α}
    (h : children[i]? = some (ready s₀ (.item a s more))) (queue : List Nat) :
    schedule children (i :: queue)
      = .item (i, a) (.select (streams (children.set i (ready s more))) (queue ++ [i]))
          (schedule (children.set i (ready s more)) (queue ++ [i])) := by
  rw [schedule]
  split
  next h' =>
    rw [h] at h'
    cases h'
    rfl
  next h' => simp [h] at h'
  next h' => simp [h] at h'
  next hno _ _ => exact (hno _ _ _ _ h).elim

/-- A child that waits leaves the queue. -/
lemma schedule_pending {children : List (Child α)} {i : Nat} {s s' : Stream α}
    (h : children[i]? = some (ready s (.pending s'))) (queue : List Nat) :
    schedule children (i :: queue) = schedule (children.set i (idle s')) queue := by
  rw [schedule]
  split <;> simp_all

/-- A child that has ended leaves the queue and is gone. -/
lemma schedule_ended {children : List (Child α)} {i : Nat} {s : Stream α}
    (h : children[i]? = some (ready s .ended)) (queue : List Nat) :
    schedule children (i :: queue) = schedule (children.set i gone) queue := by
  rw [schedule]
  split <;> simp_all

/-- Slots without unread items are passed over. -/
lemma schedule_skip {children : List (Child α)} {i : Nat}
    (h : ∀ s r, children[i]? ≠ some (ready s r)) (queue : List Nat) :
    schedule children (i :: queue) = schedule children queue := by
  rw [schedule]
  split <;> simp_all

/-- What a child is: not asked, or asked and in one of three positions. -/
lemma not_ready {children : List (Child α)} {i : Nat}
    (hitem : ∀ s₀ a s more, children[i]? ≠ some (ready s₀ (.item a s more)))
    (hpending : ∀ s s', children[i]? ≠ some (ready s (.pending s')))
    (hended : ∀ s, children[i]? ≠ some (ready s .ended)) (s : Stream α) (r : Run α) :
    children[i]? ≠ some (ready s r) := by
  cases r with
  | pending rest => exact hpending s rest
  | ended => exact hended s
  | item a rest more => exact hitem s a rest more

lemma Queued.remaining_nil {children : List (Child α)} (h : Queued children []) (slot : Nat) :
    ((children.map remaining)[slot]?).getD [] = [] := by
  rw [List.getElem?_map]
  cases hi : children[slot]? with
  | none => rfl
  | some child =>
    cases child with
    | gone => rfl
    | idle s => rfl
    | ready s r => exact absurd (h slot s r hi) (by simp)

/-- A selection leaves its children drained, and nothing in the queue. -/
theorem final_schedule (children : List (Child α)) (queue : List Nat)
    (h : Queued children queue) :
    (schedule children queue).final
      = if (children.map settled).all isGone then none
        else some (.select (streams (children.map settled)) []) := by
  induction children, queue using schedule.induct with
  | case1 children hgone =>
    rw [schedule, if_pos hgone, h.map_settled_nil, if_pos hgone]
    rfl
  | case2 children hgone =>
    rw [schedule, if_neg hgone, h.map_settled_nil, if_neg hgone]
    rfl
  | case3 children i queue stream a s more hi _ ih =>
    have hq : Queued (children.set i (ready s more)) (queue ++ [i]) :=
      h.set (fun j hj => List.mem_append_left _ hj) (by simp)
    have hsettled : (children.set i (ready s more)).map settled = children.map settled :=
      map_set_of_getElem? settled hi rfl
    rw [schedule_item hi, Run.final, ih hq, hsettled]
  | case4 children i queue s s' hi _ ih =>
    have hq : Queued (children.set i (idle s')) queue := h.set (fun _ hj => hj) (by simp)
    rw [schedule_pending hi, ih hq, map_set_of_getElem? settled hi (by rfl)]
  | case5 children i queue s hi _ ih =>
    have hq : Queued (children.set i gone) queue := h.set (fun _ hj => hj) (by simp)
    rw [schedule_ended hi, ih hq, map_set_of_getElem? settled hi (by rfl)]
  | case6 children i queue hitem hpending hended ih =>
    have hi := not_ready hitem hpending hended
    rw [schedule_skip hi, ih (h.tail hi)]

/-- A selection delivers of each slot what the child there delivers. -/
theorem itemsOf_schedule (children : List (Child α)) (queue : List Nat)
    (h : Queued children queue) (slot : Nat) :
    itemsOf slot (schedule children queue).toList
      = ((children.map remaining)[slot]?).getD [] := by
  induction children, queue using schedule.induct with
  | case1 children hgone =>
    rw [schedule, if_pos hgone, h.remaining_nil]
    rfl
  | case2 children hgone =>
    rw [schedule, if_neg hgone, h.remaining_nil]
    rfl
  | case3 children i queue stream a s more hi _ ih =>
    have hq : Queued (children.set i (ready s more)) (queue ++ [i]) :=
      h.set (fun j hj => List.mem_append_left _ hj) (by simp)
    have hlt : i < children.length := (List.getElem?_eq_some_iff.mp hi).1
    rw [schedule_item hi, Run.toList, itemsOf_cons, ih hq, List.map_set, List.getElem?_set]
    by_cases hslot : i = slot
    · subst hslot
      rw [if_pos rfl, if_pos rfl, if_pos (by simpa using hlt), List.getElem?_map, hi]
      rfl
    · rw [if_neg hslot, if_neg hslot]
  | case4 children i queue s s' hi _ ih =>
    have hq : Queued (children.set i (idle s')) queue := h.set (fun _ hj => hj) (by simp)
    rw [schedule_pending hi, ih hq, map_set_of_getElem? remaining hi (by rfl)]
  | case5 children i queue s hi _ ih =>
    have hq : Queued (children.set i gone) queue := h.set (fun _ hj => hj) (by simp)
    rw [schedule_ended hi, ih hq, map_set_of_getElem? remaining hi (by rfl)]
  | case6 children i queue hitem hpending hended ih =>
    have hi := not_ready hitem hpending hended
    rw [schedule_skip hi, ih (h.tail hi)]

end Child

/-! ### Streams that have been read to the end -/

namespace Run

lemma final_ofTicks (period count next : Nat) :
    ∃ t, (ofTicks period count next).final = some (.clock period t) := by
  induction count generalizing next with
  | zero => exact ⟨_, rfl⟩
  | succ count ih => simpa [ofTicks, final] using ih (next + period)

end Run

/-- Every list of streams is one of the lists. -/
lemma StreamList.exists_ofList : (children : StreamList α) → ∃ ss, children = ofList ss
  | .nil => ⟨[], rfl⟩
  | .cons head tail => by
    obtain ⟨ss, hss⟩ := exists_ofList tail
    exact ⟨head :: ss, by rw [ofList, hss]⟩

namespace Child

/-- A stream as a child of a selection that is read in a world. -/
def start (w : World) (asked : Bool) (s : Stream α) : Child α :=
  if s.isEnded then gone else if asked then ready s (s.run w) else idle s

/-- The children of a selection are its streams, asked for their items where they are
queued. -/
lemma getElem?_runs (w : World) (queue : List Nat) (ss : List (Stream α)) (index i : Nat) :
    ((StreamList.ofList ss).runs w queue index)[i]?
      = ss[i]?.map (start w (decide (index + i ∈ queue))) := by
  induction ss generalizing index i with
  | nil => simp [StreamList.ofList, StreamList.runs]
  | cons s rest ih =>
    cases i with
    | zero => simp [StreamList.ofList, StreamList.runs, start]
    | succ i =>
      rw [StreamList.ofList, StreamList.runs, List.getElem?_cons_succ, List.getElem?_cons_succ, ih,
        show index + 1 + i = index + (i + 1) by omega]

/-- At first just the queued children have been asked. -/
lemma queued_runs (w : World) (queue : List Nat) (ss : List (Stream α)) :
    Queued ((StreamList.ofList ss).runs w queue 0) queue := by
  intro i s r hi
  rw [getElem?_runs, Option.map_eq_some_iff] at hi
  obtain ⟨s₀, -, hs⟩ := hi
  by_contra hmem
  rw [start, Nat.zero_add, if_neg (by simpa using hmem : ¬ decide (i ∈ queue) = true)] at hs
  split at hs <;> simp at hs

end Child

namespace Stream

/-- There is one stream that has ended. -/
lemma eq_ended_of_isEnded {s : Stream α} (h : s.isEnded = true) : s = ended := by
  unfold isEnded at h
  split at h
  · rfl
  · exact absurd h (by simp)

/-- The stream as it stands when everything that it has to deliver in a world
has been read. -/
def drained (w : World) (s : Stream α) : Stream α := (s.run w).final.getD ended

/-- A stream that goes on has not ended. -/
theorem isEnded_of_final_run {w : World} {α : Type} :
    (s : Stream α) → {rest : Stream α} → (s.run w).final = some rest → rest.isEnded = false
  | .finite items, rest, h => by simp [run] at h
  | .lasting items, rest, h => by
    simp only [run, Run.final_ofLasting, Option.some.injEq] at h
    subst h
    rfl
  | .watch topic seen, rest, h => by
    simp only [run, Run.ofPublished] at h
    split at h <;> split at h <;> simp only [Run.final, Option.some.injEq, reduceCtorEq] at h <;>
      subst h <;> rfl
  | .clock period next, rest, h => by
    simp only [run, Run.ofClock] at h
    split at h
    · simp only [Run.final, Option.some.injEq] at h
      subst h
      rfl
    · obtain ⟨t, ht⟩ := Run.final_ofTicks period ((w.time - next.getD w.time) / period + 1)
        (next.getD w.time)
      rw [ht, Option.some.injEq] at h
      subst h
      rfl
  | .scan step state source, rest, h => by
    simp only [run, Run.final_through, Option.map_eq_some_iff] at h
    obtain ⟨rest', -, rfl⟩ := h
    rfl
  | .dedup same last source, rest, h => by
    simp only [run, Run.final_through, Option.map_eq_some_iff] at h
    obtain ⟨rest', -, rfl⟩ := h
    rfl
  | .select children queue, rest, h => by
    obtain ⟨ss, rfl⟩ := children.exists_ofList
    rw [run, Child.final_schedule _ _ (Child.queued_runs w queue ss)] at h
    split at h
    · simp at h
    · simp only [Option.some.injEq] at h
      subst h
      rfl
  | .switch bounded project source inner, rest, h => by
    simp only [run] at h
    split at h
    · simp [Run.final] at h
    · split at h <;> rw [Run.final_switched] at h <;> split at h
      · simp only [Option.some.injEq] at h
        subst h
        rfl
      · split at h <;> simp only [Option.some.injEq, reduceCtorEq] at h
        subst h
        rfl
      · simp only [Option.some.injEq] at h
        subst h
        rfl
      · split at h <;> simp only [Option.some.injEq, reduceCtorEq] at h
        subst h
        rfl
  | .timeout millis late deadline source, rest, h => by
    simp only [run] at h
    cases hr : source.run w with
    | pending rest' =>
      have ih := @isEnded_of_final_run w _ source rest' (by simp [hr, Run.final])
      simp only [hr, Run.timed] at h
      split at h <;> simp only [Run.final, Option.some.injEq] at h <;> subst h
      · exact ih
      · rfl
    | ended => simp [hr, Run.timed, Run.final] at h
    | item a rest' more =>
      rw [hr] at h
      exact isEnded_of_final_run source (by rw [hr]; exact h)

/-- What is left of a stream says whether it has ended. -/
lemma final_run_eq (w : World) (s : Stream α) :
    (s.run w).final = if (s.drained w).isEnded then none else some (s.drained w) := by
  rw [drained]
  cases h : (s.run w).final with
  | none => rfl
  | some rest => simp [isEnded_of_final_run s h]

/-- Reading to the end leaves an ended stream exactly if the run ends. -/
lemma isEnded_drained_iff (w : World) (s : Stream α) :
    (s.drained w).isEnded = true ↔ (s.run w).final = none := by
  rw [final_run_eq]
  split <;> simp_all

@[simp] lemma drained_ended (w : World) : (ended : Stream α).drained w = ended := rfl

/-- What is left of a switch that reads an inner stream with this run. -/
lemma drained_of_switched (bounded : Bool) (project : α → Stream β) (source : Stream α) (r : Run β)
    {rest : Stream β} (hr : r.final = if rest.isEnded then none else some rest) :
    (r.switched bounded project source).final.getD ended
      = if source.isEnded && rest.isEnded then ended
        else .switch bounded project source rest := by
  rw [Run.final_switched, hr]
  by_cases hrest : rest.isEnded = true
  · rw [if_pos hrest, hrest, Bool.and_true, eq_ended_of_isEnded hrest]
    by_cases hs : source.isEnded = true
    · simp only [hs, ↓reduceIte]
      rfl
    · simp only [hs]
      rfl
  · rw [if_neg hrest]
    simp [hrest]

/-! What a stage leaves behind, by the stages before it. -/

/-- Reading a stage to the end reads its source to the end. -/
theorem drained_scan (w : World) (step : σ → α → σ × Option β) (state : σ) (source : Stream α) :
    (scan step state source).drained w
      = if (source.drained w).isEnded then ended
        else .scan step (stateAfter step state (source.run w).toList) (source.drained w) := by
  rw [drained, run, Run.final_through, final_run_eq w source]
  split <;> rfl

/-- So does reading behind a comparison, which keeps the last item that it let through. -/
theorem drained_dedup (w : World) (same : α → α → Bool) (last : Option α) (source : Stream α) :
    (dedup same last source).drained w
      = if (source.drained w).isEnded then ended
        else .dedup same (stateAfter (distinctStep same) last (source.run w).toList)
          (source.drained w) := by
  rw [drained, run, Run.final_through, final_run_eq w source]
  split <;> rfl

lemma isEnded_drained_scan (w : World) (step : σ → α → σ × Option β) (state : σ)
    (source : Stream α) :
    ((scan step state source).drained w).isEnded = (source.drained w).isEnded := by
  rw [drained_scan]
  split
  · rename_i h
    exact h.symm
  · exact (Bool.eq_false_iff.mpr ‹_›).symm

lemma isEnded_drained_dedup (w : World) (same : α → α → Bool) (last : Option α)
    (source : Stream α) :
    ((dedup same last source).drained w).isEnded = (source.drained w).isEnded := by
  rw [drained_dedup]
  split
  · rename_i h
    exact h.symm
  · exact (Bool.eq_false_iff.mpr ‹_›).symm

/-- The stream that a switch reads: the one of the last item of its source, or
the one that it has. -/
def current (w : World) (project : α → Stream β) (source : Stream α) (inner : Stream β) :
    Stream β :=
  (((source.run w).last? none).map project).getD inner

/-- A switch that does not end with its source reads its current stream. -/
lemma run_switch {w : World} {bounded : Bool} {source : Stream α}
    (h : bounded = true → (source.drained w).isEnded = false) (project : α → Stream β)
    (inner : Stream β) :
    (switch bounded project source inner).run w
      = ((current w project source inner).run w).switched bounded project (source.drained w) := by
  have hgoes : (bounded && (source.run w).final.isNone) = false := by
    cases bounded with
    | false => rfl
    | true => rw [final_run_eq, h rfl]; rfl
  rw [run]
  simp only [hgoes, Bool.false_eq_true, ↓reduceIte, current]
  cases (source.run w).last? none <;> rfl

/-- A switch delivers what the stream delivers to which the last item of its source leads. -/
lemma toList_run_switch {w : World} {bounded : Bool} {source : Stream α}
    (h : bounded = true → (source.drained w).isEnded = false) (project : α → Stream β)
    (inner : Stream β) :
    ((switch bounded project source inner).run w).toList
      = ((current w project source inner).run w).toList := by
  rw [run_switch h, Run.toList_switched]

/-- It has ended with its source and this stream, and otherwise waits above what is left of
both. -/
theorem drained_switch {w : World} {bounded : Bool} {source : Stream α}
    (h : bounded = true → (source.drained w).isEnded = false) (project : α → Stream β)
    (inner : Stream β) :
    (switch bounded project source inner).drained w
      = if (source.drained w).isEnded && ((current w project source inner).drained w).isEnded then
          ended
        else .switch bounded project (source.drained w)
          ((current w project source inner).drained w) := by
  rw [drained, run_switch h, drained_of_switched _ _ _ _ (final_run_eq w _)]

/-! Selections and the children that stand in their queue. -/

/-- The streams of a list after those with the given numbers were drained. -/
def drainedAt (w : World) (queue : List Nat) (ss : List (Stream α)) : List (Stream α) :=
  ss.mapIdx fun i s => if i ∈ queue then s.drained w else s

lemma settled_start (w : World) (asked : Bool) (s : Stream α) :
    (Child.start w asked s).settled
      = let rest := if asked then s.drained w else s
        if rest.isEnded then .gone else .idle rest := by
  unfold Child.start
  by_cases hs : s.isEnded = true
  · rw [if_pos hs, eq_ended_of_isEnded hs]
    cases asked <;> rfl
  · rw [if_neg hs]
    cases asked with
    | false => simp [Child.settled, hs]
    | true =>
      simp only [↓reduceIte, Child.settled, final_run_eq]
      by_cases hrest : (s.drained w).isEnded = true <;> simp [hrest]

lemma stream_settled_start (w : World) (asked : Bool) (s : Stream α) :
    (Child.start w asked s).settled.stream = if asked then s.drained w else s := by
  rw [settled_start]
  by_cases h : (if asked then s.drained w else s).isEnded = true
  · simp only [h, ↓reduceIte]
    exact (eq_ended_of_isEnded h).symm
  · simp only [h]
    rfl

lemma isGone_settled_start (w : World) (asked : Bool) (s : Stream α) :
    (Child.start w asked s).settled.isGone = (if asked then s.drained w else s).isEnded := by
  rw [settled_start]
  by_cases h : (if asked then s.drained w else s).isEnded = true
  · simp only [h, ↓reduceIte]
    rfl
  · simp only [h]
    rfl

/-- The items of a slot are those of its child, if that is asked. -/
theorem itemsOf_run_select (w : World) (ss : List (Stream α)) (queue : List Nat) (slot : Nat) :
    itemsOf slot ((select (StreamList.ofList ss) queue).run w).toList
      = if slot ∈ queue then ((ss[slot]?).map fun s => (s.run w).toList).getD [] else [] := by
  rw [run, Child.itemsOf_schedule _ _ (Child.queued_runs w queue ss), List.getElem?_map,
    Child.getElem?_runs, Nat.zero_add]
  cases ss[slot]? with
  | none => simp
  | some s =>
    by_cases hs : s.isEnded = true
    · rw [eq_ended_of_isEnded hs]
      simp [Child.start, isEnded, Child.remaining, run]
    · by_cases hslot : slot ∈ queue <;> simp [Child.start, hs, hslot, Child.remaining]

/-- A selection drains the children that are asked. -/
theorem drained_select (w : World) (ss : List (Stream α)) (queue : List Nat) :
    (select (StreamList.ofList ss) queue).drained w
      = if (drainedAt w queue ss).all isEnded then ended
        else .select (StreamList.ofList (drainedAt w queue ss)) [] := by
  have hstream : (((StreamList.ofList ss).runs w queue 0).map Child.settled).map Child.stream
      = drainedAt w queue ss := by
    refine List.ext_getElem? fun i => ?_
    rw [List.getElem?_map, List.getElem?_map, Child.getElem?_runs, drainedAt, List.getElem?_mapIdx]
    cases ss[i]? <;> simp [stream_settled_start]
  have hgone : (((StreamList.ofList ss).runs w queue 0).map Child.settled).all Child.isGone
      = (drainedAt w queue ss).all isEnded := by
    have hmap : (((StreamList.ofList ss).runs w queue 0).map Child.settled).map Child.isGone
        = (drainedAt w queue ss).map isEnded := by
      refine List.ext_getElem? fun i => ?_
      rw [List.getElem?_map, List.getElem?_map, Child.getElem?_runs, List.getElem?_map, drainedAt,
        List.getElem?_mapIdx]
      cases ss[i]? <;> simp [isGone_settled_start]
    simpa [List.all_map] using congrArg (List.all · id) hmap
  rw [drained, run, Child.final_schedule _ _ (Child.queued_runs w queue ss), hgone, Child.streams,
    hstream]
  split <;> rfl

/-- The children of a merge are all asked. -/
lemma itemsOf_run_merge (w : World) (ss : List (Stream α)) (slot : Nat) :
    itemsOf slot ((merge ss).run w).toList
      = ((ss[slot]?).map fun s => (s.run w).toList).getD [] := by
  rw [merge, itemsOf_run_select]
  split
  · rfl
  · rename_i h
    rw [List.getElem?_eq_none (by simpa using h)]
    rfl

/-- Reading a selection to the end reads all its streams to the end. -/
theorem drained_merge (w : World) (ss : List (Stream α)) :
    (merge ss).drained w
      = if (ss.map (drained w)).all isEnded then ended
        else .select (StreamList.ofList (ss.map (drained w))) [] := by
  have hat : drainedAt w (List.range ss.length) ss = ss.map (drained w) := by
    refine List.ext_getElem? fun i => ?_
    rw [drainedAt, List.getElem?_mapIdx, List.getElem?_map]
    cases h : ss[i]? with
    | none => rfl
    | some s =>
      have hlt : i ∈ List.range ss.length := List.mem_range.mpr (List.getElem?_eq_some_iff.mp h).1
      simp only [Option.map_some, hlt, ↓reduceIte]
  rw [merge, drained_select, hat]

end Stream

end Verdict
