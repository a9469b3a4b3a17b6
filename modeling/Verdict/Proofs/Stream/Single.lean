/-
Streams that deliver one item.

* `Stream.Shows`: the stream delivers exactly one item in a world.
* `Stream.Yields`: it does so in every world and then ends.
* `latestStep`: the step of a combination of latest items, and
  `passed_latestStep_of_once`: it lets through one list if every slot delivers
  once.
* `Stream.Shows.combineLatest`, `Stream.Yields.combineLatest` and their like: the
  combinators keep this from their parts.
-/
import Mathlib.Data.List.Forall2
import Verdict.Proofs.Stream.Reading
import Verdict.Stream.Notify

namespace Verdict

variable {σ α β : Type}

/-! ### Latest items -/

/-- The step of a combination: the item is noted in its slot, and the latest
items are let through once every slot has one. -/
def latestStep (latest : List (Option α)) (item : Nat × α) : List (Option α) × Option (List α) :=
  (latest.set item.1 (some item.2), (latest.set item.1 (some item.2)).mapM id)

/-- All slots have an item exactly if there is a list of items to be let through. -/
lemma mapM_id_eq_some_iff {latest : List (Option α)} {items : List α} :
    latest.mapM id = some items ↔ latest = items.map some := by
  induction latest generalizing items with
  | nil => cases items <;> simp
  | cons head tail ih =>
    simp only [List.mapM_cons, id, bind, Option.bind_eq_some_iff, pure, Option.some.injEq, ih]
    cases items with
    | nil => simp
    | cons b rest => simp

/-- A combination waits while some slot has no item. -/
lemma mapM_id_eq_none {latest : List (Option α)} (h : none ∈ latest) : latest.mapM id = none := by
  cases hm : latest.mapM id with
  | none => rfl
  | some items =>
    rw [mapM_id_eq_some_iff] at hm
    simp [hm] at h

/-- Combining several streams is noting the items of their selection slot by slot. -/
lemma combineLatest_cons (s : Stream α) (ss : List (Stream α)) :
    Stream.combineLatest (s :: ss)
      = .scan latestStep (List.replicate (s :: ss).length none) (Stream.merge (s :: ss)) := rfl

/-- Behind a list of items every slot holds its last one. -/
lemma getElem?_stateAfter_latestStep (latest : List (Option α)) (items : List (Nat × α))
    (slot : Nat) :
    (stateAfter latestStep latest items)[slot]?
      = latest[slot]?.map fun old => (itemsOf slot items).getLast?.or old := by
  induction items generalizing latest with
  | nil => simp
  | cons item rest ih =>
    obtain ⟨i, a⟩ := item
    rw [stateAfter, ih, latestStep, itemsOf_cons, List.getElem?_set]
    by_cases hi : i = slot
    · subst hi
      simp only [↓reduceIte, List.getLast?_cons]
      by_cases hlt : i < latest.length
      · rw [if_pos hlt, List.getElem?_eq_getElem hlt]
        cases (itemsOf i rest).getLast? <;> rfl
      · rw [if_neg hlt, List.getElem?_eq_none (by omega)]
        rfl
    · simp only [hi, ↓reduceIte]

/-- An item is among those of its slot. -/
lemma mem_itemsOf {item : Nat × α} {items : List (Nat × α)} (h : item ∈ items) :
    item.2 ∈ itemsOf item.1 items :=
  List.mem_filterMap.mpr ⟨item, h, by simp⟩

/-- A slot waits for exactly its one item, or holds it already. -/
def Awaits (items : List (Nat × α)) (goal : List α) (latest : List (Option α)) : Prop :=
  latest.length = goal.length ∧ (∀ item ∈ items, item.1 < goal.length) ∧
    ∀ i a, goal[i]? = some a →
      (latest[i]? = some none ∧ itemsOf i items = [a]) ∨
        (latest[i]? = some (some a) ∧ itemsOf i items = [])

/-- A slot that has got its item holds it. -/
lemma Awaits.step {i : Nat} {a : α} {items : List (Nat × α)} {goal : List α}
    {latest : List (Option α)} (h : Awaits ((i, a) :: items) goal latest) :
    Awaits items goal (latest.set i (some a)) := by
  obtain ⟨hlen, hlt, hslot⟩ := h
  refine ⟨by simpa using hlen, fun item hitem => hlt item (List.mem_cons_of_mem _ hitem), ?_⟩
  intro j b hj
  have hjlt : j < latest.length := by
    rw [hlen]
    exact (List.getElem?_eq_some_iff.mp hj).1
  have := hslot j b hj
  rw [itemsOf_cons] at this
  by_cases hij : i = j
  · subst hij
    rw [if_pos rfl] at this
    rw [List.getElem?_set, if_pos rfl, if_pos hjlt]
    rcases this with ⟨-, hitems⟩ | ⟨-, hitems⟩
    · obtain ⟨rfl, hrest⟩ := List.cons.inj hitems
      exact Or.inr ⟨rfl, hrest⟩
    · simp at hitems
  · rw [if_neg hij] at this
    rwa [List.getElem?_set, if_neg hij]

/-- A combination of slots that deliver once lets through one list, and that at
the last item. -/
theorem passed_latestStep_of_awaits {items : List (Nat × α)} {goal : List α}
    {latest : List (Option α)} (h : Awaits items goal latest) (hne : items ≠ []) :
    passed latestStep latest items = [goal] ∧ passed latestStep latest items.dropLast = [] := by
  induction items generalizing latest with
  | nil => exact absurd rfl hne
  | cons item rest ih =>
    obtain ⟨i, a⟩ := item
    have hstep := h.step
    cases rest with
    | nil =>
      have hfull : latest.set i (some a) = goal.map some := by
        refine List.ext_getElem? fun j => ?_
        rw [List.getElem?_map]
        cases hj : goal[j]? with
        | none =>
          rw [List.getElem?_eq_none (by rw [hstep.1]; exact List.getElem?_eq_none_iff.mp hj)]
          rfl
        | some b =>
          rcases hstep.2.2 j b hj with ⟨-, hitems⟩ | ⟨hb, -⟩
          · simp at hitems
          · rw [hb]
            rfl
      refine ⟨?_, rfl⟩
      rw [passed, latestStep, hfull, mapM_id_eq_some_iff.mpr rfl]
      rfl
    | cons next more =>
      have hlt : next.1 < goal.length := hstep.2.1 next List.mem_cons_self
      have hempty : none ∈ latest.set i (some a) := by
        rcases hstep.2.2 next.1 goal[next.1] (List.getElem?_eq_getElem hlt) with
          ⟨hnone, -⟩ | ⟨-, hitems⟩
        · exact List.mem_of_getElem? hnone
        · rw [itemsOf_cons, if_pos rfl] at hitems
          simp at hitems
      have hwait : (latestStep latest (i, a)).2 = none := mapM_id_eq_none hempty
      rw [List.dropLast_cons_of_ne_nil (List.cons_ne_nil _ _), passed_cons _ _ (i, a),
        passed_cons _ _ (i, a), hwait]
      exact ih hstep (List.cons_ne_nil _ _)

/-! ### One item in a world -/

namespace Stream

/-- In the world the stream delivers this item and no other. -/
def Shows (w : World) (s : Stream α) (a : α) : Prop := (s.run w).toList = [a]

/-- Of streams that deliver one item each, all slots wait for theirs at first. -/
lemma awaits_merge {w : World} {ss : List (Stream α)} {items : List α}
    (h : List.Forall₂ (Shows w) ss items) :
    Awaits ((merge ss).run w).toList items (List.replicate ss.length none) := by
  have hlen : ss.length = items.length := h.length_eq
  refine ⟨by simpa using hlen, fun item hitem => ?_, fun i a hi => Or.inl ⟨?_, ?_⟩⟩
  · by_contra hge
    have hmem := mem_itemsOf hitem
    rw [itemsOf_run_merge, List.getElem?_eq_none (by omega)] at hmem
    simp at hmem
  · have hlt := (List.getElem?_eq_some_iff.mp hi).1
    rw [List.getElem?_replicate, if_pos (by omega)]
  · obtain ⟨hlt, hget⟩ := List.getElem?_eq_some_iff.mp hi
    have hshow := (List.forall₂_iff_get.mp h).2 i (by omega) hlt
    rw [itemsOf_run_merge, List.getElem?_eq_getElem (by omega), Option.map_some, Option.getD_some,
      ← hget]
    exact hshow

/-- A merge delivers as soon as one of its streams does. -/
lemma toList_run_merge_ne_nil {w : World} {s : Stream α} {a : α} (hs : s.Shows w a)
    (ss : List (Stream α)) : ((merge (s :: ss)).run w).toList ≠ [] := by
  intro hnil
  have hfirst := itemsOf_run_merge w (s :: ss) 0
  rw [hnil, List.getElem?_cons_zero, Option.map_some, Option.getD_some, hs] at hfirst
  simp at hfirst

namespace Shows

variable {w : World} {s : Stream α} {a : α}

/-- The one item that is shown is the last one. -/
lemma last? (h : s.Shows w a) : (s.run w).last? none = some a := by
  rw [Run.last?_none_eq, h]
  rfl

/-- No stream shows two items in one world. -/
lemma unique {b : α} (ha : s.Shows w a) (hb : s.Shows w b) : a = b :=
  (List.cons.inj (ha.symm.trans hb)).1

lemma map (h : s.Shows w a) (f : α → β) : (s.map f).Shows w (f a) := by
  rw [Shows, toList_run_map, h]
  rfl

/-- One item repeats nothing. -/
lemma distinct (h : s.Shows w a) (same : α → α → Bool) : (s.distinct same).Shows w a := by
  rw [Shows, Stream.distinct, run, Run.toList_through, h]
  rfl

lemma current (h : s.Shows w a) (project : α → Stream β) (inner : Stream β) :
    Stream.current w project s inner = project a := by
  rw [Stream.current, h.last?]
  rfl

/-- A switch shows what the stream shows to which the one item of its source leads. -/
lemma switch {bounded : Bool} {project : α → Stream β} {b : β} (h : s.Shows w a)
    (hends : bounded = true → (s.drained w).isEnded = false) (hb : (project a).Shows w b) :
    (Stream.switch bounded project s ended).Shows w b := by
  rw [Shows, toList_run_switch hends, h.current]
  exact hb

lemma switchMap {project : α → Stream β} {b : β} (h : s.Shows w a)
    (hb : (project a).Shows w b) : (s.switchMap project).Shows w b :=
  h.switch (by simp) hb

lemma switchMap_just {project : β → Stream α} {b : β} (h : (project b).Shows w a) :
    ((just b).switchMap project).Shows w a :=
  switchMap (toList_run_just w b) h

lemma switch_lasting {bounded : Bool} {project : β → Stream α} {b : β}
    (h : (project b).Shows w a) :
    (Stream.switch bounded project (.lasting [b]) ended).Shows w a :=
  switch (s := .lasting [b]) rfl (fun _ => rfl) h

/-- The run of a stream that shows an item starts with it. -/
lemma exists_run (h : s.Shows w a) : ∃ rest more, s.run w = .item a rest more := by
  rw [Shows] at h
  cases hrun : s.run w with
  | pending rest => simp [hrun, Run.toList] at h
  | ended => simp [hrun, Run.toList] at h
  | item b rest more =>
    rw [hrun, Run.toList, List.cons.injEq] at h
    exact ⟨rest, more, by rw [h.1]⟩

/-- No run of a stream starts with an item that the stream does not show. -/
lemma eq_of_run {b : α} {rest : Stream α} {more : Run α} (h : s.Shows w a)
    (hrun : s.run w = .item b rest more) : b = a := by
  rw [Shows, hrun] at h
  exact (List.cons.inj h).1

lemma of_just {b : α} (h : (just a).Shows w b) : a = b := (List.cons.inj h).1

/-- What a mapped stream shows is the image of an item that is shown. -/
lemma of_map {f : α → β} {b : β} (h : (s.map f).Shows w b) : ∃ a, s.Shows w a ∧ f a = b := by
  rw [Shows, toList_run_map, List.map_eq_singleton_iff] at h
  exact h

lemma of_switchMap {project : α → Stream β} {b : β} (ha : s.Shows w a)
    (h : (s.switchMap project).Shows w b) : (project a).Shows w b := by
  rwa [Shows, Stream.switchMap, toList_run_switch (by simp), ha.current] at h

/-- A combination shows the items of its parts. -/
theorem combineLatest {ss : List (Stream α)} {items : List α}
    (h : List.Forall₂ (Shows w) ss items) : (Stream.combineLatest ss).Shows w items := by
  cases h with
  | nil => rfl
  | @cons s a ss items hs hrest =>
    have h : List.Forall₂ (Shows w) (s :: ss) (a :: items) := .cons hs hrest
    rw [Shows, combineLatest_cons, run, Run.toList_through]
    exact (passed_latestStep_of_awaits (awaits_merge h) (toList_run_merge_ne_nil hs ss)).1

end Shows

/-! ### One item and the end -/

/-- Nothing wakes the stream. -/
def Quiet (s : Stream α) : Prop := ∀ e, s.notify e = (false, s)

/-- The stream ends in every world without an item, and nothing wakes it. -/
structure Spent (s : Stream α) : Prop where
  ends : ∀ w, s.run w = .ended
  quiet : s.Quiet

/-- In every world the stream delivers this item, and behind it ends in every
world. -/
def Yields (s : Stream α) (a : α) : Prop :=
  ∀ w, ∃ rest, s.run w = .item a rest .ended ∧ rest.Spent

end Stream

/-- The run delivers, ends, and behind its last item stands a stream that is
spent. -/
inductive Run.Closes : Run α → Prop
  | last {a : α} {rest : Stream α} (h : rest.Spent) : Closes (.item a rest .ended)
  | item {a : α} {rest : Stream α} {more : Run α} (h : more.Closes) : Closes (.item a rest more)

/-- A child that delivers at most once more and is spent then. -/
inductive Child.Once : Child α → Prop
  | gone : Once .gone
  | spent {s : Stream α} (h : s.Spent) : Once (.ready s .ended)
  | item {s rest : Stream α} {a : α} (h : rest.Spent) : Once (.ready s (.item a rest .ended))

namespace Stream

lemma Quiet.scan {step : σ → α → σ × Option β} {state : σ} {s : Stream α} (h : s.Quiet) :
    (scan step state s).Quiet := fun e => by
  rw [notify, h e]

lemma Quiet.dedup {same : α → α → Bool} {last : Option α} {s : Stream α} (h : s.Quiet) :
    (dedup same last s).Quiet := fun e => by
  rw [notify, h e]

lemma Quiet.switch {bounded : Bool} {project : α → Stream β} {source : Stream α}
    {inner : Stream β} (hs : source.Quiet) (hi : inner.Quiet) :
    (switch bounded project source inner).Quiet := fun e => by
  rw [notify, hs e, hi e]
  rfl

lemma notify_ofList_of_quiet {ss : List (Stream α)} (h : ∀ s ∈ ss, s.Quiet) (e : Event)
    (index : Nat) : (StreamList.ofList ss).notify e index = ([], StreamList.ofList ss) := by
  induction ss generalizing index with
  | nil => rfl
  | cons s rest ih =>
    rw [StreamList.ofList, StreamList.notify, h s List.mem_cons_self e,
      ih (fun t ht => h t (List.mem_cons_of_mem _ ht))]
    rfl

/-- Where no stream is woken by anything, neither is a selection of them. -/
lemma Quiet.select {ss : List (Stream α)} {queue : List Nat} (h : ∀ s ∈ ss, s.Quiet) :
    (select (StreamList.ofList ss) queue).Quiet := fun e => by
  rw [notify, notify_ofList_of_quiet h e 0]
  simp [enqueue]

lemma spent_ended : (ended : Stream α).Spent := ⟨fun _ => rfl, fun _ => rfl⟩

lemma spent_scan {step : σ → α → σ × Option β} {state : σ} {s : Stream α} (h : s.Spent) :
    (scan step state s).Spent where
  ends w := by
    rw [run, h.ends w]
    rfl
  quiet := h.quiet.scan

lemma spent_dedup {same : α → α → Bool} {last : Option α} {s : Stream α} (h : s.Spent) :
    (dedup same last s).Spent where
  ends w := by
    rw [run, h.ends w]
    rfl
  quiet := h.quiet.dedup

/-- A selection is spent when all its children are and none is left aside. -/
lemma spent_select {ss : List (Stream α)} {queue : List Nat}
    (h : ∀ i s, ss[i]? = some s → s.Spent ∧ (s.isEnded = true ∨ i ∈ queue)) :
    (select (StreamList.ofList ss) queue).Spent := by
  refine ⟨fun w => ?_, .select fun s hs => ?_⟩
  swap
  · obtain ⟨i, hi⟩ := List.mem_iff_getElem?.mp hs
    exact (h i s hi).1.quiet
  have hitems : ((select (StreamList.ofList ss) queue).run w).toList = [] := by
    rw [List.eq_nil_iff_forall_not_mem]
    intro item hitem
    have hmem := mem_itemsOf hitem
    rw [itemsOf_run_select] at hmem
    split at hmem
    · cases hs : ss[item.1]? with
      | none => simp [hs] at hmem
      | some s => simp [hs, (h _ s hs).1.ends w, Run.toList] at hmem
    · simp at hmem
  have hend : ((select (StreamList.ofList ss) queue).run w).final = none := by
    rw [← isEnded_drained_iff, drained_select, if_pos]
    · rfl
    · rw [List.all_eq_true]
      intro t ht
      obtain ⟨i, hi⟩ := List.mem_iff_getElem?.mp ht
      rw [drainedAt, List.getElem?_mapIdx, Option.map_eq_some_iff] at hi
      obtain ⟨s, hs, rfl⟩ := hi
      split
      · rw [drained, (h i s hs).1.ends w]
        rfl
      · rename_i hqueue
        exact (h i s hs).2.resolve_right hqueue
  cases hr : (select (StreamList.ofList ss) queue).run w with
  | pending rest => simp [hr, Run.final] at hend
  | ended => rfl
  | item a rest more => simp [hr, Run.toList] at hitems

end Stream

namespace Child

/-- Writing a child into a slot keeps all others. -/
lemma Once.set {children : List (Child α)} (h : ∀ child ∈ children, child.Once) (i : Nat)
    {new : Child α} (hnew : new.Once) : ∀ child ∈ children.set i new, child.Once := fun _ hchild =>
  (List.mem_or_eq_of_mem_set hchild).elim (h _) fun heq => heq ▸ hnew

/-- A child that is waiting in a selection with nothing to deliver is spent. -/
lemma Once.spent_stream {child : Child α} (h : child.Once) (hnil : child.remaining = []) :
    child.stream.Spent := by
  cases h with
  | gone => exact Stream.spent_ended
  | spent hs => exact hs
  | item hs => simp [remaining, Run.toList] at hnil

/-- A selection of children that deliver at most once ends, and is spent behind
its last item. -/
theorem schedule_closes (children : List (Child α)) (queue : List Nat)
    (hqueue : Queued children queue) (h : ∀ child ∈ children, child.Once) :
    schedule children queue = .ended ∨ (schedule children queue).Closes := by
  induction children, queue using schedule.induct with
  | case1 children hgone => exact .inl (by rw [schedule, if_pos hgone])
  | case2 children hgone =>
    refine absurd (List.all_eq_true.mpr fun child hchild => ?_) hgone
    obtain ⟨i, hi⟩ := List.mem_iff_getElem?.mp hchild
    cases h child hchild with
    | gone => rfl
    | spent => exact absurd (hqueue i _ _ hi) (by simp)
    | item => exact absurd (hqueue i _ _ hi) (by simp)
  | case3 children i queue stream a s more hi _ ih =>
    have hq : Queued (children.set i (ready s more)) (queue ++ [i]) :=
      hqueue.set (fun j hj => List.mem_append_left _ hj) (by simp)
    have honce : (ready s more).Once := by
      cases h _ (List.mem_of_getElem? hi) with
      | item hs => exact .spent hs
    have hall := Once.set h i honce
    rw [schedule_item hi]
    refine .inr ?_
    rcases ih hq hall with hend | hcloses
    · -- Nothing follows, so every child is spent, and those that go on are asked.
      rw [hend]
      refine .last (Stream.spent_select fun j t hj => ?_)
      rw [List.getElem?_map, Option.map_eq_some_iff] at hj
      obtain ⟨child, hchild, rfl⟩ := hj
      have hmem := hall child (List.mem_of_getElem? hchild)
      have hnil : child.remaining = [] := by
        have := itemsOf_schedule _ _ hq j
        rw [hend, List.getElem?_map, hchild] at this
        exact this.symm
      refine ⟨hmem.spent_stream hnil, ?_⟩
      cases hmem with
      | gone => exact .inl rfl
      | spent => exact .inr (hq j _ _ hchild)
      | item => simp [remaining, Run.toList] at hnil
    · exact .item hcloses
  | case4 children i queue s s' hi _ ih =>
    cases h _ (List.mem_of_getElem? hi)
  | case5 children i queue s hi _ ih =>
    rw [schedule_ended hi]
    exact ih (hqueue.set (fun _ hj => hj) (by simp)) (Once.set h i .gone)
  | case6 children i queue hitem hpending hended ih =>
    have hi := not_ready hitem hpending hended
    rw [schedule_skip hi]
    exact ih (hqueue.tail hi) h

end Child

/-- A step that lets through nothing but the last item leaves a run of one item. -/
lemma Run.Closes.through {stage : σ → Stream α → Stream β} {step : σ → α → σ × Option β}
    {state : σ} {r : Run α} (h : r.Closes)
    (hstage : ∀ state {s : Stream α}, s.Spent → (stage state s).Spent) {b : β}
    (hall : passed step state r.toList = [b])
    (hinit : passed step state r.toList.dropLast = []) :
    ∃ rest, r.through stage step state = .item b rest .ended ∧ rest.Spent := by
  induction h generalizing state with
  | @last a rest hrest =>
    simp only [toList, passed, List.append_nil] at hall
    have hb : (step state a).2 = some b := by
      cases hstep : (step state a).2 <;> simp_all
    refine ⟨stage (step state a).1 rest, ?_, hstage _ hrest⟩
    rw [Run.through]
    split <;> simp_all [Run.through]
  | @item a rest more hmore ih =>
    have hne : more.toList ≠ [] := by cases hmore <;> simp [toList]
    rw [toList, List.dropLast_cons_of_ne_nil hne, passed, List.append_eq_nil_iff,
      Option.toList_eq_nil_iff] at hinit
    rw [toList, passed, hinit.1] at hall
    obtain ⟨rest', hthrough, hspent⟩ := ih hall hinit.2
    refine ⟨rest', ?_, hspent⟩
    rw [Run.through]
    split <;> simp_all

namespace Stream

/-- A single item is delivered in every world, and nothing is left. -/
lemma yields_just (a : α) : (just a).Yields a := fun _ => ⟨ended, rfl, spent_ended⟩

namespace Yields

variable {s : Stream α} {a : α}

/-- What a stream yields it shows in every world. -/
lemma shows (h : s.Yields a) (w : World) : s.Shows w a := by
  obtain ⟨rest, hrun, -⟩ := h w
  rw [Shows, hrun]
  rfl

lemma map (h : s.Yields a) (f : α → β) : (s.map f).Yields (f a) := fun w => by
  obtain ⟨rest, hrun, hrest⟩ := h w
  refine ⟨rest.map f, ?_, spent_scan hrest⟩
  rw [Stream.map, run, hrun]
  rfl

lemma distinct (h : s.Yields a) (same : α → α → Bool) : (s.distinct same).Yields a := fun w => by
  obtain ⟨rest, hrun, hrest⟩ := h w
  refine ⟨.dedup same (some a) rest, ?_, spent_dedup hrest⟩
  rw [Stream.distinct, run, hrun]
  rfl

/-- If a stream yields one item and this leads to another one, the switch yields the other
one. -/
lemma switchMap {project : α → Stream β} {b : β} (h : s.Yields a) (hb : (project a).Yields b) :
    (s.switchMap project).Yields b := fun w => by
  obtain ⟨rest, hrun, -⟩ := h w
  obtain ⟨inner, hinner, hspent⟩ := hb w
  refine ⟨.switch false project ended inner, ?_, fun w' => ?_,
    spent_ended.quiet.switch hspent.quiet⟩
  · rw [Stream.switchMap, run, hrun]
    simp [Run.final, Run.last?, hinner, Run.switched, isEnded]
  · simp [run, Run.ofFinite, Run.final, Run.last?, hspent.ends w', Run.switched, isEnded]

/-- A combination yields the items of its parts. -/
theorem combineLatest {ss : List (Stream α)} {items : List α}
    (h : List.Forall₂ Yields ss items) : (Stream.combineLatest ss).Yields items := by
  cases h with
  | nil => exact yields_just []
  | @cons s a ss items hs hrest =>
    intro w
    have hall : List.Forall₂ Yields (s :: ss) (a :: items) := .cons hs hrest
    have honce : ∀ child ∈ (StreamList.ofList (s :: ss)).runs w (List.range (s :: ss).length) 0,
        child.Once := by
      intro child hchild
      obtain ⟨i, hi⟩ := List.mem_iff_getElem?.mp hchild
      rw [Child.getElem?_runs, Option.map_eq_some_iff] at hi
      obtain ⟨t, ht, rfl⟩ := hi
      obtain ⟨hlt, hget⟩ := List.getElem?_eq_some_iff.mp ht
      have hyield := (List.forall₂_iff_get.mp hall).2 i hlt (hall.length_eq ▸ hlt)
      obtain ⟨rest, hrun, hspent⟩ := hyield w
      simp only [List.get_eq_getElem, hget] at hrun
      have hgoes : t.isEnded = false := by
        cases hended : t.isEnded with
        | false => rfl
        | true => simp [eq_ended_of_isEnded hended, run, Run.ofFinite] at hrun
      have hasked : 0 + i ∈ List.range (s :: ss).length := by simpa using hlt
      rw [Child.start, hgoes, hrun]
      simp only [hasked, decide_true, ↓reduceIte]
      exact .item hspent
    have hne := toList_run_merge_ne_nil (hs.shows w) ss
    have hpassed := passed_latestStep_of_awaits
      (awaits_merge (hall.imp fun _ _ hs => hs.shows w)) hne
    rcases Child.schedule_closes _ _ (Child.queued_runs w _ _) honce with hend | hcloses
    · refine absurd ?_ hne
      rw [merge, run, hend]
      rfl
    · exact hcloses.through (fun _ => spent_scan) hpassed.1 hpassed.2

end Yields

end Stream

end Verdict
