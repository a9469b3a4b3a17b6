/-
What holds of every item, however a stream is read.

A stream is read from time to time, in part or to the end, in worlds that change
between the reads, and it is told of events.  A property of all its items is
proved from an invariant of the streams that it may become.

* `Run.rests`: the streams as which a reader may leave a run.
* `Run.All`: a property of the items of a run and one of the streams in it.
* `Run.All.switch`, `Run.All.select`: both for the run of a combinator, from the runs
  of its parts.
* `Stream.Reaches`: the stream may become another one, read in worlds of a kind.
* `Stream.Always`: every item that it may deliver has a property.
* `Stream.Always.of_invariant`: an invariant of streams gives a property of items.
* `Stream.Always.map`, `switchMap`, `combineLatest` and their like: the
  combinators keep properties from their parts.
-/
import Verdict.Proofs.Stream.Single
import Verdict.Proofs.Stream.Waking

namespace Verdict

variable {σ α β : Type}

/-! ### Runs -/

namespace Run

/-- The streams as which a reader may leave a run: behind each item, and behind
the last one. -/
def rests : Run α → List (Stream α)
  | pending rest => [rest]
  | ended => []
  | item _ rest more => rest :: more.rests

/-- A read in part leaves the stream as it was, or one of those in its run. -/
lemma eq_or_mem_rests_of_take {r : Run α} {start rest : Stream α} {count : Nat}
    (h : (r.take start count).2 = some rest) : count = 0 ∧ rest = start ∨ rest ∈ r.rests := by
  induction r generalizing start count with
  | pending t =>
    cases count with
    | zero => exact .inl ⟨rfl, (Option.some.inj h).symm⟩
    | succ count => exact .inr (List.mem_singleton.mpr (Option.some.inj h).symm)
  | ended =>
    cases count with
    | zero => exact .inl ⟨rfl, (Option.some.inj h).symm⟩
    | succ count => simp [take] at h
  | item a t more ih =>
    cases count with
    | zero => exact .inl ⟨rfl, (Option.some.inj h).symm⟩
    | succ count =>
      refine .inr (List.mem_cons.mpr ?_)
      exact (ih h).imp_left And.right

/-- Every item of the run has the one property, and every stream as which it may
be left has the other. -/
def All (P : α → Prop) (I : Stream α → Prop) : Run α → Prop
  | pending rest => I rest
  | ended => True
  | item a rest more => P a ∧ I rest ∧ more.All P I

variable {P : α → Prop} {I : Stream α → Prop} {r : Run α}

/-- The items of a run have the property, and all that is left on the way satisfies the
invariant. -/
lemma all_iff : r.All P I ↔ (∀ a ∈ r.toList, P a) ∧ ∀ t ∈ r.rests, I t := by
  induction r with
  | pending rest => simp [All, toList, rests]
  | ended => simp [All, toList, rests]
  | item a rest more ih =>
    simp only [All, toList, rests, ih, List.forall_mem_cons]
    tauto

/-- Weaker properties hold of the same run. -/
lemma All.mono {Q : α → Prop} {J : Stream α → Prop} (h : r.All P I) (hitems : ∀ a, P a → Q a)
    (hrests : ∀ t, I t → J t) : r.All Q J := by
  rw [all_iff] at h ⊢
  exact ⟨fun a ha => hitems a (h.1 a ha), fun t ht => hrests t (h.2 t ht)⟩

/-- The last item has the property as well. -/
lemma All.last? (h : r.All P I) {a : α} (ha : r.last? none = some a) : P a := by
  rw [last?_none_eq] at ha
  exact (all_iff.mp h).1 a (List.mem_of_getLast? ha)

/-- What is left behind all items satisfies the invariant. -/
lemma All.final (h : r.All P I) {t : Stream α} (ht : r.final = some t) : I t := by
  induction r with
  | pending rest =>
    obtain rfl := Option.some.inj ht
    exact h
  | ended => simp [Run.final] at ht
  | item a rest more ih => exact ih h.2.2 ht

lemma All.final_getD (h : r.All P I) (hended : I Stream.ended) : I (r.final.getD .ended) := by
  cases hfinal : r.final with
  | none => exact hended
  | some rest => exact h.final hfinal

/-- A list of items with the property leaves lists of such items. -/
lemma All.ofFinite {items : List α} (hitems : ∀ a ∈ items, P a)
    (hrests : ∀ rest, (∀ a ∈ rest, P a) → I (.finite rest)) :
    (Run.ofFinite items).All P I := by
  induction items with
  | nil => trivial
  | cons a rest ih =>
    rw [List.forall_mem_cons] at hitems
    exact ⟨hitems.1, hrests rest hitems.2, ih hitems.2⟩

lemma All.ofLasting {items : List α} (hitems : ∀ a ∈ items, P a)
    (hrests : ∀ rest, (∀ a ∈ rest, P a) → I (.lasting rest)) :
    (Run.ofLasting items).All P I := by
  induction items with
  | nil => exact hrests [] hitems
  | cons a rest ih =>
    rw [List.forall_mem_cons] at hitems
    exact ⟨hitems.1, hrests rest hitems.2, ih hitems.2⟩

/-- A stage lets through items with the one property if its state keeps what the
step relies on. -/
lemma All.through {Q : β → Prop} {J : Stream β → Prop} {S : σ → Prop}
    {stage : σ → Stream α → Stream β} {step : σ → α → σ × Option β} {state : σ} (h : r.All P I)
    (hstate : S state)
    (hstep : ∀ state a, S state → P a → S (step state a).1 ∧ ∀ b ∈ (step state a).2, Q b)
    (hstage : ∀ state s, S state → I s → J (stage state s)) :
    (r.through stage step state).All Q J := by
  induction r generalizing state with
  | pending rest => exact hstage state rest hstate h
  | ended => trivial
  | item a rest more ih =>
    obtain ⟨ha, hrest, hmore⟩ := h
    obtain ⟨hnext, hlet⟩ := hstep state a hstate ha
    rw [Run.through]
    generalize step state a = result at hnext hlet
    obtain ⟨next, _ | b⟩ := result
    · exact ih hmore hnext
    · exact ⟨hlet b rfl, hstage next rest hnext hrest, ih hmore hnext⟩

/-- What a switch runs below its source keeps the property; what is left stands below the
switch. -/
lemma All.switched {bounded : Bool} {project : β → Stream α} {source : Stream β}
    {J : Stream α → Prop} (h : r.All P I)
    (hinner : ∀ t, I t → J (.switch bounded project source t))
    (hended : J (.switch bounded project source Stream.ended)) :
    (r.switched bounded project source).All P J := by
  induction r with
  | pending rest => exact hinner rest h
  | ended =>
    rw [Run.switched]
    split
    · trivial
    · exact hended
  | item a rest more ih => exact ⟨h.1, hinner rest h.2.1, ih h.2.2⟩

/-- The run of a switch, from the run of its source and that of the stream that is
read: that of the last item, or the one before. -/
lemma All.switch {bounded : Bool} {project : α → Stream β} {source : Stream α} {inner : Stream β}
    {w : World} {Q : β → Prop} {J : Stream β → Prop} (hsource : (source.run w).All P I)
    (hended : I Stream.ended) (hinner : (inner.run w).All Q J) (hinnerEnded : J Stream.ended)
    (hproject : ∀ a, P a → ((project a).run w).All Q J) :
    ((Stream.switch bounded project source inner).run w).All Q fun t =>
      ∃ rest inner, t = .switch bounded project rest inner ∧ I rest ∧ J inner := by
  have hrest := hsource.final_getD hended
  have hswitched {t : Stream β} (ht : (t.run w).All Q J) :
      ((t.run w).switched bounded project ((source.run w).final.getD .ended)).All Q fun t =>
        ∃ rest inner, t = .switch bounded project rest inner ∧ I rest ∧ J inner :=
    ht.switched (fun u hu => ⟨_, u, rfl, hrest, hu⟩) ⟨_, _, rfl, hrest, hinnerEnded⟩
  rw [Stream.run]
  split
  · trivial
  · cases hlast : (source.run w).last? none with
    | none => exact hswitched hinner
    | some a => exact hswitched (hproject a (hsource.last? hlast))

end Run

/-! ### Reading in worlds of a kind -/

namespace Stream

/-- The stream may become another one: it is read in worlds of the kind, in part
or to the end, and told of events, in any order. -/
inductive Reaches (W : World → Prop) (s : Stream α) : Stream α → Prop
  | refl : Reaches W s s
  | read {t rest : Stream α} {w : World} (h : Reaches W s t) (hw : W w)
      (hrest : rest ∈ (t.run w).rests) : Reaches W s rest
  | notify {t : Stream α} (h : Reaches W s t) (e : Event) : Reaches W s (t.notify e).2

/-- Every item that the stream may deliver has the property, read in worlds of
the kind. -/
def Always (W : World → Prop) (P : α → Prop) (s : Stream α) : Prop :=
  ∀ t, s.Reaches W t → ∀ w, W w → ∀ a ∈ (t.run w).toList, P a

variable {W : World → Prop} {P : α → Prop}

/-- What can become of something that can become of a stream can become of the stream. -/
lemma Reaches.trans {s t u : Stream α} (h : s.Reaches W t) (h' : t.Reaches W u) :
    s.Reaches W u := by
  induction h' with
  | refl => exact h
  | read _ hw hrest ih => exact ih.read hw hrest
  | notify _ e ih => exact ih.notify e

/-- An invariant holds of every stream that is reached. -/
lemma Reaches.invariant {I : Stream α → Prop} {s t : Stream α} (h : s.Reaches W t) (hs : I s)
    (hread : ∀ s, I s → ∀ w, W w → ∀ rest ∈ (s.run w).rests, I rest)
    (hnotify : ∀ s, I s → ∀ e, I (s.notify e).2) : I t := by
  induction h with
  | refl => exact hs
  | read _ hw hrest ih => exact hread _ ih _ hw _ hrest
  | notify _ e ih => exact hnotify _ ih e

namespace Always

/-- An invariant of streams whose runs deliver only items with the property. -/
theorem of_invariant {I : Stream α → Prop} (hrun : ∀ s, I s → ∀ w, W w → (s.run w).All P I)
    (hnotify : ∀ s, I s → ∀ e, I (s.notify e).2) {s : Stream α} (hs : I s) : s.Always W P := by
  intro t ht w hw
  have hread : ∀ s, I s → ∀ w, W w → ∀ rest ∈ (s.run w).rests, I rest :=
    fun s hs w hw => (Run.all_iff.mp (hrun s hs w hw)).2
  exact (Run.all_iff.mp (hrun t (ht.invariant hs hread hnotify) w hw)).1

variable {s : Stream α}

/-- Read in an allowed world, the stream delivers items with the property and always will. -/
lemma run (h : s.Always W P) {w : World} (hw : W w) : (s.run w).All P (Always W P) := by
  refine Run.all_iff.mpr ⟨h s .refl w hw, fun t ht u hu => ?_⟩
  exact h u ((Reaches.refl.read hw ht).trans hu)

lemma notify (h : s.Always W P) (e : Event) : (s.notify e).2.Always W P :=
  fun t ht => h t ((Reaches.refl.notify e).trans ht)

/-- A weaker property holds always as well. -/
lemma mono {Q : α → Prop} (h : s.Always W P) (hPQ : ∀ a, P a → Q a) : s.Always W Q :=
  fun t ht w hw a ha => hPQ a (h t ht w hw a ha)

lemma trivial (s : Stream α) : s.Always W fun _ => True := fun _ _ _ _ _ _ => True.intro

/-! Sources. -/

lemma finite {items : List α} (h : ∀ a ∈ items, P a) : (Stream.finite items).Always W P := by
  refine of_invariant (I := fun t => ∃ items : List α, t = .finite items ∧ ∀ a ∈ items, P a)
    ?_ ?_ ⟨items, rfl, h⟩
  · rintro _ ⟨items, rfl, hitems⟩ w -
    exact Run.All.ofFinite hitems fun rest hrest => ⟨rest, rfl, hrest⟩
  · rintro _ ⟨items, rfl, hitems⟩ e
    exact ⟨items, rfl, hitems⟩

lemma lasting {items : List α} (h : ∀ a ∈ items, P a) : (Stream.lasting items).Always W P := by
  refine of_invariant (I := fun t => ∃ items : List α, t = .lasting items ∧ ∀ a ∈ items, P a)
    ?_ ?_ ⟨items, rfl, h⟩
  · rintro _ ⟨items, rfl, hitems⟩ w -
    exact Run.All.ofLasting hitems fun rest hrest => ⟨rest, rfl, hrest⟩
  · rintro _ ⟨items, rfl, hitems⟩ e
    exact ⟨items, rfl, hitems⟩

lemma just {a : α} (h : P a) : (Stream.just a).Always W P := finite (by simpa using h)

lemma ended : (Stream.ended : Stream α).Always W P := finite (by simp)

/-- A watch delivers what is published in an allowed world. -/
lemma watch (topic : Topic) {P : topic.Content → Prop} (seen : Option Nat)
    (h : ∀ w, W w → P (w.read topic).value) : (Stream.watch topic seen).Always W P := by
  refine of_invariant (I := fun t => ∃ seen, t = .watch topic seen) ?_ ?_ ⟨seen, rfl⟩
  · rintro _ ⟨seen, rfl⟩ w hw
    simp only [Stream.run, Run.ofPublished]
    split <;> split
    · exact True.intro
    · exact ⟨_, rfl⟩
    · exact ⟨h w hw, ⟨_, rfl⟩, True.intro⟩
    · exact ⟨h w hw, ⟨_, rfl⟩, ⟨_, rfl⟩⟩
  · rintro _ ⟨seen, rfl⟩ e
    exact ⟨seen, rfl⟩

/-! Stages. -/

/-- A stage delivers items with a property if its state keeps what the step
relies on. -/
theorem scan {Q : β → Prop} {S : σ → Prop} {step : σ → α → σ × Option β} {state : σ}
    (h : s.Always W P) (hstate : S state)
    (hstep : ∀ state a, S state → P a → S (step state a).1 ∧ ∀ b ∈ (step state a).2, Q b) :
    (Stream.scan step state s).Always W Q := by
  refine of_invariant
    (I := fun t => ∃ state s, t = .scan step state s ∧ S state ∧ s.Always W P)
    ?_ ?_ ⟨state, s, rfl, hstate, h⟩
  · rintro _ ⟨state, s, rfl, hstate, hs⟩ w hw
    exact (hs.run hw).through hstate hstep fun state t hstate ht => ⟨state, t, rfl, hstate, ht⟩
  · rintro _ ⟨state, s, rfl, hstate, hs⟩ e
    exact ⟨state, (s.notify e).2, rfl, hstate, hs.notify e⟩

/-- The images of items with the property have the property of the images. -/
lemma map {Q : β → Prop} {f : α → β} (h : s.Always W P) (hf : ∀ a, P a → Q (f a)) :
    (s.map f).Always W Q := by
  refine h.scan (S := fun _ => True) True.intro fun _ a _ ha => ⟨True.intro, fun b hb => ?_⟩
  rw [← Option.some.inj hb]
  exact hf a ha

lemma distinct (h : s.Always W P) (same : α → α → Bool) : (s.distinct same).Always W P := by
  have hstep : ∀ last a, True → P a →
      True ∧ ∀ b ∈ (distinctStep same last a).2, P b := by
    intro last a _ ha
    refine ⟨True.intro, fun b hb => ?_⟩
    rw [distinctStep] at hb
    split at hb
    · simp at hb
    · rw [← Option.some.inj hb]
      exact ha
  refine of_invariant (I := fun t => ∃ last s, t = .dedup same last s ∧ s.Always W P)
    ?_ ?_ ⟨none, s, rfl, h⟩
  · rintro _ ⟨last, s, rfl, hs⟩ w hw
    exact (hs.run hw).through (S := fun _ => True) True.intro hstep
      fun last t _ ht => ⟨last, t, rfl, ht⟩
  · rintro _ ⟨last, s, rfl, hs⟩ e
    exact ⟨last, (s.notify e).2, rfl, hs.notify e⟩

/-- A switch delivers what the streams of its items deliver. -/
theorem switch {Q : β → Prop} {bounded : Bool} {project : α → Stream β} {inner : Stream β}
    (h : s.Always W P) (hproject : ∀ a, P a → (project a).Always W Q)
    (hinner : inner.Always W Q) : (Stream.switch bounded project s inner).Always W Q := by
  let I (t : Stream β) : Prop :=
    ∃ s inner, t = .switch bounded project s inner ∧ s.Always W P ∧ inner.Always W Q
  refine of_invariant (I := I) ?_ ?_ ⟨s, inner, rfl, h, hinner⟩
  · rintro _ ⟨s, inner, rfl, hs, hinner⟩ w hw
    exact (hs.run hw).switch ended (hinner.run hw) ended fun a ha => (hproject a ha).run hw
  · rintro _ ⟨s, inner, rfl, hs, hinner⟩ e
    exact ⟨(s.notify e).2, (inner.notify e).2, rfl, hs.notify e, hinner.notify e⟩

/-- A switch delivers what the streams deliver to which items with the property lead. -/
lemma switchMap {Q : β → Prop} {project : α → Stream β} (h : s.Always W P)
    (hproject : ∀ a, P a → (project a).Always W Q) : (s.switchMap project).Always W Q :=
  h.switch hproject ended

/-- A deadline adds one item. -/
lemma timeout (h : s.Always W P) {late : α} (hlate : P late) (millis : Nat)
    (deadline : Option Nat) : (Stream.timeout millis late deadline s).Always W P := by
  let I (t : Stream α) : Prop :=
    t.Always W P ∨ ∃ deadline s, t = .timeout millis late deadline s ∧ s.Always W P
  refine of_invariant (I := I) ?_ ?_ (.inr ⟨deadline, s, rfl, h⟩)
  · rintro t (ht | ⟨deadline, s, rfl, hs⟩) w hw
    · exact (ht.run hw).mono (fun _ ha => ha) fun _ ht => .inl ht
    · have hrun := hs.run hw
      rw [Stream.run]
      cases hsource : s.run w with
      | pending rest =>
        rw [hsource] at hrun
        rw [Run.timed]
        split
        · exact ⟨hlate, .inl hrun, .inl hrun⟩
        · exact .inr ⟨_, rest, rfl, hrun⟩
      | ended => trivial
      | item a rest more =>
        rw [hsource] at hrun
        exact hrun.mono (fun _ ha => ha) fun _ ht => .inl ht
  · rintro t (ht | ⟨deadline, s, rfl, hs⟩) e
    · exact .inl (ht.notify e)
    · exact .inr ⟨deadline, (s.notify e).2, rfl, hs.notify e⟩

end Always

end Stream

/-! ### Combinations -/

/-- What the child is going to deliver has the one property, and every stream as
which it may be left has the other. -/
def Child.All (P : α → Prop) (I : Stream α → Prop) : Child α → Prop
  | gone => True
  | idle s => I s
  | ready s r => I s ∧ r.All P I

namespace Child

variable {P : Nat → α → Prop} {I : Nat → Stream α → Prop}

/-- What is left of a child satisfies the invariant, also where it is gone. -/
lemma All.stream {P : α → Prop} {I : Stream α → Prop} {child : Child α} (h : child.All P I)
    (hended : I Stream.ended) : I child.stream := by
  cases child with
  | gone => exact hended
  | idle s => exact h
  | ready s r => exact h.1

/-- Writing a child into a slot keeps the properties of all slots if the new one has those of
its slot. -/
lemma All.set {children : List (Child α)}
    (h : ∀ i (child : Child α), children[i]? = some child → child.All (P i) (I i)) {i : Nat}
    (new : Child α) (hnew : new.All (P i) (I i)) (j : Nat) (child : Child α)
    (hj : (children.set i new)[j]? = some child) : child.All (P j) (I j) := by
  rw [List.getElem?_set] at hj
  split at hj
  · rename_i hij
    subst hij
    split at hj
    · rw [← Option.some.inj hj]
      exact hnew
    · simp at hj
  · exact h j child hj

/-- A selection delivers of each slot items with the property of that slot, and
leaves in it streams with the other property of that slot. -/
theorem schedule_all (hended : ∀ i, I i Stream.ended) (children : List (Child α))
    (queue : List Nat)
    (h : ∀ i (child : Child α), children[i]? = some child → child.All (P i) (I i)) :
    (schedule children queue).All (fun item => P item.1 item.2) fun t =>
      ∃ ss queue, t = .select (StreamList.ofList ss) queue ∧
        ∀ i (s : Stream α), ss[i]? = some s → I i s := by
  have hstreams {children : List (Child α)}
      (h : ∀ i (child : Child α), children[i]? = some child → child.All (P i) (I i)) (i : Nat)
      (s : Stream α) (hs : (children.map Child.stream)[i]? = some s) : I i s := by
    rw [List.getElem?_map, Option.map_eq_some_iff] at hs
    obtain ⟨child, hchild, rfl⟩ := hs
    exact (h i child hchild).stream (hended i)
  induction children, queue using schedule.induct with
  | case1 children hgone =>
    rw [schedule, if_pos hgone]
    trivial
  | case2 children hgone =>
    rw [schedule, if_neg hgone]
    exact ⟨_, [], rfl, hstreams h⟩
  | case3 children i queue stream a s more hi _ ih =>
    obtain ⟨hstream, ha, hrest, hmore⟩ := h i _ hi
    have hset := All.set h (ready s more) ⟨hrest, hmore⟩
    rw [schedule_item hi]
    exact ⟨ha, ⟨_, _, rfl, hstreams hset⟩, ih hset⟩
  | case4 children i queue s s' hi _ ih =>
    rw [schedule_pending hi]
    exact ih (All.set h _ (h i _ hi).2)
  | case5 children i queue s hi _ ih =>
    rw [schedule_ended hi]
    exact ih (All.set h gone True.intro)
  | case6 children i queue hitem hpending hended ih =>
    rw [schedule_skip (not_ready hitem hpending hended)]
    exact ih h

end Child

/-- The run of a selection, from the runs of its streams. -/
lemma Run.All.select {P : Nat → α → Prop} {I : Nat → Stream α → Prop}
    (hended : ∀ i, I i Stream.ended) (w : World) (ss : List (Stream α)) (queue : List Nat)
    (h : ∀ i (s : Stream α), ss[i]? = some s → I i s ∧ (s.run w).All (P i) (I i)) :
    ((Stream.select (StreamList.ofList ss) queue).run w).All (fun item => P item.1 item.2)
      fun t => ∃ ss queue, t = .select (StreamList.ofList ss) queue ∧
        ∀ i (s : Stream α), ss[i]? = some s → I i s := by
  refine Child.schedule_all hended _ queue fun i child hchild => ?_
  rw [Child.getElem?_runs, Option.map_eq_some_iff] at hchild
  obtain ⟨s, hs, rfl⟩ := hchild
  unfold Child.start
  split
  · trivial
  · split
    · exact h i s hs
    · exact (h i s hs).1

namespace Stream.Always

variable {W : World → Prop}

/-- A merge delivers of each stream items with the property of that stream. -/
theorem merge {P : Nat → α → Prop} {ss : List (Stream α)}
    (h : ∀ i (s : Stream α), ss[i]? = some s → s.Always W (P i)) :
    (Stream.merge ss).Always W fun item => P item.1 item.2 := by
  refine of_invariant (I := fun t => ∃ ss queue, t = .select (StreamList.ofList ss) queue ∧
    ∀ i (s : Stream α), ss[i]? = some s → s.Always W (P i)) ?_ ?_ ⟨ss, _, rfl, h⟩
  · rintro _ ⟨ss, queue, rfl, hss⟩ w hw
    exact .select (fun _ => ended) w ss queue fun i s hs => ⟨hss i s hs, (hss i s hs).run hw⟩
  · rintro _ ⟨ss, queue, rfl, hss⟩ e
    rw [notify_select]
    refine ⟨_, _, rfl, fun i s hs => ?_⟩
    rw [List.getElem?_map, Option.map_eq_some_iff] at hs
    obtain ⟨t, ht, rfl⟩ := hs
    exact (hss i t ht).notify e

/-- A combination delivers lists with one item of each stream, and each item has
the property of its stream. -/
theorem combineLatest {P : Nat → α → Prop} {ss : List (Stream α)}
    (h : ∀ i (s : Stream α), ss[i]? = some s → s.Always W (P i)) :
    (Stream.combineLatest ss).Always W fun items =>
      items.length = ss.length ∧ ∀ i a, items[i]? = some a → P i a := by
  cases ss with
  | nil => exact just ⟨rfl, by simp⟩
  | cons s rest =>
    rw [combineLatest_cons]
    -- Every slot is empty or holds an item with the property of its stream.
    refine (merge h).scan
      (S := fun latest => latest.length = (s :: rest).length ∧
        ∀ i a, latest[i]? = some (some a) → P i a) ⟨by simp, fun i a hi => ?_⟩ ?_
    · simp [List.getElem?_replicate] at hi
    · rintro latest ⟨slot, a⟩ ⟨hlength, hlatest⟩ ha
      have hset : ∀ i b, (latest.set slot (some a))[i]? = some (some b) → P i b := by
        intro i b hi
        rw [List.getElem?_set] at hi
        split at hi
        · rename_i hslot
          subst hslot
          split at hi
          · obtain rfl : a = b := by simpa using hi
            exact ha
          · simp at hi
        · exact hlatest i b hi
      refine ⟨⟨by simpa [latestStep] using hlength, hset⟩, fun items hitems => ?_⟩
      have hall : latest.set slot (some a) = items.map some :=
        mapM_id_eq_some_iff.mp hitems
      have hslots : (latest.set slot (some a)).length = latest.length := List.length_set
      refine ⟨?_, fun i b hb => hset i b ?_⟩
      · rw [← hlength, ← hslots, hall, List.length_map]
      · rw [hall, List.getElem?_map, hb]
        rfl

end Stream.Always

end Verdict
