/-
Streams that hold nothing open.

* `Stream.Inert`: built from given items alone, without a source that reads the
  world or the clock.
* `Stream.Inert.of_reaches`: such a stream stays one, however it is read.
* `Stream.HoldsNothing`: no subscription is open, and no deadline is waited for.
* `Stream.HoldsAs`: two streams hold the same open.
* `Stream.Inert.of_reaches_switchMap`: above an inert source a switch holds open
  what the streams of its items do.
-/
import Verdict.Proofs.Stream.Always

namespace Verdict

variable {σ α β : Type} {W : World → Prop}

namespace Stream

/-- Nothing in the stream reads the world or the clock, nor will anything that it
switches to. -/
inductive Inert : {α : Type} → Stream α → Prop
  | finite {α : Type} (items : List α) : Inert (.finite items)
  | scan {σ α β : Type} {step : σ → α → σ × Option β} {state : σ} {source : Stream α}
      (hsource : Inert source) : Inert (.scan step state source)
  | dedup {α : Type} {same : α → α → Bool} {last : Option α} {source : Stream α}
      (hsource : Inert source) : Inert (.dedup same last source)
  | select {α : Type} {ss : List (Stream α)} {queue : List Nat} (hss : ∀ s ∈ ss, Inert s) :
      Inert (.select (StreamList.ofList ss) queue)
  | switch {α β : Type} {bounded : Bool} {project : α → Stream β} {source : Stream α}
      {inner : Stream β} (hsource : Inert source) (hproject : ∀ a, Inert (project a))
      (hinner : Inert inner) : Inert (.switch bounded project source inner)

/-- No subscription is open and no deadline is waited for. -/
structure HoldsNothing (s : Stream α) : Prop where
  subscriptions : ∀ topic, s.subscriptions topic = 0
  deadlines : s.deadlines = []

/-- The same subscriptions are open and the same deadlines are waited for. -/
structure HoldsAs (s : Stream α) (t : Stream β) : Prop where
  subscriptions : ∀ topic, s.subscriptions topic = t.subscriptions topic
  deadlines : s.deadlines = t.deadlines

lemma deadlines_ofList_of_nil {ss : List (Stream α)} (h : ∀ s ∈ ss, s.deadlines = []) :
    (StreamList.ofList ss).deadlines = [] := by
  rw [StreamList.deadlines_ofList, List.flatten_eq_nil_iff, List.forall_mem_map]
  exact h

lemma HoldsNothing.switch {bounded : Bool} {project : α → Stream β} {source : Stream α}
    {inner : Stream β} (hsource : source.HoldsNothing) (hinner : inner.HoldsNothing) :
    (Stream.switch bounded project source inner).HoldsNothing where
  subscriptions topic := by
    rw [Stream.subscriptions, hsource.subscriptions, hinner.subscriptions]
  deadlines := by
    rw [Stream.deadlines, hsource.deadlines, hinner.deadlines, List.append_nil]

/-- Below a source that holds nothing open, the inner stream holds what is open. -/
lemma HoldsNothing.switch_holdsAs {bounded : Bool} {project : α → Stream β} {source : Stream α}
    (hsource : source.HoldsNothing) (inner : Stream β) :
    (Stream.switch bounded project source inner).HoldsAs inner where
  subscriptions topic := by
    rw [Stream.subscriptions, hsource.subscriptions, Nat.zero_add]
  deadlines := by
    rw [Stream.deadlines, hsource.deadlines, List.nil_append]

namespace Inert

/-! ### Combinators -/

lemma just (a : α) : (Stream.just a).Inert := finite [a]

lemma map {s : Stream α} (h : s.Inert) (f : α → β) : (s.map f).Inert := h.scan

lemma distinct {s : Stream α} (h : s.Inert) (same : α → α → Bool) : (s.distinct same).Inert :=
  h.dedup

lemma switchMap {s : Stream α} {project : α → Stream β} (h : s.Inert)
    (hproject : ∀ a, (project a).Inert) : (s.switchMap project).Inert :=
  h.switch hproject (finite [])

lemma combineLatest {ss : List (Stream α)} (h : ∀ s ∈ ss, s.Inert) :
    (Stream.combineLatest ss).Inert := by
  cases ss with
  | nil => exact just []
  | cons s rest =>
    rw [combineLatest_cons]
    exact (select h).scan

/-! ### What an inert stream becomes -/

variable {s t : Stream α}

/-- Nothing wakes an inert stream. -/
lemma quiet (h : s.Inert) : s.Quiet := by
  induction h with
  | finite items => exact fun _ => rfl
  | scan _ ih => exact ih.scan
  | dedup _ ih => exact ih.dedup
  | select _ ih => exact Quiet.select ih
  | switch _ _ _ ihs _ ihi => exact ihs.switch ihi

lemma holdsNothing (h : s.Inert) : s.HoldsNothing := by
  induction h with
  | finite items => exact ⟨fun _ => rfl, rfl⟩
  | scan _ ih => exact ⟨ih.subscriptions, ih.deadlines⟩
  | dedup _ ih => exact ⟨ih.subscriptions, ih.deadlines⟩
  | select _ ih =>
    refine ⟨fun topic => ?_, deadlines_ofList_of_nil fun s hs => (ih s hs).deadlines⟩
    rw [subscriptions, StreamList.subscriptions_ofList, List.sum_eq_zero_iff_forall_eq_nat]
    intro n hn
    obtain ⟨s, hs, rfl⟩ := List.mem_map.mp hn
    exact (ih s hs).subscriptions topic
  | switch _ _ _ ihs _ ihi => exact ihs.switch ihi

/-- Whatever is left of an inert stream after a run is inert. -/
lemma run_all (h : s.Inert) (w : World) : (s.run w).All (fun _ => True) Inert := by
  induction h with
  | finite items => exact .ofFinite (fun _ _ => trivial) fun rest _ => .finite rest
  | scan _ ih =>
    exact ih.through (S := fun _ => True) trivial (fun _ _ _ _ => ⟨trivial, fun _ _ => trivial⟩)
      fun _ _ _ ht => .scan ht
  | dedup _ ih =>
    exact ih.through (S := fun _ => True) trivial (fun _ _ _ _ => ⟨trivial, fun _ _ => trivial⟩)
      fun _ _ _ ht => .dedup ht
  | @select _ ss queue hss ih =>
    have hrun := Run.All.select (P := fun _ _ => True) (I := fun _ => Inert)
      (fun _ => .finite []) w ss queue fun i s hs =>
        ⟨hss s (List.mem_of_getElem? hs), ih s (List.mem_of_getElem? hs)⟩
    refine hrun.mono (fun _ _ => trivial) ?_
    rintro _ ⟨ss', queue', rfl, hss'⟩
    refine select fun s hs => ?_
    obtain ⟨i, hi⟩ := List.mem_iff_getElem?.mp hs
    exact hss' i s hi
  | switch _ hproject _ ihs ihp ihi =>
    refine (ihs.switch (.finite []) ihi (.finite []) fun a _ => ihp a).mono
      (fun _ _ => trivial) ?_
    rintro _ ⟨rest, inner, rfl, hrest, hinner⟩
    exact .switch hrest hproject hinner

/-- An inert stream stays inert. -/
theorem of_reaches (h : s.Inert) (ht : s.Reaches W t) : t.Inert := by
  refine ht.invariant h (fun s hs w _ rest hrest => ?_) fun s hs e => ?_
  · exact (Run.all_iff.mp (hs.run_all w)).2 rest hrest
  · rw [hs.quiet e]
    exact hs

end Inert

/-! ### What stages hold open -/

/-- What is reached from a stage that holds back repetitions is such a stage
above what is reached from its source. -/
lemma Reaches.of_distinct {same : α → α → Bool} {s t : Stream α}
    (h : (s.distinct same).Reaches W t) :
    ∃ last u, t = .dedup same last u ∧ s.Reaches W u := by
  refine h.invariant (I := fun t => ∃ last u, t = .dedup same last u ∧ s.Reaches W u)
    ⟨none, s, rfl, .refl⟩ ?_ ?_
  · rintro _ ⟨last, u, rfl, hu⟩ w hw
    have hrun : (u.run w).All (fun _ => True) (s.Reaches W) :=
      Run.all_iff.mpr ⟨fun _ _ => trivial, fun v hv => hu.read hw hv⟩
    have hthrough : ((u.run w).through (.dedup same) (distinctStep same) last).All
        (fun _ => True) fun t => ∃ last u, t = .dedup same last u ∧ s.Reaches W u :=
      hrun.through (S := fun _ => True) trivial (fun _ _ _ _ => ⟨trivial, fun _ _ => trivial⟩)
        fun last v _ hv => ⟨last, v, rfl, hv⟩
    exact (Run.all_iff.mp hthrough).2
  · rintro _ ⟨last, u, rfl, hu⟩ e
    exact ⟨last, (u.notify e).2, rfl, hu.notify e⟩

/-- What is reached from a switch above an inert source is a switch above an inert
source, and below it stands an inert stream or what is reached from the stream
of an item. -/
theorem Inert.of_reaches_switchMap {source : Stream α} {project : α → Stream β} {t : Stream β}
    (hsource : source.Inert) (h : (source.switchMap project).Reaches W t) :
    ∃ rest inner, t = .switch false project rest inner ∧ rest.Inert ∧
      (inner.Inert ∨ ∃ a, (project a).Reaches W inner) := by
  let Inner (inner : Stream β) : Prop := inner.Inert ∨ ∃ a, (project a).Reaches W inner
  let I (t : Stream β) : Prop :=
    ∃ rest inner, t = .switch false project rest inner ∧ rest.Inert ∧ Inner inner
  have hread {inner : Stream β} (h : Inner inner) {w : World} (hw : W w) :
      (inner.run w).All (fun _ => True) Inner := by
    refine Run.all_iff.mpr ⟨fun _ _ => trivial, fun u hu => ?_⟩
    rcases h with h | ⟨a, h⟩
    · exact .inl ((Run.all_iff.mp (h.run_all w)).2 u hu)
    · exact .inr ⟨a, h.read hw hu⟩
  refine h.invariant (I := I) ⟨source, .ended, rfl, hsource, .inl (.finite [])⟩ ?_ ?_
  · rintro _ ⟨source, inner, rfl, hsource, hinner⟩ w hw
    exact (Run.all_iff.mp ((hsource.run_all w).switch (.finite []) (hread hinner hw)
      (.inl (.finite [])) fun a _ => hread (.inr ⟨a, .refl⟩) hw)).2
  · rintro _ ⟨rest, inner, rfl, hrest, hinner⟩ e
    refine ⟨(rest.notify e).2, (inner.notify e).2, rfl, ?_, ?_⟩
    · rw [hrest.quiet e]
      exact hrest
    · rcases hinner with hinner | ⟨a, hinner⟩
      · rw [hinner.quiet e]
        exact .inl hinner
      · exact .inr ⟨a, hinner.notify e⟩

end Stream

end Verdict
