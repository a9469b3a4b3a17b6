/-
Streams that make their items of those of another stream.

A function of the items may stand at the end of a chain of switches, or in front of it,
behind each of the streams that are switched to.  Read at the same turns both deliver the
same, end at the same time and wait at the same time.

* `Stream.Image`: the items of the second stream are made of those of the first one, below any
  number of switches.
* `Stream.Image.run`, `notify`: one run, and one event.
* `Stream.Image.delivered`, `left_eq_none_iff`, `awake`: all turns.
* `ReadsAlong`: a stream is read whenever another one is, in the same worlds.
* `Stream.Image.distinct`: what is left of the items without repetitions.
-/
import Mathlib.Data.List.Destutter
import Verdict.Proofs.Stream.Following

namespace Verdict

variable {α β : Type} {W : World → Prop}

/-! ### Built alike -/

/-- The second stream delivers the images of the items of the first one: it maps them where the
first one maps, and it switches between images where the first one switches. -/
inductive Stream.Image (f : α → β) : Stream α → Stream β → Prop
  | finite (items : List α) : Image f (.finite items) (.finite (items.map f))
  | map {γ : Type} (g : γ → α) (s : Stream γ) : Image f (s.map g) (s.map fun c => f (g c))
  | switch {γ : Type} (bounded : Bool) (source : Stream γ) {project : γ → Stream α}
      {project' : γ → Stream β} {inner : Stream α} {inner' : Stream β}
      (hproject : ∀ c, Image f (project c) (project' c)) (hinner : Image f inner inner') :
      Image f (.switch bounded project source inner) (.switch bounded project' source inner')

/-- The second run delivers the images of the items of the first one, and leaves an image of
each stream that the first one leaves. -/
inductive Run.Image (f : α → β) : Run α → Run β → Prop
  | pending {s : Stream α} {t : Stream β} (hrest : s.Image f t) : Image f (.pending s) (.pending t)
  | ended : Image f .ended .ended
  | item (a : α) {s : Stream α} {t : Stream β} {r : Run α} {r' : Run β} (hrest : s.Image f t)
      (hmore : Image f r r') : Image f (.item a s r) (.item (f a) t r')

variable {f : α → β} {s : Stream α} {t : Stream β}

namespace Run.Image

variable {r : Run α} {r' : Run β}

lemma ofFinite (items : List α) : (Run.ofFinite items).Image f (.ofFinite (items.map f)) := by
  induction items with
  | nil => exact .ended
  | cons a rest ih => exact .item a (.finite rest) ih

/-- Mapping behind a map is mapping once. -/
lemma map {γ : Type} (g : γ → α) (r : Run γ) :
    (r.through (.scan fun (_ : Unit) c => ((), some (g c))) (fun _ c => ((), some (g c))) ()).Image
      f (r.through (.scan fun (_ : Unit) c => ((), some (f (g c))))
        (fun _ c => ((), some (f (g c)))) ()) := by
  induction r with
  | pending rest => exact .pending (.map g rest)
  | ended => exact .ended
  | item c rest more ih => exact .item (g c) (.map g rest) ih

/-- What two switches run below one source are images if the streams switched to are. -/
lemma switched (h : r.Image f r') {γ : Type} (bounded : Bool) (source : Stream γ)
    {project : γ → Stream α} {project' : γ → Stream β}
    (hproject : ∀ c, (project c).Image f (project' c)) :
    (r.switched bounded project source).Image f (r'.switched bounded project' source) := by
  induction h with
  | pending hrest => exact .pending (.switch bounded source hproject hrest)
  | ended =>
    rw [Run.switched, Run.switched]
    split
    · exact .ended
    · exact .pending (.switch bounded source hproject (.finite []))
  | item a hrest _ ih => exact .item a (.switch bounded source hproject hrest) ih

/-- A read in part delivers images and leaves an image. -/
lemma take (h : r.Image f r') (hs : s.Image f t) (count : Nat) :
    (r'.take t count).1 = (r.take s count).1.map f ∧
      Option.Rel (Stream.Image f) (r.take s count).2 (r'.take t count).2 := by
  induction h generalizing s t count with
  | pending hrest =>
    cases count with
    | zero => exact ⟨rfl, .some hs⟩
    | succ count => exact ⟨rfl, .some hrest⟩
  | ended =>
    cases count with
    | zero => exact ⟨rfl, .some hs⟩
    | succ count => exact ⟨rfl, .none⟩
  | item a hrest _ ih =>
    cases count with
    | zero => exact ⟨rfl, .some hs⟩
    | succ count =>
      obtain ⟨hitems, hleft⟩ := ih hrest count
      exact ⟨congrArg (f a :: ·) hitems, hleft⟩

end Run.Image

namespace Stream.Image

/-! ### Read and told alike -/

/-- Read in one world, images run to images. -/
lemma run (hst : s.Image f t) (w : World) : (s.run w).Image f (t.run w) := by
  induction hst with
  | finite items => exact .ofFinite items
  | map g s => exact .map g (s.run w)
  | switch bounded source hproject hinner ih ihinner =>
    rw [Stream.run, Stream.run]
    split
    · exact .ended
    · cases (source.run w).last? none with
      | some c => exact (ih c).switched bounded _ hproject
      | none => exact ihinner.switched bounded _ hproject

/-- An event wakes both or neither, and leaves images. -/
lemma notify (hst : s.Image f t) (e : Event) :
    (t.notify e).1 = (s.notify e).1 ∧ (s.notify e).2.Image f (t.notify e).2 := by
  induction hst with
  | finite items => exact ⟨rfl, .finite items⟩
  | map g s => exact ⟨rfl, .map g _⟩
  | switch bounded source hproject hinner _ ihinner =>
    exact ⟨congrArg (_ || ·) ihinner.1, .switch bounded _ hproject ihinner.2⟩

lemma left (hst : s.Image f t) (h : List Turn) :
    Option.Rel (Stream.Image f) (s.left h) (t.left h) := by
  induction h with
  | nil => exact .some hst
  | cons m h ih =>
    cases m with
    | read w further =>
      rw [Stream.left, Stream.left]
      generalize s.left h = u, t.left h = u' at ih
      cases ih with
      | none => exact .none
      | some hrest => exact ((hrest.run w).take hrest (further + 1)).2
    | told e =>
      rw [Stream.left, Stream.left]
      generalize s.left h = u, t.left h = u' at ih
      cases ih with
      | none => exact .none
      | some hrest => exact .some (hrest.notify e).2

/-- After the same turns both have ended or neither has. -/
lemma left_eq_none_iff (hst : s.Image f t) (h : List Turn) : t.left h = none ↔ s.left h = none := by
  have hleft := hst.left h
  generalize s.left h = u, t.left h = u' at hleft
  cases hleft <;> simp

lemma given (hst : s.Image f t) (h : List Turn) : t.given h = (s.given h).map f := by
  match h with
  | [] => rfl
  | .told e :: h => rfl
  | .read w further :: h =>
    have hleft := hst.left h
    rw [Stream.given, Stream.given]
    generalize s.left h = u, t.left h = u' at hleft
    cases hleft with
    | none => rfl
    | some hrest => exact ((hrest.run w).take hrest (further + 1)).1

/-- After the same turns the second one has delivered the images of the items. -/
lemma delivered (hst : s.Image f t) (h : List Turn) : t.delivered h = (s.delivered h).map f := by
  induction h with
  | nil => rfl
  | cons m h ih => rw [Stream.delivered, Stream.delivered, ih, hst.given, List.map_append]

/-- After the same turns both are awake or neither is. -/
lemma awake (hst : s.Image f t) (h : List Turn) : t.awake h = s.awake h := by
  induction h with
  | nil => rfl
  | cons m h ih =>
    cases m with
    | read w further => rw [Stream.awake, Stream.awake, hst.given, List.length_map]
    | told e =>
      have hleft := hst.left h
      rw [Stream.awake, Stream.awake, ih]
      generalize s.left h = u, t.left h = u' at hleft
      cases hleft with
      | none => rfl
      | some hrest => exact congrArg (_ || ·) (hrest.notify e).1

end Stream.Image

/-! ### Without repetitions -/

/-- The first turns are those of a stream that is read whenever another one is, in the same
worlds and for at least as many items, and that is told the same. -/
inductive ReadsAlong : List Turn → List Turn → Prop
  | nil : ReadsAlong [] []
  | told {h' h : List Turn} (e : Event) (hs : ReadsAlong h' h) :
      ReadsAlong (.told e :: h') (.told e :: h)
  | read {h' h : List Turn} (w : World) {further further' : Nat} (hle : further ≤ further')
      (hs : ReadsAlong h' h) : ReadsAlong (.read w further' :: h') (.read w further :: h)

/-- Who reads along reads in the same worlds. -/
lemma ReadsAlong.readIn {h' h : List Turn} (hs : ReadsAlong h' h) (hr : ReadIn W h) :
    ReadIn W h' := by
  induction hs with
  | nil => exact hr
  | told e _ ih =>
    intro w further hmem
    exact ih hr.tail w further (by simpa using hmem)
  | read w _ _ ih =>
    intro v further hmem
    rcases List.mem_cons.mp hmem with heq | hmem
    · cases heq
      exact hr w _ List.mem_cons_self
    · exact ih hr.tail v further hmem

lemma passed_distinctStep_some (same : β → β → Bool) (a : β) (items : List β) :
    a :: passed (distinctStep same) (some a) items
      = items.destutter' (fun a b => same a b = false) a := by
  induction items generalizing a with
  | nil => rfl
  | cons b rest ih =>
    rw [passed_cons, distinctStep, Option.any_some]
    cases hsame : same a b with
    | true => simpa [List.destutter'_cons_neg, hsame] using ih a
    | false => simpa [List.destutter'_cons_pos, hsame] using ih b

/-- What is left of a list by holding back repetitions. -/
lemma passed_distinctStep (same : β → β → Bool) (items : List β) :
    passed (distinctStep same) none items = items.destutter fun a b => same a b = false := by
  cases items with
  | nil => rfl
  | cons a rest => exact passed_distinctStep_some same a rest

namespace Stream

/-- A stage is read along with its source. -/
lemma exists_readsAlong {σ : Type} {stage : σ → Stream α → Stream β}
    {step : σ → α → σ × Option β} (hstage : IsStage stage step) (state : σ) (s : Stream α)
    (h : List Turn) : ∃ h', ReadsAlong h' h ∧ Staged stage step state s h h' := by
  induction h with
  | nil => exact ⟨[], .nil, .nil, rfl, rfl, id⟩
  | cons m h ih =>
    obtain ⟨h', halong, hs⟩ := ih
    cases m with
    | told e => exact ⟨_, .told e halong, hs.told hstage e⟩
    | read w further =>
      obtain ⟨asked, hle, hread⟩ := hs.read hstage w further
      exact ⟨_, .read w hle halong, hread⟩

/-- The images without repetitions, for a reader that asks the first stream for more items where
images are repeated. -/
theorem Image.distinct (hst : s.Image f t) (same : β → β → Bool) (h : List Turn) :
    ∃ h', ReadsAlong h' h ∧
      (t.distinct same).delivered h
        = ((s.delivered h').map f).destutter (fun a b => same a b = false) ∧
      ((t.distinct same).left h = none ↔ s.left h' = none) ∧
      ((t.distinct same).awake h = false → s.awake h' = false) := by
  obtain ⟨h', halong, hs⟩ := exists_readsAlong (isStage_dedup same) none t h
  refine ⟨h', halong, ?_, ?_, fun hwaits => ?_⟩
  · rw [Stream.distinct, hs.delivered, passed_distinctStep, hst.delivered]
  · rw [Stream.distinct, hs.left, Option.map_eq_none_iff, hst.left_eq_none_iff]
  · rw [← hst.awake, hs.sleeps hwaits]

end Stream

end Verdict
