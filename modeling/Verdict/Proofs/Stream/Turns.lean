/-
Reading a stream turn by turn.

A reader asks a stream for one item or for several, in a world of its own for each
read, and between the reads the stream is told of events.  These turns decide what
the stream delivers and what is left of it.

* `Turn`: a read or an event.
* `Stream.left`, `given`, `delivered`: what is left of a stream behind its turns,
  none if it has ended, and what it has delivered, in the latest turn and in all.
* `Stream.awake`: the stream has not said since it was woken that it waits.
* `Attends`: the turns of a part among those of the whole.
* `Stream.IsStage`, `Stream.Staged`, `Stream.exists_staged`: a stage makes its items of those
  of its source.
-/
import Verdict.Proofs.Stream.Waking

namespace Verdict

variable {σ α β : Type}

/-! ### Reading a run in part -/

namespace Run

/-- Where a read started does not matter once something was asked for. -/
lemma take_succ_of_start (r : Run α) (start start' : Stream α) (count : Nat) :
    r.take start (count + 1) = r.take start' (count + 1) := by
  cases r <;> rfl

/-- A read that gets less than it asks for finds out how the run goes on. -/
lemma snd_take_of_length_fst_lt (r : Run α) (start : Stream α) {count : Nat}
    (h : (r.take start count).1.length < count) : (r.take start count).2 = r.final := by
  refine r.snd_take_of_length_lt start ?_
  rw [fst_take, List.length_take, length_toList] at h
  omega

/-- Reading what passes through a stage reads enough of what comes in. -/
lemma take_through (stage : σ → Stream α → Stream β) (step : σ → α → σ × Option β) (state : σ)
    (r : Run α) (start : Stream α) (count : Nat) :
    ∃ asked, count ≤ asked ∧
      (r.through stage step state).take (stage state start) count
        = (passed step state (r.take start asked).1,
          (r.take start asked).2.map (stage (stateAfter step state (r.take start asked).1))) ∧
      (((r.through stage step state).take (stage state start) count).1.length < count →
        (r.take start asked).1.length < asked) := by
  induction r generalizing state start count with
  | pending rest =>
    cases count with
    | zero => exact ⟨0, le_rfl, rfl, id⟩
    | succ count => exact ⟨count + 1, le_rfl, rfl, id⟩
  | ended =>
    cases count with
    | zero => exact ⟨0, le_rfl, rfl, id⟩
    | succ count => exact ⟨count + 1, le_rfl, rfl, id⟩
  | item a rest more ih =>
    cases count with
    | zero => exact ⟨0, le_rfl, rfl, id⟩
    | succ count =>
      rw [through]
      cases hstep : step state a with
      | mk next out =>
        cases out with
        | some b =>
          obtain ⟨asked, hle, heq, hlt⟩ := ih next rest count
          refine ⟨asked + 1, by omega, ?_, fun hless => ?_⟩
          · simp only [take, heq, passed, stateAfter, hstep]
            rfl
          · simp only [take, List.length_cons] at hless ⊢
            have := hlt (by omega)
            omega
        | none =>
          obtain ⟨asked, hle, heq, hlt⟩ := ih next rest (count + 1)
          refine ⟨asked + 1, by omega, ?_, fun hless => ?_⟩
          · rw [take_succ_of_start _ _ (stage next rest), heq]
            simp only [take, passed, stateAfter, hstep]
            rfl
          · rw [take_succ_of_start _ _ (stage next rest)] at hless
            simp only [take, List.length_cons]
            have := hlt hless
            omega

end Run

lemma passed_append (step : σ → α → σ × Option β) (state : σ) (items more : List α) :
    passed step state (items ++ more)
      = passed step state items ++ passed step (stateAfter step state items) more := by
  induction items generalizing state with
  | nil => rfl
  | cons a rest ih => rw [List.cons_append, passed, ih, ← List.append_assoc]; rfl

lemma stateAfter_append (step : σ → α → σ × Option β) (state : σ) (items more : List α) :
    stateAfter step state (items ++ more) = stateAfter step (stateAfter step state items) more := by
  induction items generalizing state with
  | nil => rfl
  | cons a rest ih => exact ih _

/-! ### Turns -/

/-- What happens to a stream. -/
inductive Turn where
  /-- It is read in the world until it waits, ends, or has delivered one item and so
  many further ones. -/
  | read (w : World) (further : Nat)
  /-- It is told of the event. -/
  | told (e : Event)

namespace Stream

/-- What is left of the stream behind the turns, of which the latest is the first one;
none if it has ended. -/
def left (s : Stream α) : List Turn → Option (Stream α)
  | [] => some s
  | .read w further :: h => (s.left h).bind fun t => ((t.run w).take t (further + 1)).2
  | .told e :: h => (s.left h).map fun t => (t.notify e).2

/-- The items that the stream delivers in the latest turn. -/
def given (s : Stream α) : List Turn → List α
  | .read w further :: h =>
    ((s.left h).map fun t => ((t.run w).take t (further + 1)).1).getD []
  | _ => []

/-- The items that the stream has delivered, in their order. -/
def delivered (s : Stream α) : List Turn → List α
  | [] => []
  | m :: h => s.delivered h ++ s.given (m :: h)

/-- The stream is to be asked: it never was, or the latest read got all that it asked
for, or an event has woken the stream since then. -/
def awake (s : Stream α) : List Turn → Bool
  | [] => true
  | .read w further :: h => decide (further < (s.given (.read w further :: h)).length)
  | .told e :: h => s.awake h || ((s.left h).map fun t => (t.notify e).1).getD false

variable {s t : Stream α} {h : List Turn} {w : World} {further : Nat}

lemma given_read_of_left (ht : s.left h = some t) :
    s.given (.read w further :: h) = ((t.run w).take t (further + 1)).1 := by
  rw [given, ht]
  rfl

lemma left_read_of_left (ht : s.left h = some t) :
    s.left (.read w further :: h) = ((t.run w).take t (further + 1)).2 := by
  rw [left, ht]
  rfl

lemma left_told_of_left (ht : s.left h = some t) (e : Event) :
    s.left (.told e :: h) = some (t.notify e).2 := by
  rw [left, ht]
  rfl

/-- What has ended stays so. -/
lemma left_cons_of_left_eq_none (m : Turn) (hs : s.left h = none) : s.left (m :: h) = none := by
  cases m <;> rw [left, hs] <;> rfl

lemma given_cons_of_left_eq_none (m : Turn) (hs : s.left h = none) : s.given (m :: h) = [] := by
  cases m with
  | read w further => rw [given, hs]; rfl
  | told e => rfl

@[simp] lemma given_told (e : Event) : s.given (.told e :: h) = [] := rfl

lemma delivered_told (e : Event) : s.delivered (.told e :: h) = s.delivered h := by
  rw [delivered, given_told, List.append_nil]

/-- A stream that has nothing more to deliver, but has not said so yet, is to be asked. -/
lemma awake_of_isEnded (ht : s.left h = some t) (hended : t.isEnded = true) :
    s.awake h = true := by
  induction h generalizing t with
  | nil => rfl
  | cons m h ih =>
    cases hleft : s.left h with
    | none => exact absurd ht (by rw [left_cons_of_left_eq_none m hleft]; simp)
    | some u =>
      cases m with
      | read w further =>
        rw [left_read_of_left hleft] at ht
        rw [awake, given_read_of_left hleft, decide_eq_true_eq]
        by_contra hfew
        have hless : ((u.run w).take u (further + 1)).1.length < further + 1 := by omega
        rw [Run.snd_take_of_length_fst_lt _ _ hless] at ht
        rw [isEnded_of_final_run u ht] at hended
        exact Bool.false_ne_true hended
      | told e =>
        obtain rfl := Option.some.inj ((left_told_of_left hleft e).symm.trans ht)
        have hu : u.isEnded = true := by
          rw [← hended]
          cases u <;> rfl
        rw [awake, ih hleft hu, Bool.true_or]

end Stream

/-! ### The turns of a part -/

/-- The first turns are those of a part, the second ones those of the whole: the part is
told all that the whole is told, and it is read only when the whole is read, in the same
world. -/
inductive Attends : List Turn → List Turn → Prop
  | nil : Attends [] []
  | told {h' h : List Turn} (e : Event) (hs : Attends h' h) :
      Attends (.told e :: h') (.told e :: h)
  | asked {h' h : List Turn} (w : World) (further further' : Nat) (hs : Attends h' h) :
      Attends (.read w further' :: h') (.read w further :: h)
  | unasked {h' h : List Turn} (w : World) (further : Nat) (hs : Attends h' h) :
      Attends h' (.read w further :: h)

lemma Attends.trans {h h' h'' : List Turn} (hs : Attends h'' h') (hs' : Attends h' h) :
    Attends h'' h := by
  induction hs' generalizing h'' with
  | nil => exact hs
  | told e _ ih =>
    cases hs with
    | told _ hs => exact .told e (ih hs)
  | asked w further further' _ ih =>
    cases hs with
    | asked _ _ further'' hs => exact .asked w further further'' (ih hs)
    | unasked _ _ hs => exact .unasked w further (ih hs)
  | unasked w further _ ih => exact .unasked w further (ih hs)

/-! ### The turns of a source -/

/-- What can be kept up from turn to turn can be told of all turns at once. -/
lemma exists_account {γ : Type*} (Keeps : List Turn → γ → Prop) (Follows : γ → γ → Prop)
    (hnil : ∃ x, Keeps [] x)
    (hcons : ∀ m h x, Keeps h x → ∃ y, Keeps (m :: h) y ∧ Follows x y) :
    ∃ account : List Turn → γ, ∀ h, Keeps h (account h) ∧
      ∀ m, Follows (account h) (account (m :: h)) := by
  obtain ⟨x, hx⟩ := hnil
  choose next hkeeps hfollows using hcons
  let account : (h : List Turn) → { x // Keeps h x } :=
    fun h => List.rec ⟨x, hx⟩ (fun m h x => ⟨next m h x x.2, hkeeps m h x x.2⟩) h
  exact ⟨fun h => (account h).1, fun h => ⟨(account h).2, fun m => hfollows m h _ (account h).2⟩⟩

/-- An account to which every turn only adds grows with the turns. -/
lemma suffix_of_suffix {γ : Type*} {account : List Turn → List γ}
    (hadds : ∀ h m, account h <:+ account (m :: h)) {h' h : List Turn} (hsuffix : h' <:+ h) :
    account h' <:+ account h := by
  obtain ⟨later, rfl⟩ := hsuffix
  induction later with
  | nil => exact List.suffix_refl _
  | cons m later ih => exact ih.trans (hadds _ m)

namespace Stream

/-- What has been delivered stays so. -/
lemma delivered_grows (s : Stream α) {h' h : List Turn} (hsuffix : h' <:+ h) :
    s.delivered h' <+: s.delivered h := by
  obtain ⟨later, rfl⟩ := hsuffix
  induction later with
  | nil => exact List.prefix_refl _
  | cons m later ih => exact ih.trans (List.prefix_append _ _)

/-- A stage passes the items of its source through a state, and leaves the rest to it. -/
structure IsStage (stage : σ → Stream α → Stream β) (step : σ → α → σ × Option β) : Prop where
  run : ∀ w state s, (stage state s).run w = (s.run w).through stage step state
  notify : ∀ e state s,
    (stage state s).notify e = ((s.notify e).1, stage state (s.notify e).2)

lemma isStage_scan (step : σ → α → σ × Option β) : IsStage (scan step) step where
  run w state s := by rw [Stream.run]
  notify _ _ _ := rfl

lemma isStage_dedup (same : α → α → Bool) : IsStage (dedup same) (distinctStep same) where
  run w last s := by rw [Stream.run]
  notify _ _ _ := rfl

/-- Behind the turns of a stage its source has had the turns `h'`. -/
structure Staged (stage : σ → Stream α → Stream β) (step : σ → α → σ × Option β) (state : σ)
    (s : Stream α) (h h' : List Turn) : Prop where
  attends : Attends h' h
  delivered : (stage state s).delivered h = passed step state (s.delivered h')
  left : (stage state s).left h
    = (s.left h').map (stage (stateAfter step state (s.delivered h')))
  sleeps : (stage state s).awake h = false → s.awake h' = false

variable {stage : σ → Stream α → Stream β} {step : σ → α → σ × Option β} {state : σ}
  {s : Stream α} {h h' : List Turn} (hstage : IsStage stage step)

include hstage

lemma Staged.told (hs : Staged stage step state s h h') (e : Event) :
    Staged stage step state s (.told e :: h) (.told e :: h') where
  attends := .told e hs.attends
  delivered := by rw [delivered_told, delivered_told, hs.delivered]
  left := by
    rw [Stream.left, Stream.left, hs.left, delivered_told, Option.map_map, Option.map_map]
    refine congrArg (Option.map · _) (funext fun t => ?_)
    rw [Function.comp, hstage.notify]
    rfl
  sleeps hsleeps := by
    rw [awake, Bool.or_eq_false_iff] at hsleeps ⊢
    refine ⟨hs.sleeps hsleeps.1, ?_⟩
    have hwoke : ((fun t => (t.notify e).1) ∘ stage (stateAfter step state (s.delivered h')))
        = fun t => (t.notify e).1 := funext fun t => by rw [Function.comp, hstage.notify]
    rw [hs.left, Option.map_map, hwoke] at hsleeps
    exact hsleeps.2

/-- A stage that is read reads its source until something gets through. -/
lemma Staged.read (hs : Staged stage step state s h h') (w : World) (further : Nat) :
    ∃ asked, further ≤ asked ∧
      Staged stage step state s (.read w further :: h) (.read w asked :: h') := by
  cases hsource : s.left h' with
  | none =>
    have hnone : (stage state s).left h = none := by rw [hs.left, hsource]; rfl
    refine ⟨further, le_rfl, .asked w _ _ hs.attends, ?_, ?_, fun _ => ?_⟩
    · rw [Stream.delivered, Stream.delivered, given_cons_of_left_eq_none _ hnone,
        given_cons_of_left_eq_none _ hsource, List.append_nil, List.append_nil, hs.delivered]
    · rw [left_cons_of_left_eq_none _ hnone, left_cons_of_left_eq_none _ hsource]
      rfl
    · rw [awake, given_cons_of_left_eq_none _ hsource]
      rfl
  | some t =>
    have hsome : (stage state s).left h
        = some (stage (stateAfter step state (s.delivered h')) t) := by
      rw [hs.left, hsource]
      rfl
    obtain ⟨asked, hle, htake, hless⟩ := (t.run w).take_through stage step
      (stateAfter step state (s.delivered h')) t (further + 1)
    obtain ⟨asked, rfl⟩ : ∃ n, asked = n + 1 := ⟨asked - 1, by omega⟩
    refine ⟨asked, by omega, .asked w _ _ hs.attends, ?_, ?_, fun hsleeps => ?_⟩
    · rw [Stream.delivered, Stream.delivered, given_read_of_left hsome,
        given_read_of_left hsource, passed_append, hs.delivered, hstage.run, htake]
    · rw [left_read_of_left hsome, left_read_of_left hsource, hstage.run, htake, Stream.delivered,
        given_read_of_left hsource, stateAfter_append]
    · rw [awake, given_read_of_left hsome, decide_eq_false_iff_not, hstage.run] at hsleeps
      rw [awake, given_read_of_left hsource, decide_eq_false_iff_not]
      have := hless (by omega)
      omega

/-- A stage makes its items of those that its source has delivered in turns of its own,
and it ends with its source. -/
theorem exists_staged (state : σ) (s : Stream α) :
    ∃ source : List Turn → List Turn, ∀ h, Staged stage step state s h (source h) ∧
      ∀ m, source h <:+ source (m :: h) := by
  refine exists_account (Staged stage step state s) (fun h' h'' => h' <:+ h'')
    ⟨[], .nil, rfl, rfl, id⟩ fun m h h' hs => ?_
  cases m with
  | told e => exact ⟨_, hs.told hstage e, List.suffix_cons _ _⟩
  | read w further =>
    obtain ⟨asked, -, hread⟩ := hs.read hstage w further
    exact ⟨_, hread, List.suffix_cons _ _⟩

end Stream

end Verdict
