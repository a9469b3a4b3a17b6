/-
Switching from stream to stream.

A switch reads its source to the end before it reads anything else, and then the
stream of the last item that the source has delivered.  Its turns therefore tell
what that stream has been through: all turns since the read that gave the item.

* `Turn.moment`: a read as one that goes to the end.
* `Stream.recent`: the turns since the source of a switch has delivered its last item.
* `Stream.newest`: what is left of the stream of that item.
* `Stream.Switched`, `Stream.switched`: a switch stands above its newest stream.
* `Stream.switch_of_newest`: what a switch delivers, and when it ends.
-/
import Verdict.Proofs.Stream.History
import Verdict.Proofs.Stream.Turns

namespace Verdict

variable {α β : Type}

/-! ### Reading the run of a switch -/

/-- Reading a switch reads its inner stream. -/
lemma Run.take_switched (bounded : Bool) (project : α → Stream β) (source : Stream α)
    (r : Run β) (start : Stream β) (start' : Stream β) (further : Nat) :
    (r.switched bounded project source).take start' (further + 1)
      = ((r.take start (further + 1)).1,
        match (r.take start (further + 1)).2 with
        | some inner => some (.switch bounded project source inner)
        | none => if source.isEnded then none
            else some (.switch bounded project source .ended)) := by
  induction r generalizing start start' further with
  | pending rest => rfl
  | ended =>
    rw [switched]
    split <;> rfl
  | item b rest more ih =>
    cases further with
    | zero => cases more <;> rfl
    | succ further =>
      rw [switched, take, ih rest]
      rfl

/-- The source of a switch is read to the end whenever the switch is read. -/
def Turn.moment : Turn → Moment
  | .read w _ => .read w
  | .told e => .told e

namespace Stream

/-- The turns since the source, read to the end at each read, has delivered its last
item, the read that gave it among them; all of them if there is none. -/
def recent (source : Stream α) : List Turn → List Turn
  | [] => []
  | .read w further :: h => .read w further ::
      if ((source.after (h.map Turn.moment)).run w).toList.isEmpty then source.recent h else []
  | .told e :: h => .told e :: source.recent h

/-- What is left of the stream of the last item that the source has delivered. -/
def newest (project : α → Stream β) (source : Stream α) (h : List Turn) : Option (Stream β) :=
  (source.latest (h.map Turn.moment)).bind fun a => (project a).left (source.recent h)

/-- The items that the stream of the last item of the source delivers in the latest turn. -/
def givenByNewest (project : α → Stream β) (source : Stream α) (h : List Turn) : List β :=
  ((source.latest (h.map Turn.moment)).map fun a => (project a).given (source.recent h)).getD []

variable {bounded : Bool} {project : α → Stream β} {source : Stream α} {h : List Turn}

/-- Behind these turns a switch stands above its newest stream, or it has ended. -/
def Switched (bounded : Bool) (project : α → Stream β) (source : Stream α) (h : List Turn) :
    Prop :=
  (switch bounded project source ended).left h
      = some (.switch bounded project (source.after (h.map Turn.moment))
        ((newest project source h).getD ended)) ∨
    ((switch bounded project source ended).left h = none ∧
      (source.after (h.map Turn.moment)).isEnded = true ∧
      (bounded = true ∨ newest project source h = none))

lemma newest_told (e : Event) :
    newest project source (.told e :: h)
      = (newest project source h).map fun inner => (inner.notify e).2 := by
  rw [newest, newest, List.map_cons, Turn.moment, latest, recent]
  cases source.latest (h.map Turn.moment) <;> rfl

/-- A read of a switch reads the newest stream, a new one if the source delivers. -/
lemma take_current (project : α → Stream β) (source : Stream α) (h : List Turn) (w : World)
    (further : Nat) :
    ((current w project (source.after (h.map Turn.moment))
        ((newest project source h).getD ended)).run w).take
      (current w project (source.after (h.map Turn.moment))
        ((newest project source h).getD ended)) (further + 1)
      = (givenByNewest project source (.read w further :: h),
        newest project source (.read w further :: h)) := by
  rw [givenByNewest, newest, newest, List.map_cons, Turn.moment, latest, recent, current,
    Run.last?_eq, Run.last?_eq, Option.or_none]
  cases hitems : ((source.after (h.map Turn.moment)).run w).toList.getLast? with
  | some a =>
    -- The stream of the new item is read for the first time.
    have hsome : ((source.after (h.map Turn.moment)).run w).toList.isEmpty = false := by
      rw [List.isEmpty_eq_false_iff]
      exact fun hnil => by simp [hnil] at hitems
    rw [hsome]
    rfl
  | none =>
    have hnone : ((source.after (h.map Turn.moment)).run w).toList.isEmpty = true := by
      rw [List.isEmpty_iff]
      exact List.getLast?_eq_none_iff.mp hitems
    rw [hnone, if_pos rfl, Option.none_or]
    cases source.latest (h.map Turn.moment) with
    | none => rfl
    | some a =>
      simp only [Option.map_none, Option.getD_none, Option.bind_some, Option.map_some,
        Option.getD_some]
      cases hleft : (project a).left (source.recent h) with
      | none => rw [left_cons_of_left_eq_none _ hleft, given_cons_of_left_eq_none _ hleft]; rfl
      | some inner => rw [left_read_of_left hleft, given_read_of_left hleft]; rfl

/-- Behind an ended source, a stream that has ended stays the newest one. -/
lemma newest_read_of_ended (hended : (source.after (h.map Turn.moment)).isEnded = true)
    (hnone : newest project source h = none) (w : World) (further : Nat) :
    givenByNewest project source (.read w further :: h) = [] ∧
      newest project source (.read w further :: h) = none := by
  have htake := take_current project source h w further
  rw [eq_ended_of_isEnded hended, hnone] at htake
  exact ⟨(congrArg Prod.fst htake).symm, (congrArg Prod.snd htake).symm⟩

section Read

variable (hs : Switched bounded project source h) (w : World) (further : Nat)

include hs

/-- A switch that is read delivers what its newest stream delivers; a bounded one
delivers nothing any more as soon as its source has ended. -/
lemma Switched.given_read :
    (switch bounded project source ended).given (.read w further :: h)
      = if bounded && (source.after ((Turn.read w further :: h).map Turn.moment)).isEnded then []
        else givenByNewest project source (.read w further :: h) := by
  rcases hs with hsome | ⟨hnone, hended, hquiet⟩
  · rw [given_read_of_left hsome]
    by_cases hends : bounded = true ∧
        ((source.after (h.map Turn.moment)).drained w).isEnded = true
    · obtain ⟨rfl, hends⟩ := hends
      rw [run_switch_of_ended w _ _ _ ((isEnded_drained_iff w _).mp hends)]
      exact (if_pos (by rwa [Bool.true_and])).symm
    · rw [run_switch (fun hb => Bool.eq_false_iff.mpr fun h => hends ⟨hb, h⟩),
        Run.take_switched _ _ _ _ (current w project _ _), take_current]
      exact (if_neg (by rwa [Bool.and_eq_true])).symm
  · rw [given_cons_of_left_eq_none _ hnone]
    split
    · rfl
    · rename_i hgoes
      rcases hquiet with rfl | hquiet
      · refine absurd ?_ hgoes
        rw [Bool.true_and, List.map_cons, Turn.moment, after, eq_ended_of_isEnded hended]
        rfl
      · exact (newest_read_of_ended hended hquiet w further).1.symm

/-- A switch that is read stands above its newest stream, unless it ends: an unbounded
one together with its source and that stream, a bounded one with its source. -/
lemma Switched.left_read :
    (switch bounded project source ended).left (.read w further :: h)
      = if (source.after ((Turn.read w further :: h).map Turn.moment)).isEnded = true ∧
            (bounded = true ∨ newest project source (.read w further :: h) = none) then none
        else some (.switch bounded project
          (source.after ((Turn.read w further :: h).map Turn.moment))
          ((newest project source (.read w further :: h)).getD ended)) := by
  rcases hs with hsome | ⟨hnone, hended, hquiet⟩
  · rw [left_read_of_left hsome]
    by_cases hends : bounded = true ∧
        ((source.after (h.map Turn.moment)).drained w).isEnded = true
    · obtain ⟨rfl, hends⟩ := hends
      rw [run_switch_of_ended w _ _ _ ((isEnded_drained_iff w _).mp hends)]
      exact (if_pos ⟨hends, .inl rfl⟩).symm
    · rw [run_switch (fun hb => Bool.eq_false_iff.mpr fun h => hends ⟨hb, h⟩),
        Run.take_switched _ _ _ _ (current w project _ _), take_current]
      cases hnewest : newest project source (.read w further :: h) with
      | some inner =>
        refine (if_neg fun hboth => hends ?_).symm
        exact ⟨hboth.2.resolve_right (Option.some_ne_none inner), hboth.1⟩
      | none =>
        simp only [or_true, and_true]
        rfl
  · rw [left_cons_of_left_eq_none _ hnone]
    refine (if_pos ⟨?_, hquiet.imp_right fun hquiet =>
      (newest_read_of_ended hended hquiet w further).2⟩).symm
    rw [List.map_cons, Turn.moment, after, eq_ended_of_isEnded hended]
    rfl

end Read

lemma Switched.told (hs : Switched bounded project source h) (e : Event) :
    Switched bounded project source (.told e :: h) := by
  rcases hs with hsome | ⟨hnone, hended, hquiet⟩
  · left
    rw [left_told_of_left hsome, newest_told]
    cases newest project source h <;> rfl
  · refine .inr ⟨left_cons_of_left_eq_none _ hnone, ?_, ?_⟩
    · rw [List.map_cons, Turn.moment, after, eq_ended_of_isEnded hended]
      rfl
    · rw [newest_told]
      exact hquiet.imp_right fun hquiet => by rw [hquiet]; rfl

/-- Whatever happens to a switch, it stands above its newest stream until it ends. -/
theorem switched (bounded : Bool) (project : α → Stream β) (source : Stream α) (h : List Turn) :
    Switched bounded project source h := by
  induction h with
  | nil => exact .inl rfl
  | cons m h ih =>
    cases m with
    | told e => exact ih.told e
    | read w further =>
      by_cases hends : (source.after ((Turn.read w further :: h).map Turn.moment)).isEnded = true ∧
          (bounded = true ∨ newest project source (.read w further :: h) = none)
      · exact .inr ⟨by rw [ih.left_read, if_pos hends], hends⟩
      · exact .inl (by rw [ih.left_read, if_neg hends])

lemma newest_eq_none_iff :
    newest project source h = none ↔
      ∀ a ∈ source.latest (h.map Turn.moment), (project a).left (source.recent h) = none := by
  rw [newest, Option.bind_eq_none_iff]
  rfl

/-- In each read a switch delivers what the stream of the last item of its source delivers,
which has been through the turns since that item.  What the switch would do with any other
item does not matter.  An unbounded switch ends exactly when its source and that stream have
ended; a bounded one in the read in which its source ends, delivering nothing in it. -/
theorem switch_of_newest (bounded : Bool) (project : α → Stream β) (source : Stream α)
    (w : World) (further : Nat) (h : List Turn) :
    let read := Turn.read w further :: h
    let last := source.latest (read.map Turn.moment)
    let finished := ((source.after (h.map Turn.moment)).run w).final = none
    (switch bounded project source ended).given read
        = (if bounded = true ∧ finished then []
          else (last.map fun a => (project a).given (source.recent read)).getD []) ∧
      ((switch bounded project source ended).left read = none ↔
        finished ∧ (bounded = true ∨ ∀ a ∈ last, (project a).left (source.recent read) = none)) ∧
      (∀ t, (switch bounded project source ended).left read = some t →
        t = .switch bounded project (source.after (read.map Turn.moment))
          ((last.bind fun a => (project a).left (source.recent read)).getD ended)) ∧
      ∀ project' : α → Stream β, (∀ a ∈ last, project' a = project a) →
        (switch bounded project' source ended).given read
            = (switch bounded project source ended).given read ∧
          ((switch bounded project' source ended).left read = none ↔
            (switch bounded project source ended).left read = none) := by
  intro read last finished
  have hfinished : finished ↔ (source.after (read.map Turn.moment)).isEnded = true :=
    (isEnded_drained_iff w _).symm
  have hgiven (project : α → Stream β) : (switch bounded project source ended).given read
      = if bounded = true ∧ finished then []
        else (last.map fun a => (project a).given (source.recent read)).getD [] := by
    rw [(switched bounded project source h).given_read]
    simp only [Bool.and_eq_true, hfinished]
    rfl
  have hleft (project : α → Stream β) : (switch bounded project source ended).left read = none ↔
      finished ∧ (bounded = true ∨ ∀ a ∈ last, (project a).left (source.recent read) = none) := by
    rw [(switched bounded project source h).left_read, ← newest_eq_none_iff, hfinished]
    split <;> simp_all [read]
  refine ⟨hgiven project, hleft project, fun t ht => ?_, fun project' hsame => ⟨?_, ?_⟩⟩
  · rcases switched bounded project source read with hsome | ⟨hnone, -⟩
    · exact Option.some.inj (ht.symm.trans hsome)
    · exact absurd (ht.symm.trans hnone) (Option.some_ne_none t)
  · rw [hgiven, hgiven]
    cases hlast : last with
    | none => rfl
    | some a => rw [Option.map_some, Option.map_some, hsame a hlast]
  · rw [hleft, hleft]
    refine and_congr_right fun _ => or_congr_right (forall₂_congr fun a ha => ?_)
    rw [hsame a ha]

end Stream
end Verdict
