/-
Moves as seen by one reader.

Whatever owners and readers do to a session, the stream of one reader is read, or told
of some events; so what it becomes is a function of the stream and the world alone.

* `World.moved`, `Session.Move.events`: what a move makes of the world, and the events
  of which it tells a stream.
* `Stream.moved`, `Stream.movedAll`: what moves make of the stream of a reader.
* `Session.lookup_move_of_not_reads`: a move tells a stream of events, unless it reads it.
* `Session.lookup_moveAll`: what stands in the session after moves.
* `Session.drainAfter_eq`: what a reader gets in a read that follows after moves.
* `Stream.movedAll_map`: moves do to the items under a function what they do to the items.
* `Stream.heard_events_of_part`: a part that is told what the whole is told hears what it
  would hear on its own.
-/
import Mathlib.Data.List.Sort
import Verdict.Proofs.DecisionPoint.Demand
import Verdict.Proofs.Stream.Sleep

namespace Verdict

variable {α β : Type}

open Session (Move)

/-! ### Deadlines of a part -/

/-- Erasing repetitions of an ascending list leaves it strictly ascending. -/
lemma pairwise_lt_eraseDups : ∀ {times : List Nat}, times.Pairwise (· ≤ ·) →
    times.eraseDups.Pairwise (· < ·)
  | [], _ => List.Pairwise.nil
  | t :: rest, h => by
    rw [List.pairwise_cons] at h
    rw [List.eraseDups_cons, List.pairwise_cons]
    constructor
    · intro u hu
      rw [List.mem_eraseDups, List.mem_filter] at hu
      have hne : u ≠ t := by simpa using hu.2
      have hle := h.1 u hu.1
      omega
    · exact pairwise_lt_eraseDups (h.2.filter _)
  termination_by times => times.length
  decreasing_by
    have := List.length_filter_le (fun u => !u == t) rest
    simp only [List.length_cons]
    omega

namespace Stream

lemma mem_due {before after t : Nat} {s : Stream α} :
    t ∈ s.due before after ↔ t ∈ s.deadlines ∧ before < t ∧ t ≤ after := by
  simp [due, List.mem_eraseDups, List.mem_mergeSort]

lemma pairwise_due (before after : Nat) (s : Stream α) :
    (s.due before after).Pairwise (· < ·) := by
  set span := s.deadlines.filter fun t => before < t && t ≤ after
  have hsorted : (span.mergeSort fun a b => decide (a ≤ b)).Pairwise
      fun a b => decide (a ≤ b) = true := by
    refine List.pairwise_mergeSort (fun a b c hab hbc => ?_) (fun a b => ?_) span
    · simp only [decide_eq_true_eq] at *
      omega
    · simp only [Bool.or_eq_true, decide_eq_true_eq]
      omega
  exact pairwise_lt_eraseDups (hsorted.imp fun h => of_decide_eq_true h)

lemma heard_due_self (before after : Nat) (s : Stream α) :
    s.heard ((s.due before after).map .reached) = s.elapse before after := by
  rw [elapse_eq, heard, List.foldl_map]

/-- A part of a stream, told of the deadlines of the whole, hears just its own. -/
theorem heard_due {s : Stream α} {t : Stream β} (h : ∀ d ∈ t.deadlines, d ∈ s.deadlines)
    (before after : Nat) :
    t.heard ((s.due before after).map .reached) = t.heard ((t.due before after).map .reached) := by
  have hown : (s.due before after).filter (fun d => (t.notify (.reached d)).1)
      = t.due before after := by
    refine List.Pairwise.eq_of_mem_iff ((s.pairwise_due before after).filter _)
      (t.pairwise_due before after) fun d => ?_
    rw [List.mem_filter, mem_due, mem_due, fst_notify_reached_iff]
    constructor
    · rintro ⟨⟨-, hspan⟩, hd⟩
      exact ⟨hd, hspan⟩
    · rintro ⟨hd, hspan⟩
      exact ⟨⟨h d hd, hspan⟩, hd⟩
  have hfilter : t.heard (((s.due before after).map .reached).filter fun e => (t.notify e).1)
      = t.heard ((s.due before after).map .reached) :=
    heard_filter _ t fun e _ hlistens => t.fst_notify_iff_listens.mpr hlistens
  rw [← hfilter, List.filter_map]
  exact congrArg (fun times => t.heard (times.map .reached)) hown

end Stream

/-! ### Moves as seen by one stream -/

/-- The world after a move. -/
def World.moved (w : World) : Move → World
  | .publish name value => w.publishAttribute name value
  | .reload retrieval =>
    if w.retrieval.closed then w else { w with retrieval := w.retrieval.publish retrieval }
  | .close => if w.retrieval.closed then w else { w with retrieval := w.retrieval.close }
  | .configure configuration =>
    match configuration.validate with
    | .ok c => { w with configuration := w.configuration.publish c }
    | .error _ => w
  | .advance millis => { w with time := w.time + millis }
  | .openStream _ _ | .drop _ | .poll _ _ => w

/-- The events of which a stream is told in a move. -/
def Session.Move.events (w : World) (s : Stream α) : Move → List Event
  | .publish name _ => [.published (.ofAttribute name)]
  | .reload _ | .close => if w.retrieval.closed then [] else [.published .retrieval]
  | .configure configuration =>
    match configuration.validate with
    | .ok _ => [.published .configuration]
    | .error _ => []
  | .advance millis => (s.due w.time (w.time + millis)).map .reached
  | .openStream _ _ | .drop _ | .poll _ _ => []

/-- Whether the move reads the stream of the id. -/
def Session.Move.reads (id : String) : Move → Bool
  | .poll i _ => i == id
  | _ => false

/-- The move leaves the stream of the id open, and reads it to the end if it reads it
at all. -/
def Session.Move.Drains (id : String) (m : Move) : Prop :=
  m.Spares id ∧ ∀ limit, m = .poll id limit → limit = none

/-- The events depend on the time, on whether retrieval is closed, and on the deadlines. -/
lemma Session.Move.events_eq {w w' : World} {s : Stream α} {t : Stream β} (m : Move)
    (htime : w.time = w'.time) (hclosed : w.retrieval.closed = w'.retrieval.closed)
    (hdeadlines : s.deadlines = t.deadlines) : m.events w s = m.events w' t := by
  cases m with
  | publish name value => rfl
  | reload retrieval => rw [Move.events, Move.events, hclosed]
  | close => rw [Move.events, Move.events, hclosed]
  | configure configuration => rfl
  | advance millis => rw [Move.events, Move.events, Stream.due, Stream.due, htime, hdeadlines]
  | openStream i stream => rfl
  | drop i => rfl
  | poll i limit => rfl

lemma Session.Move.eq_poll_of_reads {id : String} {m : Move} (h : m.reads id = true) :
    ∃ limit, m = .poll id limit := by
  cases m with
  | poll i limit =>
    obtain rfl : i = id := beq_iff_eq.mp h
    exact ⟨limit, rfl⟩
  | publish _ _ | reload _ | close | configure _ | advance _ | openStream _ _ | drop _ => cases h

namespace Stream

/-- The stream of the id after a move in a world. -/
def moved (id : String) (w : World) (m : Move) (s : Stream α) : Stream α :=
  if m.reads id then s.drained w else s.heard (m.events w s)

/-- The stream of the id after moves that begin in a world. -/
def movedAll (id : String) (w : World) (s : Stream α) : List Move → Stream α
  | [] => s
  | m :: rest => movedAll id (w.moved m) (s.moved id w m) rest

/-- The open stream of a reader that gets the items under a function; none once the
items have ended. -/
def standing (f : α → Delivery) (s : Stream α) : Option (Stream Delivery) :=
  if s.isEnded then none else some (s.map f)

end Stream

namespace Session

variable {s : Session} {id : String} {f : α → Delivery} {t : Stream α}

/-- A read to the end of the stream of a reader gives all that it has to deliver. -/
lemma poll_standing (h : s.streams.lookup id = t.standing f) :
    (s.poll id none).2 = ((t.run s.world).toList.map f, (t.drained s.world).isEnded) ∧
      (s.poll id none).1.streams.lookup id = (t.drained s.world).standing f := by
  rw [lookup_poll, poll, h, Stream.standing]
  cases hended : t.isEnded with
  | true =>
    rw [Stream.eq_ended_of_isEnded hended]
    exact ⟨rfl, rfl⟩
  | false =>
    have hrun : (t.map f).run s.world = (t.run s.world).through (.scan fun _ a => ((), some (f a)))
        (fun _ a => ((), some (f a))) () := rfl
    have hfinal : ((t.map f).run s.world).final = (t.drained s.world).standing f := by
      rw [hrun, Run.final_through, Stream.final_run_eq, Stream.standing]
      split <;> rfl
    simp only [Bool.false_eq_true, ↓reduceIte, Option.getD_none, Option.bind_some]
    rw [Run.fst_take, Run.snd_take_of_length_lt _ _ (Nat.lt_succ_self _), hfinal,
      Stream.toList_run_map]
    refine ⟨?_, rfl⟩
    rw [← Run.length_toList, Stream.toList_run_map]
    have htake : ((t.run s.world).toList.map f).take
        (((t.run s.world).toList.map f).length + 1) = (t.run s.world).toList.map f :=
      List.take_of_length_le (Nat.le_succ _)
    rw [htake, Stream.standing]
    cases (t.drained s.world).isEnded <;> rfl

lemma world_move (s : Session) (m : Move) : (s.move m).1.world = s.world.moved m := by
  cases m with
  | publish name value => rfl
  | reload retrieval =>
    rw [move, reload, World.moved]
    split <;> rfl
  | close =>
    rw [move, close, World.moved]
    split <;> rfl
  | configure configuration =>
    rw [move, configure, World.moved]
    cases configuration.validate <;> rfl
  | advance millis => rfl
  | openStream i stream => rfl
  | drop i => rfl
  | poll i limit => exact s.world_poll i limit

/-- A move that does not read the stream of a reader tells it of the events of the move. -/
theorem lookup_move_of_not_reads (s : Session) {m : Move} (hspares : m.Spares id)
    (h : m.reads id = false) : (s.move m).1.streams.lookup id
      = (s.streams.lookup id).map fun t => t.heard (m.events s.world t) := by
  have hkept {u : Session} (hu : u.streams.lookup id = s.streams.lookup id) :
      u.streams.lookup id = (s.streams.lookup id).map fun t => t.heard [] :=
    hu.trans Option.map_id'.symm
  cases m with
  | publish name value => exact lookup_change s _ _ id
  | reload retrieval =>
    simp only [move, reload, Move.events]
    split
    · exact hkept rfl
    · exact lookup_change s _ _ id
  | close =>
    simp only [move, close, Move.events]
    split
    · exact hkept rfl
    · exact lookup_change s _ _ id
  | configure configuration =>
    simp only [move, configure, Move.events]
    cases configuration.validate with
    | error refusal => exact hkept rfl
    | ok c => exact lookup_change s _ _ id
  | advance millis =>
    simp only [move, lookup_advance, Move.events, Stream.heard_due_self]
  | openStream i stream => exact hkept (lookup_openStream_of_ne hspares stream)
  | drop i => exact hkept (lookup_drop hspares)
  | poll i limit => exact hkept (lookup_poll_of_ne (beq_eq_false_iff_ne.mp h) limit)

/-- And it gives the reader nothing. -/
lemma gotBy_move_of_not_reads (s : Session) {m : Move} (h : m.reads id = false) :
    gotBy id (s.move m).2 = [] := by
  cases m with
  | configure configuration =>
    rw [move]
    split <;> rfl
  | poll i limit =>
    have hgot : (s.move (.poll i limit)).2 = (s.poll i limit).2.1.map (i, ·) := rfl
    rw [hgot, gotBy_map, if_neg (beq_eq_false_iff_ne.mp h)]
  | publish _ _ | reload _ | close | advance _ | openStream _ _ | drop _ => rfl

/-- What a move makes of the stream of a reader. -/
theorem lookup_move (h : s.streams.lookup id = t.standing f) {m : Move} (hm : m.Drains id) :
    (s.move m).1.streams.lookup id = (t.moved id s.world m).standing f := by
  rw [Stream.moved]
  cases hreads : m.reads id with
  | true =>
    obtain ⟨limit, rfl⟩ := Move.eq_poll_of_reads hreads
    obtain rfl := hm.2 limit rfl
    exact (poll_standing h).2
  | false =>
    rw [lookup_move_of_not_reads s hm.1 hreads, h, Stream.standing]
    simp only [Bool.false_eq_true, ↓reduceIte, Stream.standing, Stream.isEnded_heard]
    split
    · rfl
    · have hevents : m.events s.world (t.map f) = m.events s.world t := m.events_eq rfl rfl rfl
      rw [Option.map_some, hevents, Stream.heard_map]

/-- What moves make of the world and of the stream of a reader. -/
theorem lookup_moveAll (h : s.streams.lookup id = t.standing f) {moves : List Move}
    (hmoves : ∀ m ∈ moves, m.Drains id) :
    (s.moveAll moves).1.streams.lookup id = (t.movedAll id s.world moves).standing f := by
  induction moves generalizing s t with
  | nil => exact h
  | cons m rest ih =>
    rw [List.forall_mem_cons] at hmoves
    have hrest := ih (lookup_move h hmoves.1) hmoves.2
    rw [world_move] at hrest
    exact hrest

end Session

/-! ### Stages -/

namespace Stream

/-- The items of a stream under a function; ended once the stream is. -/
def mapped (f : α → β) (s : Stream α) : Stream β := if s.isEnded then ended else s.map f

lemma isEnded_mapped (f : α → β) (s : Stream α) : (s.mapped f).isEnded = s.isEnded := by
  rw [mapped]
  cases h : s.isEnded <;> rfl

lemma toList_run_mapped (w : World) (f : α → β) (s : Stream α) :
    ((s.mapped f).run w).toList = (s.run w).toList.map f := by
  rw [mapped]
  cases h : s.isEnded with
  | true =>
    rw [eq_ended_of_isEnded h]
    rfl
  | false => exact toList_run_map w f s

lemma drained_mapped (w : World) (f : α → β) (s : Stream α) :
    (s.mapped f).drained w = (s.drained w).mapped f := by
  rw [mapped]
  cases h : s.isEnded with
  | true =>
    rw [eq_ended_of_isEnded h]
    rfl
  | false => exact drained_scan ..

lemma events_mapped (w : World) (f : α → β) (s : Stream α) (m : Move) :
    m.events w (s.mapped f) = m.events w s := by
  refine m.events_eq rfl rfl ?_
  rw [mapped]
  cases h : s.isEnded with
  | true =>
    rw [eq_ended_of_isEnded h]
    rfl
  | false => rfl

lemma heard_mapped (es : List Event) (f : α → β) (s : Stream α) :
    (s.mapped f).heard es = (s.heard es).mapped f := by
  rw [mapped, mapped, isEnded_heard]
  split
  · exact heard_ended es
  · exact heard_map es f s

/-- A move does to the mapped stream what it does to the stream. -/
lemma moved_mapped (id : String) (w : World) (m : Move) (f : α → β) (s : Stream α) :
    (s.mapped f).moved id w m = (s.moved id w m).mapped f := by
  rw [moved, moved, events_mapped]
  split
  · exact drained_mapped w f s
  · exact heard_mapped _ f s

lemma movedAll_mapped (id : String) (w : World) (moves : List Move) (f : α → β) (s : Stream α) :
    (s.mapped f).movedAll id w moves = (s.movedAll id w moves).mapped f := by
  induction moves generalizing w s with
  | nil => rfl
  | cons m rest ih => rw [movedAll, movedAll, moved_mapped, ih]

lemma movedAll_map {s : Stream α} (h : s.isEnded = false) (id : String) (w : World)
    (moves : List Move) (f : α → β) :
    (s.map f).movedAll id w moves = (s.movedAll id w moves).mapped f := by
  rw [← movedAll_mapped, mapped, h]
  rfl

/-! ### What a move does to a part of a stream -/

lemma Punctual.moved {s : Stream α} (h : s.Punctual) (id : String) (w : World) (m : Move) :
    (s.moved id w m).Punctual := by
  rw [Stream.moved]
  split
  · exact (h.drained w).1
  · exact h.heard _

/-- A topic that no event tells of is as it was. -/
lemma read_moved {w : World} {m : Move} {s : Stream α} {topic : Topic}
    (h : .published topic ∉ m.events w s) : (w.moved m).read topic = w.read topic := by
  cases m with
  | publish name value =>
    refine (w.after_publishAttribute name value).read_of_not_mem fun hmem => h ?_
    rw [List.mem_singleton.mp hmem]
    exact List.mem_singleton.mpr rfl
  | reload retrieval =>
    rw [Move.events] at h
    rw [World.moved]
    split
    · rfl
    · rw [if_neg ‹_›] at h
      cases topic with
      | retrieval => exact absurd (List.mem_singleton.mpr rfl) h
      | ofAttribute name => rfl
      | configuration => rfl
  | close =>
    rw [Move.events] at h
    rw [World.moved]
    split
    · rfl
    · rw [if_neg ‹_›] at h
      cases topic with
      | retrieval => exact absurd (List.mem_singleton.mpr rfl) h
      | ofAttribute name => rfl
      | configuration => rfl
  | configure configuration =>
    rw [Move.events] at h
    rw [World.moved]
    cases hvalid : configuration.validate with
    | error refusal => rfl
    | ok c =>
      rw [hvalid] at h
      cases topic with
      | configuration => exact absurd (List.mem_singleton.mpr rfl) h
      | ofAttribute name => rfl
      | retrieval => rfl
  | advance millis => cases topic <;> rfl
  | openStream i stream => rfl
  | drop i => rfl
  | poll i limit => rfl

/-- A deadline of which no event tells is still to come. -/
lemma time_moved {w : World} {m : Move} {s : Stream α} {d : Nat} (hd : d ∈ s.deadlines)
    (hlater : w.time < d) (h : .reached d ∉ m.events w s) : (w.moved m).time < d := by
  cases m with
  | advance millis =>
    have hdue : d ∉ s.due w.time (w.time + millis) := fun hmem => h (List.mem_map_of_mem hmem)
    rw [mem_due] at hdue
    by_contra hle
    exact hdue ⟨hd, hlater, Nat.not_lt.mp hle⟩
  | publish name value => exact hlater
  | reload retrieval =>
    rw [World.moved]
    split <;> exact hlater
  | close =>
    rw [World.moved]
    split <;> exact hlater
  | configure configuration =>
    rw [World.moved]
    cases configuration.validate <;> exact hlater
  | openStream i stream => exact hlater
  | drop i => exact hlater
  | poll i limit => exact hlater

section Parts

variable {s : Stream α} {t : Stream β} (hpart : ∀ d ∈ t.deadlines, d ∈ s.deadlines)

include hpart

/-- If the events of which the whole is told do not wake a part, nothing has happened
that the part waits for. -/
lemma unmoved_of_not_hears {w : World} {m : Move} (h : ¬ t.Hears (m.events w s)) :
    t.Unmoved w (w.moved m) where
  topics _ hlistens := read_moved fun hmem => h ⟨_, hmem, hlistens⟩
  times d hlistens hlater := time_moved (hpart d hlistens) hlater fun hmem => h ⟨_, hmem, hlistens⟩

/-- A part that is told what the whole is told hears what it would hear on its own. -/
lemma heard_events_of_part (w : World) (m : Move) :
    t.heard (m.events w s) = t.heard (m.events w t) := by
  cases m with
  | advance millis => exact heard_due hpart _ _
  | publish name value => rfl
  | reload retrieval => rfl
  | close => rfl
  | configure configuration => rfl
  | openStream i stream => rfl
  | drop i => rfl
  | poll i limit => rfl

end Parts

end Stream

/-! ### Reads -/

namespace Session

lemma world_moveAll (s : Session) (moves : List Move) :
    (s.moveAll moves).1.world = moves.foldl World.moved s.world := by
  induction moves generalizing s with
  | nil => rfl
  | cons m rest ih => rw [moveAll, ih, world_move, List.foldl_cons]

/-- What the reader of a stream gets in a read that follows after these moves, and
whether the stream has ended then. -/
def drainAfter (s : Session) (reader : String) (stream : Stream Delivery) (moves : List Move) :
    List Delivery × Bool :=
  (((s.openStream reader stream).moveAll moves).1.poll reader none).2

lemma drainAfter_eq {moves : List Move} {reader : String}
    (hmoves : ∀ m ∈ moves, m.Drains reader) {t : Stream α} (ht : t.isEnded = false)
    (f : α → Delivery) (s : Session) :
    s.drainAfter reader (t.map f) moves =
      let rest := t.movedAll reader s.world moves
      let w := moves.foldl World.moved s.world
      ((rest.run w).toList.map f, (rest.drained w).isEnded) := by
  have hopened : (s.openStream reader (t.map f)).streams.lookup reader = t.standing f := by
    rw [lookup_openStream, Stream.standing, ht]
    rfl
  have hmoved := lookup_moveAll hopened hmoves
  rw [drainAfter, (poll_standing hmoved).1, world_moveAll]
  rfl

end Session

end Verdict
