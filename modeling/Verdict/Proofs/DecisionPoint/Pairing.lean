/-
Sessions side by side.

Two sessions whose worlds stay related, whatever is done to both, give a reader the same,
as long as the streams of the reader match.

* `Session.Pairing`: relations of worlds and of moves that go together.
* `Session.Paired`: sessions in related worlds, with streams of a reader that match.
* `Session.Paired.moveAll`: the reader gets the same, and the sessions stay so.
* `Session.observed`: what a reader gets along moves, and whether its stream is open then.
* `Session.Pairing.observed_eq`: readers of streams that match observe the same.
-/
import Verdict.Proofs.DecisionPoint.Moves
import Verdict.Proofs.Stream.Matching

namespace Verdict

lemma Stream.Matches.heard {α : Type} {T : Topic.Relation} {R : α → α → Prop} {s t : Stream α}
    (h : s.Matches T R t) (es : List Event) : (s.heard es).Matches T R (t.heard es) := by
  induction es generalizing s t with
  | nil => exact h
  | cons e rest ih => exact ih (h.notify e).2

namespace Session

lemma Move.reads_iff {id : String} {m : Move} :
    m.reads id = true ↔ ∃ limit, m = .poll id limit := by
  refine ⟨Move.eq_poll_of_reads, ?_⟩
  rintro ⟨limit, rfl⟩
  exact beq_self_eq_true id

/-- In related worlds the topics have related values; related moves leave related worlds,
read the same, and tell streams that wait for the same times of the same events. -/
structure Pairing (T : Topic.Relation) (E : World → World → Prop) (M : Move → Move → Prop) :
    Prop where
  world_matches {w w' : World} : E w w' → w.Matches T w'
  moved {w w' : World} {m m' : Move} : E w w' → M m m' → E (w.moved m) (w'.moved m')
  polls_iff {m m' : Move} : M m m' →
    ∀ id limit, m = .poll id limit ↔ m' = .poll id limit
  spares {m m' : Move} : M m m' → ∀ id, m.Spares id → m'.Spares id
  events_eq {w w' : World} {m m' : Move} {s t : Stream Delivery} : E w w' → M m m' →
    s.deadlines = t.deadlines → m.events w s = m'.events w' t

/-- The worlds are related, and the streams of the reader match. -/
structure Paired (T : Topic.Relation) (E : World → World → Prop) (id : String)
    (s s' : Session) : Prop where
  world : E s.world s'.world
  stream : Option.Rel (Stream.Matches T Eq) (s.streams.lookup id) (s'.streams.lookup id)

/-- What the reader of the id, whose stream is opened first, gets along the moves, and
whether the stream is still open behind them. -/
def observed (s : Session) (id : String) (stream : Stream Delivery) (moves : List Move) :
    List Delivery × Bool :=
  let (left, got) := (s.openStream id stream).moveAll moves
  (gotBy id got, left.isOpen id)

section

variable {T : Topic.Relation} {E : World → World → Prop} {M : Move → Move → Prop}
variable {id : String} {s s' : Session}

lemma Pairing.reads_eq (hpairing : Pairing T E M) {m m' : Move} (hm : M m m') (id : String) :
    m.reads id = m'.reads id := by
  rw [Bool.eq_iff_iff, Move.reads_iff, Move.reads_iff]
  exact exists_congr fun limit => hpairing.polls_iff hm id limit

namespace Paired

lemma isOpen_eq (h : s.Paired T E id s') : s.isOpen id = s'.isOpen id := by
  have hstream := h.stream
  rw [isOpen, isOpen]
  generalize s.streams.lookup id = t, s'.streams.lookup id = t' at hstream
  cases hstream <;> rfl

/-- A read gives the same, and leaves streams that match. -/
lemma poll (hpairing : Pairing T E M) (h : s.Paired T E id s') (limit : Option Nat) :
    (s.poll id limit).2.1 = (s'.poll id limit).2.1 ∧
      Option.Rel (Stream.Matches T Eq) ((s.poll id limit).1.streams.lookup id)
        ((s'.poll id limit).1.streams.lookup id) := by
  have hstream := h.stream
  rw [lookup_poll, lookup_poll, Session.poll, Session.poll]
  generalize s.streams.lookup id = t, s'.streams.lookup id = t' at hstream
  cases hstream with
  | none => exact ⟨rfl, .none⟩
  | @some t t' ht =>
    have hrun := ht.run (hpairing.world_matches h.world)
    obtain ⟨hitems, hleft⟩ := hrun.take ht (limit.getD ((t.run s.world).length + 1))
    simp only [Option.bind_some, ← hrun.length_eq]
    exact ⟨List.forall₂_eq_eq_eq ▸ hitems, hleft⟩

/-- A reader gets the same from related moves. -/
lemma move (hpairing : Pairing T E M) (h : s.Paired T E id s') {m m' : Move} (hm : M m m')
    (hspares : m.Spares id) :
    gotBy id (s.move m).2 = gotBy id (s'.move m').2 ∧
      (s.move m).1.Paired T E id (s'.move m').1 := by
  have hworld : E (s.move m).1.world (s'.move m').1.world := by
    rw [world_move, world_move]
    exact hpairing.moved h.world hm
  cases hreads : m.reads id with
  | true =>
    obtain ⟨limit, rfl⟩ := Move.eq_poll_of_reads hreads
    obtain rfl := (hpairing.polls_iff hm id limit).mp rfl
    have hgot (t : Session) : (t.move (.poll id limit)).2 = (t.poll id limit).2.1.map (id, ·) := rfl
    obtain ⟨hitems, hleft⟩ := h.poll hpairing limit
    exact ⟨by rw [hgot, hgot, hitems], hworld, hleft⟩
  | false =>
    have hreads' : m'.reads id = false := hpairing.reads_eq hm id ▸ hreads
    refine ⟨?_, hworld, ?_⟩
    · rw [gotBy_move_of_not_reads s hreads, gotBy_move_of_not_reads s' hreads']
    · rw [lookup_move_of_not_reads s hspares hreads,
        lookup_move_of_not_reads s' (hpairing.spares hm id hspares) hreads']
      have hstream := h.stream
      generalize s.streams.lookup id = t, s'.streams.lookup id = t' at hstream
      cases hstream with
      | none => exact .none
      | some ht =>
        rw [Option.map_some, Option.map_some, hpairing.events_eq h.world hm ht.deadlines_eq]
        exact .some (ht.heard _)

/-- So it does along whole sequences of moves. -/
theorem moveAll (hpairing : Pairing T E M) (h : s.Paired T E id s') {moves moves' : List Move}
    (hmoves : List.Forall₂ M moves moves') (hspares : ∀ m ∈ moves, m.Spares id) :
    gotBy id (s.moveAll moves).2 = gotBy id (s'.moveAll moves').2 ∧
      (s.moveAll moves).1.Paired T E id (s'.moveAll moves').1 := by
  induction hmoves generalizing s s' with
  | nil => exact ⟨rfl, h⟩
  | cons hm _ ih =>
    rw [List.forall_mem_cons] at hspares
    obtain ⟨hgot, hmoved⟩ := h.move hpairing hm hspares.1
    obtain ⟨hmore, hleft⟩ := ih hmoved hspares.2
    refine ⟨?_, hleft⟩
    rw [Session.moveAll, Session.moveAll, gotBy_append, gotBy_append, hgot, hmore]

end Paired

/-- Readers of streams that match observe the same in related worlds. -/
theorem Pairing.observed_eq (hpairing : Pairing T E M) (hworld : E s.world s'.world)
    (id : String) {t t' : Stream Delivery} (ht : t.Matches T Eq t') {moves moves' : List Move}
    (hmoves : List.Forall₂ M moves moves') (hspares : ∀ m ∈ moves, m.Spares id) :
    s.observed id t moves = s'.observed id t' moves' := by
  have hopened : (s.openStream id t).Paired T E id (s'.openStream id t') := by
    refine ⟨hworld, ?_⟩
    rw [lookup_openStream, lookup_openStream]
    exact .some ht
  obtain ⟨hgot, hleft⟩ := hopened.moveAll hpairing hmoves hspares
  exact Prod.ext hgot hleft.isOpen_eq

end

end Session

end Verdict
