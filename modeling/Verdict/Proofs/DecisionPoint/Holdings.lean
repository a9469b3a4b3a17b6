/-
What a reader of decisions holds open.

A live decision subscribes to attributes as it needs them and drops what it no
longer needs.  After any history of publications, reloads and configurations a
reader that has read to the end holds exactly what a reader holds that comes only
then; and one that has read the end holds nothing.

* `Session.held`: the subscriptions that the stream of a reader holds.
* `Session.performAll_eq`: operations with one reader are moves.
* `DecisionPoint.held_eq_fresh`: nothing is left over from earlier decisions.
-/
import Verdict.Proofs.DecisionPoint.Lifetime

namespace Verdict

namespace Session

/-- The number of subscriptions to an attribute that the stream of the id holds
open; a stream that is gone holds none. -/
def held (s : Session) (id name : String) : Nat :=
  ((s.streams.lookup id).map fun stream => stream.subscriptions (.ofAttribute name)).getD 0

lemma held_of_lookup {s : Session} {id : String} {stream : Stream Delivery}
    (h : s.streams.lookup id = some stream) (name : String) :
    s.held id name = stream.subscriptions (.ofAttribute name) := by
  rw [held, h]
  rfl

lemma held_of_gone {s : Session} {id : String} (h : s.streams.lookup id = none)
    (name : String) : s.held id name = 0 := by
  rw [held, h]
  rfl

/-! ### Operations as moves -/

/-- The move that an operation with the reader of the id is. -/
def Operation.move (id : String) : Operation → Move
  | .publish name value => .publish name value
  | .reload retrieval => .reload retrieval
  | .configure configuration => .configure configuration
  | .drain => .poll id none

lemma Operation.move_spares (id : String) (op : Operation) : (op.move id).Spares id := by
  cases op <;> exact trivial

lemma perform_eq (id : String) (s : Session) (op : Operation) :
    s.perform id op = ((s.move (op.move id)).1, gotBy id (s.move (op.move id)).2) := by
  cases op with
  | publish name value => rfl
  | reload retrieval => rfl
  | configure configuration =>
    rw [perform, Operation.move, move]
    cases s.configure configuration <;> rfl
  | drain =>
    rw [Operation.move, move, gotBy_map, if_pos rfl]
    rfl

/-- Operations with one reader are moves. -/
lemma performAll_eq (id : String) (s : Session) (ops : List Operation) :
    s.performAll id ops
      = ((s.moveAll (ops.map (Operation.move id))).1,
        gotBy id (s.moveAll (ops.map (Operation.move id))).2) := by
  induction ops generalizing s with
  | nil => rfl
  | cons op rest ih =>
    simp only [performAll, List.map_cons, moveAll, perform_eq, ih, gotBy_append]

lemma fst_performAll (id : String) (s : Session) (ops : List Operation) :
    (s.performAll id ops).1 = (s.moveAll (ops.map (Operation.move id))).1 := by
  rw [performAll_eq]

/-- A reader of decisions that has read the end holds nothing. -/
lemma Reading.held_of_closed {id : String} {s : Session} {ds : List AuthorizationDecision}
    (h : s.Reading id ds) (hclosed : s.world.retrieval.closed = true) {limit : Option Nat}
    (hlimit : limit ≠ some 0) (name : String) : (s.poll id limit).1.held id name = 0 :=
  held_of_gone (h.poll_of_closed hclosed hlimit).1 name

end Session

namespace DecisionPoint

/-- After any operations of owners and readers, a reader of the decisions for a
subscription that has read to the end holds as many subscriptions to every
attribute as one that opens and reads decisions only then.  From whatever state
retrieval is closed, and whatever happens then, a read leaves it none. -/
theorem held_eq_fresh (point : DecisionPoint) (hpoint : point.Immediate)
    (subscription : AuthorizationSubscription) (s : Session) (hopen : s.world.Open) (id : String)
    (ops : List Session.Operation) :
    let stream := (point.decide subscription).map Delivery.decision
    let opened := s.openStream id stream
    let drained := (opened.performAll id (ops ++ [.drain])).1
    (opened.Faithful id (ops ++ [.drain]) → ∀ fresh name,
      drained.held id name
        = ((drained.openStream fresh stream).perform fresh .drain).1.held fresh name) ∧
    (point.retrieval = .watch .retrieval none → ∀ moves : List Session.Move,
      (∀ m ∈ moves, m.Spares id) → ∀ limit, limit ≠ some 0 → ∀ name,
        (((opened.performAll id ops).1.close.moveAll moves).1.poll id limit).1.held id name
          = 0) := by
  intro stream opened drained
  have hprompt : stream.Prompt := (decide_prompt hpoint subscription).map _
  have hendless (w : World) (hw : w.Open) : (stream.drained w).isEnded = false := by
    exact (Stream.isEnded_drained_scan ..).trans (isEnded_drained_decide hpoint subscription hw)
  refine ⟨fun hfaithful fresh name => ?_, fun hwatch moves hspares limit hlimit name => ?_⟩
  · obtain ⟨hfaithful, hdrain⟩ := Session.faithful_append.mp hfaithful
    have hstart : opened.Tracks stream id none :=
      ⟨hopen, .inl ⟨rfl, Session.lookup_openStream s id stream⟩⟩
    have htracks := hstart.performAll hprompt hendless ops hfaithful
    obtain ⟨-, -, hworld, hlookup, -⟩ := htracks.drain hprompt hendless (hdrain.1 rfl)
    have hdrained : drained = ((opened.performAll id ops).1.perform id .drain).1 := by
      rw [show drained = (opened.performAll id (ops ++ [.drain])).1 from rfl,
        Session.performAll_concat]
    rw [← hdrained] at hworld hlookup
    have hfresh := Session.perform_drain (Session.lookup_openStream drained fresh stream)
      (hendless drained.world (hworld ▸ htracks.isOpen))
    rw [Session.held_of_lookup hlookup, hfresh,
      Session.held_of_lookup (Session.lookup_openStream ..)]
    exact congrArg (fun w => (stream.drained w).subscriptions (.ofAttribute name)) hworld.symm
  · have hops : ∀ m ∈ ops.map (Session.Operation.move id), m.Spares id := by
      simp [Session.Operation.move_spares]
    obtain ⟨ds, -, hreading⟩ := (Session.reading_openStream s id hwatch subscription).moveAll hops
    rw [← Session.fst_performAll] at hreading
    obtain ⟨more, -, hclose⟩ := hreading.move (m := .close) trivial
    obtain ⟨rest, -, hleft⟩ := hclose.moveAll hspares
    have hclosed := (Session.closed_moveAll _ moves).mpr
      (.inl ((Session.closed_move (opened.performAll id ops).1 .close).mpr (.inr rfl)))
    exact hleft.held_of_closed hclosed hlimit name

/-- The second condition of a policy is read once the first one holds, and no
longer when the documents are closed. -/
theorem held_eq_fresh_second_condition :
    let gate : Policy :=
      { name := "gate", entitlement := .permit, target := none
        body := [.condition (Reporting.published "a"), .condition (Reporting.published "b")]
        obligations := [], advice := [], transformation := none }
    let point := watching .empty (.watching ["a", "b"]) []
    let stream := (point.decide Reporting.anyone).map Delivery.decision
    let opened := Session.openStream
      { world := {
          attributes := [("a", { value := .ofBool false }), ("b", { value := .ofBool true })]
          retrieval := { value := { documents := [.policy gate] } } } } "pdp" stream
    let drained := (opened.performAll "pdp"
      ([.drain, .publish "a" (.ofBool true)] ++ [.drain])).1
    drained.held "pdp" "b" = 1 ∧
      drained.held "pdp" "b"
        = ((drained.openStream "late" stream).perform "late" .drain).1.held "late" "b" ∧
      (((opened.performAll "pdp" [.drain, .publish "a" (.ofBool true)]).1.close.moveAll
        [.advance 5]).1.poll "pdp" none).1.held "pdp" "b" = 0 := by
  intro gate point stream opened drained
  obtain ⟨hfresh, hclosed⟩ := held_eq_fresh point Reporting.immediate_gatekeeper Reporting.anyone
    { world := opened.world } Reporting.open_gated "pdp" [.drain, .publish "a" (.ofBool true)]
  have hone : drained.held "pdp" "b" = 1 := by
    simp only [drained, opened, stream, point, gate]
    cbv
  refine ⟨hone, hfresh Reporting.faithful_gated "late" "b", hclosed rfl [.advance 5] ?_ none ?_ "b"⟩
  · simp [Session.Move.Spares]
  · simp

end DecisionPoint

end Verdict
