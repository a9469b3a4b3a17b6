/-
Sessions of readers of live values.

A session owns the world and the streams that readers have opened, each under
an id.  Its operations change the world or read from a stream.

* `Delivery`: what a reader gets.
* `Session`: the world and the open streams.
* `Session.openStream`, `poll`, `drop`: the operations of readers.
* `Session.publish`, `reload`, `close`, `configure`, `advance`: the operations
  of owners.
* `Session.subscriptions`: the open subscriptions to an attribute.
-/
import Verdict.DecisionPoint.Basic

namespace Verdict

/-- An item of an open stream. -/
inductive Delivery where
  | value (value : Value)
  | document (decision : DocumentDecision)
  | decision (decision : AuthorizationDecision)
  | identified (id : String) (decision : AuthorizationDecision)

/-- A world and the streams that are open in it. -/
structure Session where
  world : World
  streams : List (String × Stream Delivery) := []

namespace Session

/-- Opens a stream in place of an earlier one of the same id. -/
def openStream (s : Session) (id : String) (stream : Stream Delivery) : Session :=
  { s with streams := (id, stream) :: s.streams.filter fun (i, _) => i != id }

/-- Whether a stream of the id is open. -/
def isOpen (s : Session) (id : String) : Bool := (s.streams.lookup id).isSome

/-- Drops a stream with all that it holds open. -/
def drop (s : Session) (id : String) : Session :=
  { s with streams := s.streams.filter fun (i, _) => i != id }

/-- The stream as it stands after a read; one that has ended is gone. -/
def keep (s : Session) (id : String) : Option (Stream Delivery) → Session
  | some stream => s.openStream id stream
  | none => s.drop id

/-- Reads items until the stream waits or ends, at most `limit` of them if there
is a limit.  The result is the items and whether the stream has ended. -/
def poll (s : Session) (id : String) (limit : Option Nat) : Session × List Delivery × Bool :=
  match s.streams.lookup id with
  | none => (s, [], true)
  | some stream =>
    let run := stream.run s.world
    let (items, rest) := run.take stream (limit.getD (run.length + 1))
    (s.keep id rest, items, rest.isNone)

/-- The world changed, and the streams told of it. -/
def change (s : Session) (world : World) (topic : Topic) : Session :=
  { world, streams := s.streams.map fun (id, stream) => (id, (stream.notify (.published topic)).2) }

/-- Publishes the value of an attribute. -/
def publish (s : Session) (name : String) (value : Value) : Session :=
  s.change (s.world.publishAttribute name value) (.ofAttribute name)

/-- Puts other documents in force; false once retrieval is closed. -/
def reload (s : Session) (retrieval : Retrieval) : Session × Bool :=
  if s.world.retrieval.closed then (s, false)
  else (s.change { s.world with retrieval := s.world.retrieval.publish retrieval } .retrieval, true)

/-- Closes retrieval for good. -/
def close (s : Session) : Session :=
  if s.world.retrieval.closed then s
  else s.change { s.world with retrieval := s.world.retrieval.close } .retrieval

/-- Puts another configuration in force, unless it may not be. -/
def configure (s : Session) (configuration : PdpConfiguration) : Except ConfigError Session :=
  match configuration.validate with
  | .error refusal => .error refusal
  | .ok c =>
    .ok (s.change { s.world with configuration := s.world.configuration.publish c } .configuration)

/-- Lets time pass. -/
def advance (s : Session) (millis : Nat) : Session :=
  let later := s.world.time + millis
  { world := { s.world with time := later }
    streams := s.streams.map fun (id, stream) => (id, stream.elapse s.world.time later) }

/-- The number of open subscriptions to an attribute. -/
def subscriptions (s : Session) (name : String) : Nat :=
  s.streams.foldl (fun n (_, stream) => n + stream.subscriptions (.ofAttribute name)) 0

end Session
end Verdict
