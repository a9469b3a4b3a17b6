/-
Live sequences of values.

A stream is a term: sources that read the world, and combinators on streams.
Nothing happens until a stream is run in a world; what it has seen and what it
waits for is part of the term.

* `Stream`: the terms.
* `Stream.just`, `map`, `distinct`, `switchMap`, `combineLatest`: the
  combinators that evaluation is built from.
* `Stream.subscriptions`: the open subscriptions to a topic.
* `Stream.deadlines`: the times at which a stream waits for the clock.
-/
import Verdict.Stream.World

namespace Verdict

mutual

/-- A live sequence of values. -/
inductive Stream : Type → Type 1 where
  /-- Delivers the items and ends. -/
  | finite {α : Type} (items : List α) : Stream α
  /-- Delivers the items and then stays silent for ever. -/
  | lasting {α : Type} (items : List α) : Stream α
  /-- Delivers the published value and then each later one that it gets to see;
  `seen` is the version that was delivered last. -/
  | watch (topic : Topic) (seen : Option Nat) : Stream topic.Content
  /-- Delivers the time at once and after each period; `next` is the time of
  the next tick, not known before the first run. -/
  | clock (period : Nat) (next : Option Nat) : Stream Nat
  /-- Passes every item through a state, which may keep it back. -/
  | scan {σ α β : Type} (step : σ → α → σ × Option β) (state : σ) (source : Stream α) : Stream β
  /-- Holds back an item that is the same as the one delivered before it, `last`. -/
  | dedup {α : Type} (same : α → α → Bool) (last : Option α) (source : Stream α) : Stream α
  /-- Delivers the items of all children under the numbers of the children.
  Children in the queue are asked in its order; a child that delivers goes to
  the end of the queue, and one that has nothing leaves it until it is woken. -/
  | select {α : Type} (children : StreamList α) (queue : List Nat) : Stream (Nat × α)
  /-- Runs the stream that belongs to the latest item of the source.  A bounded
  one ends with its source. -/
  | switch {α β : Type} (bounded : Bool) (project : α → Stream β) (source : Stream α)
      (inner : Stream β) : Stream β
  /-- Delivers the late item first if the source stays silent for so long after
  the first run. -/
  | timeout {α : Type} (millis : Nat) (late : α) (deadline : Option Nat) (source : Stream α) :
      Stream α

/-- A list of streams. -/
inductive StreamList : Type → Type 1 where
  | nil {α : Type} : StreamList α
  | cons {α : Type} (head : Stream α) (tail : StreamList α) : StreamList α

end

namespace StreamList

/-- The streams of a list. -/
def ofList {α : Type} : List (Stream α) → StreamList α
  | [] => .nil
  | s :: rest => .cons s (ofList rest)

end StreamList

namespace Stream

variable {α β : Type}

/-- The stream that has ended. -/
abbrev ended : Stream α := .finite []

/-- One item and the end. -/
def just (item : α) : Stream α := .finite [item]

/-- The items under a function. -/
def map (f : α → β) (source : Stream α) : Stream β :=
  .scan (fun (_ : Unit) a => ((), some (f a))) () source

/-- The items that differ from the one before. -/
def distinct (same : α → α → Bool) (source : Stream α) : Stream α :=
  .dedup same none source

/-- The streams of the items of the source, each until the next item. -/
def switchMap (source : Stream α) (project : α → Stream β) : Stream β :=
  .switch false project source ended

/-- The streams of the items of the source, until the source ends. -/
def switchMapBounded (source : Stream α) (project : α → Stream β) : Stream β :=
  .switch true project source ended

/-- The items of all streams, under the positions of the streams. -/
def merge (streams : List (Stream α)) : Stream (Nat × α) :=
  .select (StreamList.ofList streams) (List.range streams.length)

/-- The latest items, one of each stream, once all have delivered one. -/
def combineLatest (streams : List (Stream α)) : Stream (List α) :=
  match streams with
  | [] => just []
  | _ :: _ =>
    .scan (fun (latest : List (Option α)) (slot, item) =>
      let latest := latest.set slot (some item)
      (latest, latest.mapM id)) (List.replicate streams.length none) (merge streams)

/-- Whether the stream has delivered everything and ended. -/
def isEnded : Stream α → Bool
  | .finite [] => true
  | _ => false

end Stream

/-! ### What a stream holds open -/

mutual

/-- The number of open subscriptions to a topic. -/
def Stream.subscriptions (topic : Topic) {α : Type} : Stream α → Nat
  | .finite _ => 0
  | .lasting _ => 0
  | .watch t _ => if t = topic then 1 else 0
  | .clock _ _ => 0
  | .scan _ _ source => source.subscriptions topic
  | .dedup _ _ source => source.subscriptions topic
  | .select children _ => children.subscriptions topic
  | .switch _ _ source inner => source.subscriptions topic + inner.subscriptions topic
  | .timeout _ _ _ source => source.subscriptions topic

/-- The number of open subscriptions of all streams of a list. -/
def StreamList.subscriptions (topic : Topic) {α : Type} : StreamList α → Nat
  | .nil => 0
  | .cons head tail => head.subscriptions topic + tail.subscriptions topic

end

mutual

/-- The times at which the stream waits for the clock. -/
def Stream.deadlines {α : Type} : Stream α → List Nat
  | .finite _ => []
  | .lasting _ => []
  | .watch _ _ => []
  | .clock _ next => next.toList
  | .scan _ _ source => source.deadlines
  | .dedup _ _ source => source.deadlines
  | .select children _ => children.deadlines
  | .switch _ _ source inner => source.deadlines ++ inner.deadlines
  | .timeout _ _ deadline source => deadline.toList ++ source.deadlines

/-- The times at which the streams of a list wait for the clock. -/
def StreamList.deadlines {α : Type} : StreamList α → List Nat
  | .nil => []
  | .cons head tail => head.deadlines ++ tail.deadlines

end

end Verdict
