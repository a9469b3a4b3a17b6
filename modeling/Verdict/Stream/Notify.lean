/-
Telling streams that the world has changed.

A change wakes the sources that wait for it, and a source that wakes puts every
enclosing child of a selection at the end of its queue, unless it stands there
already.

* `Event`: the changes of the world that streams wait for.
* `Stream.notify`: the stream after an event, and whether it woke.
* `Stream.elapse`: the stream after some time has passed.
* `Stream.nextDeadline?`: the next time at which a stream is going to wake.
-/
import Verdict.Stream.Basic

namespace Verdict

/-- A change of the world that streams wait for. -/
inductive Event where
  | published (topic : Topic)
  /-- The time of a deadline has come. -/
  | reached (deadline : Nat)
  deriving DecidableEq, Repr

/-- The queue with the woken children at its end, each once. -/
def enqueue (queue woken : List Nat) : List Nat := queue ++ woken.filter fun i => i ∉ queue

mutual

/-- Whether an event wakes the stream, and the stream after it. -/
def Stream.notify (e : Event) {α : Type} : Stream α → Bool × Stream α
  | .finite items => (false, .finite items)
  | .lasting items => (false, .lasting items)
  | .watch topic seen => (e == .published topic, .watch topic seen)
  | .clock period next => (next.any fun t => e == .reached t, .clock period next)
  | .scan step state source =>
    let (woke, source) := source.notify e
    (woke, .scan step state source)
  | .dedup same last source =>
    let (woke, source) := source.notify e
    (woke, .dedup same last source)
  | .select children queue =>
    let (woken, children) := children.notify e 0
    (!woken.isEmpty, .select children (enqueue queue woken))
  | .switch bounded project source inner =>
    let (woke, source) := source.notify e
    let (woke', inner) := inner.notify e
    (woke || woke', .switch bounded project source inner)
  | .timeout millis late deadline source =>
    let (woke, source) := source.notify e
    (woke || deadline.any fun t => e == .reached t, .timeout millis late deadline source)

/-- The numbers of the children that an event wakes, and the children after it. -/
def StreamList.notify (e : Event) {α : Type} (index : Nat) :
    StreamList α → List Nat × StreamList α
  | .nil => ([], .nil)
  | .cons head tail =>
    let (woke, head) := head.notify e
    let (woken, tail) := tail.notify e (index + 1)
    (if woke then index :: woken else woken, .cons head tail)

end

namespace Stream

variable {α : Type}

/-- The stream after the time has moved on; deadlines wake it in their order. -/
def elapse (before after : Nat) (s : Stream α) : Stream α :=
  let due := s.deadlines.filter fun t => before < t && t ≤ after
  (due.mergeSort fun a b => a ≤ b).eraseDups.foldl (fun s t => (s.notify (.reached t)).2) s

/-- The first deadline after a time. -/
def nextDeadline? (now : Nat) (s : Stream α) : Option Nat :=
  (s.deadlines.filter (now < ·)).min?

end Stream
end Verdict
