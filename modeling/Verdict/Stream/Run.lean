/-
Running streams.

While the world does not change a stream delivers finitely many items and then
either waits or ends.  That is its run; it keeps the stream as it stands after
each item, so that a reader may stop anywhere.

* `Run`: the items, the stream after each of them, and how it goes on.
* `Stream.run`: the run of a stream in a world.
* `Child.schedule`: the order in which the children of a selection are asked.
* `Run.toList`, `Run.take`: the items, and the first ones with what is left.
-/
import Verdict.Stream.Basic

namespace Verdict

/-- What a stream does while the world does not change. -/
inductive Run (α : Type) : Type 1 where
  /-- Nothing more, for now. -/
  | pending (rest : Stream α)
  /-- Nothing more, ever. -/
  | ended
  /-- An item, the stream behind it, and what it does next. -/
  | item (value : α) (rest : Stream α) (more : Run α)

namespace Run

variable {σ α β : Type}

/-- The number of items. -/
def length : Run α → Nat
  | pending _ => 0
  | ended => 0
  | item _ _ more => more.length + 1

/-- The items. -/
def toList : Run α → List α
  | pending _ => []
  | ended => []
  | item a _ more => a :: more.toList

/-- The stream behind the last item; none if it has ended. -/
def final : Run α → Option (Stream α)
  | pending rest => some rest
  | ended => none
  | item _ _ more => more.final

/-- The first items, at most `count`, and the stream behind them; `start` is the
stream before the run. -/
def take (start : Stream α) : Nat → Run α → List α × Option (Stream α)
  | 0, _ => ([], some start)
  | _ + 1, pending rest => ([], some rest)
  | _ + 1, ended => ([], none)
  | count + 1, item a rest more =>
    let (items, left) := more.take rest count
    (a :: items, left)

/-! ### Sources -/

/-- The items of a list, and then the end. -/
def ofFinite : List α → Run α
  | [] => ended
  | a :: rest => item a (.finite rest) (ofFinite rest)

/-- The items of a list, and then silence. -/
def ofLasting : List α → Run α
  | [] => pending (.lasting [])
  | a :: rest => item a (.lasting rest) (ofLasting rest)

/-- The published value if it has not been seen.  Behind the last value of a
topic that is closed the stream ends. -/
def ofPublished (topic : Topic) (p : Published topic.Content) (seen : Option Nat) :
    Run topic.Content :=
  let after : Run topic.Content :=
    if p.closed then ended else pending (.watch topic (some p.version))
  if seen = some p.version then after
  else item p.value (.watch topic (some p.version)) after

/-- The given number of ticks, the first one at `next`. -/
def ofTicks (period : Nat) : Nat → Nat → Run Nat
  | 0, next => pending (.clock period (some next))
  | count + 1, next =>
    item next (.clock period (some (next + period))) (ofTicks period count (next + period))

/-- The ticks that are due: the first one at once, then one for each period. -/
def ofClock (now period : Nat) (next : Option Nat) : Run Nat :=
  let next := next.getD now
  if now < next then pending (.clock period (some next))
  else ofTicks period ((now - next) / period + 1) next

/-! ### Combinators -/

/-- The items passed through the state of a stage. -/
def through (stage : σ → Stream α → Stream β) (step : σ → α → σ × Option β) (state : σ) :
    Run α → Run β
  | pending rest => pending (stage state rest)
  | ended => ended
  | item a rest more =>
    match step state a with
    | (state, some b) => item b (stage state rest) (more.through stage step state)
    | (state, none) => more.through stage step state

/-- The last item, or the given one if there is none. -/
def last? (before : Option α) : Run α → Option α
  | pending _ => before
  | ended => before
  | item a _ more => more.last? (some a)

/-- The run of an inner stream below a source that stands at `source`. -/
def switched (bounded : Bool) (project : α → Stream β) (source : Stream α) : Run β → Run β
  | pending inner => pending (.switch bounded project source inner)
  | ended =>
    if source.isEnded then ended else pending (.switch bounded project source Stream.ended)
  | item b inner more =>
    item b (.switch bounded project source inner) (more.switched bounded project source)

/-- The run of a source that is waited for until `deadline`. -/
def timed (now millis deadline : Nat) (late : α) : Run α → Run α
  | pending rest =>
    if deadline ≤ now then item late rest (pending rest)
    else pending (.timeout millis late (some deadline) rest)
  | other => other

end Run

/-! ### The children of a selection -/

/-- The state of a child during a run of a selection. -/
inductive Child (α : Type) : Type 1 where
  | gone
  /-- A child that is not asked. -/
  | idle (stream : Stream α)
  /-- A child that is asked: as it stands, and what it does next. -/
  | ready (stream : Stream α) (next : Run α)

namespace Child

variable {α : Type}

/-- The child as it stands. -/
def stream : Child α → Stream α
  | gone => Stream.ended
  | idle s => s
  | ready s _ => s

/-- Whether the child has ended. -/
def isGone : Child α → Bool
  | gone => true
  | _ => false

/-- The number of items that the child is still going to deliver. -/
def work : Child α → Nat
  | gone => 0
  | idle _ => 0
  | ready _ r => r.length

/-- The children as they stand. -/
def streams (children : List (Child α)) : StreamList α := StreamList.ofList (children.map stream)

/-- The number of items that all children are still going to deliver. -/
def total : List (Child α) → Nat
  | [] => 0
  | child :: rest => child.work + total rest

/-- Replacing a child changes the total by the difference of its work. -/
theorem total_set {children : List (Child α)} {i : Nat} {old : Child α}
    (h : children[i]? = some old) (new : Child α) :
    total (children.set i new) + old.work = total children + new.work := by
  induction children generalizing i with
  | nil => simp at h
  | cons s rest ih =>
    cases i with
    | zero =>
      simp only [List.getElem?_cons_zero, Option.some.injEq] at h
      subst h
      simp only [total, List.set_cons_zero]
      omega
    | succ i =>
      have := ih (i := i) (by simpa using h)
      simp only [total, List.set_cons_succ]
      omega

/-- The run of a selection: the child at the front of the queue is asked; one
that delivers goes to the end of the queue, one that has nothing leaves it. -/
def schedule (children : List (Child α)) (queue : List Nat) : Run (Nat × α) :=
  match queue with
  | [] => if children.all isGone then .ended else .pending (.select (streams children) [])
  | i :: rest =>
    match h : children[i]? with
    | some (.ready _ (.item a s more)) =>
      have : total (children.set i (.ready s more)) + 1 = total children := by
        have := total_set h (.ready s more)
        simp only [work, Run.length] at this
        omega
      .item (i, a) (.select (streams (children.set i (.ready s more))) (rest ++ [i]))
        (schedule (children.set i (.ready s more)) (rest ++ [i]))
    | some (.ready s (.pending s')) =>
      have : total (children.set i (.idle s')) = total children := by
        have := total_set h (.idle s')
        simpa [work, Run.length] using this
      schedule (children.set i (.idle s')) rest
    | some (.ready s .ended) =>
      have : total (children.set i .gone) = total children := by
        have := total_set h .gone
        simpa [work, Run.length] using this
      schedule (children.set i .gone) rest
    | _ => schedule children rest
  termination_by total children + queue.length
  decreasing_by all_goals simp_all; try omega

end Child

/-! ### Running -/

/-- The step that holds back an item that is the same as the one delivered before
it, `last`. -/
def distinctStep {α : Type} (same : α → α → Bool) (last : Option α) (a : α) :
    Option α × Option α :=
  if last.any (same · a) then (last, none) else (some a, some a)

mutual

/-- What a stream does in a world. -/
def Stream.run (w : World) {α : Type} : Stream α → Run α
  | .finite items => .ofFinite items
  | .lasting items => .ofLasting items
  | .watch topic seen => .ofPublished topic (w.read topic) seen
  | .clock period next => .ofClock w.time period next
  | .scan step state source => (source.run w).through (.scan step) step state
  | .dedup same last source => (source.run w).through (.dedup same) (distinctStep same) last
  | .select children queue => Child.schedule (children.runs w queue 0) queue
  | .switch bounded project source inner =>
    let r := source.run w
    let rest := r.final.getD Stream.ended
    if bounded && r.final.isNone then .ended
    else
      match r.last? none with
      | some a => ((project a).run w).switched bounded project rest
      | none => (inner.run w).switched bounded project rest
  | .timeout millis late deadline source =>
    (source.run w).timed w.time millis (deadline.getD (w.time + millis)) late

/-- The children of a selection, the ones in the queue with their runs. -/
def StreamList.runs (w : World) {α : Type} (queue : List Nat) (index : Nat) :
    StreamList α → List (Child α)
  | .nil => []
  | .cons head tail =>
    (if head.isEnded then .gone
      else if index ∈ queue then .ready head (head.run w)
      else .idle head) :: tail.runs w queue (index + 1)

end

end Verdict
