/-
Attribute finders: where the live values of attributes come from.

* `Finder`: the kinds of finders.
* `Finder.find`: the values for a left-hand value and arguments.
* `FinderRegistry.subscribe`: the values of an attribute by its name, with a
  deadline for the first one if there is one.
-/
import Verdict.Attribute.Timestamp
import Verdict.Stream.Basic

namespace Verdict

/-- The values of the variables in scope, by name. -/
abbrev Bindings : Type := List (String × Value)

/-- A source of the live values of an attribute. -/
inductive Finder where
  /-- Values that depend on the left-hand value, the arguments and the variables
  alone; silence follows them. -/
  | computed (values : Value → List Value → Bindings → List Value)
  /-- The value that is published under the name of the attribute. -/
  | watched
  /-- The time, at an interval in milliseconds that is the first argument. -/
  | clock

/-- The interval of a clock without arguments. -/
def defaultInterval : Nat := 1000

namespace Finder

/-- The finder of some fixed values. -/
def fixed (values : List Value) : Finder := .computed fun _ _ _ => values

/-- The interval that the arguments of a clock ask for. -/
def interval (arguments : List Value) : Except EvalError Nat :=
  match arguments with
  | [] => .ok defaultInterval
  | first :: _ =>
    match first.json?.bind Json.toUnsigned? with
    | some (millis + 1) => .ok (millis + 1)
    | _ => .error (.typeMismatch
        ("time.now expects a positive interval in milliseconds, got " ++ first.kind))

/-- The text of the time, at every tick. -/
def ticks (period : Nat) : Stream Value :=
  .map (fun millis => .defined (.string (timestampText millis))) (.clock period none)

/-- The values of an attribute of this name. -/
def find (finder : Finder) (name : String) (left : Value) (arguments : List Value)
    (bindings : Bindings) : Stream Value :=
  match finder with
  | computed values => .lasting (values left arguments bindings)
  | watched => .watch (.ofAttribute name) none
  | clock =>
    match interval arguments with
    | .ok period => ticks period
    | .error cause => .just (.error cause)

end Finder

/-- Finders by the names of their attributes. -/
structure FinderRegistry where
  finders : List (String × Finder) := []

namespace FinderRegistry

/-- The values of an attribute.  Silence up to the deadline is a failure, which
the values still follow. -/
def subscribe (registry : FinderRegistry) (name : String) (left : Value)
    (arguments : List Value) (bindings : Bindings) (deadline : Option Nat) : Stream Value :=
  match registry.finders.lookup name with
  | none => .just (.error (.unresolved .attribute name))
  | some finder =>
    let values := finder.find name left arguments bindings
    match deadline with
    | some millis => .timeout millis (.error (.attributeTimeout name millis)) none values
    | none => values

end FinderRegistry
end Verdict
