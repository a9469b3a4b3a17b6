/-
Functions by name.

* `FunctionRegistry`: the functions that expressions and filters may call.
* `FunctionRegistry.register`: adds a function or replaces the one of its name.
* `FunctionRegistry.call`: the value of a call; an unknown name is a failure.
* `FunctionRegistry.names`: the registered names in order.
-/
import Verdict.Value.Basic

namespace Verdict

/-- A function of evaluated arguments. -/
abbrev Function : Type := List Value → Value

/-- Functions by their full names. -/
structure FunctionRegistry where
  functions : List (String × Function)

namespace FunctionRegistry

/-- No functions. -/
def empty : FunctionRegistry := ⟨[]⟩

/-- Adds a function, in place of an earlier one of the same name. -/
def register (registry : FunctionRegistry) (name : String) (f : Function) : FunctionRegistry :=
  ⟨(name, f) :: registry.functions.filter fun (n, _) => n != name⟩

/-- Whether a function of this name is registered. -/
def provides (registry : FunctionRegistry) (name : String) : Bool :=
  (registry.functions.lookup name).isSome

/-- The registered names in ascending order. -/
def names (registry : FunctionRegistry) : List String :=
  (registry.functions.map Prod.fst).mergeSort fun a b => decide (a ≤ b)

/-- The value of a call. -/
def call (registry : FunctionRegistry) (name : String) (arguments : List Value) : Value :=
  match registry.functions.lookup name with
  | some f => f arguments
  | none => .error (.unresolved .function name)

end FunctionRegistry
end Verdict
