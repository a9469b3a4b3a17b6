/-
What becomes of the values of the parts of an expression.

Here nothing is live: these are the functions that evaluation applies to the
latest values of the parts.

* `Value.ofItems`, `Value.ofMembers`, `Value.filled`: arrays and objects.
* `FunctionRegistry.apply`: a call, unless an argument failed.
* `BinaryOperator.decidedBy?`, `Value.lazyOperand`: the operators that may not
  need their right operand.
* `Resolution`: a selection or a failure.
* `Resolved.stepBy`, `Resolved.candidates`, `Resolved.keep`: the steps that
  evaluate an expression.
-/
import Verdict.Function.Registry
import Verdict.Selection.Structural
import Verdict.Value.Operation

namespace Verdict

namespace Value

/-- An array of values; undefined ones are left out. -/
def ofItems (values : List Value) : Value :=
  match firstError? values with
  | some cause => .error cause
  | none => .defined (.array (values.filterMap json?))

/-- An object of values under keys; undefined ones are left out, and a key that
comes again has its last value. -/
def ofMembers (keys : List String) (values : List Value) : Value :=
  match firstError? values with
  | some cause => .error cause
  | none =>
    .defined (.object (Json.distinctMembers ((keys.zip values).filterMap fun (key, value) =>
      value.json?.map (key, ·))))

/-- The array that a template has filled; every element must be defined. -/
def filled (values : List Value) : Value :=
  let elements : Except EvalError (List Json) := values.mapM fun
    | .defined json => .ok json
    | .error cause => .error cause
    | .undefined => .error (.undefinedOperand "sub-template produced an undefined element")
  ofExcept (elements.map .array)

/-- The failure of an operand that is no boolean. -/
def operandMismatch (op : BinaryOperator) (operand : Value) : Value :=
  mismatch ("'" ++ op.symbol ++ "' expects boolean operands, got " ++ operand.kind)

/-- The right operand as the result of a lazy operator. -/
def lazyOperand (op : BinaryOperator) : Value → Value
  | .defined (.bool b) => ofBool b
  | .undefined => .undefined
  | .error cause => .error cause
  | other => operandMismatch op other

end Value

/-- A call of a function, unless an argument failed. -/
def FunctionRegistry.apply (functions : FunctionRegistry) (name : String)
    (arguments : List Value) : Value :=
  match Value.firstError? arguments with
  | some cause => .error cause
  | none => functions.call name arguments

/-- The left operand that decides a lazy operator; none for a strict one. -/
def BinaryOperator.decidedBy? : BinaryOperator → Option Bool
  | .or => some true
  | .and => some false
  | _ => none

/-! ### Selections -/

/-- The outcome of a chain of steps, or why there is none. -/
abbrev Resolution : Type := Except EvalError Resolved

namespace Resolution

/-- The start of a chain of steps. -/
def start : Value → Resolution
  | .error cause => .error cause
  | value => .ok (Resolved.ofValue value)

/-- The selected value. -/
def value : Resolution → Value
  | .ok r => r.value
  | .error cause => .error cause

end Resolution

namespace Resolved

/-- The step by a computed key: a string selects a member, an integer an
element, and undefined nothing. -/
def stepBy (r : Resolved) : Value → Resolution
  | .error cause => .error cause
  | .undefined => .ok (r.select .nothing)
  | .defined (.string name) => r.step (.key name)
  | .defined (.number n) =>
    match n.toSigned? with
    | some position => r.step (.index position)
    | none => .error (.typeMismatch ("computed index " ++ n.text ++ " is not an integer"))
  | .defined other =>
    .error (.typeMismatch ("computed step must be a string or integer, got " ++ other.kind))

/-- The nodes among which a condition selects. -/
def candidates (r : Resolved) : Except EvalError (List Selected) :=
  match r.selection with
  | .nothing => .ok []
  | .single s =>
    if r.arena.isArray s.node || r.arena.isObject s.node then .ok (r.arena.children s.node)
    else .error (stepMismatch "condition" r.arena s.node)
  | .multiple items => .ok items

/-- The candidates for which a condition holds. -/
def kept : List Selected → List Value → Except EvalError (List Selected)
  | candidate :: candidates, check :: checks =>
    match check with
    | .error cause => .error cause
    | .undefined | .defined (.bool false) => kept candidates checks
    | .defined (.bool true) => (candidate :: ·) <$> kept candidates checks
    | other => .error (.typeMismatch ("condition step expects a boolean, got " ++ other.kind))
  | _, _ => .ok []

/-- The fan-out of the candidates for which a condition holds. -/
def keep (r : Resolved) (candidates : List Selected) (checks : List Value) : Resolution :=
  (fun items => r.select (.multiple items)) <$> kept candidates checks

end Resolved
end Verdict
