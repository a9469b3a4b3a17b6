/-
The values that expressions evaluate to.

A value is a JSON value, undefined (the absence of a value, such as a missing
member), or a failure.

* `Value`: the three states.
* `Value.same`: structural equality, by which repeated values are suppressed.
* `Value.kind`, `Value.shown`: the words for a value in messages.
* `Value.equals`, `Value.differs`: the operators `==` and `!=`.
* `Value.requireBool`: a boolean, or the type mismatch of what is there.
-/
import Verdict.Json.Printer
import Verdict.Value.Error

namespace Verdict

/-- The outcome of evaluating an expression. -/
inductive Value where
  | defined (json : Json)
  | undefined
  | error (cause : EvalError)

namespace Value

instance : Inhabited Value := ⟨.undefined⟩

/-- A boolean value. -/
def ofBool (b : Bool) : Value := .defined (.bool b)

/-- The value of a computation that may fail. -/
def ofExcept : Except EvalError Json → Value
  | .ok json => .defined json
  | .error cause => .error cause

/-- A type mismatch with its explanation, as a value. -/
def mismatch (explanation : String) : Value := .error (.typeMismatch explanation)

/-- The JSON value, if there is one. -/
def json? : Value → Option Json
  | .defined json => some json
  | _ => none

/-- The boolean, if the value is one. -/
def bool? (value : Value) : Option Bool := value.json?.bind Json.toBool?

/-- The failure, if the value is one. -/
def error? : Value → Option EvalError
  | .error cause => some cause
  | _ => none

/-- The name of the kind of a value, as messages spell it. -/
def kind : Value → String
  | .defined json => json.kind
  | .undefined => "undefined"
  | .error _ => "error"

/-- The text by which a value is shown. -/
def shown : Value → String
  | .defined json => json.compact
  | .undefined => "undefined"
  | .error cause => "ERROR[" ++ cause.message ++ "]"

/-- Structural equality. -/
def same : Value → Value → Bool
  | .defined a, .defined b => a.same b
  | .undefined, .undefined => true
  | .error a, .error b => a == b
  | _, _ => false

/-- The operator `==`: failures come through, the left one first; undefined
equals undefined only. -/
def equals : Value → Value → Value
  | .error cause, _ => .error cause
  | _, .error cause => .error cause
  | .undefined, .undefined => ofBool true
  | .undefined, _ => ofBool false
  | _, .undefined => ofBool false
  | .defined a, .defined b => ofBool (a.equalByValue b)

/-- The operator `!=`, the complement of `equals`. -/
def differs (a b : Value) : Value :=
  match equals a b with
  | .defined (.bool b) => ofBool !b
  | other => other

/-- The boolean, or a type mismatch that says who expected one. -/
def requireBool (value : Value) (context : String) : Except EvalError Bool :=
  match value.bool? with
  | some b => .ok b
  | none => .error (.typeMismatch (context ++ " expects a boolean, got " ++ value.kind))

/-- The first failure among values. -/
def firstError? (values : List Value) : Option EvalError := values.findSome? error?

end Value
end Verdict
