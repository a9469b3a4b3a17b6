/-
The failures that evaluation can meet.

A failure is carried as a value and only becomes an INDETERMINATE decision at
the boundary of a policy.

* `ReferenceKind`: what kind of name did not resolve.
* `EvalError`: the failures, one constructor for each cause that a decision
  log tells apart.
* `EvalError.message`: their wording.
-/

namespace Verdict

/-- What kind of name did not resolve. -/
inductive ReferenceKind where
  | function
  | attribute
  deriving DecidableEq, Repr

/-- The word for the kind of name. -/
def ReferenceKind.label : ReferenceKind → String
  | .function => "function"
  | .attribute => "attribute"

/-- A failure of an evaluation. -/
inductive EvalError where
  /-- An operator or step applied to a value of the wrong shape. -/
  | typeMismatch (explanation : String)
  /-- An operator that has no result for an undefined operand. -/
  | undefinedOperand (explanation : String)
  /-- A function or attribute finder that nobody registered. -/
  | unresolved (kind : ReferenceKind) (name : String)
  /-- A filter whose target is missing or not of the shape it needs. -/
  | filterTarget (explanation : String)
  /-- More than one contributing decision supplies a transformation. -/
  | transformationConflict (count : Nat)
  /-- More than one decision is applicable where one is allowed. -/
  | ambiguousPolicySet (applicable : Nat)
  /-- An index outside the bounds of an array. -/
  | indexOutOfRange (index : Int) (length : Nat)
  /-- Overflow, division by zero, or a result that no document can hold. -/
  | arithmetic (explanation : String)
  /-- An attribute finder step in a target expression. -/
  | attributeInTarget (name : String)
  /-- An attribute finder that stayed silent up to its deadline. -/
  | attributeTimeout (name : String) (millis : Nat)
  deriving DecidableEq, Repr

namespace EvalError

instance : Inhabited EvalError := ⟨.typeMismatch ""⟩

/-- The wording of a failure. -/
def message : EvalError → String
  | typeMismatch explanation => "type mismatch: " ++ explanation
  | undefinedOperand explanation => "undefined operand: " ++ explanation
  | unresolved kind name => "unresolved " ++ kind.label ++ " '" ++ name ++ "'"
  | filterTarget explanation => "filter target error: " ++ explanation
  | transformationConflict count =>
    "transformation conflict: " ++ toString count ++ " policies supply a transformation"
  | ambiguousPolicySet applicable =>
    "ambiguous policy set: " ++ toString applicable ++ " applicable decisions"
  | indexOutOfRange index length =>
    "index " ++ toString index ++ " out of range for array of length " ++ toString length
  | arithmetic explanation => "arithmetic error: " ++ explanation
  | attributeInTarget name =>
    "attribute finder '" ++ name ++ "' is not allowed in a target expression"
  | attributeTimeout name millis =>
    "attribute finder '" ++ name ++ "' produced no value within " ++ toString millis ++ " ms"

end EvalError
end Verdict
