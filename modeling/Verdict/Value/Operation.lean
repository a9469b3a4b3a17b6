/-
The operators of expressions on evaluated operands.

Failures come through, the left one first, and undefined operands make the
result undefined; only equality is defined on them.

* `Value.binary`: an operator with two operands, both strict.
* `Value.unary`: an operator with one operand.
* `Decimal.calculate`: the arithmetic operators on decimals.
-/
import Verdict.Policy.Operator
import Verdict.Regex.Reader
import Verdict.Value.Basic

namespace Verdict

/-- An arithmetic operator on decimals. -/
def Decimal.calculate (op : BinaryOperator) (a b : Decimal) : Except EvalError Decimal :=
  let orOverflow : Option Decimal → Except EvalError Decimal
    | some result => .ok result
    | none => .error (.arithmetic (op.symbol ++ " overflow"))
  match op with
  | .add => orOverflow (a.add? b)
  | .sub => orOverflow (a.sub? b)
  | .mul => orOverflow (a.mul? b)
  | .div => if b.isZero then .error (.arithmetic "division by zero") else orOverflow (a.div? b)
  | .mod => if b.isZero then .error (.arithmetic "remainder by zero") else orOverflow (a.rem? b)
  | _ => .error (.typeMismatch ("'" ++ op.symbol ++ "' is not an arithmetic operator"))

/-- The decimal of a number, or the failure of a number out of range. -/
def Number.toDecimal (n : Number) : Except EvalError Decimal :=
  match n.toDecimal? with
  | some a => .ok a
  | none => .error (.arithmetic ("number " ++ n.text ++ " out of range"))

/-- The number of a decimal, or the failure of a decimal that no number represents. -/
def Number.ofDecimal (a : Decimal) : Except EvalError Number :=
  match Number.ofDecimal? a with
  | some n => .ok n
  | none => .error (.arithmetic (a.text ++ " cannot be represented as JSON"))

namespace Value

/-- The failure of an operator on operands of kinds that it does not take. -/
def pairMismatch (op : BinaryOperator) (left right : Json) : Value :=
  mismatch ("'" ++ op.symbol ++ "' cannot be applied to " ++ left.kind ++ " and " ++ right.kind)

/-- An arithmetic operator on two numbers. -/
def arithmetic (op : BinaryOperator) (a b : Number) : Value :=
  ofExcept do
    let a ← a.toDecimal
    let b ← b.toDecimal
    return .number (← Number.ofDecimal (← a.calculate op b))

/-- The order of two values: numbers by decimal value, strings by their
characters.  Other pairs have none. -/
def order? : Json → Json → Option Ordering
  | .number a, .number b => a.order? b
  | .string a, .string b => some (if a < b then .lt else if a = b then .eq else .gt)
  | _, _ => none

/-- A comparison, given what it says of the order of its operands. -/
def comparison (op : BinaryOperator) (holds : Ordering → Bool) (left right : Json) : Value :=
  match order? left right with
  | some o => ofBool (holds o)
  | none => pairMismatch op left right

/-- A boolean operator with both operands strict. -/
def boolean (op : BinaryOperator) (f : Bool → Bool → Bool) (left right : Json) : Value :=
  match left, right with
  | .bool a, .bool b => ofBool (f a b)
  | _, _ => pairMismatch op left right

/-- Whether a text as a whole matches a pattern. -/
def regexMatch (text pattern : String) : Value :=
  match Regex.whole? pattern with
  | some r => ofBool (r.occursIn text)
  | none => mismatch ("invalid regular expression '" ++ pattern ++ "'")

/-- An operator other than equality on defined operands. -/
def binaryDefined (op : BinaryOperator) (left right : Json) : Value :=
  match op with
  | .and => boolean op and left right
  | .or => boolean op or left right
  | .xor => boolean op xor left right
  | .lt => comparison op (· == .lt) left right
  | .le => comparison op (· != .gt) left right
  | .gt => comparison op (· == .gt) left right
  | .ge => comparison op (· != .lt) left right
  | .regex =>
    match left, right with
    | .string text, .string pattern => regexMatch text pattern
    | _, _ => pairMismatch op left right
  | .isIn =>
    match right with
    | .array items => ofBool (items.any left.equalByValue)
    | _ => mismatch ("'in' expects an array on the right, got " ++ right.kind)
  | .add =>
    match left, right with
    | .number a, .number b => arithmetic op a b
    | .string s, _ => .defined (.string (s ++ right.render))
    | _, .string s => .defined (.string (left.render ++ s))
    | _, _ => pairMismatch op left right
  | .sub | .mul | .div | .mod =>
    match left, right with
    | .number a, .number b => arithmetic op a b
    | _, _ => pairMismatch op left right
  | .eq => ofBool (left.equalByValue right)
  | .ne => ofBool !(left.equalByValue right)

/-- A binary operator, both operands strict. -/
def binary (op : BinaryOperator) (left right : Value) : Value :=
  match op with
  | .eq => equals left right
  | .ne => differs left right
  | _ =>
    match left, right with
    | .error cause, _ => .error cause
    | _, .error cause => .error cause
    | .undefined, _ => .undefined
    | _, .undefined => .undefined
    | .defined l, .defined r => binaryDefined op l r

/-- A unary operator. -/
def unary (op : UnaryOperator) : Value → Value
  | .defined json =>
    match op, json with
    | .not, .bool b => ofBool !b
    | .neg, .number n =>
      ofExcept do return .number (← Number.ofDecimal (← n.toDecimal).neg)
    | .not, json => mismatch ("'!' expects a boolean, got " ++ json.kind)
    | .neg, json => mismatch ("'-' expects a number, got " ++ json.kind)
  | other => other

end Value
end Verdict
