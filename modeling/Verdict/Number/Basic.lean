/-
The numbers of JSON documents: integers and doubles, kept apart.

`1` and `1.0` are different numbers that denote the same decimal.  Arithmetic
and order go through `Decimal`; a double is taken at the value of its text.

* `Number`, `Number.same`: the numbers and their structural equality.
* `Number.text`: integers plainly, doubles by their shortest decimal.
* `Number.toDecimal?`, `Number.ofDecimal?`: to and from decimals.
* `Number.equalByValue`, `Number.order?`: comparison by decimal value.
-/
import Verdict.Number.Decimal

namespace Verdict

/-- A number as written in a document: without a fraction or an exponent it is
an integer, otherwise a double. -/
inductive Number where
  | integer (value : Int)
  | real (value : Binary64)
  deriving DecidableEq, Repr

namespace Number

instance : Inhabited Number := ⟨.integer 0⟩

/-- Structural equality: an integer never equals a double, and the two zeros of
the doubles are the same. -/
def same : Number → Number → Bool
  | .integer a, .integer b => a == b
  | .real x, .real y => x.sameValue y
  | _, _ => false

/-- The least and the greatest integers of 64 bits, signed and unsigned. -/
def leastInteger : Int := -9223372036854775808
def greatestSigned : Int := 9223372036854775807
def greatestUnsigned : Int := 18446744073709551615

/-- The value as a signed 64-bit integer; doubles are never integers. -/
def toSigned? : Number → Option Int
  | .integer n => if leastInteger ≤ n ∧ n ≤ greatestSigned then some n else none
  | .real _ => none

/-- The value as an unsigned 64-bit integer; doubles are never integers. -/
def toUnsigned? : Number → Option Nat
  | .integer n => if 0 ≤ n ∧ n ≤ greatestUnsigned then some n.toNat else none
  | .real _ => none

/-- The nearest double. -/
def toBinary64? : Number → Option Binary64
  | .integer n => Binary64.ofInt? n
  | .real x => some x

/-! ### Text -/

/-- Doubles whose leading digit stands at one of these powers of ten are
written positionally. -/
def leastPositional : Int := -5
def greatestPositional : Int := 15

/-- Digits with the point after the power of ten `order` of the first digit. -/
def positional (digits : List Char) (order : Int) : List Char :=
  if order < 0 then
    '0' :: '.' :: (List.replicate (-order - 1).toNat '0' ++ digits)
  else
    let whole := digits.take (order + 1).toNat
    let fraction := digits.drop (order + 1).toNat
    whole ++ List.replicate ((order + 1).toNat - whole.length) '0' ++
      '.' :: (if fraction.isEmpty then ['0'] else fraction)

/-- One digit before the point, the rest behind it, and the signed power of ten. -/
def scientific (digits : List Char) (order : Int) : List Char :=
  let mantissa := match digits with
    | d :: e :: rest => d :: '.' :: e :: rest
    | short => short
  mantissa ++ 'e' :: (if order < 0 then '-' else '+') :: Nat.toDigits 10 order.natAbs

/-- The shortest decimal of a double, positional for moderate sizes. -/
def realText (x : Binary64) : String :=
  let (value, exponent) := x.shortest
  let digits := Nat.toDigits 10 value
  let order := exponent + digits.length - 1
  let body := if leastPositional ≤ order ∧ order ≤ greatestPositional
    then positional digits order else scientific digits order
  String.ofList (if x.negative then '-' :: body else body)

/-- The text of a number. -/
def text : Number → String
  | .integer n => toString n
  | .real x => realText x

/-! ### Decimal value -/

/-- The decimal a double stands for: the value of its shortest text.  Beyond 28
decimals a half is rounded away from zero; leading digits beyond the power of
28 on either side, and values of more than 96 bits, are out of range. -/
def realToDecimal? (x : Binary64) : Option Decimal :=
  let (digits, exponent) := x.shortest
  let order := exponent + (Nat.toDigits 10 digits).length - 1
  if order < -28 ∨ 28 < order then none else
  let scale := min 28 (-exponent).toNat
  let magnitude :=
    divHalfUp (digits * Nat.pow 10 (scale + exponent.toNat)) (Nat.pow 10 (-exponent).toNat)
  let coefficient : Int := if x.negative then -magnitude else magnitude
  if h : coefficient.natAbs < Nat.pow 2 96 then
    some ⟨coefficient, scale, h, Nat.min_le_left _ _⟩
  else none

/-- The decimal a number stands for, if it is in range. -/
def toDecimal? : Number → Option Decimal
  | .integer n => Decimal.ofInt? n
  | .real x => realToDecimal? x

/-- The number of a decimal: a whole value of 64 bits with sign stays an
integer, everything else becomes a double. -/
def ofDecimal? (a : Decimal) : Option Number :=
  let (coefficient, scale) := a.lowest
  if scale = 0 ∧ leastInteger ≤ coefficient ∧ coefficient ≤ greatestSigned then
    some (.integer coefficient)
  else a.toBinary64?.map .real

/-- Equality by decimal value; where one of the numbers is out of the range of
decimals, equality of the nearest doubles. -/
def equalByValue (a b : Number) : Bool :=
  match a.toDecimal?, b.toDecimal? with
  | some x, some y => x.order y == .eq
  | _, _ =>
    match a.toBinary64?, b.toBinary64? with
    | some x, some y => x.sameValue y
    | _, _ => false

/-- The order of the decimal values, if both numbers are in range. -/
def order? (a b : Number) : Option Ordering := do
  return (← a.toDecimal?).order (← b.toDecimal?)

end Number
end Verdict
