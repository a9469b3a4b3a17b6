/-
Decimal numbers of bounded precision.

A decimal is an integer coefficient of at most 96 bits over a power of ten of
at most 28.  Sums, products and quotients are computed exactly and then kept at
the largest scale that fits, rounding half to even; a result that does not even
fit as an integer is refused.

* `Decimal`: the numbers.
* `Decimal.fit?`: the decimal nearest to a rational at the largest scale that fits.
* `Decimal.add?`, `sub?`, `mul?`, `div?`, `rem?`, `neg`: arithmetic.
* `Decimal.order`: the order of the denoted rationals.
* `Decimal.toBinary64?`, `Decimal.text`: the nearest double and the plain text.
-/
import Verdict.Number.Shortest

namespace Verdict

/-- The decimal `coefficient / 10 ^ scale`. -/
structure Decimal where
  coefficient : Int
  scale : Nat
  coefficient_lt : coefficient.natAbs < Nat.pow 2 96
  scale_le : scale ≤ 28
  deriving DecidableEq, Repr

/-- The integer nearest to `n / d`, a tie to the even neighbour. -/
def intDivToEven (n : Int) (d : Nat) : Int := n.sign * divToEven n.natAbs d

namespace Decimal

/-- Zero. -/
def zero : Decimal := ⟨0, 0, by decide, by decide⟩

instance : Inhabited Decimal := ⟨zero⟩

/-- The decimal nearest to `n / d` at the largest scale up to `scale` at which
the coefficient fits, a tie to the even coefficient; `none` if not even an
integer fits. -/
def fit? (n : Int) (d : Nat) : (scale : Nat) → scale ≤ 28 → Option Decimal
  | 0, hs =>
    if h : (intDivToEven n d).natAbs < Nat.pow 2 96 then some ⟨intDivToEven n d, 0, h, hs⟩
    else none
  | s + 1, hs =>
    if h : (intDivToEven (n * Nat.pow 10 (s + 1)) d).natAbs < Nat.pow 2 96 then
      some ⟨intDivToEven (n * Nat.pow 10 (s + 1)) d, s + 1, h, hs⟩
    else fit? n d s (Nat.le_of_succ_le hs)

/-- An integer as a decimal, if it fits. -/
def ofInt? (n : Int) : Option Decimal := fit? n 1 0 (by decide)

/-- Whether the value is zero. -/
def isZero (a : Decimal) : Bool := a.coefficient == 0

/-- The exact sum, rounded only where it does not fit. -/
def add? (a b : Decimal) : Option Decimal :=
  fit? (a.coefficient * Nat.pow 10 b.scale + b.coefficient * Nat.pow 10 a.scale)
    (Nat.pow 10 (a.scale + b.scale)) (max a.scale b.scale)
    (Nat.max_le.2 ⟨a.scale_le, b.scale_le⟩)

/-- The negated value. -/
def neg (a : Decimal) : Decimal :=
  ⟨-a.coefficient, a.scale, by rw [Int.natAbs_neg]; exact a.coefficient_lt, a.scale_le⟩

/-- The exact difference, rounded only where it does not fit. -/
def sub? (a b : Decimal) : Option Decimal := a.add? b.neg

/-- The exact product, rounded only where it does not fit. -/
def mul? (a b : Decimal) : Option Decimal :=
  fit? (a.coefficient * b.coefficient) (Nat.pow 10 (a.scale + b.scale))
    (min (a.scale + b.scale) 28) (Nat.min_le_right _ _)

/-- The value rounded to at most `places` decimals, a tie to the even neighbour. -/
def roundTo? (a : Decimal) (places : Nat) (h : places ≤ 28) : Option Decimal :=
  if a.scale ≤ places then some a else fit? a.coefficient (Nat.pow 10 a.scale) places h

/-- The quotient, first at the largest scale that fits and then rounded to
twenty decimals.  The divisor is not zero. -/
def div? (a b : Decimal) : Option Decimal := do
  let quotient ← fit? (b.coefficient.sign * a.coefficient * Nat.pow 10 b.scale)
    (b.coefficient.natAbs * Nat.pow 10 a.scale) 28 (by decide)
  quotient.roundTo? 20 (by decide)

/-- The remainder of the division that truncates toward zero; it has the sign
of the dividend.  The divisor is not zero. -/
def rem? (a b : Decimal) : Option Decimal :=
  fit? (Int.tmod (a.coefficient * Nat.pow 10 b.scale) (b.coefficient * Nat.pow 10 a.scale))
    (Nat.pow 10 (a.scale + b.scale)) (max a.scale b.scale)
    (Nat.max_le.2 ⟨a.scale_le, b.scale_le⟩)

/-- The order of the values. -/
def order (a b : Decimal) : Ordering :=
  compare (a.coefficient * Nat.pow 10 b.scale) (b.coefficient * Nat.pow 10 a.scale)

/-- Coefficient and scale without trailing zeros in the fraction. -/
def trim (coefficient : Int) : Nat → Int × Nat
  | 0 => (coefficient, 0)
  | s + 1 => if coefficient % 10 = 0 then trim (coefficient / 10) s else (coefficient, s + 1)

/-- Coefficient and scale of the value in lowest terms. -/
def lowest (a : Decimal) : Int × Nat := trim a.coefficient a.scale

/-- The double of the value: the integral part plus the fraction as a quotient
of doubles, and the sum rounded once more at the scale of the decimal. -/
def toBinary64? (a : Decimal) : Option Binary64 := do
  let (coefficient, scale) := a.lowest
  let negative := decide (coefficient < 0)
  let m := coefficient.natAbs
  if scale = 0 then Binary64.ofRatio? negative m 1
  else
    let power ← Binary64.ofRatio? false (Nat.pow 10 scale) 1
    let whole ← Binary64.ofRatio? false (m / Nat.pow 10 scale) 1
    let rest ← Binary64.ofRatio? false (m % Nat.pow 10 scale) 1
    let (pn, pd) := power.ratio
    let fraction ← Binary64.ofRatio? false (rest.ratio.1 * pd) (rest.ratio.2 * pn)
    let sum ← Binary64.ofRatio? false
      (whole.ratio.1 * fraction.ratio.2 + fraction.ratio.1 * whole.ratio.2)
      (whole.ratio.2 * fraction.ratio.2)
    let scaled ← Binary64.ofRatio? false (sum.ratio.1 * pn) (sum.ratio.2 * pd)
    let rounded ← Binary64.ofRatio? false scaled.roundedHalfUp 1
    Binary64.ofRatio? negative (rounded.ratio.1 * pd) (rounded.ratio.2 * pn)

/-- The value in plain positional digits, without trailing zeros. -/
def text (a : Decimal) : String :=
  let (coefficient, scale) := a.lowest
  let digits := Nat.toDigits 10 coefficient.natAbs
  let digits := List.replicate (scale + 1 - digits.length) '0' ++ digits
  let whole := digits.take (digits.length - scale)
  let fraction := digits.drop (digits.length - scale)
  (if coefficient < 0 then "-" else "") ++ String.ofList whole ++
    (if fraction.isEmpty then "" else "." ++ String.ofList fraction)

end Decimal
end Verdict
