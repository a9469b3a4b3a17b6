/-
Arithmetic of integers.

Integers of 64 bits are decimals, and their sums, differences, products, remainders and whole
quotients are computed exactly as long as they have at most 96 bits.  A whole decimal becomes an
integer again if it is a word of 64 bits with sign, and the nearest double otherwise, so nothing
wraps and no integer is the result of a rounding.

* `BinaryOperator.wholeResult?`: the exact result of an operator on integers.
* `Decimal.fit?_of_eq_mul`, `Decimal.lowest_of_whole`: whole decimals are kept.
* `Number.ofWhole?`, `Number.ofDecimal?_of_whole`: the number of a whole decimal.
* `Decimal.calculate_exact`, `Decimal.calculate_overflow`: the operators on whole decimals.
* `Value.integers_never_wrap`: the operators on integers.
-/
import Verdict.Proofs.Number.Decimal

namespace Verdict

/-- The exact result of an arithmetic operator on integers: remainders have the sign of the
dividend, and a quotient is one only if the divisor divides. -/
def BinaryOperator.wholeResult? (a b : ℤ) : BinaryOperator → Option ℤ
  | .add => some (a + b)
  | .sub => some (a - b)
  | .mul => some (a * b)
  | .mod => if b = 0 then none else some (a.tmod b)
  | .div => if b ≠ 0 ∧ b ∣ a then some (a / b) else none
  | _ => none

/-! ### Whole decimals -/

namespace Decimal

/-- A decimal that denotes an integer. -/
def IsWhole (x : Decimal) (e : ℤ) : Prop := x.coefficient = e * 10 ^ x.scale

/-- A whole quotient that fits as an integer is not rounded at any scale. -/
lemma fit?_of_eq_mul {n e : ℤ} {d : ℕ} (hd : 0 < d) (hn : n = e * d) (he : e.natAbs < 2 ^ 96)
    (s : ℕ) (hs : s ≤ 28) : ∃ x, fit? n d s hs = some x ∧ x.IsWhole e := by
  induction s with
  | zero =>
    have hexact : intDivToEven n d = e := by rw [hn, intDivToEven_mul e hd]
    refine ⟨⟨e, 0, he, hs⟩, ?_, (mul_one e).symm⟩
    simp only [fit?, hexact, Nat.pow_eq, dif_pos he]
  | succ s ih =>
    have hexact : intDivToEven (n * Nat.pow 10 (s + 1)) d = e * 10 ^ (s + 1) := by
      rw [hn, mul_right_comm, intDivToEven_mul _ hd]
      push_cast [Nat.pow_eq]
      rfl
    rw [fit?]
    simp only [hexact]
    split_ifs with hfits
    · exact ⟨_, rfl, rfl⟩
    · exact ih (Nat.le_of_succ_le hs)

/-- The trailing zeros of a whole decimal are all behind the point. -/
lemma lowest_of_whole {x : Decimal} {e : ℤ} (h : x.IsWhole e) : x.lowest = (e, 0) := by
  have htrim (s : ℕ) : trim (e * 10 ^ s) s = (e, 0) := by
    induction s with
    | zero => simp [trim]
    | succ s ih =>
      have hlast : e * 10 ^ (s + 1) % 10 = 0 := by
        rw [pow_succ, ← mul_assoc, Int.mul_emod_left]
      have hrest : e * 10 ^ (s + 1) / 10 = e * 10 ^ s := by
        rw [pow_succ, ← mul_assoc, Int.mul_ediv_cancel _ (by norm_num)]
      rw [trim, if_pos hlast, hrest, ih]
  rw [lowest, h, htrim]

/-- Rounding to fewer decimals leaves a whole decimal alone. -/
lemma roundTo?_whole {x : Decimal} {e : ℤ} (h : x.IsWhole e) (he : e.natAbs < 2 ^ 96)
    {places : ℕ} (hplaces : places ≤ 28) :
    ∃ y, x.roundTo? places hplaces = some y ∧ y.IsWhole e := by
  rw [roundTo?]
  split_ifs
  · exact ⟨x, rfl, h⟩
  · refine fit?_of_eq_mul (Nat.pow_pos (by norm_num)) ?_ he _ _
    rw [h]
    push_cast [Nat.pow_eq]
    rfl

/-! ### The operators -/

section Operators

variable {a b : Decimal} (ha : a.scale = 0) (hb : b.scale = 0) {e : ℤ} (hfits : e.natAbs < 2 ^ 96)

include ha hb hfits

lemma add?_whole (he : a.coefficient + b.coefficient = e) :
    ∃ x, a.add? b = some x ∧ x.IsWhole e :=
  fit?_of_eq_mul (by simp [ha, hb]) (by simp [ha, hb, he]) hfits _ _

lemma sub?_whole (he : a.coefficient - b.coefficient = e) :
    ∃ x, a.sub? b = some x ∧ x.IsWhole e :=
  add?_whole ha hb hfits (b := b.neg) (by rw [neg, ← sub_eq_add_neg, he])

lemma mul?_whole (he : a.coefficient * b.coefficient = e) :
    ∃ x, a.mul? b = some x ∧ x.IsWhole e :=
  fit?_of_eq_mul (by simp [ha, hb]) (by simp [ha, hb, he]) hfits _ _

lemma rem?_whole (he : a.coefficient.tmod b.coefficient = e) :
    ∃ x, a.rem? b = some x ∧ x.IsWhole e :=
  fit?_of_eq_mul (by simp [ha, hb]) (by simp [ha, hb, he]) hfits _ _

lemma div?_whole (hzero : b.coefficient ≠ 0) (he : a.coefficient = e * b.coefficient) :
    ∃ x, a.div? b = some x ∧ x.IsWhole e := by
  obtain ⟨quotient, hquotient, hwhole⟩ := fit?_of_eq_mul (e := e)
    (n := b.coefficient.sign * a.coefficient * Nat.pow 10 b.scale)
    (d := b.coefficient.natAbs * Nat.pow 10 a.scale)
    (by simp [ha, Int.natAbs_pos, hzero]) (by
      simp only [ha, hb, he]
      rw [mul_left_comm, Int.sign_mul_self]
      simp) hfits 28 (by decide)
  obtain ⟨x, hx, hwhole'⟩ := roundTo?_whole hwhole hfits (by decide : 20 ≤ 28)
  exact ⟨x, by simp only [div?, hquotient, Option.bind_eq_bind, Option.bind_some, hx], hwhole'⟩

/-- On integers the operators compute the exact result while it has at most 96 bits. -/
theorem calculate_exact {op : BinaryOperator}
    (he : op.wholeResult? a.coefficient b.coefficient = some e) :
    ∃ x, calculate op a b = .ok x ∧ x.IsWhole e := by
  cases op <;> simp only [BinaryOperator.wholeResult?, reduceCtorEq, Option.some.injEq,
    Option.ite_none_left_eq_some, Option.ite_none_right_eq_some] at he
  case add =>
    obtain ⟨x, hx, hwhole⟩ := add?_whole ha hb hfits he
    exact ⟨x, by simp only [calculate, hx], hwhole⟩
  case sub =>
    obtain ⟨x, hx, hwhole⟩ := sub?_whole ha hb hfits he
    exact ⟨x, by simp only [calculate, hx], hwhole⟩
  case mul =>
    obtain ⟨x, hx, hwhole⟩ := mul?_whole ha hb hfits he
    exact ⟨x, by simp only [calculate, hx], hwhole⟩
  case mod =>
    obtain ⟨x, hx, hwhole⟩ := rem?_whole ha hb hfits he.2
    exact ⟨x, by simp [calculate, isZero, he.1, hx], hwhole⟩
  case div =>
    obtain ⟨⟨hzero, hdvd⟩, rfl⟩ := he
    obtain ⟨x, hx, hwhole⟩ := div?_whole ha hb hfits hzero (Int.ediv_mul_cancel hdvd).symm
    exact ⟨x, by simp [calculate, isZero, hzero, hx], hwhole⟩

end Operators

/-- Nothing is divided by zero. -/
lemma calculate_by_zero (a : Decimal) {b : Decimal} (h : b.coefficient = 0) :
    calculate .div a b = .error (.arithmetic "division by zero") ∧
      calculate .mod a b = .error (.arithmetic "remainder by zero") := by
  simp [calculate, isZero, h]

/-- A product of more than 96 bits is refused. -/
theorem calculate_overflow {a b : Decimal} (ha : a.scale = 0) (hb : b.scale = 0)
    (h : ¬ (a.coefficient * b.coefficient).natAbs < 2 ^ 96) :
    calculate .mul a b = .error (.arithmetic "* overflow") := by
  have hnone : a.mul? b = none := by
    have hrefused := ofInt?_eq (a.coefficient * b.coefficient)
    rw [dif_neg h, ofInt?] at hrefused
    simpa [mul?, ha, hb] using hrefused
  simp only [calculate, hnone, BinaryOperator.symbol]
  rfl

end Decimal

/-! ### The number of a whole decimal -/

namespace Number

/-- The number of an integer: an integer if it is a word of 64 bits with sign, otherwise the
nearest double. -/
def ofWhole? (e : ℤ) : Option Number :=
  if leastInteger ≤ e ∧ e ≤ greatestSigned then some (.integer e)
  else (Binary64.ofInt? e).map .real

lemma ofDecimal?_of_whole {x : Decimal} {e : ℤ} (h : x.IsWhole e) :
    Number.ofDecimal? x = ofWhole? e := by
  have hlowest := Decimal.lowest_of_whole h
  simp only [Number.ofDecimal?, hlowest, Decimal.toBinary64?, true_and, if_true, ofWhole?,
    Option.bind_eq_bind, Binary64.ofInt?]

end Number

namespace Value

/-- The value is the number of an integer: the integer itself if it is a word of 64 bits with
sign, otherwise the double nearest to it. -/
def IsExact (e : ℤ) (value : Value) : Prop :=
  if Number.leastInteger ≤ e ∧ e ≤ Number.greatestSigned then
    value = .defined (.number (.integer e))
  else ∃ x, Binary64.ofInt? e = some x ∧ value = .defined (.number (.real x))

lemma ofDecimal_whole {x : Decimal} {e : ℤ} (h : x.IsWhole e) (he : e.natAbs < 2 ^ 96) :
    IsExact e (ofExcept do return .number (← Number.ofDecimal x)) := by
  rw [IsExact, Number.ofDecimal, Number.ofDecimal?_of_whole h, Number.ofWhole?]
  split_ifs
  · rfl
  · have hbits : (e.natAbs : ℚ) < 2 ^ (96 : ℤ) := by exact_mod_cast he
    obtain ⟨y, hy⟩ := Option.isSome_iff_exists.mp (Binary64.isSome_ofInt? (by norm_num) hbits)
    refine ⟨y, hy, ?_⟩
    rw [hy]
    rfl

section Results

variable {a b : ℤ} (ha : Number.IsWord (.integer a)) (hb : Number.IsWord (.integer b))

include ha

lemma toDecimal_integer : ∃ x : Decimal, Number.toDecimal (.integer a) = .ok x ∧
    x.coefficient = a ∧ x.scale = 0 := by
  have hbits : a.natAbs < 2 ^ 96 := ha.natAbs_lt.trans (by norm_num)
  exact ⟨⟨a, 0, hbits, by decide⟩, by
    rw [Number.toDecimal, Number.toDecimal?, Decimal.ofInt?_eq, dif_pos hbits], rfl, rfl⟩

theorem neg_exact : IsExact (-a) (unary .neg (.defined (.number (.integer a)))) := by
  obtain ⟨x, hx, rfl, hscale⟩ := toDecimal_integer ha
  have hbits : (-x.coefficient).natAbs < 2 ^ 96 := by
    have hword := ha.natAbs_lt
    omega
  have hwhole : x.neg.IsWhole (-x.coefficient) := by simp [Decimal.IsWhole, Decimal.neg, hscale]
  have hnegated := ofDecimal_whole hwhole hbits
  rw [unary, hx]
  exact hnegated

include hb

/-- The operators on integers are those on their decimals. -/
lemma arithmetic_integers (op : BinaryOperator) : ∃ x y : Decimal,
    arithmetic op (.integer a) (.integer b)
      = ofExcept (do return .number (← Number.ofDecimal (← Decimal.calculate op x y))) ∧
    (x.coefficient = a ∧ x.scale = 0) ∧ y.coefficient = b ∧ y.scale = 0 := by
  obtain ⟨x, hx, hx'⟩ := toDecimal_integer ha
  obtain ⟨y, hy, hy'⟩ := toDecimal_integer hb
  refine ⟨x, y, ?_, hx', hy'⟩
  rw [arithmetic, hx, hy]
  rfl

/-- Only products of words can have more than 96 bits. -/
lemma wholeResult?_lt {op : BinaryOperator} {e : ℤ} (he : op.wholeResult? a b = some e)
    (hop : op ≠ .mul) : e.natAbs < 2 ^ 96 := by
  have ha' := ha.natAbs_lt
  have hb' := hb.natAbs_lt
  cases op <;> simp only [BinaryOperator.wholeResult?, reduceCtorEq, Option.some.injEq,
    Option.ite_none_left_eq_some, Option.ite_none_right_eq_some] at he
  case add => omega
  case sub => omega
  case mul => exact absurd rfl hop
  case mod =>
    rw [← he.2, Int.natAbs_tmod]
    have hle := Nat.mod_le a.natAbs b.natAbs
    omega
  case div =>
    have hle := Int.natAbs_ediv_le_natAbs a b
    rw [he.2] at hle
    omega

theorem binary_exact {op : BinaryOperator} {e : ℤ} (he : op.wholeResult? a b = some e)
    (hfits : ¬ (op = .mul ∧ 2 ^ 96 ≤ e.natAbs)) :
    IsExact e (binary op (.defined (.number (.integer a))) (.defined (.number (.integer b)))) := by
  have hbits : e.natAbs < 2 ^ 96 := by
    by_cases hop : op = .mul
    · exact not_le.mp fun hle => hfits ⟨hop, hle⟩
    · exact wholeResult?_lt ha hb he hop
  obtain ⟨x, y, harithmetic, ⟨rfl, hx⟩, rfl, hy⟩ := arithmetic_integers ha hb op
  obtain ⟨z, hz, hwhole⟩ := Decimal.calculate_exact hx hy hbits he
  have hbinary : binary op (.defined (.number (.integer x.coefficient)))
      (.defined (.number (.integer y.coefficient)))
        = arithmetic op (.integer x.coefficient) (.integer y.coefficient) := by
    cases op <;> simp only [BinaryOperator.wholeResult?, reduceCtorEq] at he <;> rfl
  rw [hbinary, harithmetic, hz]
  exact ofDecimal_whole hwhole hbits

theorem binary_overflow (h : 2 ^ 96 ≤ (a * b).natAbs) :
    binary .mul (.defined (.number (.integer a))) (.defined (.number (.integer b)))
      = .error (.arithmetic "* overflow") := by
  obtain ⟨x, y, harithmetic, ⟨rfl, hx⟩, rfl, hy⟩ := arithmetic_integers ha hb .mul
  have hcalculate := Decimal.calculate_overflow hx hy (by omega)
  rw [hcalculate] at harithmetic
  exact harithmetic

theorem binary_by_zero (h : b = 0) :
    binary .div (.defined (.number (.integer a))) (.defined (.number (.integer b)))
        = .error (.arithmetic "division by zero") ∧
      binary .mod (.defined (.number (.integer a))) (.defined (.number (.integer b)))
        = .error (.arithmetic "remainder by zero") := by
  obtain ⟨x, y, hdiv, -, hy, -⟩ := arithmetic_integers ha hb .div
  obtain ⟨x', y', hmod, -, hy', -⟩ := arithmetic_integers ha hb .mod
  rw [(Decimal.calculate_by_zero x (hy.trans h)).1] at hdiv
  rw [(Decimal.calculate_by_zero x' (hy'.trans h)).2] at hmod
  exact ⟨hdiv, hmod⟩

end Results

/-- The operators on words of 64 bits give the number of the exact result; only a product of more
than 96 bits is refused, and nothing is divided by zero. -/
theorem integers_never_wrap {a b : ℤ} (ha : Number.IsWord (.integer a))
    (hb : Number.IsWord (.integer b)) :
    let result (op : BinaryOperator) : Value :=
      binary op (.defined (.number (.integer a))) (.defined (.number (.integer b)))
    (∀ op e, op.wholeResult? a b = some e →
      if op = .mul ∧ 2 ^ 96 ≤ e.natAbs then result op = .error (.arithmetic "* overflow")
      else IsExact e (result op)) ∧
    IsExact (-a) (unary .neg (.defined (.number (.integer a)))) ∧
    (b = 0 → result .div = .error (.arithmetic "division by zero") ∧
      result .mod = .error (.arithmetic "remainder by zero")) := by
  refine ⟨fun op e he => ?_, neg_exact ha, binary_by_zero ha hb⟩
  split_ifs with hlarge
  · obtain ⟨rfl, hbits⟩ := hlarge
    obtain rfl : a * b = e := Option.some.inj he
    exact binary_overflow ha hb hbits
  · exact binary_exact ha hb he hlarge

/-- Two less than the greatest word with sign is an integer, two more is the double `2 ^ 63`. -/
theorem integers_never_wrap_greatest :
    let greatest : Value := .defined (.number (.integer 9223372036854775807))
    let two : Value := .defined (.number (.integer 2))
    Number.IsWord (.integer 9223372036854775807) ∧ Number.IsWord (.integer 2) ∧
      binary .sub greatest two = .defined (.number (.integer 9223372036854775805)) ∧
      binary .add greatest two
        = .defined (.number (.real ⟨false, 4503599627370496, 11, by decide⟩)) := by
  intro greatest two
  have hgreatest : Number.IsWord (.integer 9223372036854775807) := by
    simp [Number.IsWord, Number.leastInteger, Number.greatestUnsigned]
  have htwo : Number.IsWord (.integer 2) := by
    simp [Number.IsWord, Number.leastInteger, Number.greatestUnsigned]
  have hexact := (integers_never_wrap hgreatest htwo).1
  have hless := hexact .sub 9223372036854775805 rfl
  have hmore := hexact .add 9223372036854775809 rfl
  rw [if_neg (by simp), IsExact, if_pos (by decide)] at hless
  rw [if_neg (by simp), IsExact, if_neg (by decide)] at hmore
  obtain ⟨x, hx, hsum⟩ := hmore
  have hpower : Binary64.ofInt? 9223372036854775809
      = some ⟨false, 4503599627370496, 11, by decide⟩ := by decide +kernel
  obtain rfl := Option.some.inj (hpower.symm.trans hx)
  exact ⟨hgreatest, htwo, hless, hsum⟩

end Value

end Verdict
