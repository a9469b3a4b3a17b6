/-
Comparison of numbers.

A comparison of two numbers says what it says of the order of the rationals that their texts
denote, except in two places.  The four that ask for an order fail where a number is no decimal,
while equality falls back on the nearest doubles, which tells all numbers apart there; and numbers
in range are compared after they are rounded to 28 decimals, so that different small numbers may
be taken for equal.  Neither happens to numbers that are zero or lie from `10 ^ -12` up to
`2 ^ 96`.

* `Decimal.compare_rounded`: rounding keeps the order of numbers that it does not make equal.
* `Value.binary_of_inRange`: the comparisons of decimals.
* `Value.ordering_of_not_inRange`, `Value.equality_of_not_inRange`: those beyond their range.
* `Value.binary_of_moderate`: numbers of moderate size are compared exactly.
* `Value.compares_exactly_iff`: the comparisons that agree with the rationals.
-/
import Verdict.Proofs.Number.Text
import Verdict.Proofs.Value.Ordering

namespace Verdict

/-- Rationals that are different after rounding are ordered as before. -/
lemma Decimal.compare_rounded {v w : ℚ} (h : rounded v ≠ rounded w) :
    compare (rounded v) (rounded w) = compare v w := by
  rcases lt_trichotomy v w with hlt | rfl | hgt
  · rw [compare_lt_iff_lt.mpr hlt, compare_lt_iff_lt]
    exact lt_of_le_of_ne (rounded_mono hlt.le) h
  · exact absurd rfl h
  · rw [compare_gt_iff_gt.mpr hgt, compare_gt_iff_gt]
    exact lt_of_le_of_ne (rounded_mono hgt.le) h.symm

namespace Value

section Results

variable {a b : Number} (ha : a.IsWord) (hb : b.IsWord)

include ha hb

/-- Numbers in the range of decimals are ordered by their decimals. -/
lemma order?_of_inRange (hrange : Decimal.InRange a.value ∧ Decimal.InRange b.value) :
    order? (.number a) (.number b)
      = some (compare (Decimal.rounded a.value) (Decimal.rounded b.value)) := by
  obtain ⟨x, hx⟩ := Option.isSome_iff_exists.mp ((Number.isSome_toDecimal?_iff ha).mpr hrange.1)
  obtain ⟨y, hy⟩ := Option.isSome_iff_exists.mp ((Number.isSome_toDecimal?_iff hb).mpr hrange.2)
  rw [← Number.value_of_toDecimal? hx, ← Number.value_of_toDecimal? hy]
  exact order?_eq_some_iff.mpr (.number hx hy)

/-- Other numbers have no order. -/
lemma order?_of_not_inRange (hrange : ¬ (Decimal.InRange a.value ∧ Decimal.InRange b.value)) :
    order? (.number a) (.number b) = none := by
  rw [← Number.isSome_toDecimal?_iff ha, ← Number.isSome_toDecimal?_iff hb] at hrange
  refine Option.eq_none_iff_forall_ne_some.mpr fun o ho => hrange ?_
  cases order?_eq_some_iff.mp ho with
  | number hx hy => exact ⟨Option.isSome_of_eq_some hx, Option.isSome_of_eq_some hy⟩

variable {op : BinaryOperator}

lemma ordering_of_not_inRange (hop : op ∈ BinaryOperator.orderings)
    (hrange : ¬ (Decimal.InRange a.value ∧ Decimal.InRange b.value)) :
    binary op (.defined (.number a)) (.defined (.number b)) = .error (.typeMismatch
      ("'" ++ op.symbol ++ "' cannot be applied to number and number")) := by
  rw [binary_of_unordered hop (order?_of_not_inRange ha hb hrange)]
  simp [pairMismatch, mismatch, Json.kind, String.append_assoc]

variable {holds : Ordering → Bool} (hop : op.relation? = some holds)

include hop

lemma binary_of_inRange (hrange : Decimal.InRange a.value ∧ Decimal.InRange b.value) :
    binary op (.defined (.number a)) (.defined (.number b))
      = ofBool (holds (compare (Decimal.rounded a.value) (Decimal.rounded b.value))) :=
  binary_of_order? hop (order?_of_inRange ha hb hrange)

/-- Beyond the range of decimals equality is that of the rationals. -/
lemma equality_of_not_inRange (hequality : op ∉ BinaryOperator.orderings)
    (hrange : ¬ (Decimal.InRange a.value ∧ Decimal.InRange b.value)) :
    binary op (.defined (.number a)) (.defined (.number b))
      = ofBool (holds (compare a.value b.value)) := by
  have hequal : Json.equalByValue (.number a) (.number b) = (compare a.value b.value == .eq) := by
    rw [Json.equalByValue, Number.equalByValue_of_not_inRange ha hb hrange, Bool.eq_iff_iff,
      decide_eq_true_eq, beq_iff_eq, compare_eq_iff_eq]
  cases op <;> cases hop
  case eq => simp only [binary, equals, hequal]
  case ne => simp only [binary, differs, equals, ofBool, hequal]; rfl
  all_goals exact absurd (by decide) hequality

/-- Comparisons of numbers of moderate size give the boolean that they say of the rationals. -/
theorem binary_of_moderate
    (hmoderate : ∀ n ∈ [a, b], n.value = 0 ∨ 10 ^ (-12 : ℤ) ≤ |n.value| ∧ |n.value| < 2 ^ 96) :
    binary op (.defined (.number a)) (.defined (.number b))
      = ofBool (holds (compare a.value b.value)) := by
  have hinRange {n : Number} (hn : n ∈ [a, b]) : Decimal.InRange n.value := by
    refine (hmoderate n hn).imp_right fun h => ⟨le_trans ?_ h.1, h.2⟩
    exact zpow_le_zpow_right₀ (by norm_num) (by norm_num)
  have hrounded {n : Number} (hn : n ∈ [a, b]) : Decimal.rounded n.value = n.value :=
    Number.rounded_value ((hmoderate n hn).imp_right And.left)
  rw [binary_of_inRange ha hb hop ⟨hinRange (by simp), hinRange (by simp)⟩, hrounded (by simp),
    hrounded (by simp)]

end Results

/-- A comparison of two numbers agrees with the order of the rationals that their texts denote,
unless it asks for an order and a number is no decimal, or the two are rounded to one decimal and
it tells their rationals from equal ones.  In the first case it is a type mismatch. -/
theorem compares_exactly_iff {op : BinaryOperator} {holds : Ordering → Bool}
    (hop : op.relation? = some holds) {a b : Number} (ha : a.IsWord) (hb : b.IsWord) :
    (∀ n ∈ [a, b], Json.Reader.rational? n.text.toList = some n.value) ∧
    (binary op (.defined (.number a)) (.defined (.number b))
        = ofBool (holds (compare a.value b.value)) ↔
      (op ∈ BinaryOperator.orderings → Decimal.InRange a.value ∧ Decimal.InRange b.value) ∧
      (Decimal.InRange a.value → Decimal.InRange b.value →
        Decimal.rounded a.value = Decimal.rounded b.value →
        holds .eq = holds (compare a.value b.value))) ∧
    (op ∈ BinaryOperator.orderings →
      ¬ (Decimal.InRange a.value ∧ Decimal.InRange b.value) →
      binary op (.defined (.number a)) (.defined (.number b)) = .error (.typeMismatch
        ("'" ++ op.symbol ++ "' cannot be applied to number and number"))) := by
  refine ⟨fun n _ => n.rational?_text, ?_, ordering_of_not_inRange ha hb⟩
  by_cases hrange : Decimal.InRange a.value ∧ Decimal.InRange b.value
  · rw [binary_of_inRange ha hb hop hrange]
    by_cases hrounded : Decimal.rounded a.value = Decimal.rounded b.value
    · rw [hrounded, compare_eq_iff_eq.mpr rfl]
      simp [ofBool, hrange]
    · rw [Decimal.compare_rounded hrounded]
      simp [hrange, hrounded]
  · by_cases hordering : op ∈ BinaryOperator.orderings
    · rw [ordering_of_not_inRange ha hb hordering hrange]
      simp [ofBool, hordering, hrange]
    · rw [equality_of_not_inRange ha hb hop hordering hrange]
      exact iff_of_true rfl
        ⟨fun h => absurd h hordering, fun hx hy => absurd ⟨hx, hy⟩ hrange⟩

/-- The double `0.1` is less than the integer `1`. -/
theorem compares_exactly_tenth :
    let tenth : Number := .real ⟨false, 7205759403792794, -56, by decide⟩
    tenth.IsWord ∧ Number.IsWord (.integer 1) ∧
      binary .lt (.defined (.number tenth)) (.defined (.number (.integer 1))) = ofBool true := by
  intro tenth
  have hshortest : Binary64.shortest ⟨false, 7205759403792794, -56, by decide⟩ = (1, -1) := by
    decide +kernel
  have htenth : tenth.value = 1 / 10 := by
    simp only [tenth, Number.value, Binary64.value, Binary64.decimalMagnitude, hshortest]
    norm_num
  have hvalue : Number.value (.integer 1) = 1 := by norm_num [Number.value]
  have htenthWord : tenth.IsWord := trivial
  have hword : Number.IsWord (.integer 1) := by
    simp [Number.IsWord, Number.leastInteger, Number.greatestUnsigned]
  have hinRange : Decimal.InRange tenth.value := by
    rw [htenth]
    exact .inr (by norm_num [abs_of_pos])
  have hexact : binary .lt (.defined (.number tenth)) (.defined (.number (.integer 1)))
      = ofBool (compare tenth.value (Number.value (.integer 1)) == .lt) := by
    have hrelation : BinaryOperator.lt.relation? = some (· == .lt) := rfl
    refine (compares_exactly_iff hrelation htenthWord hword).2.1.mpr
      ⟨fun _ => ⟨hinRange, Number.inRange_integer hword⟩, fun _ _ hrounded => ?_⟩
    rw [Number.rounded_value (.inr (by rw [htenth]; norm_num [abs_of_pos])),
      Number.rounded_value (.inr (by rw [hvalue]; norm_num)), htenth, hvalue] at hrounded
    norm_num at hrounded
  refine ⟨htenthWord, hword, ?_⟩
  rw [hexact, htenth, hvalue, compare_lt_iff_lt.mpr (by norm_num)]
  rfl

/-- The double `1e+30` cannot be ordered with the integer `1`, which is less, and the doubles
`1.25e-27` and `1.3e-27` are taken for equal. -/
theorem compares_exactly_fails :
    let large : Number := .real ⟨false, 7105427357601002, 47, by decide⟩
    let small : Number := .real ⟨false, 6968982874540820, -142, by decide⟩
    let less : Number := .real ⟨false, 7247742189522453, -142, by decide⟩
    Number.value (.integer 1) < large.value ∧
      binary .lt (.defined (.number large)) (.defined (.number (.integer 1)))
        = .error (.typeMismatch "'<' cannot be applied to number and number") ∧
      small.value < less.value ∧
      binary .eq (.defined (.number small)) (.defined (.number less)) = ofBool true := by
  intro large small less
  have hlarge : Binary64.shortest ⟨false, 7105427357601002, 47, by decide⟩ = (1, 30) := by
    decide +kernel
  have hsmall : Binary64.shortest ⟨false, 6968982874540820, -142, by decide⟩ = (125, -29) := by
    decide +kernel
  have hless : Binary64.shortest ⟨false, 7247742189522453, -142, by decide⟩ = (13, -28) := by
    decide +kernel
  refine ⟨?_, ?_, ?_, ?_⟩
  · simp only [large, Number.value, Binary64.value, Binary64.decimalMagnitude, hlarge]
    norm_num
  · have horder : order? (.number large) (.number (.integer 1)) = none := by
      rw [order?]
      decide +kernel
    rw [binary_of_unordered (by decide) horder]
    rfl
  · simp only [small, less, Number.value, Binary64.value, Binary64.decimalMagnitude, hsmall, hless]
    norm_num
  · have hequal : Number.equalByValue small less = true := by decide +kernel
    simp only [binary, equals, Json.equalByValue, hequal]

end Value

end Verdict
