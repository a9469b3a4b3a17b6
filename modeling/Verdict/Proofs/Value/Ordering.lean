/-
Order and equality of values.

Numbers in the range of decimals are ordered by their decimal values, strings by their
characters, and no other pairs have an order.  The six comparisons say what they say of that
order, equality included, so on such pairs they fit together as on any linear order; on all
other pairs the four that ask for an order fail.

* `BinaryOperator.relation?`: what a comparison says of the order of its operands.
* `Value.Ordered`, `Value.order?_eq_some_iff`: the pairs that have an order.
* `Value.binary_of_order?`, `Value.binary_of_unordered`: the results of the comparisons.
* `Value.order_agrees_with_equality`: the laws of a linear order.
-/
import Verdict.Proofs.Number.Decimal

namespace Verdict

/-! ### Comparisons -/

namespace BinaryOperator

/-- What a comparison says of the order of its operands. -/
def relation? : BinaryOperator → Option (Ordering → Bool)
  | .eq => some (· == .eq)
  | .ne => some (· != .eq)
  | .lt => some (· == .lt)
  | .le => some (· != .gt)
  | .gt => some (· == .gt)
  | .ge => some (· != .lt)
  | _ => none

/-- The comparisons that ask for an order. -/
def orderings : List BinaryOperator := [.lt, .le, .gt, .ge]

end BinaryOperator

namespace Value

/-- The pairs of values that have an order, and the order that they have. -/
inductive Ordered : Json → Json → Ordering → Prop
  | number {m n : Number} {a b : Decimal} (ha : m.toDecimal? = some a)
      (hb : n.toDecimal? = some b) :
      Ordered (.number m) (.number n) (compare a.value b.value)
  | string (s t : String) : Ordered (.string s) (.string t) (compare s t)

variable {l m r : Json} {o o' : Ordering}

lemma compare_string (s t : String) :
    compare s t = if s < t then .lt else if s = t then .eq else .gt := rfl

theorem order?_eq_some_iff : order? l r = some o ↔ Ordered l r o := by
  constructor
  · intro h
    match l, r with
    | .number m, .number n =>
      rw [order?, Number.order?] at h
      cases hm : m.toDecimal? with
      | none => simp [hm] at h
      | some a =>
        cases hn : n.toDecimal? with
        | none => simp [hm, hn] at h
        | some b =>
          simp only [hm, hn, Option.bind_eq_bind, Option.bind_some, Option.pure_def,
            Option.some.injEq, Decimal.order_eq_compare] at h
          exact h ▸ .number hm hn
    | .string s, .string t =>
      rw [order?, Option.some.injEq, ← compare_string] at h
      exact h ▸ .string s t
    | .null, _ | .bool _, _ | .array _, _ | .object _, _ => simp [order?] at h
    | .number _, .null | .number _, .bool _ | .number _, .string _ | .number _, .array _
    | .number _, .object _ | .string _, .null | .string _, .bool _ | .string _, .number _
    | .string _, .array _ | .string _, .object _ => simp [order?] at h
  · intro h
    cases h with
    | number ha hb => simp [order?, Number.order?, ha, hb, Decimal.order_eq_compare]
    | string s t => rw [order?, compare_string]

lemma Ordered.swap (h : Ordered l r o) : Ordered r l o.swap := by
  cases h with
  | number ha hb =>
    rw [← Std.OrientedCmp.eq_swap]
    exact .number hb ha
  | string s t =>
    rw [← Std.OrientedCmp.eq_swap]
    exact .string t s

/-- A value stands for one decimal or is one string, so values ordered with it are ordered. -/
lemma Ordered.lt_trans (h : Ordered l m o) (h' : Ordered m r o') (ho : o = .lt)
    (ho' : o' = .lt) : Ordered l r .lt := by
  cases h with
  | @number k n a b ha hb =>
    cases h' with
    | @number _ n' b' c hb' hc =>
      obtain rfl : b = b' := Option.some.inj (hb.symm.trans hb')
      have hlt : compare a.value c.value = .lt :=
        compare_lt_iff_lt.mpr
          ((compare_lt_iff_lt.mp ho).trans (compare_lt_iff_lt.mp ho'))
      exact hlt ▸ .number ha hc
  | string s t =>
    cases h' with
    | string _ u =>
      have hlt : compare s u = .lt :=
        compare_lt_iff_lt.mpr
          ((compare_lt_iff_lt.mp ho).trans (compare_lt_iff_lt.mp ho'))
      exact hlt ▸ .string s u

/-- Values that have an order are equal exactly if it says so. -/
lemma Ordered.equalByValue_eq (h : Ordered l r o) : l.equalByValue r = (o == .eq) := by
  cases h with
  | number ha hb =>
    simp only [Json.equalByValue, Number.equalByValue, ha, hb, Decimal.order_eq_compare]
  | string s t =>
    rw [Bool.eq_iff_iff, beq_iff_eq, compare_eq_iff_eq]
    simp [Json.equalByValue, Json.same]

/-! ### Results -/

section Results

variable {op : BinaryOperator} {holds : Ordering → Bool}

/-- On values that have an order a comparison gives the boolean that it says of the order. -/
theorem binary_of_order? (hop : op.relation? = some holds) (h : order? l r = some o) :
    binary op (.defined l) (.defined r) = ofBool (holds o) := by
  have hequal : l.equalByValue r = (o == .eq) := (order?_eq_some_iff.mp h).equalByValue_eq
  cases op <;> cases hop
  case eq => simp only [binary, equals, hequal]
  case ne => simp only [binary, differs, equals, ofBool, hequal]; rfl
  all_goals simp only [binary, binaryDefined, comparison, h]

/-- On other values a comparison that asks for an order fails. -/
theorem binary_of_unordered (hop : op ∈ BinaryOperator.orderings) (h : order? l r = none) :
    binary op (.defined l) (.defined r) = pairMismatch op l r := by
  simp only [BinaryOperator.orderings, List.mem_cons, List.not_mem_nil, or_false] at hop
  rcases hop with rfl | rfl | rfl | rfl <;>
    simp only [binary, binaryDefined, comparison, h]

end Results

lemma order?_eq_none_swap (h : order? l r = none) : order? r l = none := by
  rw [Option.eq_none_iff_forall_ne_some] at h ⊢
  intro o ho
  exact h o.swap (order?_eq_some_iff.mpr (order?_eq_some_iff.mp ho).swap)

/-- Two values can be compared: `<` gives a boolean. -/
def Comparable (l r : Json) : Prop :=
  ∃ b, binary .lt (.defined l) (.defined r) = ofBool b

lemma comparable_iff : Comparable l r ↔ ∃ o, order? l r = some o := by
  constructor
  · rintro ⟨b, hb⟩
    cases h : order? l r with
    | some o => exact ⟨o, rfl⟩
    | none =>
      rw [binary_of_unordered (by decide) h] at hb
      cases hb
  · rintro ⟨o, h⟩
    exact ⟨_, binary_of_order? rfl h⟩

/-- For two values that `<` can compare, exactly one of `<`, `==` and `>` holds, `<=` is
`<` or `==`, the operators read backwards are those of the other direction, and `<` is
transitive.  For other values the four operators that ask for an order fail on both orders of
the operands, with a message that names the kinds. -/
theorem order_agrees_with_equality (l r : Json) :
    let result (op : BinaryOperator) (l r : Json) : Value := binary op (.defined l) (.defined r)
    (Comparable l r → ∃ less equal greater : Bool,
      result .lt l r = ofBool less ∧ result .eq l r = ofBool equal ∧
      result .lt r l = ofBool greater ∧ [less, equal, greater].count true = 1 ∧
      result .le l r = ofBool (less || equal) ∧
      result .gt l r = result .lt r l ∧ result .ge l r = result .le r l ∧
      ∀ m, Comparable r m → Comparable l m → result .lt l r = ofBool true →
        result .lt r m = ofBool true → result .lt l m = ofBool true) ∧
    (¬ Comparable l r → ∀ op ∈ BinaryOperator.orderings,
      result op l r = .error (.typeMismatch
        ("'" ++ op.symbol ++ "' cannot be applied to " ++ l.kind ++ " and " ++ r.kind)) ∧
      result op r l = .error (.typeMismatch
        ("'" ++ op.symbol ++ "' cannot be applied to " ++ r.kind ++ " and " ++ l.kind))) := by
  intro result
  constructor
  · intro hcomparable
    obtain ⟨o, ho⟩ := comparable_iff.mp hcomparable
    have hforth {op : BinaryOperator} {holds : Ordering → Bool} (hop : op.relation? = some holds) :
        result op l r = ofBool (holds o) := binary_of_order? hop ho
    have hback {op : BinaryOperator} {holds : Ordering → Bool} (hop : op.relation? = some holds) :
        result op r l = ofBool (holds o.swap) :=
      binary_of_order? hop (order?_eq_some_iff.mpr (order?_eq_some_iff.mp ho).swap)
    refine ⟨_, _, _, hforth rfl, hforth rfl, hback rfl, ?_, ?_, ?_, ?_, ?_⟩
    · cases o <;> rfl
    · rw [hforth rfl]
      cases o <;> rfl
    · rw [hforth rfl, hback rfl]
      cases o <;> rfl
    · rw [hforth rfl, hback rfl]
      cases o <;> rfl
    · intro m hright _ hbelow habove
      obtain ⟨o', ho'⟩ := comparable_iff.mp hright
      have hless : o = .lt := by simpa [ofBool] using (hforth rfl).symm.trans hbelow
      have hgreater : o' = .lt := by
        simpa [ofBool] using (binary_of_order? rfl ho').symm.trans habove
      have hlt : order? l m = some .lt := order?_eq_some_iff.mpr
        ((order?_eq_some_iff.mp ho).lt_trans (order?_eq_some_iff.mp ho') hless hgreater)
      exact (binary_of_order? rfl hlt : result .lt l m = _)
  · intro hcomparable op hop
    have hnone : order? l r = none :=
      Option.eq_none_iff_forall_ne_some.mpr fun o ho => hcomparable (comparable_iff.mpr ⟨o, ho⟩)
    exact ⟨binary_of_unordered hop hnone, binary_of_unordered hop (order?_eq_none_swap hnone)⟩

/-- The greatest word of 64 bits stands below the double nearest to it, and a string has no
order with a null. -/
theorem order_agrees_with_equality_word :
    let word : Json := .number (.integer 18446744073709551615)
    let power : Json := .number (.real ⟨false, 2 ^ 52, 12, by decide⟩)
    binary .lt (.defined word) (.defined power) = ofBool true ∧
      binary .eq (.defined word) (.defined power) = ofBool false ∧
      binary .le (.defined word) (.defined power) = ofBool true ∧
      binary .gt (.defined word) (.defined power) = ofBool false ∧
      binary .ge (.defined .null) (.defined (.string "a")) = .error (.typeMismatch
        "'>=' cannot be applied to null and string") := by
  intro word power
  have horder : order? word power = some .lt := by
    rw [order?]
    decide +kernel
  have hrelation : BinaryOperator.lt.relation? = some (· == .lt) := rfl
  have hless : binary .lt (.defined word) (.defined power) = ofBool true :=
    binary_of_order? hrelation horder
  obtain ⟨less, equal, greater, hl, he, hg, hone, hle, hgt, -⟩ :=
    (order_agrees_with_equality word power).1 ⟨true, hless⟩
  obtain rfl : less = true := by simpa [ofBool] using hl.symm.trans hless
  obtain ⟨rfl, rfl⟩ : equal = false ∧ greater = false := by
    cases equal <;> cases greater <;> simp at hone ⊢
  have hkinds : ¬ Comparable (.string "a") .null := by
    rintro ⟨b, hb⟩
    cases hb
  exact ⟨hless, he, hle, hgt.trans hg,
    ((order_agrees_with_equality (.string "a") .null).2 hkinds .ge (by decide)).2⟩

end Value

end Verdict
