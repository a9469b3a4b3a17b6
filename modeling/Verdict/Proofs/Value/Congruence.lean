/-
Operators and functions on operands that are the same.

Most operators and functions cannot tell structurally equal values apart.  The two
exceptions write a value out: `+` beside a string, and the text of a number.  A text shows
the order of members and the sign of a zero, which structural equality does not look at.

* `Number.toDecimal_same`, `Json.equalByValue_same`: arithmetic and comparison do not look
  at the sign of zero.
* `Value.printed?`, `FunctionRegistry.printed?`: the value that an operator or a function
  writes out.
* `Value.binary_same_iff`, `FunctionRegistry.call_same_iff`: the results are the same exactly
  if the texts of what is written out are identical.
* `Value.binary_respects_same_iff`, `FunctionRegistry.call_respects_same_iff`: the operators
  and functions that write nothing out.
* `Value.unary_same`: unary operators write nothing out.
-/
import Verdict.Evaluation.Construction
import Verdict.Function.Standard
import Verdict.Proofs.Stream.Matching
import Verdict.Proofs.Value.Equality

namespace Verdict

/-! ### Numbers -/

namespace Number

/-- Both zeros among the doubles stand for the decimal zero. -/
lemma realToDecimal?_of_isZero {x : Binary64} (h : x.isZero = true) :
    realToDecimal? x = some .zero := by
  rw [realToDecimal?, Binary64.shortest, if_pos h]
  cases x.negative <;> rfl

variable {a a' b b' : Number}

/-- Both zeros of a double become the decimal zero, so that decimals do not tell its sign. -/
lemma toDecimal?_same (h : a.same b = true) : a.toDecimal? = b.toDecimal? := by
  rcases same_iff.mp h with rfl | ⟨x, y, rfl, rfl, hx, hy⟩
  · rfl
  · rw [toDecimal?, toDecimal?, realToDecimal?_of_isZero hx, realToDecimal?_of_isZero hy]

/-- The failure of a number out of range names it, and no zero is out of range. -/
lemma toDecimal_same (h : a.same b = true) : a.toDecimal = b.toDecimal := by
  rcases same_iff.mp h with rfl | ⟨x, y, rfl, rfl, hx, hy⟩
  · rfl
  · rw [toDecimal, toDecimal, toDecimal?, toDecimal?, realToDecimal?_of_isZero hx,
      realToDecimal?_of_isZero hy]

lemma toUnsigned?_same (h : a.same b = true) : a.toUnsigned? = b.toUnsigned? := by
  rcases same_iff.mp h with rfl | ⟨x, y, rfl, rfl, -, -⟩ <;> rfl

/-- Order is told by decimals. -/
lemma order?_same (ha : a.same a' = true) (hb : b.same b' = true) :
    a.order? b = a'.order? b' := by
  rw [order?, order?, toDecimal?_same ha, toDecimal?_same hb]

/-- As doubles, numbers that are the same have the same value. -/
lemma toBinary64?_same (h : a.same b = true) :
    Option.Rel (fun x y => x.sameValue y = true) a.toBinary64? b.toBinary64? := by
  have hrefl (x : Binary64) : x.sameValue x = true := Binary64.sameValue_iff.mpr (.inl rfl)
  rcases same_iff.mp h with rfl | ⟨x, y, rfl, rfl, hx, hy⟩
  · cases a.toBinary64? with
    | none => exact .none
    | some x => exact .some (hrefl x)
  · exact .some (Binary64.sameValue_iff.mpr (.inr ⟨hx, hy⟩))

lemma same_congr (ha : a.same a' = true) (hb : b.same b' = true) : a.same b = a'.same b' := by
  rw [Bool.eq_iff_iff]
  exact ⟨fun h => same_trans (same_trans (same_symm ha) h) hb,
    fun h => same_trans (same_trans ha h) (same_symm hb)⟩

/-- Numbers are compared by value alike, whichever of those that are the same is taken. -/
lemma equalByValue_same (ha : a.same a' = true) (hb : b.same b' = true) :
    a.equalByValue b = a'.equalByValue b' := by
  have hx := toBinary64?_same ha
  have hy := toBinary64?_same hb
  rw [equalByValue, equalByValue, toDecimal?_same ha, toDecimal?_same hb]
  generalize a.toBinary64? = x, a'.toBinary64? = x' at hx
  generalize b.toBinary64? = y, b'.toBinary64? = y' at hy
  cases hx with
  | none => cases hy <;> rfl
  | @some x x' hx =>
    cases hy with
    | none => rfl
    | @some y y' hy =>
      have hdoubles : x.sameValue y = x'.sameValue y' :=
        same_congr (show (real x).same (.real x') = true from hx)
          (show (real y).same (.real y') = true from hy)
      simp only [hdoubles]

end Number

/-! ### Equality by value -/

namespace Json

variable {a a' b b' : Json}

lemma same_congr (ha : a.Same a') (hb : b.Same b') : a.same b = a'.same b' := by
  rw [Bool.eq_iff_iff]
  constructor
  · intro h
    exact ((ha.symm.trans ⟨ha.left, hb.left, h⟩).trans hb).same
  · intro h
    exact ((ha.trans ⟨ha.right, hb.right, h⟩).trans hb.symm).same

/-- So are whole values, member by member. -/
lemma equalByValue_same (ha : a.Same a') (hb : b.Same b') :
    a.equalByValue b = a'.equalByValue b' := by
  have hsame := same_congr ha hb
  cases ha.pair with
  | number hmn =>
    cases hb.pair with
    | number hop => exact Number.equalByValue_same hmn hop
    | _ => exact hsame
  | _ => exact hsame

lemma Same.toUnsigned?_eq (h : a.Same b) : a.toUnsigned? = b.toUnsigned? := by
  cases h.pair with
  | number hmn => exact Number.toUnsigned?_same hmn
  | _ => rfl

end Json

/-! ### Operators -/

namespace Value

/-- Arithmetic goes through decimals, the failures by overflow and by zero included. -/
lemma arithmetic_same {m m' n n' : Number} (hm : m.same m' = true) (hn : n.same n' = true)
    (op : BinaryOperator) : arithmetic op m n = arithmetic op m' n' := by
  simp only [arithmetic, Number.toDecimal_same hm, Number.toDecimal_same hn]

section Operators

variable {l l' r r' : Json} (hl : l.Same l') (hr : r.Same r')

include hl hr

/-- The message about a mismatch names the kinds of the operands alone. -/
lemma pairMismatch_same (op : BinaryOperator) : pairMismatch op l r = pairMismatch op l' r' := by
  rw [pairMismatch, pairMismatch, hl.kind_eq, hr.kind_eq]

lemma boolean_same (op : BinaryOperator) (f : Bool → Bool → Bool) :
    boolean op f l r = boolean op f l' r' := by
  cases hl.pair <;> cases hr.pair <;> rfl

/-- Values that are the same have the same place among others. -/
lemma order?_same : order? l r = order? l' r' := by
  cases hl.pair with
  | number hmn =>
    cases hr.pair with
    | number hop => exact Number.order?_same hmn hop
    | _ => rfl
  | _ => cases hr.pair <;> rfl

/-- So every comparison by order has one outcome for them. -/
lemma comparison_same (op : BinaryOperator) (holds : Ordering → Bool) :
    comparison op holds l r = comparison op holds l' r' := by
  rw [comparison, comparison, order?_same hl hr, pairMismatch_same hl hr]

omit hr in
/-- Membership of an array is told by equality of values. -/
lemma any_equalByValue_same {as bs : List Json} (h : List.Forall₂ Json.Same as bs) :
    as.any l.equalByValue = bs.any l'.equalByValue := by
  induction h with
  | nil => rfl
  | cons hab _ ih => rw [List.any_cons, List.any_cons, Json.equalByValue_same hl hab, ih]

/-- Every operator but `+` has identical results. -/
lemma binaryDefined_same {op : BinaryOperator} (hop : op ≠ .add) :
    binaryDefined op l r = binaryDefined op l' r' := by
  have hmismatch := pairMismatch_same hl hr
  cases op with
  | and | or | xor => exact boolean_same hl hr _ _
  | lt | le | gt | ge => exact comparison_same hl hr _ _
  | eq | ne => simp only [binaryDefined, Json.equalByValue_same hl hr]
  | sub | mul | div | mod =>
    cases hl.pair with
    | number hmn =>
      cases hr.pair with
      | number hop => exact arithmetic_same hmn hop _
      | _ => exact hmismatch _
    | _ => cases hr.pair <;> exact hmismatch _
  | regex => cases hl.pair <;> cases hr.pair <;> rfl
  | isIn =>
    cases hr.pair with
    | array hitems => simp only [binaryDefined, any_equalByValue_same hl hitems]
    | _ => rfl
  | add => exact absurd rfl hop

end Operators

/-! ### What is written out -/

/-- Strings are the same only if they are equal. -/
lemma same_string_iff {s t : String} :
    (defined (.string s)).Same (.defined (.string t)) ↔ s = t := by
  constructor
  · intro h
    cases h.pair with
    | defined h => cases h.pair; rfl
  · rintro rfl
    exact .refl (hasDistinctKeys_defined.mpr trivial)

/-- The value whose text an operator puts into its result: the one that stands beside a
string. -/
def printed? (op : BinaryOperator) (left right : Value) : Option Json :=
  match op, left, right with
  | .add, .defined (.string _), .defined other => some other
  | .add, .defined other, .defined (.string _) => some other
  | _, _, _ => none

lemma hasDistinctKeys_error (cause : EvalError) : (error cause).HasDistinctKeys :=
  (same_error cause).left

/-- Arithmetic gives a number or a failure. -/
lemma hasDistinctKeys_arithmetic (op : BinaryOperator) (m n : Number) :
    (arithmetic op m n).HasDistinctKeys := by
  rw [arithmetic]
  cases m.toDecimal with
  | error cause => exact hasDistinctKeys_error cause
  | ok a =>
    cases n.toDecimal with
    | error cause => exact hasDistinctKeys_error cause
    | ok b =>
      cases hresult : a.calculate op b with
      | error cause =>
        simp only [bind, Except.bind, hresult]
        exact hasDistinctKeys_error cause
      | ok c =>
        simp only [bind, Except.bind, hresult]
        cases Number.ofDecimal c with
        | error cause => exact hasDistinctKeys_error cause
        | ok number => exact hasDistinctKeys_defined.mpr trivial

/-- Operators make booleans, numbers and strings, and no objects. -/
lemma hasDistinctKeys_binaryDefined (op : BinaryOperator) (left right : Json) :
    (binaryDefined op left right).HasDistinctKeys := by
  have hbool (b : Bool) : (ofBool b).HasDistinctKeys := hasDistinctKeys_defined.mpr trivial
  have hstring (s : String) : (defined (.string s)).HasDistinctKeys :=
    hasDistinctKeys_defined.mpr trivial
  have hmismatch := hasDistinctKeys_error
  cases op with
  | and | or | xor =>
    simp only [binaryDefined, boolean]
    split
    · exact hbool _
    · exact hmismatch _
  | lt | le | gt | ge =>
    simp only [binaryDefined, comparison]
    split
    · exact hbool _
    · exact hmismatch _
  | eq | ne => exact hbool _
  | sub | mul | div | mod =>
    simp only [binaryDefined]
    split
    · exact hasDistinctKeys_arithmetic _ _ _
    · exact hmismatch _
  | regex =>
    simp only [binaryDefined, regexMatch]
    repeat' split
    · exact hbool _
    · exact hmismatch _
    · exact hmismatch _
  | isIn =>
    simp only [binaryDefined]
    split
    · exact hbool _
    · exact hmismatch _
  | add =>
    simp only [binaryDefined]
    split
    · exact hasDistinctKeys_arithmetic _ _ _
    · exact hstring _
    · exact hstring _
    · exact hmismatch _

/-- No operator makes an object that repeats a name. -/
lemma hasDistinctKeys_binary (op : BinaryOperator) (a b : Value) :
    (binary op a b).HasDistinctKeys := by
  have herror := hasDistinctKeys_error
  have hundefined : undefined.HasDistinctKeys := Paired.undefined.same.left
  have hbool (b : Bool) : (ofBool b).HasDistinctKeys := hasDistinctKeys_defined.mpr trivial
  cases a with
  | error cause => cases op <;> exact herror cause
  | undefined =>
    cases b with
    | error cause => cases op <;> exact herror cause
    | _ => cases op <;> first | exact hundefined | exact hbool _
  | defined left =>
    cases b with
    | error cause => cases op <;> exact herror cause
    | undefined => cases op <;> first | exact hundefined | exact hbool _
    | defined right =>
      have hdefined := hasDistinctKeys_binaryDefined op left right
      cases op <;> exact hdefined

/-- What stands beside a string is written out. -/
lemma add_same_iff {left left' right right' : Json} (hleft : left.Same left')
    (hright : right.Same right') :
    (binaryDefined .add left right).Same (binaryDefined .add left' right') ↔
      (printed? .add (.defined left) (.defined right)).map Json.render
        = (printed? .add (.defined left') (.defined right')).map Json.render := by
  have hmismatch : (pairMismatch .add left right).Same (pairMismatch .add left' right') := by
    rw [pairMismatch_same hleft hright]
    exact same_error _
  cases hleft.pair with
  | string s =>
    cases hright.pair <;> simp [binaryDefined, printed?, same_string_iff, String.append_right_inj]
  | number hmn =>
    cases hright.pair with
    | string t => simp [binaryDefined, printed?, same_string_iff, String.append_left_inj]
    | number hop =>
      refine iff_of_true ?_ rfl
      simp only [binaryDefined, arithmetic_same hmn hop]
      exact .refl (hasDistinctKeys_arithmetic _ _ _)
    | _ => exact iff_of_true hmismatch rfl
  | _ =>
    cases hright.pair with
    | string t => simp [binaryDefined, printed?, same_string_iff, String.append_left_inj]
    | _ => exact iff_of_true hmismatch rfl

section Operators

variable {l l' r r' : Value} (hl : l.Same l') (hr : r.Same r')

include hl hr

/-- Every operator but `+` has identical results. -/
lemma binary_same_of_ne {op : BinaryOperator} (hop : op ≠ .add) :
    binary op l r = binary op l' r' := by
  cases hl.pair with
  | defined hleft =>
    cases hr.pair with
    | defined hright =>
      have hdefined := binaryDefined_same hleft hright hop
      cases op <;> exact hdefined
    | _ => cases op <;> rfl
  | _ => cases hr.pair <;> cases op <;> rfl

/-- Every operator but `+` makes the same of values that are the same; `+` may write them
out. -/
lemma binary_same {op : BinaryOperator} (hop : op ≠ .add) :
    (binary op l r).Same (binary op l' r') := by
  rw [binary_same_of_ne hl hr hop]
  exact .refl (hasDistinctKeys_binary _ _ _)

/-- An operator has the same results exactly if what it writes out has one text. -/
theorem binary_same_iff (op : BinaryOperator) :
    (binary op l r).Same (binary op l' r') ↔
      (printed? op l r).map Json.render = (printed? op l' r').map Json.render := by
  by_cases hop : op = .add
  · subst hop
    cases hl.pair with
    | defined hleft =>
      cases hr.pair with
      | defined hright => exact add_same_iff hleft hright
      | undefined => exact iff_of_true Paired.undefined.same (by cases hleft.pair <;> rfl)
      | error cause => exact iff_of_true (same_error cause) (by cases hleft.pair <;> rfl)
    | undefined =>
      cases hr.pair with
      | error cause => exact iff_of_true (same_error cause) rfl
      | _ => exact iff_of_true Paired.undefined.same rfl
    | error cause => cases hr.pair <;> exact iff_of_true (same_error cause) rfl
  · refine iff_of_true (binary_same hl hr hop) ?_
    cases op <;> first | rfl | exact absurd rfl hop

end Operators

/-- The two zeros of the doubles, which are the same number and have different texts. -/
lemma same_zeros (b b' : Bool) :
    (defined (.number (.real (.zero b)))).Same (.defined (.number (.real (.zero b')))) := by
  have hzero : (Number.real (.zero b)).same (.real (.zero b')) = true := by
    cases b <;> cases b' <;> rfl
  exact (Paired.defined ((Json.Paired.number hzero).same trivial trivial)).same

/-- An operator has the same results on all values that are the same exactly if it is not `+`. -/
theorem binary_respects_same_iff (op : BinaryOperator) :
    (∀ l l' r r' : Value, l.Same l' → r.Same r' → (binary op l r).Same (binary op l' r')) ↔
      op ≠ .add := by
  refine ⟨?_, fun hop l l' r r' hl hr => binary_same hl hr hop⟩
  rintro hrespects rfl
  have hempty : (defined (.string "")).Same (.defined (.string "")) := same_string_iff.mpr rfl
  have htexts := hrespects _ _ _ _ hempty (same_zeros false true)
  rw [binary_same_iff hempty (same_zeros false true)] at htexts
  exact absurd htexts (by decide)

/-! ### Unary operators -/

/-- Unary operators write nothing out, and their results are identical. -/
theorem unary_same (op : UnaryOperator) {a b : Value} (h : a.Same b) :
    (unary op a).Same (unary op b) := by
  cases h.pair with
  | undefined => exact Paired.undefined.same
  | error cause => exact same_error cause
  | defined hab =>
    cases op with
    | not =>
      cases hab.pair with
      | bool b => exact .refl (hasDistinctKeys_defined.mpr trivial)
      | _ => exact same_error _
    | neg =>
      cases hab.pair with
      | @number m n hmn =>
        rw [unary, unary, Number.toDecimal_same hmn]
        refine .refl ?_
        cases n.toDecimal with
        | error cause => exact hasDistinctKeys_error cause
        | ok a =>
          simp only [bind, Except.bind]
          cases Number.ofDecimal a.neg with
          | error cause => exact hasDistinctKeys_error cause
          | ok number => exact hasDistinctKeys_defined.mpr trivial
      | _ => exact same_error _

end Value

/-! ### Functions -/

namespace Standard

/-- The value whose text a standard function makes its result: the number of
`standard.numberToString`. -/
def printed? (name : String) : List Value → Option Json
  | [.defined (.number n)] => if name = "standard.numberToString" then some (.number n) else none
  | _ => none

section Arguments

variable {x y : Option Value} (h : Option.Rel Value.Same x y)

include h

/-- A count of characters to disclose is read as an unsigned integer. -/
lemma disclosed_same : disclosed x = disclosed y := by
  cases h with
  | none => rfl
  | some hvalue =>
    cases hvalue.pair with
    | defined hab =>
      have hcount := hab.toUnsigned?_eq
      simp only [disclosed, Value.json?, Option.bind_some, hcount]
    | _ => rfl

/-- What stands for a hidden character is a string or missing. -/
lemma replacement_same : replacement x = replacement y := by
  cases h with
  | none => rfl
  | some hvalue =>
    cases hvalue.pair with
    | defined hab => cases hab.pair <;> rfl
    | _ => rfl

end Arguments

/-! Functions of one argument refuse more of them, whatever these are. -/

section Arity

variable (x y : Value) (rest : List Value)

/-- A second argument is refused. -/
lemma length_of_two :
    length (x :: y :: rest) = arityMismatch "standard.length" "1" (rest.length + 2) := by
  cases x with
  | defined json => cases json <;> rfl
  | _ => rfl

lemma numberToString_of_two :
    numberToString (x :: y :: rest)
      = arityMismatch "standard.numberToString" "1" (rest.length + 2) := by
  cases x with
  | defined json => cases json <;> rfl
  | _ => rfl

lemma printed?_of_two (name : String) : printed? name (x :: y :: rest) = none := by
  cases x with
  | defined json => cases json <;> rfl
  | _ => rfl

end Arity

/-- What is no string cannot be blackened. -/
lemma blacken_of_ne {text : Value} (h : ∀ s, text ≠ .defined (.string s))
    (options : List Value) :
    blacken (text :: options)
      = if 4 < options.length + 1 then arityMismatch "filter.blacken" "1 to 4" (options.length + 1)
        else .mismatch ("filter.blacken expects a string, got " ++ text.kind) := by
  match text with
  | .defined (.string s) => exact absurd rfl (h s)
  | .undefined | .error _ | .defined .null | .defined (.bool _) | .defined (.number _)
  | .defined (.array _) | .defined (.object _) => rfl

lemma hasDistinctKeys_blacken (arguments : List Value) : (blacken arguments).HasDistinctKeys := by
  have hfailure := Value.hasDistinctKeys_error
  cases arguments with
  | nil => exact hfailure _
  | cons text options =>
    by_cases htext : ∃ s, text = .defined (.string s)
    · obtain ⟨s, rfl⟩ := htext
      simp only [blacken]
      split
      · exact hfailure _
      · cases disclosed options[0]? with
        | error cause => exact hfailure cause
        | ok left =>
          cases disclosed options[1]? with
          | error cause => exact hfailure cause
          | ok right =>
            cases replacement options[2]? with
            | error cause => exact hfailure cause
            | ok hidden => exact Value.hasDistinctKeys_defined.mpr trivial
    · rw [blacken_of_ne (not_exists.mp htext)]
      split <;> exact hfailure _

section Functions

variable {xs ys : List Value} (h : List.Forall₂ Value.Same xs ys)

include h

/-- Lengths do not depend on the order of members. -/
lemma length_same : (length xs).Same (length ys) := by
  have hcount {m n : Nat} (hmn : m = n) :
      (Value.defined (.ofNat m)).Same (.defined (.ofNat n)) :=
    hmn ▸ .refl (Value.hasDistinctKeys_defined.mpr trivial)
  match h with
  | .nil => exact Value.same_error _
  | .cons hx .nil =>
    cases hx.pair with
    | undefined | error _ => exact Value.same_error _
    | defined hab =>
      cases hab.pair with
      | string s => exact hcount rfl
      | array hitems => exact hcount hitems.length_eq
      | object _ _ _ =>
        have hsame := hab.same
        rw [Json.same, Bool.and_eq_true, beq_iff_eq] at hsame
        exact hcount hsame.1
      | _ => exact Value.same_error _
  | .cons _ (.cons _ hrest) =>
    rw [length_of_two, length_of_two, hrest.length_eq]
    exact Value.same_error _

/-- The text of a number is the same exactly where the number is written the same. -/
lemma numberToString_same_iff :
    (numberToString xs).Same (numberToString ys) ↔
      (printed? "standard.numberToString" xs).map Json.render
        = (printed? "standard.numberToString" ys).map Json.render := by
  match h with
  | .nil => exact iff_of_true (Value.same_error _) rfl
  | .cons hx .nil =>
    cases hx.pair with
    | undefined | error _ => exact iff_of_true (Value.same_error _) rfl
    | defined hab =>
      cases hab.pair with
      | number hmn =>
        exact Value.same_string_iff.trans (by simp [printed?, Json.render, Json.compact])
      | _ => exact iff_of_true (Value.same_error _) rfl
  | .cons _ (.cons _ hrest) =>
    rw [numberToString_of_two, numberToString_of_two, printed?_of_two, printed?_of_two,
      hrest.length_eq]
    exact iff_of_true (Value.same_error _) rfl

/-- Blackening takes a text and counts, and neither shows member order or the sign of a
zero. -/
lemma blacken_same : (blacken xs).Same (blacken ys) := by
  suffices hblacken : blacken xs = blacken ys by
    rw [hblacken]
    exact .refl (hasDistinctKeys_blacken ys)
  cases h with
  | nil => rfl
  | @cons x y options options' hx hrest =>
    by_cases htext : ∃ s, x = .defined (.string s)
    · obtain ⟨s, rfl⟩ := htext
      cases hx.pair with
      | defined hab =>
        cases hab.pair with
        | string s =>
          simp only [blacken, List.length_cons, hrest.length_eq,
            disclosed_same (forall₂_getElem? hrest _), replacement_same (forall₂_getElem? hrest _)]
    · have hother (s : String) : y ≠ .defined (.string s) := by
        rintro rfl
        cases hx.pair with
        | defined hab =>
          cases hab.pair
          exact htext ⟨s, rfl⟩
      rw [blacken_of_ne (not_exists.mp htext), blacken_of_ne hother, hrest.length_eq, hx.kind_eq]

/-- Replacing hands its second argument on. -/
lemma replace_same : (replace xs).Same (replace ys) := by
  match h with
  | .nil => exact Value.same_error _
  | .cons _ .nil => exact Value.same_error _
  | .cons _ (.cons hy .nil) => exact hy
  | .cons _ (.cons _ (.cons _ hrest)) =>
    simp only [replace, List.length_cons, hrest.length_eq]
    exact Value.same_error _

end Functions

end Standard

namespace FunctionRegistry

/-- The standard functions by their names. -/
lemma standard_call (name : String) (arguments : List Value) :
    standard.call name arguments
      = if name = "standard.length" then Standard.length arguments
        else if name = "standard.numberToString" then Standard.numberToString arguments
        else if name = "filter.blacken" then Standard.blacken arguments
        else if name = "filter.replace" then Standard.replace arguments
        else .error (.unresolved .function name) := by
  rw [call, standard]
  split_ifs with h₁ h₂ h₃ h₄
  · rw [h₁]; rfl
  · rw [h₂]; rfl
  · rw [h₃]; rfl
  · rw [h₄]; rfl
  · simp [List.lookup_cons, beq_false_of_ne, h₁, h₂, h₃, h₄]

section Calls

variable {xs ys : List Value} (h : List.Forall₂ Value.Same xs ys)

include h

/-- Only `standard.numberToString` writes something out. -/
lemma call_same {name : String} (hname : name ≠ "standard.numberToString") :
    (standard.call name xs).Same (standard.call name ys) := by
  rw [standard_call, standard_call, if_neg hname, if_neg hname]
  split_ifs
  · exact Standard.length_same h
  · exact Standard.blacken_same h
  · exact Standard.replace_same h
  · exact Value.same_error _

/-- A standard function has the same results exactly if what it writes out has one text. -/
theorem call_same_iff (name : String) :
    (standard.call name xs).Same (standard.call name ys) ↔
      (Standard.printed? name xs).map Json.render
        = (Standard.printed? name ys).map Json.render := by
  by_cases hname : name = "standard.numberToString"
  · subst hname
    rw [standard_call, standard_call]
    exact Standard.numberToString_same_iff h
  · have hnothing (arguments : List Value) : Standard.printed? name arguments = none := by
      unfold Standard.printed?
      split
      · exact if_neg hname
      · rfl
    rw [hnothing, hnothing]
    exact iff_of_true (call_same h hname) rfl

end Calls

/-- A standard function has the same results on all arguments that are the same exactly if it
does not write out a number. -/
theorem call_respects_same_iff (name : String) :
    (∀ xs ys, List.Forall₂ Value.Same xs ys →
      (standard.call name xs).Same (standard.call name ys)) ↔
      name ≠ "standard.numberToString" := by
  refine ⟨?_, fun hname xs ys h => call_same h hname⟩
  rintro hrespects rfl
  have hzeros : List.Forall₂ Value.Same [.defined (.number (.real (.zero false)))]
      [.defined (.number (.real (.zero true)))] := .cons (Value.same_zeros false true) .nil
  have htexts := hrespects _ _ hzeros
  rw [call_same_iff hzeros] at htexts
  exact absurd htexts (by decide)

end FunctionRegistry

end Verdict
