/-
The text of numbers.

The grammar of numbers takes a text apart into a sign, digits before and behind a point, and a
power of ten.  They denote a rational, and reading takes the integer that it is or the double
nearest to it.  The text of a number is written by that grammar and denotes the value of the
number, so numbers are read back from their texts.

* `Json.Reader.Numeral`, `Json.Reader.numeral?`: the parts of a number, and taking a text apart.
* `Json.Reader.rational?`: the rational that a text denotes.
* `Json.Reader.numeral?_text`: what is put together from parts is taken apart into them.
* `Json.Reader.numberOf?_eq_some`: what reading makes of the rational.
* `Number.rational?_text`: the text of a number denotes its value.
* `Number.number?_text`: numbers are read back from their texts.
-/
import Verdict.Json.Reader
import Verdict.Proofs.Number.Decimal

namespace Verdict
namespace Json.Reader

/-- The parts of a number: its sign, the digits before and behind the point, the power of ten. -/
structure Numeral where
  negative : Bool
  whole : List Char
  fraction : Option (List Char)
  exponent : Option ℤ

/-- The rational of the parts, without its sign. -/
def Numeral.magnitude (m : Numeral) : ℚ :=
  digitsValue (m.whole ++ m.fraction.getD [])
    * 10 ^ (m.exponent.getD 0 - (m.fraction.getD []).length)

/-- The rational that the parts denote. -/
def Numeral.value (m : Numeral) : ℚ := (if m.negative then -1 else 1) * m.magnitude

/-- The sign at the front and the rest. -/
def signPart : List Char → Bool × List Char
  | '-' :: rest => (true, rest)
  | cs => (false, cs)

/-- The parts of the number at the front of a text, and the rest. -/
def numeral? (cs : List Char) : Option (Numeral × List Char) := do
  let (negative, cs) := signPart cs
  let (whole, cs) ← wholePart? cs
  let (fraction, cs) ← fractionPart? cs
  let (exponent, cs) ← exponentPart? cs
  return (⟨negative, whole, fraction, exponent⟩, cs)

lemma signPart_of_ne {cs : List Char} (h : ∀ rest, cs ≠ '-' :: rest) :
    signPart cs = (false, cs) := by
  rw [signPart]
  exact h

/-- Reading takes a text apart and looks only at the parts. -/
lemma number?_eq (cs : List Char) : number? cs = (numeral? cs).bind fun (m, rest) =>
    (numberOf? m.negative m.whole m.fraction m.exponent).map fun n => (n, rest) := by
  have hsign : number? cs = (do
      let (whole, rest) ← wholePart? (signPart cs).2
      let (fraction, rest) ← fractionPart? rest
      let (exponent, rest) ← exponentPart? rest
      return (← numberOf? (signPart cs).1 whole fraction exponent, rest)) := by
    unfold number?
    split
    · rename_i negative rest hsign
      split at hsign
      · cases hsign
        rfl
      · rename_i hne
        cases hsign
        rw [signPart_of_ne (by simpa using hne)]
  rw [hsign, numeral?]
  simp only [Option.bind_eq_bind, Option.pure_def, Option.bind_assoc, Option.bind_some,
    Option.map_eq_bind, Function.comp_def]

/-- The rational that a text as a whole denotes. -/
def rational? (cs : List Char) : Option ℚ :=
  match numeral? cs with
  | some (m, []) => some m.value
  | _ => none

/-! ### Digits -/

/-- All characters are digits. -/
def IsDigits (ds : List Char) : Prop := ∀ c ∈ ds, c.isDigit = true

/-- The text does not begin with a digit. -/
def NoDigit (cs : List Char) : Prop := ∀ c ∈ cs.head?, c.isDigit = false

variable {ds rest : List Char}

lemma IsDigits.append {es : List Char} (hds : IsDigits ds) (hes : IsDigits es) :
    IsDigits (ds ++ es) := fun c hc => (List.mem_append.mp hc).elim (hds c) (hes c)

lemma isDigits_zeros (n : ℕ) : IsDigits (List.replicate n '0') := by
  intro c hc
  rw [List.eq_of_mem_replicate hc]
  rfl

lemma isDigits_toDigits (n : ℕ) : IsDigits (Nat.toDigits 10 n) :=
  fun _ => Nat.isDigit_of_mem_toDigits (by norm_num) le_rfl

lemma digits_append (hds : IsDigits ds) (hrest : NoDigit rest) :
    digits (ds ++ rest) = (ds, rest) := by
  rw [digits, List.takeWhile_append_of_pos hds, List.dropWhile_append_of_pos hds]
  cases rest with
  | nil => simp
  | cons c cs =>
    have hc : c.isDigit = false := hrest c rfl
    simp [hc]

lemma digitsValue_append (ds es : List Char) :
    digitsValue (ds ++ es) = digitsValue ds * 10 ^ es.length + digitsValue es := by
  change Nat.ofDigitChars 10 (ds ++ es) 0 = _
  rw [Nat.ofDigitChars_append, Nat.ofDigitChars_eq_ofDigitChars_zero, mul_comm]
  rfl

@[simp] lemma digitsValue_zeros (n : ℕ) : digitsValue (List.replicate n '0') = 0 := by
  change Nat.ofDigitChars 10 (List.replicate n '0') 0 = 0
  rw [Nat.ofDigitChars_replicate_zero, mul_zero]

lemma digitsValue_zeros_append (n : ℕ) (ds : List Char) :
    digitsValue (List.replicate n '0' ++ ds) = digitsValue ds := by
  rw [digitsValue_append, digitsValue_zeros, zero_mul, zero_add]

lemma digitsValue_append_zeros (ds : List Char) (n : ℕ) (power : ℤ) :
    (digitsValue (ds ++ List.replicate n '0') : ℚ) * 10 ^ power
      = digitsValue ds * 10 ^ (n + power) := by
  rw [digitsValue_append, digitsValue_zeros, List.length_replicate, add_zero,
    zpow_add₀ (by norm_num), zpow_natCast]
  push_cast
  ring

@[simp] lemma digitsValue_toDigits (n : ℕ) : digitsValue (Nat.toDigits 10 n) = n :=
  Nat.ofDigitChars_ten_toDigits

/-- A positive natural is not written with a zero in front. -/
lemma head?_toDigits {n : ℕ} (hn : 0 < n) : (Nat.toDigits 10 n).head? ≠ some '0' := by
  induction n using Nat.strong_induction_on with
  | h n ih =>
    rw [Nat.toDigits_eq_if (by norm_num)]
    split_ifs with hsmall
    · simpa [Nat.digitChar_eq_zero] using hn.ne'
    · rw [List.head?_append_of_ne_nil _ Nat.toDigits_ne_nil]
      exact ih (n / 10) (by omega) (by omega)

/-! ### The parts of a text -/

/-- Digits that may stand before the point: one zero, or no zero in front. -/
def IsWhole (ds : List Char) : Prop :=
  ds = ['0'] ∨ IsDigits ds ∧ ds ≠ [] ∧ ds.head? ≠ some '0'

lemma isWhole_toDigits (n : ℕ) : IsWhole (Nat.toDigits 10 n) := by
  rcases n.eq_zero_or_pos with rfl | hn
  · exact .inl rfl
  · exact .inr ⟨isDigits_toDigits n, Nat.toDigits_ne_nil, head?_toDigits hn⟩

/-- The point and the digits behind it. -/
def pointText : Option (List Char) → List Char
  | none => []
  | some ds => '.' :: ds

/-- The power of ten with its sign. -/
def powerText : Option ℤ → List Char
  | none => []
  | some k => 'e' :: (if k < 0 then '-' else '+') :: Nat.toDigits 10 k.natAbs

/-- The parts put together. -/
def Numeral.text (m : Numeral) : List Char :=
  (if m.negative then ['-'] else [])
    ++ (m.whole ++ (pointText m.fraction ++ powerText m.exponent))

/-- Parts that the grammar takes. -/
structure Numeral.IsWritten (m : Numeral) : Prop where
  whole : IsWhole m.whole
  fraction : ∀ ds ∈ m.fraction, IsDigits ds ∧ ds ≠ []

lemma signPart_append (negative : Bool) (hds : IsWhole ds) (rest : List Char) :
    signPart ((if negative then ['-'] else []) ++ (ds ++ rest)) = (negative, ds ++ rest) := by
  cases negative with
  | true => rfl
  | false =>
    cases ds with
    | nil => simp [IsWhole] at hds
    | cons c cs =>
      refine signPart_of_ne ?_
      rintro rest' ⟨⟩
      rcases hds with h | ⟨hdigits, -⟩
      · simp at h
      · exact absurd (hdigits '-' List.mem_cons_self) (by decide)

lemma wholePart?_append (hds : IsWhole ds) (hrest : NoDigit rest) :
    wholePart? (ds ++ rest) = some (ds, rest) := by
  rcases hds with rfl | ⟨hdigits, hne, hhead⟩
  · rfl
  · have hsplit := digits_append hdigits hrest
    cases ds with
    | nil => exact absurd rfl hne
    | cons c cs =>
      have hc : c ≠ '0' := fun h => hhead (congrArg some h)
      rw [List.cons_append] at hsplit ⊢
      rw [wholePart?]
      · simp [hsplit]
      · rintro rest' ⟨⟩
        exact hc rfl

lemma exponentPart?_powerText (exponent : Option ℤ) :
    exponentPart? (powerText exponent) = some (exponent, []) := by
  cases exponent with
  | none => rfl
  | some k =>
    have hdigits : digits (Nat.toDigits 10 k.natAbs) = (Nat.toDigits 10 k.natAbs, []) := by
      simpa using digits_append (isDigits_toDigits k.natAbs) (by simp [NoDigit] : NoDigit [])
    have hne : (Nat.toDigits 10 k.natAbs).isEmpty = false := by simp [Nat.toDigits_ne_nil]
    rw [powerText]
    split_ifs with hk
    · simp [exponentPart?, hdigits, hne, abs_of_neg hk]
    · simp [exponentPart?, hdigits, hne, abs_of_nonneg (not_lt.mp hk)]

lemma noDigit_powerText (exponent : Option ℤ) : NoDigit (powerText exponent) := by
  cases exponent <;> simp [NoDigit, powerText]

lemma noDigit_pointText (fraction : Option (List Char)) (exponent : Option ℤ) :
    NoDigit (pointText fraction ++ powerText exponent) := by
  cases fraction with
  | none => exact noDigit_powerText exponent
  | some ds => simp [NoDigit, pointText]

lemma fractionPart?_pointText {fraction : Option (List Char)}
    (hfraction : ∀ ds ∈ fraction, IsDigits ds ∧ ds ≠ []) (exponent : Option ℤ) :
    fractionPart? (pointText fraction ++ powerText exponent)
      = some (fraction, powerText exponent) := by
  cases fraction with
  | none => cases exponent <;> rfl
  | some ds =>
    obtain ⟨hds, hne⟩ := hfraction ds rfl
    have hsplit := digits_append hds (noDigit_powerText exponent)
    simp [pointText, fractionPart?, hsplit, hne]

/-- What is put together from parts is taken apart into them. -/
theorem numeral?_text {m : Numeral} (hm : m.IsWritten) : numeral? m.text = some (m, []) := by
  rw [Numeral.text, numeral?, signPart_append _ hm.whole]
  simp only [wholePart?_append hm.whole (noDigit_pointText _ _),
    fractionPart?_pointText hm.fraction, exponentPart?_powerText, Option.bind_eq_bind,
    Option.bind_some, Option.pure_def]

lemma rational?_text {m : Numeral} (hm : m.IsWritten) : rational? m.text = some m.value := by
  rw [rational?, numeral?_text hm]

lemma number?_text {m : Numeral} (hm : m.IsWritten) : number? m.text
    = (numberOf? m.negative m.whole m.fraction m.exponent).map fun n => (n, []) := by
  rw [number?_eq, numeral?_text hm]
  rfl

/-! ### The number of a rational -/

/-- With a point or a power of ten, reading takes the nearest double. -/
lemma numberOf?_real (m : Numeral) (hm : m.fraction.isSome ∨ m.exponent.isSome) :
    numberOf? m.negative m.whole m.fraction m.exponent
      = (Binary64.nearest? m.negative m.magnitude).map .real := by
  have hreal : (m.fraction.isNone && m.exponent.isNone) = false := by
    cases hfraction : m.fraction <;> cases hexponent : m.exponent <;> simp_all
  simp only [numberOf?, hreal, Bool.false_eq_true, if_false, Binary64.ofDecimal?_eq,
    Numeral.magnitude]

end Json.Reader

/-! ### The text of a double -/

namespace Number

open Json.Reader

/-- The text puts together parts with a point or a power of ten that say `± ds * 10 ^ power`. -/
def IsTextOf (cs : List Char) (negative : Bool) (ds : List Char) (power : ℤ) : Prop :=
  ∃ m : Numeral, m.IsWritten ∧ m.text = cs ∧ m.negative = negative ∧
    m.magnitude = digitsValue ds * 10 ^ power ∧ (m.fraction.isSome ∨ m.exponent.isSome)

section Layouts

variable {ds : List Char} (hds : IsDigits ds) (hne : ds ≠ []) (negative : Bool) (order : ℤ)

include hds hne

lemma positional_of_neg (horder : order < 0) :
    IsTextOf ((if negative then ['-'] else []) ++ positional ds order) negative ds
      (order - ds.length + 1) := by
  refine ⟨⟨negative, ['0'], some (List.replicate (-order - 1).toNat '0' ++ ds), none⟩,
    ⟨.inl rfl, ?_⟩, ?_, rfl, ?_, .inl rfl⟩
  · rintro es ⟨⟩
    exact ⟨(isDigits_zeros _).append hds, by simp [hne]⟩
  · simp [Numeral.text, positional, horder, pointText, powerText]
  · rw [Numeral.magnitude, Option.getD_some, Option.getD_none,
      show ['0'] = List.replicate 1 '0' from rfl, digitsValue_zeros_append,
      digitsValue_zeros_append, List.length_append, List.length_replicate]
    congr 2
    omega

variable (hhead : ds.head? ≠ some '0')

include hhead

/-- All digits stand before the point. -/
lemma positional_of_long (horder : 0 ≤ order) (hlong : ds.length ≤ (order + 1).toNat) :
    IsTextOf ((if negative then ['-'] else []) ++ positional ds order) negative ds
      (order - ds.length + 1) := by
  refine ⟨⟨negative, ds ++ List.replicate ((order + 1).toNat - ds.length) '0', some ['0'], none⟩,
    ⟨.inr ⟨hds.append (isDigits_zeros _), by simp [hne], ?_⟩, ?_⟩, ?_, rfl, ?_, .inl rfl⟩
  · rwa [List.head?_append_of_ne_nil _ hne]
  · rintro es ⟨⟩
    exact ⟨isDigits_zeros 1, by simp⟩
  · simp [Numeral.text, positional, not_lt.mpr horder, pointText, powerText,
      List.take_of_length_le hlong, List.drop_of_length_le hlong]
  · rw [Numeral.magnitude, Option.getD_some, Option.getD_none,
      show ['0'] = List.replicate 1 '0' from rfl, digitsValue_append_zeros,
      digitsValue_append_zeros, List.length_replicate]
    congr 2
    omega

omit hne in
/-- The point stands among the digits. -/
lemma positional_of_short (horder : 0 ≤ order) (hshort : (order + 1).toNat < ds.length) :
    IsTextOf ((if negative then ['-'] else []) ++ positional ds order) negative ds
      (order - ds.length + 1) := by
  have hdrop : ds.drop (order + 1).toNat ≠ [] := by
    rw [← List.length_pos_iff, List.length_drop]
    omega
  refine ⟨⟨negative, ds.take (order + 1).toNat, some (ds.drop (order + 1).toNat), none⟩,
    ⟨.inr ⟨fun c hc => hds c (List.mem_of_mem_take hc), ?_, ?_⟩, ?_⟩, ?_, rfl, ?_, .inl rfl⟩
  · rw [← List.length_pos_iff, List.length_take]
    omega
  · rwa [List.head?_take, if_neg (by omega)]
  · rintro es ⟨⟩
    exact ⟨fun c hc => hds c (List.mem_of_mem_drop hc), hdrop⟩
  · have htake : min (order + 1).toNat ds.length = (order + 1).toNat := by omega
    simp [Numeral.text, positional, not_lt.mpr horder, pointText, powerText, hdrop, htake]
  · rw [Numeral.magnitude, Option.getD_some, Option.getD_none, List.take_append_drop,
      List.length_drop]
    congr 2
    omega

lemma scientific_isTextOf :
    IsTextOf ((if negative then ['-'] else []) ++ scientific ds order) negative ds
      (order - ds.length + 1) := by
  match ds, hne with
  | [d], _ =>
    refine ⟨⟨negative, [d], none, some order⟩, ⟨.inr ⟨hds, by simp, hhead⟩, by simp⟩, ?_, rfl, ?_,
      .inr rfl⟩
    · simp [Numeral.text, scientific, pointText, powerText]
    · simp [Numeral.magnitude]
  | d :: e :: es, _ =>
    refine ⟨⟨negative, [d], some (e :: es), some order⟩,
      ⟨.inr ⟨fun c hc => hds c (by simp_all), by simp, hhead⟩, ?_⟩, ?_, rfl, ?_, .inl rfl⟩
    · rintro fs ⟨⟩
      exact ⟨fun c hc => hds c (List.mem_cons_of_mem d hc), by simp⟩
    · simp [Numeral.text, scientific, pointText, powerText]
    · simp only [Numeral.magnitude, Option.getD_some, List.length_cons, List.cons_append,
        List.nil_append]
      congr 2
      push_cast
      ring

end Layouts

/-- The text of a double: its sign and one of the two layouts of its shortest decimal. -/
lemma toList_realText (x : Binary64) : (realText x).toList
    = (if x.negative then ['-'] else [])
      ++ (let ds := Nat.toDigits 10 x.shortest.1
          let order := x.shortest.2 + ds.length - 1
          if leastPositional ≤ order ∧ order ≤ greatestPositional then positional ds order
          else scientific ds order) := by
  rw [realText, String.toList_ofList]
  cases x.negative <;> simp

/-- The text of a double says its shortest decimal. -/
lemma realText_isTextOf (x : Binary64) : IsTextOf (realText x).toList x.negative
    (Nat.toDigits 10 x.shortest.1) x.shortest.2 := by
  rw [toList_realText]
  cases hx : x.isZero with
  | true =>
    rw [Binary64.shortest, if_pos hx]
    refine ⟨⟨x.negative, ['0'], some ['0'], none⟩, ⟨.inl rfl, ?_⟩, rfl, rfl, ?_, .inl rfl⟩
    · rintro es ⟨⟩
      exact ⟨isDigits_zeros 1, by simp⟩
    · have hzeros : digitsValue ['0', '0'] = 0 := rfl
      rw [digitsValue_toDigits]
      simp [Numeral.magnitude, hzeros]
  | false =>
    have hds := isDigits_toDigits x.shortest.1
    have hne : Nat.toDigits 10 x.shortest.1 ≠ [] := Nat.toDigits_ne_nil
    have hhead := head?_toDigits (Binary64.shortest_reads_back hx).2.1
    generalize Nat.toDigits 10 x.shortest.1 = ds at hds hne hhead ⊢
    dsimp only
    generalize horder : x.shortest.2 + (ds.length : ℤ) - 1 = order
    have hpower : x.shortest.2 = order - ds.length + 1 := by omega
    rw [hpower]
    by_cases hmoderate : leastPositional ≤ order ∧ order ≤ greatestPositional
    · rw [if_pos hmoderate]
      rcases lt_or_ge order 0 with hneg | hnonneg
      · exact positional_of_neg hds hne x.negative order hneg
      · rcases le_or_gt ds.length (order + 1).toNat with hlong | hshort
        · exact positional_of_long hds hne x.negative order hhead hnonneg hlong
        · exact positional_of_short hds x.negative order hhead hnonneg hshort
    · rw [if_neg hmoderate]
      exact scientific_isTextOf hds hne x.negative order hhead

/-! ### The text of a number -/

lemma exists_numeral (n : Number) : ∃ m : Numeral, m.IsWritten ∧ m.text = n.text.toList ∧
    m.value = n.value ∧
    (n.IsWord → numberOf? m.negative m.whole m.fraction m.exponent = some n) := by
  cases n with
  | integer n =>
    cases n with
    | ofNat k =>
      refine ⟨⟨false, Nat.toDigits 10 k, none, none⟩, ⟨isWhole_toDigits k, by simp⟩, ?_, ?_, ?_⟩
      · change _ = k.repr.toList
        simp [Numeral.text, pointText, powerText, Nat.toList_repr]
      · simp [Numeral.value, Numeral.magnitude, value]
      · rintro ⟨-, hgreatest⟩
        have hgreatest' : (k : ℤ) ≤ greatestUnsigned := hgreatest
        simp [numberOf?, hgreatest']
    | negSucc k =>
      refine ⟨⟨true, Nat.toDigits 10 (k + 1), none, none⟩,
        ⟨isWhole_toDigits (k + 1), by simp⟩, ?_, ?_, ?_⟩
      · change _ = ("-" ++ (k + 1).repr).toList
        simp [Numeral.text, pointText, powerText, Nat.toList_repr]
      · simp [Numeral.value, Numeral.magnitude, value, Int.negSucc_eq]
      · rintro ⟨hleast, -⟩
        rw [Int.negSucc_eq] at hleast ⊢
        have hne : (k : ℤ) + 1 ≠ 0 := by omega
        simp [numberOf?, hne]
        omega
  | real x =>
    obtain ⟨m, hm, htext, hsign, hmagnitude, hreal⟩ := realText_isTextOf x
    rw [digitsValue_toDigits, ← Binary64.decimalMagnitude] at hmagnitude
    refine ⟨m, hm, htext, ?_, fun _ => ?_⟩
    · rw [Numeral.value, hsign, hmagnitude]
      rfl
    · rw [numberOf?_real m hreal, hsign, hmagnitude, Binary64.nearest?_decimalMagnitude]
      rfl

/-- The text of a number denotes its value. -/
theorem rational?_text (n : Number) : rational? n.text.toList = some n.value := by
  obtain ⟨m, hm, htext, hvalue, -⟩ := n.exists_numeral
  rw [← htext, Json.Reader.rational?_text hm, hvalue]

/-- A number is read back from its text. -/
theorem number?_text {n : Number} (hn : n.IsWord) : number? n.text.toList = some (n, []) := by
  obtain ⟨m, hm, htext, -, hback⟩ := n.exists_numeral
  rw [← htext, Json.Reader.number?_text hm, hback hn]
  rfl

end Number
end Verdict
