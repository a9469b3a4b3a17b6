/-
Blackened texts.

A blackened text shows its first and its last characters and nothing else: texts of one length
that agree there are blackened to the same text.  The counts are words of 64 bits, and as long
as their sum is one too, every place that is computed lies in the text.

* `Standard.slice?`, `Standard.checkedBlackened?`: blackening with every access checked.
* `Standard.checkedBlackened?_eq`: no access fails.
* `Standard.eq_of_disclosed`, `Standard.blackened_eq_of_disclosed`: what is shown determines
  the result.
* `Standard.blacken_eq`: the function on its arguments.
* `Standard.blacken_reveals_disclosed`: what a call reveals.
-/
import Mathlib
import Verdict.Function.Standard

namespace Verdict
namespace Standard

/-! ### Checked accesses -/

/-- The characters from one place up to another, if the places are in the text and in this
order. -/
def slice? (text : List Char) (start stop : Nat) : Option (List Char) :=
  if start ≤ stop ∧ stop ≤ text.length then some ((text.take stop).drop start) else none

/-- The sum of two words of 64 bits, if it is one. -/
def addWords? (m n : Nat) : Option Nat := if m + n < 2 ^ 64 then some (m + n) else none

/-- The difference of two words, if it does not go below zero. -/
def subWords? (m n : Nat) : Option Nat := if n ≤ m then some (m - n) else none

/-- Blackening with every sum, every difference and every access checked. -/
def checkedBlackened? (text : List Char) (left right : Nat) (replacement : List Char) :
    Option (List Char) := do
  if text.length ≤ (← addWords? left right) then return text
  let front ← slice? text 0 left
  let stop ← subWords? text.length right
  let back ← slice? text stop text.length
  return front ++ (List.replicate (stop - left) replacement).flatten ++ back

variable {left right : Nat}

/-- Nothing overflows, and no access is out of range. -/
theorem checkedBlackened?_eq (hfit : left + right < 2 ^ 64) (text replacement : List Char) :
    checkedBlackened? text left right replacement
      = some (blackened text left right replacement) := by
  rw [checkedBlackened?, blackened, addWords?, if_pos hfit]
  by_cases hcovered : text.length ≤ left + right
  · simp [hcovered]
  · have hfront : slice? text 0 left = some (text.take left) := by
      rw [slice?, if_pos ⟨Nat.zero_le _, by omega⟩, List.drop_zero]
    have hstop : subWords? text.length right = some (text.length - right) := by
      rw [subWords?, if_pos (by omega)]
    have hback : slice? text (text.length - right) text.length
        = some (text.drop (text.length - right)) := by
      rw [slice?, if_pos ⟨by omega, le_rfl⟩, List.take_length]
    simp [hcovered, hfront, hstop, hback]

/-! ### What is shown -/

section Disclosed

variable {s t : List Char} (hlength : s.length = t.length)
  (hfirst : s.take (min left s.length) = t.take (min left s.length))
  (hlast : s.drop (s.length - min right s.length) = t.drop (s.length - min right s.length))

include hlength hfirst hlast

/-- Where the two ends cover the text, they determine it. -/
lemma eq_of_disclosed (hcovered : s.length ≤ left + right) : s = t := by
  refine List.ext_getElem? fun i => ?_
  by_cases hi : i < min left s.length
  · rw [← List.getElem?_take_of_lt hi, hfirst, List.getElem?_take_of_lt hi]
  · by_cases hin : i < s.length
    · obtain ⟨k, rfl⟩ := Nat.exists_eq_add_of_le
        (show s.length - min right s.length ≤ i by omega)
      rw [← List.getElem?_drop, hlast, List.getElem?_drop]
    · rw [List.getElem?_eq_none (by omega), List.getElem?_eq_none (by omega)]

/-- The two ends determine the blackened text. -/
theorem blackened_eq_of_disclosed (replacement : List Char) :
    blackened s left right replacement = blackened t left right replacement := by
  by_cases hcovered : s.length ≤ left + right
  · rw [eq_of_disclosed hlength hfirst hlast hcovered]
  · rw [min_eq_left (by omega)] at hfirst hlast
    rw [blackened, blackened, if_neg hcovered, if_neg (hlength ▸ hcovered), ← hlength, hfirst,
      hlast]

end Disclosed

lemma blackened_of_lt {text : List Char} (h : left + right < text.length)
    (replacement : List Char) :
    blackened text left right replacement = text.take left ++
      (List.replicate (text.length - (left + right)) replacement).flatten ++
      text.drop (text.length - right) := by
  rw [blackened, if_neg (by omega), show text.length - right - left
    = text.length - (left + right) by omega]

/-! ### The function -/

lemma disclosed_ofNat {n : Nat} (h : n < 2 ^ 64) :
    disclosed (some (.defined (.ofNat n))) = .ok n := by
  have hrange : 0 ≤ (n : Int) ∧ (n : Int) ≤ Number.greatestUnsigned := by
    rw [Number.greatestUnsigned]
    omega
  simp [disclosed, Value.json?, Json.toUnsigned?, Json.ofNat, Json.toNumber?,
    Number.toUnsigned?, hrange]

/-- With options that it can read the function gives a text. -/
lemma blacken_eq {options : List Value} {hidden : String} (hcount : options.length ≤ 3)
    (hleft : disclosed options[0]? = .ok left) (hright : disclosed options[1]? = .ok right)
    (hhidden : replacement options[2]? = .ok hidden) (s : String) :
    FunctionRegistry.standard.call "filter.blacken" (.defined (.string s) :: options)
      = .defined (.string (String.ofList (blackened s.toList left right hidden.toList))) := by
  have hcall : FunctionRegistry.standard.call "filter.blacken" (.defined (.string s) :: options)
      = blacken (.defined (.string s) :: options) := rfl
  have harity : ¬ 4 < (Value.defined (.string s) :: options).length := by
    rw [List.length_cons]
    omega
  simp only [hcall, blacken, harity, if_false, hleft, hright, hhidden]
  rfl

/-- Of a text of `n` characters a call of `filter.blacken` reveals the first `left` and the last
`right`, or all of them if there are no more.  Texts of one length that agree there have the same
result, and what has to be hidden stands as one replacement for each character between the two
ends. -/
theorem blacken_reveals_disclosed {options : List Value} {hidden : String}
    (hcount : options.length ≤ 3) (hleft : disclosed options[0]? = .ok left)
    (hright : disclosed options[1]? = .ok right)
    (hhidden : replacement options[2]? = .ok hidden) (hfit : left + right < 2 ^ 64)
    (s t : String) (hlength : s.length = t.length) :
    let call (text : String) : Value :=
      FunctionRegistry.standard.call "filter.blacken" (.defined (.string text) :: options)
    let n := s.length
    (s.toList.take (min left n) = t.toList.take (min left n) →
      s.toList.drop (n - min right n) = t.toList.drop (n - min right n) → call s = call t) ∧
    ∃ out : String, call s = .defined (.string out) ∧
      checkedBlackened? s.toList left right hidden.toList = some out.toList ∧
      (left + right < n → out.toList = s.toList.take left ++
        (List.replicate (n - (left + right)) hidden.toList).flatten ++
        s.toList.drop (n - right)) ∧
      (n ≤ left + right → out = s) := by
  intro call n
  have hcall (text : String) : call text
      = .defined (.string (String.ofList (blackened text.toList left right hidden.toList))) :=
    blacken_eq hcount hleft hright hhidden text
  have hn : s.toList.length = n := String.length_toList
  have hsame : s.toList.length = t.toList.length := by
    rw [String.length_toList, String.length_toList, hlength]
  refine ⟨fun hfirst hlast => ?_, _, hcall s, ?_, fun hlt => ?_, fun hcovered => ?_⟩
  · rw [← hn] at hfirst hlast
    rw [hcall, hcall, blackened_eq_of_disclosed hsame hfirst hlast]
  · rw [String.toList_ofList]
    exact checkedBlackened?_eq hfit s.toList hidden.toList
  · rw [String.toList_ofList, blackened_of_lt (hn ▸ hlt), hn]
  · rw [blackened, if_pos (hn ▸ hcovered), String.ofList_toList]

/-- Two words of five characters that differ in the hidden second and third one. -/
theorem blacken_reveals_disclosed_accents :
    let options : List Value :=
      [.defined (.ofNat 1), .defined (.ofNat 2), .defined (.string "**")]
    let call (text : String) : Value :=
      FunctionRegistry.standard.call "filter.blacken" (.defined (.string text) :: options)
    call "dépôt" = call "darôt" ∧ call "dépôt" = .defined (.string "d****ôt") := by
  intro options call
  have hleft : disclosed options[0]? = .ok 1 := disclosed_ofNat (by decide)
  have hright : disclosed options[1]? = .ok 2 := disclosed_ofNat (by decide)
  obtain ⟨htwo, out, hout, -, hlt, -⟩ :=
    blacken_reveals_disclosed (show options.length ≤ 3 by decide) hleft hright
      (show replacement options[2]? = .ok "**" from rfl) (by decide) "dépôt" "darôt" rfl
  have hshown : out = "d****ôt" := String.toList_inj.mp ((hlt (by decide)).trans (by decide))
  exact ⟨htwo (by decide) (by decide), hshown ▸ hout⟩

end Standard
end Verdict
