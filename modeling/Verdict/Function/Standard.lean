/-
The standard functions.

* `standard.length`: characters of a string, elements of an array, members of
  an object.
* `standard.numberToString`: the text of a number.
* `filter.blacken`: a text with all but its ends replaced.
* `filter.replace`: the second of two arguments.
* `FunctionRegistry.standard`: the registry of these.
-/
import Verdict.Function.Registry

namespace Verdict
namespace Standard

/-- The failure of a call with a wrong number of arguments. -/
def arityMismatch (name expected : String) (got : Nat) : Value :=
  .mismatch (name ++ " expects " ++ expected ++ " argument(s), got " ++ toString got)

/-- Characters of a string, elements of an array, members of an object. -/
def length : Function
  | [.defined (.string s)] => .defined (.ofNat s.length)
  | [.defined (.array items)] => .defined (.ofNat items.length)
  | [.defined (.object members)] => .defined (.ofNat members.length)
  | [other] => .mismatch ("standard.length expects a string, array or object, got " ++ other.kind)
  | arguments => arityMismatch "standard.length" "1" arguments.length

/-- The text of a number. -/
def numberToString : Function
  | [.defined (.number n)] => .defined (.string n.text)
  | [other] => .mismatch ("standard.numberToString expects a number, got " ++ other.kind)
  | arguments => arityMismatch "standard.numberToString" "1" arguments.length

/-- The text with every character replaced but the first `left` and the last
`right`; a text that these cover stays as it is.  The counts are words of 64 bits,
and only while their sum is one too (`left + right < 2 ^ 64`) is this the function
on words: here the sum has no bound, there it overflows. -/
def blackened (text : List Char) (left right : Nat) (replacement : List Char) : List Char :=
  if text.length ≤ left + right then text
  else
    text.take left ++
      (List.replicate (text.length - right - left) replacement).flatten ++
      text.drop (text.length - right)

/-- A count of characters to disclose; absent is none. -/
def disclosed (argument : Option Value) : Except EvalError Nat :=
  match argument with
  | none => .ok 0
  | some value =>
    match value.json?.bind Json.toUnsigned? with
    | some n => .ok n
    | none => .error
        (.typeMismatch "filter.blacken disclosure counts must be non-negative integers")

/-- What stands for a hidden character; absent is an X. -/
def replacement (argument : Option Value) : Except EvalError String :=
  match argument with
  | none => .ok "X"
  | some (.defined (.string s)) => .ok s
  | some other => .error
      (.typeMismatch ("filter.blacken replacement must be a string, got " ++ other.kind))

/-- `filter.blacken(text, discloseLeft = 0, discloseRight = 0, replacement = "X")`. -/
def blacken : Function := fun arguments =>
  match arguments with
  | [] => arityMismatch "filter.blacken" "1 to 4" 0
  | text :: options =>
    if 4 < arguments.length then arityMismatch "filter.blacken" "1 to 4" arguments.length
    else
      match text with
      | .defined (.string s) =>
        .ofExcept do
          let left ← disclosed options[0]?
          let right ← disclosed options[1]?
          let hidden ← replacement options[2]?
          return .string (String.ofList (blackened s.toList left right hidden.toList))
      | other => .mismatch ("filter.blacken expects a string, got " ++ other.kind)

/-- `filter.replace(value, replacement)`. -/
def replace : Function
  | [_, replacement] => replacement
  | arguments => arityMismatch "filter.replace" "2" arguments.length

end Standard

/-- The standard functions under their full names. -/
def FunctionRegistry.standard : FunctionRegistry :=
  ⟨[("standard.length", Standard.length),
    ("standard.numberToString", Standard.numberToString),
    ("filter.blacken", Standard.blacken),
    ("filter.replace", Standard.replace)]⟩

end Verdict
