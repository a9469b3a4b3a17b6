/-
Reading JSON texts.

The reader follows the grammar of the format strictly: no trailing commas, no
leading zeros, no control characters inside strings, surrogates only in pairs.
Containers nested deeper than a limit are refused.

* `Json.tree?`: the value of a text with its members as written, repeated ones
  included.
* `Json.parse?`: the value of a text with repeated members merged.
* `Json.recordTree?`: the value of a text that is read for some fields.  Members
  that are no fields must keep to the grammar, but are not given a value, so
  that their numbers may lie outside every range and their escapes may spell
  half of a pair.
-/
import Verdict.Json.Basic

namespace Verdict
namespace Json
namespace Reader

/-- Drops the blanks that may stand between tokens. -/
def skipBlanks : List Char → List Char :=
  List.dropWhile fun c => c = ' ' || c = '\n' || c = '\t' || c = '\r'

/-! ### Strings -/

def hexValue? (c : Char) : Option Nat :=
  if '0' ≤ c ∧ c ≤ '9' then some (c.toNat - '0'.toNat)
  else if 'a' ≤ c ∧ c ≤ 'f' then some (c.toNat - 'a'.toNat + 10)
  else if 'A' ≤ c ∧ c ≤ 'F' then some (c.toNat - 'A'.toNat + 10)
  else none

/-- The 16-bit unit that four hexadecimal digits spell. -/
def unit? (a b c d : Char) : Option Nat := do
  return (((← hexValue? a) * 16 + (← hexValue? b)) * 16 + (← hexValue? c)) * 16 + (← hexValue? d)

/-- The character that a single 16-bit unit encodes; half of a pair encodes none. -/
def unitChar? (unit : Nat) : Option Char :=
  if 0xD800 ≤ unit ∧ unit ≤ 0xDFFF then none else some (Char.ofNat unit)

/-- The character that a pair of 16-bit units encodes. -/
def pairChar? (high low : Nat) : Option Char :=
  if 0xD800 ≤ high ∧ high ≤ 0xDBFF ∧ 0xDC00 ≤ low ∧ low ≤ 0xDFFF then
    some (Char.ofNat (0x10000 + (high - 0xD800) * 0x400 + (low - 0xDC00)))
  else none

/-- The character that a backslash and this letter stand for. -/
def shortEscape? (c : Char) : Option Char :=
  match c with
  | '"' => some '"'
  | '\\' => some '\\'
  | '/' => some '/'
  | 'b' => some '\x08'
  | 'f' => some '\x0c'
  | 'n' => some '\n'
  | 'r' => some '\r'
  | 't' => some '\t'
  | _ => none

/-- The characters of a string literal up to its closing quote, and the rest. -/
def stringBody : List Char → Option (List Char × List Char)
  | '"' :: rest => some ([], rest)
  | '\\' :: 'u' :: a :: b :: c :: d :: rest =>
    match (unit? a b c d).bind unitChar? with
    | some char => (stringBody rest).map fun (s, r) => (char :: s, r)
    | none =>
      match rest with
      | '\\' :: 'u' :: e :: f :: g :: h :: rest =>
        match (do pairChar? (← unit? a b c d) (← unit? e f g h)) with
        | some char => (stringBody rest).map fun (s, r) => (char :: s, r)
        | none => none
      | _ => none
  | '\\' :: c :: rest =>
    match shortEscape? c with
    | some char => (stringBody rest).map fun (s, r) => (char :: s, r)
    | none => none
  | c :: rest =>
    if c = '\\' ∨ c.toNat < 32 then none
    else (stringBody rest).map fun (s, r) => (c :: s, r)
  | [] => none

/-- A string literal. -/
def literal? : List Char → Option (String × List Char)
  | '"' :: rest => (stringBody rest).map fun (s, r) => (String.ofList s, r)
  | _ => none

/-! ### Numbers -/

/-- The digits at the front and the rest. -/
def digits (cs : List Char) : List Char × List Char :=
  (cs.takeWhile Char.isDigit, cs.dropWhile Char.isDigit)

/-- The value of a string of decimal digits. -/
def digitsValue (ds : List Char) : Nat :=
  ds.foldl (fun n c => 10 * n + (c.toNat - '0'.toNat)) 0

/-- The digits before the point: a zero stands alone. -/
def wholePart? (cs : List Char) : Option (List Char × List Char) :=
  match cs with
  | '0' :: rest => some (['0'], rest)
  | _ =>
    let (ds, rest) := digits cs
    if ds.isEmpty then none else some (ds, rest)

/-- The digits behind the point; `none` inside if there is no point. -/
def fractionPart? : List Char → Option (Option (List Char) × List Char)
  | '.' :: cs =>
    let (ds, rest) := digits cs
    if ds.isEmpty then none else some (some ds, rest)
  | cs => some (none, cs)

/-- The power of ten; `none` inside if there is none. -/
def exponentPart? (cs : List Char) : Option (Option Int × List Char) :=
  let signed (negative : Bool) (cs : List Char) : Option (Option Int × List Char) :=
    let (ds, rest) := digits cs
    if ds.isEmpty then none
    else some (some (if negative then -digitsValue ds else digitsValue ds), rest)
  match cs with
  | 'e' :: '-' :: rest | 'E' :: '-' :: rest => signed true rest
  | 'e' :: '+' :: rest | 'E' :: '+' :: rest => signed false rest
  | 'e' :: rest | 'E' :: rest => signed false rest
  | _ => some (none, cs)

/-- The number of a sign, the digits and the power of ten: an integer if it has
neither point nor power and fits 64 bits, otherwise the nearest double. -/
def numberOf? (negative : Bool) (whole : List Char) (fraction : Option (List Char))
    (exponent : Option Int) : Option Number :=
  let all := whole ++ fraction.getD []
  let power := exponent.getD 0 - (fraction.getD []).length
  let double := (Binary64.ofDecimal? negative (digitsValue all) power).map .real
  if fraction.isNone && exponent.isNone then
    let n : Int := digitsValue whole
    if negative then
      if n ≠ 0 ∧ Number.leastInteger ≤ -n then some (.integer (-n)) else double
    else if n ≤ Number.greatestUnsigned then some (.integer n) else double
  else double

/-- A number. -/
def number? (cs : List Char) : Option (Number × List Char) := do
  let (negative, cs) := match cs with
    | '-' :: rest => (true, rest)
    | _ => (false, cs)
  let (whole, cs) ← wholePart? cs
  let (fraction, cs) ← fractionPart? cs
  let (exponent, cs) ← exponentPart? cs
  return (← numberOf? negative whole fraction exponent, cs)

/-! ### Values -/

/-- One or more elements separated by commas, up to the closing bracket.  The
fuel bounds the number of elements. -/
def elements {α : Type} (close : Char) (element : List Char → Option (α × List Char)) :
    Nat → List Char → Option (List α × List Char)
  | 0, _ => none
  | fuel + 1, cs => do
    let (first, cs) ← element cs
    match skipBlanks cs with
    | ',' :: cs =>
      let (others, cs) ← elements close element fuel cs
      return (first :: others, cs)
    | c :: cs => if c = close then return ([first], cs) else none
    | [] => none

/-- The elements of a container after its opening bracket. -/
def container {α : Type} (close : Char) (element : List Char → Option (α × List Char))
    (fuel : Nat) (cs : List Char) : Option (List α × List Char) :=
  match skipBlanks cs with
  | c :: rest => if c = close then some ([], rest) else elements close element fuel cs
  | [] => none

/-- A member: a name, a colon and a value, which may depend on the name. -/
def member {α : Type} (value : String → List Char → Option (α × List Char)) (cs : List Char) :
    Option ((String × α) × List Char) := do
  let (key, cs) ← literal? (skipBlanks cs)
  match skipBlanks cs with
  | ':' :: cs =>
    let (value, cs) ← value key cs
    return ((key, value), cs)
  | _ => none

/-- A value whose containers nest at most `depth` deep.  The size of the text
bounds the number of elements of each container. -/
def value (size : Nat) (depth : Nat) (cs : List Char) : Option (Json × List Char) :=
  match skipBlanks cs with
  | 'n' :: 'u' :: 'l' :: 'l' :: rest => some (.null, rest)
  | 't' :: 'r' :: 'u' :: 'e' :: rest => some (.bool true, rest)
  | 'f' :: 'a' :: 'l' :: 's' :: 'e' :: rest => some (.bool false, rest)
  | '"' :: rest => (stringBody rest).map fun (s, r) => (.string (String.ofList s), r)
  | '[' :: rest =>
    match depth with
    | 0 => none
    | depth + 1 =>
      (container ']' (value size depth) size rest).map fun (items, r) => (.array items, r)
  | '\x7b' :: rest =>
    match depth with
    | 0 => none
    | depth + 1 =>
      (container '\x7d' (member fun _ => value size depth) size rest).map
        fun (members, r) => (.object members, r)
  | cs => (number? cs).map fun (n, r) => (.number n, r)

/-! ### Values that are passed over -/

/-- Passes over the characters of a string literal and its closing quote. -/
def passString : List Char → Option (List Char)
  | '"' :: rest => some rest
  | '\\' :: 'u' :: a :: b :: c :: d :: rest =>
    if (unit? a b c d).isSome then passString rest else none
  | '\\' :: c :: rest => if (shortEscape? c).isSome then passString rest else none
  | c :: rest => if c = '\\' ∨ c.toNat < 32 then none else passString rest
  | [] => none

/-- Passes over a number. -/
def passNumber (cs : List Char) : Option (List Char) := do
  let (_, cs) ← wholePart? (match cs with
    | '-' :: rest => rest
    | _ => cs)
  let (_, cs) ← fractionPart? cs
  let (_, cs) ← exponentPart? cs
  return cs

/-- Passes over a name, a colon and what `pass` passes over. -/
def passMember (pass : List Char → Option (Unit × List Char)) (cs : List Char) :
    Option (Unit × List Char) :=
  match skipBlanks cs with
  | '"' :: rest => do
    match skipBlanks (← passString rest) with
    | ':' :: cs => pass cs
    | _ => none
  | _ => none

/-- Passes over a value whose containers nest at most `depth` deep. -/
def passValue (size : Nat) (depth : Nat) (cs : List Char) : Option (Unit × List Char) :=
  match skipBlanks cs with
  | 'n' :: 'u' :: 'l' :: 'l' :: rest => some ((), rest)
  | 't' :: 'r' :: 'u' :: 'e' :: rest => some ((), rest)
  | 'f' :: 'a' :: 'l' :: 's' :: 'e' :: rest => some ((), rest)
  | '"' :: rest => (passString rest).map fun r => ((), r)
  | '[' :: rest =>
    match depth with
    | 0 => none
    | depth + 1 => (container ']' (passValue size depth) size rest).map fun (_, r) => ((), r)
  | '\x7b' :: rest =>
    match depth with
    | 0 => none
    | depth + 1 =>
      (container '\x7d' (passMember (passValue size depth)) size rest).map
        fun (_, r) => ((), r)
  | cs => (passNumber cs).map fun r => ((), r)

/-- A value that is read for the fields: other members of it are passed over,
however deep they nest. -/
def record (fields : List String) (size : Nat) (depth : Nat) (cs : List Char) :
    Option (Json × List Char) :=
  let field (depth : Nat) (key : String) (cs : List Char) : Option (Option Json × List Char) :=
    if key ∈ fields then (value size depth cs).map fun (v, r) => (some v, r)
    else (passValue size size cs).map fun (_, r) => (none, r)
  match skipBlanks cs, depth with
  | '\x7b' :: rest, depth + 1 =>
    (container '\x7d' (member (field depth)) size rest).map fun (members, r) =>
      (.object (members.filterMap fun (key, v) => v.map fun v => (key, v)), r)
  | _, _ => value size depth cs

end Reader

/-- The deepest nesting of containers that a text may have. -/
def nestingLimit : Nat := 127

/-- What a reader of values finds in a text of nothing else. -/
def whole? (read : List Char → Option (Json × List Char)) (text : String) : Option Json :=
  match read text.toList with
  | some (value, rest) => if (Reader.skipBlanks rest).isEmpty then some value else none
  | none => none

/-- The value a text spells, with members as written and containers nested at
most `depth` deep. -/
def tree? (depth : Nat) (text : String) : Option Json :=
  whole? (Reader.value text.toList.length depth) text

/-- The value a text spells; of members with one name the first place and the
last value stay. -/
def parse? (text : String) : Option Json := (tree? nestingLimit text).map merged

/-- The value a text spells, with those members alone that are fields. -/
def recordTree? (fields : List String) (text : String) : Option Json :=
  whole? (Reader.record fields text.toList.length nestingLimit) text

end Json
end Verdict
