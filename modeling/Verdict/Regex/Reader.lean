/-
Reading regular expressions.

The reader walks over the pattern once and keeps the open groups on a stack.
Look-around, back references and unknown escapes are refused.

* `Regex.parse?`: the expression of a pattern.
* `Regex.whole?`: the expression of a pattern that is to match a text as a whole.
-/
import Verdict.Regex.ClassReader

namespace Verdict
namespace Regex

/-- An open group: the flags to restore behind it, the alternatives before the
current one and the pieces of the current one, both latest first.  A piece is
`none` where flags were set: such a place cannot be repeated. -/
structure OpenGroup where
  flags : Flags
  branches : List Regex
  pieces : List (Option Regex)

/-- The state between two items of a pattern. -/
structure ReaderState where
  flags : Flags := {}
  names : List String := []
  branches : List Regex := []
  pieces : List (Option Regex) := []
  outer : List OpenGroup := []

namespace ReaderState

/-- The expression of pieces, latest first. -/
def sequence (pieces : List (Option Regex)) : Regex := ofSeq (pieces.reverse.filterMap id)

/-- The expression of the current group. -/
def current (s : ReaderState) : Regex :=
  ofAlternatives (sequence s.pieces :: s.branches).reverse

def push (s : ReaderState) (r : Regex) : ReaderState := { s with pieces := some r :: s.pieces }

/-- Opens a group whose content has the given flags. -/
def openGroup (s : ReaderState) (inside : Flags) : ReaderState :=
  { s with
    flags := inside, branches := [], pieces := []
    outer := ⟨s.flags, s.branches, s.pieces⟩ :: s.outer }

/-- Closes the innermost group. -/
def closeGroup? (s : ReaderState) : Option ReaderState :=
  match s.outer with
  | [] => none
  | g :: outer =>
    some { s with
      flags := g.flags, branches := g.branches, pieces := some s.current :: g.pieces, outer }

/-- Starts the next alternative. -/
def alternate (s : ReaderState) : ReaderState :=
  { s with branches := sequence s.pieces :: s.branches, pieces := [] }

/-- Repeats the last piece. -/
def repeatLast? (s : ReaderState) (least : Nat) (most : Option Nat) : Option ReaderState :=
  match s.pieces with
  | some r :: pieces => some { s with pieces := some (.repeated r least most) :: pieces }
  | _ => none

end ReaderState

/-! ### Repetition -/

/-- Drops the question mark that makes a repetition lazy. -/
def dropLazy : List Char → List Char
  | '?' :: rest => rest
  | cs => cs

/-- A count of a repetition; blanks may stand around it. -/
def count? (flags : Flags) (cs : List Char) : Option (Nat × List Char) :=
  let cs := cs.dropWhile isBlank
  let digits := cs.takeWhile Char.isDigit
  let rest := skipVoid flags ((cs.dropWhile Char.isDigit).dropWhile isBlank)
  let n := digits.foldl (fun n c => 10 * n + (c.toNat - '0'.toNat)) 0
  if digits.isEmpty || 4294967296 ≤ n then none else some (n, rest)

/-- The counts of a repetition, its opening brace already read. -/
def counts? (flags : Flags) (cs : List Char) : Option ((Nat × Option Nat) × List Char) := do
  let (least, rest) ← count? flags (skipVoid flags cs)
  match rest with
  | '\x7d' :: rest => some ((least, some least), rest)
  | ',' :: rest =>
    match skipVoid flags rest with
    | '\x7d' :: rest => some ((least, none), rest)
    | rest => do
      let (most, rest) ← count? flags rest
      match rest with
      | '\x7d' :: rest => if least ≤ most then some ((least, some most), rest) else none
      | _ => none
  | _ => none

/-! ### Groups -/

/-- The flags with one of them set or cleared. -/
def Flags.set? (flags : Flags) (letter : Char) (on : Bool) : Option Flags :=
  match letter with
  | 'i' => some { flags with caseless := on }
  | 'm' => some { flags with multiLine := on }
  | 's' => some { flags with dotAll := on }
  | 'U' => some { flags with lazy := on }
  | 'u' => some { flags with unicode := on }
  | 'R' => some { flags with returns := on }
  | 'x' => some { flags with verbose := on }
  | _ => none

/-- Flag letters up to the colon or parenthesis behind them, which is left in
the rest.  No letter may repeat, and a minus sign stands once and before a letter. -/
def flagLetters? : Flags → Bool → List Char → List Char → Option (Flags × List Char)
  | flags, on, seen, c :: rest =>
    if c = ':' || c = ')' then
      if seen.head? == some '-' then none else some (flags, c :: rest)
    else if c = '-' then
      if on then flagLetters? flags false ('-' :: seen) rest else none
    else if c ∈ seen then none
    else (flags.set? c on).bind fun flags => flagLetters? flags on (c :: seen) rest
  | _, _, _, [] => none

/-- Whether a character can stand in the name of a group. -/
def isNameChar (first : Bool) (c : Char) : Bool :=
  c = '_' || CharSet.alphabetic.mem c.toNat ||
    (!first && (c = '.' || c = '[' || c = ']' || CharSet.digit.mem c.toNat ||
      Unicode.otherNumbers.mem c.toNat))

/-- The name of a group up to its closing angle bracket. -/
def groupName? (cs : List Char) : Option (String × List Char) :=
  let name := cs.takeWhile (· != '>')
  match name, cs.dropWhile (· != '>') with
  | c :: more, '>' :: rest =>
    if isNameChar true c && more.all (isNameChar false) then some (String.ofList name, rest)
    else none
  | _, _ => none

/-- The state behind the opening of a group, its parenthesis already read. -/
def group? (s : ReaderState) (cs : List Char) : Option (ReaderState × List Char) :=
  let named (cs : List Char) : Option (ReaderState × List Char) := do
    let (name, rest) ← groupName? cs
    if name ∈ s.names then none
    else some ({ s with names := name :: s.names }.openGroup s.flags, rest)
  match skipVoid s.flags cs with
  | '?' :: '=' :: _ | '?' :: '!' :: _ | '?' :: '<' :: '=' :: _ | '?' :: '<' :: '!' :: _ => none
  | '?' :: 'P' :: '<' :: rest => named rest
  | '?' :: '<' :: rest => named rest
  | '?' :: rest => do
    let (flags, after) ← flagLetters? s.flags true [] rest
    match after with
    | ':' :: after => some (s.openGroup flags, after)
    | ')' :: after =>
      if rest.head? == some ')' then none
      else some ({ s with flags, pieces := none :: s.pieces }, after)
    | _ => none
  | rest => some (s.openGroup s.flags, rest)

/-! ### Patterns -/

/-- The expression of a character that stands for itself. -/
def Flags.literal? (flags : Flags) (c : Nat) : Option Regex :=
  if !flags.caseless then some (.chars (.single c))
  else if flags.unicode then some (.chars (.caseless (.single c)))
  else some (.chars (if c < 128 then .inter .ascii (.caseless (.single c)) else .single c))

/-- The expression of an escape. -/
def Flags.atom? (flags : Flags) : Atom → Option Regex
  | .literal c => flags.literal? c
  | .set s => some (.chars s)
  | .look a => some (.look a)

/-- The dot: any character, or any but those that end lines. -/
def Flags.dot? (flags : Flags) : Option Regex :=
  if !flags.unicode then none
  else if flags.dotAll then some (.chars .any)
  else if flags.returns then some (.chars (.compl (.ofList [10, 13])))
  else some (.chars .notLineFeed)

/-- The start of the text, or of a line. -/
def Flags.caret (flags : Flags) : Look :=
  if !flags.multiLine then .textStart else if flags.returns then .returnStart else .lineStart

/-- The end of the text, or of a line. -/
def Flags.dollar (flags : Flags) : Look :=
  if !flags.multiLine then .textEnd else if flags.returns then .returnEnd else .lineEnd

/-- One item of a pattern. -/
def item? (s : ReaderState) : List Char → Option (ReaderState × List Char)
  | [] => none
  | c :: rest =>
    match c with
    | '(' => group? s rest
    | ')' => (s.closeGroup?).map (·, rest)
    | '|' => some (s.alternate, rest)
    | '[' => (bracketed? s.flags rest).map fun (set, rest) => (s.push (.chars set), rest)
    | '*' => (s.repeatLast? 0 none).map (·, dropLazy rest)
    | '+' => (s.repeatLast? 1 none).map (·, dropLazy rest)
    | '?' => (s.repeatLast? 0 (some 1)).map (·, dropLazy rest)
    | '\x7b' =>
      if s.pieces.isEmpty then none
      else do
        let ((least, most), rest) ← counts? s.flags rest
        return (← s.repeatLast? least most, dropLazy (skipVoid s.flags rest))
    | '.' => s.flags.dot?.map fun r => (s.push r, rest)
    | '^' => some (s.push (.look s.flags.caret), rest)
    | '$' => some (s.push (.look s.flags.dollar), rest)
    | '\\' => do
      let (atom, rest) ← escape? s.flags rest
      return (s.push (← s.flags.atom? atom), rest)
    | _ => (s.flags.literal? c.toNat).map fun r => (s.push r, rest)

/-- The items of a pattern up to its end.  Every round reads a character. -/
def items? : Nat → ReaderState → List Char → Option ReaderState
  | 0, _, _ => none
  | fuel + 1, s, cs =>
    match skipVoid s.flags cs with
    | [] => if s.outer.isEmpty then some s else none
    | cs => do
      let (s, rest) ← item? s cs
      items? fuel s rest

/-- The expression of a pattern, if it is well formed and not too large. -/
def parse? (pattern : String) : Option Regex := do
  let cs := pattern.toList
  let s ← items? (cs.length + 1) {} cs
  if s.current.weight ≤ weightLimit then some s.current else none

/-- The expression that holds a text from start to end against a pattern. -/
def whole? (pattern : String) : Option Regex := parse? ("^(?:" ++ pattern ++ ")$")

end Regex
end Verdict
