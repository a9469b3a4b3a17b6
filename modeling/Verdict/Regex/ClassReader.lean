/-
Reading escapes and bracketed character classes of regular expressions.

* `Regex.Flags`: the flags in force at a place of a pattern.
* `Regex.Atom`: what an escape stands for.
* `Regex.escape?`: the escape behind a backslash.
* `Regex.bracketed?`: the class behind an opening bracket, with ranges, nested
  classes, ASCII classes and the operators for intersection, difference and
  symmetric difference.
-/
import Verdict.Regex.Basic

namespace Verdict
namespace Regex

/-- The flags in force at a place of a pattern. -/
structure Flags where
  caseless : Bool := false
  multiLine : Bool := false
  dotAll : Bool := false
  lazy : Bool := false
  unicode : Bool := true
  returns : Bool := false
  verbose : Bool := false
  deriving Repr

/-- What an escape stands for. -/
inductive Atom where
  | literal (codePoint : Nat)
  | set (set : CharSet)
  | look (assertion : Look)

/-- A class as the flags have it: with its case variants, then negated.  Without
Unicode only ASCII classes have a meaning for texts. -/
def Flags.finish? (flags : Flags) (negated : Bool) (set : CharSet) : Option CharSet :=
  if flags.unicode then
    some (CharSet.negateIf negated (if flags.caseless then .caseless set else set))
  else if negated then none
  else some (.inter CharSet.ascii (if flags.caseless then .caseless set else set))

/-- Whether a character is white space. -/
def isBlank (c : Char) : Bool := CharSet.blank.mem c.toNat

/-- Drops blanks and comments where the verbose flag makes them void.  A comment
runs to the end of its line. -/
def skipVoid (flags : Flags) (cs : List Char) : List Char :=
  if flags.verbose then go false cs else cs
where
  /-- Drops the rest of a comment, or blanks and comments. -/
  go : Bool → List Char → List Char
    | _, [] => []
    | true, c :: rest => if c = '\n' then go false rest else go true rest
    | false, c :: rest =>
      if isBlank c then go false rest else if c = '#' then go true rest else c :: rest

/-! ### Escapes -/

def hexDigit? (c : Char) : Option Nat :=
  if '0' ≤ c ∧ c ≤ '9' then some (c.toNat - '0'.toNat)
  else if 'a' ≤ c ∧ c ≤ 'f' then some (c.toNat - 'a'.toNat + 10)
  else if 'A' ≤ c ∧ c ≤ 'F' then some (c.toNat - 'A'.toNat + 10)
  else none

/-- A number that is a code point of a character. -/
def scalar? (n : Nat) : Option Nat := if n.isValidChar then some n else none

/-- Exactly `count` hexadecimal digits. -/
def hexFixed? (flags : Flags) : Nat → Nat → List Char → Option (Nat × List Char)
  | 0, value, cs => some (value, cs)
  | count + 1, value, cs =>
    match skipVoid flags cs with
    | c :: rest => (hexDigit? c).bind fun d => hexFixed? flags count (16 * value + d) rest
    | [] => none

/-- Hexadecimal digits up to a closing brace, at least one. -/
def hexBraced? (cs : List Char) : Option Nat := do
  if cs.isEmpty then none
  cs.foldlM (fun value c => (hexDigit? c).map (16 * value + ·)) 0

/-- The characters up to a closing brace, without void ones, and the rest. -/
def braced? (flags : Flags) : Nat → List Char → Option (List Char × List Char)
  | 0, _ => none
  | fuel + 1, cs =>
    match skipVoid flags cs with
    | '\x7d' :: rest => some ([], rest)
    | c :: rest => (braced? flags fuel rest).map fun (s, r) => (c :: s, r)
    | [] => none

/-- A code point in hexadecimal, braced or of a fixed number of digits. -/
def hex? (flags : Flags) (count : Nat) (cs : List Char) : Option (Atom × List Char) := do
  match skipVoid flags cs with
  | '\x7b' :: rest =>
    let (digits, rest) ← braced? flags (rest.length + 1) rest
    return (.literal (← scalar? (← hexBraced? digits)), rest)
  | cs =>
    let (n, rest) ← hexFixed? flags count 0 cs
    return (.literal (← scalar? n), rest)

/-- A property name in lower case without blanks, hyphens and low lines. -/
def propertyName (cs : List Char) : String :=
  String.ofList ((cs.filter fun c => c != ' ' && c != '-' && c != '_').map Char.toLower)

/-- A class given by a character property. -/
def property? (flags : Flags) (negated : Bool) (cs : List Char) :
    Option (Atom × List Char) := do
  guard flags.unicode
  let (name, rest) ← match skipVoid flags cs with
    | '\x7b' :: rest => braced? flags (rest.length + 1) rest
    | c :: rest => some ([c], rest)
    | [] => none
  let set ← CharSet.property? (propertyName name)
  return (.set (← flags.finish? negated set), rest)

/-- A named class and its complement, of ASCII only without Unicode. -/
def named? (flags : Flags) (negated : Bool) (unicode ascii : CharSet) : Option Atom :=
  if flags.unicode then some (.set (CharSet.negateIf negated unicode))
  else if negated then none else some (.set ascii)

/-- A word boundary, plain or with a part of it named in braces. -/
def boundary? (flags : Flags) (cs : List Char) : Option (Atom × List Char) :=
  let word := if flags.unicode then CharSet.word else CharSet.asciiWord
  match cs with
  | '\x7b' :: rest =>
    match skipVoid flags rest with
    | c :: _ =>
      if c.isAlpha || c = '-' then do
        let (name, rest) ← braced? flags (rest.length + 1) rest
        match String.ofList name with
        | "start" => some (.look (.wordStart word), rest)
        | "end" => some (.look (.wordEnd word), rest)
        | "start-half" => some (.look (.notAfterWord word), rest)
        | "end-half" => some (.look (.notBeforeWord word), rest)
        | _ => none
      else some (.look (.boundary word), cs)
    | [] => none
  | _ => some (.look (.boundary word), cs)

/-- The escape behind a backslash. -/
def escape? (flags : Flags) : List Char → Option (Atom × List Char)
  | [] => none
  | c :: rest =>
    let word := if flags.unicode then CharSet.word else CharSet.asciiWord
    match c with
    | 'x' => hex? flags 2 rest
    | 'u' => hex? flags 4 rest
    | 'U' => hex? flags 8 rest
    | 'p' => property? flags false rest
    | 'P' => property? flags true rest
    | 'd' => (named? flags false .digit .asciiDigit).map (·, rest)
    | 'D' => (named? flags true .digit .asciiDigit).map (·, rest)
    | 's' => (named? flags false .blank .asciiBlank).map (·, rest)
    | 'S' => (named? flags true .blank .asciiBlank).map (·, rest)
    | 'w' => (named? flags false .word .asciiWord).map (·, rest)
    | 'W' => (named? flags true .word .asciiWord).map (·, rest)
    | 'a' => some (.literal 7, rest)
    | 'f' => some (.literal 12, rest)
    | 't' => some (.literal 9, rest)
    | 'n' => some (.literal 10, rest)
    | 'r' => some (.literal 13, rest)
    | 'v' => some (.literal 11, rest)
    | 'A' => some (.look .textStart, rest)
    | 'z' => some (.look .textEnd, rest)
    | 'b' => boundary? flags rest
    | 'B' => some (.look (.notBoundary word), rest)
    | '<' => some (.look (.wordStart word), rest)
    | '>' => some (.look (.wordEnd word), rest)
    | _ => if c.toNat < 128 && !c.isAlphanum then some (.literal c.toNat, rest) else none

/-! ### Bracketed classes -/

/-- An operator between the parts of a class; all bind equally and to the left. -/
inductive SetOperator where
  | inter
  | diff
  | symmDiff

/-- The set of an operator and its operands. -/
def SetOperator.apply : SetOperator → CharSet → CharSet → CharSet
  | inter, a, b => .inter a b
  | diff, a, b => .diff a b
  | symmDiff, a, b => .symmDiff a b

/-- A class that has been opened: its negation, the operator that waits for its
right operand, and the union of the items since. -/
structure OpenClass where
  negated : Bool
  waiting : Option (SetOperator × CharSet)
  items : CharSet

/-- The set so far, the waiting operator applied. -/
def OpenClass.total (flags : Flags) (c : OpenClass) : CharSet :=
  match c.waiting with
  | none => c.items
  | some (op, left) =>
    if flags.caseless then op.apply (.caseless left) (.caseless c.items)
    else op.apply left c.items

/-- The class with one more item. -/
def OpenClass.push (c : OpenClass) (item : CharSet) : OpenClass :=
  { c with items := .union c.items item }

/-- The class with its items closed off as the left operand of an operator. -/
def OpenClass.operate (flags : Flags) (c : OpenClass) (op : SetOperator) : OpenClass :=
  { c with waiting := some (op, c.total flags), items := .empty }

/-- The start of a class: negation, then hyphens and a closing bracket that
stand for themselves. -/
def openClass (flags : Flags) (cs : List Char) : OpenClass × List Char :=
  let cs := skipVoid flags cs
  let (negated, cs) := match cs with
    | '^' :: rest => (true, skipVoid flags rest)
    | _ => (false, cs)
  let (hyphens, cs) := takeHyphens cs.length cs
  let items : CharSet := if hyphens then .single '-'.toNat else .empty
  match hyphens, cs with
  | false, ']' :: rest => (⟨negated, none, .single ']'.toNat⟩, rest)
  | _, _ => (⟨negated, none, items⟩, cs)
where
  /-- Whether hyphens stand at the front, and what follows them. -/
  takeHyphens : Nat → List Char → Bool × List Char
    | 0, cs => (false, cs)
    | fuel + 1, cs =>
      match cs with
      | '-' :: rest => (true, (takeHyphens fuel (skipVoid flags rest)).2)
      | _ => (false, cs)

/-- An ASCII class such as `[:alpha:]`, its opening bracket already read. -/
def asciiClass? (flags : Flags) (cs : List Char) : Option (CharSet × List Char) :=
  match cs with
  | ':' :: rest =>
    let (negated, rest) := match rest with
      | '^' :: rest => (true, rest)
      | _ => (false, rest)
    let name := rest.takeWhile (· != ':')
    match rest.dropWhile (· != ':') with
    | ':' :: ']' :: rest => do
      let set ← CharSet.asciiClass? (String.ofList name)
      return (← flags.finish? negated set, rest)
    | _ => none
  | _ => none

/-- One item of a class: a character or an escape. -/
def classAtom? (flags : Flags) : List Char → Option (Atom × List Char)
  | '\\' :: rest => escape? flags rest
  | c :: rest => some (.literal c.toNat, rest)
  | [] => none

/-- The set of an item that is no end of a range; assertions are refused. -/
def Atom.asItem? : Atom → Option CharSet
  | .literal c => some (.single c)
  | .set s => some s
  | .look _ => none

/-- A range of characters or a single item. -/
def classRange? (flags : Flags) (cs : List Char) : Option (CharSet × List Char) := do
  let (first, rest) ← classAtom? flags cs
  let rest := skipVoid flags rest
  match rest with
  | [] => none
  | '-' :: after =>
    match skipVoid flags after with
    | [] => none
    | c :: _ =>
      if c = ']' || c = '-' then return (← first.asItem?, rest)
      else
        let (last, rest) ← classAtom? flags (skipVoid flags after)
        match first, last with
        | .literal lo, .literal hi => if lo ≤ hi then return (.range lo hi, rest) else none
        | _, _ => none
  | _ => return (← first.asItem?, rest)

/-- The class that is open, those around it, and the rest of the pattern up to
the bracket that closes the outermost.  Every round reads a character. -/
def classBody? (flags : Flags) :
    Nat → OpenClass → List OpenClass → List Char → Option (CharSet × List Char)
  | 0, _, _, _ => none
  | fuel + 1, current, outer, cs =>
    match skipVoid flags cs with
    | [] => none
    | '[' :: rest =>
      match asciiClass? flags rest with
      | some (set, rest) => classBody? flags fuel (current.push set) outer rest
      | none =>
        let (inner, rest) := openClass flags rest
        classBody? flags fuel inner (current :: outer) rest
    | ']' :: rest => do
      let set ← flags.finish? current.negated (current.total flags)
      match outer with
      | [] => return (set, rest)
      | parent :: outer => classBody? flags fuel (parent.push set) outer rest
    | '&' :: '&' :: rest => classBody? flags fuel (current.operate flags .inter) outer rest
    | '-' :: '-' :: rest => classBody? flags fuel (current.operate flags .diff) outer rest
    | '~' :: '~' :: rest => classBody? flags fuel (current.operate flags .symmDiff) outer rest
    | cs => do
      let (item, rest) ← classRange? flags cs
      classBody? flags fuel (current.push item) outer rest

/-- A bracketed class, its opening bracket already read. -/
def bracketed? (flags : Flags) (cs : List Char) : Option (CharSet × List Char) :=
  let (first, rest) := openClass flags cs
  classBody? flags (rest.length + 1) first [] rest

end Regex
end Verdict
