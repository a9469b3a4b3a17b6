/-
Sets of characters, as the classes of regular expressions build them.

* `CharSet`: ranges, tables and the set operations on them.
* `CharSet.mem`: membership of a code point.
* `CharSet.digit`, `blank`, `word` and their ASCII parts: the named classes.
-/
import Verdict.Unicode.Folding
import Verdict.Unicode.Letters
import Verdict.Unicode.Marks
import Verdict.Unicode.Numbers

namespace Verdict

/-- A set of code points. -/
inductive CharSet where
  /-- All code points from `lo` to `hi`. -/
  | range (lo hi : Nat)
  | table (ranges : Unicode.Ranges)
  | union (a b : CharSet)
  | inter (a b : CharSet)
  | diff (a b : CharSet)
  | symmDiff (a b : CharSet)
  | compl (a : CharSet)
  /-- Every case variant of the members. -/
  | caseless (a : CharSet)
  deriving Repr

namespace CharSet

/-- Membership of a code point. -/
def mem : CharSet → Nat → Bool
  | range lo hi, c => lo ≤ c && c ≤ hi
  | table ranges, c => ranges.mem c
  | union a b, c => a.mem c || b.mem c
  | inter a b, c => a.mem c && b.mem c
  | diff a b, c => a.mem c && !b.mem c
  | symmDiff a b, c => a.mem c != b.mem c
  | compl a, c => !a.mem c
  | caseless a, c => (Unicode.variants c).any a.mem

/-- The set without members. -/
def empty : CharSet := .range 1 0

/-- The set of one code point. -/
def single (c : Nat) : CharSet := .range c c

/-- The set of some code points. -/
def ofList (cs : List Nat) : CharSet := cs.foldl (fun s c => .union s (single c)) empty

/-- The union of some ranges. -/
def ofRanges (rs : List (Nat × Nat)) : CharSet :=
  rs.foldl (fun s r => .union s (.range r.1 r.2)) empty

/-- The set, or everything outside it. -/
def negateIf (negated : Bool) (s : CharSet) : CharSet := if negated then .compl s else s

/-! ### Named classes -/

def ascii : CharSet := .range 0 127

/-- Everything but the line feed. -/
def notLineFeed : CharSet := .compl (single 10)

def any : CharSet := .range 0 0x10FFFF

/-- Decimal digits of every script. -/
def digit : CharSet := .table Unicode.decimalDigits

def asciiDigit : CharSet := .range 48 57

/-- The characters with the property of white space. -/
def blank : CharSet :=
  ofRanges [(9, 13), (32, 32), (0x85, 0x85), (0xA0, 0xA0), (0x1680, 0x1680), (0x2000, 0x200A),
    (0x2028, 0x2029), (0x202F, 0x202F), (0x205F, 0x205F), (0x3000, 0x3000)]

def asciiBlank : CharSet := ofRanges [(9, 13), (32, 32)]

/-- Letters in circles and squares; they count as alphabetic although their
general category is that of symbols. -/
def enclosedLetters : CharSet :=
  ofRanges [(0x24B6, 0x24E9), (0x1F130, 0x1F149), (0x1F150, 0x1F169), (0x1F170, 0x1F189)]

/-- Letters, letter numbers and enclosed letters. -/
def alphabetic : CharSet :=
  .union (.table Unicode.letters) (.union (.table Unicode.letterNumbers) enclosedLetters)

/-- The characters of words: alphabetic ones, marks, digits, connecting
punctuation and the two joiners. -/
def word : CharSet :=
  .union alphabetic (.union digit (.union (.table Unicode.marks)
    (.union (.table Unicode.connectors) (.range 0x200C 0x200D))))

def asciiWord : CharSet := ofRanges [(48, 57), (65, 90), (95, 95), (97, 122)]

/-- The class of an ASCII class name such as `alpha`. -/
def asciiClass? : String → Option CharSet
  | "alnum" => some (ofRanges [(48, 57), (65, 90), (97, 122)])
  | "alpha" => some (ofRanges [(65, 90), (97, 122)])
  | "ascii" => some ascii
  | "blank" => some (ofList [9, 32])
  | "cntrl" => some (ofRanges [(0, 31), (127, 127)])
  | "digit" => some asciiDigit
  | "graph" => some (.range 33 126)
  | "lower" => some (.range 97 122)
  | "print" => some (.range 32 126)
  | "punct" => some (ofRanges [(33, 47), (58, 64), (91, 96), (123, 126)])
  | "space" => some asciiBlank
  | "upper" => some (.range 65 90)
  | "word" => some asciiWord
  | "xdigit" => some (ofRanges [(48, 57), (65, 70), (97, 102)])
  | _ => none

/-- The class of a character property; the name is in lower case without
blanks, hyphens and low lines. -/
def property? : String → Option CharSet
  | "any" => some any
  | "ascii" => some ascii
  | "l" | "letter" => some (.table Unicode.letters)
  | "lu" | "uppercaseletter" => some (.table Unicode.upperLetters)
  | "ll" | "lowercaseletter" => some (.table Unicode.lowerLetters)
  | "m" | "mark" | "combiningmark" => some (.table Unicode.marks)
  | "n" | "number" =>
    some (.union digit (.union (.table Unicode.letterNumbers) (.table Unicode.otherNumbers)))
  | "nd" | "decimalnumber" | "digit" => some digit
  | "nl" | "letternumber" => some (.table Unicode.letterNumbers)
  | "no" | "othernumber" => some (.table Unicode.otherNumbers)
  | "p" | "punctuation" | "punct" => some (.table Unicode.punctuation)
  | "pc" | "connectorpunctuation" => some (.table Unicode.connectors)
  | "s" | "symbol" => some (.table Unicode.symbols)
  | "z" | "separator" => some (.table Unicode.separators)
  | "whitespace" | "wspace" | "space" => some blank
  | "alphabetic" | "alpha" => some alphabetic
  | _ => none

end CharSet
end Verdict
