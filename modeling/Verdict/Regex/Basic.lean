/-
Regular expressions and their matches.

An expression carries a set of positions of a text to the set of positions at
which a match that starts in the set can end.  Sets are carried through the
expression as a whole, so no text makes matching explode.

* `Regex`, `Look`: expressions and assertions.
* `Regex.ends`: the ends of the matches from given starts.
* `Regex.occursIn`: whether some part of a text matches.
* `Regex.weight`: the size of the expression with its repetitions written out.
-/
import Verdict.Regex.CharSet

namespace Verdict

/-- A condition on a position between two characters. -/
inductive Look where
  | textStart
  | textEnd
  | lineStart
  | lineEnd
  /-- Line starts and ends where carriage returns end lines as well. -/
  | returnStart
  | returnEnd
  /-- Between a character of the class and one outside it. -/
  | boundary (word : CharSet)
  | notBoundary (word : CharSet)
  | wordStart (word : CharSet)
  | wordEnd (word : CharSet)
  /-- No character of the class before, respectively after, the position. -/
  | notAfterWord (word : CharSet)
  | notBeforeWord (word : CharSet)
  deriving Repr

/-- A regular expression.  Groups leave no trace: only whether a text matches
is of interest. -/
inductive Regex where
  | empty
  | chars (set : CharSet)
  | look (assertion : Look)
  | seq (first second : Regex)
  | alt (left right : Regex)
  | repeated (body : Regex) (least : Nat) (most : Option Nat)
  deriving Repr

/-- Whether a condition holds between two neighbours; `none` is the edge of the text. -/
def Look.holds (before after : Option Char) : Look → Bool
  | textStart => before.isNone
  | textEnd => after.isNone
  | lineStart => before.isNone || before == some '\n'
  | lineEnd => after.isNone || after == some '\n'
  | returnStart =>
    before.isNone || before == some '\n' || (before == some '\r' && after != some '\n')
  | returnEnd =>
    after.isNone || after == some '\r' || (after == some '\n' && before != some '\r')
  | boundary word => isIn word before != isIn word after
  | notBoundary word => isIn word before == isIn word after
  | wordStart word => !isIn word before && isIn word after
  | wordEnd word => isIn word before && !isIn word after
  | notAfterWord word => !isIn word before
  | notBeforeWord word => !isIn word after
where
  /-- Whether there is a character and it belongs to the class. -/
  isIn (word : CharSet) : Option Char → Bool
    | some c => word.mem c.toNat
    | none => false

namespace Regex

/-! ### Sets of positions -/

/-- The positions that are not marked yet, once each, and the marks with them. -/
def fresh (marks : Array Bool) (positions : List Nat) : Array Bool × List Nat :=
  positions.foldl (fun (marks, kept) p =>
    if marks.getD p true then (marks, kept) else (marks.setIfInBounds p true, p :: kept))
    (marks, [])

/-- The positions up to `size`, once each. -/
def distinct (size : Nat) (positions : List Nat) : List Nat :=
  (fresh (Array.replicate (size + 1) false) positions).2

/-- What repeated steps reach from the frontier beyond the marked positions. -/
def reach (step : List Nat → List Nat) : Nat → Array Bool → List Nat → List Nat
  | 0, _, _ => []
  | rounds + 1, marks, frontier =>
    if frontier.isEmpty then []
    else
      let (marks, new) := fresh marks (step frontier)
      new ++ reach step rounds marks new

/-- The step taken `n` times, or until nothing is left. -/
def times (step : List Nat → List Nat) : Nat → List Nat → List Nat
  | 0, positions => positions
  | n + 1, positions => if positions.isEmpty then [] else times step n (step positions)

/-! ### Matching -/

/-- The positions at which a match from one of the starts ends.  A text of `n`
characters needs at most `n + 1` rounds of a repetition: any further round
matches nothing. -/
def ends (text : Array Char) : Regex → List Nat → List Nat
  | empty, starts => starts
  | chars set, starts =>
    starts.filterMap fun p =>
      match text[p]? with
      | some c => if set.mem c.toNat then some (p + 1) else none
      | none => none
  | look assertion, starts =>
    starts.filter fun p =>
      assertion.holds (if p = 0 then none else text[p - 1]?) text[p]?
  | seq first second, starts => ends text second (ends text first starts)
  | alt left right, starts =>
    distinct text.size (ends text left starts ++ ends text right starts)
  | repeated body least most, starts =>
    let bound := text.size + 1
    let step := ends text body
    let required := times step (min least bound) starts
    let rounds := match most with
      | some most => min (most - least) bound
      | none => bound
    let (marks, required) := fresh (Array.replicate bound false) required
    required ++ reach step rounds marks required

/-- Whether some part of the text matches. -/
def occursIn (r : Regex) (text : String) : Bool :=
  let chars := text.toList.toArray
  !(r.ends chars (List.range (chars.size + 1))).isEmpty

/-- The expressions one after the other. -/
def ofSeq (rs : List Regex) : Regex := rs.foldr (fun r rest => .seq r rest) .empty

/-- One of the expressions; the list is not empty. -/
def ofAlternatives : List Regex → Regex
  | [] => .empty
  | [r] => r
  | r :: rest => .alt r (ofAlternatives rest)

/-! ### Size -/

/-- The memory that a character class takes in a compiled expression. -/
def classWeight : CharSet → Nat
  | .range lo _ =>
    if lo < 0x80 then 32 else if lo < 0x800 then 64 else if lo < 0x10000 then 96 else 128
  | .table ranges => 64 * ranges.length
  | .union a b => max (classWeight a) (classWeight b)
  | .inter a b | .diff a b | .symmDiff a b => classWeight a + classWeight b
  | .compl a => classWeight a + 500
  | .caseless a => classWeight a + 32

/-- The size of the expression with its repetitions written out. -/
def weight : Regex → Nat
  | empty => 32
  | chars set => classWeight set
  | look _ => 32
  | seq a b => a.weight + b.weight
  | alt a b => a.weight + b.weight + 32
  | repeated body least most =>
    match most with
    | some most => body.weight * max least most + 32 * (most - least)
    | none => body.weight * max least 1 + 32

/-- The size beyond which an expression is refused. -/
def weightLimit : Nat := 10485760

end Regex
end Verdict
