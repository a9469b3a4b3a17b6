/-
The expressions of policies.

An expression is an operator applied to expressions, a conditional, or a basic
expression: a head that produces a value, steps that select from it, and then
a filter that edits the selection or a template that is filled from it.

* `Expression`, `Head`, `Step`, `Filter`, `FilterStatement`: the trees.
* `Expression.literal`, `Expression.named`: heads without steps.
* `removeFunction`: the filter function that deletes its targets.
-/
import Verdict.Json.Basic
import Verdict.Policy.Operator

namespace Verdict

mutual

/-- An expression. -/
inductive Expression where
  /-- A head, the steps applied to it, and a filter or a template. -/
  | basic (head : Head) (steps : List Step) (filter : Option Filter)
      (template : Option Expression)
  | binary (operator : BinaryOperator) (left right : Expression)
  | unary (operator : UnaryOperator) (operand : Expression)
  | conditional (condition consequent alternative : Expression)

/-- What a basic expression starts from. -/
inductive Head where
  | literal (value : Json)
  | group (inner : Expression)
  | identifier (name : String)
  /-- `@`, the value that a condition, filter or template is evaluated at. -/
  | relative
  | function (name : String) (arguments : List Expression)
  | array (items : List Expression)
  | object (members : List (String × Expression))

/-- A selection from the value so far. -/
inductive Step where
  | key (name : String)
  | index (position : Int)
  | wildcard
  | slice (start stop stride : Option Int)
  /-- `[(e)]`: a key or an index that is computed. -/
  | computed (expression : Expression)
  /-- `[?(e)]`: the elements at which the expression is true. -/
  | condition (expression : Expression)
  | recursiveKey (name : String)
  | recursiveIndex (position : Int)
  | recursiveWildcard
  | keyUnion (names : List String)
  | indexUnion (positions : List Int)
  /-- `.<name(arguments)>`: the live values of an attribute. -/
  | attribute (name : String) (arguments : List Expression)

/-- The part of a basic expression behind `|-`. -/
inductive Filter where
  /-- One function applied to the whole value, or to each element of it. -/
  | simple (each : Bool) (function : String) (arguments : List Expression)
  /-- Statements applied in order. -/
  | extended (statements : List FilterStatement)

/-- One statement of an extended filter.  An empty target is the whole value;
an empty function leaves its targets alone. -/
inductive FilterStatement where
  | mk (target : List Step) (each : Bool) (function : String) (arguments : List Expression)

end

instance : Inhabited Expression := ⟨.basic .relative [] none none⟩

namespace Expression

/-- A literal without steps. -/
def literal (value : Json) : Expression := .basic (.literal value) [] none none

/-- A variable without steps. -/
def named (name : String) : Expression := .basic (.identifier name) [] none none

end Expression

/-- The name of the filter function that deletes its targets. -/
def removeFunction : String := "remove"

end Verdict
