/-
Direct evaluation.

Where no attribute is read nothing is live, and an expression has one value.
Here it is computed by recursion on the expression: operands and arguments from
left to right, the right side of a lazy operator and the branches of a
conditional only where they are asked for, steps one after the other.

* `Expression.value`, `Head.value`: the value of an expression.
* `Step.selection`, `Step.selections`: what steps select.
* `Filter.value`, `FilterStatement.value`: what filters make of a value.
* `Expression.attributeFree` and its like: no step reads an attribute.

A step that reads an attribute fails here as it does outside of bodies.
-/
import Verdict.Evaluation.Expression

namespace Verdict

/-- What a filter statement makes of a value, from its resolved target and the
values of its arguments. -/
def EvaluationContext.statementValue (ctx : EvaluationContext) (each : Bool) (function : String)
    (value : Value) (target : Resolution) (arguments : List Value) : Value :=
  match value with
  | .error cause => .error cause
  | .undefined => .error (.filterTarget "cannot filter an undefined value")
  | .defined _ => edited ctx.functions each function target arguments

/-- What a template makes of a value, given its value at an element. -/
def Value.filledBy (value : Value) (template : Value → Value) : Value :=
  match value with
  | .error cause => .error cause
  | .defined (.array items) => .filled (items.map fun item => template (.defined item))
  | other => .mismatch ("sub-template expects an array, got " ++ other.kind)

/-- The next selection of a chain that has not failed yet. -/
def Resolution.next (before : Resolution) (step : Resolved → Resolution) : Resolution :=
  match before with
  | .ok r => step r
  | .error cause => .error cause

/-! ### Values -/

mutual

/-- The value of an expression. -/
def Expression.value (ctx : EvaluationContext) (relative : Value) : Expression → Value
  | .basic head steps filter template =>
    let base := head.value ctx relative
    let selected :=
      if steps.isEmpty then base
      else (Step.selections ctx steps (.start base)).value
    match filter, template with
    | some filter, _ => filter.value ctx selected
    | none, some template => selected.filledBy fun element => template.value ctx element
    | none, none => selected
  | .binary op left right =>
    match op.decidedBy? with
    | some decided =>
      match left.value ctx relative with
      | .defined (.bool b) =>
        if b = decided then .ofBool b else .lazyOperand op (right.value ctx relative)
      | other => .lazyOperand op other
    | none => .binary op (left.value ctx relative) (right.value ctx relative)
  | .unary op operand => .unary op (operand.value ctx relative)
  | .conditional condition consequent alternative =>
    match condition.value ctx relative with
    | .defined (.bool true) => consequent.value ctx relative
    | .defined (.bool false) => alternative.value ctx relative
    | .error cause => .error cause
    | .undefined => .undefined
    | other => .mismatch ("conditional expects a boolean condition, got " ++ other.kind)

/-- The value that a basic expression starts from. -/
def Head.value (ctx : EvaluationContext) (relative : Value) : Head → Value
  | .literal value => .defined value
  | .group inner => inner.value ctx relative
  | .identifier name => ctx.lookup name
  | .relative => relative
  | .function name arguments => ctx.functions.apply name (Expression.values ctx relative arguments)
  | .array items => .ofItems (Expression.values ctx relative items)
  | .object members =>
    .ofMembers (members.map Prod.fst) (Expression.memberValues ctx relative members)

/-- The values of the expressions of a list. -/
def Expression.values (ctx : EvaluationContext) (relative : Value) : List Expression → List Value
  | [] => []
  | e :: rest => e.value ctx relative :: Expression.values ctx relative rest

/-- The values of the expressions of the members of an object. -/
def Expression.memberValues (ctx : EvaluationContext) (relative : Value) :
    List (String × Expression) → List Value
  | [] => []
  | (_, e) :: rest => e.value ctx relative :: Expression.memberValues ctx relative rest

/-- What a step selects.  A condition is evaluated at every candidate; the key of
a computed step is evaluated at the value so far and applied to every candidate. -/
def Step.selection (ctx : EvaluationContext) (r : Resolved) : Step → Resolution
  | .attribute name _ => .error (.attributeInTarget name)
  | .computed expression =>
    if r.selection = .nothing then .ok r else r.stepBy (expression.value ctx r.value)
  | .condition expression =>
    if r.selection = .nothing then .ok r
    else
      match r.candidates with
      | .error cause => .error cause
      | .ok candidates =>
        r.keep candidates (candidates.map fun s =>
          expression.value ctx (.defined (r.arena.toJson s.node)))
  | step => r.step step

/-- What steps select, one after the other. -/
def Step.selections (ctx : EvaluationContext) : List Step → Resolution → Resolution
  | [], before => before
  | step :: rest, before =>
    Step.selections ctx rest (before.next fun r => step.selection ctx r)

/-- What a filter makes of a value. -/
def Filter.value (ctx : EvaluationContext) (value : Value) : Filter → Value
  | .simple each function arguments =>
    ctx.statementValue each function value (.start value) (Expression.values ctx value arguments)
  | .extended statements => FilterStatement.values ctx statements value

/-- What a filter statement makes of a value. -/
def FilterStatement.value (ctx : EvaluationContext) (value : Value) : FilterStatement → Value
  | .mk target each function arguments =>
    ctx.statementValue each function value (Step.selections ctx target (.start value))
      (Expression.values ctx value arguments)

/-- What filter statements make of a value, one after the other. -/
def FilterStatement.values (ctx : EvaluationContext) : List FilterStatement → Value → Value
  | [], value => value
  | statement :: rest, value => FilterStatement.values ctx rest (statement.value ctx value)

end

/-! ### Expressions that read no attribute -/

mutual

/-- No step within the expression reads an attribute. -/
def Expression.attributeFree : Expression → Bool
  | .basic head steps filter template =>
    head.attributeFree && Step.allAttributeFree steps &&
      (match filter with
        | some filter => filter.attributeFree
        | none => true) &&
      (match template with
        | some template => template.attributeFree
        | none => true)
  | .binary _ left right => left.attributeFree && right.attributeFree
  | .unary _ operand => operand.attributeFree
  | .conditional condition consequent alternative =>
    condition.attributeFree && consequent.attributeFree && alternative.attributeFree

def Head.attributeFree : Head → Bool
  | .group inner => inner.attributeFree
  | .function _ arguments => Expression.allAttributeFree arguments
  | .array items => Expression.allAttributeFree items
  | .object members => Expression.membersAttributeFree members
  | _ => true

def Expression.allAttributeFree : List Expression → Bool
  | [] => true
  | e :: rest => e.attributeFree && Expression.allAttributeFree rest

def Expression.membersAttributeFree : List (String × Expression) → Bool
  | [] => true
  | (_, e) :: rest => e.attributeFree && Expression.membersAttributeFree rest

def Step.attributeFree : Step → Bool
  | .attribute _ _ => false
  | .computed expression => expression.attributeFree
  | .condition expression => expression.attributeFree
  | _ => true

def Step.allAttributeFree : List Step → Bool
  | [] => true
  | step :: rest => step.attributeFree && Step.allAttributeFree rest

def Filter.attributeFree : Filter → Bool
  | .simple _ _ arguments => Expression.allAttributeFree arguments
  | .extended statements => FilterStatement.allAttributeFree statements

def FilterStatement.attributeFree : FilterStatement → Bool
  | .mk target _ _ arguments =>
    Step.allAttributeFree target && Expression.allAttributeFree arguments

def FilterStatement.allAttributeFree : List FilterStatement → Bool
  | [] => true
  | statement :: rest => statement.attributeFree && FilterStatement.allAttributeFree rest

end

theorem Expression.attributeFree_basic (head : Head) (steps : List Step) (filter : Option Filter)
    (template : Option Expression) :
    (Expression.basic head steps filter template).attributeFree
      = (head.attributeFree && Step.allAttributeFree steps && filter.all Filter.attributeFree &&
        template.all Expression.attributeFree) := by
  cases filter <;> cases template <;> simp [Expression.attributeFree]

end Verdict
