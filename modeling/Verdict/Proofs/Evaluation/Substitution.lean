/-
Values in place of variables.

An expression whose variables are replaced by their values, at every place where one may
stand, in operands, arguments, steps, conditions, filters and templates alike, has the
same live values.  So what it sees under a name is what the context has under it, however
deep the variable stands.

* `Assignment`: the values that are put in place of some variables.
* `Expression.substitute`: the expression with these values; so for heads, steps and filters.
* `EvaluationContext.Substitutes`: contexts that give an expression and what becomes of it
  the same values.
* `Expression.evaluate_substitute`: the same stream.
* `Expression.substitute_none`: nothing is put in place of nothing.
-/
import Mathlib.Tactic.Common
import Verdict.Evaluation.Expression

namespace Verdict

/-- The values that are put in place of some variables. -/
abbrev Assignment : Type := String → Option Json

variable {σ : Assignment}

/-! ### Replacing variables -/

mutual

/-- The expression with the assigned values in place of the variables. -/
def Expression.substitute (σ : Assignment) : Expression → Expression
  | .basic head steps filter template =>
    .basic (head.substitute σ) (Step.substituteEach σ steps) (Filter.substituteOptional σ filter)
      (Expression.substituteOptional σ template)
  | .binary op left right => .binary op (left.substitute σ) (right.substitute σ)
  | .unary op operand => .unary op (operand.substitute σ)
  | .conditional condition consequent alternative =>
    .conditional (condition.substitute σ) (consequent.substitute σ) (alternative.substitute σ)

/-- The expression, if there is one, with the assigned values in place of the variables. -/
def Expression.substituteOptional (σ : Assignment) : Option Expression → Option Expression
  | some e => some (e.substitute σ)
  | none => none

/-- The head with the assigned values in place of the variables. -/
def Head.substitute (σ : Assignment) : Head → Head
  | .literal value => .literal value
  | .group inner => .group (inner.substitute σ)
  | .identifier name =>
    match σ name with
    | some value => .literal value
    | none => .identifier name
  | .relative => .relative
  | .function name arguments => .function name (Expression.substituteEach σ arguments)
  | .array items => .array (Expression.substituteEach σ items)
  | .object members => .object (Expression.substituteMembers σ members)

/-- The expressions with the assigned values in place of the variables. -/
def Expression.substituteEach (σ : Assignment) : List Expression → List Expression
  | [] => []
  | e :: rest => e.substitute σ :: Expression.substituteEach σ rest

/-- The members with the assigned values in place of the variables. -/
def Expression.substituteMembers (σ : Assignment) :
    List (String × Expression) → List (String × Expression)
  | [] => []
  | (name, e) :: rest => (name, e.substitute σ) :: Expression.substituteMembers σ rest

/-- The step with the assigned values in place of the variables. -/
def Step.substitute (σ : Assignment) : Step → Step
  | .computed expression => .computed (expression.substitute σ)
  | .condition expression => .condition (expression.substitute σ)
  | .attribute name arguments => .attribute name (Expression.substituteEach σ arguments)
  | step => step

/-- The steps with the assigned values in place of the variables. -/
def Step.substituteEach (σ : Assignment) : List Step → List Step
  | [] => []
  | step :: rest => step.substitute σ :: Step.substituteEach σ rest

/-- The filter with the assigned values in place of the variables. -/
def Filter.substitute (σ : Assignment) : Filter → Filter
  | .simple each function arguments =>
    .simple each function (Expression.substituteEach σ arguments)
  | .extended statements => .extended (FilterStatement.substituteEach σ statements)

/-- The filter, if there is one, with the assigned values in place of the variables. -/
def Filter.substituteOptional (σ : Assignment) : Option Filter → Option Filter
  | some filter => some (filter.substitute σ)
  | none => none

/-- The statement with the assigned values in place of the variables. -/
def FilterStatement.substitute (σ : Assignment) : FilterStatement → FilterStatement
  | .mk target each function arguments =>
    .mk (Step.substituteEach σ target) each function (Expression.substituteEach σ arguments)

/-- The statements with the assigned values in place of the variables. -/
def FilterStatement.substituteEach (σ : Assignment) :
    List FilterStatement → List FilterStatement
  | [] => []
  | statement :: rest => statement.substitute σ :: FilterStatement.substituteEach σ rest

end

/-! ### The same values -/

/-- What is evaluated in the second context, with the assigned values in place of the
variables, has there the values that it has in the first one without. -/
structure EvaluationContext.Substitutes (σ : Assignment) (inBody : Bool)
    (ctx ctx' : EvaluationContext) : Prop where
  functions : ctx.functions = ctx'.functions
  assigned : ∀ name value, σ name = some value → ctx.lookup name = .defined value
  lookup : ∀ name, σ name = none → ctx.lookup name = ctx'.lookup name
  /-- The finders are asked in bodies alone. -/
  subscribe : inBody = true → ∀ name left arguments,
    ctx.finders.subscribe name left arguments ctx.bindings ctx.attributeTimeout
      = ctx'.finders.subscribe name left arguments ctx'.bindings ctx'.attributeTimeout

section

variable {inBody : Bool} {ctx ctx' : EvaluationContext} (h : ctx.Substitutes σ inBody ctx')

include h

/-- Filter statements depend on the functions alone, which both contexts share. -/
lemma EvaluationContext.Substitutes.statement (each : Bool) (function : String) (value : Value)
    (targets : Stream Resolution) (arguments : Stream (List Value)) :
    ctx.statement each function value targets arguments
      = ctx'.statement each function value targets arguments := by
  cases value with
  | error cause => rfl
  | undefined => rfl
  | defined json => simp only [EvaluationContext.statement, h.functions]

end

/-- Substitution drops no step. -/
lemma Step.isEmpty_substituteEach (steps : List Step) :
    (Step.substituteEach σ steps).isEmpty = steps.isEmpty := by
  cases steps <;> rfl

/-- Substitution keeps the names of members. -/
lemma Expression.keys_substituteMembers (members : List (String × Expression)) :
    (Expression.substituteMembers σ members).map Prod.fst = members.map Prod.fst := by
  induction members with
  | nil => rfl
  | cons member rest ih => rw [Expression.substituteMembers, List.map_cons, ih, List.map_cons]

section

variable {inBody : Bool} {ctx ctx' : EvaluationContext} (h : ctx.Substitutes σ inBody ctx')

include h

-- The linter looks at each theorem of the mutual block alone, where only the recursion
-- uses the hypothesis.
set_option linter.unusedSectionVars false

mutual

/-- With values in place of variables that have these values, an expression has the same
stream of values. -/
theorem Expression.evaluate_substitute (relative : Value) :
    (e : Expression) →
      e.evaluate ctx inBody relative = (e.substitute σ).evaluate ctx' inBody relative
  | .basic head steps filter template => by
    have hselected : (if steps.isEmpty then head.evaluate ctx inBody relative
        else (head.evaluate ctx inBody relative).switchMap fun value =>
          (Step.applyAll ctx inBody relative steps (.just (.start value))).map Resolution.value)
        = if (Step.substituteEach σ steps).isEmpty then
            (head.substitute σ).evaluate ctx' inBody relative
          else ((head.substitute σ).evaluate ctx' inBody relative).switchMap fun value =>
            (Step.applyAll ctx' inBody relative (Step.substituteEach σ steps)
              (.just (.start value))).map Resolution.value := by
      simp only [head.evaluate_substitute relative, Step.applyAll_substitute relative steps,
        Step.isEmpty_substituteEach]
    match filter, template with
    | some filter, _ =>
      rw [Expression.evaluate, Expression.substitute, Filter.substituteOptional,
        Expression.evaluate, hselected]
      exact congrArg _ (funext fun value => by rw [filter.apply_substitute value])
    | none, some template =>
      rw [Expression.evaluate, Expression.substitute, Filter.substituteOptional,
        Expression.substituteOptional, Expression.evaluate, hselected]
      exact congrArg _ (funext fun value => congrArg _ (funext fun element =>
        template.evaluate_substitute element))
    | none, none =>
      rw [Expression.evaluate, Expression.substitute, Filter.substituteOptional,
        Expression.substituteOptional, Expression.evaluate, hselected]
  | .binary op left right => by
    rw [Expression.evaluate, Expression.substitute, Expression.evaluate,
      left.evaluate_substitute relative, right.evaluate_substitute relative]
  | .unary op operand => by
    rw [Expression.evaluate, Expression.substitute, Expression.evaluate,
      operand.evaluate_substitute relative]
  | .conditional condition consequent alternative => by
    rw [Expression.evaluate, Expression.substitute, Expression.evaluate,
      condition.evaluate_substitute relative, consequent.evaluate_substitute relative,
      alternative.evaluate_substitute relative]

/-- A variable that is substituted has its value written in its place. -/
theorem Head.evaluate_substitute (relative : Value) :
    (head : Head) →
      head.evaluate ctx inBody relative = (head.substitute σ).evaluate ctx' inBody relative
  | .literal _ => rfl
  | .group inner => inner.evaluate_substitute relative
  | .identifier name => by
    rw [Head.evaluate, Head.substitute]
    cases hσ : σ name with
    | some value => exact congrArg Stream.just (h.assigned name value hσ)
    | none => exact congrArg Stream.just (h.lookup name hσ)
  | .relative => rfl
  | .function _ arguments => by
    rw [Head.evaluate, Head.substitute, Head.evaluate,
      Expression.evaluateEach_substitute relative arguments, h.functions]
  | .array items => by
    rw [Head.evaluate, Head.substitute, Head.evaluate,
      Expression.evaluateEach_substitute relative items]
  | .object members => by
    rw [Head.evaluate, Head.substitute, Head.evaluate,
      Expression.evaluateMembers_substitute relative members, Expression.keys_substituteMembers]

theorem Expression.evaluateEach_substitute (relative : Value) :
    (es : List Expression) → Expression.evaluateEach ctx inBody relative es
      = Expression.evaluateEach ctx' inBody relative (Expression.substituteEach σ es)
  | [] => rfl
  | e :: rest => by
    rw [Expression.evaluateEach, Expression.substituteEach, Expression.evaluateEach,
      e.evaluate_substitute relative, Expression.evaluateEach_substitute relative rest]

theorem Expression.evaluateMembers_substitute (relative : Value) :
    (members : List (String × Expression)) → Expression.evaluateMembers ctx inBody relative members
      = Expression.evaluateMembers ctx' inBody relative (Expression.substituteMembers σ members)
  | [] => rfl
  | (_, e) :: rest => by
    rw [Expression.evaluateMembers, Expression.substituteMembers, Expression.evaluateMembers,
      e.evaluate_substitute relative, Expression.evaluateMembers_substitute relative rest]

/-- Attribute steps subscribe alike in both contexts. -/
theorem Step.apply_substitute (relative : Value) (r : Resolved) :
    (step : Step) →
      step.apply ctx inBody relative r = (step.substitute σ).apply ctx' inBody relative r
  | .attribute name arguments => by
    rw [Step.apply, Step.substitute, Step.apply,
      Expression.evaluateEach_substitute relative arguments]
    split
    · simp only [h.subscribe ‹_›]
    · rfl
  | .computed expression => by
    rw [Step.apply, Step.substitute, Step.apply, expression.evaluate_substitute r.value]
  | .condition expression => by
    simp only [Step.apply, Step.substitute, fun value => expression.evaluate_substitute value]
  | .key _ | .index _ | .wildcard | .slice _ _ _ | .recursiveKey _ | .recursiveIndex _
  | .recursiveWildcard | .keyUnion _ | .indexUnion _ => rfl

theorem Step.applyAll_substitute (relative : Value) :
    (steps : List Step) → (before : Stream Resolution) →
      Step.applyAll ctx inBody relative steps before
        = Step.applyAll ctx' inBody relative (Step.substituteEach σ steps) before
  | [], _ => rfl
  | step :: rest, before => by
    rw [Step.applyAll, Step.substituteEach, Step.applyAll, Step.applyAll_substitute relative rest]
    simp only [fun r => step.apply_substitute relative r]

theorem Filter.apply_substitute (value : Value) :
    (filter : Filter) →
      filter.apply ctx inBody value = (filter.substitute σ).apply ctx' inBody value
  | .simple each function arguments => by
    rw [Filter.apply, Filter.substitute, Filter.apply, h.statement,
      Expression.evaluateEach_substitute value arguments]
  | .extended statements => FilterStatement.applyAll_substitute statements (.just value)

theorem FilterStatement.apply_substitute (value : Value) :
    (statement : FilterStatement) →
      statement.apply ctx inBody value = (statement.substitute σ).apply ctx' inBody value
  | .mk target each function arguments => by
    rw [FilterStatement.apply, FilterStatement.substitute, FilterStatement.apply, h.statement,
      Step.applyAll_substitute value target, Expression.evaluateEach_substitute value arguments]

theorem FilterStatement.applyAll_substitute :
    (statements : List FilterStatement) → (before : Stream Value) →
      FilterStatement.applyAll ctx inBody statements before
        = FilterStatement.applyAll ctx' inBody (FilterStatement.substituteEach σ statements) before
  | [], _ => rfl
  | statement :: rest, before => by
    rw [FilterStatement.applyAll, FilterStatement.substituteEach, FilterStatement.applyAll,
      FilterStatement.applyAll_substitute rest]
    simp only [fun value => statement.apply_substitute value]

end

end

/-! ### Nothing to replace -/

mutual

/-- Where nothing is assigned an expression stays as it is. -/
theorem Expression.substitute_none : (e : Expression) → e.substitute (fun _ => none) = e
  | .basic head steps filter template => by
    rw [Expression.substitute, head.substitute_none, Step.substituteEach_none steps,
      Filter.substituteOptional_none filter, Expression.substituteOptional_none template]
  | .binary op left right => by
    rw [Expression.substitute, left.substitute_none, right.substitute_none]
  | .unary op operand => by rw [Expression.substitute, operand.substitute_none]
  | .conditional condition consequent alternative => by
    rw [Expression.substitute, condition.substitute_none, consequent.substitute_none,
      alternative.substitute_none]

theorem Expression.substituteOptional_none :
    (e : Option Expression) → Expression.substituteOptional (fun _ => none) e = e
  | some e => by rw [Expression.substituteOptional, e.substitute_none]
  | none => rfl

theorem Head.substitute_none : (head : Head) → head.substitute (fun _ => none) = head
  | .literal _ => rfl
  | .group inner => by rw [Head.substitute, inner.substitute_none]
  | .identifier _ => rfl
  | .relative => rfl
  | .function _ arguments => by rw [Head.substitute, Expression.substituteEach_none arguments]
  | .array items => by rw [Head.substitute, Expression.substituteEach_none items]
  | .object members => by rw [Head.substitute, Expression.substituteMembers_none members]

/-- Where nothing is substituted a list of expressions stays as it is. -/
theorem Expression.substituteEach_none :
    (es : List Expression) → Expression.substituteEach (fun _ => none) es = es
  | [] => rfl
  | e :: rest => by
    rw [Expression.substituteEach, e.substitute_none, Expression.substituteEach_none rest]

theorem Expression.substituteMembers_none :
    (members : List (String × Expression)) →
      Expression.substituteMembers (fun _ => none) members = members
  | [] => rfl
  | (_, e) :: rest => by
    rw [Expression.substituteMembers, e.substitute_none, Expression.substituteMembers_none rest]

theorem Step.substitute_none : (step : Step) → step.substitute (fun _ => none) = step
  | .computed expression => by rw [Step.substitute, expression.substitute_none]
  | .condition expression => by rw [Step.substitute, expression.substitute_none]
  | .attribute _ arguments => by rw [Step.substitute, Expression.substituteEach_none arguments]
  | .key _ | .index _ | .wildcard | .slice _ _ _ | .recursiveKey _ | .recursiveIndex _
  | .recursiveWildcard | .keyUnion _ | .indexUnion _ => rfl

theorem Step.substituteEach_none :
    (steps : List Step) → Step.substituteEach (fun _ => none) steps = steps
  | [] => rfl
  | step :: rest => by
    rw [Step.substituteEach, step.substitute_none, Step.substituteEach_none rest]

theorem Filter.substitute_none : (filter : Filter) → filter.substitute (fun _ => none) = filter
  | .simple _ _ arguments => by rw [Filter.substitute, Expression.substituteEach_none arguments]
  | .extended statements => by
    rw [Filter.substitute, FilterStatement.substituteEach_none statements]

theorem Filter.substituteOptional_none :
    (filter : Option Filter) → Filter.substituteOptional (fun _ => none) filter = filter
  | some filter => by rw [Filter.substituteOptional, filter.substitute_none]
  | none => rfl

theorem FilterStatement.substitute_none :
    (statement : FilterStatement) → statement.substitute (fun _ => none) = statement
  | .mk target _ _ arguments => by
    rw [FilterStatement.substitute, Step.substituteEach_none target,
      Expression.substituteEach_none arguments]

theorem FilterStatement.substituteEach_none :
    (statements : List FilterStatement) →
      FilterStatement.substituteEach (fun _ => none) statements = statements
  | [] => rfl
  | statement :: rest => by
    rw [FilterStatement.substituteEach, statement.substitute_none,
      FilterStatement.substituteEach_none rest]

end

/-- Contexts that give the same values give an expression the same stream of values. -/
theorem Expression.evaluate_eq {inBody : Bool} {ctx ctx' : EvaluationContext}
    (h : ctx.Substitutes (fun _ => none) inBody ctx') (relative : Value) (e : Expression) :
    e.evaluate ctx inBody relative = e.evaluate ctx' inBody relative := by
  rw [e.evaluate_substitute h relative, e.substitute_none]

end Verdict
