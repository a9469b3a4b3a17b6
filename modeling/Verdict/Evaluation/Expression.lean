/-
The live values of expressions.

An expression is evaluated to a stream.  Operands are evaluated side by side,
and whatever depends on a value is evaluated anew for each value, so that a
part is subscribed only while the values before it ask for it.

* `Expression.evaluate`, `Head.evaluate`: the values of an expression.
* `Step.apply`, `Step.applyAll`: the selections of steps.
* `Filter.apply`, `FilterStatement.apply`: the values that filters make.

Outside of bodies, where `inBody` is false, no attribute is ever subscribed.
The value `@` is given as `relative`.
-/
import Verdict.Evaluation.Construction
import Verdict.Evaluation.Context
import Verdict.Evaluation.Editing

namespace Verdict

/-- The values that a filter statement makes of a value, from the selections of
its target and the values of its arguments. -/
def EvaluationContext.statement (ctx : EvaluationContext) (each : Bool) (function : String)
    (value : Value) (targets : Stream Resolution) (arguments : Stream (List Value)) :
    Stream Value :=
  match value with
  | .error cause => .just (.error cause)
  | .undefined => .just (.error (.filterTarget "cannot filter an undefined value"))
  | .defined _ =>
    targets.switchMap fun target => arguments.map (edited ctx.functions each function target)

/-- The values that a template makes of one, given its values at an element. -/
def Value.fill (value : Value) (template : Value → Stream Value) : Stream Value :=
  match value with
  | .error cause => .just (.error cause)
  | .defined (.array []) => .just (.defined (.array []))
  | .defined (.array items) =>
    ((Stream.combineLatest (items.map fun item => template (.defined item))).map
      Value.filled).distinct Value.same
  | other => .just (.mismatch ("sub-template expects an array, got " ++ other.kind))

mutual

/-- The values of an expression. -/
def Expression.evaluate (ctx : EvaluationContext) (inBody : Bool) (relative : Value) :
    Expression → Stream Value
  | .basic head steps filter template =>
    let base := head.evaluate ctx inBody relative
    let selected :=
      if steps.isEmpty then base
      else base.switchMap fun value =>
        (Step.applyAll ctx inBody relative steps (.just (.start value))).map Resolution.value
    match filter, template with
    | some filter, _ =>
      selected.switchMap fun value => (filter.apply ctx inBody value).distinct Value.same
    | none, some template =>
      selected.switchMap fun value =>
        value.fill fun element => template.evaluate ctx inBody element
    | none, none => selected
  | .binary op left right =>
    match op.decidedBy? with
    | some decided =>
      ((left.evaluate ctx inBody relative).switchMap fun value =>
        match value with
        | .defined (.bool b) =>
          if b = decided then .just (.ofBool b)
          else (right.evaluate ctx inBody relative).map (Value.lazyOperand op)
        | other => .just (Value.lazyOperand op other)).distinct Value.same
    | none =>
      ((Stream.combineLatest [left.evaluate ctx inBody relative,
        right.evaluate ctx inBody relative]).map fun values =>
          Value.binary op (values.getD 0 .undefined) (values.getD 1 .undefined)).distinct
            Value.same
  | .unary op operand =>
    ((operand.evaluate ctx inBody relative).map (Value.unary op)).distinct Value.same
  | .conditional condition consequent alternative =>
    (condition.evaluate ctx inBody relative).switchMap fun value =>
      match value with
      | .defined (.bool true) => consequent.evaluate ctx inBody relative
      | .defined (.bool false) => alternative.evaluate ctx inBody relative
      | .error cause => .just (.error cause)
      | .undefined => .just .undefined
      | other =>
        .just (.mismatch ("conditional expects a boolean condition, got " ++ other.kind))

/-- The values that a basic expression starts from. -/
def Head.evaluate (ctx : EvaluationContext) (inBody : Bool) (relative : Value) :
    Head → Stream Value
  | .literal value => .just (.defined value)
  | .group inner => inner.evaluate ctx inBody relative
  | .identifier name => .just (ctx.lookup name)
  | .relative => .just relative
  | .function name arguments =>
    ((Stream.combineLatest (Expression.evaluateEach ctx inBody relative arguments)).map
      (ctx.functions.apply name)).distinct Value.same
  | .array items =>
    (Stream.combineLatest (Expression.evaluateEach ctx inBody relative items)).map Value.ofItems
  | .object members =>
    (Stream.combineLatest (Expression.evaluateMembers ctx inBody relative members)).map
      (Value.ofMembers (members.map Prod.fst))

/-- The values of each expression of a list. -/
def Expression.evaluateEach (ctx : EvaluationContext) (inBody : Bool) (relative : Value) :
    List Expression → List (Stream Value)
  | [] => []
  | e :: rest => e.evaluate ctx inBody relative :: Expression.evaluateEach ctx inBody relative rest

/-- The values of the expressions of the members of an object. -/
def Expression.evaluateMembers (ctx : EvaluationContext) (inBody : Bool) (relative : Value) :
    List (String × Expression) → List (Stream Value)
  | [] => []
  | (_, e) :: rest => e.evaluate ctx inBody relative ::
    Expression.evaluateMembers ctx inBody relative rest

/-- The selections that a step makes from one. -/
def Step.apply (ctx : EvaluationContext) (inBody : Bool) (relative : Value) (r : Resolved) :
    Step → Stream Resolution
  | .attribute name arguments =>
    if inBody then
      (Stream.combineLatest (Expression.evaluateEach ctx inBody relative arguments)).switchMap
        fun values =>
          match Value.firstError? values with
          | some cause => .just (.error cause)
          | none =>
            (ctx.finders.subscribe name r.value values ctx.bindings ctx.attributeTimeout).map
              Resolution.start
    else .just (.error (.attributeInTarget name))
  | .computed expression =>
    if r.selection = .nothing then .just (.ok r)
    else (expression.evaluate ctx inBody r.value).switchMap fun key => .just (r.stepBy key)
  | .condition expression =>
    if r.selection = .nothing then .just (.ok r)
    else
      match r.candidates with
      | .error cause => .just (.error cause)
      | .ok candidates =>
        (Stream.combineLatest (candidates.map fun s =>
          expression.evaluate ctx inBody (.defined (r.arena.toJson s.node)))).map
            (r.keep candidates)
  | step => .just (r.step step)

/-- The selections that steps make from the ones before. -/
def Step.applyAll (ctx : EvaluationContext) (inBody : Bool) (relative : Value) :
    List Step → Stream Resolution → Stream Resolution
  | [], before => before
  | step :: rest, before =>
    Step.applyAll ctx inBody relative rest (before.switchMap fun resolution =>
      match resolution with
      | .ok r => step.apply ctx inBody relative r
      | .error cause => .just (.error cause))

/-- The values that a filter makes of one. -/
def Filter.apply (ctx : EvaluationContext) (inBody : Bool) (value : Value) :
    Filter → Stream Value
  | .simple each function arguments =>
    ctx.statement each function value (.just (.start value))
      (Stream.combineLatest (Expression.evaluateEach ctx inBody value arguments))
  | .extended statements => FilterStatement.applyAll ctx inBody statements (.just value)

/-- The values that a statement makes of one. -/
def FilterStatement.apply (ctx : EvaluationContext) (inBody : Bool) (value : Value) :
    FilterStatement → Stream Value
  | .mk target each function arguments =>
    ctx.statement each function value
      (Step.applyAll ctx inBody value target (.just (.start value)))
      (Stream.combineLatest (Expression.evaluateEach ctx inBody value arguments))

/-- The values that statements make of the ones before. -/
def FilterStatement.applyAll (ctx : EvaluationContext) (inBody : Bool) :
    List FilterStatement → Stream Value → Stream Value
  | [], before => before
  | statement :: rest, before =>
    FilterStatement.applyAll ctx inBody rest
      (before.switchMap fun value => statement.apply ctx inBody value)

end

end Verdict
