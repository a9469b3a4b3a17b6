/-
Properties that evaluation keeps.

Evaluation makes its streams of given items and of subscriptions with five
combinators.  A property that these combinators keep therefore holds of every
expression as soon as it holds of what its context subscribes to.

* `Stream.Compositional`: a property of streams that the combinators keep.
* `Expression.evaluate_compositional`: such a property holds of expressions, steps
  and filters.
-/
import Mathlib.Tactic.Common
import Verdict.Evaluation.Expression

namespace Verdict

/-- The property holds of given items, and the combinators of evaluation keep it. -/
structure Stream.Compositional (P : ∀ {α : Type}, Stream α → Prop) : Prop where
  just : ∀ {α : Type} (a : α), P (Stream.just a)
  map : ∀ {α β : Type} {s : Stream α} (f : α → β), P s → P (s.map f)
  distinct : ∀ {α : Type} {s : Stream α} (same : α → α → Bool), P s → P (s.distinct same)
  switchMap : ∀ {α β : Type} {s : Stream α} {project : α → Stream β}, P s →
    (∀ a, P (project a)) → P (s.switchMap project)
  combineLatest : ∀ {α : Type} {ss : List (Stream α)}, (∀ s ∈ ss, P s) →
    P (Stream.combineLatest ss)

variable {P : ∀ {α : Type}, Stream α → Prop} (hP : Stream.Compositional P)
  {ctx : EvaluationContext} {inBody : Bool}
  (hsubscribe : inBody = true → ∀ name left arguments,
    P (ctx.finders.subscribe name left arguments ctx.bindings ctx.attributeTimeout))

include hP

/-- Stages one after the other. -/
lemma Stream.Compositional.foldl_switchMap {α γ : Type} {stage : γ → α → Stream α}
    (hstage : ∀ x a, P (stage x a)) (xs : List γ) {s : Stream α} (h : P s) :
    P (xs.foldl (fun s x => s.switchMap (stage x)) s) := by
  induction xs generalizing s with
  | nil => exact h
  | cons x rest ih => exact ih (hP.switchMap h (hstage x))

/-- A filter statement fails once, or goes through its targets and the values of its
arguments. -/
lemma EvaluationContext.statement_compositional (each : Bool) (function : String) (value : Value)
    {targets : Stream Resolution} {arguments : Stream (List Value)} (htargets : P targets)
    (harguments : P arguments) : P (ctx.statement each function value targets arguments) := by
  cases value with
  | error cause => exact hP.just _
  | undefined => exact hP.just _
  | defined json => exact hP.switchMap htargets fun target => hP.map _ harguments

/-- A template is filled at every element, or once where there is none. -/
lemma Value.fill_compositional (value : Value) {template : Value → Stream Value}
    (h : ∀ element, P (template element)) : P (value.fill template) := by
  match value with
  | .error cause => exact hP.just _
  | .undefined => exact hP.just _
  | .defined (.array []) => exact hP.just _
  | .defined (.array (item :: rest)) =>
    refine hP.distinct _ (hP.map _ (hP.combineLatest fun s hs => ?_))
    obtain ⟨element, -, rfl⟩ := List.mem_map.mp hs
    exact h _
  | .defined .null | .defined (.bool _) | .defined (.number _) | .defined (.string _)
  | .defined (.object _) => exact hP.just _

include hsubscribe

-- The linter looks at each theorem of the mutual block alone, where only the recursion
-- uses the hypotheses.
set_option linter.unusedSectionVars false

mutual

/-- A property that the combinators keep holds of an expression if it holds of what
the context subscribes to; outside of bodies nothing is subscribed. -/
theorem Expression.evaluate_compositional (relative : Value) :
    (e : Expression) → P (e.evaluate ctx inBody relative)
  | .basic head steps filter template => by
    have hbase := head.evaluate_compositional relative
    have hselected : P (if steps.isEmpty then head.evaluate ctx inBody relative
        else (head.evaluate ctx inBody relative).switchMap fun value =>
          (Step.applyAll ctx inBody relative steps (.just (.start value))).map
            Resolution.value) := by
      split
      · exact hbase
      · exact hP.switchMap hbase fun value =>
          hP.map _ (Step.applyAll_compositional relative steps (hP.just _))
    match filter, template with
    | some filter, _ =>
      rw [Expression.evaluate]
      exact hP.switchMap hselected fun value => hP.distinct _ (filter.apply_compositional value)
    | none, some template =>
      rw [Expression.evaluate]
      exact hP.switchMap hselected fun value => value.fill_compositional hP fun element =>
        template.evaluate_compositional element
    | none, none =>
      rw [Expression.evaluate]
      exact hselected
  | .binary op left right => by
    have hleft := left.evaluate_compositional relative
    have hright := right.evaluate_compositional relative
    rw [Expression.evaluate]
    cases op.decidedBy? with
    | some decided =>
      refine hP.distinct _ (hP.switchMap hleft fun operand => ?_)
      match operand with
      | .defined (.bool b) =>
        by_cases hb : b = decided
        · simp only [hb, ↓reduceIte]
          exact hP.just _
        · simp only [hb, ↓reduceIte]
          exact hP.map _ hright
      | .error _ | .undefined | .defined .null | .defined (.number _) | .defined (.string _)
      | .defined (.array _) | .defined (.object _) => exact hP.just _
    | none =>
      refine hP.distinct _ (hP.map _ (hP.combineLatest ?_))
      exact List.forall_mem_cons.mpr ⟨hleft, List.forall_mem_singleton.mpr hright⟩
  | .unary op operand => by
    rw [Expression.evaluate]
    exact hP.distinct _ (hP.map _ (operand.evaluate_compositional relative))
  | .conditional condition consequent alternative => by
    rw [Expression.evaluate]
    refine hP.switchMap (condition.evaluate_compositional relative) fun verdict => ?_
    match verdict with
    | .defined (.bool true) => exact consequent.evaluate_compositional relative
    | .defined (.bool false) => exact alternative.evaluate_compositional relative
    | .error _ | .undefined | .defined .null | .defined (.number _) | .defined (.string _)
    | .defined (.array _) | .defined (.object _) => exact hP.just _

theorem Head.evaluate_compositional (relative : Value) :
    (head : Head) → P (head.evaluate ctx inBody relative)
  | .literal _ => hP.just _
  | .group inner => inner.evaluate_compositional relative
  | .identifier _ => hP.just _
  | .relative => hP.just _
  | .function _ arguments => hP.distinct _ (hP.map _ (hP.combineLatest
      (Expression.evaluateEach_compositional relative arguments)))
  | .array items =>
    hP.map _ (hP.combineLatest (Expression.evaluateEach_compositional relative items))
  | .object members =>
    hP.map _ (hP.combineLatest (Expression.evaluateMembers_compositional relative members))

/-- What is kept holds of the streams of several expressions, one by one. -/
theorem Expression.evaluateEach_compositional (relative : Value) :
    (es : List Expression) → ∀ s ∈ Expression.evaluateEach ctx inBody relative es, P s
  | [] => by simp [Expression.evaluateEach]
  | e :: rest => by
    rw [Expression.evaluateEach, List.forall_mem_cons]
    exact ⟨e.evaluate_compositional relative, Expression.evaluateEach_compositional relative rest⟩

/-- The same of the members of an object, whatever their names. -/
theorem Expression.evaluateMembers_compositional (relative : Value) :
    (members : List (String × Expression)) →
      ∀ s ∈ Expression.evaluateMembers ctx inBody relative members, P s
  | [] => by simp [Expression.evaluateMembers]
  | (_, e) :: rest => by
    rw [Expression.evaluateMembers, List.forall_mem_cons]
    exact ⟨e.evaluate_compositional relative,
      Expression.evaluateMembers_compositional relative rest⟩

/-- Only an attribute step subscribes to anything, and it does so only inside a body. -/
theorem Step.apply_compositional (relative : Value) (r : Resolved) :
    (step : Step) → P (step.apply ctx inBody relative r)
  | .attribute name arguments => by
    rw [Step.apply]
    split
    · refine hP.switchMap (hP.combineLatest
        (Expression.evaluateEach_compositional relative arguments)) fun values => ?_
      cases Value.firstError? values with
      | some cause => exact hP.just _
      | none => exact hP.map _ (hsubscribe ‹_› _ _ _)
    · exact hP.just _
  | .computed expression => by
    rw [Step.apply]
    split
    · exact hP.just _
    · exact hP.switchMap (expression.evaluate_compositional r.value) fun key => hP.just _
  | .condition expression => by
    rw [Step.apply]
    split
    · exact hP.just _
    · cases r.candidates with
      | error cause => exact hP.just _
      | ok candidates =>
        refine hP.map _ (hP.combineLatest fun s hs => ?_)
        obtain ⟨candidate, -, rfl⟩ := List.mem_map.mp hs
        exact expression.evaluate_compositional _
  | .key _ | .index _ | .wildcard | .slice _ _ _ | .recursiveKey _ | .recursiveIndex _
  | .recursiveWildcard | .keyUnion _ | .indexUnion _ => hP.just _

/-- Steps behind a stream of selections, one after the other. -/
theorem Step.applyAll_compositional (relative : Value) :
    (steps : List Step) → {before : Stream Resolution} → P before →
      P (Step.applyAll ctx inBody relative steps before)
  | [], _, hbefore => hbefore
  | step :: rest, before, hbefore => by
    rw [Step.applyAll]
    refine Step.applyAll_compositional relative rest (hP.switchMap hbefore fun resolution => ?_)
    cases resolution with
    | error cause => exact hP.just _
    | ok r => exact step.apply_compositional relative r

theorem Filter.apply_compositional (value : Value) :
    (filter : Filter) → P (filter.apply ctx inBody value)
  | .simple each function arguments =>
    EvaluationContext.statement_compositional hP each function value (hP.just _)
      (hP.combineLatest (Expression.evaluateEach_compositional value arguments))
  | .extended statements => FilterStatement.applyAll_compositional statements (hP.just value)

theorem FilterStatement.apply_compositional (value : Value) :
    (statement : FilterStatement) → P (statement.apply ctx inBody value)
  | .mk target each function arguments =>
    EvaluationContext.statement_compositional hP each function value
      (Step.applyAll_compositional value target (hP.just _))
      (hP.combineLatest (Expression.evaluateEach_compositional value arguments))

/-- Filter statements behind a stream of values, one after the other. -/
theorem FilterStatement.applyAll_compositional :
    (statements : List FilterStatement) → {before : Stream Value} → P before →
      P (FilterStatement.applyAll ctx inBody statements before)
  | [], _, hbefore => hbefore
  | statement :: rest, before, hbefore => by
    rw [FilterStatement.applyAll]
    exact FilterStatement.applyAll_compositional rest
      (hP.switchMap hbefore fun value => statement.apply_compositional value)

end

end Verdict
