/-
The live evaluator agrees with the direct one where nothing is live.

* `Expression.evaluate_yields`: outside of bodies, and wherever no attribute is
  read, an expression delivers its value and ends.
* `Step.applyAll_yields`, `Filter.apply_yields`: the same for steps and filters.
* `Expression.run_evaluate`: what that says of a run.
-/
import Verdict.Proofs.Evaluation.Direct
import Verdict.Proofs.Stream.Single

namespace Verdict

/-! ### Parts -/

/-- A filter statement yields what it makes of the one selection of its target and the one list
of arguments. -/
lemma EvaluationContext.statement_yields (ctx : EvaluationContext) (each : Bool)
    (function : String) (value : Value) {targets : Stream Resolution} {target : Resolution}
    {arguments : Stream (List Value)} {values : List Value} (htargets : targets.Yields target)
    (harguments : arguments.Yields values) :
    (ctx.statement each function value targets arguments).Yields
      (ctx.statementValue each function value target values) := by
  cases value with
  | error cause => exact Stream.yields_just _
  | undefined => exact Stream.yields_just _
  | defined json => exact htargets.switchMap (harguments.map _)

/-- A template that yields one value at each element yields one filled array. -/
lemma Value.fill_yields (value : Value) {template : Value → Stream Value} {f : Value → Value}
    (h : ∀ element, (template element).Yields (f element)) :
    (value.fill template).Yields (value.filledBy f) := by
  have hall (items : List Json) : List.Forall₂ Stream.Yields
      (items.map fun item => template (.defined item))
      (items.map fun item => f (.defined item)) := by
    rw [List.forall₂_map_left_iff, List.forall₂_map_right_iff]
    exact List.forall₂_same.mpr fun item _ => h _
  match value with
  | .error cause => exact Stream.yields_just _
  | .undefined => exact Stream.yields_just _
  | .defined (.array []) => exact Stream.yields_just _
  | .defined (.array (item :: rest)) =>
    exact ((Stream.Yields.combineLatest (hall (item :: rest))).map _).distinct _
  | .defined .null | .defined (.bool _) | .defined (.number _) | .defined (.string _)
  | .defined (.object _) => exact Stream.yields_just _

/-! ### Expressions -/

mutual

/-- Outside of bodies, and wherever no attribute is read, an expression delivers
its value and ends. -/
theorem Expression.evaluate_yields (ctx : EvaluationContext) (inBody : Bool) (relative : Value) :
    (e : Expression) → (inBody = true → e.attributeFree = true) →
      (e.evaluate ctx inBody relative).Yields (e.value ctx relative)
  | .basic head steps filter template, h => by
    simp only [Expression.attributeFree_basic, Bool.and_eq_true, imp_and] at h
    obtain ⟨⟨⟨hhead, hsteps⟩, hfilter⟩, htemplate⟩ := h
    have hbase := head.evaluate_yields ctx inBody relative hhead
    have hselected : (if steps.isEmpty then head.evaluate ctx inBody relative
        else (head.evaluate ctx inBody relative).switchMap fun value =>
          (Step.applyAll ctx inBody relative steps (.just (.start value))).map
            Resolution.value).Yields
        (if steps.isEmpty then head.value ctx relative
          else (Step.selections ctx steps (.start (head.value ctx relative))).value) := by
      split
      · exact hbase
      · exact hbase.switchMap
          ((Step.applyAll_yields ctx inBody relative steps hsteps (Stream.yields_just _)).map _)
    match filter, template with
    | some filter, _ =>
      rw [Expression.evaluate, Expression.value]
      exact hselected.switchMap ((filter.apply_yields ctx inBody _ hfilter).distinct _)
    | none, some template =>
      rw [Expression.evaluate, Expression.value]
      exact hselected.switchMap (Value.fill_yields _ fun element =>
        template.evaluate_yields ctx inBody element htemplate)
    | none, none =>
      rw [Expression.evaluate, Expression.value]
      exact hselected
  | .binary op left right, h => by
    simp only [Expression.attributeFree, Bool.and_eq_true, imp_and] at h
    have hleft := left.evaluate_yields ctx inBody relative h.1
    have hright := right.evaluate_yields ctx inBody relative h.2
    rw [Expression.evaluate, Expression.value]
    cases op.decidedBy? with
    | some decided =>
      generalize left.value ctx relative = operand at hleft ⊢
      refine (hleft.switchMap ?_).distinct _
      match operand with
      | .defined (.bool b) =>
        by_cases hb : b = decided
        · simp only [hb, ↓reduceIte]
          exact Stream.yields_just _
        · simp only [hb, ↓reduceIte]
          exact hright.map _
      | .error _ | .undefined | .defined .null | .defined (.number _) | .defined (.string _)
      | .defined (.array _) | .defined (.object _) => exact Stream.yields_just _
    | none =>
      exact ((Stream.Yields.combineLatest (.cons hleft (.cons hright .nil))).map _).distinct _
  | .unary op operand, h => by
    rw [Expression.evaluate, Expression.value]
    exact ((operand.evaluate_yields ctx inBody relative h).map _).distinct _
  | .conditional condition consequent alternative, h => by
    simp only [Expression.attributeFree, Bool.and_eq_true, imp_and] at h
    rw [Expression.evaluate, Expression.value]
    have hcondition := condition.evaluate_yields ctx inBody relative h.1.1
    generalize condition.value ctx relative = verdict at hcondition ⊢
    refine hcondition.switchMap ?_
    match verdict with
    | .defined (.bool true) => exact consequent.evaluate_yields ctx inBody relative h.1.2
    | .defined (.bool false) => exact alternative.evaluate_yields ctx inBody relative h.2
    | .error _ | .undefined | .defined .null | .defined (.number _) | .defined (.string _)
    | .defined (.array _) | .defined (.object _) => exact Stream.yields_just _

/-- A head yields one value; a call has one list of arguments, and so one result. -/
theorem Head.evaluate_yields (ctx : EvaluationContext) (inBody : Bool) (relative : Value) :
    (head : Head) → (inBody = true → head.attributeFree = true) →
      (head.evaluate ctx inBody relative).Yields (head.value ctx relative)
  | .literal _, _ => Stream.yields_just _
  | .group inner, h => inner.evaluate_yields ctx inBody relative h
  | .identifier _, _ => Stream.yields_just _
  | .relative, _ => Stream.yields_just _
  | .function _ arguments, h =>
    ((Stream.Yields.combineLatest
      (Expression.evaluateEach_yields ctx inBody relative arguments h)).map _).distinct _
  | .array items, h =>
    (Stream.Yields.combineLatest
      (Expression.evaluateEach_yields ctx inBody relative items h)).map _
  | .object members, h =>
    (Stream.Yields.combineLatest
      (Expression.evaluateMembers_yields ctx inBody relative members h)).map _

/-- Each expression of a list yields its own value. -/
theorem Expression.evaluateEach_yields (ctx : EvaluationContext) (inBody : Bool)
    (relative : Value) :
    (es : List Expression) → (inBody = true → Expression.allAttributeFree es = true) →
      List.Forall₂ Stream.Yields (Expression.evaluateEach ctx inBody relative es)
        (Expression.values ctx relative es)
  | [], _ => .nil
  | e :: rest, h => by
    simp only [Expression.allAttributeFree, Bool.and_eq_true, imp_and] at h
    exact .cons (e.evaluate_yields ctx inBody relative h.1)
      (Expression.evaluateEach_yields ctx inBody relative rest h.2)

theorem Expression.evaluateMembers_yields (ctx : EvaluationContext) (inBody : Bool)
    (relative : Value) :
    (members : List (String × Expression)) →
      (inBody = true → Expression.membersAttributeFree members = true) →
      List.Forall₂ Stream.Yields (Expression.evaluateMembers ctx inBody relative members)
        (Expression.memberValues ctx relative members)
  | [], _ => .nil
  | (_, e) :: rest, h => by
    simp only [Expression.membersAttributeFree, Bool.and_eq_true, imp_and] at h
    exact .cons (e.evaluate_yields ctx inBody relative h.1)
      (Expression.evaluateMembers_yields ctx inBody relative rest h.2)

/-- Outside of bodies, or where no attribute is read, a step yields one selection: an attribute
step fails, and the others select directly. -/
theorem Step.apply_yields (ctx : EvaluationContext) (inBody : Bool) (relative : Value)
    (r : Resolved) : (step : Step) → (inBody = true → step.attributeFree = true) →
      (step.apply ctx inBody relative r).Yields (step.selection ctx r)
  | .attribute name arguments, h => by
    cases inBody with
    | true => exact absurd (h rfl) (by simp [Step.attributeFree])
    | false => exact Stream.yields_just _
  | .computed expression, h => by
    rw [Step.apply, Step.selection]
    split
    · exact Stream.yields_just _
    · exact (expression.evaluate_yields ctx inBody r.value h).switchMap (Stream.yields_just _)
  | .condition expression, h => by
    rw [Step.apply, Step.selection]
    split
    · exact Stream.yields_just _
    · cases r.candidates with
      | error cause => exact Stream.yields_just _
      | ok candidates =>
        refine (Stream.Yields.combineLatest ?_).map _
        rw [List.forall₂_map_left_iff, List.forall₂_map_right_iff]
        exact List.forall₂_same.mpr fun s _ => expression.evaluate_yields ctx inBody _ h
  | .key _, _ | .index _, _ | .wildcard, _ | .slice _ _ _, _ | .recursiveKey _, _
  | .recursiveIndex _, _ | .recursiveWildcard, _ | .keyUnion _, _ | .indexUnion _, _ =>
    Stream.yields_just _

/-- Steps behind a stream that yields one selection. -/
theorem Step.applyAll_yields (ctx : EvaluationContext) (inBody : Bool) (relative : Value) :
    (steps : List Step) → (inBody = true → Step.allAttributeFree steps = true) →
      {before : Stream Resolution} → {start : Resolution} → before.Yields start →
      (Step.applyAll ctx inBody relative steps before).Yields (Step.selections ctx steps start)
  | [], _, _, _, hbefore => hbefore
  | step :: rest, h, before, start, hbefore => by
    simp only [Step.allAttributeFree, Bool.and_eq_true, imp_and] at h
    rw [Step.applyAll, Step.selections]
    refine Step.applyAll_yields ctx inBody relative rest h.2 (hbefore.switchMap ?_)
    cases start with
    | error cause => exact Stream.yields_just _
    | ok r => exact step.apply_yields ctx inBody relative r h.1

theorem Filter.apply_yields (ctx : EvaluationContext) (inBody : Bool) (value : Value) :
    (filter : Filter) → (inBody = true → filter.attributeFree = true) →
      (filter.apply ctx inBody value).Yields (filter.value ctx value)
  | .simple each function arguments, h =>
    ctx.statement_yields each function value (Stream.yields_just _)
      (Stream.Yields.combineLatest
        (Expression.evaluateEach_yields ctx inBody value arguments h))
  | .extended statements, h =>
    FilterStatement.applyAll_yields ctx inBody statements h (Stream.yields_just _)

theorem FilterStatement.apply_yields (ctx : EvaluationContext) (inBody : Bool) (value : Value) :
    (statement : FilterStatement) → (inBody = true → statement.attributeFree = true) →
      (statement.apply ctx inBody value).Yields (statement.value ctx value)
  | .mk target each function arguments, h => by
    simp only [FilterStatement.attributeFree, Bool.and_eq_true, imp_and] at h
    exact ctx.statement_yields each function value
      (Step.applyAll_yields ctx inBody value target h.1 (Stream.yields_just _))
      (Stream.Yields.combineLatest
        (Expression.evaluateEach_yields ctx inBody value arguments h.2))

/-- Filter statements behind a stream that yields one value. -/
theorem FilterStatement.applyAll_yields (ctx : EvaluationContext) (inBody : Bool) :
    (statements : List FilterStatement) →
      (inBody = true → FilterStatement.allAttributeFree statements = true) →
      {before : Stream Value} → {start : Value} → before.Yields start →
      (FilterStatement.applyAll ctx inBody statements before).Yields
        (FilterStatement.values ctx statements start)
  | [], _, _, _, hbefore => hbefore
  | statement :: rest, h, before, start, hbefore => by
    simp only [FilterStatement.allAttributeFree, Bool.and_eq_true, imp_and] at h
    exact FilterStatement.applyAll_yields ctx inBody rest h.2
      (hbefore.switchMap (statement.apply_yields ctx inBody start h.1))

end

/-- Outside of bodies, and wherever no attribute is read, the run of an expression
in any world is its value and then the end, whatever happens to the world
between the two. -/
theorem Expression.run_evaluate (ctx : EvaluationContext) (inBody : Bool) (relative : Value)
    (e : Expression) (h : inBody = false ∨ e.attributeFree = true) (w : World) :
    ∃ rest, (e.evaluate ctx inBody relative).run w = .item (e.value ctx relative) rest .ended ∧
      (∀ w', rest.run w' = .ended) ∧ ∀ event, rest.notify event = (false, rest) := by
  have hyields := e.evaluate_yields ctx inBody relative fun hbody => by
    rcases h with hout | hfree
    · rw [hout] at hbody
      exact absurd hbody Bool.false_ne_true
    · exact hfree
  obtain ⟨rest, hrun, hspent⟩ := hyields w
  exact ⟨rest, hrun, hspent.ends, hspent.quiet⟩

/-- In a body, a lazy operator whose left side decides. -/
theorem Expression.run_evaluate_lazy :
    ∃ rest, ((Expression.binary .and (.literal (.bool false)) (.named "subject")).evaluate
        { functions := .empty } true .undefined).run default
          = .item (.ofBool false) rest .ended ∧
      (∀ w', rest.run w' = .ended) ∧ ∀ event, rest.notify event = (false, rest) :=
  Expression.run_evaluate { functions := .empty } true .undefined
    (.binary .and (.literal (.bool false)) (.named "subject")) (.inr (by decide)) default

end Verdict
