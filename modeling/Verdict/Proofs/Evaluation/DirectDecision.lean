/-
The direct decisions of documents.

Where no attribute is read a document has one decision.  Here it is computed in
order: the target, the statements of the body, the constraints; a set evaluates
its variables after its target and combines the decisions of all its policies.

* `VariableDefinition.bound`, `Statement.outcome`, `bodyOutcome`: how a body
  holds.
* `Constraints.value`: the constraints of expressions.
* `Policy.decision`, `PolicySet.decision`, `PolicyDocument.decision`: the
  decisions of documents.
* `Policy.evaluate_yields`, `PolicySet.evaluate_yields`,
  `PolicyDocument.evaluate_yields`: the live decisions are these.
-/
import Verdict.Evaluation.Document
import Verdict.Proofs.Evaluation.Refinement

namespace Verdict

/-! ### Decisions -/

/-- The constraints that expressions evaluate to. -/
def Constraints.value (ctx : EvaluationContext) (obligations advice : List Expression)
    (transformation : Option Expression) : Except EvalError Constraints := do
  return {
    obligations := ← obligationsOf (Expression.values ctx .undefined obligations)
    advice := ← adviceOf (Expression.values ctx .undefined advice)
    resource := ← resourceOf (Expression.values ctx .undefined transformation.toList) }

/-- The decision of a document whose matched part decides so. -/
def DocumentDecision.guarded (ctx : EvaluationContext) (document : String)
    (target : Option Expression) (matched : DocumentDecision) : DocumentDecision :=
  match target with
  | none => matched
  | some target =>
    match target.value ctx .undefined with
    | .defined (.bool true) => matched
    | other => .ofTarget document other

/-- The context with the variable of a definition bound to its value. -/
def VariableDefinition.bound (definition : VariableDefinition) (ctx : EvaluationContext) :
    Except EvalError EvaluationContext :=
  match definition.expression.value ctx .undefined with
  | .error cause => .error cause
  | value => .ok (ctx.bind definition.name value)

/-- How a body goes on behind a statement. -/
def Statement.outcome (ctx : EvaluationContext) : Statement → BodyOutcome
  | .condition expression => .ofCondition ctx (expression.value ctx .undefined)
  | .define definition => .ofDefinition (definition.bound ctx)

/-- How a body goes on behind an outcome; only a satisfied one does. -/
def BodyOutcome.next (outcome : BodyOutcome) (more : EvaluationContext → BodyOutcome) :
    BodyOutcome :=
  match outcome with
  | .satisfied ctx => more ctx
  | other => other

/-- How far a body holds: its statements in order, each with the variables that
the ones before it define, up to the first that does not hold. -/
def bodyOutcome (ctx : EvaluationContext) : List Statement → BodyOutcome
  | [] => .satisfied ctx
  | statement :: rest => (statement.outcome ctx).next fun bound => bodyOutcome bound rest

/-- The decision of a policy. -/
def Policy.decision (ctx : EvaluationContext) (policy : Policy) : DocumentDecision :=
  .guarded ctx policy.name policy.target <|
    match bodyOutcome ctx policy.body with
    | .satisfied bound =>
      .ofConstraints policy.name policy.entitlement.decision
        (Constraints.value bound policy.obligations policy.advice policy.transformation)
    | .unsatisfied => .notApplicable policy.name
    | .failed cause => .indeterminate policy.name cause

/-- The context with the variables of definitions bound in order. -/
def boundAll (ctx : EvaluationContext) :
    List VariableDefinition → Except EvalError EvaluationContext
  | [] => .ok ctx
  | definition :: rest => do boundAll (← definition.bound ctx) rest

namespace PolicySet

/-- The decision of a set whose policies decide so together. -/
def conclusion (ctx : EvaluationContext) (set : PolicySet) (combined : Combined) :
    DocumentDecision :=
  let authorization := combined.authorization
  if (authorization.decision = .permit ∨ authorization.decision = .deny) ∧
      ¬(set.obligations.isEmpty ∧ set.advice.isEmpty) then
    set.extend authorization (Constraints.value ctx set.obligations set.advice none)
  else ⟨set.name, authorization, combined.error⟩

/-- The decision of a policy set. -/
def decision (ctx : EvaluationContext) (set : PolicySet) : DocumentDecision :=
  .guarded ctx set.name set.target <|
    match boundAll ctx set.definitions with
    | .ok bound =>
      set.conclusion bound (combine set.algorithm (set.policies.map (·.decision bound)))
    | .error cause => .indeterminate set.name cause

end PolicySet

/-- The decision of a document. -/
def PolicyDocument.decision (ctx : EvaluationContext) : PolicyDocument → DocumentDecision
  | .policy p => p.decision ctx
  | .set s => s.decision ctx

/-! ### Documents that read no attribute -/

/-- No step of the statement reads an attribute. -/
def Statement.attributeFree : Statement → Bool
  | .condition expression => expression.attributeFree
  | .define definition => definition.expression.attributeFree

/-- No step within the policy reads an attribute. -/
def Policy.attributeFree (policy : Policy) : Bool :=
  policy.target.all Expression.attributeFree && policy.body.all Statement.attributeFree &&
    Expression.allAttributeFree policy.obligations &&
    Expression.allAttributeFree policy.advice &&
    policy.transformation.all Expression.attributeFree

/-- No step within the set reads an attribute. -/
def PolicySet.attributeFree (set : PolicySet) : Bool :=
  set.target.all Expression.attributeFree &&
    (set.definitions.all fun definition => definition.expression.attributeFree) &&
    set.policies.all Policy.attributeFree && Expression.allAttributeFree set.obligations &&
    Expression.allAttributeFree set.advice

/-- No step within the document reads an attribute. -/
def PolicyDocument.attributeFree : PolicyDocument → Bool
  | .policy p => p.attributeFree
  | .set s => s.attributeFree

namespace Expression

lemma allAttributeFree_append (es fs : List Expression) :
    allAttributeFree (es ++ fs) = (allAttributeFree es && allAttributeFree fs) := by
  induction es with
  | nil => rfl
  | cons e rest ih => rw [List.cons_append, allAttributeFree, ih, allAttributeFree, Bool.and_assoc]

lemma values_append (ctx : EvaluationContext) (relative : Value) (es fs : List Expression) :
    values ctx relative (es ++ fs) = values ctx relative es ++ values ctx relative fs := by
  induction es with
  | nil => rfl
  | cons e rest ih => rw [List.cons_append, values, ih, values, List.cons_append]

@[simp] lemma length_values (ctx : EvaluationContext) (relative : Value) (es : List Expression) :
    (values ctx relative es).length = es.length := by
  induction es with
  | nil => rfl
  | cons e rest ih => rw [values, List.length_cons, ih, List.length_cons]

end Expression

/-! ### Constraints and targets -/

/-- The values of all constraints together fall apart into those of each kind. -/
lemma Constraints.ofValues_values (ctx : EvaluationContext) (obligations advice : List Expression)
    (transformation : Option Expression) :
    ofValues obligations.length advice.length
        (Expression.values ctx .undefined (obligations ++ advice ++ transformation.toList))
      = Constraints.value ctx obligations advice transformation := by
  rw [Expression.values_append, Expression.values_append, ofValues, Constraints.value,
    List.append_assoc, List.take_left' (Expression.length_values ..),
    List.drop_left' (Expression.length_values ..),
    List.take_left' (Expression.length_values ..), ← List.append_assoc,
    List.drop_left' (by simp)]

lemma Constraints.evaluate_yields (ctx : EvaluationContext) {obligations advice : List Expression}
    {transformation : Option Expression}
    (h : Expression.allAttributeFree (obligations ++ advice ++ transformation.toList) = true) :
    (Constraints.evaluate ctx obligations advice transformation).Yields
      (Constraints.value ctx obligations advice transformation) := by
  rw [← Constraints.ofValues_values]
  exact (Stream.Yields.combineLatest
    (Expression.evaluateEach_yields ctx true .undefined _ fun _ => h)).map _

lemma guardedBy_yields (ctx : EvaluationContext) (document : String) (target : Option Expression)
    {matched : Stream DocumentDecision} {d : DocumentDecision} (h : matched.Yields d) :
    (guardedBy ctx document target matched).Yields (.guarded ctx document target d) := by
  cases target with
  | none => exact h
  | some target =>
    have htarget := target.evaluate_yields ctx false .undefined (by simp)
    rw [guardedBy, DocumentDecision.guarded]
    generalize target.value ctx .undefined = value at htarget ⊢
    refine htarget.switchMap ?_
    rcases value with json | _ | cause
    · rcases json with _ | b | number | text | items | members
      case bool =>
        cases b with
        | true => exact h
        | false => exact Stream.yields_just _
      all_goals exact Stream.yields_just _
    · exact Stream.yields_just _
    · exact Stream.yields_just _

/-! ### Policies -/

lemma VariableDefinition.evaluate_yields (definition : VariableDefinition)
    (ctx : EvaluationContext) (inBody : Bool)
    (h : inBody = true → definition.expression.attributeFree = true) :
    (definition.evaluate ctx inBody).Yields (definition.bound ctx) :=
  (definition.expression.evaluate_yields ctx inBody .undefined h).map _

lemma Statement.apply_yields (statement : Statement) (ctx : EvaluationContext)
    (h : statement.attributeFree = true) :
    (statement.apply (.satisfied ctx)).Yields (statement.outcome ctx) := by
  cases statement with
  | condition expression => exact (expression.evaluate_yields ctx true .undefined fun _ => h).map _
  | define definition => exact (definition.evaluate_yields ctx true fun _ => h).map _

/-- Statements behind an outcome. -/
lemma foldl_apply_yields (body : List Statement) {outcomes : Stream BodyOutcome}
    {outcome : BodyOutcome} (houtcomes : outcomes.Yields outcome)
    (h : body.all Statement.attributeFree = true) :
    (body.foldl (fun outcomes statement => outcomes.switchMap statement.apply) outcomes).Yields
      (outcome.next fun ctx => bodyOutcome ctx body) := by
  induction body generalizing outcomes outcome with
  | nil => cases outcome <;> exact houtcomes
  | cons statement rest ih =>
    rw [List.all_cons, Bool.and_eq_true] at h
    rw [List.foldl_cons]
    cases outcome with
    | satisfied ctx => exact ih (houtcomes.switchMap (statement.apply_yields ctx h.1)) h.2
    | unsatisfied =>
      have hstays : (outcomes.switchMap statement.apply).Yields .unsatisfied :=
        houtcomes.switchMap (Stream.yields_just _)
      exact ih hstays h.2
    | failed cause =>
      have hstays : (outcomes.switchMap statement.apply).Yields (.failed cause) :=
        houtcomes.switchMap (Stream.yields_just _)
      exact ih hstays h.2

lemma evaluateBody_yields (ctx : EvaluationContext) (body : List Statement)
    (h : body.all Statement.attributeFree = true) :
    (evaluateBody ctx body).Yields (bodyOutcome ctx body) :=
  foldl_apply_yields body (Stream.yields_just _) h

theorem Policy.evaluate_yields (policy : Policy) (ctx : EvaluationContext)
    (h : policy.attributeFree = true) : (policy.evaluate ctx).Yields (policy.decision ctx) := by
  simp only [Policy.attributeFree, Bool.and_eq_true] at h
  obtain ⟨⟨⟨⟨-, hbody⟩, hobligations⟩, hadvice⟩, htransformation⟩ := h
  have hconstraints : Expression.allAttributeFree
      (policy.obligations ++ policy.advice ++ policy.transformation.toList) = true := by
    rw [Expression.allAttributeFree_append, Expression.allAttributeFree_append, hobligations,
      hadvice]
    cases htr : policy.transformation with
    | none => rfl
    | some e =>
      rw [htr, Option.all_some] at htransformation
      simp [Expression.allAttributeFree, htransformation]
  refine (guardedBy_yields ctx policy.name policy.target
    ((evaluateBody_yields ctx policy.body hbody).switchMap ?_)).distinct _
  cases bodyOutcome ctx policy.body with
  | satisfied bound => exact (Constraints.evaluate_yields bound hconstraints).map _
  | unsatisfied => exact Stream.yields_just _
  | failed cause => exact Stream.yields_just _

/-! ### Combination -/

/-- The first document that applies decides, whatever stands behind it. -/
lemma Combining.firstApplicable_append {before : List DocumentDecision} {d : DocumentDecision}
    (hbefore : ∀ b ∈ before, b.decision = .notApplicable) (hd : d.decision ≠ .notApplicable)
    (after : List DocumentDecision) :
    firstApplicable (before ++ d :: after) = .ofDocument d (before ++ [d]) := by
  have htake : (before ++ d :: after).takeWhile (fun d => d.decision == .notApplicable)
      = before := by
    rw [List.takeWhile_append_of_pos (by simpa using hbefore),
      List.takeWhile_cons_of_neg (by simpa), List.append_nil]
  rw [firstApplicable, htake, List.drop_left]

/-- Each decision is asked for while all before it are not applicable, and all
together make the first applicable one. -/
lemma firstApplicableLive_yields {units : List (Stream DocumentDecision)}
    {ds : List DocumentDecision} (h : List.Forall₂ Stream.Yields units ds)
    {seen : List DocumentDecision} (hseen : ∀ d ∈ seen, d.decision = .notApplicable) :
    (firstApplicableLive units seen).Yields (Combining.firstApplicable (seen ++ ds)) := by
  induction h generalizing seen with
  | nil =>
    rw [List.append_nil]
    exact Stream.yields_just _
  | @cons unit d units ds hunit _ ih =>
    refine hunit.switchMap ?_
    by_cases hd : d.decision = .notApplicable
    · rw [if_pos hd, show seen ++ d :: ds = (seen ++ [d]) ++ ds by simp]
      refine ih fun b hb => ?_
      rcases List.mem_append.mp hb with hb | hb
      · exact hseen b hb
      · rw [List.mem_singleton.mp hb]
        exact hd
    · rw [if_neg hd, Combining.firstApplicable_append hseen hd,
        Combining.firstApplicable_append hseen hd]
      exact Stream.yields_just _

theorem combineLive_yields (algorithm : CombiningAlgorithm)
    {units : List (Stream DocumentDecision)} {ds : List DocumentDecision}
    (h : List.Forall₂ Stream.Yields units ds) :
    (combineLive algorithm units).Yields (combine algorithm ds) := by
  refine Stream.Yields.distinct ?_ _
  by_cases hfirst : algorithm = .firstApplicable
  · rw [if_pos hfirst, hfirst]
    exact firstApplicableLive_yields h (by simp)
  · rw [if_neg hfirst]
    exact (Stream.Yields.combineLatest h).map _

/-! ### Policy sets -/

/-- Definitions behind a scope. -/
lemma foldl_extend_yields (definitions : List VariableDefinition)
    {scopes : Stream (Except EvalError EvaluationContext)}
    {scope : Except EvalError EvaluationContext} (hscopes : scopes.Yields scope) :
    (definitions.foldl (fun scopes definition => scopes.switchMap definition.extend) scopes).Yields
      (scope >>= (boundAll · definitions)) := by
  induction definitions generalizing scopes scope with
  | nil => cases scope <;> exact hscopes
  | cons definition rest ih =>
    rw [List.foldl_cons]
    cases scope with
    | ok ctx => exact ih (hscopes.switchMap (definition.evaluate_yields ctx false (by simp)))
    | error cause =>
      have hstays : (definition.extend (.error cause)).Yields (.error cause) := Stream.yields_just _
      exact ih (hscopes.switchMap hstays)

lemma PolicySet.decide_yields (set : PolicySet) (ctx : EvaluationContext) (combined : Combined)
    (h : Expression.allAttributeFree (set.obligations ++ set.advice) = true) :
    (set.decide ctx combined).Yields (set.conclusion ctx combined) := by
  rw [PolicySet.decide, PolicySet.conclusion]
  split
  · exact (Constraints.evaluate_yields ctx (by simpa using h)).map _
  · exact Stream.yields_just _

theorem PolicySet.evaluate_yields (set : PolicySet) (ctx : EvaluationContext)
    (h : set.attributeFree = true) : (set.evaluate ctx).Yields (set.decision ctx) := by
  simp only [PolicySet.attributeFree, Bool.and_eq_true] at h
  obtain ⟨⟨⟨-, hpolicies⟩, hobligations⟩, hadvice⟩ := h
  have hscope : (set.scope ctx).Yields (boundAll ctx set.definitions) := by
    rw [PolicySet.scope]
    exact foldl_extend_yields set.definitions (Stream.yields_just (Except.ok ctx))
  refine (guardedBy_yields ctx set.name set.target (hscope.switchMap ?_)).distinct _
  cases boundAll ctx set.definitions with
  | error cause => exact Stream.yields_just _
  | ok bound =>
    have hunits : List.Forall₂ Stream.Yields (set.policies.map (·.evaluate bound))
        (set.policies.map (·.decision bound)) := by
      rw [List.forall₂_map_left_iff, List.forall₂_map_right_iff, List.forall₂_same]
      exact fun p hp => p.evaluate_yields bound (List.all_eq_true.mp hpolicies p hp)
    refine (combineLive_yields set.algorithm hunits).switchMap (set.decide_yields bound _ ?_)
    rw [Expression.allAttributeFree_append, hobligations, hadvice]
    rfl

theorem PolicyDocument.evaluate_yields (document : PolicyDocument) (ctx : EvaluationContext)
    (h : document.attributeFree = true) :
    (document.evaluate ctx).Yields (document.decision ctx) := by
  cases document with
  | policy p => exact p.evaluate_yields ctx h
  | set s => exact s.evaluate_yields ctx h

end Verdict
