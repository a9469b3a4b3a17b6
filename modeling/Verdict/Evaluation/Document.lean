/-
The live decisions of policies, policy sets and documents.

A policy that applies decides its entitlement: its target holds, every statement
of its body holds, and its constraints can be evaluated.  A set combines the
decisions of its policies.  Each stage is subscribed only while the one before
it holds.

* `Constraints`: evaluated obligations, advice and transformation.
* `BodyOutcome`, `Statement.apply`: how a body goes on.
* `combineLive`: live decisions combined.
* `Policy.evaluate`, `PolicySet.evaluate`, `PolicyDocument.evaluate`: the
  decisions of documents.
-/
import Verdict.Authorization.DocumentDecision
import Verdict.Evaluation.Expression

namespace Verdict

/-! ### Constraints -/

/-- Evaluated constraints. -/
structure Constraints where
  obligations : List Json
  advice : List Json
  resource : Option Json

namespace Constraints

/-- Obligations; every one must be defined. -/
def obligationsOf (values : List Value) : Except EvalError (List Json) :=
  values.mapM fun
    | .defined json => .ok json
    | .error cause => .error cause
    | .undefined => .error (.undefinedOperand "obligation evaluated to undefined")

/-- Advice; undefined ones are left out. -/
def adviceOf (values : List Value) : Except EvalError (List Json) :=
  match Value.firstError? values with
  | some cause => .error cause
  | none => .ok (values.filterMap Value.json?)

/-- The resource of a transformation, if there is one; it must be defined. -/
def resourceOf : List Value → Except EvalError (Option Json)
  | [] => .ok none
  | .defined json :: _ => .ok (some json)
  | .error cause :: _ => .error cause
  | .undefined :: _ => .error (.undefinedOperand "transformation evaluated to undefined")

/-- The constraints of the values of so many obligations, so much advice, and
maybe a transformation. -/
def ofValues (obligations advice : Nat) (values : List Value) : Except EvalError Constraints := do
  return {
    obligations := ← obligationsOf (values.take obligations)
    advice := ← adviceOf ((values.drop obligations).take advice)
    resource := ← resourceOf (values.drop (obligations + advice)) }

/-- The values of constraints, evaluated side by side. -/
def evaluate (ctx : EvaluationContext) (obligations advice : List Expression)
    (transformation : Option Expression) : Stream (Except EvalError Constraints) :=
  (Stream.combineLatest (Expression.evaluateEach ctx true .undefined
    (obligations ++ advice ++ transformation.toList))).map
      (ofValues obligations.length advice.length)

end Constraints

/-! ### Targets -/

/-- The decision of a document whose target does not hold. -/
def DocumentDecision.ofTarget (document : String) : Value → DocumentDecision
  | .undefined | .defined (.bool _) => .notApplicable document
  | .error cause => .indeterminate document cause
  | other => .indeterminate document
      (.typeMismatch ("target expects a boolean, got " ++ other.kind))

/-- Decisions under the guard of a target, which is evaluated outside of the body. -/
def guardedBy (ctx : EvaluationContext) (document : String) (target : Option Expression)
    (matched : Stream DocumentDecision) : Stream DocumentDecision :=
  match target with
  | none => matched
  | some target =>
    (target.evaluate ctx false .undefined).switchMap fun value =>
      match value with
      | .defined (.bool true) => matched
      | other => .just (.ofTarget document other)

/-! ### Policies -/

/-- How far a body holds. -/
inductive BodyOutcome where
  /-- Every statement so far holds; the context has the variables defined. -/
  | satisfied (ctx : EvaluationContext)
  | unsatisfied
  | failed (cause : EvalError)

/-- The context in which a definition holds. -/
def VariableDefinition.evaluate (definition : VariableDefinition) (ctx : EvaluationContext)
    (inBody : Bool) : Stream (Except EvalError EvaluationContext) :=
  (definition.expression.evaluate ctx inBody .undefined).map fun value =>
    match value with
    | .error cause => .error cause
    | value => .ok (ctx.bind definition.name value)

/-- The outcome of a body that holds up to a condition with this value. -/
def BodyOutcome.ofCondition (ctx : EvaluationContext) : Value → BodyOutcome
  | .defined (.bool true) => .satisfied ctx
  | .defined (.bool false) | .undefined => .unsatisfied
  | .error cause => .failed cause
  | other => .failed (.typeMismatch ("condition expects a boolean, got " ++ other.kind))

/-- The outcome of a body that holds up to a definition. -/
def BodyOutcome.ofDefinition : Except EvalError EvaluationContext → BodyOutcome
  | .ok ctx => .satisfied ctx
  | .error cause => .failed cause

/-- The outcomes of a body up to and with a statement. -/
def Statement.apply (statement : Statement) : BodyOutcome → Stream BodyOutcome
  | .satisfied ctx =>
    match statement with
    | .condition expression =>
      (expression.evaluate ctx true .undefined).map (BodyOutcome.ofCondition ctx)
    | .define definition => (definition.evaluate ctx true).map BodyOutcome.ofDefinition
  | other => .just other

/-- The outcomes of a body. -/
def evaluateBody (ctx : EvaluationContext) (body : List Statement) : Stream BodyOutcome :=
  body.foldl (fun outcomes statement => outcomes.switchMap statement.apply)
    (.just (.satisfied ctx))

/-- The outcome that an entitlement stands for. -/
def Entitlement.decision : Entitlement → Decision
  | .permit => .permit
  | .deny => .deny

/-- The decision of a document with its constraints. -/
def DocumentDecision.ofConstraints (document : String) (decision : Decision) :
    Except EvalError Constraints → DocumentDecision
  | .ok c => ⟨document, ⟨decision, c.resource, c.obligations, c.advice⟩, none⟩
  | .error cause => .indeterminate document cause

namespace Policy

/-- The decisions of a policy for an outcome of its body. -/
def decide (policy : Policy) : BodyOutcome → Stream DocumentDecision
  | .satisfied ctx =>
    (Constraints.evaluate ctx policy.obligations policy.advice policy.transformation).map
      (.ofConstraints policy.name policy.entitlement.decision)
  | .unsatisfied => .just (.notApplicable policy.name)
  | .failed cause => .just (.indeterminate policy.name cause)

/-- The live decision of a policy. -/
def evaluate (policy : Policy) (ctx : EvaluationContext) : Stream DocumentDecision :=
  (guardedBy ctx policy.name policy.target
    ((evaluateBody ctx policy.body).switchMap policy.decide)).distinct DocumentDecision.same

end Policy

/-! ### Combination -/

/-- Live decisions combined by the first applicable one: each is subscribed only
while all before it are not applicable. -/
def firstApplicableLive : List (Stream DocumentDecision) → List DocumentDecision → Stream Combined
  | [], seen => .just (Combining.firstApplicable seen)
  | unit :: rest, seen =>
    unit.switchMap fun d =>
      if d.decision = .notApplicable then firstApplicableLive rest (seen ++ [d])
      else .just (Combining.firstApplicable (seen ++ [d]))

/-- Live decisions combined. -/
def combineLive (algorithm : CombiningAlgorithm) (units : List (Stream DocumentDecision)) :
    Stream Combined :=
  let combined :=
    if algorithm = .firstApplicable then firstApplicableLive units []
    else (Stream.combineLatest units).map (combine algorithm)
  combined.distinct Combined.same

/-! ### Policy sets -/

/-- A scope with one definition more. -/
def VariableDefinition.extend (definition : VariableDefinition) :
    Except EvalError EvaluationContext → Stream (Except EvalError EvaluationContext)
  | .ok ctx => definition.evaluate ctx false
  | .error cause => .just (.error cause)

namespace PolicySet

/-- The contexts in which the variables of the set are defined: the scope is extended
by one definition after the other. -/
def scope (set : PolicySet) (ctx : EvaluationContext) :
    Stream (Except EvalError EvaluationContext) :=
  set.definitions.foldl (fun scopes definition => scopes.switchMap definition.extend)
    (.just (.ok ctx))

/-- The decision of the set with its own constraints behind those of its policies. -/
def extend (set : PolicySet) (authorization : AuthorizationDecision) :
    Except EvalError Constraints → DocumentDecision
  | .ok c =>
    ⟨set.name, { authorization with
      obligations := authorization.obligations ++ c.obligations
      advice := authorization.advice ++ c.advice }, none⟩
  | .error cause => .indeterminate set.name cause

/-- The decisions of the set for a combined decision of its policies.  Only a
permit or a deny carries the constraints of the set. -/
def decide (set : PolicySet) (ctx : EvaluationContext) (combined : Combined) :
    Stream DocumentDecision :=
  let authorization := combined.authorization
  let applies := authorization.decision = .permit ∨ authorization.decision = .deny
  if applies ∧ ¬(set.obligations.isEmpty ∧ set.advice.isEmpty) then
    (Constraints.evaluate ctx set.obligations set.advice none).map (set.extend authorization)
  else .just ⟨set.name, authorization, combined.error⟩

/-- The decisions of the set in the scope of its variables. -/
def evaluateIn (set : PolicySet) : Except EvalError EvaluationContext → Stream DocumentDecision
  | .ok ctx =>
    (combineLive set.algorithm (set.policies.map (·.evaluate ctx))).switchMap (set.decide ctx)
  | .error cause => .just (.indeterminate set.name cause)

/-- The live decision of a policy set. -/
def evaluate (set : PolicySet) (ctx : EvaluationContext) : Stream DocumentDecision :=
  (guardedBy ctx set.name set.target ((set.scope ctx).switchMap set.evaluateIn)).distinct
    DocumentDecision.same

end PolicySet

/-- The live decision of a document. -/
def PolicyDocument.evaluate (document : PolicyDocument) (ctx : EvaluationContext) :
    Stream DocumentDecision :=
  match document with
  | .policy p => p.evaluate ctx
  | .set s => s.evaluate ctx

end Verdict
