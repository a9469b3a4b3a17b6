/-
Decisions are punctual.

No clock that evaluation can ask for stands still: the interval of one is positive,
whatever its argument is.  So whatever is left of a live decision after a read waits
for something that is still to come.

* `Finder.interval_pos`: clocks tick.
* `Expression.evaluate_punctual`, `PolicyDocument.evaluate_punctual`: expressions and
  documents are punctual streams.
* `DecisionPoint.decide_punctual`: and so are the decisions of a point whose documents
  and configuration come from punctual streams.
-/
import Verdict.DecisionPoint.Basic
import Verdict.Proofs.Evaluation.Compositional
import Verdict.Proofs.Stream.Sleep

namespace Verdict

open Verdict.Stream (Punctual)

/-! ### Finders -/

/-- The interval of a clock is positive. -/
lemma Finder.interval_pos {arguments : List Value} {period : Nat}
    (h : Finder.interval arguments = .ok period) : 0 < period := by
  unfold Finder.interval at h
  split at h
  · rw [Except.ok.injEq] at h
    subst h
    decide
  · split at h
    · rw [Except.ok.injEq] at h
      omega
    · cases h

/-- A finder lists values, watches a topic or asks for a clock, which ticks. -/
lemma Finder.find_punctual (finder : Finder) (name : String) (left : Value)
    (arguments : List Value) (bindings : Bindings) :
    (finder.find name left arguments bindings).Punctual := by
  cases finder with
  | computed values => exact .lasting _
  | watched => exact .watch _ _
  | clock =>
    rw [Finder.find]
    cases hinterval : Finder.interval arguments with
    | ok period => exact (Punctual.clock (Finder.interval_pos hinterval) none).map _
    | error cause => exact .just _

/-- A deadline for the first value adds no clock of its own. -/
lemma FinderRegistry.subscribe_punctual (registry : FinderRegistry) (name : String) (left : Value)
    (arguments : List Value) (bindings : Bindings) (deadline : Option Nat) :
    (registry.subscribe name left arguments bindings deadline).Punctual := by
  rw [FinderRegistry.subscribe]
  cases registry.finders.lookup name with
  | none => exact .just _
  | some finder =>
    have hfind := finder.find_punctual name left arguments bindings
    cases deadline with
    | none => exact hfind
    | some millis => exact hfind.timeout

/-! ### Documents -/

/-- The combinators of evaluation set up no clocks, so a stream that is made of punctual ones
is punctual. -/
lemma Stream.Punctual.compositional : Stream.Compositional Stream.Punctual where
  just := .just
  map f h := h.map f
  distinct same h := h.distinct same
  switchMap h hproject := h.switchMap hproject
  combineLatest h := .combineLatest h

section Documents

variable (ctx : EvaluationContext)

/-- All clocks in an expression come from the attributes that it subscribes to. -/
theorem Expression.evaluate_punctual (e : Expression) (inBody : Bool) (relative : Value) :
    (e.evaluate ctx inBody relative).Punctual :=
  e.evaluate_compositional Punctual.compositional
    (fun _ _ _ _ => FinderRegistry.subscribe_punctual ..) relative

/-- Obligations, advice and the transformation are evaluated side by side, as expressions. -/
lemma Constraints.evaluate_punctual (obligations advice : List Expression)
    (transformation : Option Expression) :
    (Constraints.evaluate ctx obligations advice transformation).Punctual :=
  (Punctual.combineLatest (Expression.evaluateEach_compositional Punctual.compositional
    (fun _ _ _ _ => FinderRegistry.subscribe_punctual ..) .undefined _)).map _

/-- Behind a target stands the matched part or a single decision. -/
lemma guardedBy_punctual (document : String) (target : Option Expression)
    {matched : Stream DocumentDecision} (h : matched.Punctual) :
    (guardedBy ctx document target matched).Punctual := by
  cases target with
  | none => exact h
  | some target =>
    refine (target.evaluate_punctual ctx false .undefined).switchMap fun value => ?_
    split
    · exact h
    · exact .just _

lemma VariableDefinition.evaluate_punctual (definition : VariableDefinition) (inBody : Bool) :
    (definition.evaluate ctx inBody).Punctual :=
  (definition.expression.evaluate_punctual ctx inBody .undefined).map _

/-- A statement behind a body that no longer holds passes that outcome on once. -/
lemma Statement.apply_punctual (statement : Statement) (before : BodyOutcome) :
    (statement.apply before).Punctual := by
  cases before with
  | unsatisfied => exact .just _
  | failed cause => exact .just _
  | satisfied ctx =>
    cases statement with
    | condition expression => exact (expression.evaluate_punctual ctx true .undefined).map _
    | define definition => exact (definition.evaluate_punctual ctx true).map _

/-- Statement by statement, the outcomes of a body stay punctual. -/
lemma evaluateBody_punctual (body : List Statement) : (evaluateBody ctx body).Punctual :=
  Punctual.compositional.foldl_switchMap Statement.apply_punctual body (.just _)

lemma VariableDefinition.extend_punctual (definition : VariableDefinition)
    (scope : Except EvalError EvaluationContext) : (definition.extend scope).Punctual := by
  cases scope with
  | ok ctx => exact definition.evaluate_punctual ctx false
  | error cause => exact .just _

/-- Definition by definition, the scopes of a set stay punctual. -/
lemma PolicySet.scope_punctual (set : PolicySet) : (set.scope ctx).Punctual := by
  rw [PolicySet.scope]
  exact Punctual.compositional.foldl_switchMap VariableDefinition.extend_punctual _ (.just _)

theorem Policy.evaluate_punctual (policy : Policy) : (policy.evaluate ctx).Punctual := by
  refine Punctual.distinct (guardedBy_punctual ctx _ _
    ((evaluateBody_punctual ctx policy.body).switchMap fun outcome => ?_)) _
  cases outcome with
  | satisfied bound => exact (Constraints.evaluate_punctual bound _ _ _).map _
  | unsatisfied => exact .just _
  | failed cause => exact .just _

/-- However many units are not applicable, what is asked for next is one more unit or a
combined decision. -/
lemma firstApplicableLive_punctual {units : List (Stream DocumentDecision)}
    (h : ∀ unit ∈ units, unit.Punctual) (seen : List DocumentDecision) :
    (firstApplicableLive units seen).Punctual := by
  induction units generalizing seen with
  | nil => exact .just _
  | cons unit rest ih =>
    rw [List.forall_mem_cons] at h
    refine h.1.switchMap fun d => ?_
    split
    · exact ih h.2 _
    · exact .just _

/-- Combining punctual decisions sets up no clock, whatever the algorithm. -/
lemma combineLive_punctual (algorithm : CombiningAlgorithm)
    {units : List (Stream DocumentDecision)} (h : ∀ unit ∈ units, unit.Punctual) :
    (combineLive algorithm units).Punctual := by
  refine Punctual.distinct ?_ _
  split
  · exact firstApplicableLive_punctual h []
  · exact (Punctual.combineLatest h).map _

/-- In a scope a set combines its policies and adds its constraints; without one it fails
once. -/
lemma PolicySet.evaluateIn_punctual (set : PolicySet)
    (scope : Except EvalError EvaluationContext) : (set.evaluateIn scope).Punctual := by
  cases scope with
  | error cause => exact .just _
  | ok bound =>
    refine (combineLive_punctual _ fun unit hunit => ?_).switchMap fun combined => ?_
    · obtain ⟨policy, -, rfl⟩ := List.mem_map.mp hunit
      exact policy.evaluate_punctual bound
    · rw [PolicySet.decide]
      split
      · exact (Constraints.evaluate_punctual bound _ _ _).map _
      · exact .just _

theorem PolicySet.evaluate_punctual (set : PolicySet) : (set.evaluate ctx).Punctual :=
  (guardedBy_punctual ctx _ _
    ((set.scope_punctual ctx).switchMap set.evaluateIn_punctual)).distinct _

/-- Whatever is left of the live decision of a document waits for something still to come. -/
theorem PolicyDocument.evaluate_punctual (document : PolicyDocument) :
    (document.evaluate ctx).Punctual := by
  cases document with
  | policy p => exact p.evaluate_punctual ctx
  | set s => exact s.evaluate_punctual ctx

end Documents

/-! ### Decision points -/

namespace DecisionPoint

/-- The documents and the configuration come from punctual streams. -/
structure Punctual (point : DecisionPoint) : Prop where
  retrieval : point.retrieval.Punctual
  configuration : point.configuration.Punctual

/-- Documents and a configuration that never change are listed once. -/
lemma fixed_punctual (retrieval : Retrieval) (configuration : PdpConfiguration)
    (functions : FunctionRegistry) (finders : FinderRegistry) (interceptors : List Interceptor) :
    (fixed retrieval configuration functions finders interceptors).Punctual :=
  ⟨.lasting _, .lasting _⟩

/-- Documents and a configuration that are published are waited for. -/
lemma watching_punctual (functions : FunctionRegistry) (finders : FinderRegistry)
    (interceptors : List Interceptor) : (watching functions finders interceptors).Punctual :=
  ⟨.watch _ _, .watch _ _⟩

lemma evaluate_punctual (point : DecisionPoint) (s : AuthorizationSubscription)
    (retrieval : Retrieval) (configuration : PdpConfiguration) :
    (point.evaluate s retrieval configuration).Punctual := by
  rw [evaluate]
  cases configuration.validate with
  | error refusal => exact .just _
  | ok c =>
    refine (combineLive_punctual _ fun unit hunit => ?_).map _
    rw [units, List.mem_append] at hunit
    rcases hunit with hunit | hunit
    · obtain ⟨document, -, rfl⟩ := List.mem_map.mp hunit
      exact document.evaluate_punctual _
    · split at hunit
      · rw [List.mem_singleton.mp hunit]
        exact .just _
      · simp at hunit

/-- The live decisions of a punctual point are punctual. -/
theorem decide_punctual {point : DecisionPoint} (h : point.Punctual)
    (s : AuthorizationSubscription) : (point.decide s).Punctual :=
  (h.retrieval.switchMapBounded fun retrieval =>
    h.configuration.switchMap (point.evaluate_punctual s retrieval)).distinct _

end DecisionPoint

end Verdict
