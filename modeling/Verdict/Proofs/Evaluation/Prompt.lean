/-
Evaluation answers at once.

* `Finder.Immediate`: a finder that delivers one value at once.
* `FinderRegistry.watching`: a registry of published attributes alone.
* `Expression.evaluate_prompt`: with such finders expressions are prompt streams.
* `BodyOutcome.Keeps`, `ScopeKeeps`: bodies and scopes keep the finders.
* `PolicyDocument.evaluate_prompt`, `combineLive_prompt`: documents and their
  combinations are prompt streams.
-/
import Verdict.Evaluation.Document
import Verdict.Proofs.Evaluation.Compositional
import Verdict.Proofs.Stream.Prompt

namespace Verdict

/-! ### Finders -/

/-- The finder delivers one value at once: the published one, or one that depends
on the left-hand value, the arguments and the variables alone. -/
def Finder.Immediate : Finder → Prop
  | .computed values => ∀ left arguments bindings, ∃ v, values left arguments bindings = [v]
  | .watched => True
  | .clock => False

/-- All finders of the registry deliver one value at once. -/
def FinderRegistry.Immediate (registry : FinderRegistry) : Prop :=
  ∀ name finder, registry.finders.lookup name = some finder → finder.Immediate

/-- A registry of attributes whose values are published in the world. -/
def FinderRegistry.watching (names : List String) : FinderRegistry :=
  ⟨names.map fun name => (name, .watched)⟩

/-- A published attribute has its value at once. -/
lemma FinderRegistry.immediate_watching (names : List String) :
    (watching names).Immediate := by
  intro name finder h
  rw [watching, lookup_map_const] at h
  split at h
  · rw [← Option.some.inj h]
    trivial
  · cases h

/-- A switch from one prompt stream to others answers at once: each item starts a stream that
does. -/
lemma Stream.Prompt.switchMap {α β : Type} {s : Stream α} {project : α → Stream β}
    (h : s.Prompt) (hproject : ∀ a, (project a).Prompt) :
    (s.switchMap project).Prompt := .switch false h (fun _ a _ _ => hproject a) (by simp)

/-- An immediate finder delivers its value when it is asked, or when it is published again. -/
lemma Finder.find_prompt {finder : Finder} (h : finder.Immediate) (name : String) (left : Value)
    (arguments : List Value) (bindings : Bindings) :
    (finder.find name left arguments bindings).Prompt := by
  cases finder with
  | computed values =>
    obtain ⟨v, hv⟩ := h left arguments bindings
    rw [Finder.find, hv]
    exact .lasting v
  | watched => exact .watch _
  | clock => exact h.elim

/-- An unknown name fails at once, and a deadline does not show where a value comes at once. -/
lemma FinderRegistry.subscribe_prompt {registry : FinderRegistry} (h : registry.Immediate)
    (name : String) (left : Value) (arguments : List Value) (bindings : Bindings)
    (deadline : Option Nat) :
    (registry.subscribe name left arguments bindings deadline).Prompt := by
  rw [FinderRegistry.subscribe]
  cases hlookup : registry.finders.lookup name with
  | none => exact .just _
  | some finder =>
    have hfind : (finder.find name left arguments bindings).Prompt :=
      finder.find_prompt (h name finder hlookup) name left arguments bindings
    cases deadline with
    | none => exact hfind
    | some millis => exact .timeout millis _ hfind

/-! ### Expressions -/

/-- The combinators of evaluation keep prompt streams prompt. -/
lemma Stream.Prompt.compositional : Stream.Compositional Stream.Prompt where
  just := .just
  map := .map
  distinct := .distinct
  switchMap h hproject := h.switchMap hproject
  combineLatest := .combineLatest

section Expressions

variable {ctx : EvaluationContext} (hfinders : ctx.finders.Immediate) (inBody : Bool)
  (relative : Value)

include hfinders

/-- With immediate finders every expression has a value at once. -/
theorem Expression.evaluate_prompt (e : Expression) : (e.evaluate ctx inBody relative).Prompt :=
  e.evaluate_compositional Stream.Prompt.compositional
    (fun _ _ _ _ => FinderRegistry.subscribe_prompt hfinders _ _ _ _ _) relative

theorem Expression.evaluateEach_prompt (es : List Expression) :
    ∀ s ∈ Expression.evaluateEach ctx inBody relative es, s.Prompt :=
  Expression.evaluateEach_compositional Stream.Prompt.compositional
    (fun _ _ _ _ => FinderRegistry.subscribe_prompt hfinders _ _ _ _ _) relative es

end Expressions

/-! ### Documents -/

section Documents

variable {ctx : EvaluationContext} (hfinders : ctx.finders.Immediate)

include hfinders

/-- All constraints have their values at once. -/
lemma Constraints.evaluate_prompt (obligations advice : List Expression)
    (transformation : Option Expression) :
    (Constraints.evaluate ctx obligations advice transformation).Prompt :=
  .map _ (.combineLatest (Expression.evaluateEach_prompt hfinders true .undefined _))

/-- A target has its value at once, and so has what it guards. -/
lemma guardedBy_prompt (document : String) (target : Option Expression)
    {matched : Stream DocumentDecision} (h : matched.Prompt) :
    (guardedBy ctx document target matched).Prompt := by
  cases target with
  | none => exact h
  | some target =>
    refine (target.evaluate_prompt hfinders false .undefined).switchMap fun value => ?_
    split
    · exact h
    · exact .just _

lemma VariableDefinition.evaluate_prompt (definition : VariableDefinition) (inBody : Bool) :
    (definition.evaluate ctx inBody).Prompt :=
  (definition.expression.evaluate_prompt hfinders inBody .undefined).map _

end Documents

/-! ### Bodies and scopes -/

/-- An outcome whose context has these finders. -/
def BodyOutcome.Keeps (finders : FinderRegistry) (outcome : BodyOutcome) : Prop :=
  ∀ ctx, outcome = .satisfied ctx → ctx.finders = finders

/-- A scope that has these finders. -/
def ScopeKeeps (finders : FinderRegistry) (scope : Except EvalError EvaluationContext) : Prop :=
  ∀ ctx, scope = .ok ctx → ctx.finders = finders

section Scopes

variable {finders : FinderRegistry} {w : World}

/-- A definition binds a variable and leaves the finders as they are. -/
lemma VariableDefinition.shows_keeps (definition : VariableDefinition) {ctx : EvaluationContext}
    (hctx : ctx.finders = finders) {inBody : Bool} {scope : Except EvalError EvaluationContext}
    (h : (definition.evaluate ctx inBody).Shows w scope) : ScopeKeeps finders scope := by
  obtain ⟨value, -, rfl⟩ := h.of_map
  intro bound hbound
  cases value with
  | error cause => simp at hbound
  | undefined | defined _ =>
    rw [Except.ok.injEq] at hbound
    rw [← hbound]
    exact hctx

/-- So does every statement behind a body that holds. -/
lemma Statement.shows_keeps (statement : Statement) {before outcome : BodyOutcome}
    (hbefore : before.Keeps finders) (h : (statement.apply before).Shows w outcome) :
    outcome.Keeps finders := by
  cases before with
  | unsatisfied =>
    obtain rfl : BodyOutcome.unsatisfied = outcome := Stream.Shows.of_just h
    exact hbefore
  | failed cause =>
    obtain rfl : BodyOutcome.failed cause = outcome := Stream.Shows.of_just h
    exact hbefore
  | satisfied ctx =>
    have hctx := hbefore ctx rfl
    cases statement with
    | condition expression =>
      obtain ⟨value, -, rfl⟩ := Stream.Shows.of_map h
      intro bound hbound
      unfold BodyOutcome.ofCondition at hbound
      split at hbound <;> simp only [reduceCtorEq, BodyOutcome.satisfied.injEq] at hbound
      rw [← hbound]
      exact hctx
    | define definition =>
      obtain ⟨scope, hscope, rfl⟩ := Stream.Shows.of_map h
      have hkeeps := definition.shows_keeps hctx hscope
      intro bound hbound
      cases scope with
      | error cause => simp [BodyOutcome.ofDefinition] at hbound
      | ok ctx' =>
        rw [BodyOutcome.ofDefinition, BodyOutcome.satisfied.injEq] at hbound
        rw [← hbound]
        exact hkeeps ctx' rfl

/-- Stages one after the other, each of which is prompt and keeps a property of the
items. -/
lemma foldl_switchMap_prompt {α γ : Type} {p : α → Prop} {stage : γ → α → Stream α}
    (hprompt : ∀ x a, p a → (stage x a).Prompt)
    (hkeeps : ∀ x (w : World) a b, p a → (stage x a).Shows w b → p b) (xs : List γ) {s : Stream α}
    (h : s.Prompt) (hs : ∀ (w : World) a, w.Open → s.Shows w a → p a) :
    (xs.foldl (fun s x => s.switchMap (stage x)) s).Prompt ∧
      ∀ (w : World) a, w.Open → (xs.foldl (fun s x => s.switchMap (stage x)) s).Shows w a →
        p a := by
  induction xs generalizing s with
  | nil => exact ⟨h, hs⟩
  | cons x rest ih =>
    refine ih (.switch false h (fun w a hw ha => hprompt x a (hs w a hw ha)) (by simp)) ?_
    intro w b hw hb
    obtain ⟨a, ha⟩ := h.shows hw
    exact hkeeps x w a b (hs w a hw ha) (ha.of_switchMap hb)

variable (hfinders : finders.Immediate)

include hfinders

/-- A statement answers at once in every context with these finders. -/
lemma Statement.apply_prompt (statement : Statement) {before : BodyOutcome}
    (hbefore : before.Keeps finders) : (statement.apply before).Prompt := by
  cases before with
  | unsatisfied => exact .just _
  | failed cause => exact .just _
  | satisfied ctx =>
    have hctx : ctx.finders.Immediate := hbefore ctx rfl ▸ hfinders
    cases statement with
    | condition expression =>
      exact (expression.evaluate_prompt hctx true .undefined).map _
    | define definition => exact (definition.evaluate_prompt hctx true).map _

/-- A body answers at once, and in the context that it leads to the finders are the same, so
that the constraints behind it answer at once as well. -/
lemma evaluateBody_prompt {ctx : EvaluationContext} (hctx : ctx.finders = finders)
    (body : List Statement) :
    (evaluateBody ctx body).Prompt ∧
      ∀ (w : World) a, w.Open → (evaluateBody ctx body).Shows w a → a.Keeps finders := by
  refine foldl_switchMap_prompt (fun statement _ ha => statement.apply_prompt hfinders ha)
    (fun statement _ _ _ ha hb => statement.shows_keeps ha hb) body (.just _) fun w a _ ha => ?_
  obtain rfl : BodyOutcome.satisfied ctx = a := Stream.Shows.of_just ha
  intro bound hbound
  rw [BodyOutcome.satisfied.injEq] at hbound
  rw [← hbound]
  exact hctx

/-- The same of the definitions of a set and the scope that they lead to. -/
lemma PolicySet.scope_prompt {ctx : EvaluationContext} (hctx : ctx.finders = finders)
    (set : PolicySet) :
    (set.scope ctx).Prompt ∧
      ∀ (w : World) a, w.Open → (set.scope ctx).Shows w a → ScopeKeeps finders a := by
  rw [PolicySet.scope]
  refine foldl_switchMap_prompt (fun definition scope hscope => ?_)
    (fun definition w scope bound hscope hbound => ?_) set.definitions (.just _) fun w a _ ha => ?_
  · cases scope with
    | error cause => exact .just _
    | ok ctx => exact definition.evaluate_prompt (hscope ctx rfl ▸ hfinders) false
  · cases scope with
    | error cause =>
      obtain rfl : Except.error cause = bound := Stream.Shows.of_just hbound
      exact hscope
    | ok ctx => exact definition.shows_keeps (hscope ctx rfl) hbound
  · obtain rfl : Except.ok ctx = a := Stream.Shows.of_just ha
    intro bound hbound
    rw [Except.ok.injEq] at hbound
    rw [← hbound]
    exact hctx

/-! ### Policies and sets -/

/-- The target, the body in the context of the target, and the constraints in the context of
the body. -/
theorem Policy.evaluate_prompt (policy : Policy) {ctx : EvaluationContext}
    (hctx : ctx.finders = finders) : (policy.evaluate ctx).Prompt := by
  obtain ⟨hbody, hkeeps⟩ := evaluateBody_prompt hfinders hctx policy.body
  refine .distinct _ (guardedBy_prompt (hctx ▸ hfinders) _ _
    (.switch false hbody (fun w outcome hw houtcome => ?_) (by simp)))
  cases outcome with
  | unsatisfied => exact .just _
  | failed cause => exact .just _
  | satisfied bound =>
    have hbound := hkeeps w _ hw houtcome bound rfl
    exact (Constraints.evaluate_prompt (hbound ▸ hfinders) _ _ _).map _

omit hfinders in
lemma firstApplicableLive_prompt {units : List (Stream DocumentDecision)}
    (h : ∀ unit ∈ units, unit.Prompt) (seen : List DocumentDecision) :
    (firstApplicableLive units seen).Prompt := by
  induction units generalizing seen with
  | nil => exact .just _
  | cons unit rest ih =>
    refine (h unit List.mem_cons_self).switchMap fun d => ?_
    split
    · exact ih (fun t ht => h t (List.mem_cons_of_mem _ ht)) _
    · exact .just _

omit hfinders in
/-- Decisions that are there at once are combined at once. -/
theorem combineLive_prompt (algorithm : CombiningAlgorithm)
    {units : List (Stream DocumentDecision)} (h : ∀ unit ∈ units, unit.Prompt) :
    (combineLive algorithm units).Prompt := by
  refine .distinct _ ?_
  split
  · exact firstApplicableLive_prompt h []
  · exact (Stream.Prompt.combineLatest h).map _

theorem PolicySet.evaluate_prompt (set : PolicySet) {ctx : EvaluationContext}
    (hctx : ctx.finders = finders) : (set.evaluate ctx).Prompt := by
  obtain ⟨hscope, hkeeps⟩ := set.scope_prompt hfinders hctx
  refine .distinct _ (guardedBy_prompt (hctx ▸ hfinders) _ _
    (.switch false hscope (fun w scope hw hshows => ?_) (by simp)))
  cases scope with
  | error cause => exact .just _
  | ok bound =>
    have hbound := hkeeps w _ hw hshows bound rfl
    refine Stream.Prompt.switchMap (combineLive_prompt _ fun unit hunit => ?_)
      fun combined => ?_
    · obtain ⟨policy, -, rfl⟩ := List.mem_map.mp hunit
      exact policy.evaluate_prompt hfinders hbound
    · rw [PolicySet.decide]
      split
      · exact (Constraints.evaluate_prompt (hbound ▸ hfinders) _ _ _).map _
      · exact .just _

/-- With immediate finders every document has a decision at once. -/
theorem PolicyDocument.evaluate_prompt (document : PolicyDocument) {ctx : EvaluationContext}
    (hctx : ctx.finders = finders) : (document.evaluate ctx).Prompt := by
  cases document with
  | policy p => exact p.evaluate_prompt hfinders hctx
  | set s => exact s.evaluate_prompt hfinders hctx

end Scopes

end Verdict
