/-
Contexts that agree.

Two contexts agree if they give every variable the same value; whether they do so in the
same order matters only to finders that look at the order.  A document evaluated in the
one decides what it decides in the other, also with the values that both have in place of
some of its variables, as long as it does not define these variables itself.

* `FinderRegistry.ByName`: finders that look variables up.
* `EvaluationContext.Agrees`: contexts that agree, and have the assigned values.
* `PolicyDocument.substitute`: the document with these values in place of variables.
* `PolicyDocument.evaluate_matches`: streams of decisions that match.
-/
import Verdict.Proofs.DecisionPoint.Elements
import Verdict.Proofs.Evaluation.Compositional
import Verdict.Proofs.Stream.Matching

namespace Verdict

variable {σ : Assignment}

/-! ### Contexts -/

/-- The values depend on what the variables are bound to, and not on their order. -/
def Finder.ByName : Finder → Prop
  | .computed values => ∀ left arguments (bindings others : Bindings),
      (∀ name, bindings.lookup name = others.lookup name) →
      values left arguments bindings = values left arguments others
  | .watched | .clock => True

/-- All finders look variables up by their names. -/
def FinderRegistry.ByName (registry : FinderRegistry) : Prop :=
  ∀ name finder, registry.finders.lookup name = some finder → finder.ByName

/-- Finders that look variables up by name see no difference between bindings in which every
name has the same value. -/
lemma FinderRegistry.ByName.subscribe_eq {registry : FinderRegistry} (h : registry.ByName)
    {bindings others : Bindings} (hlookup : ∀ name, bindings.lookup name = others.lookup name)
    (name : String) (left : Value) (arguments : List Value) (deadline : Option Nat) :
    registry.subscribe name left arguments bindings deadline
      = registry.subscribe name left arguments others deadline := by
  rw [FinderRegistry.subscribe, FinderRegistry.subscribe]
  cases hfinder : registry.finders.lookup name with
  | none => rfl
  | some finder =>
    have hfind : finder.find name left arguments bindings
        = finder.find name left arguments others := by
      cases finder with
      | computed values =>
        exact congrArg Stream.lasting (h name _ hfinder left arguments bindings others hlookup)
      | watched => rfl
      | clock => rfl
    simp only [hfind]

namespace EvaluationContext

/-- The contexts bind every variable to the same value, and the assigned variables to the
values that are assigned to them. -/
structure Agrees (σ : Assignment) (ctx ctx' : EvaluationContext) : Prop where
  functions : ctx.functions = ctx'.functions
  finders : ctx.finders = ctx'.finders
  attributeTimeout : ctx.attributeTimeout = ctx'.attributeTimeout
  lookup : ∀ name, ctx.bindings.lookup name = ctx'.bindings.lookup name
  assigned : ∀ name value, σ name = some value → ctx.lookup name = .defined value
  /-- Finders that do not look variables up may see their order. -/
  order : ctx.finders.ByName ∨ ctx.bindings = ctx'.bindings

namespace Agrees

variable {ctx ctx' : EvaluationContext}

/-- In contexts that agree, expressions with the variables substituted mean the same. -/
lemma substitutes (h : ctx.Agrees σ ctx') (inBody : Bool) : ctx.Substitutes σ inBody ctx' where
  functions := h.functions
  assigned := h.assigned
  lookup name _ := by rw [EvaluationContext.lookup, EvaluationContext.lookup, h.lookup]
  subscribe _ name left arguments := by
    rw [← h.finders, ← h.attributeTimeout]
    obtain hnames | hbindings := h.order
    · exact hnames.subscribe_eq h.lookup name left arguments _
    · rw [hbindings]

/-- They still agree after a definition of a variable that is not assigned. -/
lemma bind (h : ctx.Agrees σ ctx') {name : String} (hname : σ name = none) (value : Value) :
    (ctx.bind name value).Agrees σ (ctx'.bind name value) where
  functions := h.functions
  finders := h.finders
  attributeTimeout := h.attributeTimeout
  lookup key := by rw [lookup_bindings_bind, lookup_bindings_bind, h.lookup]
  assigned key other hkey := by
    have hne : key ≠ name := by
      rintro rfl
      rw [hname] at hkey
      cases hkey
    rw [EvaluationContext.lookup, lookup_bindings_bind, if_neg hne]
    exact h.assigned key other hkey
  order := h.order.imp id fun hbindings => by
    rw [EvaluationContext.bind, EvaluationContext.bind, hbindings]

end Agrees

/-- A context that has the elements of a subscription agrees with itself on them. -/
lemma Binds.agrees {ctx : EvaluationContext} {s : AuthorizationSubscription} (h : ctx.Binds s) :
    ctx.Agrees s.elements ctx where
  functions := rfl
  finders := rfl
  attributeTimeout := rfl
  lookup _ := rfl
  assigned := (h.substitutes true).assigned
  order := .inr rfl

end EvaluationContext

/-- The outcomes are alike, in contexts that agree. -/
inductive BodyOutcome.Agrees (σ : Assignment) : BodyOutcome → BodyOutcome → Prop
  | satisfied {ctx ctx' : EvaluationContext} (h : ctx.Agrees σ ctx') :
      Agrees σ (.satisfied ctx) (.satisfied ctx')
  | unsatisfied : Agrees σ .unsatisfied .unsatisfied
  | failed (cause : EvalError) : Agrees σ (.failed cause) (.failed cause)

/-- Both scopes are contexts that agree, or both have failed alike. -/
inductive EvaluationContext.Scopes (σ : Assignment) :
    Except EvalError EvaluationContext → Except EvalError EvaluationContext → Prop
  | ok {ctx ctx' : EvaluationContext} (h : ctx.Agrees σ ctx') : Scopes σ (.ok ctx) (.ok ctx')
  | error (cause : EvalError) : Scopes σ (.error cause) (.error cause)

/-! ### Replacing variables in documents -/

/-- The definition with the assigned values in place of the variables. -/
def VariableDefinition.substitute (σ : Assignment) (definition : VariableDefinition) :
    VariableDefinition :=
  { definition with expression := definition.expression.substitute σ }

/-- The statement with the assigned values in place of the variables. -/
def Statement.substitute (σ : Assignment) : Statement → Statement
  | .condition expression => .condition (expression.substitute σ)
  | .define definition => .define (definition.substitute σ)

/-- The policy with the assigned values in place of the variables. -/
def Policy.substitute (σ : Assignment) (policy : Policy) : Policy :=
  { policy with
    target := policy.target.map (·.substitute σ)
    body := policy.body.map (·.substitute σ)
    obligations := policy.obligations.map (·.substitute σ)
    advice := policy.advice.map (·.substitute σ)
    transformation := policy.transformation.map (·.substitute σ) }

/-- The set with the assigned values in place of the variables. -/
def PolicySet.substitute (σ : Assignment) (set : PolicySet) : PolicySet :=
  { set with
    target := set.target.map (·.substitute σ)
    definitions := set.definitions.map (·.substitute σ)
    policies := set.policies.map (·.substitute σ)
    obligations := set.obligations.map (·.substitute σ)
    advice := set.advice.map (·.substitute σ) }

/-- The document with the assigned values in place of the variables. -/
def PolicyDocument.substitute (σ : Assignment) : PolicyDocument → PolicyDocument
  | .policy p => .policy (p.substitute σ)
  | .set s => .set (s.substitute σ)

lemma Expression.substituteEach_eq (es : List Expression) :
    Expression.substituteEach σ es = es.map (·.substitute σ) := by
  induction es with
  | nil => rfl
  | cons e rest ih => rw [Expression.substituteEach, List.map_cons, ih]

lemma Policy.substitute_none (policy : Policy) : policy.substitute (fun _ => none) = policy := by
  have hexpression : (fun e : Expression => e.substitute fun _ => none) = id :=
    funext Expression.substitute_none
  have hstatement : (fun statement : Statement => statement.substitute fun _ => none) = id := by
    funext statement
    cases statement with
    | condition expression => exact congrArg _ expression.substitute_none
    | define definition =>
      exact congrArg (fun e => Statement.define ⟨definition.name, e⟩)
        definition.expression.substitute_none
  rw [substitute, hexpression, hstatement]
  simp only [Option.map_id, List.map_id, id]

/-- Where nothing is assigned a document stays as it is. -/
theorem PolicyDocument.substitute_none (document : PolicyDocument) :
    document.substitute (fun _ => none) = document := by
  have hexpression : (fun e : Expression => e.substitute fun _ => none) = id :=
    funext Expression.substitute_none
  have hdefinition : (fun d : VariableDefinition => d.substitute fun _ => none) = id :=
    funext fun d => congrArg (VariableDefinition.mk d.name) d.expression.substitute_none
  have hpolicy : (fun p : Policy => p.substitute fun _ => none) = id :=
    funext Policy.substitute_none
  cases document with
  | policy p => exact congrArg _ p.substitute_none
  | set s =>
    rw [PolicyDocument.substitute, PolicySet.substitute, hexpression, hdefinition, hpolicy]
    simp only [Option.map_id, List.map_id, id]

/-! ### Streams -/

/-- The relation asks for the same values of attributes. -/
def Topic.Relation.EqualAttributes (T : Topic.Relation) : Prop :=
  ∀ name, T (.ofAttribute name) = Eq

section Streams

variable {T : Topic.Relation} (hT : T.EqualAttributes)

/-- A stream that the combinators of evaluation make of streams that match themselves
matches itself. -/
lemma Stream.Matches.compositional : Stream.Compositional fun s => s.Matches T Eq s where
  just _ := .just rfl
  map f h := h.map_eq f
  distinct same h := h.distinct same
  switchMap h hproject := h.switchMap fun a _ hab => hab ▸ hproject a
  combineLatest h := .combineLatest (List.forall₂_same.mpr h)

include hT

/-- What is read from topics that count as one matches itself. -/
lemma FinderRegistry.subscribe_matches (registry : FinderRegistry) (name : String) (left : Value)
    (arguments : List Value) (bindings : Bindings) (deadline : Option Nat) :
    (registry.subscribe name left arguments bindings deadline).Matches T Eq
      (registry.subscribe name left arguments bindings deadline) := by
  rw [FinderRegistry.subscribe]
  cases registry.finders.lookup name with
  | none => exact .just rfl
  | some finder =>
    have hfind : (finder.find name left arguments bindings).Matches T Eq
        (finder.find name left arguments bindings) := by
      cases finder with
      | computed values => exact .lasting (List.forall₂_same.mpr fun _ _ => rfl)
      | watched =>
        have hwatch := Stream.Matches.watch (T := T) (.ofAttribute name) none
        rw [hT name] at hwatch
        exact hwatch
      | clock =>
        rw [Finder.find]
        cases Finder.interval arguments with
        | ok period => exact (Stream.Matches.clock period none).map_eq _
        | error cause => exact .just rfl
    cases deadline with
    | none => exact hfind
    | some millis => exact .timeout rfl hfind

variable {ctx ctx' : EvaluationContext} (h : ctx.Agrees σ ctx')

include h

lemma Expression.evaluate_matches (e : Expression) (inBody : Bool) (relative : Value) :
    (e.evaluate ctx inBody relative).Matches T Eq
      ((e.substitute σ).evaluate ctx' inBody relative) := by
  rw [← e.evaluate_substitute (h.substitutes inBody)]
  exact e.evaluate_compositional Stream.Matches.compositional
    (fun _ _ _ _ => FinderRegistry.subscribe_matches hT ..) relative

/-- Constraints with the variables substituted give the same values. -/
lemma Constraints.evaluate_matches (obligations advice : List Expression)
    (transformation : Option Expression) :
    (Constraints.evaluate ctx obligations advice transformation).Matches T Eq
      (Constraints.evaluate ctx' (obligations.map (·.substitute σ)) (advice.map (·.substitute σ))
        (transformation.map (·.substitute σ))) := by
  have hes : (obligations ++ advice ++ transformation.toList).map (·.substitute σ)
      = obligations.map (·.substitute σ) ++ advice.map (·.substitute σ)
        ++ (transformation.map (·.substitute σ)).toList := by
    cases transformation <;> simp
  rw [Constraints.evaluate, Constraints.evaluate, List.length_map, List.length_map, ← hes,
    ← Expression.substituteEach_eq,
    ← Expression.evaluateEach_substitute (h.substitutes true)]
  refine (Stream.Matches.combineLatest (List.forall₂_same.mpr ?_)).map_eq _
  exact Expression.evaluateEach_compositional Stream.Matches.compositional
    (fun _ _ _ _ => FinderRegistry.subscribe_matches hT ..) .undefined _

lemma guardedBy_matches (document : String) (target : Option Expression)
    {matched matched' : Stream DocumentDecision} (hmatched : matched.Matches T Eq matched') :
    (guardedBy ctx document target matched).Matches T Eq
      (guardedBy ctx' document (target.map (·.substitute σ)) matched') := by
  cases target with
  | none => exact hmatched
  | some target =>
    refine (target.evaluate_matches hT h false .undefined).switchMap ?_
    rintro value _ rfl
    split
    · exact hmatched
    · exact .just rfl

/-! Policies. -/

/-- A definition of a name that is not substituted leads to scopes that agree. -/
lemma VariableDefinition.evaluate_matches {definition : VariableDefinition}
    (hname : σ definition.name = none) (inBody : Bool) :
    (definition.evaluate ctx inBody).Matches T (EvaluationContext.Scopes σ)
      ((definition.substitute σ).evaluate ctx' inBody) := by
  refine (definition.expression.evaluate_matches hT h inBody .undefined).map ?_
  rintro value _ rfl
  cases value with
  | error cause => exact .error cause
  | undefined => exact .ok (h.bind hname _)
  | defined json => exact .ok (h.bind hname _)

omit h

lemma Statement.apply_matches {statement : Statement} (hnames : statement.DefinesOnly (σ · = none))
    {before before' : BodyOutcome} (hbefore : before.Agrees σ before') :
    (statement.apply before).Matches T (BodyOutcome.Agrees σ)
      ((statement.substitute σ).apply before') := by
  cases hbefore with
  | unsatisfied => exact .just .unsatisfied
  | failed cause => exact .just (.failed cause)
  | satisfied h =>
    cases statement with
    | condition expression =>
      refine (expression.evaluate_matches hT h true .undefined).map ?_
      rintro value _ rfl
      unfold BodyOutcome.ofCondition
      split
      · exact .satisfied h
      · exact .unsatisfied
      · exact .unsatisfied
      · exact .failed _
      · exact .failed _
    | define definition =>
      refine (definition.evaluate_matches hT h hnames true).map fun scope scope' hscope => ?_
      cases hscope with
      | ok h => exact .satisfied h
      | error cause => exact .failed cause

omit hT

/-- Stages that match one after the other. -/
lemma foldl_switchMap_matches {α γ : Type} {R : α → α → Prop} {stage : γ → α → Stream α}
    {f : γ → γ} {xs : List γ}
    (hstage : ∀ x ∈ xs, ∀ a b, R a b → (stage x a).Matches T R (stage (f x) b))
    {s t : Stream α} (h : s.Matches T R t) :
    (xs.foldl (fun s x => s.switchMap (stage x)) s).Matches T R
      ((xs.map f).foldl (fun s x => s.switchMap (stage x)) t) := by
  induction xs generalizing s t with
  | nil => exact h
  | cons x rest ih =>
    rw [List.forall_mem_cons] at hstage
    exact ih hstage.2 (h.switchMap hstage.1)

include hT h

lemma evaluateBody_matches {body : List Statement}
    (hnames : ∀ statement ∈ body, statement.DefinesOnly (σ · = none)) :
    (evaluateBody ctx body).Matches T (BodyOutcome.Agrees σ)
      (evaluateBody ctx' (body.map (·.substitute σ))) :=
  foldl_switchMap_matches
    (fun statement hstatement _ _ => Statement.apply_matches hT (hnames statement hstatement))
    (.just (.satisfied h))

/-- A policy that defines no substituted name decides the same when they are written in
place. -/
theorem Policy.evaluate_matches {policy : Policy} (hnames : policy.DefinesOnly (σ · = none)) :
    (policy.evaluate ctx).Matches T Eq ((policy.substitute σ).evaluate ctx') := by
  refine (guardedBy_matches hT h _ _
    ((evaluateBody_matches hT h hnames).switchMap fun outcome outcome' houtcome => ?_)).distinct _
  cases houtcome with
  | satisfied h =>
    exact (Constraints.evaluate_matches hT h _ _ _).map_eq _
  | unsatisfied => exact .just rfl
  | failed cause => exact .just rfl

/-! Policy sets. -/

omit hT h

lemma firstApplicableLive_matches {units units' : List (Stream DocumentDecision)}
    (h : List.Forall₂ (Stream.Matches T Eq) units units') (seen : List DocumentDecision) :
    (firstApplicableLive units seen).Matches T Eq (firstApplicableLive units' seen) := by
  induction h generalizing seen with
  | nil => exact .just rfl
  | cons hunit _ ih =>
    refine hunit.switchMap ?_
    rintro d _ rfl
    split
    · exact ih _
    · exact .just rfl

lemma combineLive_matches (algorithm : CombiningAlgorithm)
    {units units' : List (Stream DocumentDecision)}
    (h : List.Forall₂ (Stream.Matches T Eq) units units') :
    (combineLive algorithm units).Matches T Eq (combineLive algorithm units') := by
  refine Stream.Matches.distinct ?_ _
  split
  · exact firstApplicableLive_matches h []
  · exact (Stream.Matches.combineLatest h).map_eq _

include hT

/-- The scopes of a set agree definition by definition. -/
lemma PolicySet.scope_matches (h : ctx.Agrees σ ctx') {set : PolicySet}
    (hnames : ∀ definition ∈ set.definitions, σ definition.name = none) :
    (set.scope ctx).Matches T (EvaluationContext.Scopes σ) ((set.substitute σ).scope ctx') := by
  rw [PolicySet.scope, PolicySet.scope]
  refine foldl_switchMap_matches (fun definition hdefinition _ _ hscope => ?_) (.just (.ok h))
  cases hscope with
  | ok h => exact definition.evaluate_matches hT h (hnames definition hdefinition) false
  | error cause => exact .just (.error cause)

lemma PolicySet.evaluateIn_matches {set : PolicySet} (hnames : set.DefinesOnly (σ · = none))
    {scope scope' : Except EvalError EvaluationContext}
    (hscope : EvaluationContext.Scopes σ scope scope') :
    (set.evaluateIn scope).Matches T Eq ((set.substitute σ).evaluateIn scope') := by
  cases hscope with
  | error cause => exact .just rfl
  | @ok inner inner' h =>
    have hpolicies : List.Forall₂ (Stream.Matches T Eq) (set.policies.map (·.evaluate inner))
        ((set.substitute σ).policies.map (·.evaluate inner')) := by
      rw [PolicySet.substitute, List.map_map, List.forall₂_map_left_iff,
        List.forall₂_map_right_iff, List.forall₂_same]
      exact fun policy hpolicy => Policy.evaluate_matches hT h (hnames.policies policy hpolicy)
    refine (combineLive_matches set.algorithm hpolicies).switchMap ?_
    rintro combined _ rfl
    simp only [PolicySet.decide, PolicySet.substitute, List.isEmpty_map]
    split
    · exact (Constraints.evaluate_matches hT h _ _ none).map_eq _
    · exact .just rfl

include h

theorem PolicySet.evaluate_matches {set : PolicySet} (hnames : set.DefinesOnly (σ · = none)) :
    (set.evaluate ctx).Matches T Eq ((set.substitute σ).evaluate ctx') :=
  (guardedBy_matches hT h _ _ ((PolicySet.scope_matches hT h hnames.definitions).switchMap
    fun _ _ => PolicySet.evaluateIn_matches hT hnames)).distinct _

/-- In contexts that agree a document makes the same decisions with the assigned values in
place of variables that it does not define. -/
theorem PolicyDocument.evaluate_matches {document : PolicyDocument}
    (hnames : document.DefinesOnly (σ · = none)) :
    (document.evaluate ctx).Matches T Eq ((document.substitute σ).evaluate ctx') := by
  cases document with
  | policy p => exact Policy.evaluate_matches hT h hnames
  | set s => exact PolicySet.evaluate_matches hT h hnames

omit h in
/-- In contexts that agree a document makes the same decisions. -/
theorem PolicyDocument.evaluate_agrees (h : ctx.Agrees (fun _ => none) ctx')
    (document : PolicyDocument) :
    (document.evaluate ctx).Matches T Eq (document.evaluate ctx') := by
  have hmatches := PolicyDocument.evaluate_matches hT h
    (document.definesOnly_of_forall fun _ => rfl)
  rw [document.substitute_none] at hmatches
  exact hmatches

end Streams

end Verdict
