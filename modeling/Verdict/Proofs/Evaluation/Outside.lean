/-
Evaluation outside of bodies.

A target, and a variable of a set, cannot observe attributes: whatever finders
there are, its values are the same, and nothing is ever subscribed for them.

* `EvaluationContext.Alike`: contexts that differ in what concerns attributes alone.
* `Expression.evaluate_congr`: outside of bodies such contexts give the same stream.
* `Expression.evaluate_inert`: this stream holds nothing open.
* `PolicySet.scope_inert`: nor do the variables of a set.
* `attributes_unobserved`: both, and what documents hold open.
-/
import Verdict.Evaluation.Document
import Verdict.Proofs.Evaluation.Compositional
import Verdict.Proofs.Evaluation.Substitution
import Verdict.Proofs.Stream.Inert

namespace Verdict

/-- The contexts have the same functions, and their variables have the same values. -/
structure EvaluationContext.Alike (ctx ctx' : EvaluationContext) : Prop where
  functions : ctx.functions = ctx'.functions
  lookup : ∀ name, ctx.lookup name = ctx'.lookup name

/-! ### The same stream whatever the finders -/

/-- Outside of bodies alike contexts give an expression the same stream of values. -/
theorem Expression.evaluate_congr {ctx ctx' : EvaluationContext} (h : ctx.Alike ctx')
    (relative : Value) (e : Expression) :
    e.evaluate ctx false relative = e.evaluate ctx' false relative :=
  e.evaluate_eq ⟨h.functions, by simp, fun name _ => h.lookup name, by simp⟩ relative

/-! ### Nothing held open -/

lemma Stream.Inert.compositional : Stream.Compositional Stream.Inert where
  just := .just
  map f h := h.map f
  distinct same h := h.distinct same
  switchMap h hproject := h.switchMap hproject
  combineLatest h := .combineLatest h

/-- Outside of bodies an expression holds nothing open, whatever stands in its
steps, filters, arguments and templates. -/
theorem Expression.evaluate_inert (ctx : EvaluationContext) (relative : Value) (e : Expression) :
    (e.evaluate ctx false relative).Inert :=
  e.evaluate_compositional Stream.Inert.compositional (by simp) relative

/-! ### What documents hold open -/

lemma VariableDefinition.evaluate_inert (definition : VariableDefinition)
    (ctx : EvaluationContext) : (definition.evaluate ctx false).Inert :=
  (definition.expression.evaluate_inert ctx .undefined).map _

/-- The variables of a set hold nothing open. -/
theorem PolicySet.scope_inert (set : PolicySet) (ctx : EvaluationContext) :
    (set.scope ctx).Inert := by
  have hextend (definition : VariableDefinition) (bound : Except EvalError EvaluationContext) :
      (definition.extend bound).Inert := by
    cases bound with
    | ok ctx => exact definition.evaluate_inert ctx
    | error cause => exact .just _
  rw [scope]
  exact Stream.Inert.compositional.foldl_switchMap hextend set.definitions (.just _)

section

variable {W : World → Prop} {ctx : EvaluationContext}

/-- The stream holds open what the other one holds at some time, or nothing. -/
def Stream.HeldBy {α β : Type} (W : World → Prop) (t : Stream α) (s : Stream β) : Prop :=
  t.HoldsNothing ∨ ∃ u, s.Reaches W u ∧ t.HoldsAs u

/-- Behind a target, decisions hold open what the guarded ones do. -/
lemma guardedBy_heldBy {document : String} {target : Option Expression}
    {matched t : Stream DocumentDecision}
    (h : (guardedBy ctx document target matched).Reaches W t) : t.HeldBy W matched := by
  cases target with
  | none => exact .inr ⟨t, h, fun _ => rfl, rfl⟩
  | some target =>
    obtain ⟨rest, inner, rfl, hrest, hinner⟩ :=
      Stream.Inert.of_reaches_switchMap (target.evaluate_inert ctx .undefined) h
    have hrest := hrest.holdsNothing
    rcases hinner with hinner | ⟨value, hinner⟩
    · exact .inl (hrest.switch hinner.holdsNothing)
    · split at hinner
      · exact .inr ⟨inner, hinner, hrest.switch_holdsAs inner⟩
      · exact .inl (hrest.switch ((Stream.Inert.just _).of_reaches hinner).holdsNothing)

/-- A policy holds open what its body and its constraints do. -/
theorem Policy.evaluate_heldBy (policy : Policy) {t : Stream DocumentDecision}
    (h : (policy.evaluate ctx).Reaches W t) :
    t.HeldBy W ((evaluateBody ctx policy.body).switchMap policy.decide) := by
  obtain ⟨last, u, rfl, hu⟩ := h.of_distinct
  rcases guardedBy_heldBy hu with hnothing | ⟨v, hv, hsame⟩
  · exact .inl ⟨hnothing.subscriptions, hnothing.deadlines⟩
  · exact .inr ⟨v, hv, hsame.subscriptions, hsame.deadlines⟩

/-- A set holds open what its policies and its constraints do in some scope. -/
theorem PolicySet.evaluate_heldBy (set : PolicySet) {t : Stream DocumentDecision}
    (h : (set.evaluate ctx).Reaches W t) : ∃ bound, t.HeldBy W (set.evaluateIn bound) := by
  obtain ⟨last, u, rfl, hu⟩ := h.of_distinct
  rcases guardedBy_heldBy hu with hnothing | ⟨v, hv, hsame⟩
  · exact ⟨.ok ctx, .inl ⟨hnothing.subscriptions, hnothing.deadlines⟩⟩
  obtain ⟨rest, inner, rfl, hrest, hinner⟩ :=
    Stream.Inert.of_reaches_switchMap (set.scope_inert ctx) hv
  have hrest := hrest.holdsNothing
  have hswitch : (Stream.switch false set.evaluateIn rest inner).HoldsAs inner :=
    hrest.switch_holdsAs inner
  rcases hinner with hinner | ⟨bound, hinner⟩
  · have hinner := hinner.holdsNothing
    refine ⟨.ok ctx, .inl ⟨fun topic => ?_, ?_⟩⟩
    · exact (hsame.subscriptions topic).trans
        ((hswitch.subscriptions topic).trans (hinner.subscriptions topic))
    · exact hsame.deadlines.trans (hswitch.deadlines.trans hinner.deadlines)
  · refine ⟨bound, .inr ⟨inner, hinner, fun topic => ?_, ?_⟩⟩
    · exact (hsame.subscriptions topic).trans (hswitch.subscriptions topic)
    · exact hsame.deadlines.trans hswitch.deadlines

end

/-- Outside of bodies nothing depends on finders or deadlines of attributes, and
nothing is ever held open: an expression has the same stream of values in alike
contexts, and however this stream is read, it neither subscribes to anything nor
waits for the clock.  So what a policy holds open is held open by its body and
its constraints, and what a set holds open, by its policies and its constraints;
its variables hold nothing. -/
theorem attributes_unobserved {ctx ctx' : EvaluationContext} (h : ctx.Alike ctx')
    (W : World → Prop) :
    (∀ (e : Expression) (relative : Value),
      e.evaluate ctx false relative = e.evaluate ctx' false relative ∧
        ∀ t, (e.evaluate ctx false relative).Reaches W t → t.HoldsNothing) ∧
    (∀ (policy : Policy) (t : Stream DocumentDecision), (policy.evaluate ctx).Reaches W t →
      t.HeldBy W ((evaluateBody ctx policy.body).switchMap policy.decide)) ∧
    (∀ set : PolicySet, (∀ t, (set.scope ctx).Reaches W t → t.HoldsNothing) ∧
      ∀ t, (set.evaluate ctx).Reaches W t → ∃ bound, t.HeldBy W (set.evaluateIn bound)) := by
  refine ⟨fun e relative => ⟨e.evaluate_congr h relative, fun t ht => ?_⟩,
    fun policy t ht => policy.evaluate_heldBy ht,
    fun set => ⟨fun t ht => ?_, fun t ht => set.evaluate_heldBy ht⟩⟩
  · exact ((e.evaluate_inert ctx relative).of_reaches ht).holdsNothing
  · exact ((set.scope_inert ctx).of_reaches ht).holdsNothing

/-- Attributes in a condition and in the argument of a filter: outside of bodies
their finder makes no difference, and nothing is held open. -/
theorem attributes_unobserved_nested :
    let read : Expression := .basic (.literal .null) [.attribute "a" []] none none
    let e : Expression := .basic (.array [.literal .null]) [.condition read]
      (some (.simple true "f" [read])) none
    let ctx : EvaluationContext := { functions := .empty, finders := ⟨[("a", .watched)]⟩ }
    e.evaluate ctx false .undefined = e.evaluate { functions := .empty } false .undefined ∧
      ∀ t, (e.evaluate ctx false .undefined).Reaches (fun _ => True) t → t.HoldsNothing := by
  intro read e ctx
  have halike : ctx.Alike { functions := .empty } := ⟨rfl, fun _ => rfl⟩
  exact (attributes_unobserved halike fun _ => True).1 e .undefined

end Verdict
