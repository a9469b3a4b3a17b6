/-
The elements of a subscription in the contexts of documents.

A document that has been read defines no variable with the name of an element of the
subscription.  So wherever it evaluates an expression for a subscription, the subject,
the action, the resource and the environment are those of the subscription.

* `Policy.DefinesOnly`, `PolicySet.DefinesOnly`, `PolicyDocument.DefinesOnly`: the names
  that a document defines.
* `readDocument_definesOnly`: a document that has been read defines none of the elements.
* `EvaluationContext.Binds`: a context that has the elements of the subscription.
* `Policy.Evaluates`, `PolicySet.Evaluates`, `PolicyDocument.Evaluates`: the expressions
  that a document evaluates, with their contexts.
* `PolicyDocument.Evaluates.binds`: these contexts have the elements.
-/
import Verdict.DecisionPoint.Basic
import Verdict.Policy.Interchange
import Verdict.Proofs.DecisionPoint.Convergence
import Verdict.Proofs.Evaluation.Coherence
import Verdict.Proofs.Evaluation.Substitution

namespace Verdict

/-! ### Names that documents define -/

/-- Every name that the statement defines has the property. -/
def Statement.DefinesOnly (P : String → Prop) : Statement → Prop
  | .condition _ => True
  | .define definition => P definition.name

/-- Every name that the policy defines has the property. -/
def Policy.DefinesOnly (P : String → Prop) (policy : Policy) : Prop :=
  ∀ statement ∈ policy.body, statement.DefinesOnly P

/-- Every name that the set or one of its policies defines has the property. -/
structure PolicySet.DefinesOnly (P : String → Prop) (set : PolicySet) : Prop where
  definitions : ∀ definition ∈ set.definitions, P definition.name
  policies : ∀ policy ∈ set.policies, policy.DefinesOnly P

/-- Every name that is defined in the document has the property. -/
def PolicyDocument.DefinesOnly (P : String → Prop) : PolicyDocument → Prop
  | .policy p => p.DefinesOnly P
  | .set s => s.DefinesOnly P

section

variable {P Q : String → Prop}

lemma Statement.DefinesOnly.mono {statement : Statement} (h : statement.DefinesOnly P)
    (hPQ : ∀ name, P name → Q name) : statement.DefinesOnly Q := by
  cases statement with
  | condition expression => trivial
  | define definition => exact hPQ _ h

lemma Policy.DefinesOnly.mono {policy : Policy} (h : policy.DefinesOnly P)
    (hPQ : ∀ name, P name → Q name) : policy.DefinesOnly Q :=
  fun statement hstatement => (h statement hstatement).mono hPQ

lemma PolicyDocument.DefinesOnly.mono {document : PolicyDocument} (h : document.DefinesOnly P)
    (hPQ : ∀ name, P name → Q name) : document.DefinesOnly Q := by
  cases document with
  | policy p => exact Policy.DefinesOnly.mono h hPQ
  | set s =>
    exact ⟨fun definition hdefinition => hPQ _ (h.definitions definition hdefinition),
      fun policy hpolicy => (h.policies policy hpolicy).mono hPQ⟩

lemma PolicyDocument.definesOnly_of_forall (document : PolicyDocument) (h : ∀ name, P name) :
    document.DefinesOnly P := by
  have hstatement : ∀ statement : Statement, statement.DefinesOnly P
    | .condition _ => trivial
    | .define definition => h definition.name
  cases document with
  | policy p => exact fun statement _ => hstatement statement
  | set s =>
    exact ⟨fun definition _ => h definition.name, fun _ _ statement _ => hstatement statement⟩

end

/-! ### Documents that have been read -/

/-- Every result of a successful map comes from one of the arguments. -/
lemma forall_of_mapM_eq_ok {ε α β : Type} {f : α → Except ε β} {P : β → Prop}
    (h : ∀ a b, f a = .ok b → P b) {xs : List α} {ys : List β} (hxs : xs.mapM f = .ok ys) :
    ∀ b ∈ ys, P b := by
  induction xs generalizing ys with
  | nil =>
    obtain rfl := Except.ok.inj hxs
    simp
  | cons a rest ih =>
    rw [List.mapM_cons] at hxs
    obtain ⟨b, hb, hxs⟩ := Json.exists_of_bind_eq_ok hxs
    obtain ⟨more, hmore, hxs⟩ := Json.exists_of_bind_eq_ok hxs
    obtain rfl := Except.ok.inj hxs
    exact List.forall_mem_cons.mpr ⟨h a b hb, ih hmore⟩

/-- A name that passes the check is not one of the reserved ones. -/
lemma not_mem_reservedNames_of_check {construct owner : String} {definition : VariableDefinition}
    (h : checkVariable construct owner definition = .ok ()) : definition.name ∉ reservedNames := by
  intro hmem
  rw [checkVariable, if_pos hmem] at h
  cases h

lemma readStatement_definesOnly {policy : String} {value : Json} {statement : Statement}
    (h : readStatement policy value = .ok statement) :
    statement.DefinesOnly (· ∉ reservedNames) := by
  rw [readStatement] at h
  split at h
  · obtain ⟨part, -, h⟩ := Json.exists_of_bind_eq_ok h
    obtain ⟨expression, -, h⟩ := Json.exists_of_bind_eq_ok h
    obtain rfl := Except.ok.inj h
    trivial
  · obtain ⟨definition, -, h⟩ := Json.exists_of_bind_eq_ok h
    obtain ⟨_, hcheck, h⟩ := Json.exists_of_bind_eq_ok h
    obtain rfl := Except.ok.inj h
    exact not_mem_reservedNames_of_check hcheck
  · cases h

lemma readPolicy_definesOnly {value : Json} {policy : Policy} (h : readPolicy value = .ok policy) :
    policy.DefinesOnly (· ∉ reservedNames) := by
  rw [readPolicy] at h
  obtain ⟨name, -, h⟩ := Json.exists_of_bind_eq_ok h
  obtain ⟨text, -, h⟩ := Json.exists_of_bind_eq_ok h
  split at h
  · obtain ⟨parts, -, h⟩ := Json.exists_of_bind_eq_ok h
    obtain ⟨body, hbody, h⟩ := Json.exists_of_bind_eq_ok h
    obtain ⟨target, -, h⟩ := Json.exists_of_bind_eq_ok h
    obtain ⟨obligations, -, h⟩ := Json.exists_of_bind_eq_ok h
    obtain ⟨advice, -, h⟩ := Json.exists_of_bind_eq_ok h
    obtain ⟨transformation, -, h⟩ := Json.exists_of_bind_eq_ok h
    obtain rfl := Except.ok.inj h
    exact forall_of_mapM_eq_ok (fun _ _ => readStatement_definesOnly) hbody
  · cases h

lemma readPolicies_definesOnly {set : String} {values : List Json} {seen : List String}
    {policies : List Policy} (h : readPolicies set values seen = .ok policies) :
    ∀ policy ∈ policies, policy.DefinesOnly (· ∉ reservedNames) := by
  induction values generalizing seen policies with
  | nil =>
    obtain rfl := Except.ok.inj h
    simp
  | cons value rest ih =>
    rw [readPolicies] at h
    obtain ⟨policy, hpolicy, h⟩ := Json.exists_of_bind_eq_ok h
    split at h
    · cases h
    · obtain ⟨more, hmore, h⟩ := Json.exists_of_bind_eq_ok h
      obtain rfl := Except.ok.inj h
      exact List.forall_mem_cons.mpr ⟨readPolicy_definesOnly hpolicy, ih hmore⟩

lemma readPolicySet_definesOnly {value : Json} {set : PolicySet}
    (h : readPolicySet value = .ok set) : set.DefinesOnly (· ∉ reservedNames) := by
  rw [readPolicySet] at h
  obtain ⟨name, -, h⟩ := Json.exists_of_bind_eq_ok h
  obtain ⟨text, -, h⟩ := Json.exists_of_bind_eq_ok h
  split at h
  · obtain ⟨parts, -, h⟩ := Json.exists_of_bind_eq_ok h
    obtain ⟨definitions, hdefinitions, h⟩ := Json.exists_of_bind_eq_ok h
    obtain ⟨values, -, h⟩ := Json.exists_of_bind_eq_ok h
    obtain ⟨policies, hpolicies, h⟩ := Json.exists_of_bind_eq_ok h
    obtain ⟨target, -, h⟩ := Json.exists_of_bind_eq_ok h
    obtain ⟨obligations, -, h⟩ := Json.exists_of_bind_eq_ok h
    obtain ⟨advice, -, h⟩ := Json.exists_of_bind_eq_ok h
    obtain rfl := Except.ok.inj h
    refine ⟨forall_of_mapM_eq_ok (fun part definition h => ?_) hdefinitions,
      readPolicies_definesOnly hpolicies⟩
    obtain ⟨read, -, h⟩ := Json.exists_of_bind_eq_ok h
    obtain ⟨_, hcheck, h⟩ := Json.exists_of_bind_eq_ok h
    obtain rfl := Except.ok.inj h
    exact not_mem_reservedNames_of_check hcheck
  · cases h

/-- A document that has been read defines no variable with the name of an element. -/
theorem readDocument_definesOnly {value : Json} {document : PolicyDocument}
    (h : readDocument value = .ok document) : document.DefinesOnly (· ∉ reservedNames) := by
  rw [readDocument] at h
  split at h
  · obtain ⟨policy, hpolicy, rfl⟩ := Json.exists_of_map_eq_ok h
    exact readPolicy_definesOnly hpolicy
  · obtain ⟨set, hset, rfl⟩ := Json.exists_of_map_eq_ok h
    exact readPolicySet_definesOnly hset
  · cases h
  · cases h

/-! ### The elements in a context -/

/-- The elements of the subscription by their names. -/
def AuthorizationSubscription.elements (s : AuthorizationSubscription) : Assignment
  | "subject" => some s.subject
  | "action" => some s.action
  | "resource" => some s.resource
  | "environment" => s.environment
  | _ => none

lemma AuthorizationSubscription.elements_eq_none (s : AuthorizationSubscription) {name : String}
    (h : name ∉ reservedNames) : s.elements name = none := by
  unfold elements
  split
  all_goals first | rfl | exact absurd (by decide) h

/-- Subject, action and resource are bound to those of the subscription, and the
environment to its own, or not at all if it has none. -/
structure EvaluationContext.Binds (ctx : EvaluationContext) (s : AuthorizationSubscription) :
    Prop where
  subject : ctx.bindings.lookup "subject" = some (.defined s.subject)
  action : ctx.bindings.lookup "action" = some (.defined s.action)
  resource : ctx.bindings.lookup "resource" = some (.defined s.resource)
  environment : ctx.bindings.lookup "environment" = s.environment.map .defined

namespace EvaluationContext

variable {ctx : EvaluationContext} {s : AuthorizationSubscription}

lemma lookup_bindings_bind (ctx : EvaluationContext) (name key : String) (value : Value) :
    (ctx.bind name value).bindings.lookup key
      = if key = name then some value else ctx.bindings.lookup key := by
  rw [bind, lookup_cons_eq]
  by_cases h : key = name
  · rw [if_pos h, if_pos h]
  · have hkeeps : (key != name) = true := bne_iff_ne.mpr h
    rw [if_neg h, if_neg h, lookup_filter (· != name), if_pos hkeeps]

/-- The elements come from the subscription, all else from the configuration. -/
lemma lookup_subscriptionBindings (s : AuthorizationSubscription) (bindings : List (String × Json))
    (key : String) : (subscriptionBindings s bindings).lookup key
      = if key ∈ reservedNames then (s.elements key).map .defined
        else (bindings.lookup key).map .defined := by
  rw [subscriptionBindings, lookup_map]
  generalize hfilter : bindings.filter _ = free
  have hfree : free.lookup key = if key ∈ reservedNames then none else bindings.lookup key := by
    rw [← hfilter, lookup_filter fun name => decide (name ∉ reservedNames)]
    simp
  by_cases hkey : key ∈ reservedNames
  · rw [if_pos hkey] at hfree ⊢
    simp only [reservedNames, List.mem_cons, List.not_mem_nil, or_false] at hkey
    obtain rfl | rfl | rfl | rfl := hkey
    · rfl
    · rfl
    · rfl
    · cases henvironment : s.environment with
      | none => simp [AuthorizationSubscription.elements, lookup_cons_eq, henvironment, hfree]
      | some environment => simp [AuthorizationSubscription.elements, lookup_cons_eq, henvironment]
  · rw [if_neg hkey] at hfree ⊢
    simp only [reservedNames, List.mem_cons, List.not_mem_nil, or_false, not_or] at hkey
    cases s.environment <;> simp [lookup_cons_eq, hkey, hfree]

/-- The context of a subscription has its elements, whatever the configuration binds. -/
lemma binds_forSubscription (ctx : EvaluationContext) (s : AuthorizationSubscription)
    (bindings : List (String × Json)) : (ctx.forSubscription s bindings).Binds s where
  subject := (lookup_subscriptionBindings s bindings _).trans (if_pos (by decide))
  action := (lookup_subscriptionBindings s bindings _).trans (if_pos (by decide))
  resource := (lookup_subscriptionBindings s bindings _).trans (if_pos (by decide))
  environment := (lookup_subscriptionBindings s bindings _).trans (if_pos (by decide))

namespace Binds

/-- What is bound under the name of an element. -/
lemma lookup_eq (h : ctx.Binds s) {name : String} (hname : name ∈ reservedNames) :
    ctx.bindings.lookup name = (s.elements name).map .defined := by
  simp only [reservedNames, List.mem_cons, List.not_mem_nil, or_false] at hname
  obtain rfl | rfl | rfl | rfl := hname
  · exact h.subject
  · exact h.action
  · exact h.resource
  · exact h.environment

/-- A definition of another name leaves the elements bound. -/
lemma bind (h : ctx.Binds s) {name : String} (hname : name ∉ reservedNames) (value : Value) :
    (ctx.bind name value).Binds s := by
  have hkept {key : String} (hkey : key ∈ reservedNames) :
      (ctx.bind name value).bindings.lookup key = ctx.bindings.lookup key := by
    rw [lookup_bindings_bind, if_neg]
    rintro rfl
    exact hname hkey
  exact ⟨(hkept (by decide)).trans h.subject, (hkept (by decide)).trans h.action,
    (hkept (by decide)).trans h.resource, (hkept (by decide)).trans h.environment⟩

/-- An expression sees the elements, wherever in it they are named. -/
lemma substitutes (h : ctx.Binds s) (inBody : Bool) : ctx.Substitutes s.elements inBody ctx where
  functions := rfl
  assigned name value hvalue := by
    have hname : name ∈ reservedNames := by
      by_contra hname
      rw [s.elements_eq_none hname] at hvalue
      cases hvalue
    rw [lookup, h.lookup_eq hname, hvalue]
    rfl
  lookup _ _ := rfl
  subscribe _ _ _ _ := rfl

end Binds

end EvaluationContext

/-! ### The expressions that a document evaluates -/

/-- The expression of a statement. -/
def Statement.expression : Statement → Expression
  | .condition expression => expression
  | .define definition => definition.expression

/-- In the context, the policy evaluates the expression in another context, as a part of
its body or not: its target in the context as it is, each statement where those before it
hold, and the constraints where the body holds. -/
inductive Policy.Evaluates (W : World → Prop) (policy : Policy) (ctx : EvaluationContext) :
    EvaluationContext → Bool → Expression → Prop
  | target {e : Expression} (h : policy.target = some e) : Evaluates W policy ctx ctx false e
  | statement {before after : List Statement} {statement : Statement} {inner : EvaluationContext}
      (h : policy.body = before ++ statement :: after)
      (hbefore : (evaluateBody ctx before).Delivers W (.satisfied inner)) :
      Evaluates W policy ctx inner true statement.expression
  | constraint {e : Expression} {inner : EvaluationContext}
      (h : e ∈ policy.obligations ++ policy.advice ++ policy.transformation.toList)
      (hbody : (evaluateBody ctx policy.body).Delivers W (.satisfied inner)) :
      Evaluates W policy ctx inner true e

/-- In the context, the set evaluates the expression in another context: its target in the
context as it is, each definition in the scope of those before it, and in the scope of all
of them what its policies evaluate there, and its constraints. -/
inductive PolicySet.Evaluates (W : World → Prop) (set : PolicySet) (ctx : EvaluationContext) :
    EvaluationContext → Bool → Expression → Prop
  | target {e : Expression} (h : set.target = some e) : Evaluates W set ctx ctx false e
  | definition {before after : List VariableDefinition} {definition : VariableDefinition}
      {inner : EvaluationContext} (h : set.definitions = before ++ definition :: after)
      (hbefore : ({ set with definitions := before }.scope ctx).Delivers W (.ok inner)) :
      Evaluates W set ctx inner false definition.expression
  | policy {policy : Policy} {scope inner : EvaluationContext} {inBody : Bool} {e : Expression}
      (hpolicy : policy ∈ set.policies) (hscope : (set.scope ctx).Delivers W (.ok scope))
      (h : policy.Evaluates W scope inner inBody e) : Evaluates W set ctx inner inBody e
  | constraint {e : Expression} {inner : EvaluationContext} (h : e ∈ set.obligations ++ set.advice)
      (hscope : (set.scope ctx).Delivers W (.ok inner)) : Evaluates W set ctx inner true e

/-- In the context, the document evaluates the expression in another context. -/
def PolicyDocument.Evaluates (W : World → Prop) (document : PolicyDocument)
    (ctx inner : EvaluationContext) (inBody : Bool) (e : Expression) : Prop :=
  match document with
  | .policy p => p.Evaluates W ctx inner inBody e
  | .set s => s.Evaluates W ctx inner inBody e

/-! ### The elements in all contexts -/

section Contexts

variable {W : World → Prop} {ctx inner : EvaluationContext} {s : AuthorizationSubscription}

lemma Stream.Always.of_delivers {α : Type} {P : α → Prop} {t : Stream α} (h : t.Always W P) {a : α}
    (ha : t.Delivers W a) : P a := by
  obtain ⟨u, hu, w, hw, hitem⟩ := ha
  exact h u hu w hw a hitem

/-- What every stage keeps holds behind all of them. -/
lemma foldl_switchMap_always {α γ : Type} {P : α → Prop} {stage : γ → α → Stream α} {xs : List γ}
    (hstage : ∀ x ∈ xs, ∀ a, P a → (stage x a).Always W P) {t : Stream α} (h : t.Always W P) :
    (xs.foldl (fun t x => t.switchMap (stage x)) t).Always W P := by
  induction xs generalizing t with
  | nil => exact h
  | cons x rest ih =>
    rw [List.forall_mem_cons] at hstage
    exact ih hstage.2 (h.switchMap hstage.1)

lemma VariableDefinition.evaluate_binds {definition : VariableDefinition}
    (hname : definition.name ∉ reservedNames) (hctx : ctx.Binds s) (inBody : Bool) :
    (definition.evaluate ctx inBody).Always W
      fun scope => ∀ inner, scope = .ok inner → inner.Binds s := by
  refine (Stream.Always.trivial _).map fun value _ inner hinner => ?_
  split at hinner
  · cases hinner
  · obtain rfl := Except.ok.inj hinner
    exact hctx.bind hname _

/-- A statement that defines no element leaves the elements bound. -/
lemma Statement.apply_binds {statement : Statement}
    (h : statement.DefinesOnly (· ∉ reservedNames)) (outcome : BodyOutcome)
    (houtcome : ∀ inner, outcome = .satisfied inner → inner.Binds s) :
    (statement.apply outcome).Always W fun o => ∀ inner, o = .satisfied inner → inner.Binds s := by
  cases outcome with
  | unsatisfied => exact .just houtcome
  | failed cause => exact .just houtcome
  | satisfied ctx =>
    have hctx := houtcome ctx rfl
    cases statement with
    | condition expression =>
      refine (Stream.Always.trivial _).map fun value _ inner hinner => ?_
      unfold BodyOutcome.ofCondition at hinner
      split at hinner
      · obtain rfl := BodyOutcome.satisfied.inj hinner
        exact hctx
      all_goals cases hinner
    | define definition =>
      refine (definition.evaluate_binds h hctx true).map fun scope hscope inner hinner => ?_
      cases scope with
      | error cause => cases hinner
      | ok ctx => exact hscope inner (congrArg _ (BodyOutcome.satisfied.inj hinner))

lemma evaluateBody_binds {body : List Statement}
    (h : ∀ statement ∈ body, statement.DefinesOnly (· ∉ reservedNames)) (hctx : ctx.Binds s)
    (hinner : (evaluateBody ctx body).Delivers W (.satisfied inner)) : inner.Binds s := by
  have halways : (evaluateBody ctx body).Always W
      fun o => ∀ inner, o = .satisfied inner → inner.Binds s := by
    refine foldl_switchMap_always (fun statement hstatement outcome => ?_) (.just ?_)
    · exact Statement.apply_binds (h statement hstatement) outcome
    · rintro inner ⟨⟩
      exact hctx
  exact halways.of_delivers hinner inner rfl

lemma PolicySet.scope_binds {set : PolicySet}
    (h : ∀ definition ∈ set.definitions, definition.name ∉ reservedNames) (hctx : ctx.Binds s)
    (hinner : (set.scope ctx).Delivers W (.ok inner)) : inner.Binds s := by
  have halways : (set.scope ctx).Always W
      fun scope => ∀ inner, scope = .ok inner → inner.Binds s := by
    rw [PolicySet.scope]
    refine foldl_switchMap_always (fun definition hdefinition scope hscope => ?_) (.just ?_)
    · cases scope with
      | error cause => exact .just hscope
      | ok ctx => exact definition.evaluate_binds (h definition hdefinition) (hscope ctx rfl) false
    · rintro inner ⟨⟩
      exact hctx
  exact halways.of_delivers hinner inner rfl

lemma Policy.Evaluates.binds {policy : Policy} {inBody : Bool} {e : Expression}
    (h : policy.Evaluates W ctx inner inBody e) (hpolicy : policy.DefinesOnly (· ∉ reservedNames))
    (hctx : ctx.Binds s) : inner.Binds s := by
  cases h with
  | target _ => exact hctx
  | statement hbody hbefore =>
    refine evaluateBody_binds (fun statement hstatement => hpolicy statement ?_) hctx hbefore
    rw [hbody]
    exact List.mem_append_left _ hstatement
  | constraint _ hbody => exact evaluateBody_binds hpolicy hctx hbody

lemma PolicySet.Evaluates.binds {set : PolicySet} {inBody : Bool} {e : Expression}
    (h : set.Evaluates W ctx inner inBody e) (hset : set.DefinesOnly (· ∉ reservedNames))
    (hctx : ctx.Binds s) : inner.Binds s := by
  cases h with
  | target _ => exact hctx
  | definition hdefinitions hbefore =>
    refine scope_binds (fun definition hdefinition => hset.definitions definition ?_) hctx hbefore
    rw [hdefinitions]
    exact List.mem_append_left _ hdefinition
  | policy hpolicy hscope h =>
    exact h.binds (hset.policies _ hpolicy) (scope_binds hset.definitions hctx hscope)
  | constraint _ hscope => exact scope_binds hset.definitions hctx hscope

/-- A document that defines none of the elements has them wherever it evaluates an
expression, if it has them at first. -/
theorem PolicyDocument.Evaluates.binds {document : PolicyDocument} {inBody : Bool} {e : Expression}
    (h : document.Evaluates W ctx inner inBody e)
    (hdocument : document.DefinesOnly (· ∉ reservedNames)) (hctx : ctx.Binds s) :
    inner.Binds s := by
  cases document with
  | policy p => exact Policy.Evaluates.binds h hdocument hctx
  | set set => exact PolicySet.Evaluates.binds h hdocument hctx

end Contexts

end Verdict
