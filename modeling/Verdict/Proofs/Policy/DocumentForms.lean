/-
The forms of policy documents.

What the forms of expressions are for expressions, these are for policies, policy sets
and their parts.

* `VariableForm`, `StatementForm`, `PolicyForm`, `PolicySetForm`, `DocumentForm`: the
  forms.
* `Json.Defines`: a definition whose name is not reserved.
* `readPolicies_eq_ok`: policies of which no name repeats.
* `readDocument_eq_ok` and its like: what a reader returns has the form, and everything
  with the form is returned.
-/
import Verdict.Proofs.DecisionPoint.Elements
import Verdict.Proofs.Policy.ExpressionForms

namespace Verdict

/-! ### Forms -/

/-- The form of a variable definition. -/
inductive VariableForm (value : Json) : VariableDefinition → Prop
  | mk {name : String} {e : Expression} (hname : value.Has "name" Json.IsText name)
      (he : value.Has "expression" (Json.ReadBy readExpression) e) : VariableForm value ⟨name, e⟩

/-- The value is read as a definition, and its name is not reserved. -/
def Json.Defines (value : Json) (definition : VariableDefinition) : Prop :=
  readVariable value = .ok definition ∧ definition.name ∉ reservedNames

/-- The form of a statement of a body. -/
inductive StatementForm (value : Json) : Statement → Prop
  | condition {e : Expression} (hkind : value.tag? = some "condition")
      (he : value.Has "expression" (Json.ReadBy readExpression) e) :
      StatementForm value (.condition e)
  | define {definition : VariableDefinition} (hkind : value.tag? = some "variable")
      (hdefinition : value.Defines definition) : StatementForm value (.define definition)

/-- The form of a policy. -/
structure PolicyForm (value : Json) (policy : Policy) : Prop where
  name : value.Has "name" Json.IsText policy.name
  entitlement : value.Has "entitlement" (Json.Names Entitlement.ofName?) policy.entitlement
  body : value.HasEach "body" (Json.ReadBy (readStatement policy.name)) policy.body
  target : value.HasOptional "target" (Json.ReadBy readExpression) policy.target
  obligations : value.HasEach "obligations" (Json.ReadBy readExpression) policy.obligations
  advice : value.HasEach "advice" (Json.ReadBy readExpression) policy.advice
  transformation :
    value.HasOptional "transformation" (Json.ReadBy readExpression) policy.transformation

/-- The form of a policy set. -/
structure PolicySetForm (value : Json) (set : PolicySet) : Prop where
  name : value.Has "name" Json.IsText set.name
  algorithm : value.Has "algorithm" (Json.Names CombiningAlgorithm.ofName?) set.algorithm
  definitions : value.HasEach "variables" Json.Defines set.definitions
  policies : value.HasEach "policies" (Json.ReadBy readPolicy) set.policies
  distinct : (set.policies.map Policy.name).Nodup
  target : value.HasOptional "target" (Json.ReadBy readExpression) set.target
  obligations : value.HasEach "obligations" (Json.ReadBy readExpression) set.obligations
  advice : value.HasEach "advice" (Json.ReadBy readExpression) set.advice

/-- The form of a document. -/
inductive DocumentForm (value : Json) : PolicyDocument → Prop
  | policy {policy : Policy} (hkind : value.tag? = some "policy")
      (hpolicy : readPolicy value = .ok policy) : DocumentForm value (.policy policy)
  | set {set : PolicySet} (hkind : value.tag? = some "policy_set")
      (hset : readPolicySet value = .ok set) : DocumentForm value (.set set)

/-! ### Readers -/

section Readers

variable {value : Json} {construct owner field : String}

lemma optionalExpression_eq_ok {e? : Option Expression} :
    optionalExpression value field = .ok e? ↔
      value.HasOptional field (Json.ReadBy readExpression) e? := by
  rw [optionalExpression, Json.HasOptional, ← map_val_optional]
  cases optional value field with
  | none => cases e? <;> simp
  | some part => cases e? <;> cases h : readExpression part.val <;> simp [Json.ReadBy, h]

lemma expressions_eq_ok {es : List Expression} :
    expressions value construct field = .ok es ↔
      value.HasEach field (Json.ReadBy readExpression) es := by
  rw [← exists_items fun _ _ => Iff.rfl]
  constructor
  · intro h
    exact Json.exists_of_bind_eq_ok h
  · rintro ⟨parts, hparts, hes⟩
    exact bind_eq_ok hparts hes

lemma checkVariable_eq_ok {definition : VariableDefinition} :
    checkVariable construct owner definition = .ok () ↔ definition.name ∉ reservedNames := by
  rw [checkVariable]
  split <;> simp_all

lemma readVariable_eq_ok {definition : VariableDefinition} :
    readVariable value = .ok definition ↔ VariableForm value definition := by
  constructor
  · intro h
    obtain ⟨name, hname, h⟩ := Json.exists_of_bind_eq_ok h
    obtain ⟨e, he, h⟩ := required_bind_eq_ok.mp h
    obtain rfl := Except.ok.inj h
    exact .mk (requiredString_eq_ok.mp hname) he
  · rintro ⟨hname, he⟩
    exact bind_eq_ok (requiredString_eq_ok.mpr hname) (required_bind_eq_ok.mpr ⟨_, he, rfl⟩)

lemma readDefinition_eq_ok {definition : VariableDefinition} :
    (do
      let definition ← readVariable value
      checkVariable construct owner definition
      return definition) = .ok definition ↔ value.Defines definition := by
  constructor
  · intro h
    obtain ⟨read, hread, h⟩ := Json.exists_of_bind_eq_ok h
    obtain ⟨_, hcheck, h⟩ := Json.exists_of_bind_eq_ok h
    obtain rfl := Except.ok.inj h
    exact ⟨hread, checkVariable_eq_ok.mp hcheck⟩
  · rintro ⟨hread, hname⟩
    exact bind_eq_ok hread (bind_eq_ok (checkVariable_eq_ok.mpr hname) rfl)

/-- What is read as a statement of a body has the form. -/
theorem readStatement_eq_ok {statement : Statement} :
    readStatement owner value = .ok statement ↔ StatementForm value statement := by
  constructor
  · intro h
    unfold readStatement at h
    simp only at h
    split at h
    case h_1 hkind =>
      obtain ⟨e, he, h⟩ := required_bind_eq_ok.mp h
      obtain rfl := Except.ok.inj h
      exact .condition (tag?_of_getD hkind (by decide)) he
    case h_2 hkind =>
      obtain ⟨definition, hdefinition, h⟩ := Json.exists_of_bind_eq_ok h
      obtain ⟨_, hcheck, h⟩ := Json.exists_of_bind_eq_ok h
      obtain rfl := Except.ok.inj h
      exact .define (tag?_of_getD hkind (by decide))
        ⟨hdefinition, checkVariable_eq_ok.mp hcheck⟩
    case h_3 => cases h
  · intro h
    unfold readStatement
    cases h with
    | condition hkind he =>
      simp only [hkind, Option.getD_some]
      exact required_bind_eq_ok.mpr ⟨_, he, rfl⟩
    | define hkind hdefinition =>
      simp only [hkind, Option.getD_some]
      exact bind_eq_ok hdefinition.1 (bind_eq_ok (checkVariable_eq_ok.mpr hdefinition.2) rfl)

/-- What is read as a policy has the form. -/
theorem readPolicy_eq_ok {policy : Policy} :
    readPolicy value = .ok policy ↔ PolicyForm value policy := by
  constructor
  · intro h
    rw [readPolicy] at h
    obtain ⟨name, hname, h⟩ := Json.exists_of_bind_eq_ok h
    obtain ⟨text, htext, h⟩ := Json.exists_of_bind_eq_ok h
    split at h
    case h_2 => cases h
    case h_1 entitlement hentitlement =>
      obtain ⟨body, hbody, h⟩ := each_bind_eq_ok.mp h
      obtain ⟨target, htarget, h⟩ := Json.exists_of_bind_eq_ok h
      obtain ⟨obligations, hobligations, h⟩ := Json.exists_of_bind_eq_ok h
      obtain ⟨advice, hadvice, h⟩ := Json.exists_of_bind_eq_ok h
      obtain ⟨transformation, htransformation, h⟩ := Json.exists_of_bind_eq_ok h
      obtain rfl := Except.ok.inj h
      exact {
        name := requiredString_eq_ok.mp hname
        entitlement := exists_name.mp ⟨text, htext, hentitlement⟩
        body := hbody
        target := optionalExpression_eq_ok.mp htarget
        obligations := expressions_eq_ok.mp hobligations
        advice := expressions_eq_ok.mp hadvice
        transformation := optionalExpression_eq_ok.mp htransformation }
  · intro h
    obtain ⟨text, htext, hentitlement⟩ := exists_name.mpr h.entitlement
    rw [readPolicy]
    refine bind_eq_ok (requiredString_eq_ok.mpr h.name) (bind_eq_ok htext ?_)
    simp only [hentitlement]
    exact each_bind_eq_ok.mpr ⟨_, h.body,
      bind_eq_ok (optionalExpression_eq_ok.mpr h.target)
        (bind_eq_ok (expressions_eq_ok.mpr h.obligations)
          (bind_eq_ok (expressions_eq_ok.mpr h.advice)
            (bind_eq_ok (optionalExpression_eq_ok.mpr h.transformation) rfl)))⟩

/-- Policies are read if each of them is, and if no name repeats or has been seen. -/
theorem readPolicies_eq_ok {values : List Json} {seen : List String} {policies : List Policy} :
    readPolicies owner values seen = .ok policies ↔
      List.Forall₂ (Json.ReadBy readPolicy) values policies ∧
        (policies.map Policy.name).Nodup ∧ ∀ policy ∈ policies, policy.name ∉ seen := by
  induction values generalizing seen policies with
  | nil => cases policies <;> simp [readPolicies]
  | cons value rest ih =>
    constructor
    · intro h
      rw [readPolicies] at h
      obtain ⟨policy, hpolicy, h⟩ := Json.exists_of_bind_eq_ok h
      split at h
      case isTrue => cases h
      case isFalse hseen =>
        obtain ⟨more, hmore, h⟩ := Json.exists_of_bind_eq_ok h
        obtain rfl := Except.ok.inj h
        obtain ⟨hrest, hnodup, hnew⟩ := ih.mp hmore
        refine ⟨.cons hpolicy hrest, ?_, List.forall_mem_cons.mpr ⟨hseen, fun other hother => ?_⟩⟩
        · rw [List.map_cons, List.nodup_cons]
          refine ⟨fun hmem => ?_, hnodup⟩
          obtain ⟨other, hother, hname⟩ := List.mem_map.mp hmem
          exact hnew other hother (hname ▸ List.mem_cons_self)
        · exact fun hmem => hnew other hother (List.mem_cons_of_mem _ hmem)
    · rintro ⟨hread, hnodup, hnew⟩
      cases hread with
      | @cons _ policy _ more hpolicy hrest =>
        rw [List.map_cons, List.nodup_cons] at hnodup
        rw [List.forall_mem_cons] at hnew
        have hmore : readPolicies owner rest (policy.name :: seen) = .ok more := by
          refine ih.mpr ⟨hrest, hnodup.2, fun other hother hmem => ?_⟩
          rcases List.mem_cons.mp hmem with hname | hmem
          · exact hnodup.1 (hname ▸ List.mem_map_of_mem hother)
          · exact hnew.2 other hother hmem
        rw [readPolicies]
        refine bind_eq_ok hpolicy ?_
        rw [if_neg hnew.1]
        exact bind_eq_ok hmore rfl

/-- What is read as a policy set has the form. -/
theorem readPolicySet_eq_ok {set : PolicySet} :
    readPolicySet value = .ok set ↔ PolicySetForm value set := by
  constructor
  · intro h
    rw [readPolicySet] at h
    obtain ⟨name, hname, h⟩ := Json.exists_of_bind_eq_ok h
    obtain ⟨text, htext, h⟩ := Json.exists_of_bind_eq_ok h
    split at h
    case h_2 => cases h
    case h_1 algorithm halgorithm =>
      obtain ⟨definitions, hdefinitions, h⟩ :=
        (items_bind_eq_ok fun _ _ => readDefinition_eq_ok).mp h
      obtain ⟨values, hvalues, h⟩ := Json.exists_of_bind_eq_ok h
      obtain ⟨policies, hpolicies, h⟩ := Json.exists_of_bind_eq_ok h
      obtain ⟨target, htarget, h⟩ := Json.exists_of_bind_eq_ok h
      obtain ⟨obligations, hobligations, h⟩ := Json.exists_of_bind_eq_ok h
      obtain ⟨advice, hadvice, h⟩ := Json.exists_of_bind_eq_ok h
      obtain rfl := Except.ok.inj h
      obtain ⟨hread, hdistinct, -⟩ := readPolicies_eq_ok.mp hpolicies
      exact {
        name := requiredString_eq_ok.mp hname
        algorithm := exists_name.mp ⟨text, htext, halgorithm⟩
        definitions := hdefinitions
        policies := ⟨_, items_eq_ok.mp ⟨values, hvalues, rfl⟩, hread⟩
        distinct := hdistinct
        target := optionalExpression_eq_ok.mp htarget
        obligations := expressions_eq_ok.mp hobligations
        advice := expressions_eq_ok.mp hadvice }
  · intro h
    obtain ⟨text, htext, halgorithm⟩ := exists_name.mpr h.algorithm
    obtain ⟨elements, helements, hpolicies⟩ := h.policies
    obtain ⟨values, hvalues, rfl⟩ := items_eq_ok.mpr helements
    rw [readPolicySet]
    refine bind_eq_ok (requiredString_eq_ok.mpr h.name) (bind_eq_ok htext ?_)
    simp only [halgorithm]
    refine (items_bind_eq_ok fun _ _ => readDefinition_eq_ok).mpr ⟨_, h.definitions, ?_⟩
    exact bind_eq_ok hvalues
      (bind_eq_ok (readPolicies_eq_ok.mpr ⟨hpolicies, h.distinct, by simp⟩)
        (bind_eq_ok (optionalExpression_eq_ok.mpr h.target)
          (bind_eq_ok (expressions_eq_ok.mpr h.obligations)
            (bind_eq_ok (expressions_eq_ok.mpr h.advice) rfl))))

/-- What is read as a document has the form. -/
theorem readDocument_eq_ok {document : PolicyDocument} :
    readDocument value = .ok document ↔ DocumentForm value document := by
  constructor
  · intro h
    rw [readDocument] at h
    split at h
    case h_1 hkind =>
      obtain ⟨policy, hpolicy, rfl⟩ := Json.exists_of_map_eq_ok h
      exact .policy (tag?_of_getD hkind (by decide)) hpolicy
    case h_2 hkind =>
      obtain ⟨set, hset, rfl⟩ := Json.exists_of_map_eq_ok h
      exact .set (tag?_of_getD hkind (by decide)) hset
    case h_3 => cases h
    case h_4 => cases h
  · rintro (⟨hkind, hpolicy⟩ | ⟨hkind, hset⟩)
    · simp only [readDocument, hkind, Option.getD_some]
      rw [hpolicy]
      rfl
    · simp only [readDocument, hkind, Option.getD_some]
      rw [hset]
      rfl

end Readers

end Verdict
