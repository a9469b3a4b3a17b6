/-
The types of fields.

The format gives a type to every field of a construct.  A value of another type makes
the readers refuse the whole document, wherever it stands, but for three exceptions:
the flag and the function of a filter, and what stands for a statement of an extended
filter.

* `FieldType`, `Field`, `Category.fields`: the fields of the constructs.
* `FieldType.admits`: the JSON values of a type.
* `Occurs`: where the format gives which type to a value, at any depth.
* `Category.Accepts`, `FieldType.Accepted`: what the readers accept.
* `Occurs.accepted`: all that occurs in an accepted construct is accepted.
* `FieldType.checked`, `FieldType.typed_iff_checked`: the types of which the readers refuse
  other values.
-/
import Verdict.Proofs.Policy.DocumentForms

namespace Verdict

/-! ### Fields -/

/-- What a JSON value can be read as. -/
inductive Category where
  | document | policy | set | statement | definition
  | expression | member | step | filter | filterStatement
  deriving DecidableEq, Repr

/-- The types that the format gives to values. -/
inductive FieldType where
  | any
  | string
  | boolean
  /-- An integer of 64 bits. -/
  | integer
  /-- The name of a filter function, which is a string. -/
  | function
  | construct (category : Category)
  | array (element : FieldType)
  deriving DecidableEq, Repr

/-- A field of a construct.  An optional one may be absent or null. -/
structure Field where
  name : String
  type : FieldType
  optional : Bool

namespace Field

/-- A field that has to be there. -/
def one (name : String) (type : FieldType) : Field := ⟨name, type, false⟩

/-- A field that may be absent or null. -/
def maybe (name : String) (type : FieldType) : Field := ⟨name, type, true⟩

/-- A field with the elements of an array; absent or null is none. -/
def many (name : String) (element : FieldType) : Field := ⟨name, .array element, true⟩

/-- The tag of a construct. -/
def kind : Field := one "kind" .string

/-- An expression that has to be there. -/
def expression (name : String) : Field := one name (.construct .expression)

/-- The fields that all basic expressions have. -/
def ofBasic : List Field :=
  [many "steps" (.construct .step), maybe "filter" (.construct .filter),
    maybe "subtemplate" (.construct .expression)]

/-- The fields of an expression by its tag. -/
def ofExpression : String → List Field
  | "literal" => one "value" .any :: ofBasic
  | "group" => expression "expression" :: ofBasic
  | "identifier" => one "name" .string :: ofBasic
  | "relative" => ofBasic
  | "function" => one "name" .string :: many "arguments" (.construct .expression) :: ofBasic
  | "array" => many "items" (.construct .expression) :: ofBasic
  | "object" => many "members" (.construct .member) :: ofBasic
  | "binary" => [one "operator" .string, expression "left", expression "right"]
  | "unary" => [one "operator" .string, expression "operand"]
  | "conditional" => [expression "condition", expression "then", expression "else"]
  | _ => []

/-- The fields of a step by its tag. -/
def ofStep : String → List Field
  | "key" | "recursive_key" => [one "key" .string]
  | "index" | "recursive_index" => [one "index" .integer]
  | "slice" => [maybe "from" .integer, maybe "to" .integer, maybe "step" .integer]
  | "expression" | "condition" => [expression "expression"]
  | "key_union" => [many "keys" .string]
  | "index_union" => [many "indices" .integer]
  | "attribute_finder" => [one "name" .string, many "arguments" (.construct .expression)]
  | _ => []

/-- The fields of a filter and its statements for what they apply. -/
def ofFilter : List Field :=
  [maybe "each" .boolean, maybe "function" .function, many "arguments" (.construct .expression)]

/-- The fields of a variable definition. -/
def ofDefinition : List Field := [one "name" .string, expression "expression"]

/-- The fields of a policy. -/
def ofPolicy : List Field :=
  [one "name" .string, one "entitlement" .string, maybe "target" (.construct .expression),
    many "body" (.construct .statement), many "obligations" (.construct .expression),
    many "advice" (.construct .expression), maybe "transformation" (.construct .expression)]

/-- The fields of a policy set. -/
def ofSet : List Field :=
  [one "name" .string, one "algorithm" .string, maybe "target" (.construct .expression),
    many "variables" (.construct .definition), many "policies" (.construct .policy),
    many "obligations" (.construct .expression), many "advice" (.construct .expression)]

end Field

/-- The fields of a construct of the category that has this JSON form. -/
def Category.fields (value : Json) : Category → List Field
  | .document => Field.kind :: match value.tag? with
    | some "policy" => Field.ofPolicy
    | some "policy_set" => Field.ofSet
    | _ => []
  | .policy => Field.ofPolicy
  | .set => Field.ofSet
  | .statement => Field.kind :: match value.tag? with
    | some "condition" => [Field.expression "expression"]
    | some "variable" => Field.ofDefinition
    | _ => []
  | .definition => Field.ofDefinition
  | .expression => Field.kind :: Field.ofExpression (value.tag?.getD "")
  | .member => [Field.one "key" .string, Field.expression "value"]
  | .step => Field.kind :: Field.ofStep (value.tag?.getD "")
  | .filter => Field.kind :: match value.tag? with
    | some "simple" => Field.ofFilter
    | some "extended" => [Field.many "statements" (.construct .filterStatement)]
    | _ => []
  | .filterStatement => Field.many "target" (.construct .step) :: Field.ofFilter

/-! ### Typed values -/

/-- The JSON values of a type. -/
def FieldType.admits : FieldType → Json → Bool
  | .any, _ => true
  | .string, value | .function, value => value.toString?.isSome
  | .boolean, value => value.toBool?.isSome
  | .integer, value => value.toSigned?.isSome
  | .construct _, value => value.toObject?.isSome
  | .array _, value => value.toArray?.isSome

/-- In a value of the type, the format gives this type to this value.  A null for an
optional field counts as absent. -/
inductive Occurs (type : FieldType) (value : Json) : FieldType → Json → Prop
  | self : Occurs type value type value
  | member {category : Category} {whole member : Json} (field : Field)
      (h : Occurs type value (.construct category) whole) (hfield : field ∈ category.fields whole)
      (hmember : whole.field? field.name = some member)
      (hpresent : field.optional = true → member ≠ .null) : Occurs type value field.type member
  | element {t : FieldType} {elements : List Json} {element : Json}
      (h : Occurs type value (.array t) (.array elements)) (helement : element ∈ elements) :
      Occurs type value t element

/-- A reader accepts the value as a construct of the category. -/
def Category.Accepts (value : Json) : Category → Prop
  | .document => ∃ d, readDocument value = .ok d
  | .policy => ∃ p, readPolicy value = .ok p
  | .set => ∃ s, readPolicySet value = .ok s
  | .statement => ∃ owner s, readStatement owner value = .ok s
  | .definition => ∃ d, readVariable value = .ok d
  | .expression => ∃ e, readExpression value = .ok e
  | .member => ∃ m, readMember value = .ok m
  | .step => ∃ s, readStep value = .ok s
  | .filter => ∃ f, readFilter value = .ok f
  | .filterStatement => ∃ s, readFilterStatement value = .ok s

/-- The readers accept the value where the format gives it the type.  They take anything
for a flag or the name of a function. -/
def FieldType.Accepted : FieldType → Json → Prop
  | .any, _ | .boolean, _ | .function, _ => True
  | .string, value => ∃ text, value.IsText text
  | .integer, value => ∃ n, value.IsInteger n
  | .construct category, value => category.Accepts value
  | .array t, value =>
    ∃ elements, value = .array elements ∧ ∀ element ∈ elements, t.Accepted element

/-- The readers accept what the construct has in the field. -/
def Field.Accepted (field : Field) (value : Json) : Prop :=
  ∀ member, value.field? field.name = some member → (field.optional = true → member ≠ .null) →
    field.type.Accepted member

section Members

variable {α : Type} {value : Json} {name : String} {R : Json → α → Prop} {type : FieldType}
  (hR : ∀ part a, R part a → type.Accepted part)
include hR

lemma Json.Has.accepted {a : α} (h : value.Has name R a) :
    (Field.one name type).Accepted value := by
  intro member hmember _
  obtain ⟨found, hfound, ha⟩ := h
  obtain rfl := Option.some.inj (hfound.symm.trans hmember)
  exact hR found a ha

lemma Json.HasOptional.accepted {a? : Option α} (h : value.HasOptional name R a?) :
    (Field.maybe name type).Accepted value := by
  intro member hmember hpresent
  have hpresence : Json.presence (value.field? name) = some member :=
    (congrArg Json.presence hmember).trans (Json.presence_some (hpresent rfl))
  rw [Json.HasOptional, hpresence] at h
  cases h with
  | some ha => exact hR member _ ha

lemma Json.HasEach.accepted {as : List α} (h : value.HasEach name R as) :
    (Field.many name type).Accepted value := by
  intro member hmember hpresent
  have hpresence : Json.presence (value.field? name) = some member :=
    (congrArg Json.presence hmember).trans (Json.presence_some (hpresent rfl))
  obtain ⟨elements, helements, has⟩ := h
  simp only [Json.elements?, hpresence] at helements
  cases member with
  | array items =>
    obtain rfl := Option.some.inj helements
    refine ⟨items, rfl, fun element helement => ?_⟩
    obtain ⟨a, -, ha⟩ := exists_of_mem_left has helement
    exact hR element a ha
  | _ => simp [Json.toArray?] at helements

end Members

/-! ### Accepted constructs -/

section Accepted

variable {value : Json}

lemma kind_accepted {kind : String} (h : value.tag? = some kind) : Field.kind.Accepted value := by
  intro member hmember _
  have hfield : value.field? "kind" = some member := hmember
  rw [Json.tag?, hfield] at h
  cases member with
  | string text => exact ⟨text, rfl⟩
  | _ => simp [Json.toString?] at h

lemma text_accepted (part : Json) (text : String) (h : part.IsText text) :
    FieldType.string.Accepted part := ⟨text, h⟩

lemma name_accepted {α : Type} {ofName? : String → Option α} (part : Json) (a : α)
    (h : part.Names ofName? a) : FieldType.string.Accepted part := by
  obtain ⟨text, rfl, -⟩ := h
  exact ⟨text, rfl⟩

lemma integer_accepted (part : Json) (n : Int) (h : part.IsInteger n) :
    FieldType.integer.Accepted part := ⟨n, h⟩

lemma expression_accepted (part : Json) (e : Expression) (h : part.ReadBy readExpression e) :
    (FieldType.construct .expression).Accepted part := ⟨e, h⟩

lemma step_accepted (part : Json) (s : Step) (h : part.ReadBy readStep s) :
    (FieldType.construct .step).Accepted part := ⟨s, h⟩

/-- The fields of the head come before those that all basic expressions have. -/
lemma head_accepted {head : Head} (h : HeadForm value head)
    (hbasic : ∀ field ∈ Field.ofBasic, field.Accepted value) :
    ∀ field ∈ Category.fields value .expression, field.Accepted value := by
  cases h with
  | literal hkind hjson =>
    simp only [Category.fields, hkind, Option.getD_some, Field.ofExpression, List.forall_mem_cons]
    exact ⟨kind_accepted hkind, hjson.accepted fun _ _ _ => trivial, hbasic⟩
  | group hkind hinner =>
    simp only [Category.fields, hkind, Option.getD_some, Field.ofExpression, List.forall_mem_cons]
    exact ⟨kind_accepted hkind, hinner.accepted expression_accepted, hbasic⟩
  | identifier hkind hname =>
    simp only [Category.fields, hkind, Option.getD_some, Field.ofExpression, List.forall_mem_cons]
    exact ⟨kind_accepted hkind, hname.accepted text_accepted, hbasic⟩
  | relative hkind =>
    simp only [Category.fields, hkind, Option.getD_some, Field.ofExpression, List.forall_mem_cons]
    exact ⟨kind_accepted hkind, hbasic⟩
  | function hkind hname harguments =>
    simp only [Category.fields, hkind, Option.getD_some, Field.ofExpression, List.forall_mem_cons]
    exact ⟨kind_accepted hkind, hname.accepted text_accepted,
      harguments.accepted expression_accepted, hbasic⟩
  | array hkind hitems =>
    simp only [Category.fields, hkind, Option.getD_some, Field.ofExpression, List.forall_mem_cons]
    exact ⟨kind_accepted hkind, hitems.accepted expression_accepted, hbasic⟩
  | object hkind hmembers =>
    simp only [Category.fields, hkind, Option.getD_some, Field.ofExpression, List.forall_mem_cons]
    exact ⟨kind_accepted hkind, hmembers.accepted fun _ m hm => ⟨m, hm⟩, hbasic⟩

lemma fields_of_expression {e : Expression} (h : ExpressionForm value e) :
    ∀ field ∈ Category.fields value .expression, field.Accepted value := by
  cases h with
  | basic hhead hsteps hfilter htemplate =>
    refine head_accepted hhead ?_
    simp only [Field.ofBasic, List.forall_mem_cons]
    exact ⟨hsteps.accepted step_accepted, hfilter.accepted fun _ f hf => ⟨f, hf⟩,
      htemplate.accepted expression_accepted, by simp⟩
  | binary hkind hoperator hleft hright =>
    simp only [Category.fields, hkind, Option.getD_some, Field.ofExpression, List.forall_mem_cons]
    exact ⟨kind_accepted hkind, hoperator.accepted name_accepted,
      hleft.accepted expression_accepted, hright.accepted expression_accepted, by simp⟩
  | unary hkind hoperator hoperand =>
    simp only [Category.fields, hkind, Option.getD_some, Field.ofExpression, List.forall_mem_cons]
    exact ⟨kind_accepted hkind, hoperator.accepted name_accepted,
      hoperand.accepted expression_accepted, by simp⟩
  | conditional hkind hcondition hconsequent halternative =>
    simp only [Category.fields, hkind, Option.getD_some, Field.ofExpression, List.forall_mem_cons]
    exact ⟨kind_accepted hkind, hcondition.accepted expression_accepted,
      hconsequent.accepted expression_accepted, halternative.accepted expression_accepted,
      by simp⟩

lemma fields_of_step {s : Step} (h : StepForm value s) :
    ∀ field ∈ Category.fields value .step, field.Accepted value := by
  cases h with
  | key hkind hname | recursiveKey hkind hname =>
    simp only [Category.fields, hkind, Option.getD_some, Field.ofStep, List.forall_mem_cons]
    exact ⟨kind_accepted hkind, hname.accepted text_accepted, by simp⟩
  | index hkind hposition | recursiveIndex hkind hposition =>
    simp only [Category.fields, hkind, Option.getD_some, Field.ofStep, List.forall_mem_cons]
    exact ⟨kind_accepted hkind, hposition.accepted integer_accepted, by simp⟩
  | wildcard hkind | recursiveWildcard hkind =>
    simp only [Category.fields, hkind, Option.getD_some, Field.ofStep, List.forall_mem_cons]
    exact ⟨kind_accepted hkind, by simp⟩
  | slice hkind hstart hstop hstride =>
    simp only [Category.fields, hkind, Option.getD_some, Field.ofStep, List.forall_mem_cons]
    exact ⟨kind_accepted hkind, hstart.accepted integer_accepted,
      hstop.accepted integer_accepted, hstride.accepted integer_accepted, by simp⟩
  | computed hkind he | condition hkind he =>
    simp only [Category.fields, hkind, Option.getD_some, Field.ofStep, List.forall_mem_cons]
    exact ⟨kind_accepted hkind, he.accepted expression_accepted, by simp⟩
  | keyUnion hkind hnames =>
    simp only [Category.fields, hkind, Option.getD_some, Field.ofStep, List.forall_mem_cons]
    exact ⟨kind_accepted hkind, hnames.accepted text_accepted, by simp⟩
  | indexUnion hkind hpositions =>
    simp only [Category.fields, hkind, Option.getD_some, Field.ofStep, List.forall_mem_cons]
    exact ⟨kind_accepted hkind, hpositions.accepted integer_accepted, by simp⟩
  | finder hkind hname harguments =>
    simp only [Category.fields, hkind, Option.getD_some, Field.ofStep, List.forall_mem_cons]
    exact ⟨kind_accepted hkind, hname.accepted text_accepted,
      harguments.accepted expression_accepted, by simp⟩

/-- What a filter applies: its flag and its function are not looked at. -/
lemma fields_ofFilter {arguments : List Expression}
    (h : value.HasEach "arguments" (Json.ReadBy readExpression) arguments) :
    ∀ field ∈ Field.ofFilter, field.Accepted value := by
  simp only [Field.ofFilter, List.forall_mem_cons]
  exact ⟨fun _ _ _ => trivial, fun _ _ _ => trivial, h.accepted expression_accepted, by simp⟩

lemma fields_of_filter {f : Filter} (h : FilterForm value f) :
    ∀ field ∈ Category.fields value .filter, field.Accepted value := by
  cases h with
  | simple hkind harguments =>
    simp only [Category.fields, hkind, List.forall_mem_cons]
    exact ⟨kind_accepted hkind, fields_ofFilter harguments⟩
  | extended hkind hstatements =>
    simp only [Category.fields, hkind, List.forall_mem_cons]
    exact ⟨kind_accepted hkind, hstatements.accepted fun _ s hs => ⟨s, hs⟩, by simp⟩

lemma fields_of_filterStatement {s : FilterStatement} (h : FilterStatementForm value s) :
    ∀ field ∈ Category.fields value .filterStatement, field.Accepted value := by
  cases h with
  | mk htarget harguments =>
    simp only [Category.fields, List.forall_mem_cons]
    exact ⟨htarget.accepted step_accepted, fields_ofFilter harguments⟩

lemma fields_of_member {m : String × Expression} (h : MemberForm value m) :
    ∀ field ∈ Category.fields value .member, field.Accepted value := by
  cases h with
  | mk hkey he =>
    simp only [Category.fields, List.forall_mem_cons]
    exact ⟨hkey.accepted text_accepted, he.accepted expression_accepted, by simp⟩

lemma fields_of_definition {d : VariableDefinition} (h : VariableForm value d) :
    ∀ field ∈ Field.ofDefinition, field.Accepted value := by
  cases h with
  | mk hname he =>
    simp only [Field.ofDefinition, List.forall_mem_cons]
    exact ⟨hname.accepted text_accepted, he.accepted expression_accepted, by simp⟩

lemma fields_of_statement {s : Statement} (h : StatementForm value s) :
    ∀ field ∈ Category.fields value .statement, field.Accepted value := by
  cases h with
  | condition hkind he =>
    simp only [Category.fields, hkind, List.forall_mem_cons]
    exact ⟨kind_accepted hkind, he.accepted expression_accepted, by simp⟩
  | define hkind hdefinition =>
    simp only [Category.fields, hkind, List.forall_mem_cons]
    exact ⟨kind_accepted hkind, fields_of_definition (readVariable_eq_ok.mp hdefinition.1)⟩

lemma fields_of_policy {p : Policy} (h : PolicyForm value p) :
    ∀ field ∈ Field.ofPolicy, field.Accepted value := by
  simp only [Field.ofPolicy, List.forall_mem_cons]
  exact ⟨h.name.accepted text_accepted, h.entitlement.accepted name_accepted,
    h.target.accepted expression_accepted, h.body.accepted fun _ s hs => ⟨_, s, hs⟩,
    h.obligations.accepted expression_accepted, h.advice.accepted expression_accepted,
    h.transformation.accepted expression_accepted, by simp⟩

lemma fields_of_set {s : PolicySet} (h : PolicySetForm value s) :
    ∀ field ∈ Field.ofSet, field.Accepted value := by
  simp only [Field.ofSet, List.forall_mem_cons]
  exact ⟨h.name.accepted text_accepted, h.algorithm.accepted name_accepted,
    h.target.accepted expression_accepted, h.definitions.accepted fun _ d hd => ⟨d, hd.1⟩,
    h.policies.accepted fun _ p hp => ⟨p, hp⟩, h.obligations.accepted expression_accepted,
    h.advice.accepted expression_accepted, by simp⟩

lemma fields_of_document {d : PolicyDocument} (h : DocumentForm value d) :
    ∀ field ∈ Category.fields value .document, field.Accepted value := by
  cases h with
  | policy hkind hpolicy =>
    simp only [Category.fields, hkind, List.forall_mem_cons]
    exact ⟨kind_accepted hkind, fields_of_policy (readPolicy_eq_ok.mp hpolicy)⟩
  | set hkind hset =>
    simp only [Category.fields, hkind, List.forall_mem_cons]
    exact ⟨kind_accepted hkind, fields_of_set (readPolicySet_eq_ok.mp hset)⟩

/-- Whatever the fields of an accepted construct hold is accepted. -/
theorem Category.Accepts.fields {category : Category} (h : category.Accepts value) :
    ∀ field ∈ category.fields value, field.Accepted value := by
  cases category with
  | document =>
    obtain ⟨d, hd⟩ := h
    exact fields_of_document (readDocument_eq_ok.mp hd)
  | policy =>
    obtain ⟨p, hp⟩ := h
    exact fields_of_policy (readPolicy_eq_ok.mp hp)
  | set =>
    obtain ⟨s, hs⟩ := h
    exact fields_of_set (readPolicySet_eq_ok.mp hs)
  | statement =>
    obtain ⟨_, s, hs⟩ := h
    exact fields_of_statement (readStatement_eq_ok.mp hs)
  | definition =>
    obtain ⟨d, hd⟩ := h
    exact fields_of_definition (readVariable_eq_ok.mp hd)
  | expression =>
    obtain ⟨e, he⟩ := h
    exact fields_of_expression (readExpression_eq_ok.mp he)
  | member =>
    obtain ⟨m, hm⟩ := h
    exact fields_of_member (readMember_eq_ok.mp hm)
  | step =>
    obtain ⟨s, hs⟩ := h
    exact fields_of_step (readStep_eq_ok.mp hs)
  | filter =>
    obtain ⟨f, hf⟩ := h
    exact fields_of_filter (readFilter_eq_ok.mp hf)
  | filterStatement =>
    obtain ⟨s, hs⟩ := h
    exact fields_of_filterStatement (readFilterStatement_eq_ok.mp hs)

/-- Whatever occurs in an accepted value is accepted. -/
theorem Occurs.accepted {type t : FieldType} {w : Json} (h : Occurs type value t w)
    (haccepted : type.Accepted value) : t.Accepted w := by
  induction h with
  | self => exact haccepted
  | member field _ hfield hmember hpresent ih =>
    exact Category.Accepts.fields ih _ hfield _ hmember hpresent
  | element _ helement ih =>
    obtain ⟨elements, heq, hall⟩ := ih
    obtain rfl := Json.array.inj heq
    exact hall _ helement

end Accepted

/-! ### Checked types -/

/-- Whether the readers look at the type: not at that of a flag or of the name of a
function, nor at whether a statement of a filter is an object. -/
def FieldType.checked : FieldType → Bool
  | .boolean | .function | .construct .filterStatement => false
  | _ => true

section Checked

variable {value : Json}

lemma isSome_toObject?_of_field? {key : String} {member : Json}
    (h : value.field? key = some member) : value.toObject?.isSome := by
  cases value with
  | object members => rfl
  | _ => simp [Json.field?, Json.toObject?] at h

lemma isSome_toObject?_of_tag? {kind : String} (h : value.tag? = some kind) :
    value.toObject?.isSome := by
  obtain ⟨member, hmember, -⟩ := Option.bind_eq_some_iff.mp h
  exact isSome_toObject?_of_field? hmember

lemma Json.Has.isSome_toObject? {α : Type} {field : String} {R : Json → α → Prop} {a : α}
    (h : value.Has field R a) : value.toObject?.isSome := by
  obtain ⟨member, hmember, -⟩ := h
  exact isSome_toObject?_of_field? hmember

/-- An accepted construct is an object, unless it stands for a statement of a filter. -/
theorem Category.Accepts.isSome_toObject? {category : Category} (h : category.Accepts value)
    (hcategory : category ≠ .filterStatement) : value.toObject?.isSome := by
  cases category with
  | document =>
    obtain ⟨d, hd⟩ := h
    cases readDocument_eq_ok.mp hd <;> exact isSome_toObject?_of_tag? (by assumption)
  | policy =>
    obtain ⟨p, hp⟩ := h
    exact (readPolicy_eq_ok.mp hp).name.isSome_toObject?
  | set =>
    obtain ⟨s, hs⟩ := h
    exact (readPolicySet_eq_ok.mp hs).name.isSome_toObject?
  | statement =>
    obtain ⟨_, s, hs⟩ := h
    cases readStatement_eq_ok.mp hs <;> exact isSome_toObject?_of_tag? (by assumption)
  | definition =>
    obtain ⟨d, hd⟩ := h
    cases readVariable_eq_ok.mp hd with
    | mk hname he => exact hname.isSome_toObject?
  | expression =>
    obtain ⟨e, he⟩ := h
    cases readExpression_eq_ok.mp he with
    | basic hhead =>
      obtain ⟨kind, hkind, -⟩ := hhead.exists_kind
      exact isSome_toObject?_of_tag? hkind
    | binary hkind | unary hkind | conditional hkind => exact isSome_toObject?_of_tag? hkind
  | member =>
    obtain ⟨m, hm⟩ := h
    cases readMember_eq_ok.mp hm with
    | mk hkey he => exact hkey.isSome_toObject?
  | step =>
    obtain ⟨s, hs⟩ := h
    cases readStep_eq_ok.mp hs <;> exact isSome_toObject?_of_tag? (by assumption)
  | filter =>
    obtain ⟨f, hf⟩ := h
    cases readFilter_eq_ok.mp hf <;> exact isSome_toObject?_of_tag? (by assumption)
  | filterStatement => exact absurd rfl hcategory

/-- What is accepted has its type, if the readers look at it. -/
theorem FieldType.Accepted.admits {type : FieldType} (h : type.Accepted value)
    (hchecked : type.checked = true) : type.admits value = true := by
  cases type with
  | any => rfl
  | string =>
    obtain ⟨text, rfl⟩ := h
    rfl
  | boolean | function => simp [FieldType.checked] at hchecked
  | integer =>
    obtain ⟨n, hn⟩ := h
    exact Option.isSome_iff_exists.mpr ⟨n, hn⟩
  | construct category =>
    refine Category.Accepts.isSome_toObject? h fun heq => ?_
    rw [heq] at hchecked
    simp [FieldType.checked] at hchecked
  | array t =>
    obtain ⟨elements, rfl, -⟩ := h
    rfl

end Checked

/-! ### Unchecked types -/

/-- A policy that permits, with the resource behind a filter. -/
def Json.masking (filter : Json) : Json :=
  .object [("kind", .string "policy"), ("name", .string "mask"),
    ("entitlement", .string "permit"),
    ("transformation", .object [("kind", .string "identifier"), ("name", .string "resource"),
      ("filter", filter)])]

/-- The policy as a tree. -/
def Filter.masking (filter : Filter) : PolicyDocument :=
  .policy {
    name := "mask", entitlement := .permit, target := none, body := [], obligations := [],
    advice := [],
    transformation := some (.basic (.identifier "resource") [] (some filter) none) }

section Masking

variable {filter : Json}

lemma readDocument_masking {f : Filter} (h : readFilter filter = .ok f) (hnull : filter ≠ .null) :
    readDocument filter.masking = .ok f.masking := by
  have hfilter : Option.Rel (Json.ReadBy readFilter) (Json.presence (some filter)) (some f) := by
    rw [Json.presence_some hnull]
    exact .some h
  refine readDocument_eq_ok.mpr (.policy rfl (readPolicy_eq_ok.mpr {
    name := ⟨_, rfl, rfl⟩
    entitlement := ⟨_, rfl, _, rfl, rfl⟩
    body := ⟨[], rfl, .nil⟩
    target := .none
    obligations := ⟨[], rfl, .nil⟩
    advice := ⟨[], rfl, .nil⟩
    transformation := .some (readExpression_eq_ok.mpr ?_) }))
  exact .basic (.identifier rfl ⟨_, rfl, rfl⟩) ⟨[], rfl, .nil⟩ hfilter .none (by simp)

lemma occurs_masking (hnull : filter ≠ .null) :
    Occurs (.construct .document) filter.masking (.construct .filter) filter := by
  have htransformation : Field.maybe "transformation" (.construct .expression) ∈
      Category.fields filter.masking .document := by
    have hfields : Category.fields filter.masking .document = Field.kind :: Field.ofPolicy := rfl
    simp [hfields, Field.ofPolicy]
  refine .member (Field.maybe "filter" (.construct .filter))
    (.member _ .self htransformation rfl (by simp)) ?_ rfl fun _ => hnull
  exact List.mem_of_getElem? (i := 3) rfl

/-- A field of a filter occurs in the policy that uses the filter. -/
lemma occurs_in_masking {members : List (String × Json)} {member : Json} (field : Field)
    (hfield : field ∈ Category.fields (.object members) .filter)
    (hmember : (Json.object members).field? field.name = some member) (hnull : member ≠ .null) :
    Occurs (.construct .document) (Json.object members).masking field.type member :=
  .member field (occurs_masking (by simp)) hfield hmember fun _ => hnull

/-- A filter with a construct in the place of the name of its function. -/
def Json.misnamed : Json :=
  .object [("kind", .string "simple"),
    ("function", .object [("name", .string "filter.blacken")])]

lemma readFilter_misnamed : readFilter .misnamed = .ok (.simple false "" []) :=
  readFilter_eq_ok.mpr (.simple rfl ⟨[], rfl, .nil⟩)

lemma occurs_misnamed : Occurs (.construct .document) (Json.masking .misnamed) .function
    (.object [("name", .string "filter.blacken")]) :=
  occurs_in_masking (Field.maybe "function" .function) (List.mem_of_getElem? (i := 2) rfl) rfl
    (by simp)

/-- For every type that the readers do not look at, a document that is read has a value of
another type in its place. -/
theorem exists_mistyped {type : FieldType} (h : type.checked = false) :
    ∃ value document w, readDocument value = .ok document ∧
      Occurs (.construct .document) value type w ∧ type.admits w = false := by
  cases type with
  | boolean =>
    let filter : Json := .object [("kind", .string "simple"), ("each", .string "true")]
    have hread : readFilter filter = .ok (.simple false "" []) :=
      readFilter_eq_ok.mpr (.simple rfl ⟨[], rfl, .nil⟩)
    exact ⟨filter.masking, _, .string "true", readDocument_masking hread (by simp [filter]),
      occurs_in_masking (Field.maybe "each" .boolean) (List.mem_of_getElem? (i := 1) rfl) rfl
        (by simp), rfl⟩
  | function =>
    exact ⟨_, _, _, readDocument_masking readFilter_misnamed (by simp [Json.misnamed]),
      occurs_misnamed, rfl⟩
  | construct category =>
    obtain rfl : category = .filterStatement := by
      cases category <;> simp [FieldType.checked] at h ⊢
    let filter : Json :=
      .object [("kind", .string "extended"), ("statements", .array [.string "filter.blacken"])]
    have hstatement : readFilterStatement (.string "filter.blacken") = .ok (.mk [] false "" []) :=
      readFilterStatement_eq_ok.mpr (.mk ⟨[], rfl, .nil⟩ ⟨[], rfl, .nil⟩)
    have hread : readFilter filter = .ok (.extended [.mk [] false "" []]) :=
      readFilter_eq_ok.mpr (.extended rfl ⟨_, rfl, .cons hstatement .nil⟩)
    have hstatements : Occurs (.construct .document) filter.masking
        (.array (.construct .filterStatement)) (.array [.string "filter.blacken"]) :=
      occurs_in_masking (Field.many "statements" (.construct .filterStatement))
        (List.mem_of_getElem? (i := 1) rfl) rfl (by simp)
    exact ⟨filter.masking, _, _, readDocument_masking hread (by simp [filter]),
      .element hstatements List.mem_cons_self, rfl⟩
  | any | string | integer | array => simp [FieldType.checked] at h

end Masking

/-! ### All types -/

/-- Wherever the format gives a type to a value, at any depth of what a reader accepts, the
value has this type, exactly if the type is one that the readers look at: these are all but
those of the flag and the function of a filter, and of a statement of an extended filter. -/
theorem FieldType.typed_iff_checked (type : FieldType) :
    (∀ (category : Category) (value w : Json), category.Accepts value →
        Occurs (.construct category) value type w → type.admits w = true) ↔
      type.checked = true := by
  constructor
  · intro h
    by_contra hchecked
    obtain ⟨value, document, w, hread, hoccurs, hadmits⟩ :=
      exists_mistyped (Bool.eq_false_iff.mpr hchecked)
    rw [h .document value w ⟨document, hread⟩ hoccurs] at hadmits
    cases hadmits
  · intro hchecked category value w haccepts hoccurs
    exact FieldType.Accepted.admits (hoccurs.accepted haccepts) hchecked

/-- A policy that masks the resource by a function, of which the name is no string, is
read as one that leaves the resource as it is. -/
theorem FieldType.function_mistyped :
    readDocument (Json.masking .misnamed) = .ok (Filter.masking (.simple false "" [])) ∧
      Occurs (.construct .document) (Json.masking .misnamed) .function
        (.object [("name", .string "filter.blacken")]) ∧
      FieldType.function.admits (.object [("name", .string "filter.blacken")]) = false :=
  ⟨readDocument_masking readFilter_misnamed (by simp [Json.misnamed]), occurs_misnamed, rfl⟩

end Verdict
