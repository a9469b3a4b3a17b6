/-
The constructs of a document.

A document is a tree of constructs, and every construct in it has been read from some
part of the JSON form.  So what one reader ensures of its construct holds at every depth.

* `Construct`: a document or anything in it.
* `Construct.parts`, `Construct.Contains`: what a construct consists of, directly and at
  every depth.
* `Construct.Valid`: what the format asks of a single construct.
* `Construct.Typed`: what the types of the trees ask of it.
* `Construct.ReadFrom`, `Construct.Readable`: the construct is what a value is read as.
* `Construct.Readable.contains`: so is everything that it contains.
* `Construct.ReadFrom.valid`, `Construct.Readable.typed`: what is read is valid and typed.
-/
import Verdict.Proofs.Policy.DocumentForms
import Verdict.Proofs.Value.Equality

namespace Verdict

/-- A document, or a construct somewhere in it. -/
inductive Construct where
  | document (document : PolicyDocument)
  | policy (policy : Policy)
  | set (set : PolicySet)
  | statement (statement : Statement)
  | definition (definition : VariableDefinition)
  | expression (expression : Expression)
  | member (member : String × Expression)
  | step (step : Step)
  | filter (filter : Filter)
  | filterStatement (statement : FilterStatement)

/-- The constructs of which a head consists. -/
def Head.parts : Head → List Construct
  | .group inner => [.expression inner]
  | .function _ arguments => arguments.map .expression
  | .array items => items.map .expression
  | .object members => members.map .member
  | .literal _ | .identifier _ | .relative => []

namespace Construct

/-- The constructs of which a construct consists. -/
def parts : Construct → List Construct
  | .document (.policy p) => [.policy p]
  | .document (.set s) => [.set s]
  | .policy p =>
    p.body.map .statement ++
      (p.target.toList ++ p.obligations ++ p.advice ++ p.transformation.toList).map .expression
  | .set s =>
    s.definitions.map .definition ++ s.policies.map .policy ++
      (s.target.toList ++ s.obligations ++ s.advice).map .expression
  | .statement (.condition e) => [.expression e]
  | .statement (.define d) => [.definition d]
  | .definition d => [.expression d.expression]
  | .expression (.basic head steps f template) =>
    head.parts ++ steps.map .step ++ f.toList.map .filter ++ template.toList.map .expression
  | .expression (.binary _ left right) => [.expression left, .expression right]
  | .expression (.unary _ operand) => [.expression operand]
  | .expression (.conditional condition consequent alternative) =>
    [.expression condition, .expression consequent, .expression alternative]
  | .member (_, e) => [.expression e]
  | .step (.computed e) | .step (.condition e) => [.expression e]
  | .step (.attribute _ arguments) => arguments.map .expression
  | .step _ => []
  | .filter (.simple _ _ arguments) => arguments.map .expression
  | .filter (.extended statements) => statements.map .filterStatement
  | .filterStatement (.mk target _ _ arguments) =>
    target.map .step ++ arguments.map .expression

/-- The construct is the other one or contains it at some depth. -/
inductive Contains (c : Construct) : Construct → Prop
  | self : c.Contains c
  | part {d e : Construct} (h : c.Contains d) (he : e ∈ d.parts) : c.Contains e

/-- What the format asks of a construct: no variable has a reserved name, the policies
of a set have distinct names, a basic expression has no template beside a filter, and
no slice has stride zero. -/
def Valid : Construct → Prop
  | .set s =>
    (s.policies.map Policy.name).Nodup ∧ ∀ d ∈ s.definitions, d.name ∉ reservedNames
  | .statement (.define d) => d.name ∉ reservedNames
  | .expression (.basic _ _ f template) => ¬(f.isSome ∧ template.isSome)
  | .step (.slice _ _ stride) => stride ≠ some 0
  | _ => True

/-- An integer of 64 bits. -/
def IsSigned (n : Int) : Prop := Number.leastInteger ≤ n ∧ n ≤ Number.greatestSigned

/-- What the types of the trees ask of a construct: positions are integers of 64 bits,
and no object in a literal names a member twice. -/
def Typed : Construct → Prop
  | .expression (.basic (.literal value) _ _ _) => value.HasDistinctKeys
  | .step (.index n) | .step (.recursiveIndex n) => IsSigned n
  | .step (.slice start stop stride) =>
    (∀ n ∈ start, IsSigned n) ∧ (∀ n ∈ stop, IsSigned n) ∧ ∀ n ∈ stride, IsSigned n
  | .step (.indexUnion positions) => ∀ n ∈ positions, IsSigned n
  | _ => True

/-- The construct is what a value is read as. -/
def ReadFrom (value : Json) : Construct → Prop
  | .document d => readDocument value = .ok d
  | .policy p => readPolicy value = .ok p
  | .set s => readPolicySet value = .ok s
  | .statement s => StatementForm value s
  | .definition d => readVariable value = .ok d
  | .expression e => readExpression value = .ok e
  | .member m => readMember value = .ok m
  | .step s => readStep value = .ok s
  | .filter f => readFilter value = .ok f
  | .filterStatement s => readFilterStatement value = .ok s

end Construct

/-! ### Parts of values -/

namespace Json

variable {α : Type} {value : Json} {field : String} {R : Json → α → Prop} {n : Int}

/-- What stands under a field repeats no names if the whole value does not. -/
lemma HasDistinctKeys.field? (h : value.HasDistinctKeys) {member : Json}
    (hmember : value.field? field = some member) : member.HasDistinctKeys := by
  cases value with
  | object members => exact distinct_of_lookup h.2 hmember
  | _ => simp [Json.field?, toObject?] at hmember

/-- A field that is not null stands in the value. -/
lemma field?_of_presence {member : Json} (h : presence (value.field? field) = some member) :
    value.field? field = some member := by
  cases hfield : value.field? field with
  | none => simp [hfield, presence] at h
  | some found => cases found <;> simp_all [presence]

lemma array_of_elements? {elements : List Json} (h : value.elements? field = some elements) :
    elements = [] ∨ value.field? field = some (.array elements) := by
  rw [elements?] at h
  split at h
  · exact .inl (Option.some.inj h).symm
  · rename_i member hmember
    cases member with
    | array items =>
      obtain rfl := Option.some.inj h
      exact .inr (field?_of_presence hmember)
    | _ => simp [toArray?] at h

/-- What is related to a member is related to some part of the value. -/
lemma Has.exists_part {a : α} (h : value.Has field R a) (hkeys : value.HasDistinctKeys) :
    ∃ part : Json, part.HasDistinctKeys ∧ R part a := by
  obtain ⟨member, hmember, ha⟩ := h
  exact ⟨member, hkeys.field? hmember, ha⟩

/-- An optional field that is there has been read from a part of the value. -/
lemma HasOptional.exists_part {a? : Option α} (h : value.HasOptional field R a?)
    (hkeys : value.HasDistinctKeys) {a : α} (ha : a ∈ a?) :
    ∃ part : Json, part.HasDistinctKeys ∧ R part a := by
  obtain rfl : a? = some a := ha
  rw [HasOptional] at h
  cases hmember : presence (value.field? field) with
  | none => simp [hmember] at h
  | some member =>
    rw [hmember, Option.rel_some_some] at h
    exact ⟨member, hkeys.field? (field?_of_presence hmember), h⟩

/-- Every element of a list field has been read from a part of the value. -/
lemma HasEach.exists_part {as : List α} (h : value.HasEach field R as)
    (hkeys : value.HasDistinctKeys) {a : α} (ha : a ∈ as) :
    ∃ part : Json, part.HasDistinctKeys ∧ R part a := by
  obtain ⟨elements, helements, has⟩ := h
  have hdistinct : ∀ element ∈ elements, element.HasDistinctKeys := by
    rcases array_of_elements? helements with rfl | harray
    · simp
    · exact distinct_of_mem_items (hkeys.field? harray)
  obtain ⟨element, hmem, hread⟩ := exists_of_mem_right has ha
  exact ⟨element, hdistinct element hmem, hread⟩

/-- An integer field has been read as a word of 64 bits. -/
lemma isSigned_of_isInteger (h : value.IsInteger n) : Construct.IsSigned n := by
  cases value with
  | number number =>
    cases number with
    | integer m =>
      simp only [IsInteger, toSigned?, toNumber?, Option.bind_some, Number.toSigned?] at h
      split at h
      · rename_i hbounds
        obtain rfl := Option.some.inj h
        exact hbounds
      · cases h
    | real x => simp [IsInteger, toSigned?, toNumber?, Number.toSigned?] at h
  | _ => simp [IsInteger, toSigned?, toNumber?] at h

end Json

/-! ### Reading -/

namespace Construct

/-- The construct is what some value is read as, in which no object names a member
twice. -/
def Readable (c : Construct) : Prop := ∃ value : Json, value.HasDistinctKeys ∧ c.ReadFrom value

section Parts

variable {α : Type} {value : Json} (hkeys : value.HasDistinctKeys) {field : String}
  {R : Json → α → Prop} {f : α → Construct} (hf : ∀ part a, R part a → (f a).ReadFrom part)
include hkeys hf

/-- What a field has been read as is readable, from the part under this field. -/
lemma readable_of_has {a : α} (h : value.Has field R a) : (f a).Readable := by
  obtain ⟨part, hpart, ha⟩ := h.exists_part hkeys
  exact ⟨part, hpart, hf part a ha⟩

lemma readable_of_optional {a? : Option α} (h : value.HasOptional field R a?) :
    ∀ c ∈ a?.toList.map f, c.Readable := by
  intro c hc
  obtain ⟨a, ha, rfl⟩ := List.mem_map.mp hc
  obtain ⟨part, hpart, hread⟩ := h.exists_part hkeys (Option.mem_toList.mp ha)
  exact ⟨part, hpart, hf part a hread⟩

lemma readable_of_each {as : List α} (h : value.HasEach field R as) :
    ∀ c ∈ as.map f, c.Readable := by
  intro c hc
  obtain ⟨a, ha, rfl⟩ := List.mem_map.mp hc
  obtain ⟨part, hpart, hread⟩ := h.exists_part hkeys ha
  exact ⟨part, hpart, hf part a hread⟩

end Parts

section Forms

variable {value : Json} (hkeys : value.HasDistinctKeys)
include hkeys

/-- What a document is made of is readable. -/
lemma readable_of_document {d : PolicyDocument} (h : DocumentForm value d) :
    ∀ c ∈ (Construct.document d).parts, c.Readable := by
  cases h with
  | policy hkind hpolicy => exact List.forall_mem_singleton.mpr ⟨value, hkeys, hpolicy⟩
  | set hkind hset => exact List.forall_mem_singleton.mpr ⟨value, hkeys, hset⟩

lemma readable_of_policy {p : Policy} (h : PolicyForm value p) :
    ∀ c ∈ (Construct.policy p).parts, c.Readable := by
  simp only [parts, List.map_append, List.forall_mem_append]
  exact ⟨readable_of_each hkeys (fun _ _ => readStatement_eq_ok.mp) h.body,
    ⟨⟨readable_of_optional hkeys (fun _ _ => id) h.target,
      readable_of_each hkeys (fun _ _ => id) h.obligations⟩,
      readable_of_each hkeys (fun _ _ => id) h.advice⟩,
    readable_of_optional hkeys (fun _ _ => id) h.transformation⟩

lemma readable_of_set {s : PolicySet} (h : PolicySetForm value s) :
    ∀ c ∈ (Construct.set s).parts, c.Readable := by
  simp only [parts, List.map_append, List.forall_mem_append]
  exact ⟨⟨readable_of_each hkeys (fun _ _ => And.left) h.definitions,
      readable_of_each hkeys (fun _ _ => id) h.policies⟩,
    ⟨readable_of_optional hkeys (fun _ _ => id) h.target,
      readable_of_each hkeys (fun _ _ => id) h.obligations⟩,
    readable_of_each hkeys (fun _ _ => id) h.advice⟩

lemma readable_of_statement {s : Statement} (h : StatementForm value s) :
    ∀ c ∈ (Construct.statement s).parts, c.Readable := by
  cases h with
  | condition hkind he =>
    exact List.forall_mem_singleton.mpr (readable_of_has hkeys (fun _ _ => id) he)
  | define hkind hdefinition =>
    exact List.forall_mem_singleton.mpr ⟨value, hkeys, hdefinition.1⟩

lemma readable_of_head {head : Head} (h : HeadForm value head) : ∀ c ∈ head.parts, c.Readable := by
  cases h with
  | literal | identifier | relative => simp [Head.parts]
  | group hkind hinner =>
    exact List.forall_mem_singleton.mpr (readable_of_has hkeys (fun _ _ => id) hinner)
  | function hkind hname harguments => exact readable_of_each hkeys (fun _ _ => id) harguments
  | array hkind hitems => exact readable_of_each hkeys (fun _ _ => id) hitems
  | object hkind hmembers => exact readable_of_each hkeys (fun _ _ => id) hmembers

lemma readable_of_expression {e : Expression} (h : ExpressionForm value e) :
    ∀ c ∈ (Construct.expression e).parts, c.Readable := by
  cases h with
  | basic hhead hsteps hfilter htemplate =>
    simp only [parts, List.forall_mem_append]
    exact ⟨⟨⟨readable_of_head hkeys hhead, readable_of_each hkeys (fun _ _ => id) hsteps⟩,
      readable_of_optional hkeys (fun _ _ => id) hfilter⟩,
      readable_of_optional hkeys (fun _ _ => id) htemplate⟩
  | binary hkind hoperator hleft hright =>
    simp only [parts, List.forall_mem_cons]
    exact ⟨readable_of_has hkeys (fun _ _ => id) hleft,
      readable_of_has hkeys (fun _ _ => id) hright, by simp⟩
  | unary hkind hoperator hoperand =>
    exact List.forall_mem_singleton.mpr (readable_of_has hkeys (fun _ _ => id) hoperand)
  | conditional hkind hcondition hconsequent halternative =>
    simp only [parts, List.forall_mem_cons]
    exact ⟨readable_of_has hkeys (fun _ _ => id) hcondition,
      readable_of_has hkeys (fun _ _ => id) hconsequent,
      readable_of_has hkeys (fun _ _ => id) halternative, by simp⟩

lemma readable_of_step {s : Step} (h : StepForm value s) :
    ∀ c ∈ (Construct.step s).parts, c.Readable := by
  cases h with
  | computed hkind he | condition hkind he =>
    exact List.forall_mem_singleton.mpr (readable_of_has hkeys (fun _ _ => id) he)
  | finder hkind hname harguments => exact readable_of_each hkeys (fun _ _ => id) harguments
  | _ => simp [parts]

lemma readable_of_filter {f : Filter} (h : FilterForm value f) :
    ∀ c ∈ (Construct.filter f).parts, c.Readable := by
  cases h with
  | simple hkind harguments => exact readable_of_each hkeys (fun _ _ => id) harguments
  | extended hkind hstatements => exact readable_of_each hkeys (fun _ _ => id) hstatements

lemma readable_of_filterStatement {s : FilterStatement} (h : FilterStatementForm value s) :
    ∀ c ∈ (Construct.filterStatement s).parts, c.Readable := by
  cases h with
  | mk htarget harguments =>
    simp only [parts, List.forall_mem_append]
    exact ⟨readable_of_each hkeys (fun _ _ => id) htarget,
      readable_of_each hkeys (fun _ _ => id) harguments⟩

end Forms

/-- What a readable construct consists of has been read as well. -/
theorem Readable.parts {c : Construct} (h : c.Readable) : ∀ part ∈ c.parts, part.Readable := by
  obtain ⟨value, hkeys, h⟩ := h
  cases c with
  | document d => exact readable_of_document hkeys (readDocument_eq_ok.mp h)
  | policy p => exact readable_of_policy hkeys (readPolicy_eq_ok.mp h)
  | set s => exact readable_of_set hkeys (readPolicySet_eq_ok.mp h)
  | statement s => exact readable_of_statement hkeys h
  | definition d =>
    cases readVariable_eq_ok.mp h with
    | mk hname he => exact List.forall_mem_singleton.mpr (readable_of_has hkeys (fun _ _ => id) he)
  | expression e => exact readable_of_expression hkeys (readExpression_eq_ok.mp h)
  | member m =>
    cases readMember_eq_ok.mp h with
    | mk hkey he => exact List.forall_mem_singleton.mpr (readable_of_has hkeys (fun _ _ => id) he)
  | step s => exact readable_of_step hkeys (readStep_eq_ok.mp h)
  | filter f => exact readable_of_filter hkeys (readFilter_eq_ok.mp h)
  | filterStatement s =>
    exact readable_of_filterStatement hkeys (readFilterStatement_eq_ok.mp h)

/-- So is what it contains at any depth. -/
theorem Readable.contains {c d : Construct} (h : c.Readable) (hd : c.Contains d) :
    d.Readable := by
  induction hd with
  | self => exact h
  | part hd he ih => exact ih.parts _ he

/-! ### Validity -/

/-- What has been read obeys the rules of the format, which reading checks form by form. -/
lemma ReadFrom.valid {value : Json} {c : Construct} (h : c.ReadFrom value) : c.Valid := by
  cases c with
  | set s =>
    have hform := readPolicySet_eq_ok.mp h
    obtain ⟨elements, -, hdefinitions⟩ := hform.definitions
    refine ⟨hform.distinct, fun d hd => ?_⟩
    obtain ⟨element, -, -, hname⟩ := exists_of_mem_right hdefinitions hd
    exact hname
  | statement s =>
    cases h with
    | condition => trivial
    | define hkind hdefinition => exact hdefinition.2
  | expression e =>
    cases readExpression_eq_ok.mp h with
    | basic hhead hsteps hfilter htemplate hone => exact hone
    | binary | unary | conditional => trivial
  | step s =>
    cases readStep_eq_ok.mp h with
    | slice hkind hstart hstop hstride hzero => exact hzero
    | _ => trivial
  | document | policy | definition | member | filter | filterStatement => trivial

/-- Positions that have been read are words, and literals repeat no names if the value does
not. -/
lemma Readable.typed {c : Construct} (h : c.Readable) : c.Typed := by
  obtain ⟨value, hkeys, h⟩ := h
  cases c with
  | expression e =>
    cases readExpression_eq_ok.mp h with
    | basic hhead =>
      cases hhead with
      | literal hkind hjson =>
        obtain ⟨part, hpart, rfl⟩ := hjson.exists_part hkeys
        exact hpart
      | group | identifier | relative | function | array | object => trivial
    | binary | unary | conditional => trivial
  | step s =>
    cases readStep_eq_ok.mp h with
    | index hkind hposition | recursiveIndex hkind hposition =>
      obtain ⟨part, -, hn⟩ := hposition.exists_part hkeys
      exact Json.isSigned_of_isInteger hn
    | slice hkind hstart hstop hstride =>
      refine ⟨fun n hn => ?_, fun n hn => ?_, fun n hn => ?_⟩
      · obtain ⟨part, -, hpart⟩ := hstart.exists_part hkeys hn
        exact Json.isSigned_of_isInteger hpart
      · obtain ⟨part, -, hpart⟩ := hstop.exists_part hkeys hn
        exact Json.isSigned_of_isInteger hpart
      · obtain ⟨part, -, hpart⟩ := hstride.exists_part hkeys hn
        exact Json.isSigned_of_isInteger hpart
    | indexUnion hkind hpositions =>
      intro n hn
      obtain ⟨part, -, hpart⟩ := hpositions.exists_part hkeys hn
      exact Json.isSigned_of_isInteger hpart
    | _ => trivial
  | _ => trivial

end Construct

end Verdict
