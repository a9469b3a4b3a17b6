/-
Writing policy documents.

Every valid document is written in a JSON form from which it is read again.

* `Expression.toJson`, `Policy.toJson`, `PolicyDocument.toJson` and their like: the JSON
  forms.
* `Construct.induction`: what passes from the parts of a construct to the construct holds
  of all.
* `Construct.readFrom_toJson`: a construct that is valid at every depth is read from its
  form.
-/
import Mathlib.Tactic.Common
import Verdict.Proofs.Policy.Constructs

namespace Verdict

/-! ### Forms -/

/-- A member for an integer, none if there is no integer. -/
def Json.integerMember (field : String) : Option Int → List (String × Json)
  | some n => [(field, .ofInt n)]
  | none => []

mutual

/-- The JSON form of an expression. -/
def Expression.toJson : Expression → Json
  | .basic head steps filter template =>
    .object (head.toMembers ++ [("steps", .array (Step.toJsonEach steps))] ++
      Filter.toMembers filter ++ Expression.toMembers "subtemplate" template)
  | .binary op left right =>
    .object [("kind", .string "binary"), ("operator", .string op.name), ("left", left.toJson),
      ("right", right.toJson)]
  | .unary op operand =>
    .object [("kind", .string "unary"), ("operator", .string op.name),
      ("operand", operand.toJson)]
  | .conditional condition consequent alternative =>
    .object [("kind", .string "conditional"), ("condition", condition.toJson),
      ("then", consequent.toJson), ("else", alternative.toJson)]

/-- A member for an expression, none if there is no expression. -/
def Expression.toMembers (field : String) : Option Expression → List (String × Json)
  | some e => [(field, e.toJson)]
  | none => []

def Expression.toJsonEach : List Expression → List Json
  | [] => []
  | e :: rest => e.toJson :: Expression.toJsonEach rest

/-- The forms of the members of an object expression. -/
def Expression.toJsonMembers : List (String × Expression) → List Json
  | [] => []
  | (key, e) :: rest =>
    .object [("key", .string key), ("value", e.toJson)] :: Expression.toJsonMembers rest

/-- What a basic expression has in its JSON form for its head. -/
def Head.toMembers : Head → List (String × Json)
  | .literal value => [("kind", .string "literal"), ("value", value)]
  | .group inner => [("kind", .string "group"), ("expression", inner.toJson)]
  | .identifier name => [("kind", .string "identifier"), ("name", .string name)]
  | .relative => [("kind", .string "relative")]
  | .function name arguments =>
    [("kind", .string "function"), ("name", .string name),
      ("arguments", .array (Expression.toJsonEach arguments))]
  | .array items => [("kind", .string "array"), ("items", .array (Expression.toJsonEach items))]
  | .object members =>
    [("kind", .string "object"), ("members", .array (Expression.toJsonMembers members))]

/-- The JSON form of a step. -/
def Step.toJson : Step → Json
  | .key name => .object [("kind", .string "key"), ("key", .string name)]
  | .index position => .object [("kind", .string "index"), ("index", .ofInt position)]
  | .wildcard => .object [("kind", .string "wildcard")]
  | .slice start stop stride =>
    .object ([("kind", .string "slice")] ++ Json.integerMember "from" start ++
      Json.integerMember "to" stop ++ Json.integerMember "step" stride)
  | .computed e => .object [("kind", .string "expression"), ("expression", e.toJson)]
  | .condition e => .object [("kind", .string "condition"), ("expression", e.toJson)]
  | .recursiveKey name => .object [("kind", .string "recursive_key"), ("key", .string name)]
  | .recursiveIndex position =>
    .object [("kind", .string "recursive_index"), ("index", .ofInt position)]
  | .recursiveWildcard => .object [("kind", .string "recursive_wildcard")]
  | .keyUnion names =>
    .object [("kind", .string "key_union"), ("keys", .array (names.map .string))]
  | .indexUnion positions =>
    .object [("kind", .string "index_union"), ("indices", .array (positions.map .ofInt))]
  | .attribute name arguments =>
    .object [("kind", .string "attribute_finder"), ("name", .string name),
      ("arguments", .array (Expression.toJsonEach arguments))]

def Step.toJsonEach : List Step → List Json
  | [] => []
  | step :: rest => step.toJson :: Step.toJsonEach rest

/-- The JSON form of a filter. -/
def Filter.toJson : Filter → Json
  | .simple each function arguments =>
    .object [("kind", .string "simple"), ("each", .bool each), ("function", .string function),
      ("arguments", .array (Expression.toJsonEach arguments))]
  | .extended statements =>
    .object [("kind", .string "extended"),
      ("statements", .array (FilterStatement.toJsonEach statements))]

/-- A member for a filter, none if there is no filter. -/
def Filter.toMembers : Option Filter → List (String × Json)
  | some f => [("filter", f.toJson)]
  | none => []

/-- The JSON form of a statement of an extended filter. -/
def FilterStatement.toJson : FilterStatement → Json
  | .mk target each function arguments =>
    .object [("target", .array (Step.toJsonEach target)), ("each", .bool each),
      ("function", .string function), ("arguments", .array (Expression.toJsonEach arguments))]

def FilterStatement.toJsonEach : List FilterStatement → List Json
  | [] => []
  | statement :: rest => statement.toJson :: FilterStatement.toJsonEach rest

end

/-- A member for the JSON forms of expressions. -/
def Expression.arrayMember (field : String) (es : List Expression) : String × Json :=
  (field, .array (es.map Expression.toJson))

/-- What a variable definition has in its JSON form. -/
def VariableDefinition.toMembers (definition : VariableDefinition) : List (String × Json) :=
  [("name", .string definition.name), ("expression", definition.expression.toJson)]

/-- The JSON form of a statement of a body. -/
def Statement.toJson : Statement → Json
  | .condition e => .object [("kind", .string "condition"), ("expression", e.toJson)]
  | .define definition => .object (("kind", .string "variable") :: definition.toMembers)

/-- The JSON form of a policy. -/
def Policy.toJson (policy : Policy) : Json :=
  .object ([("kind", .string "policy"), ("name", .string policy.name),
      ("entitlement", .string policy.entitlement.name)] ++
    Expression.toMembers "target" policy.target ++
    [("body", .array (policy.body.map Statement.toJson)),
      Expression.arrayMember "obligations" policy.obligations,
      Expression.arrayMember "advice" policy.advice] ++
    Expression.toMembers "transformation" policy.transformation)

/-- The JSON form of a policy set. -/
def PolicySet.toJson (set : PolicySet) : Json :=
  .object ([("kind", .string "policy_set"), ("name", .string set.name),
      ("algorithm", .string set.algorithm.name)] ++
    Expression.toMembers "target" set.target ++
    [("variables", .array (set.definitions.map fun d => .object d.toMembers)),
      ("policies", .array (set.policies.map Policy.toJson)),
      Expression.arrayMember "obligations" set.obligations,
      Expression.arrayMember "advice" set.advice])

/-- The JSON form of a document. -/
def PolicyDocument.toJson : PolicyDocument → Json
  | .policy p => p.toJson
  | .set s => s.toJson

/-- The JSON form of a construct. -/
def Construct.toJson : Construct → Json
  | .document d => d.toJson
  | .policy p => p.toJson
  | .set s => s.toJson
  | .statement s => s.toJson
  | .definition d => .object d.toMembers
  | .expression e => e.toJson
  | .member (key, e) => .object [("key", .string key), ("value", e.toJson)]
  | .step s => s.toJson
  | .filter f => f.toJson
  | .filterStatement s => s.toJson

/-! ### Members of forms -/

/-- The expressions of a list are written one by one. -/
lemma Expression.toJsonEach_eq_map (es : List Expression) :
    Expression.toJsonEach es = es.map Expression.toJson := by
  induction es with
  | nil => rfl
  | cons e rest ih => rw [Expression.toJsonEach, List.map_cons, ih]

/-- Members are written as constructs of their own, each with its key and its value. -/
lemma Expression.toJsonMembers_eq_map (members : List (String × Expression)) :
    Expression.toJsonMembers members = members.map fun m => (Construct.member m).toJson := by
  induction members with
  | nil => rfl
  | cons m rest ih => rw [Expression.toJsonMembers, List.map_cons, ih, Construct.toJson]

lemma Step.toJsonEach_eq_map (steps : List Step) :
    Step.toJsonEach steps = steps.map Step.toJson := by
  induction steps with
  | nil => rfl
  | cons step rest ih => rw [Step.toJsonEach, List.map_cons, ih]

lemma FilterStatement.toJsonEach_eq_map (statements : List FilterStatement) :
    FilterStatement.toJsonEach statements = statements.map FilterStatement.toJson := by
  induction statements with
  | nil => rfl
  | cons statement rest ih => rw [FilterStatement.toJsonEach, List.map_cons, ih]

namespace Json

variable {α : Type} {value : Json} {field : String} {R : Json → α → Prop}

/-- A field of an object is found as a member. -/
lemma field?_object (members : List (String × Json)) (key : String) :
    (Json.object members).field? key = members.lookup key := rfl

/-- An optional integer is written under its field or left out. -/
lemma lookup_integerMember (field key : String) (n? : Option Int) :
    (integerMember field n?).lookup key = if key = field then n?.map ofInt else none := by
  cases n? <;> simp [integerMember, lookup_cons_eq]

/-- An optional field is restored if what it is written as is never null and is read back. -/
lemma hasOptional_of_field? {f : α → Json} {a? : Option α}
    (h : value.field? field = a?.map f) (hnull : ∀ a, f a ≠ .null)
    (hread : ∀ a ∈ a?, R (f a) a) : value.HasOptional field R a? := by
  have hpresence : presence (a?.map f) = a?.map f := by
    cases a? with
    | none => rfl
    | some a => exact presence_some (hnull a)
  rw [HasOptional, h, hpresence]
  cases a? with
  | none => exact .none
  | some a => exact .some (hread a rfl)

/-- A list field is restored if each of its elements is. -/
lemma hasEach_of_field? {f : α → Json} {as : List α}
    (h : value.field? field = some (.array (as.map f))) (hread : ∀ a ∈ as, R (f a) a) :
    value.HasEach field R as := by
  refine ⟨as.map f, ?_, ?_⟩
  · simp only [elements?, h, presence, toArray?]
  · rw [List.forall₂_map_left_iff, List.forall₂_same]
    exact hread

end Json

/-- An optional expression is written under its field or left out. -/
lemma Expression.lookup_toMembers (field key : String) (e? : Option Expression) :
    (Expression.toMembers field e?).lookup key =
      if key = field then e?.map Expression.toJson else none := by
  cases e? <;> simp [Expression.toMembers, lookup_cons_eq]

lemma Filter.lookup_toMembers (key : String) (f? : Option Filter) :
    (Filter.toMembers f?).lookup key = if key = "filter" then f?.map Filter.toJson else none := by
  cases f? <;> simp [Filter.toMembers, lookup_cons_eq]

/-- A head has no member of the names that all basic expressions have. -/
lemma Head.lookup_toMembers (head : Head) {key : String}
    (h : key ∈ ["steps", "filter", "subtemplate"]) : head.toMembers.lookup key = none := by
  simp only [List.mem_cons, List.not_mem_nil, or_false] at h
  rcases h with rfl | rfl | rfl <;> cases head <;> simp [Head.toMembers, lookup_cons_eq]

/-! ### Reading what was written -/

namespace Construct

/-! The parts of a construct are smaller. -/

section Size

variable {α : Type} [SizeOf α] {f : α → Construct} {c : Construct}

/-- A part in a list is no larger than the list. -/
lemma sizeOf_of_mem_map (hf : ∀ a, sizeOf (f a) = 1 + sizeOf a) {as : List α}
    (h : c ∈ as.map f) : sizeOf c ≤ sizeOf as := by
  obtain ⟨a, ha, rfl⟩ := List.mem_map.mp h
  have := List.sizeOf_lt_of_mem ha
  rw [hf]
  omega

/-- An optional part is no larger than the option. -/
lemma sizeOf_of_mem_toList (hf : ∀ a, sizeOf (f a) = 1 + sizeOf a) {a? : Option α}
    (h : c ∈ a?.toList.map f) : sizeOf c ≤ sizeOf a? := by
  obtain ⟨a, ha, rfl⟩ := List.mem_map.mp h
  obtain rfl : a? = some a := Option.mem_toList.mp ha
  rw [hf]
  simp

lemma sizeOf_le_head {head : Head} (h : c ∈ head.parts) : sizeOf c ≤ sizeOf head := by
  cases head with
  | literal | identifier | relative => simp [Head.parts] at h
  | group inner =>
    obtain rfl := List.mem_singleton.mp h
    simp
  | function name arguments =>
    have := sizeOf_of_mem_map (fun _ => rfl) h
    simp only [Head.function.sizeOf_spec]
    omega
  | array items =>
    have := sizeOf_of_mem_map (fun _ => rfl) h
    simp only [Head.array.sizeOf_spec]
    omega
  | object members =>
    have := sizeOf_of_mem_map (fun _ => rfl) h
    simp only [Head.object.sizeOf_spec]
    omega

lemma sizeOf_lt_policy {p : Policy} (h : c ∈ (Construct.policy p).parts) :
    sizeOf c < sizeOf (Construct.policy p) := by
  obtain ⟨name, entitlement, target, body, obligations, advice, transformation⟩ := p
  simp only [parts, List.map_append, List.mem_append] at h
  simp only [policy.sizeOf_spec, Policy.mk.sizeOf_spec]
  rcases h with h | ((h | h) | h) | h
  all_goals first
    | have := sizeOf_of_mem_map (fun _ => rfl) h
      omega
    | have := sizeOf_of_mem_toList (fun _ => rfl) h
      omega

lemma sizeOf_lt_set {s : PolicySet} (h : c ∈ (Construct.set s).parts) :
    sizeOf c < sizeOf (Construct.set s) := by
  obtain ⟨name, algorithm, target, definitions, policies, obligations, advice⟩ := s
  simp only [parts, List.map_append, List.mem_append] at h
  simp only [set.sizeOf_spec, PolicySet.mk.sizeOf_spec]
  rcases h with (h | h) | (h | h) | h
  all_goals first
    | have := sizeOf_of_mem_map (fun _ => rfl) h
      omega
    | have := sizeOf_of_mem_toList (fun _ => rfl) h
      omega

/-- The parts of an expression are smaller than the expression, through its head, its steps and
what stands behind them. -/
lemma sizeOf_lt_expression {e : Expression} (h : c ∈ (Construct.expression e).parts) :
    sizeOf c < sizeOf (Construct.expression e) := by
  cases e with
  | basic head steps f template =>
    simp only [parts, List.mem_append] at h
    simp only [expression.sizeOf_spec, Expression.basic.sizeOf_spec]
    rcases h with ((h | h) | h) | h
    · have := sizeOf_le_head h
      omega
    · have := sizeOf_of_mem_map (fun _ => rfl) h
      omega
    · have := sizeOf_of_mem_toList (fun _ => rfl) h
      omega
    · have := sizeOf_of_mem_toList (fun _ => rfl) h
      omega
  | binary op left right =>
    simp only [parts, List.mem_cons, List.not_mem_nil, or_false] at h
    rcases h with rfl | rfl
    all_goals
      simp only [expression.sizeOf_spec, Expression.binary.sizeOf_spec]
      omega
  | unary op operand =>
    obtain rfl := List.mem_singleton.mp h
    simp
  | conditional condition consequent alternative =>
    simp only [parts, List.mem_cons, List.not_mem_nil, or_false] at h
    rcases h with rfl | rfl | rfl
    all_goals
      simp only [expression.sizeOf_spec, Expression.conditional.sizeOf_spec]
      omega

lemma sizeOf_lt_step {s : Step} (h : c ∈ (Construct.step s).parts) :
    sizeOf c < sizeOf (Construct.step s) := by
  cases s with
  | computed e | condition e =>
    obtain rfl := List.mem_singleton.mp h
    simp
  | «attribute» name arguments =>
    have := sizeOf_of_mem_map (fun _ => rfl) h
    simp only [step.sizeOf_spec, Step.attribute.sizeOf_spec]
    omega
  | _ => simp [parts] at h

/-- A part is smaller than the construct, which is what induction on constructs rests on.
-/
theorem sizeOf_lt_of_mem_parts {d : Construct} (h : c ∈ d.parts) : sizeOf c < sizeOf d := by
  cases d with
  | document d =>
    cases d with
    | policy p | set s =>
      obtain rfl := List.mem_singleton.mp h
      simp
  | policy p => exact sizeOf_lt_policy h
  | set s => exact sizeOf_lt_set h
  | statement s =>
    cases s with
    | condition e | define d =>
      obtain rfl := List.mem_singleton.mp h
      simp
  | definition d =>
    obtain ⟨name, e⟩ := d
    obtain rfl := List.mem_singleton.mp h
    simp
  | expression e => exact sizeOf_lt_expression h
  | member m =>
    obtain ⟨key, e⟩ := m
    obtain rfl := List.mem_singleton.mp h
    simp
  | step s => exact sizeOf_lt_step h
  | filter f =>
    cases f with
    | simple each function arguments =>
      have := sizeOf_of_mem_map (fun _ => rfl) h
      simp only [filter.sizeOf_spec, Filter.simple.sizeOf_spec]
      omega
    | extended statements =>
      have := sizeOf_of_mem_map (fun _ => rfl) h
      simp only [filter.sizeOf_spec, Filter.extended.sizeOf_spec]
      omega
  | filterStatement s =>
    obtain ⟨target, each, function, arguments⟩ := s
    rcases List.mem_append.mp h with h | h
    all_goals
      have := sizeOf_of_mem_map (fun _ => rfl) h
      simp only [filterStatement.sizeOf_spec, FilterStatement.mk.sizeOf_spec]
      omega

end Size

/-- What passes from the parts of a construct to the construct holds of all. -/
theorem induction {P : Construct → Prop} (h : ∀ c : Construct, (∀ part ∈ c.parts, P part) → P c)
    (c : Construct) : P c := by
  induction hsize : sizeOf c using Nat.strongRecOn generalizing c with
  | ind size ih =>
    exact h c fun part hpart => ih (sizeOf part) (hsize ▸ sizeOf_lt_of_mem_parts hpart) part rfl

/-! ### Single constructs -/

end Construct

/-- An entitlement is read back from its name. -/
lemma Entitlement.ofName?_name (e : Entitlement) : ofName? e.name = some e := by
  cases e <;> decide

namespace Construct

/-- The construct is read from its JSON form. -/
def Restored (c : Construct) : Prop := c.ReadFrom c.toJson

section Restored

variable {value : Json} {field : String}

/-- Expressions in a list field are restored if each of them is. -/
lemma hasEach_expressions {es : List Expression}
    (h : value.field? field = some (.array (Expression.toJsonEach es)))
    (hparts : ∀ c ∈ es.map Construct.expression, c.Restored) :
    value.HasEach field (Json.ReadBy readExpression) es := by
  rw [Expression.toJsonEach_eq_map] at h
  exact Json.hasEach_of_field? h fun e he => hparts _ (List.mem_map_of_mem he)

lemma hasEach_steps {steps : List Step}
    (h : value.field? field = some (.array (Step.toJsonEach steps)))
    (hparts : ∀ c ∈ steps.map Construct.step, c.Restored) :
    value.HasEach field (Json.ReadBy readStep) steps := by
  rw [Step.toJsonEach_eq_map] at h
  exact Json.hasEach_of_field? h fun step hstep => hparts _ (List.mem_map_of_mem hstep)

/-- An optional expression is restored if it is. -/
lemma hasOptional_expression {e? : Option Expression}
    (h : value.field? field = e?.map Expression.toJson)
    (hparts : ∀ c ∈ e?.toList.map Construct.expression, c.Restored) :
    value.HasOptional field (Json.ReadBy readExpression) e? := by
  refine Json.hasOptional_of_field? h (fun e => ?_) fun e he =>
    hparts _ (List.mem_map_of_mem (Option.mem_toList.mpr he))
  cases e <;> simp [Expression.toJson]

/-- An object with the members of a head has its form. -/
lemma headForm_of_lookup {head : Head}
    (h : ∀ key json, head.toMembers.lookup key = some json → value.field? key = some json)
    (hparts : ∀ part ∈ head.parts, part.Restored) : HeadForm value head := by
  have hkind {kind : String} (hlookup : head.toMembers.lookup "kind" = some (.string kind)) :
      value.tag? = some kind := by
    rw [Json.tag?, h "kind" _ hlookup]
    rfl
  cases head with
  | literal json => exact .literal (hkind rfl) ⟨json, h "value" _ rfl, rfl⟩
  | group inner =>
    exact .group (hkind rfl) ⟨_, h "expression" _ rfl, hparts _ List.mem_cons_self⟩
  | identifier name => exact .identifier (hkind rfl) ⟨_, h "name" _ rfl, rfl⟩
  | relative => exact .relative (hkind rfl)
  | function name arguments =>
    exact .function (hkind rfl) ⟨_, h "name" _ rfl, rfl⟩
      (hasEach_expressions (h "arguments" _ rfl) hparts)
  | array items => exact .array (hkind rfl) (hasEach_expressions (h "items" _ rfl) hparts)
  | object members =>
    have hmembers := h "members" (.array (Expression.toJsonMembers members)) rfl
    rw [Expression.toJsonMembers_eq_map] at hmembers
    exact .object (hkind rfl)
      (Json.hasEach_of_field? hmembers fun m hm => hparts _ (List.mem_map_of_mem hm))

/-- What is written of an expression is read as it, if its parts are restored. An object with a
filter and a template would be refused; valid expressions have one of them at most. -/
lemma restored_expression {e : Expression} (hvalid : (Construct.expression e).Valid)
    (hparts : ∀ part ∈ (Construct.expression e).parts, part.Restored) :
    (Construct.expression e).Restored := by
  refine readExpression_eq_ok.mpr ?_
  cases e with
  | basic head steps f template =>
    simp only [parts, List.forall_mem_append] at hparts
    obtain ⟨⟨⟨hhead, hsteps⟩, hfilter⟩, htemplate⟩ := hparts
    refine .basic (headForm_of_lookup (fun key json hlookup => ?_) hhead)
      (hasEach_steps ?_ hsteps) ?_ (hasOptional_expression ?_ htemplate) hvalid
    · simp only [toJson, Expression.toJson, Json.field?_object, List.lookup_append, hlookup,
        Option.some_or]
    · simp [toJson, Expression.toJson, Json.field?_object, List.lookup_append,
        Head.lookup_toMembers]
    · refine Json.hasOptional_of_field? ?_ (fun f => ?_) fun f hf =>
        hfilter _ (List.mem_map_of_mem (Option.mem_toList.mpr hf))
      · simp [toJson, Expression.toJson, Json.field?_object, List.lookup_append,
          Head.lookup_toMembers, lookup_cons_eq, Filter.lookup_toMembers,
          Expression.lookup_toMembers]
      · cases f <;> simp [toJson, Filter.toJson]
    · simp [toJson, Expression.toJson, Json.field?_object, List.lookup_append,
        Head.lookup_toMembers, lookup_cons_eq, Filter.lookup_toMembers,
        Expression.lookup_toMembers]
  | binary op left right =>
    exact .binary rfl ⟨_, rfl, _, rfl, op.ofName?_name⟩
      ⟨_, rfl, hparts (.expression left) (by simp [parts])⟩
      ⟨_, rfl, hparts (.expression right) (by simp [parts])⟩
  | unary op operand =>
    exact .unary rfl ⟨_, rfl, _, rfl, op.ofName?_name⟩
      ⟨_, rfl, hparts (.expression operand) (by simp [parts])⟩
  | conditional condition consequent alternative =>
    exact .conditional rfl ⟨_, rfl, hparts (.expression condition) (by simp [parts])⟩
      ⟨_, rfl, hparts (.expression consequent) (by simp [parts])⟩
      ⟨_, rfl, hparts (.expression alternative) (by simp [parts])⟩

/-- Words of 64 bits are read back from their numbers. -/
lemma isInteger_ofInt {n : Int} (h : IsSigned n) : (Json.ofInt n).IsInteger n := if_pos h

lemma hasOptional_integer {n? : Option Int} (h : value.field? field = n?.map Json.ofInt)
    (hsigned : ∀ n ∈ n?, IsSigned n) : value.HasOptional field Json.IsInteger n? :=
  Json.hasOptional_of_field? h (fun n => by simp [Json.ofInt]) fun n hn =>
    isInteger_ofInt (hsigned n hn)

/-- What is written of a step is read as it; this takes positions to be words and no stride to
be zero. -/
lemma restored_step {s : Step} (hvalid : (Construct.step s).Valid)
    (htyped : (Construct.step s).Typed)
    (hparts : ∀ part ∈ (Construct.step s).parts, part.Restored) :
    (Construct.step s).Restored := by
  refine readStep_eq_ok.mpr ?_
  cases s with
  | key name => exact .key rfl ⟨_, rfl, rfl⟩
  | index position => exact .index rfl ⟨_, rfl, isInteger_ofInt htyped⟩
  | wildcard => exact .wildcard rfl
  | slice start stop stride =>
    obtain ⟨hstart, hstop, hstride⟩ := htyped
    refine .slice rfl (hasOptional_integer ?_ hstart) (hasOptional_integer ?_ hstop)
      (hasOptional_integer ?_ hstride) hvalid
    all_goals
      simp [toJson, Step.toJson, Json.field?_object, List.lookup_append, lookup_cons_eq,
        Json.lookup_integerMember]
  | computed e => exact .computed rfl ⟨_, rfl, hparts _ List.mem_cons_self⟩
  | condition e => exact .condition rfl ⟨_, rfl, hparts _ List.mem_cons_self⟩
  | recursiveKey name => exact .recursiveKey rfl ⟨_, rfl, rfl⟩
  | recursiveIndex position => exact .recursiveIndex rfl ⟨_, rfl, isInteger_ofInt htyped⟩
  | recursiveWildcard => exact .recursiveWildcard rfl
  | keyUnion names =>
    exact .keyUnion rfl (Json.hasEach_of_field? (f := .string) rfl fun _ _ => rfl)
  | indexUnion positions =>
    exact .indexUnion rfl (Json.hasEach_of_field? (f := .ofInt) rfl fun n hn =>
      isInteger_ofInt (htyped n hn))
  | «attribute» name arguments =>
    exact .finder rfl ⟨_, rfl, rfl⟩ (hasEach_expressions rfl hparts)

/-- What is written of a filter is read as it. -/
lemma restored_filter {f : Filter}
    (hparts : ∀ part ∈ (Construct.filter f).parts, part.Restored) :
    (Construct.filter f).Restored := by
  refine readFilter_eq_ok.mpr ?_
  cases f with
  | simple each function arguments => exact .simple rfl (hasEach_expressions rfl hparts)
  | extended statements =>
    have hstatements : (Construct.filter (.extended statements)).toJson.field? "statements"
        = some (.array (FilterStatement.toJsonEach statements)) := rfl
    rw [FilterStatement.toJsonEach_eq_map] at hstatements
    exact .extended rfl
      (Json.hasEach_of_field? hstatements fun s hs => hparts _ (List.mem_map_of_mem hs))

lemma restored_filterStatement {s : FilterStatement}
    (hparts : ∀ part ∈ (Construct.filterStatement s).parts, part.Restored) :
    (Construct.filterStatement s).Restored := by
  obtain ⟨target, each, function, arguments⟩ := s
  obtain ⟨htarget, harguments⟩ := List.forall_mem_append.mp hparts
  exact readFilterStatement_eq_ok.mpr
    (.mk (hasEach_steps rfl htarget) (hasEach_expressions rfl harguments))

lemma restored_definition {d : VariableDefinition}
    (hparts : ∀ part ∈ (Construct.definition d).parts, part.Restored) :
    (Construct.definition d).Restored :=
  readVariable_eq_ok.mpr (.mk ⟨_, rfl, rfl⟩ ⟨_, rfl, hparts _ List.mem_cons_self⟩)

/-- A definition is also read where its members follow a tag. -/
lemma defines_of_restored {d : VariableDefinition} (h : (Construct.definition d).Restored)
    (hname : d.name ∉ reservedNames) : (Statement.define d).toJson.Defines d := by
  cases readVariable_eq_ok.mp h with
  | mk _ he =>
    obtain ⟨member, hmember, he⟩ := he
    exact ⟨readVariable_eq_ok.mpr (.mk ⟨_, rfl, rfl⟩ ⟨member, hmember, he⟩), hname⟩

/-- What is written of a statement is read as it, unless it defines a reserved name. -/
lemma restored_statement {s : Statement} (hvalid : (Construct.statement s).Valid)
    (hparts : ∀ part ∈ (Construct.statement s).parts, part.Restored) :
    (Construct.statement s).Restored := by
  cases s with
  | condition e => exact .condition rfl ⟨_, rfl, hparts _ List.mem_cons_self⟩
  | define d => exact .define rfl (defines_of_restored (hparts _ List.mem_cons_self) hvalid)

/-- What is written of a policy is read as it. -/
lemma restored_policy {p : Policy}
    (hparts : ∀ part ∈ (Construct.policy p).parts, part.Restored) :
    (Construct.policy p).Restored := by
  simp only [parts, List.map_append, List.forall_mem_append] at hparts
  obtain ⟨hbody, ⟨⟨htarget, hobligations⟩, hadvice⟩, htransformation⟩ := hparts
  have hstatements : ∀ s ∈ p.body, readStatement p.name s.toJson = .ok s := fun s hs =>
    readStatement_eq_ok.mpr (hbody _ (List.mem_map_of_mem hs))
  refine readPolicy_eq_ok.mpr {
    name := ⟨.string p.name, ?_, rfl⟩
    entitlement := ⟨.string p.entitlement.name, ?_, _, rfl, p.entitlement.ofName?_name⟩
    body := Json.hasEach_of_field? ?_ hstatements
    target := hasOptional_expression ?_ htarget
    obligations := hasEach_expressions ?_ hobligations
    advice := hasEach_expressions ?_ hadvice
    transformation := hasOptional_expression ?_ htransformation }
  all_goals
    simp [toJson, Policy.toJson, Json.field?_object, List.lookup_append, lookup_cons_eq,
      Expression.lookup_toMembers, Expression.arrayMember, Expression.toJsonEach_eq_map]

/-- What is written of a set is read as it, if its policies have distinct names and its
variables are not reserved. -/
lemma restored_set {s : PolicySet} (hvalid : (Construct.set s).Valid)
    (hparts : ∀ part ∈ (Construct.set s).parts, part.Restored) :
    (Construct.set s).Restored := by
  simp only [parts, List.map_append, List.forall_mem_append] at hparts
  obtain ⟨⟨hdefinitions, hpolicies⟩, ⟨htarget, hobligations⟩, hadvice⟩ := hparts
  have hdefines : ∀ d ∈ s.definitions, (Json.object d.toMembers).Defines d := fun d hd =>
    ⟨hdefinitions _ (List.mem_map_of_mem hd), hvalid.2 d hd⟩
  refine readPolicySet_eq_ok.mpr {
    name := ⟨.string s.name, ?_, rfl⟩
    algorithm := ⟨.string s.algorithm.name, ?_, _, rfl, s.algorithm.ofName?_name⟩
    definitions := Json.hasEach_of_field? ?_ hdefines
    policies := Json.hasEach_of_field? ?_ fun p hp => hpolicies _ (List.mem_map_of_mem hp)
    distinct := hvalid.1
    target := hasOptional_expression ?_ htarget
    obligations := hasEach_expressions ?_ hobligations
    advice := hasEach_expressions ?_ hadvice }
  all_goals
    simp [toJson, PolicySet.toJson, Json.field?_object, List.lookup_append, lookup_cons_eq,
      Expression.lookup_toMembers, Expression.arrayMember, Expression.toJsonEach_eq_map]

lemma restored_document {d : PolicyDocument}
    (hparts : ∀ part ∈ (Construct.document d).parts, part.Restored) :
    (Construct.document d).Restored := by
  refine readDocument_eq_ok.mpr ?_
  cases d with
  | policy p =>
    exact .policy (by simp [toJson, PolicyDocument.toJson, Policy.toJson, Json.tag?,
      Json.field?_object, Json.toString?]) (hparts _ List.mem_cons_self)
  | set s =>
    exact .set (by simp [toJson, PolicyDocument.toJson, PolicySet.toJson, Json.tag?,
      Json.field?_object, Json.toString?]) (hparts _ List.mem_cons_self)

/-- A construct is read from its form if its parts are read from theirs. -/
theorem restored_of_parts {c : Construct} (hvalid : c.Valid) (htyped : c.Typed)
    (hparts : ∀ part ∈ c.parts, part.Restored) : c.Restored := by
  cases c with
  | document d => exact restored_document hparts
  | policy p => exact restored_policy hparts
  | set s => exact restored_set hvalid hparts
  | statement s => exact restored_statement hvalid hparts
  | definition d => exact restored_definition hparts
  | expression e => exact restored_expression hvalid hparts
  | member m =>
    exact readMember_eq_ok.mpr (.mk ⟨_, rfl, rfl⟩ ⟨_, rfl, hparts _ List.mem_cons_self⟩)
  | step s => exact restored_step hvalid htyped hparts
  | filter f => exact restored_filter hparts
  | filterStatement s => exact restored_filterStatement hparts

end Restored

/-! ### All constructs -/

/-- What a part contains is contained in the whole. -/
lemma Contains.of_part {c part d : Construct} (hpart : part ∈ c.parts) (h : part.Contains d) :
    c.Contains d := by
  induction h with
  | self => exact .part .self hpart
  | part _ he ih => exact .part ih he

/-- A construct that is valid and typed at every depth is read from its form. -/
theorem readFrom_toJson (c : Construct) :
    (∀ d, c.Contains d → d.Valid ∧ d.Typed) → c.ReadFrom c.toJson := by
  induction c using Construct.induction with
  | h c ih =>
    intro h
    obtain ⟨hvalid, htyped⟩ := h c .self
    exact restored_of_parts hvalid htyped fun part hpart =>
      ih part hpart fun d hd => h d (hd.of_part hpart)

end Construct

end Verdict
