/-
The forms of expressions.

For every construct of an expression, its form says which members a JSON value has,
and how what is read from them makes up the tree.  A form is not recursive: where a
member holds another construct, it only says that this one is read.  The readers
accept exactly the values that have a form.

* `Json.Has`, `Json.HasOptional`, `Json.HasEach`: a member related to what is read
  from it; so for a member that may be absent or null, and for the elements of one.
* `ExpressionForm`, `HeadForm`, `StepForm`, `FilterForm` and their like: the forms.
* `required_bind_eq_ok` and its like: a member that is read before the rest.
* `readExpression_eq_ok` and its like: what a reader returns has the form, and
  everything with the form is returned.
-/
import Mathlib.Data.List.Forall2
import Mathlib.Data.Option.Basic
import Verdict.Json.Record
import Verdict.Policy.Interchange
import Verdict.Proofs.Evaluation.Rewriting

namespace Verdict

variable {α β : Type}

lemma bind_eq_ok {x : Except InterchangeError α} {f : α → Except InterchangeError β} {a : α}
    {b : β} (hx : x = .ok a) (hf : f a = .ok b) : x >>= f = .ok b := by
  rw [hx]
  exact hf

lemma exists_of_mem_right {R : α → β → Prop} {as : List α} {bs : List β}
    (h : List.Forall₂ R as bs) {b : β} (hb : b ∈ bs) : ∃ a ∈ as, R a b := by
  induction h with
  | nil => simp at hb
  | @cons a _ _ _ hab _ ih =>
    rcases List.mem_cons.mp hb with rfl | hb
    · exact ⟨a, List.mem_cons_self, hab⟩
    · obtain ⟨a', ha', hR⟩ := ih hb
      exact ⟨a', List.mem_cons_of_mem _ ha', hR⟩

lemma exists_of_mem_left {R : α → β → Prop} {as : List α} {bs : List β}
    (h : List.Forall₂ R as bs) {a : α} (ha : a ∈ as) : ∃ b ∈ bs, R a b :=
  exists_of_mem_right (R := flip R) h.flip ha

/-! ### Members -/

namespace Json

lemma presence_some {value : Json} (h : value ≠ .null) : presence (some value) = some value := by
  cases value with
  | null => exact absurd rfl h
  | _ => rfl

/-- What is read from the value is this. -/
def ReadBy (read : Json → Except InterchangeError α) (value : Json) (a : α) : Prop :=
  read value = .ok a

/-- The value is this text. -/
def IsText (value : Json) (text : String) : Prop := value = .string text

/-- The value is this integer of 64 bits. -/
def IsInteger (value : Json) (n : Int) : Prop := value.toSigned? = some n

/-- The value is the name of this, as far as names are known. -/
def Names (ofName? : String → Option α) (value : Json) (a : α) : Prop :=
  ∃ text, value = .string text ∧ ofName? text = some a

/-- The elements of a member that is an array, none if it is absent or null. -/
def elements? (value : Json) (field : String) : Option (List Json) :=
  match presence (value.field? field) with
  | none => some []
  | some member => member.toArray?

variable (value : Json) (field : String) (R : Json → α → Prop)

/-- The value has a member that is related to this. -/
def Has (a : α) : Prop := ∃ member, value.field? field = some member ∧ R member a

/-- The value has a member that is related to this, or none that is not null. -/
def HasOptional (a? : Option α) : Prop := Option.Rel R (presence (value.field? field)) a?

/-- The elements of a member are related to these, one by one. -/
def HasEach (as : List α) : Prop :=
  ∃ elements, value.elements? field = some elements ∧ List.Forall₂ R elements as

end Json

section Members

variable {value : Json} {construct field : String}

lemma requiredString_eq_ok {text : String} :
    requiredString value construct field = .ok text ↔ value.Has field Json.IsText text := by
  rw [requiredString, Json.Has]
  cases hfield : value.field? field with
  | none => simp
  | some member => cases member <;> simp [Json.toString?, Json.IsText]

lemma map_val_part? : (value.part? field).map Subtype.val = value.field? field := by
  rw [Json.part?]
  split
  · rename_i member hfield
    exact hfield.symm
  · rename_i hfield
    exact hfield.symm

/-- A required member that is a name. -/
lemma exists_name {ofName? : String → Option α} {a : α} :
    (∃ text, requiredString value construct field = .ok text ∧ ofName? text = some a) ↔
      value.Has field (Json.Names ofName?) a := by
  simp only [requiredString_eq_ok, Json.Has, Json.IsText, Json.Names]
  constructor
  · rintro ⟨text, ⟨member, hmember, rfl⟩, ha⟩
    exact ⟨_, hmember, text, rfl, ha⟩
  · rintro ⟨member, hmember, text, rfl, ha⟩
    exact ⟨text, ⟨_, hmember, rfl⟩, ha⟩

/-- A required member and what it is related to. -/
lemma exists_required {R : Json → α → Prop} {a : α} :
    (∃ part, required value construct field = .ok part ∧ R part.val a) ↔
      value.Has field R a := by
  rw [Json.Has, ← map_val_part?, required]
  cases value.part? field with
  | none => simp
  | some part => simp

/-- A required member that is read before the rest. -/
lemma required_bind_eq_ok {read : Json → Except InterchangeError α}
    {rest : α → Except InterchangeError β} {b : β} :
    (required value construct field >>= fun part => read part.val >>= rest) = .ok b ↔
      ∃ a, value.Has field (Json.ReadBy read) a ∧ rest a = .ok b := by
  constructor
  · intro h
    obtain ⟨part, hpart, h⟩ := Json.exists_of_bind_eq_ok h
    obtain ⟨a, ha, h⟩ := Json.exists_of_bind_eq_ok h
    exact ⟨a, exists_required.mp ⟨part, hpart, ha⟩, h⟩
  · rintro ⟨a, ha, h⟩
    obtain ⟨part, hpart, ha⟩ := exists_required.mpr ha
    exact bind_eq_ok hpart (bind_eq_ok ha h)

lemma map_val_optional :
    (optional value field).map Subtype.val = Json.presence (value.field? field) := by
  rw [← map_val_part?, optional]
  cases value.part? field with
  | none => rfl
  | some part =>
    obtain ⟨member, hsize⟩ := part
    cases member <;> rfl

/-- An optional member that is read before the rest. -/
lemma optional_bind_eq_ok {read : Json → Except InterchangeError α}
    {rest : Option α → Except InterchangeError β} {b : β} :
    (match optional value field with
      | none => pure none >>= rest
      | some ⟨member, _⟩ => (some <$> read member) >>= rest) = .ok b ↔
      ∃ a?, value.HasOptional field (Json.ReadBy read) a? ∧ rest a? = .ok b := by
  simp only [Json.HasOptional, ← map_val_optional]
  cases optional value field with
  | none =>
    constructor
    · exact fun h => ⟨none, .none, h⟩
    · rintro ⟨_, ⟨⟩, h⟩
      exact h
  | some part =>
    constructor
    · intro h
      obtain ⟨a?, ha, h⟩ := Json.exists_of_bind_eq_ok h
      obtain ⟨a, hread, rfl⟩ := Json.exists_of_map_eq_ok ha
      exact ⟨some a, .some hread, h⟩
    · rintro ⟨_, ⟨ha⟩, h⟩
      exact bind_eq_ok (congrArg (Except.map some) ha) h

lemma optionalInt_eq_ok {n? : Option Int} :
    optionalInt value construct field = .ok n? ↔ value.HasOptional field Json.IsInteger n? := by
  rw [optionalInt, Json.HasOptional, ← map_val_optional]
  cases optional value field with
  | none => cases n? <;> simp
  | some part => cases n? <;> cases h : part.val.toSigned? <;> simp [Json.IsInteger, h]

lemma requiredInt_eq_ok {n : Int} :
    requiredInt value construct field = .ok n ↔ value.Has field Json.IsInteger n := by
  rw [Json.Has, ← map_val_part?, requiredInt, required]
  cases value.part? field with
  | none => simp [bind, Except.bind]
  | some part =>
    cases h : part.val.toSigned? <;>
      simp [bind, Except.bind, pure, Except.pure, throw, throwThe, MonadExceptOf.throw,
        Json.IsInteger, h]

lemma map_val_elements {elements : List Json} (h : sizeOf (Json.array elements) < sizeOf value) :
    (Json.Part.elements elements h).map Subtype.val = elements := by
  rw [Json.Part.elements, List.map_map]
  exact List.attach_map_subtype_val elements

lemma items_eq_ok {elements : List Json} :
    (∃ parts, items value construct field = .ok parts ∧ parts.map Subtype.val = elements) ↔
      value.elements? field = some elements := by
  rw [Json.elements?, ← map_val_optional, items]
  match optional value field with
  | none => simp [eq_comm]
  | some ⟨.array items, hsize⟩ => simp [-List.map_subtype, map_val_elements, Json.toArray?]
  | some ⟨.null, _⟩ | some ⟨.bool _, _⟩ | some ⟨.number _, _⟩ | some ⟨.string _, _⟩
  | some ⟨.object _, _⟩ => simp [Json.toArray?]

lemma mapM_eq_ok {read : α → Except InterchangeError β} {xs : List α} {ys : List β} :
    xs.mapM read = .ok ys ↔ List.Forall₂ (fun x y => read x = .ok y) xs ys := by
  induction xs generalizing ys with
  | nil => cases ys <;> simp [pure, Except.pure]
  | cons x rest ih =>
    rw [List.mapM_cons]
    cases hx : read x with
    | error cause => cases ys <;> simp [bind, Except.bind, hx]
    | ok y =>
      cases hrest : rest.mapM read with
      | error cause => cases ys <;> simp [bind, Except.bind, ← ih, hrest, hx]
      | ok more => cases ys <;> simp [bind, Except.bind, pure, Except.pure, ← ih, hrest, hx]

/-- The elements of a member and what they are related to. -/
lemma exists_items {R : Json → α → Prop} {f : value.Part → Except InterchangeError α}
    (hf : ∀ part a, f part = .ok a ↔ R part.val a) {as : List α} :
    (∃ parts, items value construct field = .ok parts ∧ parts.mapM f = .ok as) ↔
      value.HasEach field R as := by
  have hread (parts : List value.Part) : parts.mapM f = .ok as ↔
      List.Forall₂ R (parts.map Subtype.val) as := by
    rw [mapM_eq_ok, List.forall₂_map_left_iff]
    simp only [hf]
  simp only [hread, Json.HasEach, ← @items_eq_ok value construct field]
  constructor
  · rintro ⟨parts, hparts, has⟩
    exact ⟨_, ⟨parts, hparts, rfl⟩, has⟩
  · rintro ⟨_, ⟨parts, hparts, rfl⟩, has⟩
    exact ⟨parts, hparts, has⟩

/-- The elements of a member that are read before the rest. -/
lemma items_bind_eq_ok {R : Json → α → Prop} {f : value.Part → Except InterchangeError α}
    (hf : ∀ part a, f part = .ok a ↔ R part.val a)
    {rest : List α → Except InterchangeError β} {b : β} :
    (items value construct field >>= fun parts => parts.mapM f >>= rest) = .ok b ↔
      ∃ as, value.HasEach field R as ∧ rest as = .ok b := by
  constructor
  · intro h
    obtain ⟨parts, hparts, h⟩ := Json.exists_of_bind_eq_ok h
    obtain ⟨as, has, h⟩ := Json.exists_of_bind_eq_ok h
    exact ⟨as, (exists_items hf).mp ⟨parts, hparts, has⟩, h⟩
  · rintro ⟨as, has, h⟩
    obtain ⟨parts, hparts, has⟩ := (exists_items hf).mpr has
    exact bind_eq_ok hparts (bind_eq_ok has h)

/-- The elements of a member that one reader reads before the rest. -/
lemma each_bind_eq_ok {read : Json → Except InterchangeError α}
    {rest : List α → Except InterchangeError β} {b : β} :
    (items value construct field >>= fun parts =>
      parts.mapM (fun part => read part.val) >>= rest) = .ok b ↔
      ∃ as, value.HasEach field (Json.ReadBy read) as ∧ rest as = .ok b :=
  items_bind_eq_ok fun _ _ => Iff.rfl

end Members

/-! ### Expressions -/

/-- A member of an object expression, as its reader reads it. -/
def readMember (value : Json) : Except InterchangeError (String × Expression) := do
  let key ← requiredString value "member" "key"
  let part ← required value "member" "value"
  return (key, ← readExpression part.val)

/-- A statement of an extended filter, as its reader reads it. -/
def readFilterStatement (value : Json) : Except InterchangeError FilterStatement := do
  let target ← (← items value "filter statement" "target").mapM fun part => readStep part.val
  return .mk target (flag value "each") (functionName value)
    (← (← items value "filter statement" "arguments").mapM fun part => readExpression part.val)

/-- The form of a member of an object expression. -/
inductive MemberForm (value : Json) : String × Expression → Prop
  | mk {key : String} {e : Expression} (hkey : value.Has "key" Json.IsText key)
      (he : value.Has "value" (Json.ReadBy readExpression) e) : MemberForm value (key, e)

/-- The form of the head of a basic expression. -/
inductive HeadForm (value : Json) : Head → Prop
  | literal {json : Json} (hkind : value.tag? = some "literal")
      (hjson : value.Has "value" Eq json) : HeadForm value (.literal json)
  | group {inner : Expression} (hkind : value.tag? = some "group")
      (hinner : value.Has "expression" (Json.ReadBy readExpression) inner) :
      HeadForm value (.group inner)
  | identifier {name : String} (hkind : value.tag? = some "identifier")
      (hname : value.Has "name" Json.IsText name) : HeadForm value (.identifier name)
  | relative (hkind : value.tag? = some "relative") : HeadForm value .relative
  | function {name : String} {arguments : List Expression}
      (hkind : value.tag? = some "function") (hname : value.Has "name" Json.IsText name)
      (harguments : value.HasEach "arguments" (Json.ReadBy readExpression) arguments) :
      HeadForm value (.function name arguments)
  | array {items : List Expression} (hkind : value.tag? = some "array")
      (hitems : value.HasEach "items" (Json.ReadBy readExpression) items) :
      HeadForm value (.array items)
  | object {members : List (String × Expression)} (hkind : value.tag? = some "object")
      (hmembers : value.HasEach "members" (Json.ReadBy readMember) members) :
      HeadForm value (.object members)

/-- The head of a basic expression has another kind than the other expressions. -/
lemma HeadForm.exists_kind {value : Json} {head : Head} (h : HeadForm value head) :
    ∃ kind, value.tag? = some kind ∧ kind ≠ "binary" ∧ kind ≠ "unary" ∧ kind ≠ "conditional" := by
  cases h <;> exact ⟨_, by assumption, by decide, by decide, by decide⟩

/-- The form of an expression. -/
inductive ExpressionForm (value : Json) : Expression → Prop
  | basic {head : Head} {steps : List Step} {filter : Option Filter}
      {template : Option Expression} (hhead : HeadForm value head)
      (hsteps : value.HasEach "steps" (Json.ReadBy readStep) steps)
      (hfilter : value.HasOptional "filter" (Json.ReadBy readFilter) filter)
      (htemplate : value.HasOptional "subtemplate" (Json.ReadBy readExpression) template)
      (hone : ¬(filter.isSome ∧ template.isSome)) :
      ExpressionForm value (.basic head steps filter template)
  | binary {operator : BinaryOperator} {left right : Expression}
      (hkind : value.tag? = some "binary")
      (hoperator : value.Has "operator" (Json.Names BinaryOperator.ofName?) operator)
      (hleft : value.Has "left" (Json.ReadBy readExpression) left)
      (hright : value.Has "right" (Json.ReadBy readExpression) right) :
      ExpressionForm value (.binary operator left right)
  | unary {operator : UnaryOperator} {operand : Expression} (hkind : value.tag? = some "unary")
      (hoperator : value.Has "operator" (Json.Names UnaryOperator.ofName?) operator)
      (hoperand : value.Has "operand" (Json.ReadBy readExpression) operand) :
      ExpressionForm value (.unary operator operand)
  | conditional {condition consequent alternative : Expression}
      (hkind : value.tag? = some "conditional")
      (hcondition : value.Has "condition" (Json.ReadBy readExpression) condition)
      (hconsequent : value.Has "then" (Json.ReadBy readExpression) consequent)
      (halternative : value.Has "else" (Json.ReadBy readExpression) alternative) :
      ExpressionForm value (.conditional condition consequent alternative)

/-- The form of a step. -/
inductive StepForm (value : Json) : Step → Prop
  | key {name : String} (hkind : value.tag? = some "key")
      (hname : value.Has "key" Json.IsText name) : StepForm value (.key name)
  | index {position : Int} (hkind : value.tag? = some "index")
      (hposition : value.Has "index" Json.IsInteger position) : StepForm value (.index position)
  | wildcard (hkind : value.tag? = some "wildcard") : StepForm value .wildcard
  | slice {start stop stride : Option Int} (hkind : value.tag? = some "slice")
      (hstart : value.HasOptional "from" Json.IsInteger start)
      (hstop : value.HasOptional "to" Json.IsInteger stop)
      (hstride : value.HasOptional "step" Json.IsInteger stride) (hzero : stride ≠ some 0) :
      StepForm value (.slice start stop stride)
  | computed {e : Expression} (hkind : value.tag? = some "expression")
      (he : value.Has "expression" (Json.ReadBy readExpression) e) : StepForm value (.computed e)
  | condition {e : Expression} (hkind : value.tag? = some "condition")
      (he : value.Has "expression" (Json.ReadBy readExpression) e) : StepForm value (.condition e)
  | recursiveKey {name : String} (hkind : value.tag? = some "recursive_key")
      (hname : value.Has "key" Json.IsText name) : StepForm value (.recursiveKey name)
  | recursiveIndex {position : Int} (hkind : value.tag? = some "recursive_index")
      (hposition : value.Has "index" Json.IsInteger position) :
      StepForm value (.recursiveIndex position)
  | recursiveWildcard (hkind : value.tag? = some "recursive_wildcard") :
      StepForm value .recursiveWildcard
  | keyUnion {names : List String} (hkind : value.tag? = some "key_union")
      (hnames : value.HasEach "keys" Json.IsText names) : StepForm value (.keyUnion names)
  | indexUnion {positions : List Int} (hkind : value.tag? = some "index_union")
      (hpositions : value.HasEach "indices" Json.IsInteger positions) :
      StepForm value (.indexUnion positions)
  | finder {name : String} {arguments : List Expression}
      (hkind : value.tag? = some "attribute_finder") (hname : value.Has "name" Json.IsText name)
      (harguments : value.HasEach "arguments" (Json.ReadBy readExpression) arguments) :
      StepForm value (.attribute name arguments)

/-- The form of a filter. -/
inductive FilterForm (value : Json) : Filter → Prop
  | simple {arguments : List Expression} (hkind : value.tag? = some "simple")
      (harguments : value.HasEach "arguments" (Json.ReadBy readExpression) arguments) :
      FilterForm value (.simple (flag value "each") (functionName value) arguments)
  | extended {statements : List FilterStatement} (hkind : value.tag? = some "extended")
      (hstatements : value.HasEach "statements" (Json.ReadBy readFilterStatement) statements) :
      FilterForm value (.extended statements)

/-- The form of a statement of an extended filter. -/
inductive FilterStatementForm (value : Json) : FilterStatement → Prop
  | mk {target : List Step} {arguments : List Expression}
      (htarget : value.HasEach "target" (Json.ReadBy readStep) target)
      (harguments : value.HasEach "arguments" (Json.ReadBy readExpression) arguments) :
      FilterStatementForm value (.mk target (flag value "each") (functionName value) arguments)

/-! ### Readers of expressions -/

section Readers

variable {value : Json}

/-- What is read from a member of an object expression has its form. -/
theorem readMember_eq_ok {member : String × Expression} :
    readMember value = .ok member ↔ MemberForm value member := by
  constructor
  · intro h
    obtain ⟨key, hkey, h⟩ := Json.exists_of_bind_eq_ok h
    obtain ⟨e, he, h⟩ := required_bind_eq_ok.mp h
    obtain rfl := Except.ok.inj h
    exact .mk (requiredString_eq_ok.mp hkey) he
  · rintro ⟨hkey, he⟩
    exact bind_eq_ok (requiredString_eq_ok.mpr hkey) (required_bind_eq_ok.mpr ⟨_, he, rfl⟩)

/-- What is read as a statement of an extended filter has the form. -/
theorem readFilterStatement_eq_ok {statement : FilterStatement} :
    readFilterStatement value = .ok statement ↔ FilterStatementForm value statement := by
  constructor
  · intro h
    obtain ⟨target, htarget, h⟩ := each_bind_eq_ok.mp h
    obtain ⟨arguments, harguments, h⟩ := each_bind_eq_ok.mp h
    obtain rfl := Except.ok.inj h
    exact .mk htarget harguments
  · rintro ⟨htarget, harguments⟩
    exact each_bind_eq_ok.mpr ⟨_, htarget, each_bind_eq_ok.mpr ⟨_, harguments, rfl⟩⟩

lemma tag?_of_getD {kind : String} (h : value.tag?.getD "" = kind) (hkind : kind ≠ "") :
    value.tag? = some kind := by
  cases htag : value.tag? with
  | none =>
    rw [htag] at h
    exact absurd h.symm hkind
  | some tag =>
    rw [htag] at h
    exact congrArg some h

lemma readKey_eq_ok {text : String} :
    (match value.toString? with
      | some s => pure s
      | none => throw .unionKeyNotString : Except InterchangeError String) = .ok text ↔
      value.IsText text := by
  cases value <;> simp [Json.toString?, Json.IsText, pure, Except.pure, throw, throwThe,
    MonadExceptOf.throw]

lemma readIndex_eq_ok {n : Int} :
    (match value.toSigned? with
      | some n => pure n
      | none => throw .unionIndexNotInteger : Except InterchangeError Int) = .ok n ↔
      value.IsInteger n := by
  rw [Json.IsInteger]
  cases value.toSigned? <;> simp [pure, Except.pure, throw, throwThe, MonadExceptOf.throw]

/-- What is read as the head of a basic expression has the form. -/
theorem readHead_eq_ok {kind : String} (hkind : value.tag? = some kind) {head : Head} :
    readHead value kind = .ok head ↔ HeadForm value head := by
  constructor
  · intro h
    unfold readHead at h
    split at h
    case h_1 =>
      obtain ⟨part, hpart, h⟩ := Json.exists_of_bind_eq_ok h
      obtain rfl := Except.ok.inj h
      exact .literal hkind (exists_required.mp ⟨part, hpart, rfl⟩)
    case h_2 =>
      obtain ⟨inner, hinner, h⟩ := required_bind_eq_ok.mp h
      obtain rfl := Except.ok.inj h
      exact .group hkind hinner
    case h_3 =>
      obtain ⟨name, hname, h⟩ := Json.exists_of_bind_eq_ok h
      obtain rfl := Except.ok.inj h
      exact .identifier hkind (requiredString_eq_ok.mp hname)
    case h_4 =>
      obtain rfl := Except.ok.inj h
      exact .relative hkind
    case h_5 =>
      obtain ⟨name, hname, h⟩ := Json.exists_of_bind_eq_ok h
      obtain ⟨arguments, harguments, h⟩ := each_bind_eq_ok.mp h
      obtain rfl := Except.ok.inj h
      exact .function hkind (requiredString_eq_ok.mp hname) harguments
    case h_6 =>
      obtain ⟨items, hitems, h⟩ := each_bind_eq_ok.mp h
      obtain rfl := Except.ok.inj h
      exact .array hkind hitems
    case h_7 =>
      obtain ⟨members, hmembers, h⟩ :=
        (items_bind_eq_ok (R := Json.ReadBy readMember) fun _ _ => Iff.rfl).mp h
      obtain rfl := Except.ok.inj h
      exact .object hkind hmembers
    case h_8 => cases h
  · intro h
    cases h with
    | literal hkind' hjson =>
      obtain rfl := Option.some.inj (hkind.symm.trans hkind')
      obtain ⟨part, hpart, rfl⟩ := exists_required.mpr hjson
      rw [readHead]
      exact bind_eq_ok hpart rfl
    | group hkind' hinner =>
      obtain rfl := Option.some.inj (hkind.symm.trans hkind')
      rw [readHead]
      exact required_bind_eq_ok.mpr ⟨_, hinner, rfl⟩
    | identifier hkind' hname =>
      obtain rfl := Option.some.inj (hkind.symm.trans hkind')
      rw [readHead]
      exact bind_eq_ok (requiredString_eq_ok.mpr hname) rfl
    | relative hkind' =>
      obtain rfl := Option.some.inj (hkind.symm.trans hkind')
      rw [readHead]
      rfl
    | function hkind' hname harguments =>
      obtain rfl := Option.some.inj (hkind.symm.trans hkind')
      rw [readHead]
      exact bind_eq_ok (requiredString_eq_ok.mpr hname)
        (each_bind_eq_ok.mpr ⟨_, harguments, rfl⟩)
    | array hkind' hitems =>
      obtain rfl := Option.some.inj (hkind.symm.trans hkind')
      rw [readHead]
      exact each_bind_eq_ok.mpr ⟨_, hitems, rfl⟩
    | object hkind' hmembers =>
      obtain rfl := Option.some.inj (hkind.symm.trans hkind')
      rw [readHead]
      exact (items_bind_eq_ok fun _ _ => Iff.rfl).mpr ⟨_, hmembers, rfl⟩

/-- What is read as an expression has the form. -/
theorem readExpression_eq_ok {e : Expression} :
    readExpression value = .ok e ↔ ExpressionForm value e := by
  constructor
  · intro h
    unfold readExpression at h
    split at h
    case h_2 => cases h
    case h_1 kind hkind =>
      split at h
      case h_1 =>
        obtain ⟨name, hname, h⟩ := Json.exists_of_bind_eq_ok h
        split at h
        case h_2 => cases h
        case h_1 operator hoperator =>
          obtain ⟨left, hleft, h⟩ := required_bind_eq_ok.mp h
          obtain ⟨right, hright, h⟩ := required_bind_eq_ok.mp h
          obtain rfl := Except.ok.inj h
          exact .binary hkind (exists_name.mp ⟨name, hname, hoperator⟩) hleft hright
      case h_2 =>
        obtain ⟨name, hname, h⟩ := Json.exists_of_bind_eq_ok h
        split at h
        case h_2 => cases h
        case h_1 operator hoperator =>
          obtain ⟨operand, hoperand, h⟩ := required_bind_eq_ok.mp h
          obtain rfl := Except.ok.inj h
          exact .unary hkind (exists_name.mp ⟨name, hname, hoperator⟩) hoperand
      case h_3 =>
        obtain ⟨condition, hcondition, h⟩ := required_bind_eq_ok.mp h
        obtain ⟨consequent, hconsequent, h⟩ := required_bind_eq_ok.mp h
        obtain ⟨alternative, halternative, h⟩ := required_bind_eq_ok.mp h
        obtain rfl := Except.ok.inj h
        exact .conditional hkind hcondition hconsequent halternative
      case h_4 =>
        obtain ⟨head, hhead, h⟩ := Json.exists_of_bind_eq_ok h
        obtain ⟨steps, hsteps, h⟩ := each_bind_eq_ok.mp h
        obtain ⟨filter, hfilter, h⟩ := optional_bind_eq_ok.mp h
        obtain ⟨template, htemplate, h⟩ := optional_bind_eq_ok.mp h
        simp only at h
        split at h
        case isTrue => cases h
        case isFalse hone =>
          obtain rfl := Except.ok.inj h
          rw [Bool.and_eq_true] at hone
          exact .basic ((readHead_eq_ok hkind).mp hhead) hsteps hfilter htemplate hone
  · intro h
    unfold readExpression
    cases h with
    | binary hkind hoperator hleft hright =>
      obtain ⟨name, hname, hoperator⟩ := exists_name.mpr hoperator
      simp only [hkind]
      refine bind_eq_ok hname ?_
      simp only [hoperator]
      exact required_bind_eq_ok.mpr ⟨_, hleft, required_bind_eq_ok.mpr ⟨_, hright, rfl⟩⟩
    | unary hkind hoperator hoperand =>
      obtain ⟨name, hname, hoperator⟩ := exists_name.mpr hoperator
      simp only [hkind]
      refine bind_eq_ok hname ?_
      simp only [hoperator]
      exact required_bind_eq_ok.mpr ⟨_, hoperand, rfl⟩
    | conditional hkind hcondition hconsequent halternative =>
      simp only [hkind]
      refine required_bind_eq_ok.mpr ⟨_, hcondition, ?_⟩
      refine required_bind_eq_ok.mpr ⟨_, hconsequent, ?_⟩
      exact required_bind_eq_ok.mpr ⟨_, halternative, rfl⟩
    | basic hhead hsteps hfilter htemplate hone =>
      obtain ⟨kind, hkind, hbinary, hunary, hconditional⟩ := hhead.exists_kind
      rw [Bool.and_eq_true_iff.symm.not] at hone
      simp only [hkind]
      refine bind_eq_ok ((readHead_eq_ok hkind).mpr hhead) ?_
      refine each_bind_eq_ok.mpr ⟨_, hsteps, ?_⟩
      refine optional_bind_eq_ok.mpr ⟨_, hfilter, optional_bind_eq_ok.mpr ⟨_, htemplate, ?_⟩⟩
      exact if_neg hone

/-- What is read as a step has the form. -/
theorem readStep_eq_ok {step : Step} : readStep value = .ok step ↔ StepForm value step := by
  constructor
  · intro h
    unfold readStep at h
    simp only at h
    split at h
    case h_1 hkind =>
      obtain ⟨name, hname, h⟩ := Json.exists_of_bind_eq_ok h
      obtain rfl := Except.ok.inj h
      exact .key (tag?_of_getD hkind (by decide)) (requiredString_eq_ok.mp hname)
    case h_2 hkind =>
      obtain ⟨position, hposition, h⟩ := Json.exists_of_bind_eq_ok h
      obtain rfl := Except.ok.inj h
      exact .index (tag?_of_getD hkind (by decide)) (requiredInt_eq_ok.mp hposition)
    case h_3 hkind =>
      obtain rfl := Except.ok.inj h
      exact .wildcard (tag?_of_getD hkind (by decide))
    case h_4 hkind =>
      obtain ⟨stride, hstride, h⟩ := Json.exists_of_bind_eq_ok h
      split at h
      case isTrue => cases h
      case isFalse hzero =>
        obtain ⟨start, hstart, h⟩ := Json.exists_of_bind_eq_ok h
        obtain ⟨stop, hstop, h⟩ := Json.exists_of_bind_eq_ok h
        obtain rfl := Except.ok.inj h
        exact .slice (tag?_of_getD hkind (by decide)) (optionalInt_eq_ok.mp hstart)
          (optionalInt_eq_ok.mp hstop) (optionalInt_eq_ok.mp hstride) hzero
    case h_5 hkind =>
      obtain ⟨e, he, h⟩ := required_bind_eq_ok.mp h
      obtain rfl := Except.ok.inj h
      exact .computed (tag?_of_getD hkind (by decide)) he
    case h_6 hkind =>
      obtain ⟨e, he, h⟩ := required_bind_eq_ok.mp h
      obtain rfl := Except.ok.inj h
      exact .condition (tag?_of_getD hkind (by decide)) he
    case h_7 hkind =>
      obtain ⟨name, hname, h⟩ := Json.exists_of_bind_eq_ok h
      obtain rfl := Except.ok.inj h
      exact .recursiveKey (tag?_of_getD hkind (by decide)) (requiredString_eq_ok.mp hname)
    case h_8 hkind =>
      obtain ⟨position, hposition, h⟩ := Json.exists_of_bind_eq_ok h
      obtain rfl := Except.ok.inj h
      exact .recursiveIndex (tag?_of_getD hkind (by decide)) (requiredInt_eq_ok.mp hposition)
    case h_9 hkind =>
      obtain rfl := Except.ok.inj h
      exact .recursiveWildcard (tag?_of_getD hkind (by decide))
    case h_10 hkind =>
      obtain ⟨names, hnames, h⟩ := (items_bind_eq_ok fun _ _ => readKey_eq_ok).mp h
      obtain rfl := Except.ok.inj h
      exact .keyUnion (tag?_of_getD hkind (by decide)) hnames
    case h_11 hkind =>
      obtain ⟨positions, hpositions, h⟩ := (items_bind_eq_ok fun _ _ => readIndex_eq_ok).mp h
      obtain rfl := Except.ok.inj h
      exact .indexUnion (tag?_of_getD hkind (by decide)) hpositions
    case h_12 hkind =>
      obtain ⟨name, hname, h⟩ := Json.exists_of_bind_eq_ok h
      obtain ⟨arguments, harguments, h⟩ := each_bind_eq_ok.mp h
      obtain rfl := Except.ok.inj h
      exact .finder (tag?_of_getD hkind (by decide)) (requiredString_eq_ok.mp hname) harguments
    case h_13 => cases h
  · intro h
    unfold readStep
    cases h with
    | key hkind hname =>
      simp only [hkind, Option.getD_some]
      exact bind_eq_ok (requiredString_eq_ok.mpr hname) rfl
    | index hkind hposition =>
      simp only [hkind, Option.getD_some]
      exact bind_eq_ok (requiredInt_eq_ok.mpr hposition) rfl
    | wildcard hkind =>
      simp only [hkind, Option.getD_some]
      rfl
    | slice hkind hstart hstop hstride hzero =>
      simp only [hkind, Option.getD_some]
      refine bind_eq_ok (optionalInt_eq_ok.mpr hstride) ?_
      rw [if_neg hzero]
      exact bind_eq_ok (optionalInt_eq_ok.mpr hstart)
        (bind_eq_ok (optionalInt_eq_ok.mpr hstop) rfl)
    | computed hkind he | condition hkind he =>
      simp only [hkind, Option.getD_some]
      exact required_bind_eq_ok.mpr ⟨_, he, rfl⟩
    | recursiveKey hkind hname =>
      simp only [hkind, Option.getD_some]
      exact bind_eq_ok (requiredString_eq_ok.mpr hname) rfl
    | recursiveIndex hkind hposition =>
      simp only [hkind, Option.getD_some]
      exact bind_eq_ok (requiredInt_eq_ok.mpr hposition) rfl
    | recursiveWildcard hkind =>
      simp only [hkind, Option.getD_some]
      rfl
    | keyUnion hkind hnames =>
      simp only [hkind, Option.getD_some]
      exact (items_bind_eq_ok fun _ _ => readKey_eq_ok).mpr ⟨_, hnames, rfl⟩
    | indexUnion hkind hpositions =>
      simp only [hkind, Option.getD_some]
      exact (items_bind_eq_ok fun _ _ => readIndex_eq_ok).mpr ⟨_, hpositions, rfl⟩
    | finder hkind hname harguments =>
      simp only [hkind, Option.getD_some]
      exact bind_eq_ok (requiredString_eq_ok.mpr hname)
        (each_bind_eq_ok.mpr ⟨_, harguments, rfl⟩)

/-- What is read as a filter has the form. -/
theorem readFilter_eq_ok {filter : Filter} :
    readFilter value = .ok filter ↔ FilterForm value filter := by
  constructor
  · intro h
    unfold readFilter at h
    simp only at h
    split at h
    case h_1 hkind =>
      obtain ⟨arguments, harguments, h⟩ := each_bind_eq_ok.mp h
      obtain rfl := Except.ok.inj h
      exact .simple (tag?_of_getD hkind (by decide)) harguments
    case h_2 hkind =>
      obtain ⟨statements, hstatements, h⟩ :=
        (items_bind_eq_ok (R := Json.ReadBy readFilterStatement) fun _ _ => Iff.rfl).mp h
      obtain rfl := Except.ok.inj h
      exact .extended (tag?_of_getD hkind (by decide)) hstatements
    case h_3 => cases h
  · intro h
    unfold readFilter
    cases h with
    | simple hkind harguments =>
      simp only [hkind, Option.getD_some]
      exact each_bind_eq_ok.mpr ⟨_, harguments, rfl⟩
    | extended hkind hstatements =>
      simp only [hkind, Option.getD_some]
      exact (items_bind_eq_ok fun _ _ => Iff.rfl).mpr ⟨_, hstatements, rfl⟩

end Readers

end Verdict
