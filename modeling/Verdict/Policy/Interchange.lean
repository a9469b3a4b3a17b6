/-
Reading policy documents from their JSON form.

Every construct is an object whose member `kind` says what it is.  Members that
a construct does not read are ignored; an optional member that is null counts
as absent.

* `InterchangeError`, `InterchangeError.message`: why a document is refused.
* `Json.part?`, `required`, `items`: the members of a construct, each with the
  fact that it is smaller than the construct.
* `readExpression`, `readStep`, `readFilter`: the trees of an expression.
* `readPolicy`, `readPolicySet`, `readDocument`, `readBundle`: documents.
-/
import Verdict.Policy.Document

namespace Verdict

/-- Why a policy document is refused. -/
inductive InterchangeError where
  /-- A construct lacks a member that it needs. -/
  | missingField (construct field : String)
  /-- A tag that no construct of the category uses. -/
  | unknownKind (category kind : String)
  | unknownEntitlement (policy text : String)
  | unknownAlgorithm (set text : String)
  /-- A variable of the owner has the name of an element of the subscription. -/
  | shadowedElement (construct owner name : String)
  | duplicatePolicy (set policy : String)
  /-- A member that has to be an array is something else. -/
  | notAnArray (construct field : String)
  /-- A member that has to be an integer is something else. -/
  | notAnInteger (construct field : String)
  | unionKeyNotString
  | unionIndexNotInteger
  | zeroStride
  | filterAndTemplate (kind : String)
  /-- A bundle is neither a document nor an array of documents. -/
  | notADocument
  deriving DecidableEq, Repr

/-- The wording of a refusal. -/
def InterchangeError.message : InterchangeError → String
  | missingField construct field => construct ++ " missing required field: '" ++ field ++ "'"
  | unknownKind category kind => "unknown " ++ category ++ " kind '" ++ kind ++ "'"
  | unknownEntitlement policy text =>
    "policy '" ++ policy ++ "': unknown entitlement '" ++ text ++ "'"
  | unknownAlgorithm set text =>
    "policy_set '" ++ set ++ "': unknown combining algorithm '" ++ text ++ "'"
  | shadowedElement construct owner name =>
    construct ++ " '" ++ owner ++ "': variable '" ++ name ++ "' shadows a subscription element"
  | duplicatePolicy set policy =>
    "policy_set '" ++ set ++ "': duplicate policy name '" ++ policy ++ "'"
  | notAnArray construct field =>
    "invalid document: " ++ construct ++ " field '" ++ field ++ "' must be an array"
  | notAnInteger construct field =>
    "invalid document: " ++ construct ++ " '" ++ field ++ "' must be an integer"
  | unionKeyNotString => "invalid document: key_union keys must be strings"
  | unionIndexNotInteger => "invalid document: index_union indices must be integers"
  | zeroStride => "invalid document: slice step must not be zero"
  | filterAndTemplate kind =>
    "invalid document: " ++ kind ++ " expression declares both a filter and a sub-template"
  | notADocument =>
    "invalid document: expected a document object or an array of documents"

/-! ### The members of a construct -/

/-- A value found under a key is smaller than the list it was found in. -/
theorem Json.sizeOf_lookup_lt {key : String} {w : Json} :
    ∀ {members : List (String × Json)}, List.lookup key members = some w →
      sizeOf w < sizeOf members
  | (k, v) :: rest, h => by
    rw [List.lookup_cons] at h
    split at h
    · cases h
      simp only [List.cons.sizeOf_spec, Prod.mk.sizeOf_spec]
      omega
    · have := sizeOf_lookup_lt h
      simp only [List.cons.sizeOf_spec]
      omega

/-- The value of a member is smaller than the value it belongs to. -/
theorem Json.sizeOf_field_lt {value w : Json} {key : String} (h : value.field? key = some w) :
    sizeOf w < sizeOf value := by
  cases value with
  | object members =>
    have := sizeOf_lookup_lt (h : List.lookup key members = some w)
    simp only [Json.object.sizeOf_spec]
    omega
  | _ => simp [field?, toObject?] at h

/-- A part of a JSON value. -/
abbrev Json.Part (whole : Json) : Type := { part : Json // sizeOf part < sizeOf whole }

/-- The value of a member, as a part of the value it belongs to. -/
def Json.part? (value : Json) (key : String) : Option (Json.Part value) :=
  match h : value.field? key with
  | some w => some ⟨w, sizeOf_field_lt h⟩
  | none => none

/-- The elements of a part, as parts of the whole. -/
def Json.Part.elements {whole : Json} (items : List Json)
    (h : sizeOf (Json.array items) < sizeOf whole) : List (Json.Part whole) :=
  items.attach.map fun ⟨item, mem⟩ => ⟨item, by
    have := List.sizeOf_lt_of_mem mem
    simp only [Json.array.sizeOf_spec] at h
    omega⟩

/-- The tag of a construct. -/
def Json.tag? (value : Json) : Option String := (value.field? "kind").bind Json.toString?

/-- A member that has to be a string. -/
def requiredString (value : Json) (construct field : String) :
    Except InterchangeError String :=
  match (value.field? field).bind Json.toString? with
  | some s => .ok s
  | none => .error (.missingField construct field)

/-- A member that has to be there. -/
def required (value : Json) (construct field : String) :
    Except InterchangeError (Json.Part value) :=
  match value.part? field with
  | some part => .ok part
  | none => .error (.missingField construct field)

/-- A member that may be absent or null. -/
def optional (value : Json) (field : String) : Option (Json.Part value) :=
  match value.part? field with
  | some ⟨.null, _⟩ => none
  | other => other

/-- The elements of a member that has to be an array; absent or null is empty. -/
def items (value : Json) (construct field : String) :
    Except InterchangeError (List (Json.Part value)) :=
  match optional value field with
  | none => .ok []
  | some ⟨.array elements, h⟩ => .ok (Json.Part.elements elements h)
  | some _ => .error (.notAnArray construct field)

/-- A member that has to be an integer of 64 bits. -/
def requiredInt (value : Json) (construct field : String) : Except InterchangeError Int := do
  match (← required value construct field).val.toSigned? with
  | some n => return n
  | none => throw (.notAnInteger construct field)

/-- A member that is an integer of 64 bits, absent or null. -/
def optionalInt (value : Json) (construct field : String) :
    Except InterchangeError (Option Int) :=
  match optional value field with
  | none => .ok none
  | some part =>
    match part.val.toSigned? with
    | some n => .ok (some n)
    | none => .error (.notAnInteger construct field)

/-- A member that is a boolean; anything else counts as false. -/
def flag (value : Json) (field : String) : Bool :=
  ((value.field? field).bind Json.toBool?).getD false

/-- The function named by a filter; anything but a string counts as no name. -/
def functionName (value : Json) : String :=
  ((value.field? "function").bind Json.toString?).getD ""

/-! ### Expressions -/

mutual

/-- An expression. -/
def readExpression (value : Json) : Except InterchangeError Expression := do
  let some kind := value.tag? | throw (.missingField "expression" "kind")
  match kind with
  | "binary" =>
    let name ← requiredString value "binary" "operator"
    let some operator := BinaryOperator.ofName? name
      | throw (.unknownKind "binary operator" name)
    let ⟨left, _⟩ ← required value "binary" "left"
    let left ← readExpression left
    let ⟨right, _⟩ ← required value "binary" "right"
    return .binary operator left (← readExpression right)
  | "unary" =>
    let name ← requiredString value "unary" "operator"
    let some operator := UnaryOperator.ofName? name
      | throw (.unknownKind "unary operator" name)
    let ⟨operand, _⟩ ← required value "unary" "operand"
    return .unary operator (← readExpression operand)
  | "conditional" =>
    let ⟨condition, _⟩ ← required value "conditional" "condition"
    let condition ← readExpression condition
    let ⟨consequent, _⟩ ← required value "conditional" "then"
    let consequent ← readExpression consequent
    let ⟨alternative, _⟩ ← required value "conditional" "else"
    return .conditional condition consequent (← readExpression alternative)
  | _ =>
    let head ← readHead value kind
    let steps ← (← items value kind "steps").mapM fun ⟨step, _⟩ => readStep step
    let filter ← match optional value "filter" with
      | none => pure none
      | some ⟨filter, _⟩ => some <$> readFilter filter
    let template ← match optional value "subtemplate" with
      | none => pure none
      | some ⟨template, _⟩ => some <$> readExpression template
    if filter.isSome && template.isSome then throw (.filterAndTemplate kind)
    return .basic head steps filter template
  termination_by (sizeOf value, 1)

/-- The head of a basic expression of the given kind. -/
def readHead (value : Json) (kind : String) : Except InterchangeError Head := do
  match kind with
  | "literal" => return .literal (← required value kind "value").val
  | "group" =>
    let ⟨inner, _⟩ ← required value kind "expression"
    return .group (← readExpression inner)
  | "identifier" => return .identifier (← requiredString value kind "name")
  | "relative" => return .relative
  | "function" =>
    let name ← requiredString value kind "name"
    return .function name
      (← (← items value kind "arguments").mapM fun ⟨e, _⟩ => readExpression e)
  | "array" =>
    return .array (← (← items value kind "items").mapM fun ⟨e, _⟩ => readExpression e)
  | "object" =>
    return .object (← (← items value kind "members").mapM fun ⟨m, _⟩ => do
      let key ← requiredString m "member" "key"
      let ⟨e, _⟩ ← required m "member" "value"
      return (key, ← readExpression e))
  | _ => throw (.unknownKind "expression" kind)
  termination_by (sizeOf value, 0)

/-- A step. -/
def readStep (value : Json) : Except InterchangeError Step := do
  let kind := value.tag?.getD ""
  match kind with
  | "key" => return .key (← requiredString value kind "key")
  | "index" => return .index (← requiredInt value kind "index")
  | "wildcard" => return .wildcard
  | "slice" =>
    let stride ← optionalInt value kind "step"
    if stride = some 0 then throw .zeroStride
    let start ← optionalInt value kind "from"
    return .slice start (← optionalInt value kind "to") stride
  | "expression" =>
    let ⟨e, _⟩ ← required value kind "expression"
    return .computed (← readExpression e)
  | "condition" =>
    let ⟨e, _⟩ ← required value kind "expression"
    return .condition (← readExpression e)
  | "recursive_key" => return .recursiveKey (← requiredString value kind "key")
  | "recursive_index" => return .recursiveIndex (← requiredInt value kind "index")
  | "recursive_wildcard" => return .recursiveWildcard
  | "key_union" =>
    return .keyUnion (← (← items value kind "keys").mapM fun key =>
      match key.val.toString? with
      | some s => pure s
      | none => throw .unionKeyNotString)
  | "index_union" =>
    return .indexUnion (← (← items value kind "indices").mapM fun index =>
      match index.val.toSigned? with
      | some n => pure n
      | none => throw .unionIndexNotInteger)
  | "attribute_finder" =>
    let name ← requiredString value kind "name"
    return .attribute name
      (← (← items value kind "arguments").mapM fun ⟨e, _⟩ => readExpression e)
  | _ => throw (.unknownKind "step" kind)
  termination_by (sizeOf value, 0)

/-- A filter. -/
def readFilter (value : Json) : Except InterchangeError Filter := do
  let kind := value.tag?.getD ""
  match kind with
  | "simple" =>
    return .simple (flag value "each") (functionName value)
      (← (← items value kind "arguments").mapM fun ⟨e, _⟩ => readExpression e)
  | "extended" =>
    return .extended (← (← items value kind "statements").mapM fun ⟨s, _⟩ => do
      let target ← (← items s "filter statement" "target").mapM fun ⟨step, _⟩ => readStep step
      return .mk target (flag s "each") (functionName s)
        (← (← items s "filter statement" "arguments").mapM fun ⟨e, _⟩ => readExpression e))
  | _ => throw (.unknownKind "filter" kind)
  termination_by (sizeOf value, 0)

end

/-- An expression that may be absent or null. -/
def optionalExpression (value : Json) (field : String) :
    Except InterchangeError (Option Expression) :=
  match optional value field with
  | none => .ok none
  | some part => some <$> readExpression part.val

/-- The expressions of a member that is an array. -/
def expressions (value : Json) (construct field : String) :
    Except InterchangeError (List Expression) := do
  (← items value construct field).mapM fun part => readExpression part.val

/-! ### Documents -/

/-- Refuses a variable with the name of an element of the subscription. -/
def checkVariable (construct owner : String) (definition : VariableDefinition) :
    Except InterchangeError Unit :=
  if definition.name ∈ reservedNames then
    .error (.shadowedElement construct owner definition.name)
  else .ok ()

/-- A variable definition. -/
def readVariable (value : Json) : Except InterchangeError VariableDefinition := do
  let name ← requiredString value "variable" "name"
  return ⟨name, ← readExpression (← required value "variable" "expression").val⟩

/-- A statement of the body of a policy. -/
def readStatement (policy : String) (value : Json) : Except InterchangeError Statement := do
  let kind := value.tag?.getD ""
  match kind with
  | "condition" =>
    return .condition (← readExpression (← required value "condition" "expression").val)
  | "variable" =>
    let definition ← readVariable value
    checkVariable "policy" policy definition
    return .define definition
  | _ => throw (.unknownKind "statement" kind)

/-- The entitlement of a word. -/
def Entitlement.ofName? (name : String) : Option Entitlement :=
  [Entitlement.permit, .deny].find? fun e => e.name == name

/-- A policy. -/
def readPolicy (value : Json) : Except InterchangeError Policy := do
  let name ← requiredString value "policy" "name"
  let text ← requiredString value "policy" "entitlement"
  let some entitlement := Entitlement.ofName? text | throw (.unknownEntitlement name text)
  let body ← (← items value "policy" "body").mapM fun part => readStatement name part.val
  let target ← optionalExpression value "target"
  let obligations ← expressions value "policy" "obligations"
  let advice ← expressions value "policy" "advice"
  let transformation ← optionalExpression value "transformation"
  return { name, entitlement, target, body, obligations, advice, transformation }

/-- The policies of a set, refused at the first name that repeats. -/
def readPolicies (set : String) : List Json → List String →
    Except InterchangeError (List Policy)
  | [], _ => .ok []
  | value :: rest, seen => do
    let policy ← readPolicy value
    if policy.name ∈ seen then throw (.duplicatePolicy set policy.name)
    return policy :: (← readPolicies set rest (policy.name :: seen))

/-- A policy set. -/
def readPolicySet (value : Json) : Except InterchangeError PolicySet := do
  let name ← requiredString value "policy_set" "name"
  let text ← requiredString value "policy_set" "algorithm"
  let some algorithm := CombiningAlgorithm.ofName? text | throw (.unknownAlgorithm name text)
  let definitions ← (← items value "policy_set" "variables").mapM fun part => do
    let definition ← readVariable part.val
    checkVariable "policy_set" name definition
    return definition
  let parts ← items value "policy_set" "policies"
  let policies ← readPolicies name (parts.map Subtype.val) []
  let target ← optionalExpression value "target"
  let obligations ← expressions value "policy_set" "obligations"
  let advice ← expressions value "policy_set" "advice"
  return { name, algorithm, target, definitions, policies, obligations, advice }

/-- A document: a policy or a policy set. -/
def readDocument (value : Json) : Except InterchangeError PolicyDocument :=
  match value.tag?.getD "" with
  | "policy" => .policy <$> readPolicy value
  | "policy_set" => .set <$> readPolicySet value
  | "" => .error (.missingField "document" "kind")
  | kind => .error (.unknownKind "document" kind)

/-- A bundle: one document or an array of documents. -/
def readBundle (value : Json) : Except InterchangeError (List PolicyDocument) :=
  match value with
  | .array documents => documents.mapM readDocument
  | .object _ => (fun d => [d]) <$> readDocument value
  | _ => .error .notADocument

end Verdict
