/-
JSON values with ordered members.

An object keeps its members in the order in which they were written.  Equality
of values does not look at that order, so it is a function of its own and not
equality of the data.

* `Json`: the values.
* `Json.same`: structural equality, without regard to the order of members.
* `Json.HasDistinctKeys`: no object in the value names a member twice.
* `Json.setMember`, `Json.merged`: a later member of one name takes the place
  of the earlier one.
* `Json.kind`, `Json.field?` and the readers of each kind.
-/
import Verdict.Number.Basic

namespace Verdict

/-- A JSON value. -/
inductive Json where
  | null
  | bool (value : Bool)
  | number (value : Number)
  | string (value : String)
  | array (items : List Json)
  | object (members : List (String × Json))

namespace Json

instance : Inhabited Json := ⟨.null⟩

/-! ### Kinds -/

/-- The name of the kind of a value, as messages spell it. -/
def kind : Json → String
  | .null => "null"
  | .bool _ => "boolean"
  | .number _ => "number"
  | .string _ => "string"
  | .array _ => "array"
  | .object _ => "object"

/-- An integer as a value. -/
def ofInt (n : Int) : Json := .number (.integer n)

/-- A natural as a value. -/
def ofNat (n : Nat) : Json := .number (.integer n)

def toBool? : Json → Option Bool
  | .bool b => some b
  | _ => none

def toNumber? : Json → Option Number
  | .number n => some n
  | _ => none

def toString? : Json → Option String
  | .string s => some s
  | _ => none

def toArray? : Json → Option (List Json)
  | .array items => some items
  | _ => none

def toObject? : Json → Option (List (String × Json))
  | .object members => some members
  | _ => none

/-- The value as a signed 64-bit integer. -/
def toSigned? (value : Json) : Option Int := value.toNumber?.bind Number.toSigned?

/-- The value as an unsigned 64-bit integer. -/
def toUnsigned? (value : Json) : Option Nat := value.toNumber?.bind Number.toUnsigned?

/-- The value of a member, if the value is an object that has it. -/
def field? (value : Json) (key : String) : Option Json :=
  value.toObject?.bind (List.lookup key)

/-! ### Equality -/

mutual

/-- Structural equality: members in any order, integers apart from doubles. -/
def same : Json → Json → Bool
  | .null, .null => true
  | .bool a, .bool b => a == b
  | .number a, .number b => a.same b
  | .string a, .string b => a == b
  | .array as, .array bs => sameItems as bs
  | .object as, .object bs => as.length == bs.length && sameMembers as bs
  | _, _ => false

/-- Structural equality of two lists, place by place. -/
def sameItems : List Json → List Json → Bool
  | [], [] => true
  | a :: as, b :: bs => same a b && sameItems as bs
  | _, _ => false

/-- Whether every member on the left has an equal one of its name on the right. -/
def sameMembers : List (String × Json) → List (String × Json) → Bool
  | [], _ => true
  | (key, a) :: as, bs =>
    (match List.lookup key bs with
      | some b => same a b
      | none => false) && sameMembers as bs

end

/-- Equality of policy values: numbers by decimal value, other kinds
structurally. -/
def equalByValue : Json → Json → Bool
  | .number a, .number b => a.equalByValue b
  | a, b => a.same b

/-! ### Members -/

/-- Gives the member `key` a value: in its place if it is there, at the end
otherwise. -/
def setMember (key : String) (value : Json) : List (String × Json) → List (String × Json)
  | [] => [(key, value)]
  | (k, v) :: rest => if k = key then (k, value) :: rest else (k, v) :: setMember key value rest

/-- Members without repetition: the first place and the last value of each name. -/
def distinctMembers (members : List (String × Json)) : List (String × Json) :=
  members.foldl (fun done (key, value) => setMember key value done) []

mutual

/-- No object within the value names a member twice. -/
def HasDistinctKeys : Json → Prop
  | .array items => ItemsDistinct items
  | .object members => (members.map Prod.fst).Nodup ∧ MembersDistinct members
  | _ => True

def ItemsDistinct : List Json → Prop
  | [] => True
  | item :: rest => HasDistinctKeys item ∧ ItemsDistinct rest

def MembersDistinct : List (String × Json) → Prop
  | [] => True
  | (_, value) :: rest => HasDistinctKeys value ∧ MembersDistinct rest

end

mutual

/-- The value with repeated members merged at every depth. -/
def merged : Json → Json
  | .array items => .array (mergedItems items)
  | .object members => .object (distinctMembers (mergedMembers members))
  | value => value

def mergedItems : List Json → List Json
  | [] => []
  | item :: rest => merged item :: mergedItems rest

def mergedMembers : List (String × Json) → List (String × Json)
  | [] => []
  | (key, value) :: rest => (key, merged value) :: mergedMembers rest

end

end Json
end Verdict
