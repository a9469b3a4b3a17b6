/-
Records with known fields, read from JSON.

A record is an object with the fields as members, in any order and beside
unknown members, or an array with the fields in their order, of which the last
ones may be left out.  A known member must not repeat.

* `Json.record?`: the values of the fields, each absent or present.
* `Json.unit?`: the name of an enumeration value.
-/
import Verdict.Json.Basic

namespace Verdict
namespace Json

/-- The value of a field among members, refused if it repeats. -/
def uniqueMember? (field : String) (members : List (String × Json)) : Option (Option Json) :=
  match members.filter fun (key, _) => key == field with
  | [] => some none
  | [(_, value)] => some (some value.merged)
  | _ => none

/-- The values of the fields of a record, in the order of the fields. -/
def record? (fields : List String) : Json → Option (List (Option Json))
  | .object members => fields.mapM fun field => uniqueMember? field members
  | .array items =>
    if fields.length < items.length then none
    else some ((List.range fields.length).map fun i => (items[i]?).map merged)
  | _ => none

/-- The name of an enumeration value: a string, or an object whose only member
has that name and holds null. -/
def unit? : Json → Option String
  | .string name => some name
  | .object [(name, .null)] => some name
  | _ => none

/-- An optional field: null counts as absent. -/
def presence : Option Json → Option Json
  | some .null => none
  | other => other

end Json
end Verdict
