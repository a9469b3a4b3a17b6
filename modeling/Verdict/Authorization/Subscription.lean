/-
Authorization subscriptions: what a decision is asked for.

* `AuthorizationSubscription`: who does what to which resource, and where.
* `MultiSubscription`: several subscriptions under ids of the caller's choice.
* `toJson`, `ofJson?`: the forms on the wire.
-/
import Verdict.Json.Record

namespace Verdict

/-- The four elements that a decision is asked for. -/
structure AuthorizationSubscription where
  subject : Json
  action : Json
  resource : Json
  environment : Option Json := none

instance : Inhabited AuthorizationSubscription := ⟨⟨.null, .null, .null, none⟩⟩

namespace AuthorizationSubscription

/-- The form on the wire. -/
def toJson (s : AuthorizationSubscription) : Json :=
  .object ([("subject", s.subject), ("action", s.action), ("resource", s.resource)] ++
    match s.environment with
    | some e => [("environment", e)]
    | none => [])

/-- The fields of a subscription. -/
def fields : List String := ["subject", "action", "resource", "environment"]

/-- A subscription from the wire; an environment that is null counts as absent. -/
def ofJson? (value : Json) : Option AuthorizationSubscription := do
  match ← value.record? fields with
  | [some subject, some action, some resource, environment] =>
    return { subject, action, resource, environment := Json.presence environment }
  | _ => none

end AuthorizationSubscription

/-- Subscriptions under distinct ids in ascending order. -/
structure MultiSubscription where
  subscriptions : List (String × AuthorizationSubscription)

namespace MultiSubscription

/-- A subscription under an id, in its place, instead of an earlier one. -/
def insert (id : String) (s : AuthorizationSubscription) :
    List (String × AuthorizationSubscription) → List (String × AuthorizationSubscription)
  | [] => [(id, s)]
  | (i, t) :: rest =>
    if id < i then (id, s) :: (i, t) :: rest
    else if id = i then (id, s) :: rest
    else (i, t) :: insert id s rest

/-- Subscriptions in any order, the last one of each id. -/
def ofList (subscriptions : List (String × AuthorizationSubscription)) : MultiSubscription :=
  ⟨subscriptions.foldl (fun done (id, s) => insert id s done) []⟩

/-- The subscriptions of the members of an object. -/
def ofMembers? (members : List (String × Json)) : Option MultiSubscription := do
  return ofList (← members.mapM fun (id, value) => do
    return (id, ← AuthorizationSubscription.ofJson? value))

/-- The form on the wire. -/
def toJson (m : MultiSubscription) : Json :=
  .object [("subscriptions", .object (m.subscriptions.map fun (id, s) => (id, s.toJson)))]

/-- Subscriptions from the wire. -/
def ofJson? (value : Json) : Option MultiSubscription := do
  match ← value.record? ["subscriptions"] with
  | [some (.object members)] => ofMembers? members
  | _ => none

end MultiSubscription
end Verdict
