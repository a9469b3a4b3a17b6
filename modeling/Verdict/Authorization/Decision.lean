/-
Authorization decisions.

* `Decision`: the four outcomes.
* `AuthorizationDecision`: an outcome with the constraints on its enforcement.
* `AuthorizationDecision.toJson`, `ofJson?`: the form on the wire.
* `AuthorizationDecision.same`: structural equality.
-/
import Verdict.Json.Printer
import Verdict.Json.Record

namespace Verdict

/-- The outcome of evaluating a policy document. -/
inductive Decision where
  | permit
  | deny
  | indeterminate
  | notApplicable
  deriving DecidableEq, Repr

namespace Decision

instance : Inhabited Decision := ⟨.indeterminate⟩

/-- All outcomes. -/
def all : List Decision := [.permit, .deny, .indeterminate, .notApplicable]

/-- The word for an outcome. -/
def name : Decision → String
  | .permit => "PERMIT"
  | .deny => "DENY"
  | .indeterminate => "INDETERMINATE"
  | .notApplicable => "NOT_APPLICABLE"

/-- The outcome of a word. -/
def ofName? (name : String) : Option Decision := all.find? fun d => d.name == name

theorem ofName?_name (d : Decision) : ofName? d.name = some d := by
  cases d <;> decide

/-- The outcome of a JSON value. -/
def ofJson? (value : Json) : Option Decision := value.unit?.bind ofName?

/-- Permit for deny and deny for permit. -/
def opposite : Decision → Decision
  | .permit => .deny
  | .deny => .permit
  | d => d

end Decision

/-- A decision with the constraints that its enforcement has to honour.  The
resource is there only if a transformation replaced the requested one. -/
structure AuthorizationDecision where
  decision : Decision
  resource : Option Json := none
  obligations : List Json := []
  advice : List Json := []

namespace AuthorizationDecision

instance : Inhabited AuthorizationDecision := ⟨{ decision := .indeterminate }⟩

/-- A decision without constraints. -/
def plain (decision : Decision) : AuthorizationDecision := { decision }

/-- Structural equality. -/
def same (a b : AuthorizationDecision) : Bool :=
  a.decision == b.decision &&
    (match a.resource, b.resource with
      | some x, some y => x.same y
      | none, none => true
      | _, _ => false) &&
    Json.sameItems a.obligations b.obligations && Json.sameItems a.advice b.advice

/-- The form on the wire: absent and empty members are left out. -/
def toJson (d : AuthorizationDecision) : Json :=
  .object (("decision", .string d.decision.name) ::
    ((match d.resource with
        | some r => [("resource", r)]
        | none => []) ++
      (if d.obligations.isEmpty then [] else [("obligations", .array d.obligations)]) ++
      (if d.advice.isEmpty then [] else [("advice", .array d.advice)])))

/-- A list that may be left out but must not be null. -/
def list? : Option Json → Option (List Json)
  | none => some []
  | some value => value.toArray?

/-- A decision from the wire. -/
def ofJson? (value : Json) : Option AuthorizationDecision := do
  match ← value.record? ["decision", "resource", "obligations", "advice"] with
  | [some decision, resource, obligations, advice] =>
    return {
      decision := ← Decision.ofJson? decision
      resource := Json.presence resource
      obligations := ← list? obligations
      advice := ← list? advice }
  | _ => none

/-- The text of a decision. -/
def text (d : AuthorizationDecision) : String := d.toJson.compact

end AuthorizationDecision
end Verdict
