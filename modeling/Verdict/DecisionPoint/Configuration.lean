/-
The configuration of a decision point.

* `PdpConfiguration`: the algorithm for the top level, variables for every
  document, and the deadline for the first value of an attribute.
* `PdpConfiguration.ofJson?`, `toJson`: the forms in files.
* `PdpConfiguration.validate`, `ofText`: only algorithms that do not depend on
  the order of documents may stand at the top level.
-/
import Verdict.Json.Printer
import Verdict.Json.Reader
import Verdict.Json.Record
import Verdict.Policy.Algorithm

namespace Verdict

/-- Why a configuration is refused. -/
inductive ConfigError where
  /-- The text or value is not a configuration. -/
  | malformed
  /-- The algorithm depends on the order of documents. -/
  | unsupportedAlgorithm (algorithm : CombiningAlgorithm)
  deriving DecidableEq, Repr

/-- Stands in messages for where and why a JSON text is malformed, which is not
reported in detail. -/
def malformedJson : String := "<json>"

/-- The wording of a refusal. -/
def ConfigError.message : ConfigError → String
  | malformed => "could not parse PDP configuration: " ++ malformedJson
  | unsupportedAlgorithm algorithm =>
    "combining algorithm " ++ algorithm.name ++ " cannot be used at the top level"

/-- The configuration of a decision point. -/
structure PdpConfiguration where
  algorithm : CombiningAlgorithm := .denyOverrides
  bindings : List (String × Json) := []
  attributeTimeout : Option Nat := none

namespace PdpConfiguration

instance : Inhabited PdpConfiguration := ⟨{}⟩

/-- The configuration as JSON. -/
def toJson (c : PdpConfiguration) : Json :=
  .object ([("algorithm", .string c.algorithm.configName), ("variables", .object c.bindings)] ++
    match c.attributeTimeout with
    | some millis => [("attributeTimeoutMs", .ofNat millis)]
    | none => [])

/-- The fields of a configuration. -/
def fields : List String := ["algorithm", "variables", "attributeTimeoutMs"]

/-- A configuration from JSON; whatever is left out has its default. -/
def ofJson? (value : Json) : Option PdpConfiguration := do
  match ← value.record? fields with
  | [algorithm, bindings, timeout] =>
    let algorithm ← match algorithm with
      | none => some .denyOverrides
      | some a => a.unit?.bind CombiningAlgorithm.ofConfigName?
    let bindings ← match bindings with
      | none => some []
      | some v => v.toObject?
    let attributeTimeout ← match Json.presence timeout with
      | none => some none
      | some t => t.toUnsigned?.map some
    return { algorithm, bindings, attributeTimeout }
  | _ => none

/-- A configuration that may be in force. -/
def validate (c : PdpConfiguration) : Except ConfigError PdpConfiguration :=
  if c.algorithm = .firstApplicable then .error (.unsupportedAlgorithm c.algorithm) else .ok c

/-- The configuration that a text spells. -/
def ofText (text : String) : Except ConfigError PdpConfiguration :=
  match (Json.recordTree? fields text).bind ofJson? with
  | some c => c.validate
  | none => .error .malformed

end PdpConfiguration
end Verdict
