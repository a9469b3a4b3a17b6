/-
Traces and reports of decisions.

A trace names the documents behind a combined decision and their failures,
which a decision itself never shows.

* `DecisionTrace`, `DocumentReport`: the traces.
* `DecisionTrace.toJson`: a trace as JSON, with a time stamp if there is one.
* `DecisionTrace.report`: the report of a decision, on one line or indented.
-/
import Verdict.Authorization.DocumentDecision
import Verdict.Authorization.Subscription

namespace Verdict

/-- The outcome of one document in a combined decision. -/
structure DocumentReport where
  name : String
  decision : Decision
  error : Option String

namespace DocumentReport

/-- The report of the decision of a document. -/
def ofDecision (d : DocumentDecision) : DocumentReport :=
  ⟨d.document, d.decision, d.error.map EvalError.message⟩

/-- The report as JSON. -/
def toJson (r : DocumentReport) : Json :=
  .object ([("name", .string r.name), ("decision", .string r.decision.name)] ++
    match r.error with
    | some e => [("error", .string e)]
    | none => [])

end DocumentReport

/-- How a combined decision came about. -/
structure DecisionTrace where
  subscription : AuthorizationSubscription
  algorithm : CombiningAlgorithm
  documents : List DocumentReport
  error : Option String

namespace DecisionTrace

/-- The trace as JSON, with the time at which it was taken if that is given. -/
def toJson (t : DecisionTrace) (timestamp : Option String) : Json :=
  .object ([("subscription", t.subscription.toJson),
      ("algorithm", .string t.algorithm.configName)] ++
    (match timestamp with
      | some time => [("timestamp", .string time)]
      | none => []) ++
    [("documents", .array (t.documents.map DocumentReport.toJson))] ++
    (match t.error with
      | some e => [("error", .string e)]
      | none => []))

/-- The report of a decision with its trace. -/
def report (t : DecisionTrace) (timestamp : Option String) (pretty : Bool)
    (decision : AuthorizationDecision) : String :=
  let value := Json.object [("decision", decision.toJson), ("trace", t.toJson timestamp)]
  if pretty then value.pretty else value.compact

end DecisionTrace
end Verdict
