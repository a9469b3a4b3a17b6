/-
The command that decides about a subscription.

* `decisionOutcome`: a decision as an answer.
* `decideWith`: the decision by loaded documents.
* `runDecide`: the answer of the command.
* `runCommand`: the answer to the words of the command line.
-/
import Verdict.CommandLine.Check
import Verdict.DecisionPoint.Basic
import Verdict.Function.Standard

namespace Verdict

/-- A decision as an answer. -/
def decisionOutcome (r : Request) (d : AuthorizationDecision) : Outcome :=
  match r.output with
  | .json => .ofLines 0 [d.toJson.pretty] []
  | .text =>
    let details :=
      (d.resource.toList.map fun json => "resource: " ++ json.compact) ++
      (d.obligations.map fun json => "obligation: " ++ json.compact) ++
      (d.advice.map fun json => "advice: " ++ json.compact)
    .ofLines 0 (d.decision.name :: if r.quiet then [] else details) []

/-- The attributes of the command line: the time alone. -/
def commandLineFinders : FinderRegistry := ⟨[("time.now", .clock)]⟩

/-- The decision about a subscription by some documents, waited for so long. -/
def decideWith (now timeout : Nat) (documents : List PolicyDocument)
    (configuration : PdpConfiguration) (s : AuthorizationSubscription) :
    Except CommandError AuthorizationDecision :=
  let point := DecisionPoint.fixed { documents } configuration .standard commandLineFinders []
  match point.decideOnce { time := now } (now + timeout) s with
  | some d => .ok d
  | none => .error (.noDecision timeout)

/-- The answer of deciding.  Without a path of its own the configuration comes
from the directory of the documents. -/
def runDecide (now : Nat) (store : FileStore) (r : Request) (policies subscription : String)
    (config : Option String) (timeout : Nat) : Outcome :=
  let decision : Except CommandError AuthorizationDecision := do
    let documents ← loadDocuments store policies
    let s ← loadSubscription store subscription
    let configuration ← match config with
      | some path => loadConfiguration store path
      | none =>
        if (store.entries? policies).isSome then loadConfiguration store policies else .ok {}
    decideWith now timeout documents configuration s
  match decision with
  | .ok d => decisionOutcome r d
  | .error e => .failure r e

/-- The answer to the words of the command line, at a moment. -/
def runCommand (now : Nat) (store : FileStore) (words : List String) : Outcome :=
  match Request.ofWords? words with
  | none => .misuse
  | some r =>
    match r.command with
    | .decide policies subscription config timeout =>
      runDecide now store r policies subscription config timeout
    | .check path => runCheck store r path

end Verdict
