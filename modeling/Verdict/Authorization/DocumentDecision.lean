/-
The decisions of single documents and their combination.

* `DocumentDecision`: what one document decides, and why it failed if it did.
* `Combined`: a combined decision with the decisions it was made from.
* `combine`: the six algorithms on decisions in document order.

Obligations and advice come from the first decision of the combined kind, and
at most one decision of that kind may carry a resource.
-/
import Verdict.Authorization.Decision
import Verdict.Policy.Algorithm
import Verdict.Value.Error

namespace Verdict

/-- The decision of a document, with the failure that made it indeterminate. -/
structure DocumentDecision where
  document : String
  authorization : AuthorizationDecision
  error : Option EvalError := none

namespace DocumentDecision

instance : Inhabited DocumentDecision := ⟨⟨"", default, none⟩⟩

/-- The outcome of the document. -/
def decision (d : DocumentDecision) : Decision := d.authorization.decision

/-- The document does not concern the subscription. -/
def notApplicable (document : String) : DocumentDecision :=
  ⟨document, .plain .notApplicable, none⟩

/-- The evaluation of the document failed. -/
def indeterminate (document : String) (error : EvalError) : DocumentDecision :=
  ⟨document, .plain .indeterminate, some error⟩

/-- Structural equality. -/
def same (a b : DocumentDecision) : Bool :=
  a.document == b.document && a.authorization.same b.authorization && a.error == b.error

/-- Structural equality of lists. -/
def sameAll : List DocumentDecision → List DocumentDecision → Bool
  | [], [] => true
  | a :: as, b :: bs => a.same b && sameAll as bs
  | _, _ => false

end DocumentDecision

/-- A combined decision, why it is indeterminate if it is, and the decisions it
was made from. -/
structure Combined where
  authorization : AuthorizationDecision
  error : Option EvalError := none
  documents : List DocumentDecision

namespace Combined

instance : Inhabited Combined := ⟨⟨default, none, []⟩⟩

/-- Structural equality. -/
def same (a b : Combined) : Bool :=
  a.authorization.same b.authorization && a.error == b.error &&
    DocumentDecision.sameAll a.documents b.documents

/-- A combination that failed. -/
def indeterminate (error : Option EvalError) (documents : List DocumentDecision) : Combined :=
  ⟨.plain .indeterminate, error, documents⟩

/-- The decision of one document as it is. -/
def ofDocument (d : DocumentDecision) (documents : List DocumentDecision) : Combined :=
  ⟨d.authorization, d.error, documents⟩

end Combined

namespace Combining

/-- Whether some document has the outcome. -/
def has (decisions : List DocumentDecision) (kind : Decision) : Bool :=
  decisions.any fun d => d.decision == kind

/-- The first failure among the indeterminate documents. -/
def firstError? (decisions : List DocumentDecision) : Option EvalError :=
  decisions.findSome? fun d => if d.decision = .indeterminate then d.error else none

/-- The decision of a kind with the constraints of its first contributor and
the resource of the only contributor that has one. -/
def contribution (kind : Decision) (decisions : List DocumentDecision) :
    Except EvalError AuthorizationDecision :=
  let contributors := decisions.filter fun d => d.decision == kind
  match contributors with
  | [] => .ok (.plain kind)
  | first :: _ =>
    match contributors.filterMap fun d => d.authorization.resource with
    | [] => .ok { decision := kind, obligations := first.authorization.obligations,
                  advice := first.authorization.advice }
    | [resource] => .ok { decision := kind, resource := some resource,
                          obligations := first.authorization.obligations,
                          advice := first.authorization.advice }
    | several => .error (.transformationConflict several.length)

/-- One kind overrides the other; between them stands a failed document. -/
def overriding (winner : Decision) (decisions : List DocumentDecision) : Combined :=
  let contribute (kind : Decision) : Combined :=
    match contribution kind decisions with
    | .ok authorization => ⟨authorization, none, decisions⟩
    | .error e => .indeterminate (some e) decisions
  if has decisions winner then contribute winner
  else if has decisions .indeterminate then .indeterminate (firstError? decisions) decisions
  else if has decisions winner.opposite then contribute winner.opposite
  else ⟨.plain .notApplicable, none, decisions⟩

/-- One kind where a document has it, the other by default.  The result is
always permit or deny; a failed document stands in the way of a permit, and
conflicting resources make it deny. -/
def preferring (preferred : Decision) (decisions : List DocumentDecision) : Combined :=
  let blocked := preferred == .permit && has decisions .indeterminate
  let kind := if has decisions preferred && !blocked then preferred else preferred.opposite
  match contribution kind decisions with
  | .ok authorization => ⟨authorization, none, decisions⟩
  | .error _ => ⟨.plain .deny, none, decisions⟩

/-- The decision of the only applicable document. -/
def onlyOneApplicable (decisions : List DocumentDecision) : Combined :=
  if has decisions .indeterminate then .indeterminate (firstError? decisions) decisions
  else
    match decisions.filter fun d => d.decision != .notApplicable with
    | [] => ⟨.plain .notApplicable, none, decisions⟩
    | [only] => .ofDocument only decisions
    | several => .indeterminate (some (.ambiguousPolicySet several.length)) decisions

/-- The decision of the first applicable document; those after it do not count. -/
def firstApplicable (decisions : List DocumentDecision) : Combined :=
  let before := decisions.takeWhile fun d => d.decision == .notApplicable
  match decisions.drop before.length with
  | d :: _ => .ofDocument d (before ++ [d])
  | [] => ⟨.plain .notApplicable, none, decisions⟩

end Combining

/-- The combination of decisions in document order. -/
def combine (algorithm : CombiningAlgorithm) (decisions : List DocumentDecision) : Combined :=
  match algorithm with
  | .firstApplicable => Combining.firstApplicable decisions
  | .denyOverrides => Combining.overriding .deny decisions
  | .permitOverrides => Combining.overriding .permit decisions
  | .onlyOneApplicable => Combining.onlyOneApplicable decisions
  | .denyUnlessPermit => Combining.preferring .permit decisions
  | .permitUnlessDeny => Combining.preferring .deny decisions

end Verdict
