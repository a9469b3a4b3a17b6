/-
The decision point.

For a subscription it evaluates and combines the documents in force under the
configuration in force.  New documents or a new configuration start everything
below them anew, and the end of the documents ends the decisions.

* `DecisionPoint`: where documents and configurations come from, and what
  documents may refer to.
* `DecisionPoint.decide`: the live decision for a subscription.
* `DecisionPoint.decideAll`: those for several subscriptions.
* `DecisionPoint.decideOnce`: the first decision, waiting for it if need be.
-/
import Verdict.DecisionPoint.Interceptor
import Verdict.Evaluation.Document
import Verdict.Stream.Notify
import Verdict.Stream.Run

namespace Verdict

/-- A point that decides about subscriptions. -/
structure DecisionPoint where
  retrieval : Stream Retrieval
  configuration : Stream PdpConfiguration
  functions : FunctionRegistry
  finders : FinderRegistry := {}
  interceptors : List Interceptor := []

/-- The name under which failed retrieval takes part in a combination. -/
def retrievalDocument : String := "policy retrieval"

/-- The decision that stands for the documents whose targets failed. -/
def DocumentDecision.retrievalFailure : DocumentDecision :=
  ⟨retrievalDocument, .plain .indeterminate, none⟩

namespace DecisionPoint

/-- A point with documents and a configuration that never change. -/
def fixed (retrieval : Retrieval) (configuration : PdpConfiguration)
    (functions : FunctionRegistry) (finders : FinderRegistry) (interceptors : List Interceptor) :
    DecisionPoint :=
  ⟨.lasting [retrieval], .lasting [configuration], functions, finders, interceptors⟩

/-- A point whose documents and configuration are published in the world. -/
def watching (functions : FunctionRegistry) (finders : FinderRegistry)
    (interceptors : List Interceptor) : DecisionPoint :=
  ⟨.watch .retrieval none, .watch .configuration none, functions, finders, interceptors⟩

/-- The context of the documents for a subscription under a configuration. -/
def context (point : DecisionPoint) (configuration : PdpConfiguration)
    (s : AuthorizationSubscription) : EvaluationContext :=
  EvaluationContext.forSubscription
    { functions := point.functions
      finders := point.finders
      attributeTimeout := configuration.attributeTimeout }
    s configuration.bindings

/-- The decisions that are combined. -/
def units (retrieval : Retrieval) (ctx : EvaluationContext) : List (Stream DocumentDecision) :=
  retrieval.documents.map (·.evaluate ctx) ++
    if retrieval.errorsInTarget then [.just .retrievalFailure] else []

/-- A combined decision behind the interceptors. -/
def intercepted (point : DecisionPoint) (algorithm : CombiningAlgorithm)
    (s : AuthorizationSubscription) (combined : Combined) : AuthorizationDecision :=
  Interceptor.applyAll point.interceptors
    { subscription := s
      algorithm
      documents := combined.documents.map DocumentReport.ofDecision
      error := combined.error.map EvalError.message }
    combined.authorization

/-- Without interceptors the combined decision is the one that counts. -/
theorem intercepted_of_nil {point : DecisionPoint} (h : point.interceptors = [])
    (algorithm : CombiningAlgorithm) (s : AuthorizationSubscription) (combined : Combined) :
    point.intercepted algorithm s combined = combined.authorization := by
  rw [intercepted, h, Interceptor.applyAll, Interceptor.inOrder, List.mergeSort_nil, List.foldl_nil]

/-- The decisions by some documents under a configuration; one that may not be
in force decides nothing. -/
def evaluate (point : DecisionPoint) (s : AuthorizationSubscription) (retrieval : Retrieval)
    (configuration : PdpConfiguration) : Stream AuthorizationDecision :=
  match configuration.validate with
  | .error _ => .just (.plain .indeterminate)
  | .ok c => (combineLive c.algorithm (units retrieval (point.context c s))).map
      (point.intercepted c.algorithm s)

/-- The live decision for a subscription. -/
def decide (point : DecisionPoint) (s : AuthorizationSubscription) :
    Stream AuthorizationDecision :=
  (point.retrieval.switchMapBounded fun retrieval =>
    point.configuration.switchMap (point.evaluate s retrieval)).distinct
      AuthorizationDecision.same

/-- The live decisions for several subscriptions, with their ids. -/
def decideAll (point : DecisionPoint) (m : MultiSubscription) :
    Stream (String × AuthorizationDecision) :=
  (Stream.merge (m.subscriptions.map fun (id, s) => (point.decide s).map (id, ·))).map Prod.snd

end DecisionPoint

/-! ### Waiting for a decision -/

/-- What waiting for an item has led to. -/
inductive Awaited (α : Type) where
  | item (value : α)
  | ended
  /-- Nothing has happened up to the limit. -/
  | silent

/-- The first item of a stream while nothing but the time changes; nothing is
waited for beyond the limit. -/
def Stream.await {α : Type} (w : World) (limit : Nat) (s : Stream α) : Awaited α :=
  match s.run w with
  | .item a _ _ => .item a
  | .ended => .ended
  | .pending rest =>
    match rest.nextDeadline? w.time with
    | none => .silent
    | some t =>
      if _h : w.time < t ∧ t ≤ limit then
        await { w with time := t } limit (rest.elapse w.time t)
      else .silent
  termination_by limit - w.time

/-- The first decision for a subscription; where there is none before the
decisions end, it is indeterminate. -/
def DecisionPoint.decideOnce (point : DecisionPoint) (w : World) (limit : Nat)
    (s : AuthorizationSubscription) : Option AuthorizationDecision :=
  match (point.decide s).await w limit with
  | .item d => some d
  | .ended => some (.plain .indeterminate)
  | .silent => none

end Verdict
