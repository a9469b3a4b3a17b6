/-
Interceptors of decisions.

An interceptor sees every combined decision with its trace and may replace it.
Those with a lower priority come first, and equal priorities keep the order of
registration.

* `Interceptor`: a priority and what it makes of a decision.
* `Interceptor.reporting`: the one that only reports.
* `Interceptor.inOrder`, `applyAll`: the effect of several.
-/
import Verdict.Authorization.Trace

namespace Verdict

/-- An observer of decisions that may replace them. -/
structure Interceptor where
  priority : Int := 0
  intercept : DecisionTrace → AuthorizationDecision → AuthorizationDecision

namespace Interceptor

/-- The priority behind all others. -/
def lastPriority : Int := 2147483647

/-- Reports leave the decision as it is. -/
def reporting : Interceptor := ⟨lastPriority, fun _ decision => decision⟩

/-- Interceptors in the order in which they run. -/
def inOrder (interceptors : List Interceptor) : List Interceptor :=
  interceptors.mergeSort fun a b => decide (a.priority ≤ b.priority)

/-- The decision that comes out behind all interceptors. -/
def applyAll (interceptors : List Interceptor) (trace : DecisionTrace)
    (decision : AuthorizationDecision) : AuthorizationDecision :=
  (inOrder interceptors).foldl (fun decision i => i.intercept trace decision) decision

end Interceptor
end Verdict
