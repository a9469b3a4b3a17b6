/-
The surroundings of an evaluation.

* `EvaluationContext`: functions, attribute finders, variables, and the deadline
  for attributes.
* `EvaluationContext.forSubscription`: the variables of a subscription.
* `EvaluationContext.bind`: one variable more.
-/
import Verdict.Attribute.Finder
import Verdict.Authorization.Subscription
import Verdict.Function.Registry
import Verdict.Policy.Document

namespace Verdict

/-- What an expression may refer to. -/
structure EvaluationContext where
  functions : FunctionRegistry
  finders : FinderRegistry := {}
  bindings : Bindings := []
  /-- How many milliseconds an attribute may stay silent at first. -/
  attributeTimeout : Option Nat := none

namespace EvaluationContext

/-- The value of a variable; undefined if it is not bound. -/
def lookup (ctx : EvaluationContext) (name : String) : Value :=
  (ctx.bindings.lookup name).getD .undefined

/-- The context with a variable bound, instead of an earlier one of its name. -/
def bind (ctx : EvaluationContext) (name : String) (value : Value) : EvaluationContext :=
  { ctx with bindings := (name, value) :: ctx.bindings.filter fun (n, _) => n != name }

/-- The variables of a subscription: the elements of the subscription, and the
variables of the configuration that are not hidden by them. -/
def subscriptionBindings (s : AuthorizationSubscription) (bindings : List (String × Json)) :
    Bindings :=
  (([("subject", s.subject), ("action", s.action), ("resource", s.resource)] ++
      (match s.environment with
        | some e => [("environment", e)]
        | none => []) ++
      bindings.filter fun (name, _) => name ∉ reservedNames).map fun (name, json) =>
    (name, .defined json))

/-- The context for the documents that are evaluated for a subscription. -/
def forSubscription (ctx : EvaluationContext) (s : AuthorizationSubscription)
    (bindings : List (String × Json)) : EvaluationContext :=
  { ctx with bindings := subscriptionBindings s bindings }

end EvaluationContext
end Verdict
