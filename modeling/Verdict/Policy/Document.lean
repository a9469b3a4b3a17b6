/-
Policies and policy sets.

* `Policy`, `PolicySet`, `PolicyDocument`: the documents.
* `Statement`, `VariableDefinition`: the parts of a body.
* `reservedNames`: the variables that the subscription binds.
-/
import Verdict.Policy.Algorithm
import Verdict.Policy.Expression

namespace Verdict

/-- What a policy decides when it applies. -/
inductive Entitlement where
  | permit
  | deny
  deriving DecidableEq, Repr

/-- The word of an entitlement in policy documents. -/
def Entitlement.name : Entitlement → String
  | .permit => "permit"
  | .deny => "deny"

/-- A name bound to the value of an expression. -/
structure VariableDefinition where
  name : String
  expression : Expression

/-- A statement of a policy body. -/
inductive Statement where
  | condition (expression : Expression)
  | define (definition : VariableDefinition)

/-- A policy.  Without a target it concerns every subscription. -/
structure Policy where
  name : String
  entitlement : Entitlement
  target : Option Expression
  body : List Statement
  /-- Each expression gives one obligation. -/
  obligations : List Expression
  advice : List Expression
  /-- Gives the resource that replaces the requested one. -/
  transformation : Option Expression

/-- A group of policies whose decisions are combined. -/
structure PolicySet where
  name : String
  algorithm : CombiningAlgorithm
  target : Option Expression
  /-- Visible to every policy of the set. -/
  definitions : List VariableDefinition
  policies : List Policy
  obligations : List Expression
  advice : List Expression

/-- A document at the top level. -/
inductive PolicyDocument where
  | policy (policy : Policy)
  | set (set : PolicySet)

/-- The name of a document. -/
def PolicyDocument.name : PolicyDocument → String
  | .policy p => p.name
  | .set s => s.name

/-- The variables that the subscription binds; no document may define them. -/
def reservedNames : List String := ["subject", "action", "resource", "environment"]

end Verdict
