/-
The names of the combining algorithms.

Documents spell an algorithm in words joined by hyphens; configurations may
also spell it in capitals joined by underscores.

* `CombiningAlgorithm`: the six algorithms.
* `name`, `configName`: the two spellings.
* `ofName?`: either spelling in any mixture of cases.
* `ofConfigName?`: one of the two exact spellings.
* `ofName?_name`: every algorithm is read back from its name.
-/

namespace Verdict

/-- A way to combine the decisions of several documents. -/
inductive CombiningAlgorithm where
  | firstApplicable
  | denyOverrides
  | permitOverrides
  | onlyOneApplicable
  | denyUnlessPermit
  | permitUnlessDeny
  deriving DecidableEq, Repr

namespace CombiningAlgorithm

instance : Inhabited CombiningAlgorithm := ⟨.denyOverrides⟩

/-- All algorithms. -/
def all : List CombiningAlgorithm :=
  [.firstApplicable, .denyOverrides, .permitOverrides, .onlyOneApplicable, .denyUnlessPermit,
    .permitUnlessDeny]

/-- The name in policy documents. -/
def name : CombiningAlgorithm → String
  | .firstApplicable => "first-applicable"
  | .denyOverrides => "deny-overrides"
  | .permitOverrides => "permit-overrides"
  | .onlyOneApplicable => "only-one-applicable"
  | .denyUnlessPermit => "deny-unless-permit"
  | .permitUnlessDeny => "permit-unless-deny"

/-- The name in configurations. -/
def configName : CombiningAlgorithm → String
  | .firstApplicable => "FIRST_APPLICABLE"
  | .denyOverrides => "DENY_OVERRIDES"
  | .permitOverrides => "PERMIT_OVERRIDES"
  | .onlyOneApplicable => "ONLY_ONE_APPLICABLE"
  | .denyUnlessPermit => "DENY_UNLESS_PERMIT"
  | .permitUnlessDeny => "PERMIT_UNLESS_DENY"

/-- A spelling in lower case with hyphens for underscores. -/
def normalized (text : String) : String :=
  text.map fun c => if c = '_' then '-' else c.toLower

/-- The algorithm of a name in either spelling and any case. -/
def ofName? (text : String) : Option CombiningAlgorithm :=
  all.find? fun a => a.name == normalized text

theorem normalized_name (a : CombiningAlgorithm) : normalized a.name = a.name := by
  rw [← String.toList_inj, normalized, String.toList_map]
  cases a <;> decide

theorem ofName?_name (a : CombiningAlgorithm) : ofName? a.name = some a := by
  rw [ofName?, normalized_name]
  cases a <;> decide

/-- The algorithm of a name as configurations spell it. -/
def ofConfigName? (text : String) : Option CombiningAlgorithm :=
  all.find? fun a => a.configName == text || a.name == text

end CombiningAlgorithm
end Verdict
