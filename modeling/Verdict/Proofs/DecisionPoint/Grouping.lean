/-
Policies on their own and in a set.

A set without a target, definitions and constraints decides what its policies decide
together, and an algorithm that combines nothing but that decision leaves it as it is.  So
it makes no difference whether the decision point combines the policies itself or finds
them in a set.

* `Combining.contribution_single`, `Combining.combine_single`: the combination of one
  decision.
* `PolicySet.grouping`: the set of some policies, with nothing of its own.
* `PolicySet.decision_grouping`, `PolicySet.decision_coherent`: what a set decides.
* `Interceptor.OverlooksTrace`: an interceptor that sees the decision alone.
* `DecisionPoint.grouping_unobserved`: policies and their set are decided alike.
-/
import Verdict.Proofs.DecisionPoint.Settling
import Verdict.Proofs.Evaluation.Coherence

namespace Verdict

/-! ### The combination of one decision -/

namespace Combining

variable {d : DocumentDecision}

/-- The only contributor contributes its own decision. -/
lemma contribution_single {kind : Decision} (h : d.decision = kind) :
    contribution kind [d] = .ok d.authorization := by
  obtain ⟨document, ⟨decision, resource, obligations, advice⟩, error⟩ := d
  obtain rfl : decision = kind := h
  cases resource <;> simp [contribution, DocumentDecision.decision]

/-- A decision that neither permits nor denies is bare. -/
lemma eq_plain (h : d.Coherent) (hd : d.decision = .indeterminate ∨ d.decision = .notApplicable) :
    d.authorization = .plain d.decision := by
  obtain ⟨hresource, hobligations, hadvice⟩ := h.bare hd
  obtain ⟨document, ⟨decision, resource, obligations, advice⟩, error⟩ := d
  subst hresource hobligations hadvice
  rfl

/-- The algorithms that leave a single decision as it is: all but the two that replace an
indeterminate one and one that does not apply. -/
def KeepsSingle (algorithm : CombiningAlgorithm) : Prop :=
  algorithm = .firstApplicable ∨ algorithm = .denyOverrides ∨ algorithm = .permitOverrides ∨
    algorithm = .onlyOneApplicable

lemma overriding_single (h : d.Coherent) {winner : Decision}
    (hwinner : winner = .permit ∨ winner = .deny) :
    (overriding winner [d]).authorization = d.authorization := by
  cases hd : d.decision
  case indeterminate | notApplicable =>
    rw [eq_plain h (by simp [hd]), hd]
    rcases hwinner with rfl | rfl <;>
      simp [overriding, has, hd, Decision.opposite, Combined.indeterminate]
  all_goals
    rcases hwinner with rfl | rfl <;>
      simp [overriding, has, hd, Decision.opposite, contribution_single hd]

lemma onlyOneApplicable_single (h : d.Coherent) :
    (onlyOneApplicable [d]).authorization = d.authorization := by
  cases hd : d.decision
  case indeterminate | notApplicable =>
    rw [eq_plain h (by simp [hd]), hd]
    simp [onlyOneApplicable, has, hd, Combined.indeterminate]
  all_goals simp [onlyOneApplicable, has, hd, Combined.ofDocument]

lemma firstApplicable_single (h : d.Coherent) :
    (firstApplicable [d]).authorization = d.authorization := by
  cases hd : d.decision
  case notApplicable =>
    rw [eq_plain h (by simp [hd]), hd]
    simp [firstApplicable, hd]
  all_goals simp [firstApplicable, hd, Combined.ofDocument]

/-- A single decision is combined to itself. -/
theorem combine_single {algorithm : CombiningAlgorithm} (halgorithm : KeepsSingle algorithm)
    (h : d.Coherent) : (combine algorithm [d]).authorization = d.authorization := by
  rcases halgorithm with rfl | rfl | rfl | rfl
  · exact firstApplicable_single h
  · exact overriding_single h (.inr rfl)
  · exact overriding_single h (.inl rfl)
  · exact onlyOneApplicable_single h

end Combining

/-! ### Sets with nothing of their own -/

namespace PolicySet

/-- The set of some policies under an algorithm, without a target, definitions,
obligations and advice. -/
def grouping (name : String) (algorithm : CombiningAlgorithm) (policies : List Policy) :
    PolicySet :=
  { name, algorithm, target := none, definitions := [], policies, obligations := [], advice := [] }

/-- Such a set decides what its policies decide together. -/
lemma decision_grouping (ctx : EvaluationContext) (name : String) (algorithm : CombiningAlgorithm)
    (policies : List Policy) :
    ((grouping name algorithm policies).decision ctx).authorization
      = (combine algorithm (policies.map (·.decision ctx))).authorization := by
  simp [decision, grouping, DocumentDecision.guarded, boundAll, conclusion]

/-- The direct decision of a set fits its failure. -/
lemma decision_coherent (ctx : EvaluationContext) {set : PolicySet}
    (h : set.attributeFree = true) : (set.decision ctx).Coherent := by
  have hown : (set.evaluate ctx).Always (fun _ => True) (·.Own set.name) := set.evaluate_own ctx
  have hshows := (set.evaluate_yields ctx h).shows default
  refine (hown _ .refl default trivial (set.decision ctx) ?_).coherent
  rw [hshows]
  exact List.mem_singleton_self _

lemma attributeFree_grouping (name : String) (algorithm : CombiningAlgorithm)
    {policies : List Policy} (h : policies.all Policy.attributeFree = true) :
    (grouping name algorithm policies).attributeFree = true := by
  simpa [attributeFree, grouping, Expression.allAttributeFree] using h

end PolicySet

/-! ### Interceptors that see the decision alone -/

namespace Interceptor

/-- What becomes of a decision does not depend on the trace beside it. -/
def OverlooksTrace (i : Interceptor) : Prop :=
  ∀ trace trace' decision, i.intercept trace decision = i.intercept trace' decision

lemma reporting_overlooksTrace : reporting.OverlooksTrace := fun _ _ _ => rfl

lemma applyAll_congr {interceptors : List Interceptor}
    (h : ∀ i ∈ interceptors, i.OverlooksTrace) (trace trace' : DecisionTrace)
    (decision : AuthorizationDecision) :
    applyAll interceptors trace decision = applyAll interceptors trace' decision := by
  refine List.foldl_ext _ _ decision fun decision i hi => ?_
  exact h i (List.mem_mergeSort.mp hi) trace trace' decision

end Interceptor

/-! ### Policies and their set -/

namespace DecisionPoint

/-- Policies that read no attribute are decided alike on their own and in a set without
anything of its own that combines them: the one decision point combines the policies by
an algorithm, the other one combines the set, with that algorithm inside, by an algorithm
that leaves a single decision as it is. Both deliver the same decision, and then nothing. -/
theorem grouping_unobserved (policies : List Policy)
    (hfree : policies.all Policy.attributeFree = true) (inner outer : CombiningAlgorithm)
    (hinner : inner ≠ .firstApplicable)
    (houter : outer = .denyOverrides ∨ outer = .permitOverrides ∨ outer = .onlyOneApplicable)
    (name : String) (configuration : PdpConfiguration) (functions : FunctionRegistry)
    (finders : FinderRegistry) (interceptors : List Interceptor)
    (hinterceptors : ∀ i ∈ interceptors, i.OverlooksTrace) (s : AuthorizationSubscription) :
    let alone : Retrieval := { documents := policies.map .policy }
    let grouped : Retrieval := { documents := [.set (.grouping name inner policies)] }
    let ofAlone := fixed alone { configuration with algorithm := inner } functions finders
      interceptors
    let ofGrouped := fixed grouped { configuration with algorithm := outer } functions finders
      interceptors
    let verdict := ofAlone.verdict s alone { configuration with algorithm := inner }
    (ofAlone.decide s).Settles verdict ∧ (ofGrouped.decide s).Settles verdict := by
  intro alone grouped ofAlone ofGrouped verdict
  have hset := PolicySet.attributeFree_grouping name inner hfree
  have hvalid : outer ≠ .firstApplicable := by
    rcases houter with rfl | rfl | rfl <;> decide
  have hsame : ofGrouped.verdict s grouped { configuration with algorithm := outer } = verdict := by
    let ctx := ofAlone.context configuration s
    have hcombined : (combine outer (decisions grouped ctx)).authorization
        = (combine inner (decisions alone ctx)).authorization := by
      have halone : decisions alone ctx = policies.map (·.decision ctx) := by
        simp [decisions, alone, PolicyDocument.decision]
      calc (combine outer (decisions grouped ctx)).authorization
          = ((PolicySet.grouping name inner policies).decision ctx).authorization :=
            Combining.combine_single (.inr houter) (PolicySet.decision_coherent ctx hset)
        _ = (combine inner (decisions alone ctx)).authorization := by
            rw [PolicySet.decision_grouping, halone]
    exact (congrArg _ hcombined).trans (Interceptor.applyAll_congr hinterceptors _ _ _)
  refine ⟨decide_settles alone _ functions finders interceptors s hinner ?_, hsame ▸
    decide_settles grouped _ functions finders interceptors s hvalid ?_⟩
  · simpa [alone, PolicyDocument.attributeFree] using hfree
  · simpa [grouped, PolicyDocument.attributeFree] using hset

/-- Two permits with resources of their own conflict, in a set as on their own; the report
of the decision leaves it as it is. -/
theorem grouping_unobserved_conflict :
    let masking (resource : String) : Policy :=
      { name := resource, entitlement := .permit, target := none, body := [],
        obligations := [.literal (.string "log")], advice := [],
        transformation := some (.literal (.string resource)) }
    let policies := [masking "masked", masking "hidden"]
    let s : AuthorizationSubscription :=
      { subject := .string "alice", action := .string "read", resource := .string "doc" }
    let alone : Retrieval := { documents := policies.map .policy }
    let grouped : Retrieval := { documents := [.set (.grouping "both" .permitOverrides policies)] }
    ((fixed alone { algorithm := .permitOverrides } .empty {} [.reporting]).decide s).Settles
        (.plain .indeterminate) ∧
      ((fixed grouped { algorithm := .onlyOneApplicable } .empty {} [.reporting]).decide s).Settles
        (.plain .indeterminate) := by
  intro masking policies s alone grouped
  have hverdict : (fixed alone { algorithm := .permitOverrides } .empty {} [.reporting]).verdict s
      alone { algorithm := .permitOverrides } = .plain .indeterminate := by
    simp only [verdict, intercepted, Interceptor.applyAll, Interceptor.inOrder, fixed,
      List.mergeSort_singleton]
    rfl
  have hreporting : ∀ i ∈ [Interceptor.reporting], i.OverlooksTrace := by
    simp [Interceptor.reporting_overlooksTrace]
  rw [← hverdict]
  exact grouping_unobserved policies (by decide) .permitOverrides .onlyOneApplicable (by decide)
    (.inr (.inr rfl)) "both" {} .empty {} [.reporting] hreporting s

end DecisionPoint

end Verdict
