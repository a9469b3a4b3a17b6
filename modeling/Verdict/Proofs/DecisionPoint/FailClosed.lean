/-
Decisions while some target fails.

Where the target of a document cannot be evaluated, one failed document more
takes part in every combination, also in those that are made while only a part
of the documents has spoken anew.

* `DecisionPoint.units_always`: the failed document is the last unit, always.
* `combineLive_ne_permit`: with a unit that always fails no permit is delivered
  under the algorithms that fail closed.
* `DecisionPoint.decide_ne_permit`: nor is one by the decision point.
* `DecisionPoint.fails_closed`: this together with what it comes from, the
  decisions that a failed document keeps an algorithm from.
-/
import Verdict.DecisionPoint.Basic
import Verdict.Proofs.Authorization.Combination
import Verdict.Proofs.Stream.Always

namespace Verdict

variable {W : World → Prop}

namespace CombiningAlgorithm.FailsClosed

variable {algorithm : CombiningAlgorithm}

lemma ne_firstApplicable (h : algorithm.FailsClosed) : algorithm ≠ .firstApplicable := by
  rcases h with rfl | rfl | rfl <;> decide

end CombiningAlgorithm.FailsClosed

/-- With a unit that always fails, the live combinations never permit. -/
theorem combineLive_ne_permit {algorithm : CombiningAlgorithm} (halgorithm : algorithm.FailsClosed)
    {units : List (Stream DocumentDecision)} {i : Nat} (hi : i < units.length)
    (hfails : units[i].Always W fun d => d.decision = .indeterminate) :
    (combineLive algorithm units).Always W fun c => c.authorization.decision ≠ .permit := by
  have hunits : ∀ j (unit : Stream DocumentDecision), units[j]? = some unit →
      unit.Always W fun d => j = i → d.decision = .indeterminate := by
    intro j unit hunit
    by_cases hj : j = i
    · subst hj
      rw [List.getElem?_eq_getElem hi, Option.some.injEq] at hunit
      exact hunit ▸ hfails.mono fun d hd _ => hd
    · exact (Stream.Always.trivial unit).mono fun d _ hji => absurd hji hj
  rw [combineLive, if_neg halgorithm.ne_firstApplicable]
  refine ((Stream.Always.combineLatest hunits).map ?_).distinct _
  rintro ds ⟨hlength, hds⟩
  -- Whichever units have spoken anew, the failed one is in the list.
  have hmem : ∃ d ∈ ds, d.decision = .indeterminate := by
    have hslot : i < ds.length := hlength ▸ hi
    exact ⟨ds[i], List.getElem_mem hslot, hds i ds[i] (List.getElem?_eq_getElem hslot) rfl⟩
  exact Combining.combine_ne_permit halgorithm hmem

namespace DecisionPoint

variable {point : DecisionPoint} {retrieval : Retrieval} {configuration : PdpConfiguration}

/-- The unit that stands for failed targets is the last one, and it fails in
every world. -/
lemma units_always (hfailed : retrieval.errorsInTarget = true) (ctx : EvaluationContext) :
    ∃ h : retrieval.documents.length < (units retrieval ctx).length,
      (units retrieval ctx)[retrieval.documents.length].Always W
        fun d => d.decision = .indeterminate := by
  have hunits : units retrieval ctx
      = retrieval.documents.map (·.evaluate ctx) ++ [.just .retrievalFailure] := by
    rw [units, if_pos hfailed]
  refine ⟨by simp [hunits], ?_⟩
  have hlast : (units retrieval ctx)[retrieval.documents.length]? =
      some (.just .retrievalFailure) := by
    simp [hunits]
  rw [(List.getElem?_eq_some_iff.mp hlast).2]
  exact .just rfl

/-- Documents among which a target fails lead to no permit. -/
lemma evaluate_ne_permit (hinterceptors : point.interceptors = [])
    (hfailed : retrieval.errorsInTarget = true)
    (halgorithm : configuration.algorithm.FailsClosed) (s : AuthorizationSubscription) :
    (point.evaluate s retrieval configuration).Always W fun d => d.decision ≠ .permit := by
  have hvalid : configuration.validate = .ok configuration :=
    if_neg halgorithm.ne_firstApplicable
  obtain ⟨hlast, hfails⟩ :=
    units_always (W := W) hfailed (point.context configuration s)
  rw [evaluate, hvalid]
  refine (combineLive_ne_permit halgorithm hlast hfails).map fun combined hcombined => ?_
  rw [intercepted_of_nil hinterceptors]
  exact hcombined

/-- While every retrieval has a failed target and every configuration fails
closed, the decision point never permits. -/
theorem decide_ne_permit (hinterceptors : point.interceptors = [])
    (hretrieval : point.retrieval.Always W fun r => r.errorsInTarget = true)
    (hconfiguration : point.configuration.Always W fun c => c.algorithm.FailsClosed)
    (s : AuthorizationSubscription) :
    (point.decide s).Always W fun d => d.decision ≠ .permit := by
  refine (hretrieval.switch (fun retrieval hfailed => ?_) .ended).distinct _
  exact hconfiguration.switchMap fun configuration halgorithm =>
    evaluate_ne_permit hinterceptors hfailed halgorithm s

/-- Failed documents close the decision point: while every retrieval has a failed
target and every configuration fails closed, however the worlds change, however
far the decisions are read and whatever they are told of, no permit is delivered.
Of decisions with a failed one the algorithms that fail closed make no permit,
and the first applicable one only if a permit stands before the failed ones. -/
theorem fails_closed (W : World → Prop) (point : DecisionPoint)
    (hinterceptors : point.interceptors = [])
    (hretrieval : point.retrieval.Always W fun r => r.errorsInTarget = true)
    (hconfiguration : point.configuration.Always W fun c => c.algorithm.FailsClosed)
    (s : AuthorizationSubscription) :
    (point.decide s).Always W (fun d => d.decision ≠ .permit) ∧
    ∀ ds : List DocumentDecision, (∃ d ∈ ds, d.decision = .indeterminate) →
      (∀ algorithm : CombiningAlgorithm, algorithm.FailsClosed →
        (combine algorithm ds).authorization.decision ≠ .permit) ∧
      ((combine .firstApplicable ds).authorization.decision = .permit →
        ∃ before d after, ds = before ++ d :: after ∧ d.decision = .permit ∧
          ∀ b ∈ before, b.decision ≠ .indeterminate) :=
  ⟨decide_ne_permit hinterceptors hretrieval hconfiguration s, fun _ hfailed =>
    ⟨fun _ halgorithm => Combining.combine_ne_permit halgorithm hfailed,
      Combining.firstApplicable_permit⟩⟩

/-- A policy permits everything, but some other target fails. -/
theorem fails_closed_watching :
    let permitting : Policy :=
      { name := "open", entitlement := .permit, target := none, body := [], obligations := [],
        advice := [], transformation := none }
    let w : World :=
      { retrieval := { value := { documents := [.policy permitting], errorsInTarget := true } }
        configuration := { value := { algorithm := .denyUnlessPermit } } }
    let W (v : World) : Prop :=
      v.retrieval.value.errorsInTarget = true ∧ v.configuration.value.algorithm.FailsClosed
    let s : AuthorizationSubscription := ⟨.string "alice", .string "read", .string "doc", none⟩
    W w ∧ (((watching .empty {} []).decide s).Always W fun d => d.decision ≠ .permit) ∧
      (combine .onlyOneApplicable
        [⟨"open", .plain .permit, none⟩, .retrievalFailure]).authorization.decision ≠ .permit := by
  intro permitting w W s
  obtain ⟨halways, hlists⟩ := fails_closed W (watching .empty {} []) rfl
    (.watch .retrieval none fun v hv => hv.1) (.watch .configuration none fun v hv => hv.2) s
  have hfailed : ∃ d ∈ [⟨"open", .plain .permit, none⟩, DocumentDecision.retrievalFailure],
      d.decision = .indeterminate :=
    ⟨.retrievalFailure, by simp, rfl⟩
  exact ⟨⟨rfl, .inr (.inr rfl)⟩, halways, (hlists _ hfailed).1 .onlyOneApplicable (.inr (.inl rfl))⟩

end DecisionPoint

end Verdict
