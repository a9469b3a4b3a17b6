/-
Decisions that fit their failures.

A document that failed says why and carries nothing; one that does not apply
carries nothing either; and only a failed one has a failure to report.

* `AuthorizationDecision.Coherent`: a decision fits the failure beside it.
* `AuthorizationDecision.Coherent.of_decided`, `notApplicable`, `indeterminate`:
  the decisions that evaluation builds.
* `Combining.overriding_coherent`, `preferring_coherent`,
  `onlyOneApplicable_coherent`, `firstApplicable_coherent`: what each algorithm
  makes of decisions that fit their failures.
* `combine_coherent`: their combination does.
-/
import Verdict.Proofs.Authorization.Combination

namespace Verdict

namespace AuthorizationDecision

/-- The decision and the failure beside it belong together: there is a failure
exactly beside an indeterminate decision, and nothing but a permit or a deny
carries a resource, obligations or advice. -/
structure Coherent (a : AuthorizationDecision) (error : Option EvalError) : Prop where
  failed : error.isSome ↔ a.decision = .indeterminate
  bare : a.decision = .indeterminate ∨ a.decision = .notApplicable →
    a.resource = none ∧ a.obligations = [] ∧ a.advice = []

namespace Coherent

variable {a : AuthorizationDecision}

/-- Beside a permit or a deny stands no failure. -/
lemma of_decided (h : a.decision = .permit ∨ a.decision = .deny) : a.Coherent none := by
  refine ⟨?_, ?_⟩ <;> rcases h with h | h <;> simp [h]

lemma notApplicable : (plain .notApplicable).Coherent none :=
  ⟨by simp [plain], fun _ => ⟨rfl, rfl, rfl⟩⟩

lemma indeterminate (cause : EvalError) : (plain .indeterminate).Coherent (some cause) :=
  ⟨by simp [plain], fun _ => ⟨rfl, rfl, rfl⟩⟩

end Coherent
end AuthorizationDecision

/-- The decision of the document fits its failure. -/
abbrev DocumentDecision.Coherent (d : DocumentDecision) : Prop := d.authorization.Coherent d.error

/-- The combined decision fits its failure. -/
abbrev Combined.Coherent (c : Combined) : Prop := c.authorization.Coherent c.error

namespace Combining

open AuthorizationDecision (Coherent)

variable {ds : List DocumentDecision}

/-- Where a document failed, a combination has a failure to report. -/
lemma exists_firstError? (h : ∀ d ∈ ds, d.Coherent) (hfailed : has ds .indeterminate = true) :
    ∃ cause, firstError? ds = some cause := by
  obtain ⟨d, hd, hdecision⟩ := has_iff.mp hfailed
  obtain ⟨cause, hcause⟩ := Option.isSome_iff_exists.mp ((h d hd).failed.mpr hdecision)
  rw [← Option.isSome_iff_exists, firstError?, List.findSome?_isSome_iff]
  exact ⟨d, hd, by simp [hdecision, hcause]⟩

/-- A combination that fails with its documents fits their failures. -/
lemma indeterminate_coherent (h : ∀ d ∈ ds, d.Coherent)
    (hfailed : has ds .indeterminate = true) :
    (Combined.indeterminate (firstError? ds) ds).Coherent := by
  obtain ⟨cause, hcause⟩ := exists_firstError? h hfailed
  rw [hcause]
  exact .indeterminate cause

/-- A contribution to a permit or a deny needs no failure beside it. -/
lemma contribution_coherent {kind : Decision} {a : AuthorizationDecision}
    (hkind : kind = .permit ∨ kind = .deny) (ha : contribution kind ds = .ok a) :
    a.Coherent none :=
  .of_decided ((contribution_ok ha).1.symm ▸ hkind)

lemma overriding_coherent {winner : Decision} (hwinner : winner = .permit ∨ winner = .deny)
    (h : ∀ d ∈ ds, d.Coherent) : (overriding winner ds).Coherent := by
  have hopposite : winner.opposite = .permit ∨ winner.opposite = .deny := by
    rcases hwinner with rfl | rfl
    · exact .inr rfl
    · exact .inl rfl
  simp only [overriding]
  split
  · split
    · exact contribution_coherent hwinner ‹_›
    · exact .indeterminate _
  · split
    · exact indeterminate_coherent h ‹_›
    · split
      · split
        · exact contribution_coherent hopposite ‹_›
        · exact .indeterminate _
      · exact .notApplicable

lemma preferring_coherent {preferred : Decision}
    (hpreferred : preferred = .permit ∨ preferred = .deny) :
    (preferring preferred ds).Coherent := by
  have hkind : favoured preferred ds = .permit ∨ favoured preferred ds = .deny := by
    rw [favoured]
    rcases hpreferred with rfl | rfl <;> split <;> simp [Decision.opposite]
  rw [favoured] at hkind
  simp only [preferring]
  split
  · rename_i a ha
    exact contribution_coherent hkind ha
  · exact .of_decided (.inr rfl)

lemma onlyOneApplicable_coherent (h : ∀ d ∈ ds, d.Coherent) : (onlyOneApplicable ds).Coherent := by
  rw [onlyOneApplicable]
  split
  · exact indeterminate_coherent h ‹_›
  · split
    · exact .notApplicable
    · rename_i only honly
      have hmem : only ∈ ds.filter fun d => d.decision != .notApplicable := by
        rw [honly]
        exact List.mem_singleton_self only
      exact h only (List.mem_of_mem_filter hmem)
    · exact .indeterminate _

lemma firstApplicable_coherent (h : ∀ d ∈ ds, d.Coherent) : (firstApplicable ds).Coherent := by
  simp only [firstApplicable]
  split
  · rename_i d rest hdrop
    have hmem : d ∈ ds.drop (ds.takeWhile fun d => d.decision == .notApplicable).length := by
      rw [hdrop]
      exact List.mem_cons_self
    exact h d (List.mem_of_mem_drop hmem)
  · exact .notApplicable

end Combining

/-- Decisions that fit their failures are combined to one that does. -/
theorem combine_coherent (algorithm : CombiningAlgorithm) {ds : List DocumentDecision}
    (h : ∀ d ∈ ds, d.Coherent) : (combine algorithm ds).Coherent := by
  cases algorithm with
  | firstApplicable => exact Combining.firstApplicable_coherent h
  | denyOverrides => exact Combining.overriding_coherent (.inr rfl) h
  | permitOverrides => exact Combining.overriding_coherent (.inl rfl) h
  | onlyOneApplicable => exact Combining.onlyOneApplicable_coherent h
  | denyUnlessPermit => exact Combining.preferring_coherent (.inl rfl)
  | permitUnlessDeny => exact Combining.preferring_coherent (.inr rfl)

end Verdict
