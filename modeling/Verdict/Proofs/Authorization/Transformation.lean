/-
The resource of a combined decision.

A document may replace the requested resource.  Where several documents of the
kind that a combination decides for do so, none of the replacements is applied.

* `Combining.contribution_of_conflicting`, `resources_of_contribution_ok`: the
  resource of a contribution.
* `Combining.prevailing`, `overriding_of_prevails`, `overriding_of_none_prevails`:
  the kind that an overriding algorithm decides for.
* `Combining.resources_of_combine`: a combined resource is the only one of its kind.
* `Combining.combine_transforms_once`: this together with what conflicts come to.
* `Combining.combine_transforms_once_masked`: two masks, a single one, and none
  where a document failed.
-/
import Verdict.Proofs.Authorization.Combination

namespace Verdict

namespace Combining

variable {ds : List DocumentDecision} {kind : Decision} {a : AuthorizationDecision}

/-! ### Contributions -/

/-- Conflicting resources make a contribution fail with their number. -/
lemma contribution_of_conflicting (h : Conflicting kind ds) :
    contribution kind ds = .error (.transformationConflict (resources kind ds).length) := by
  simp only [Conflicting, resources] at h
  simp only [contribution, resources]
  cases hfilter : ds.filter fun d => d.decision == kind with
  | nil => simp [hfilter] at h
  | cons first rest =>
    rw [hfilter] at h
    generalize (first :: rest).filterMap (fun d => d.authorization.resource) = carried at h ⊢
    obtain _ | ⟨one, _ | ⟨two, more⟩⟩ := carried
    · simp at h
    · simp at h
    · rfl

/-- A contribution carries the only resource of its kind, or there is none. -/
lemma resources_of_contribution_ok (h : contribution kind ds = .ok a) :
    resources kind ds = a.resource.toList := by
  simp only [contribution] at h
  simp only [resources]
  cases hfilter : ds.filter fun d => d.decision == kind with
  | nil =>
    rw [hfilter] at h
    obtain rfl := Except.ok.inj h
    rfl
  | cons first rest =>
    rw [hfilter] at h
    simp only at h
    split at h
    · rename_i hnone
      obtain rfl := Except.ok.inj h
      exact hnone
    · rename_i resource hone
      obtain rfl := Except.ok.inj h
      exact hone
    · exact absurd h (by simp)

/-- A contribution is made exactly where no resources conflict. -/
lemma contribution_ok_iff : (∃ a, contribution kind ds = .ok a) ↔ ¬ Conflicting kind ds := by
  rw [← contribution_error_iff]
  cases contribution kind ds <;> simp

/-! ### Overriding kinds -/

/-- The kind that an overriding algorithm decides for: the overriding one where a
document has it, and else the other one, unless a document failed. -/
def prevailing (winner : Decision) (ds : List DocumentDecision) : Option Decision :=
  if has ds winner then some winner
  else if has ds .indeterminate then none
  else if has ds winner.opposite then some winner.opposite
  else none

lemma overriding_of_prevails {winner : Decision} (h : prevailing winner ds = some kind) :
    overriding winner ds =
      match contribution kind ds with
      | .ok authorization => ⟨authorization, none, ds⟩
      | .error e => .indeterminate (some e) ds := by
  simp only [prevailing] at h
  simp only [overriding]
  by_cases hwinner : has ds winner = true
  · obtain rfl : winner = kind := by simpa [hwinner] using h
    exact if_pos hwinner
  by_cases hfailed : has ds .indeterminate = true
  · simp [hwinner, hfailed] at h
  by_cases hother : has ds winner.opposite = true
  · obtain rfl : winner.opposite = kind := by simpa [hwinner, hfailed, hother] using h
    exact (if_neg hwinner).trans ((if_neg hfailed).trans (if_pos hother))
  · simp [hwinner, hfailed, hother] at h

/-- Where no kind prevails, a document failed or none applies. -/
lemma overriding_of_none_prevails {winner : Decision} (h : prevailing winner ds = none) :
    (overriding winner ds).authorization
      = .plain (if has ds .indeterminate then .indeterminate else .notApplicable) := by
  simp only [prevailing] at h
  simp only [overriding]
  by_cases hwinner : has ds winner = true
  · simp [hwinner] at h
  by_cases hfailed : has ds .indeterminate = true
  · simp [hwinner, hfailed, Combined.indeterminate]
  by_cases hother : has ds winner.opposite = true
  · simp [hwinner, hfailed, hother] at h
  · simp [hwinner, hfailed, hother]

/-- The kind that an overriding algorithm lets override. -/
def overriding? : CombiningAlgorithm → Option Decision
  | .denyOverrides => some .deny
  | .permitOverrides => some .permit
  | _ => none

lemma combine_of_overriding? {algorithm : CombiningAlgorithm} {winner : Decision}
    (h : overriding? algorithm = some winner) : combine algorithm ds = overriding winner ds := by
  cases algorithm <;> cases h <;> rfl

lemma combine_of_preferred? {algorithm : CombiningAlgorithm} {preferred : Decision}
    (h : preferred? algorithm = some preferred) :
    combine algorithm ds = preferring preferred ds := by
  cases algorithm <;> cases h <;> rfl

/-- An algorithm that does not go by the order lets a kind override, prefers one,
or looks for the only applicable document. -/
lemma algorithm_cases {algorithm : CombiningAlgorithm} (h : algorithm ≠ .firstApplicable) :
    (∃ winner, overriding? algorithm = some winner) ∨
      (∃ preferred, preferred? algorithm = some preferred) ∨
      algorithm = .onlyOneApplicable := by
  cases algorithm with
  | firstApplicable => exact absurd rfl h
  | denyOverrides => exact .inl ⟨.deny, rfl⟩
  | permitOverrides => exact .inl ⟨.permit, rfl⟩
  | onlyOneApplicable => exact .inr (.inr rfl)
  | denyUnlessPermit => exact .inr (.inl ⟨.permit, rfl⟩)
  | permitUnlessDeny => exact .inr (.inl ⟨.deny, rfl⟩)

/-! ### The only applicable document -/

/-- The documents of a kind, among the applicable ones. -/
lemma filter_of_applicable {only : DocumentDecision}
    (h : (ds.filter fun d => d.decision != .notApplicable) = [only]) :
    (ds.filter fun d => d.decision == only.decision) = [only] := by
  have happlies : only.decision ≠ .notApplicable := by
    have hmem : only ∈ ds.filter fun d => d.decision != .notApplicable := by simp [h]
    simpa using (List.mem_filter.mp hmem).2
  have hkind (d : DocumentDecision) : (d.decision == only.decision)
      = ((d.decision == only.decision) && (d.decision != .notApplicable)) := by
    by_cases hd : d.decision = only.decision
    · simp [hd, happlies]
    · simp [hd]
  rw [List.filter_congr fun d _ => hkind d, ← List.filter_filter, h]
  simp

/-! ### Combinations -/

/-- What a combination decides carries the only resource of its kind, or it is bare. -/
lemma resources_of_combine {algorithm : CombiningAlgorithm} (h : algorithm ≠ .firstApplicable)
    (ds : List DocumentDecision) :
    resources (combine algorithm ds).authorization.decision ds
        = (combine algorithm ds).authorization.resource.toList ∨
      ((combine algorithm ds).authorization.resource = none ∧
        (combine algorithm ds).authorization.decision ≠ .permit) := by
  have hcontribution {kind : Decision} {a : AuthorizationDecision}
      (ha : contribution kind ds = .ok a) : resources a.decision ds = a.resource.toList := by
    rw [(contribution_ok ha).1]
    exact resources_of_contribution_ok ha
  have hbare {kind : Decision} (hkind : kind ≠ .permit) {c : Combined}
      (hc : c.authorization = .plain kind) : c.authorization.resource = none ∧
        c.authorization.decision ≠ .permit := by
    rw [hc]
    exact ⟨rfl, hkind⟩
  rcases algorithm_cases h with ⟨winner, hwinner⟩ | ⟨preferred, hpreferred⟩ | rfl
  · rw [combine_of_overriding? hwinner]
    rcases overriding_cases winner ds with ⟨kind, a, -, ha, heq⟩ | heq | heq
    · rw [heq]
      exact .inl (hcontribution ha)
    · exact .inr (hbare (by decide) heq)
    · exact .inr (hbare (by decide) heq)
  · rw [combine_of_preferred? hpreferred]
    rcases preferring_cases preferred ds with ⟨a, ha, heq⟩ | ⟨-, heq⟩
    · rw [heq]
      exact .inl (hcontribution ha)
    · exact .inr (hbare (by decide) heq)
  · rw [show combine .onlyOneApplicable ds = onlyOneApplicable ds from rfl]
    rcases onlyOneApplicable_cases ds with ⟨only, -, honly, heq⟩ | heq | heq
    · refine .inl ?_
      rw [heq, resources, show only.authorization.decision = only.decision from rfl,
        filter_of_applicable honly]
      cases hcarried : only.authorization.resource <;> simp [hcarried]
    · exact .inr (hbare (by decide) heq)
    · exact .inr (hbare (by decide) heq)

/-- At most one replacement of the resource is applied, under every algorithm that
does not go by the order of the documents.  A combined decision with a resource has
that of the only document of its kind that carries one, and a permit has it whenever
there is exactly one.  Where several documents of the kind that prevails carry a
resource, an overriding algorithm fails with their number and nothing else, and a
preferring one denies without a resource. -/
theorem combine_transforms_once (algorithm : CombiningAlgorithm)
    (h : algorithm ≠ .firstApplicable) (ds : List DocumentDecision) :
    let combined := combine algorithm ds
    (∀ resource, combined.authorization.resource = some resource →
      resources combined.authorization.decision ds = [resource]) ∧
    (combined.authorization.decision = .permit → ∀ resource,
      resources .permit ds = [resource] → combined.authorization.resource = some resource) ∧
    (∀ winner kind, overriding? algorithm = some winner → prevailing winner ds = some kind →
      2 ≤ (resources kind ds).length → combined =
        ⟨.plain .indeterminate, some (.transformationConflict (resources kind ds).length), ds⟩) ∧
    (∀ preferred, preferred? algorithm = some preferred →
      2 ≤ (resources (favoured preferred ds) ds).length →
        combined.authorization.decision = .deny ∧ combined.authorization.resource = none) := by
  intro combined
  refine ⟨fun resource hresource => ?_, fun hpermit resource hone => ?_,
    fun winner kind hwinner hkind hconflict => ?_, fun preferred hpreferred hconflict => ?_⟩
  · rcases resources_of_combine h ds with heq | ⟨hnone, -⟩
    · rw [heq, hresource]
      rfl
    · rw [hnone] at hresource
      exact absurd hresource (by simp)
  · rcases resources_of_combine h ds with heq | ⟨-, hother⟩
    · rw [hpermit, hone] at heq
      cases hcarried : combined.authorization.resource with
      | none => simp [combined, hcarried] at heq
      | some carried =>
        rw [hcarried] at heq
        rw [List.singleton_inj.mp heq]
    · exact absurd hpermit hother
  · rw [show combined = overriding winner ds from combine_of_overriding? hwinner,
      overriding_of_prevails hkind, contribution_of_conflicting hconflict]
    rfl
  · have hdeny : (preferring preferred ds).authorization = .plain .deny := by
      rcases preferring_cases preferred ds with ⟨a, ha, -⟩ | ⟨-, heq⟩
      · exact absurd hconflict (contribution_ok_iff.mp ⟨a, ha⟩)
      · exact heq
    rw [show combined = preferring preferred ds from combine_of_preferred? hpreferred, hdeny]
    exact ⟨rfl, rfl⟩

/-- Two permits that mask the resource: they conflict where permits override, and
where they are preferred they come to a denial. -/
theorem combine_transforms_once_masked :
    let masked (name : String) : DocumentDecision :=
      ⟨name, ⟨.permit, some (.string name), [.string "log"], []⟩, none⟩
    let ds := [masked "a", .notApplicable "b", masked "c"]
    combine .permitOverrides ds
        = ⟨.plain .indeterminate, some (.transformationConflict 2), ds⟩ ∧
      (combine .denyUnlessPermit ds).authorization.decision = .deny ∧
      (combine .permitOverrides (ds.take 2)).authorization.resource = some (.string "a") := by
  intro masked ds
  obtain ⟨-, -, hoverrides, -⟩ := combine_transforms_once .permitOverrides (by decide) ds
  obtain ⟨-, -, -, hprefers⟩ := combine_transforms_once .denyUnlessPermit (by decide) ds
  obtain ⟨-, hone, -, -⟩ := combine_transforms_once .permitOverrides (by decide) (ds.take 2)
  exact ⟨hoverrides .permit .permit rfl rfl (by decide), (hprefers .permit rfl (by decide)).1,
    hone rfl (.string "a") rfl⟩

end Combining

end Verdict
