/-
Documents in another order.

All algorithms but that of the first applicable document decide for the same kind
and the same resource, in whatever order the documents stand.  Which of them gives
the obligations and the advice may depend on the order, but it is always one that
decides so.

* `Combining.contribution_perm`: the contribution of a kind.
* `Combining.prevailing_perm`, `favoured_perm`: the kind that an algorithm decides for.
* `Combining.overriding_perm`, `preferring_perm`, `onlyOneApplicable_perm`: the algorithms.
* `Combining.ConstrainedByOne`: constraints that come from one document.
* `Combining.combine_perm`: combinations of documents in two orders.
* `Combining.combine_perm_swapped`: two permits with an obligation each.
-/
import Verdict.Proofs.Authorization.Transformation

namespace Verdict

namespace Combining

variable {ds ds' : List DocumentDecision} {kind : Decision} {a : AuthorizationDecision}

/-- The same outcome, with the same resource. -/
structure SameOutcome (a b : AuthorizationDecision) : Prop where
  decision : a.decision = b.decision
  resource : a.resource = b.resource

lemma SameOutcome.of_eq {a b : AuthorizationDecision} (h : a = b) : SameOutcome a b :=
  ⟨congrArg _ h, congrArg _ h⟩

/-! ### What an algorithm looks at -/

/-- Whether some decision is of a kind does not depend on the order. -/
lemma has_perm (hperm : ds.Perm ds') (kind : Decision) : has ds kind = has ds' kind := by
  rw [Bool.eq_iff_iff, has_iff, has_iff]
  exact exists_congr fun d => and_congr_left fun _ => hperm.mem_iff

/-- The transformed resources of a kind are the same, in another order. -/
lemma resources_perm (hperm : ds.Perm ds') (kind : Decision) :
    (resources kind ds).Perm (resources kind ds') :=
  (hperm.filter _).filterMap _

/-- So there are several of them in one order exactly if there are in another. -/
lemma conflicting_perm (hperm : ds.Perm ds') : Conflicting kind ds ↔ Conflicting kind ds' := by
  rw [Conflicting, Conflicting, (resources_perm hperm kind).length_eq]

lemma prevailing_perm (hperm : ds.Perm ds') (winner : Decision) :
    prevailing winner ds = prevailing winner ds' := by
  simp only [prevailing, has_perm hperm]

lemma favoured_perm (hperm : ds.Perm ds') (preferred : Decision) :
    favoured preferred ds = favoured preferred ds' := by
  simp only [favoured, has_perm hperm]

/-- In another order the same kind contributes the same resource. -/
lemma contribution_perm (hperm : ds.Perm ds') (ha : contribution kind ds = .ok a) :
    ∃ b, contribution kind ds' = .ok b ∧ SameOutcome a b := by
  have hclear : ¬ Conflicting kind ds' := by
    rw [← conflicting_perm hperm]
    exact contribution_ok_iff.mp ⟨a, ha⟩
  obtain ⟨b, hb⟩ := contribution_ok_iff.mpr hclear
  refine ⟨b, hb, ?_, ?_⟩
  · rw [(contribution_ok ha).1, (contribution_ok hb).1]
  · have hresources := resources_perm hperm kind
    rw [resources_of_contribution_ok ha, resources_of_contribution_ok hb] at hresources
    cases hcarried : a.resource with
    | none =>
      rw [hcarried] at hresources
      exact (Option.toList_eq_nil_iff.mp (List.nil_perm.mp hresources)).symm
    | some resource =>
      rw [hcarried] at hresources
      exact (Option.toList_eq_singleton_iff.mp (List.singleton_perm.mp hresources).symm).symm

/-! ### The algorithms -/

/-- Under the overriding algorithms the order decides about obligations and advice alone. -/
lemma overriding_perm (hperm : ds.Perm ds') (winner : Decision) :
    SameOutcome (overriding winner ds).authorization (overriding winner ds').authorization := by
  have hsame := prevailing_perm hperm winner
  cases hkind : prevailing winner ds with
  | none =>
    rw [overriding_of_none_prevails hkind, overriding_of_none_prevails (hsame ▸ hkind),
      has_perm hperm]
    exact .of_eq rfl
  | some kind =>
    rw [overriding_of_prevails hkind, overriding_of_prevails (hsame ▸ hkind)]
    cases ha : contribution kind ds with
    | ok a =>
      obtain ⟨b, hb, hab⟩ := contribution_perm hperm ha
      rw [hb]
      exact hab
    | error e =>
      obtain ⟨e', he'⟩ := contribution_error_iff.mpr
        ((conflicting_perm hperm).mp (contribution_error_iff.mp ⟨e, ha⟩))
      rw [he']
      exact .of_eq rfl

/-- So it does under the algorithms with a default. -/
lemma preferring_perm (hperm : ds.Perm ds') (preferred : Decision) :
    SameOutcome (preferring preferred ds).authorization
      (preferring preferred ds').authorization := by
  have hsame := favoured_perm hperm preferred
  rcases preferring_cases preferred ds with ⟨a, ha, heq⟩ | ⟨hconflict, heq⟩ <;>
    rcases preferring_cases preferred ds' with ⟨b, hb, heq'⟩ | ⟨hconflict', heq'⟩ <;>
    rw [heq, heq']
  · obtain ⟨b', hb', hab⟩ := contribution_perm hperm ha
    rw [← hsame, hb'] at hb
    rwa [← Except.ok.inj hb]
  · rw [← hsame, ← conflicting_perm hperm] at hconflict'
    exact absurd hconflict' (contribution_ok_iff.mp ⟨a, ha⟩)
  · rw [hsame, conflicting_perm hperm] at hconflict
    exact absurd hconflict (contribution_ok_iff.mp ⟨b, hb⟩)
  · exact .of_eq rfl

/-- Where only one document may apply, the outcome is that of this document in any order.
-/
lemma onlyOneApplicable_perm (hperm : ds.Perm ds') :
    SameOutcome (onlyOneApplicable ds).authorization (onlyOneApplicable ds').authorization := by
  rw [onlyOneApplicable, onlyOneApplicable, has_perm hperm]
  split
  · exact .of_eq rfl
  · have happlicable := hperm.filter fun d => d.decision != .notApplicable
    generalize ds.filter (fun d => d.decision != .notApplicable) = applicable at happlicable
    generalize ds'.filter (fun d => d.decision != .notApplicable) = applicable' at happlicable
    cases applicable with
    | nil =>
      obtain rfl := List.nil_perm.mp happlicable
      exact .of_eq rfl
    | cons d rest =>
      cases rest with
      | nil =>
        obtain rfl := List.singleton_perm.mp happlicable
        exact .of_eq rfl
      | cons e rest =>
        have hlength := happlicable.length_eq
        obtain _ | ⟨d', _ | ⟨e', rest'⟩⟩ := applicable'
        · simp at hlength
        · simp at hlength
        · exact .of_eq rfl

/-! ### Constraints -/

/-- There is nothing to honour, or the constraints are those of one of the documents
that decide so. -/
def ConstrainedByOne (ds : List DocumentDecision) (a : AuthorizationDecision) : Prop :=
  (a.obligations = [] ∧ a.advice = []) ∨ ∃ d ∈ ds, d.decision = a.decision ∧
    a.obligations = d.authorization.obligations ∧ a.advice = d.authorization.advice

lemma constrainedByOne_plain (ds : List DocumentDecision) (kind : Decision) :
    ConstrainedByOne ds (.plain kind) := .inl ⟨rfl, rfl⟩

/-- A contribution is made in the name of the first document of its kind. -/
lemma constrainedByOne_contribution (ha : contribution kind ds = .ok a) :
    ConstrainedByOne ds a := by
  obtain ⟨hkind, hconstraints⟩ := contribution_ok ha
  cases hfind : ds.find? fun d => d.decision == kind with
  | some first =>
    refine .inr ⟨first, List.mem_of_find?_eq_some hfind, ?_, hconstraints first hfind⟩
    rw [hkind]
    simpa using List.find?_some hfind
  | none =>
    rw [← List.head?_filter, List.head?_eq_none_iff] at hfind
    simp only [contribution, hfind] at ha
    rw [← Except.ok.inj ha]
    exact constrainedByOne_plain ds kind

/-- Whatever is combined, the constraints are those of one document. -/
theorem constrainedByOne_combine {algorithm : CombiningAlgorithm}
    (h : algorithm ≠ .firstApplicable) (ds : List DocumentDecision) :
    ConstrainedByOne ds (combine algorithm ds).authorization := by
  rcases algorithm_cases h with ⟨winner, hwinner⟩ | ⟨preferred, hpreferred⟩ | rfl
  · rw [combine_of_overriding? hwinner]
    rcases overriding_cases winner ds with ⟨kind, a, -, ha, heq⟩ | heq | heq <;> rw [heq]
    · exact constrainedByOne_contribution ha
    · exact constrainedByOne_plain ds _
    · exact constrainedByOne_plain ds _
  · rw [combine_of_preferred? hpreferred]
    rcases preferring_cases preferred ds with ⟨a, ha, heq⟩ | ⟨-, heq⟩ <;> rw [heq]
    · exact constrainedByOne_contribution ha
    · exact constrainedByOne_plain ds _
  · change ConstrainedByOne ds (onlyOneApplicable ds).authorization
    rcases onlyOneApplicable_cases ds with ⟨only, -, honly, heq⟩ | heq | heq <;> rw [heq]
    · have hmem : only ∈ ds.filter fun d => d.decision != .notApplicable := by simp [honly]
      exact .inr ⟨only, List.mem_of_mem_filter hmem, rfl, rfl, rfl⟩
    · exact constrainedByOne_plain ds _
    · exact constrainedByOne_plain ds _

/-! ### Combinations -/

/-- Every algorithm but that of the first applicable document decides for the same
kind with the same resource, in whatever order the documents stand; and in each
order, what there is to honour comes from one of the documents that decide so. -/
theorem combine_perm (algorithm : CombiningAlgorithm) (h : algorithm ≠ .firstApplicable)
    (ds ds' : List DocumentDecision) (hperm : ds.Perm ds') :
    let a := (combine algorithm ds).authorization
    let b := (combine algorithm ds').authorization
    a.decision = b.decision ∧ a.resource = b.resource ∧
      ConstrainedByOne ds a ∧ ConstrainedByOne ds' b := by
  intro a b
  have hsame : SameOutcome a b := by
    rcases algorithm_cases h with ⟨winner, hwinner⟩ | ⟨preferred, hpreferred⟩ | rfl
    · simp only [a, b, combine_of_overriding? hwinner]
      exact overriding_perm hperm winner
    · simp only [a, b, combine_of_preferred? hpreferred]
      exact preferring_perm hperm preferred
    · exact onlyOneApplicable_perm hperm
  exact ⟨hsame.decision, hsame.resource, constrainedByOne_combine h ds,
    constrainedByOne_combine h ds'⟩

/-- Two permits with an obligation each, in both orders: the obligation is that of the
first one, the outcome is the same. -/
theorem combine_perm_swapped :
    let logged (name : String) : DocumentDecision :=
      ⟨name, ⟨.permit, none, [.string name], []⟩, none⟩
    let ds := [logged "a", .notApplicable "b", logged "c"]
    (combine .denyOverrides ds).authorization.decision
        = (combine .denyOverrides ds.reverse).authorization.decision ∧
      (combine .denyOverrides ds).authorization.obligations = [.string "a"] ∧
      (combine .denyOverrides ds.reverse).authorization.obligations = [.string "c"] := by
  intro logged ds
  obtain ⟨hdecision, -, -, -⟩ := combine_perm .denyOverrides (by decide) ds ds.reverse
    ds.reverse_perm.symm
  exact ⟨hdecision, rfl, rfl⟩

end Combining

end Verdict
