/-
Documents that do not apply.

What is combined is the decisions of the documents that apply, in their order.  A
document that does not apply may be left out or put in anywhere.

* `Combining.applicable`: the documents that apply.
* `Combining.Padded`: documents with more of those that do not apply among them.
* `Combining.has_applicable`, `firstError?_applicable`, `contribution_applicable`:
  what an algorithm looks at.
* `Combining.overriding_applicable`, `preferring_applicable`,
  `onlyOneApplicable_applicable`, `firstApplicable_applicable`: the algorithms.
* `Combining.combine_neutral`: combinations without those that do not apply, and with
  more of them.
* `Combining.combine_neutral_spread`: two permits with a document before, between and
  after them.
-/
import Verdict.Proofs.Authorization.Transformation

namespace Verdict

/-- What a combination decides, and why it is indeterminate if it is; not the
documents that it was made from. -/
def Combined.outcome (c : Combined) : AuthorizationDecision × Option EvalError :=
  (c.authorization, c.error)

/-- The outcome is the decision and the error, without the report of the documents. -/
lemma Combined.outcome_eq_iff {c c' : Combined} :
    c.outcome = c'.outcome ↔ c.authorization = c'.authorization ∧ c.error = c'.error :=
  Prod.ext_iff

namespace Combining

variable {ds ds' : List DocumentDecision} {kind : Decision}

/-! ### The documents that apply -/

/-- The documents that apply, in their order. -/
def applicable (ds : List DocumentDecision) : List DocumentDecision :=
  ds.filter fun d => d.decision != .notApplicable

lemma applicable_cons_of_applies {d : DocumentDecision} (h : d.decision ≠ .notApplicable) :
    applicable (d :: ds) = d :: applicable ds :=
  List.filter_cons_of_pos (by simpa using h)

lemma applicable_cons_of_notApplicable {d : DocumentDecision} (h : d.decision = .notApplicable) :
    applicable (d :: ds) = applicable ds :=
  List.filter_cons_of_neg (by simp [h])

lemma applicable_applicable (ds : List DocumentDecision) :
    applicable (applicable ds) = applicable ds := by
  rw [applicable, applicable, List.filter_filter]
  simp only [Bool.and_self]

/-- The second list is the first one with documents put in that do not apply, each of
them wherever it may be. -/
inductive Padded (ds : List DocumentDecision) : List DocumentDecision → Prop
  | refl : Padded ds ds
  | insert (before after : List DocumentDecision) (d : DocumentDecision) :
      d.decision = .notApplicable → Padded ds (before ++ after) →
        Padded ds (before ++ d :: after)

/-- The same documents apply. -/
lemma Padded.applicable_eq (h : Padded ds ds') : applicable ds' = applicable ds := by
  induction h with
  | refl => rfl
  | insert before after d hd _ ih =>
    calc applicable (before ++ d :: after)
        = applicable before ++ applicable (d :: after) := List.filter_append ..
      _ = applicable before ++ applicable after := by rw [applicable_cons_of_notApplicable hd]
      _ = applicable (before ++ after) := (List.filter_append ..).symm
      _ = applicable ds := ih

/-! ### What an algorithm looks at -/

/-- The documents of a kind are found among those that apply. -/
lemma filter_applicable (hkind : kind ≠ .notApplicable) (ds : List DocumentDecision) :
    ((applicable ds).filter fun d => d.decision == kind) =
      ds.filter fun d => d.decision == kind := by
  rw [applicable, List.filter_filter]
  refine List.filter_congr fun d _ => ?_
  by_cases hd : d.decision = kind
  · simp [hd, hkind]
  · simp [hd]

/-- Documents that do not apply count for no other kind. -/
lemma has_applicable (hkind : kind ≠ .notApplicable) (ds : List DocumentDecision) :
    has (applicable ds) kind = has ds kind := by
  rw [Bool.eq_iff_iff, has_iff, has_iff]
  constructor
  · rintro ⟨d, hd, rfl⟩
    exact ⟨d, List.mem_of_mem_filter hd, rfl⟩
  · rintro ⟨d, hd, rfl⟩
    exact ⟨d, List.mem_filter.mpr ⟨hd, by simpa using hkind⟩, rfl⟩

/-- The first error is one of a document that applies. -/
lemma firstError?_applicable (ds : List DocumentDecision) :
    firstError? (applicable ds) = firstError? ds := by
  induction ds with
  | nil => rfl
  | cons d ds ih =>
    by_cases h : d.decision = .notApplicable
    · rw [applicable_cons_of_notApplicable h, ih]
      simp [firstError?, h]
    · rw [applicable_cons_of_applies h]
      simp only [firstError?, List.findSome?_cons] at ih ⊢
      rw [ih]

lemma contribution_applicable (hkind : kind ≠ .notApplicable) (ds : List DocumentDecision) :
    contribution kind (applicable ds) = contribution kind ds := by
  simp only [contribution, filter_applicable hkind]

/-! ### The algorithms -/

lemma indeterminate_ne_notApplicable : Decision.indeterminate ≠ .notApplicable := by decide

lemma opposite_ne_notApplicable (hkind : kind ≠ .notApplicable) :
    kind.opposite ≠ .notApplicable := by
  cases kind with
  | notApplicable => exact absurd rfl hkind
  | permit | deny | indeterminate => simp [Decision.opposite]

/-- An overriding kind looks for itself, for failures and for its opposite, none of which is
lost. -/
lemma overriding_applicable {winner : Decision} (hwinner : winner ≠ .notApplicable)
    (ds : List DocumentDecision) :
    (overriding winner (applicable ds)).outcome = (overriding winner ds).outcome := by
  have hopposite := opposite_ne_notApplicable hwinner
  simp only [overriding, has_applicable hwinner, has_applicable hopposite,
    has_applicable indeterminate_ne_notApplicable, contribution_applicable hwinner,
    contribution_applicable hopposite, firstError?_applicable]
  by_cases hwins : has ds winner = true
  · simp only [if_pos hwins]
    cases contribution winner ds <;> rfl
  by_cases hfailed : has ds .indeterminate = true
  · simp only [if_neg hwins, if_pos hfailed]
    rfl
  by_cases hother : has ds winner.opposite = true
  · simp only [if_neg hwins, if_neg hfailed, if_pos hother]
    cases contribution winner.opposite ds <;> rfl
  · simp only [if_neg hwins, if_neg hfailed, if_neg hother]
    rfl

/-- So does a preferred kind; what it falls back on is the same. -/
lemma preferring_applicable {preferred : Decision} (hpreferred : preferred ≠ .notApplicable)
    (ds : List DocumentDecision) :
    (preferring preferred (applicable ds)).outcome = (preferring preferred ds).outcome := by
  have hkind : favoured preferred ds ≠ .notApplicable := by
    rw [favoured]
    split
    · exact hpreferred
    · exact opposite_ne_notApplicable hpreferred
  rw [favoured] at hkind
  simp only [preferring, has_applicable hpreferred,
    has_applicable indeterminate_ne_notApplicable, contribution_applicable hkind]
  cases contribution _ ds <;> rfl

/-- Those that apply are counted, and the failed ones are among them. -/
lemma onlyOneApplicable_applicable (ds : List DocumentDecision) :
    (onlyOneApplicable (applicable ds)).outcome = (onlyOneApplicable ds).outcome := by
  rw [onlyOneApplicable, onlyOneApplicable, has_applicable indeterminate_ne_notApplicable,
    firstError?_applicable, ← applicable, ← applicable, applicable_applicable]
  split
  · rfl
  · generalize applicable ds = found
    obtain _ | ⟨only, _ | ⟨second, more⟩⟩ := found <;> rfl

/-- The first document that applies stands first among those that do. -/
lemma firstApplicable_outcome (ds : List DocumentDecision) :
    (firstApplicable ds).outcome =
      match applicable ds with
      | [] => (.plain .notApplicable, none)
      | first :: _ => (first.authorization, first.error) := by
  induction ds with
  | nil => rfl
  | cons d ds ih =>
    by_cases h : d.decision = .notApplicable
    · rw [applicable_cons_of_notApplicable h, ← ih]
      simp only [firstApplicable, List.takeWhile_cons, h, beq_self_eq_true, if_true,
        List.length_cons, List.drop_succ_cons]
      split <;> rfl
    · rw [applicable_cons_of_applies h]
      exact congrArg Combined.outcome (firstApplicable_append (List.forall_mem_nil _) h ds)

lemma firstApplicable_applicable (ds : List DocumentDecision) :
    (firstApplicable (applicable ds)).outcome = (firstApplicable ds).outcome := by
  rw [firstApplicable_outcome, firstApplicable_outcome, applicable_applicable]

/-! ### Combinations -/

/-- What is decided and what fails is that of the documents that apply. -/
lemma combine_applicable (algorithm : CombiningAlgorithm) (ds : List DocumentDecision) :
    (combine algorithm (applicable ds)).outcome = (combine algorithm ds).outcome := by
  cases algorithm with
  | firstApplicable => exact firstApplicable_applicable ds
  | denyOverrides => exact overriding_applicable (by decide) ds
  | permitOverrides => exact overriding_applicable (by decide) ds
  | onlyOneApplicable => exact onlyOneApplicable_applicable ds
  | denyUnlessPermit => exact preferring_applicable (by decide) ds
  | permitUnlessDeny => exact preferring_applicable (by decide) ds

/-- Under every algorithm the authorization and the error of a combination are the same
without the documents that do not apply, and with more of them wherever they are put
in. -/
theorem combine_neutral (algorithm : CombiningAlgorithm) (ds : List DocumentDecision) :
    ((combine algorithm (applicable ds)).authorization = (combine algorithm ds).authorization ∧
      (combine algorithm (applicable ds)).error = (combine algorithm ds).error) ∧
    ∀ ds', Padded ds ds' →
      (combine algorithm ds').authorization = (combine algorithm ds).authorization ∧
        (combine algorithm ds').error = (combine algorithm ds).error := by
  refine ⟨Combined.outcome_eq_iff.mp (combine_applicable algorithm ds), fun ds' h => ?_⟩
  refine Combined.outcome_eq_iff.mp ?_
  calc (combine algorithm ds').outcome
      = (combine algorithm (applicable ds')).outcome := (combine_applicable algorithm ds').symm
    _ = (combine algorithm (applicable ds)).outcome := by rw [h.applicable_eq]
    _ = (combine algorithm ds).outcome := combine_applicable algorithm ds

/-- Of two permits the first is the only one with a resource, wherever documents stand
that do not apply: the masked record is permitted. -/
theorem combine_neutral_spread :
    let mask : DocumentDecision := ⟨"mask", ⟨.permit, some (.string "masked"), [], []⟩, none⟩
    let read : DocumentDecision := ⟨"read", .plain .permit, none⟩
    let other : DocumentDecision := .notApplicable "other"
    Padded [mask, read] [other, mask, other, read, other] ∧
      (combine .denyOverrides [other, mask, other, read, other]).authorization
        = (combine .denyOverrides [mask, read]).authorization ∧
      (combine .denyOverrides [other, mask, other, read, other]).error
        = (combine .denyOverrides [mask, read]).error := by
  intro mask read other
  have hpadded : Padded [mask, read] [other, mask, other, read, other] := by
    refine .insert [] [mask, other, read, other] other rfl ?_
    refine .insert [mask] [read, other] other rfl ?_
    exact .insert [mask, read] [] other rfl .refl
  exact ⟨hpadded, (combine_neutral .denyOverrides [mask, read]).2 _ hpadded⟩

end Combining
end Verdict
