/-
What a combination keeps of the decisions it was made from.

* `Combining.contribution_ok`: a contribution carries the constraints of the
  first document of its kind.
* `overriding_cases`, `preferring_cases`, `onlyOneApplicable_cases`,
  `firstApplicable_cases`: what each algorithm makes of its decisions.
* `CombiningAlgorithm.FailsClosed`, `combine_ne_permit`: with a failed document
  three of the algorithms never permit.
* `firstApplicable_permit`: the first applicable document permits only if no
  document before it failed.
* `KeepsConstraints`, `keepsConstraints_iff`: the obligations and the advice of
  the first document of the combined kind are kept, except that conflicting
  resources make the two preferring algorithms deny without them.
* `keepsConstraints_conflict`: two denying documents with resources, the first of
  which has an obligation.
-/
import Mathlib.Data.List.TakeWhile
import Verdict.Proofs.Evaluation.DirectDecision

namespace Verdict

namespace Combining

/-! ### Contributions -/

/-- The resources that the documents of a kind carry. -/
def resources (kind : Decision) (ds : List DocumentDecision) : List Json :=
  (ds.filter fun d => d.decision == kind).filterMap fun d => d.authorization.resource

/-- More than one document of the kind carries a resource. -/
def Conflicting (kind : Decision) (ds : List DocumentDecision) : Prop :=
  1 < (resources kind ds).length

lemma has_iff {ds : List DocumentDecision} {kind : Decision} :
    has ds kind = true ↔ ∃ d ∈ ds, d.decision = kind := by
  simp [has, List.any_eq_true]

/-- A contribution fails exactly on conflicting resources. -/
lemma contribution_error_iff {kind : Decision} {ds : List DocumentDecision} :
    (∃ e, contribution kind ds = .error e) ↔ Conflicting kind ds := by
  simp only [contribution, Conflicting, resources]
  cases hfilter : ds.filter fun d => d.decision == kind with
  | nil => simp
  | cons first rest =>
    generalize (first :: rest).filterMap (fun d => d.authorization.resource) = carried
    match carried with
    | [] => simp
    | [resource] => simp
    | r :: r' :: more => simp

/-- A contribution has its kind and the constraints of the first document of
that kind. -/
lemma contribution_ok {kind : Decision} {ds : List DocumentDecision} {a : AuthorizationDecision}
    (h : contribution kind ds = .ok a) :
    a.decision = kind ∧ ∀ first, ds.find? (fun d => d.decision == kind) = some first →
      a.obligations = first.authorization.obligations ∧
        a.advice = first.authorization.advice := by
  rw [← List.head?_filter]
  simp only [contribution] at h
  cases hfilter : ds.filter fun d => d.decision == kind with
  | nil =>
    rw [hfilter] at h
    obtain rfl := Except.ok.inj h
    exact ⟨rfl, fun first hfirst => by simp at hfirst⟩
  | cons d rest =>
    rw [hfilter] at h
    have hkept : a.decision = kind ∧ a.obligations = d.authorization.obligations ∧
        a.advice = d.authorization.advice := by
      simp only at h
      split at h
      · obtain rfl := Except.ok.inj h
        exact ⟨rfl, rfl, rfl⟩
      · obtain rfl := Except.ok.inj h
        exact ⟨rfl, rfl, rfl⟩
      · exact absurd h (by simp)
    refine ⟨hkept.1, fun first hfirst => ?_⟩
    obtain rfl : d = first := by simpa using hfirst
    exact hkept.2

/-! ### Algorithms -/

/-- What an overriding kind makes of decisions: a contribution of a kind that
nothing stands in the way of, or neither permit nor deny. -/
lemma overriding_cases (winner : Decision) (ds : List DocumentDecision) :
    (∃ kind a, (kind = winner ∨ has ds .indeterminate = false) ∧ contribution kind ds = .ok a ∧
      (overriding winner ds).authorization = a) ∨
    (overriding winner ds).authorization = .plain .indeterminate ∨
    (overriding winner ds).authorization = .plain .notApplicable := by
  by_cases hwinner : has ds winner = true
  · cases hc : contribution winner ds with
    | ok a => exact .inl ⟨winner, a, .inl rfl, hc, by simp [overriding, hwinner, hc]⟩
    | error e => exact .inr (.inl (by simp [overriding, hwinner, hc, Combined.indeterminate]))
  by_cases hfailed : has ds .indeterminate = true
  · exact .inr (.inl (by simp [overriding, hwinner, hfailed, Combined.indeterminate]))
  by_cases hother : has ds winner.opposite = true
  · cases hc : contribution winner.opposite ds with
    | ok a =>
      exact .inl ⟨winner.opposite, a, .inr (Bool.eq_false_iff.mpr hfailed), hc,
        by simp [overriding, hwinner, hfailed, hother, hc]⟩
    | error e =>
      exact .inr (.inl (by
        simp [overriding, hwinner, hfailed, hother, hc, Combined.indeterminate]))
  · exact .inr (.inr (by simp [overriding, hwinner, hfailed, hother]))

/-- The kind that a preferring algorithm decides for. -/
def favoured (preferred : Decision) (ds : List DocumentDecision) : Decision :=
  if has ds preferred && !(preferred == .permit && has ds .indeterminate) then preferred
  else preferred.opposite

/-- What a preferring algorithm makes of decisions: a contribution of the kind
that it decides for, or a bare deny where resources conflict. -/
lemma preferring_cases (preferred : Decision) (ds : List DocumentDecision) :
    (∃ a, contribution (favoured preferred ds) ds = .ok a ∧
      (preferring preferred ds).authorization = a) ∨
    (Conflicting (favoured preferred ds) ds ∧
      (preferring preferred ds).authorization = .plain .deny) := by
  cases hc : contribution (favoured preferred ds) ds with
  | ok a =>
    refine .inl ⟨a, rfl, ?_⟩
    rw [favoured] at hc
    simp only [preferring, hc]
  | error e =>
    refine .inr ⟨contribution_error_iff.mp ⟨e, hc⟩, ?_⟩
    rw [favoured] at hc
    simp only [preferring, hc]

/-- What the only applicable document makes of decisions: its own decision, or
neither permit nor deny. -/
lemma onlyOneApplicable_cases (ds : List DocumentDecision) :
    (∃ only, has ds .indeterminate = false ∧
      (ds.filter fun d => d.decision != .notApplicable) = [only] ∧
      (onlyOneApplicable ds).authorization = only.authorization) ∨
    (onlyOneApplicable ds).authorization = .plain .indeterminate ∨
    (onlyOneApplicable ds).authorization = .plain .notApplicable := by
  by_cases hfailed : has ds .indeterminate = true
  · refine .inr (.inl ?_)
    rw [onlyOneApplicable, if_pos hfailed]
    rfl
  rw [onlyOneApplicable, if_neg hfailed]
  generalize ds.filter (fun d => d.decision != .notApplicable) = applicable
  match applicable with
  | [] => exact .inr (.inr rfl)
  | [only] => exact .inl ⟨only, Bool.eq_false_iff.mpr hfailed, rfl, rfl⟩
  | _ :: _ :: _ => exact .inr (.inl rfl)

/-- What the first applicable document makes of decisions: its own decision, or
none applies. -/
lemma firstApplicable_cases (ds : List DocumentDecision) :
    (∃ before d after, ds = before ++ d :: after ∧
      (∀ b ∈ before, b.decision = .notApplicable) ∧ d.decision ≠ .notApplicable ∧
      (firstApplicable ds).authorization = d.authorization) ∨
    (firstApplicable ds).authorization = .plain .notApplicable := by
  cases hfind : ds.find? fun d => d.decision != .notApplicable with
  | none =>
    have hall : ∀ d ∈ ds, d.decision = .notApplicable := by
      simpa using List.find?_eq_none.mp hfind
    have hbefore : (ds.takeWhile fun d => d.decision == .notApplicable) = ds :=
      List.takeWhile_eq_self_iff.mpr fun d hd => beq_iff_eq.mpr (hall d hd)
    refine .inr ?_
    rw [firstApplicable, hbefore, List.drop_length]
  | some d =>
    obtain ⟨happlies, before, after, hsplit, hbefore⟩ := List.find?_eq_some_iff_append.mp hfind
    have happlies : d.decision ≠ .notApplicable := by simpa using happlies
    have hskipped : ∀ b ∈ before, b.decision = .notApplicable := by simpa using hbefore
    refine .inl ⟨before, d, after, hsplit, hskipped, happlies, ?_⟩
    rw [hsplit, firstApplicable_append hskipped happlies]
    rfl

end Combining

/-! ### Failed documents -/

/-- The algorithms under which a failed document stands in the way of a permit,
wherever it stands. -/
def CombiningAlgorithm.FailsClosed (algorithm : CombiningAlgorithm) : Prop :=
  algorithm = .denyOverrides ∨ algorithm = .onlyOneApplicable ∨ algorithm = .denyUnlessPermit

namespace Combining

/-- With a failed document these algorithms do not permit. -/
theorem combine_ne_permit {algorithm : CombiningAlgorithm} (halgorithm : algorithm.FailsClosed)
    {ds : List DocumentDecision} (hfailed : ∃ d ∈ ds, d.decision = .indeterminate) :
    (combine algorithm ds).authorization.decision ≠ .permit := by
  have hhas : has ds .indeterminate = true := has_iff.mpr hfailed
  rcases halgorithm with rfl | rfl | rfl
  · change (overriding .deny ds).authorization.decision ≠ .permit
    rcases overriding_cases .deny ds with ⟨kind, a, hkind, ha, heq⟩ | heq | heq
    · rcases hkind with rfl | hnone
      · rw [heq, (contribution_ok ha).1]
        decide
      · rw [hhas] at hnone
        exact absurd hnone (by decide)
    · rw [heq]
      decide
    · rw [heq]
      decide
  · change (onlyOneApplicable ds).authorization.decision ≠ .permit
    rw [onlyOneApplicable, if_pos hhas]
    exact (by decide : Decision.indeterminate ≠ .permit)
  · change (preferring .permit ds).authorization.decision ≠ .permit
    have hdeny : favoured .permit ds = .deny := by simp [favoured, hhas, Decision.opposite]
    rcases preferring_cases .permit ds with ⟨a, ha, heq⟩ | ⟨-, heq⟩
    · rw [heq, (contribution_ok ha).1, hdeny]
      decide
    · rw [heq]
      decide

/-- The first applicable document permits only if a permitting one stands before
every failed one. -/
theorem firstApplicable_permit {ds : List DocumentDecision}
    (h : (combine .firstApplicable ds).authorization.decision = .permit) :
    ∃ before d after, ds = before ++ d :: after ∧ d.decision = .permit ∧
      ∀ b ∈ before, b.decision ≠ .indeterminate := by
  change (firstApplicable ds).authorization.decision = .permit at h
  rcases firstApplicable_cases ds with ⟨before, d, after, hsplit, hbefore, -, heq⟩ | heq
  · rw [heq] at h
    refine ⟨before, d, after, hsplit, h, fun b hb => ?_⟩
    rw [hbefore b hb]
    decide
  · rw [heq] at h
    exact absurd h (by decide)

/-! ### Constraints -/

/-- A permit or a deny with the obligations and the advice of the first document
that decides so, if there is one. -/
def KeepsConstraints (ds : List DocumentDecision) (a : AuthorizationDecision) : Prop :=
  a.decision = .permit ∨ a.decision = .deny →
    ∀ first, ds.find? (fun d => d.decision == a.decision) = some first →
      a.obligations = first.authorization.obligations ∧ a.advice = first.authorization.advice

/-- The kind that a preferring algorithm prefers. -/
def preferred? : CombiningAlgorithm → Option Decision
  | .denyUnlessPermit => some .permit
  | .permitUnlessDeny => some .deny
  | _ => none

lemma keeps_contribution {kind : Decision} {ds : List DocumentDecision}
    {a : AuthorizationDecision} (ha : contribution kind ds = .ok a) : KeepsConstraints ds a := by
  intro _ first hfirst
  obtain ⟨hkind, hconstraints⟩ := contribution_ok ha
  rw [hkind] at hfirst
  exact hconstraints first hfirst

/-- A decision that is neither permit nor deny has no constraints to keep. -/
lemma keeps_of_undecided (ds : List DocumentDecision) {a : AuthorizationDecision}
    (hpermit : a.decision ≠ .permit) (hdeny : a.decision ≠ .deny) : KeepsConstraints ds a := by
  rintro (h | h)
  · exact absurd h hpermit
  · exact absurd h hdeny

/-- A bare deny keeps the constraints only where there are none. -/
lemma keeps_plain_deny_iff {ds : List DocumentDecision} :
    KeepsConstraints ds (.plain .deny) ↔
      ∀ first, ds.find? (fun d => d.decision == .deny) = some first →
        first.authorization.obligations = [] ∧ first.authorization.advice = [] := by
  constructor
  · intro h first hfirst
    obtain ⟨hobligations, hadvice⟩ := h (.inr rfl) first hfirst
    exact ⟨hobligations.symm, hadvice.symm⟩
  · intro h _ first hfirst
    obtain ⟨hobligations, hadvice⟩ := h first hfirst
    exact ⟨hobligations.symm, hadvice.symm⟩

lemma keeps_overriding (winner : Decision) (ds : List DocumentDecision) :
    KeepsConstraints ds (overriding winner ds).authorization := by
  rcases overriding_cases winner ds with ⟨kind, a, -, ha, heq⟩ | heq | heq
  · rw [heq]
    exact keeps_contribution ha
  · rw [heq]
    exact keeps_of_undecided ds (by decide) (by decide)
  · rw [heq]
    exact keeps_of_undecided ds (by decide) (by decide)

lemma keeps_onlyOneApplicable (ds : List DocumentDecision) :
    KeepsConstraints ds (onlyOneApplicable ds).authorization := by
  rcases onlyOneApplicable_cases ds with ⟨only, -, honly, heq⟩ | heq | heq
  · rw [heq]
    intro hdecided first hfirst
    -- The first document of the kind applies, and only one document does.
    have hdecision : first.decision = only.authorization.decision := by
      simpa using List.find?_some hfirst
    have happlies : first.decision ≠ .notApplicable := by
      rw [hdecision]
      rcases hdecided with h | h <;> simp [h]
    have hmem : first ∈ ds.filter fun d => d.decision != .notApplicable :=
      List.mem_filter.mpr ⟨List.mem_of_find?_eq_some hfirst, by simpa using happlies⟩
    rw [honly] at hmem
    rw [List.mem_singleton.mp hmem]
    exact ⟨rfl, rfl⟩
  · rw [heq]
    exact keeps_of_undecided ds (by decide) (by decide)
  · rw [heq]
    exact keeps_of_undecided ds (by decide) (by decide)

lemma keeps_firstApplicable (ds : List DocumentDecision) :
    KeepsConstraints ds (firstApplicable ds).authorization := by
  rcases firstApplicable_cases ds with ⟨before, d, after, hsplit, hbefore, happlies, heq⟩ | heq
  · rw [heq]
    intro _ first hfirst
    have hfind : ds.find? (fun b => b.decision == d.authorization.decision) = some d := by
      rw [hsplit, List.find?_eq_some_iff_append]
      refine ⟨beq_self_eq_true _, before, after, rfl, fun b hb => ?_⟩
      rw [hbefore b hb]
      simpa [DocumentDecision.decision] using Ne.symm happlies
    obtain rfl : d = first := Option.some.inj (hfind.symm.trans hfirst)
    exact ⟨rfl, rfl⟩
  · rw [heq]
    exact keeps_of_undecided ds (by decide) (by decide)

/-- A preferring algorithm keeps the constraints unless resources conflict; then
it denies without any. -/
lemma keeps_preferring_iff (preferred : Decision) (ds : List DocumentDecision) :
    KeepsConstraints ds (preferring preferred ds).authorization ↔
      (Conflicting (favoured preferred ds) ds →
        ∀ first, ds.find? (fun d => d.decision == .deny) = some first →
          first.authorization.obligations = [] ∧ first.authorization.advice = []) := by
  rcases preferring_cases preferred ds with ⟨a, ha, heq⟩ | ⟨hconflict, heq⟩
  · have hclear : ¬ Conflicting (favoured preferred ds) ds := by
      intro hconflict
      obtain ⟨e, he⟩ := contribution_error_iff.mpr hconflict
      rw [ha] at he
      exact absurd he (by simp)
    rw [heq]
    exact iff_of_true (keeps_contribution ha) fun hconflict => absurd hconflict hclear
  · rw [heq, keeps_plain_deny_iff]
    exact ⟨fun h _ => h, fun h => h hconflict⟩

/-- The constraints are kept, except where a preferring algorithm meets
conflicting resources of the kind that it decides for while the first denying
document has constraints. -/
theorem keepsConstraints_iff (algorithm : CombiningAlgorithm) (ds : List DocumentDecision) :
    KeepsConstraints ds (combine algorithm ds).authorization ↔
      ∀ preferred, preferred? algorithm = some preferred →
        Conflicting (favoured preferred ds) ds →
          ∀ first, ds.find? (fun d => d.decision == .deny) = some first →
            first.authorization.obligations = [] ∧ first.authorization.advice = [] := by
  cases algorithm with
  | firstApplicable => simpa [preferred?, combine] using keeps_firstApplicable ds
  | denyOverrides => simpa [preferred?, combine] using keeps_overriding .deny ds
  | permitOverrides => simpa [preferred?, combine] using keeps_overriding .permit ds
  | onlyOneApplicable => simpa [preferred?, combine] using keeps_onlyOneApplicable ds
  | denyUnlessPermit => simpa [preferred?, combine] using keeps_preferring_iff .permit ds
  | permitUnlessDeny => simpa [preferred?, combine] using keeps_preferring_iff .deny ds

/-- Two permitting documents replace the resource: the denying one decides, but
its obligation to log is lost. -/
theorem keepsConstraints_conflict :
    ¬ ∀ algorithm ds, KeepsConstraints ds (combine algorithm ds).authorization := by
  intro h
  obtain ⟨hobligations, -⟩ := h .denyUnlessPermit
    [⟨"a", ⟨.permit, some (.string "masked"), [], []⟩, none⟩,
      ⟨"b", ⟨.permit, some (.string "hidden"), [], []⟩, none⟩,
      ⟨"c", ⟨.deny, none, [.string "log"], []⟩, none⟩] (.inr rfl) _ rfl
  exact absurd (congrArg List.length hobligations) (by decide)

end Combining
end Verdict
