/-
Decisions on the wire.

A decision is written with its outcome and with those of its other members that are
there, and read back as a record whose members may be left out.  Reading always
succeeds.  It gives the decision back, except that a null counts as an absent resource:
a transformation that replaces the resource by null is lost.

* `Json.merged_of_distinct`: reading keeps values whose members do not repeat.
* `Json.uniqueMember?_optional`: a member that may be left out is read as it was written.
* `AuthorizationDecision.HasDistinctKeys`: no value in a decision names a member twice.
* `AuthorizationDecision.ofJson?_toJson`: what is read back.
* `AuthorizationDecision.read_eq_written_iff`: when it is the decision that was written.
-/
import Mathlib
import Verdict.DecisionPoint.Basic

namespace Verdict

namespace Json

/-! ### Merging -/

lemma setMember_of_not_mem {key : String} {members : List (String × Json)}
    (h : key ∉ members.map Prod.fst) (value : Json) :
    setMember key value members = members ++ [(key, value)] := by
  induction members with
  | nil => rfl
  | cons member rest ih =>
    obtain ⟨k, v⟩ := member
    rw [List.map_cons, List.mem_cons, not_or] at h
    rw [setMember, if_neg (Ne.symm h.1), ih h.2]
    rfl

lemma foldl_setMember (done : List (String × Json)) {members : List (String × Json)}
    (h : ((done ++ members).map Prod.fst).Nodup) :
    members.foldl (fun done (key, value) => setMember key value done) done = done ++ members := by
  induction members generalizing done with
  | nil => exact (List.append_nil done).symm
  | cons member rest ih =>
    obtain ⟨key, value⟩ := member
    have hkey : key ∉ done.map Prod.fst := by
      rw [List.map_append, List.nodup_append] at h
      exact fun hmem => h.2.2 key hmem key List.mem_cons_self rfl
    have hsplit : done ++ (key, value) :: rest = done ++ [(key, value)] ++ rest := by simp
    rw [List.foldl_cons, hsplit]
    simp only [setMember_of_not_mem hkey]
    exact ih _ (hsplit ▸ h)

lemma distinctMembers_of_nodup {members : List (String × Json)}
    (h : (members.map Prod.fst).Nodup) : distinctMembers members = members :=
  foldl_setMember [] h

mutual

/-- Without repeated members there is nothing to merge. -/
theorem merged_of_distinct : (value : Json) → value.HasDistinctKeys → value.merged = value
  | .array items, h => congrArg Json.array (mergedItems_of_distinct items h)
  | .object members, h => by
    rw [merged, mergedMembers_of_distinct members h.2, distinctMembers_of_nodup h.1]
  | .null, _ | .bool _, _ | .number _, _ | .string _, _ => rfl

theorem mergedItems_of_distinct : (items : List Json) → ItemsDistinct items →
    mergedItems items = items
  | [], _ => rfl
  | item :: rest, h =>
    congrArg₂ List.cons (merged_of_distinct item h.1) (mergedItems_of_distinct rest h.2)

theorem mergedMembers_of_distinct : (members : List (String × Json)) → MembersDistinct members →
    mergedMembers members = members
  | [], _ => rfl
  | (key, value) :: rest, h =>
    congrArg₂ List.cons (congrArg (key, ·) (merged_of_distinct value h.1))
      (mergedMembers_of_distinct rest h.2)

end

/-! ### Members of a record -/

lemma filter_member (name field : String) (value? : Option Json) :
    ((value?.map (name, ·)).toList.filter fun m => m.1 == field)
      = if name = field then (value?.map (name, ·)).toList else [] := by
  cases value? <;> by_cases h : name = field <;> simp [h]

/-- A member that is written if there is a value for it is read as that value. -/
lemma uniqueMember?_optional {field : String} {value? : Option Json}
    {members : List (String × Json)}
    (hmembers : (members.filter fun m => m.1 == field) = (value?.map (field, ·)).toList)
    (hkeys : ∀ value ∈ value?, value.HasDistinctKeys) :
    uniqueMember? field members = some value? := by
  rw [uniqueMember?, hmembers]
  cases value? with
  | none => rfl
  | some value => exact congrArg (some ∘ some) (merged_of_distinct value (hkeys value rfl))

end Json

namespace AuthorizationDecision

/-- No object in the resource or in a constraint names a member twice. -/
structure HasDistinctKeys (d : AuthorizationDecision) : Prop where
  resource : ∀ resource ∈ d.resource, resource.HasDistinctKeys
  obligations : (Json.array d.obligations).HasDistinctKeys
  advice : (Json.array d.advice).HasDistinctKeys

/-- A list of constraints as a member, left out if it is empty. -/
def listMember? (items : List Json) : Option Json :=
  if items.isEmpty then none else some (.array items)

lemma list?_listMember? (items : List Json) : list? (listMember? items) = some items := by
  cases items <;> rfl

lemma toJson_eq (d : AuthorizationDecision) : d.toJson = .object
    (("decision", .string d.decision.name) :: ((d.resource.map ("resource", ·)).toList ++
      ((listMember? d.obligations).map ("obligations", ·)).toList ++
      ((listMember? d.advice).map ("advice", ·)).toList)) := by
  obtain ⟨decision, resource, obligations, advice⟩ := d
  cases resource <;> cases obligations <;> cases advice <;> rfl

/-- The members of a written decision, field by field. -/
lemma record?_toJson {d : AuthorizationDecision} (hkeys : d.HasDistinctKeys) :
    d.toJson.record? ["decision", "resource", "obligations", "advice"] =
      some [some (.string d.decision.name), d.resource, listMember? d.obligations,
        listMember? d.advice] := by
  have hlist {items : List Json} (h : (Json.array items).HasDistinctKeys) :
      ∀ value ∈ listMember? items, value.HasDistinctKeys := by
    intro value hvalue
    cases items with
    | nil => exact absurd hvalue (Option.not_mem_none value)
    | cons item rest => exact Option.some.inj hvalue ▸ h
  rw [toJson_eq, Json.record?]
  generalize hmembers : (("decision", Json.string d.decision.name) :: _) = members
  have hdecision : Json.uniqueMember? "decision" members = some (some (.string d.decision.name)) :=
    Json.uniqueMember?_optional (by simp [← hmembers, Json.filter_member])
      (by simp [Json.HasDistinctKeys])
  have hresource : Json.uniqueMember? "resource" members = some d.resource :=
    Json.uniqueMember?_optional (by simp [← hmembers, Json.filter_member]) hkeys.resource
  have hobligations : Json.uniqueMember? "obligations" members = some (listMember? d.obligations) :=
    Json.uniqueMember?_optional (by simp [← hmembers, Json.filter_member]) (hlist hkeys.obligations)
  have hadvice : Json.uniqueMember? "advice" members = some (listMember? d.advice) :=
    Json.uniqueMember?_optional (by simp [← hmembers, Json.filter_member]) (hlist hkeys.advice)
  simp [hdecision, hresource, hobligations, hadvice]

/-- A written decision is read back, without a resource that is null. -/
theorem ofJson?_toJson {d : AuthorizationDecision} (hkeys : d.HasDistinctKeys) :
    ofJson? d.toJson = some { d with resource := Json.presence d.resource } := by
  have hdecision : Decision.ofJson? (.string d.decision.name) = some d.decision :=
    Decision.ofName?_name d.decision
  simp [ofJson?, record?_toJson hkeys, hdecision, list?_listMember?]

/-- Reading what was written always succeeds, with the outcome, the obligations and the
advice as they were, and it gives the decision back exactly when its resource is not
null. -/
theorem read_eq_written_iff (d : AuthorizationDecision) (hkeys : d.HasDistinctKeys) :
    (∃ read, ofJson? d.toJson = some read ∧ read.decision = d.decision ∧
      read.obligations = d.obligations ∧ read.advice = d.advice ∧
      (read.resource = d.resource ∨ d.resource = some .null ∧ read.resource = none)) ∧
    (ofJson? d.toJson = some d ↔ d.resource ≠ some .null) := by
  rw [ofJson?_toJson hkeys]
  obtain ⟨decision, resource, obligations, advice⟩ := d
  match resource with
  | none => exact ⟨⟨_, rfl, rfl, rfl, rfl, .inl rfl⟩, by simp [Json.presence]⟩
  | some .null => exact ⟨⟨_, rfl, rfl, rfl, rfl, .inr ⟨rfl, rfl⟩⟩, by simp [Json.presence]⟩
  | some (.bool _) | some (.number _) | some (.string _) | some (.array _) | some (.object _) =>
    exact ⟨⟨_, rfl, rfl, rfl, rfl, .inl rfl⟩, by simp [Json.presence]⟩

/-- A masked resource and an obligation come back. -/
theorem read_eq_written_iff_masked :
    let d : AuthorizationDecision :=
      { decision := .permit, resource := some (.object [("name", .null)]),
        obligations := [.string "log"] }
    ofJson? d.toJson = some d := by
  intro d
  have hkeys : d.HasDistinctKeys := by
    constructor <;> simp [d, Json.HasDistinctKeys, Json.MembersDistinct, Json.ItemsDistinct]
  exact (read_eq_written_iff d hkeys).2.mpr (by simp [d])

/-- A policy that replaces the resource by null: its decision does so, and is read as one
that leaves the requested resource in place. -/
theorem read_nulled :
    let policy : Policy :=
      { name := "nulled", entitlement := .permit, target := none, body := [], obligations := [],
        advice := [], transformation := some (.literal .null) }
    let point : DecisionPoint := .fixed { documents := [.policy policy] } {} .empty {} []
    let s : AuthorizationSubscription :=
      { subject := .string "alice", action := .string "read", resource := .string "doc" }
    ∃ d, point.decideOnce default 0 s = some d ∧ d.resource = some .null ∧
      d.toJson = .object [("decision", .string "PERMIT"), ("resource", .null)] ∧
      ofJson? d.toJson = some (.plain .permit) ∧ ofJson? d.toJson ≠ some d := by
  intro policy point s
  have hdecide : point.decideOnce default 0 s = some ⟨.permit, some .null, [], []⟩ := by cbv
  have hread : ofJson? (toJson ⟨.permit, some .null, [], []⟩) = some (.plain .permit) := by cbv
  refine ⟨_, hdecide, rfl, rfl, hread, ?_⟩
  rw [hread]
  simp [plain]

end AuthorizationDecision

end Verdict
