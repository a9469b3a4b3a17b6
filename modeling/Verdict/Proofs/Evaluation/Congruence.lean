/-
What becomes of parts that are the same.

Arrays and objects are made of the values of their parts, calls of those of their arguments,
and templates of those of their elements.  From parts that are the same they come out the
same, the failure of a part included.

* `Json.distinctMembers_same`: the members of an object, a later value of a name in the place
  of an earlier one.
* `Value.ofItems_same`, `ofMembers_same`, `filled_same`: arrays, objects and templates.
* `FunctionRegistry.apply_same`: calls of standard functions.
* `Value.lazyOperand_same`: the operators that may not need their right operand.
-/
import Verdict.Proofs.Selection.Congruence

namespace Verdict

/-! ### Members -/

namespace Json

/-- The same members under the same names, each name once. -/
structure MembersSame (as bs : List (String × Json)) : Prop where
  left : (as.map Prod.fst).Nodup
  right : (bs.map Prod.fst).Nodup
  lookup : ∀ key, Option.Rel Same (as.lookup key) (bs.lookup key)

/-- The members of one object agree with those of another exactly if those of the other agree
with its own. -/
lemma MembersSame.symm {as bs : List (String × Json)} (h : MembersSame as bs) :
    MembersSame bs as := by
  refine ⟨h.right, h.left, fun key => optionRel_iff.mpr ?_⟩
  refine (optionRel_iff.mp (h.lookup key)).imp And.symm ?_
  rintro ⟨a, b, ha, hb, hab⟩
  exact ⟨b, a, hb, ha, hab.symm⟩

/-- Objects of distinct names are the same if under every name they have the same value. -/
lemma same_object {as bs : List (String × Json)} (h : MembersSame as bs) :
    (object as).Same (.object bs) := by
  have hdistinct {as bs : List (String × Json)} (h : MembersSame as bs) : MembersDistinct as := by
    refine membersDistinct_iff.mpr fun m hm => ?_
    have hrel := h.lookup m.1
    rw [(lookup_eq_some_iff_mem h.left).mpr hm] at hrel
    generalize bs.lookup m.1 = b at hrel
    cases hrel with
    | some hab => exact hab.left
  exact (Paired.object h.left h.right h.lookup).same ⟨h.left, hdistinct h⟩
    ⟨h.right, hdistinct h.symm⟩

/-- A member that is set is found with its new value, and all others as before. -/
lemma lookup_setMember (key other : String) (value : Json) (members : List (String × Json)) :
    (setMember key value members).lookup other
      = if other = key then some value else members.lookup other := by
  induction members with
  | nil => rw [setMember, lookup_cons_eq]
  | cons m rest ih =>
    obtain ⟨name, old⟩ := m
    rw [setMember]
    by_cases hname : name = key
    · subst hname
      rw [if_pos rfl, lookup_cons_eq, lookup_cons_eq]
      split <;> rfl
    · rw [if_neg hname, lookup_cons_eq, lookup_cons_eq, ih]
      by_cases hother : other = name
      · subst hother
        rw [if_pos rfl, if_neg hname, if_pos rfl]
      · rw [if_neg hother, if_neg hother]

/-- Setting a member adds its name, unless it was there. -/
lemma mem_keys_setMember {key other : String} {value : Json} {members : List (String × Json)} :
    other ∈ (setMember key value members).map Prod.fst ↔
      other = key ∨ other ∈ members.map Prod.fst := by
  rw [mem_keys_iff_lookup, mem_keys_iff_lookup, lookup_setMember]
  split <;> simp_all

/-- A name that is there is set in place, so that no name comes twice. -/
lemma nodup_setMember {key : String} (value : Json) {members : List (String × Json)}
    (h : (members.map Prod.fst).Nodup) : ((setMember key value members).map Prod.fst).Nodup := by
  induction members with
  | nil => simp [setMember]
  | cons m rest ih =>
    obtain ⟨name, old⟩ := m
    rw [List.map_cons, List.nodup_cons] at h
    rw [setMember]
    split
    · exact List.nodup_cons.mpr h
    · rename_i hname
      rw [List.map_cons, List.nodup_cons, mem_keys_setMember]
      exact ⟨fun hmem => hmem.elim hname h.1, ih h.2⟩

/-- The same values under the same keys make the same members, where a later value of a key
takes the place of an earlier one. -/
lemma distinctMembers_same {as bs : List (String × Json)}
    (h : List.Forall₂ (fun a b => a.1 = b.1 ∧ a.2.Same b.2) as bs) :
    MembersSame (distinctMembers as) (distinctMembers bs) := by
  suffices hfold : ∀ done done', MembersSame done done' →
      MembersSame (as.foldl (fun done m => setMember m.1 m.2 done) done)
        (bs.foldl (fun done m => setMember m.1 m.2 done) done') from
    hfold [] [] ⟨List.nodup_nil, List.nodup_nil, fun _ => .none⟩
  induction h with
  | nil => exact fun done done' hdone => hdone
  | @cons a b as bs hab _ ih =>
    obtain ⟨key, value⟩ := a
    obtain ⟨key', value'⟩ := b
    obtain ⟨rfl, hvalue⟩ := hab
    intro done done' hdone
    refine ih _ _ ⟨nodup_setMember value hdone.left, nodup_setMember value' hdone.right, ?_⟩
    intro other
    rw [lookup_setMember, lookup_setMember]
    split
    · exact .some hvalue
    · exact hdone.lookup other

end Json

/-! ### Computations that may fail -/

/-- Related outcomes in order: both lists fail with the same first cause, or neither fails. -/
lemma Outcome.Related.mapM {α β γ δ : Type} {R : α → β → Prop} {Q : γ → δ → Prop} {xs : List α}
    {ys : List β} {f : α → Except EvalError γ} {g : β → Except EvalError δ}
    (h : List.Forall₂ R xs ys) (hfg : ∀ x y, R x y → Related Q (f x) (g y)) :
    Related (List.Forall₂ Q) (xs.mapM f) (ys.mapM g) := by
  induction h with
  | nil => exact .ok .nil
  | @cons x y xs ys hxy _ ih =>
    rw [List.mapM_cons, List.mapM_cons]
    have hhead := hfg x y hxy
    generalize f x = a, g y = b at hhead
    cases hhead with
    | error cause => exact .error cause
    | ok hab =>
      generalize xs.mapM f = as, ys.mapM g = bs at ih
      cases ih with
      | error cause => exact .error cause
      | ok hrest => exact .ok (.cons hab hrest)

namespace Value

lemma same_ofExcept {x y : Except EvalError Json} (h : Outcome.Related Json.Same x y) :
    (ofExcept x).Same (ofExcept y) := by
  cases h with
  | error cause => exact same_error cause
  | ok hab => exact (Paired.defined hab).same

lemma Same.json? {a b : Value} (h : a.Same b) : Option.Rel Json.Same a.json? b.json? := by
  cases h.pair with
  | defined hab => exact .some hab
  | undefined | error _ => exact .none

/-- An operand that decides nothing comes through, or fails as one of its kind. -/
lemma lazyOperand_same (op : BinaryOperator) {a b : Value} (h : a.Same b) :
    (lazyOperand op a).Same (lazyOperand op b) := by
  cases h.pair with
  | undefined | error _ => exact h
  | defined hab =>
    cases hab.pair with
    | bool b => exact h
    | array _ | object _ _ _ | _ => exact same_error _

end Value

section Parts

variable {xs ys : List Value} (h : List.Forall₂ Value.Same xs ys)

include h

namespace Value

/-- Arrays of values that are the same are the same, and fail with the same cause. -/
lemma ofItems_same : (ofItems xs).Same (ofItems ys) := by
  rw [ofItems, ofItems, firstError?_same h]
  cases firstError? ys with
  | some cause => exact same_error cause
  | none =>
    refine (Paired.defined (Json.same_array ?_)).same
    exact List.rel_filterMap (fun _ _ hxy => hxy.json?) h

/-- So are objects, under names that are given. -/
lemma ofMembers_same (keys : List String) : (ofMembers keys xs).Same (ofMembers keys ys) := by
  rw [ofMembers, ofMembers, firstError?_same h]
  cases firstError? ys with
  | some cause => exact same_error cause
  | none =>
    have hzip : List.Forall₂ (fun p q : String × Value => p.1 = q.1 ∧ p.2.Same q.2) (keys.zip xs)
        (keys.zip ys) := by
      induction h generalizing keys with
      | nil => simp
      | cons hxy _ ih =>
        cases keys with
        | nil => exact .nil
        | cons key keys => exact .cons ⟨rfl, hxy⟩ (ih keys)
    refine (Paired.defined (Json.same_object (Json.distinctMembers_same ?_))).same
    refine List.rel_filterMap (fun p q hpq => ?_) hzip
    obtain ⟨key, x⟩ := p
    obtain ⟨key', y⟩ := q
    obtain ⟨rfl, hxy⟩ := hpq
    cases hxy.pair with
    | defined hab => exact .some ⟨rfl, hab⟩
    | undefined | error _ => exact .none

/-- The elements of a template are filled in one after the other, up to the first that has no
value. -/
lemma filled_same : (filled xs).Same (filled ys) := by
  refine same_ofExcept (.map (.mapM h fun x y hxy => ?_) fun _ _ => Json.same_array)
  cases hxy.pair with
  | defined hab => exact .ok hab
  | undefined | error _ => exact .error _

end Value

/-- A call reports the failure of an argument before it calls anything. -/
lemma FunctionRegistry.apply_same {name : String} (hname : name ≠ "standard.numberToString") :
    (standard.apply name xs).Same (standard.apply name ys) := by
  rw [FunctionRegistry.apply, FunctionRegistry.apply, Value.firstError?_same h]
  cases Value.firstError? ys with
  | some cause => exact Value.same_error cause
  | none => exact call_same h hname

end Parts

end Verdict
