/-
Filters of whole values.

A filter without a target makes of a value what its function makes of it, or of an array what
its function makes of each element, from the last one to the first.  It reads no order of
members, so values that are the same are filtered alike.

* `Json.rewriteItems_of_selected`: the elements of an array, all of them selected.
* `Resolved.edit_whole`, `Resolved.edit_elements`: what a filter makes of a whole value, and of
  the elements of an array.
* `Replacer.outcome_same`, `edited_same`: filters of values that are the same.
-/
import Verdict.Proofs.Evaluation.Congruence
import Verdict.Proofs.Evaluation.Editing

namespace Verdict

/-! ### Selected elements -/

section Elements

variable {items : List Json}

/-- The elements of an array are the nodes at its positions. -/
lemma Arena.mem_children_array {s : Selected} (h : s ∈ (ofJson (.array items)).children 0) :
    ∃ i, (ofJson (.array items)).part? 0 (.index i) = some s.node := by
  have hnode := (holds_ofJson (.array items)).head
  rw [children_of_node? hnode] at h
  obtain ⟨i, hi, rfl⟩ := List.mem_mapIdx.mp h
  exact ⟨i, (part?_array hnode i).trans (List.getElem?_eq_getElem hi)⟩

lemma Arena.selects_element {i : Nat} (hi : i < items.length) :
    (ofJson (.array items)).selects ((ofJson (.array items)).children 0) 0 [.index i] = true := by
  have hnode := (holds_ofJson (.array items)).head
  have hlength : (flattenItems (0 + 1) items).1.length = items.length := by
    have hvalues := congrArg List.length (children_array items)
    rwa [List.length_map, children_of_node? hnode, Node.links, List.length_mapIdx] at hvalues
  have hpart := (part?_array hnode i).trans (List.getElem?_eq_getElem (hlength ▸ hi))
  rw [congrFun (selects_cons hpart _) [], selects_nil]
  exact ⟨_, part?_mem_children hpart, rfl⟩

/-- Nothing below an element is selected. -/
lemma Arena.selects_below_element (slot next : Slot) (path : List Slot) :
    (ofJson (.array items)).selects ((ofJson (.array items)).children 0) 0 (slot :: next :: path)
      = false := by
  rw [selects]
  cases hfollow : (ofJson (.array items)).follow? 0 (slot :: next :: path) with
  | none => rfl
  | some id =>
    rw [Option.any_some, List.any_eq_false]
    intro s hs hid
    obtain ⟨i, hpart⟩ := mem_children_array hs
    have hshort : (ofJson (.array items)).follow? 0 [.index i] = some id := by
      rw [follow?, hpart, beq_iff_eq.mp hid]
      rfl
    exact absurd (path_unique hfollow hshort) (by simp)

end Elements

/-- Where all elements are selected and nothing below them, they are rewritten from the last one
to the first. -/
lemma Json.rewriteItems_of_selected (f : Replacer) {selected : List Slot → Bool}
    (hbelow : ∀ slot next path, selected (slot :: next :: path) = false) {items : List Json} :
    ∀ {index : Nat}, (∀ i < items.length, selected [.index (index + i)] = true) →
      rewriteItems f selected index items
        = (fun outcomes => outcomes.reverse.reduceOption) <$> items.reverse.mapM f.outcome := by
  induction items with
  | nil => intro index _; rfl
  | cons item rest ih =>
    intro index hall
    have hrest (i : Nat) (hi : i < rest.length) : selected [.index (index + 1 + i)] = true := by
      have := hall (i + 1) (Nat.succ_lt_succ hi)
      rwa [Nat.add_assoc, Nat.add_comm 1 i]
    have hitem : item.rewriteAt f (fun path => selected (.index index :: path))
        = f.outcome item := by
      rw [rewriteAt, rewriteParts_of_unselected f item _ fun slot path => hbelow _ slot path]
      have hself := hall 0 (Nat.succ_pos _)
      rw [Nat.add_zero] at hself
      simp only [hself]
      rfl
    rw [rewriteItems_cons, ih hrest, hitem, List.reverse_cons, List.mapM_append, List.mapM_cons,
      List.mapM_nil]
    cases rest.reverse.mapM f.outcome with
    | error cause => rfl
    | ok outcomes =>
      cases f.outcome item with
      | error cause => rfl
      | ok outcome =>
        refine congrArg Except.ok ?_
        simp only [List.reverse_append]
        cases outcome <;> rfl

/-! ### Whole values -/

/-- The value that is left of a whole value. -/
def Value.ofOutcome : Except EvalError (Option Json) → Value
  | .ok (some after) => .defined after
  | .ok none => .undefined
  | .error cause => .error cause

namespace Resolved

open Arena

/-- A filter makes of a whole value what its function makes of it. -/
theorem edit_whole (json : Json) (f : Replacer) :
    (ofValue (.defined json)).edit false f = Value.ofOutcome (f.onWhole json) := by
  have hedit : (ofValue (.defined json)).edit false f
      = json.rewritten f ((ofJson json).selects [⟨0, none⟩] 0) := (edit_root rfl rfl rfl rfl f).1
  rw [hedit, Json.rewritten, Json.rewriteParts_of_unselected f json _ selects_root_cons]
  simp only [selects_root_nil, if_true]
  cases f.onWhole json with
  | error cause => rfl
  | ok outcome => cases outcome <;> rfl

/-- Only arrays have elements. -/
lemma edit_of_no_array {json : Json} (h : json.toArray? = none) (f : Replacer) :
    (ofValue (.defined json)).edit true f
      = .error (.filterTarget ("'each' expects an array, got " ++ json.kind)) := by
  have harray : (ofJson json).isArray 0 = ((ofJson json).toJson 0).toArray?.isSome :=
    (kinds_of_toJson 0).1
  have hkind : (ofJson json).kind 0 = ((ofJson json).toJson 0).kind := (kinds_of_toJson 0).2.2
  rw [toJson_ofJson] at harray hkind
  have htargets : (ofValue (.defined json)).targets true
      = .error (.filterTarget ("'each' expects an array, got " ++ json.kind)) := by
    rw [← hkind]
    exact if_neg (by rw [ofValue, harray, h]; exact Bool.false_ne_true)
  rw [edit, htargets]
  rfl

/-- It makes of an array what its function makes of each element, from the last one to the
first. -/
theorem edit_elements {items : List Json} (hkeys : (Json.array items).HasDistinctKeys)
    (f : Replacer) :
    (ofValue (.defined (.array items))).edit true f
      = Value.ofExcept ((fun outcomes => .array outcomes.reverse.reduceOption)
          <$> items.reverse.mapM f.outcome) := by
  have htargets : (ofValue (.defined (.array items))).targets true
      = .ok ((ofJson (.array items)).children 0) := if_pos (isArray_array items)
  have hedit : (ofValue (.defined (.array items))).edit true f
      = (Json.array items).rewritten f
          ((ofJson (.array items)).selects ((ofJson (.array items)).children 0) 0) :=
    (edit_parts rfl rfl htargets hkeys (fun s hs => ⟨0, hs⟩) f).1
  have hroot : (ofJson (.array items)).selects ((ofJson (.array items)).children 0) 0 []
      = false := by
    rw [Bool.eq_false_iff, Ne, selects_nil]
    rintro ⟨s, hs, hzero⟩
    have hpositive := (node_of_mem_linksFrom (mem_links_iff.mpr ⟨0, hs⟩)).1
    omega
  rw [hedit, Json.rewritten, Json.rewriteParts,
    Json.rewriteItems_of_selected f selects_below_element fun i hi =>
      (Nat.zero_add i).symm ▸ selects_element hi]
  cases items.reverse.mapM f.outcome with
  | error cause => rfl
  | ok outcomes => simp [hroot, Value.ofExcept]

end Resolved

/-! ### Values that are the same -/

/-- Removing leaves the same behind of values that are the same. -/
lemma Json.Same.emptied? {a b : Json} (h : a.Same b) :
    Option.Rel Json.Same a.emptied? b.emptied? := by
  cases h.pair with
  | array _ => exact .some (.refl trivial)
  | object _ _ _ => exact .some (.refl ⟨List.nodup_nil, trivial⟩)
  | string _ => exact .some (.refl trivial)
  | null | bool _ | number _ => exact .none

section Same

variable {xs ys : List Value} {function : String} (h : List.Forall₂ Value.Same xs ys)
  (hfunction : function ≠ "standard.numberToString")

include h hfunction

lemma Replacer.outcome_same {a b : Json} (hab : a.Same b) :
    Outcome.Related (Option.Rel Json.Same) (outcome ⟨.standard, function, xs⟩ a)
      (outcome ⟨.standard, function, ys⟩ b) := by
  have hremoves : removes ⟨.standard, function, xs⟩ = removes ⟨.standard, function, ys⟩ := rfl
  rw [outcome, outcome, hremoves]
  split_ifs
  · exact .ok .none
  · exact .ok (.some hab)
  · have hcall := FunctionRegistry.call_same (.cons (Value.Paired.defined hab).same h) hfunction
    generalize FunctionRegistry.standard.call function (.defined a :: xs) = x,
      FunctionRegistry.standard.call function (.defined b :: ys) = y at hcall
    cases hcall.pair with
    | error cause => exact .error cause
    | undefined => exact .ok .none
    | defined hafter => exact .ok (.some hafter)

lemma Replacer.onWhole_same {a b : Json} (hab : a.Same b) :
    Outcome.Related (Option.Rel Json.Same) (onWhole ⟨.standard, function, xs⟩ a)
      (onWhole ⟨.standard, function, ys⟩ b) := by
  have hremoves : removes ⟨.standard, function, xs⟩ = removes ⟨.standard, function, ys⟩ := rfl
  rw [onWhole, onWhole, hremoves]
  split
  · exact .ok hab.emptied?
  · exact outcome_same h hfunction hab

/-- A filter of a whole value, or of each element of it, makes the same of values that are the
same. -/
theorem edited_same {a b : Json} (hab : a.Same b) (each : Bool) :
    (edited .standard each function (.start (.defined a)) xs).Same
      (edited .standard each function (.start (.defined b)) ys) := by
  simp only [edited, Resolution.start, Value.firstError?_same h]
  cases Value.firstError? ys with
  | some cause => exact Value.same_error cause
  | none =>
    cases each with
    | false =>
      have hwhole := Replacer.onWhole_same h hfunction hab
      simp only [Resolved.edit_whole]
      generalize Replacer.onWhole ⟨.standard, function, xs⟩ a = x,
        Replacer.onWhole ⟨.standard, function, ys⟩ b = y at hwhole
      cases hwhole with
      | error cause => exact Value.same_error cause
      | ok hafter =>
        cases hafter with
        | none => exact Value.Paired.undefined.same
        | some hafter => exact (Value.Paired.defined hafter).same
    | true =>
      cases hab.pair with
      | array hitems =>
        simp only [Resolved.edit_elements hab.left, Resolved.edit_elements hab.right]
        refine Value.same_ofExcept (.map (.mapM (List.rel_reverse hitems) fun _ _ =>
          Replacer.outcome_same h hfunction) fun outcomes others houtcomes => ?_)
        refine Json.same_array ?_
        exact List.rel_filterMap (fun _ _ hafter => hafter) (List.rel_reverse houtcomes)
      | null | bool _ | number _ | string _ | object _ _ _ =>
        rw [Resolved.edit_of_no_array rfl, Resolved.edit_of_no_array rfl]
        exact Value.same_error _

end Same

end Verdict
