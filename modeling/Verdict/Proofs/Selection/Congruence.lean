/-
Steps in values that are the same.

A step by name or by position leads from nodes of the same values to nodes of the same
values.  The steps that collect parts, the wildcard and the recursive ones, yield them in the
order in which the members of an object are written, and that order is no part of structural
equality.

* `Arena.HoldsSame`, `Resolved.Same`: nodes and selections of the same values.
* `Arena.toJson_member?`, `Arena.toJson_children`: the values of parts.
* `Step.readsOrder`: the steps that show the order of members.
* `Resolved.step_same`: the other steps lead to the same values.
* `Json.within`: a value and all values in it, in document order.
* `Resolved.step_same_iff`: each of the steps that show the order comes to different values.
-/
import Verdict.Proofs.Selection.Positional
import Verdict.Proofs.Selection.Recursive
import Verdict.Proofs.Value.Congruence

namespace Verdict

/-- The element of an array at a position. -/
def Json.element? (value : Json) (position : Int) : Option Json :=
  value.toArray?.bind fun items => (position? position items.length).bind (items[·]?)

namespace Arena

variable {value other : Json} {id id' : Nat}

/-! ### The values of parts -/

/-- The member of a name has the value that the name has in the value of the node. -/
lemma toJson_member? (name : String) :
    ((ofJson value).member? id name).map (fun s => (ofJson value).toJson s.node)
      = ((ofJson value).toJson id).field? name := by
  have hwell := ofJson_wellFormed value
  cases hnode : (ofJson value).node? id with
  | none =>
    rw [toJson_of_none hnode, member?, hnode]
    rfl
  | some node =>
    rw [toJson_eq_read hwell hnode, member?, hnode]
    cases node with
    | scalar leaf =>
      have hobject := (isScalar_of_node? hnode).2
      rw [Node.read, Json.field?, hobject]
      rfl
    | array ids => rfl
    | object members =>
      rw [Option.map_map]
      exact (lookup_map (ofJson value).toJson name members).symm

/-- The parts of an array have the values of its elements. -/
lemma toJson_children {items : List Json} (h : (ofJson value).toJson id = .array items) :
    ((ofJson value).children id).map (fun s => (ofJson value).toJson s.node) = items := by
  have hwell := ofJson_wellFormed value
  have harray : (ofJson value).isArray id = true := by
    rw [(kinds_of_toJson id).1, h]
    rfl
  cases hnode : (ofJson value).node? id with
  | none => simp [isArray, hnode] at harray
  | some node =>
    cases node with
    | scalar _ | object _ => simp [isArray, hnode] at harray
    | array ids =>
      rw [toJson_array hwell hnode, Json.array.injEq] at h
      calc ((ofJson value).children id).map (fun s => (ofJson value).toJson s.node)
          = (((ofJson value).children id).map Selected.node).map (ofJson value).toJson :=
            List.map_map.symm
        _ = ids.map (ofJson value).toJson := by
          rw [children_of_node? hnode, Node.map_node_links]
          rfl
        _ = items := h

/-- The element at a position has the value that the position has in the value of the node. -/
lemma toJson_element? (position : Int) :
    ((ofJson value).element? position id).map (fun s => (ofJson value).toJson s.node)
      = ((ofJson value).toJson id).element? position := by
  have hkind : (ofJson value).isArray id = ((ofJson value).toJson id).toArray?.isSome :=
    (kinds_of_toJson id).1
  rw [element?, Json.element?, hkind]
  cases hitems : ((ofJson value).toJson id).toArray? with
  | none => rfl
  | some items =>
    rw [hitems, Option.isSome_some] at hkind
    have hvalue : (ofJson value).toJson id = .array items := by
      cases hjson : (ofJson value).toJson id <;> simp_all [Json.toArray?]
    have hchildren := toJson_children hvalue
    rw [Option.isSome_some, if_pos rfl, element_of_isArray hkind, itemAt, Option.bind_some,
      ← hchildren, List.length_map]
    cases position? position ((ofJson value).children id).length with
    | none => rfl
    | some i =>
      rw [Option.bind_some, Option.bind_some, List.getElem?_map]
      cases ((ofJson value).children id)[i]? <;> rfl

/-! ### Nodes of the same values -/

/-- The nodes have values that are the same. -/
def HoldsSame (arena other : Arena) (s t : Selected) : Prop :=
  (arena.toJson s.node).Same (other.toJson t.node)

section Nodes

variable (h : ((ofJson value).toJson id).Same ((ofJson other).toJson id'))

include h

lemma isArray_same : (ofJson value).isArray id = (ofJson other).isArray id' := by
  rw [(kinds_of_toJson id).1, (kinds_of_toJson id').1]
  rcases optionRel_iff.mp h.toArray? with ⟨hx, hy⟩ | ⟨_, _, hx, hy, -⟩ <;> simp [hx, hy]

lemma kind_same : (ofJson value).kind id = (ofJson other).kind id' := by
  rw [(kinds_of_toJson id).2.2, (kinds_of_toJson id').2.2, h.kind_eq]

lemma member?_same (name : String) :
    Option.Rel (HoldsSame (ofJson value) (ofJson other)) ((ofJson value).member? id name)
      ((ofJson other).member? id' name) := by
  have hfield := h.field? name
  rw [← toJson_member?, ← toJson_member?] at hfield
  generalize (ofJson value).member? id name = x, (ofJson other).member? id' name = y at hfield
  rcases optionRel_iff.mp hfield with ⟨hx, hy⟩ | ⟨a, b, hx, hy, hab⟩
  · rw [Option.map_eq_none_iff.mp hx, Option.map_eq_none_iff.mp hy]
    exact .none
  · obtain ⟨s, rfl, rfl⟩ := Option.map_eq_some_iff.mp hx
    obtain ⟨t, rfl, rfl⟩ := Option.map_eq_some_iff.mp hy
    exact .some hab

lemma children_same (harray : (ofJson value).isArray id = true) :
    List.Forall₂ (HoldsSame (ofJson value) (ofJson other)) ((ofJson value).children id)
      ((ofJson other).children id') := by
  rw [(kinds_of_toJson id).1] at harray
  rcases optionRel_iff.mp h.toArray? with ⟨hnone, -⟩ | ⟨as, bs, has, hbs, hitems⟩
  · simp [hnone] at harray
  · have hvalues {json : Json} {items : List Json} (hjson : json.toArray? = some items) :
        json = .array items := by cases json <;> simp_all [Json.toArray?]
    rw [← toJson_children (hvalues has), ← toJson_children (hvalues hbs),
      List.forall₂_map_left_iff, List.forall₂_map_right_iff] at hitems
    exact hitems

lemma element_same (position : Int) :
    Outcome.Related (HoldsSame (ofJson value) (ofJson other))
      ((ofJson value).element id position) ((ofJson other).element id' position) := by
  cases harray : (ofJson value).isArray id with
  | true =>
    rw [element_of_isArray harray, element_of_isArray (isArray_same h ▸ harray)]
    exact itemAt_related (children_same h harray) position
  | false =>
    rw [element_of_not_isArray harray, element_of_not_isArray (isArray_same h ▸ harray),
      kind_same h]
    exact .error _

lemma keyUnion_same (names : List String) :
    List.Forall₂ (HoldsSame (ofJson value) (ofJson other)) (keyUnion (ofJson value) id names)
      (keyUnion (ofJson other) id' names) := by
  refine List.rel_filterMap (R := Eq) ?_ (List.forall₂_same.mpr fun _ _ => rfl)
  rintro name _ rfl
  exact member?_same h name

end Nodes

end Arena

/-! ### Steps -/

/-- The steps that yield parts in the order in which members are written. -/
def Step.readsOrder : Step → Bool
  | .wildcard | .recursiveKey _ | .recursiveIndex _ | .recursiveWildcard => true
  | _ => false

namespace Resolved

open Arena

/-- Nodes of documents are selected, one for one of values that are the same. -/
structure Same (r r' : Resolved) : Prop where
  left : r.selection = .nothing ∨ ∃ json, r.arena = ofJson json
  right : r'.selection = .nothing ∨ ∃ json, r'.arena = ofJson json
  selection : Selection.Related (HoldsSame r.arena r'.arena) r.selection r'.selection

variable {r r' : Resolved} {step : Step}

/-- The starts of two chains at values that are the same. -/
lemma same_ofValue {a b : Value} (h : a.Same b) : (ofValue a).Same (ofValue b) := by
  cases h.pair with
  | undefined | error _ => exact ⟨.inl rfl, .inl rfl, .nothing⟩
  | @defined a b hab =>
    refine ⟨.inr ⟨a, rfl⟩, .inr ⟨b, rfl⟩, .single ?_⟩
    change ((ofJson a).toJson 0).Same ((ofJson b).toJson 0)
    rwa [toJson_ofJson, toJson_ofJson]

/-- What is selected is the same. -/
lemma Same.value (h : r.Same r') : r.value.Same r'.value := by
  obtain ⟨arena, root, selection⟩ := r
  obtain ⟨arena', root', selection'⟩ := r'
  have hselection := h.selection
  cases hselection with
  | nothing => exact Value.Paired.undefined.same
  | single hst => exact (Value.Paired.defined hst).same
  | multiple hitems =>
    refine (Value.Paired.defined (Json.same_array ?_)).same
    rw [List.forall₂_map_left_iff, List.forall₂_map_right_iff]
    exact hitems

/-- A step from a single node of a document. -/
lemma stepSelection_single_same {json other : Json} (harena : r.arena = ofJson json)
    (harena' : r'.arena = ofJson other) {s t : Selected} (hs : r.selection = .single s)
    (ht : r'.selection = .single t) (hst : HoldsSame r.arena r'.arena s t)
    (horder : step.readsOrder = false) :
    Outcome.Related (Selection.Related (HoldsSame r.arena r'.arena)) (r.stepSelection step)
      (r'.stepSelection step) := by
  obtain ⟨arena, root, selection⟩ := r
  obtain ⟨arena', root', selection'⟩ := r'
  subst harena harena' hs ht
  cases step with
  | key name =>
    have hmember := member?_same hst name
    simp only [stepSelection]
    rcases optionRel_iff.mp hmember with ⟨hx, hy⟩ | ⟨c, c', hx, hy, hcc⟩ <;> rw [hx, hy]
    · exact .ok .nothing
    · exact .ok (.single hcc)
  | index position =>
    exact (element_same hst position).map fun _ _ hab => .single hab
  | slice start stop stride =>
    simp only [stepSelection, stepMismatch, isArray_same hst, kind_same hst]
    split
    · rename_i harray
      exact (slice_related (children_same hst (isArray_same hst ▸ harray)) start stop stride).map
        fun _ _ hab => .multiple hab
    · exact .error _
  | keyUnion names => exact .ok (.multiple (keyUnion_same hst names))
  | indexUnion positions =>
    simp only [stepSelection, stepMismatch, isArray_same hst, kind_same hst]
    split
    · rename_i harray
      exact .ok (.multiple
        (indexUnion_related (children_same hst (isArray_same hst ▸ harray)) positions))
    · exact .error _
  | computed _ | condition _ | «attribute» _ _ => exact .error _
  | wildcard | recursiveKey _ | recursiveIndex _ | recursiveWildcard => cases horder

/-- A step from the nodes of a fan-out. -/
lemma stepSelection_multiple_same {json other : Json} (harena : r.arena = ofJson json)
    (harena' : r'.arena = ofJson other) {items others : List Selected}
    (hitems : r.selection = .multiple items) (hothers : r'.selection = .multiple others)
    (hall : List.Forall₂ (HoldsSame r.arena r'.arena) items others)
    (horder : step.readsOrder = false) :
    Outcome.Related (Selection.Related (HoldsSame r.arena r'.arena)) (r.stepSelection step)
      (r'.stepSelection step) := by
  have hselection : Selection.Related (HoldsSame r.arena r'.arena) r.selection r'.selection := by
    rw [hitems, hothers]
    exact .multiple hall
  obtain ⟨arena, root, selection⟩ := r
  obtain ⟨arena', root', selection'⟩ := r'
  subst harena harena' hitems hothers
  cases step with
  | key name =>
    have hmember (s t : Selected) (hst : HoldsSame (ofJson json) (ofJson other) s t) :
        Option.Rel (HoldsSame (ofJson json) (ofJson other)) ((ofJson json).member? s.node name)
          ((ofJson other).member? t.node name) := member?_same hst name
    exact .ok (.multiple (List.rel_filterMap (fun s t hst => hmember s t hst) hall))
  | keyUnion names =>
    have hmembers (s t : Selected) (hst : HoldsSame (ofJson json) (ofJson other) s t) :
        List.Forall₂ (HoldsSame (ofJson json) (ofJson other))
          (Verdict.keyUnion (ofJson json) s.node names)
          (Verdict.keyUnion (ofJson other) t.node names) := keyUnion_same hst names
    exact .ok (.multiple (List.rel_flatMap hall fun s t hst => hmembers s t hst))
  | index _ | slice _ _ _ | indexUnion _ => exact stepSelection_along rfl hselection rfl
  | computed _ | condition _ | «attribute» _ _ => exact .error _
  | wildcard | recursiveKey _ | recursiveIndex _ | recursiveWildcard => cases horder

/-- A step that does not show the order of members leads from nodes of the same values to nodes
of the same values, or fails on both sides for the same cause. -/
theorem step_same (h : r.Same r') (horder : step.readsOrder = false) :
    Outcome.Related Same (r.step step) (r'.step step) := by
  have hselection := h.selection
  generalize hs : r.selection = s, ht : r'.selection = t at hselection
  cases hselection with
  | nothing =>
    have hnothing {r : Resolved} (hr : r.selection = .nothing) :
        r.step step = .ok (r.select .nothing) := by simp [Resolved.step, stepSelection, hr]
    rw [hnothing hs, hnothing ht]
    exact .ok ⟨.inl rfl, .inl rfl, .nothing⟩
  | single hst =>
    obtain ⟨json, hjson⟩ := h.left.resolve_left (by simp [hs])
    obtain ⟨other, hother⟩ := h.right.resolve_left (by simp [ht])
    exact (stepSelection_single_same hjson hother hs ht hst horder).map
      fun _ _ hselections => ⟨.inr ⟨json, hjson⟩, .inr ⟨other, hother⟩, hselections⟩
  | multiple hall =>
    obtain ⟨json, hjson⟩ := h.left.resolve_left (by simp [hs])
    obtain ⟨other, hother⟩ := h.right.resolve_left (by simp [ht])
    exact (stepSelection_multiple_same hjson hother hs ht hall horder).map
      fun _ _ hselections => ⟨.inr ⟨json, hjson⟩, .inr ⟨other, hother⟩, hselections⟩

end Resolved

/-! ### All values in a value -/

namespace Json

mutual

/-- The value and all values in it, in document order. -/
def within : Json → List Json
  | .array items => .array items :: withinItems items
  | .object members => .object members :: withinMembers members
  | value => [value]

def withinItems : List Json → List Json
  | [] => []
  | item :: rest => within item ++ withinItems rest

def withinMembers : List (String × Json) → List Json
  | [] => []
  | (_, value) :: rest => within value ++ withinMembers rest

end

end Json

namespace Arena

variable {arena : Arena}

mutual

/-- The nodes of the subtree of a flattened value have the values in it. -/
theorem map_subtree_of_holds (hwell : arena.WellFormed) (start : Nat) : (value : Json) →
    arena.Holds start (flatten start value) → (arena.subtree start).map arena.toJson = value.within
  | .array items, h => by
    rw [subtree_of_node? hwell h.head, Node.parts, List.map_cons,
      map_subtrees_of_items hwell (start + 1) items h.tail,
      toJson_of_holds hwell start (.array items) h, Json.within]
  | .object members, h => by
    rw [subtree_of_node? hwell h.head, Node.parts, List.map_cons,
      map_subtrees_of_members hwell (start + 1) members h.tail,
      toJson_of_holds hwell start (.object members) h, Json.within]
  | .null, h | .bool _, h | .number _, h | .string _, h => by
    rw [subtree_of_node? hwell (Holds.head h)]
    exact congrArg ([·]) (toJson_scalar (Holds.head h))

theorem map_subtrees_of_items (hwell : arena.WellFormed) (start : Nat) : (items : List Json) →
    arena.Holds start (flattenItems start items).2 →
      ((flattenItems start items).1.flatMap arena.subtree).map arena.toJson
        = Json.withinItems items
  | [], _ => rfl
  | item :: rest, h => by
    rw [flattenItems_cons] at h ⊢
    rw [List.flatMap_cons, List.map_append, map_subtree_of_holds hwell start item h.left,
      map_subtrees_of_items hwell _ rest h.right, Json.withinItems]

theorem map_subtrees_of_members (hwell : arena.WellFormed) (start : Nat) :
    (members : List (String × Json)) → arena.Holds start (flattenMembers start members).2 →
      (((flattenMembers start members).1.map Prod.snd).flatMap arena.subtree).map arena.toJson
        = Json.withinMembers members
  | [], _ => rfl
  | (key, value) :: rest, h => by
    rw [flattenMembers_cons] at h ⊢
    rw [List.map_cons, List.flatMap_cons, List.map_append,
      map_subtree_of_holds hwell start value h.left, map_subtrees_of_members hwell _ rest h.right,
      Json.withinMembers]

end

end Arena

namespace Resolved

open Arena

/-! ### Steps that show the order -/

lemma map_subtree (json : Json) :
    ((ofJson json).subtree 0).map (ofJson json).toJson = json.within :=
  map_subtree_of_holds (ofJson_wellFormed json) 0 json (holds_ofJson json)

/-- What is found in the nodes of a document has the values that are found in its values. -/
lemma map_collected (json : Json) {pick : Nat → Option Selected} {found : Json → Option Json}
    (hpick : ∀ id, (pick id).map (fun s => (ofJson json).toJson s.node)
      = found ((ofJson json).toJson id)) :
    (((ofJson json).subtree 0).filterMap pick).map (fun s => (ofJson json).toJson s.node)
      = json.within.filterMap found := by
  rw [List.map_filterMap, ← map_subtree, List.filterMap_map]
  exact congrArg (List.filterMap · _) (funext hpick)

/-- A recursive step comes to what it finds in a value and in all values in it, one after the
other in document order. -/
lemma value_recursiveKey (json : Json) (name : String) :
    value <$> (ofValue (.defined json)).step (.recursiveKey name)
      = .ok (.defined (.array (json.within.filterMap (·.field? name)))) := by
  rw [step_recursiveKey (by simp [ofValue]), ← map_collected json fun id => toJson_member? name]
  simp [ofValue, Selection.toList, select, value]

lemma value_recursiveIndex (json : Json) (position : Int) :
    value <$> (ofValue (.defined json)).step (.recursiveIndex position)
      = .ok (.defined (.array (json.within.filterMap (·.element? position)))) := by
  rw [step_recursiveIndex (by simp [ofValue]),
    ← map_collected json fun id => toJson_element? position]
  simp [ofValue, Selection.toList, select, value]

/-- What is found in the two members is found in their order. -/
lemma found_inOrder {found : Json → Option Json} {x y u v : Json}
    (hx : x.within.filterMap found = [u]) (hy : y.within.filterMap found = [v]) :
    (∃ us, (Json.inOrder x y).within.filterMap found = us ++ [v]) ∧
      ∃ vs, (Json.swapped x y).within.filterMap found = vs ++ [u] := by
  refine ⟨⟨(found (Json.inOrder x y)).toList ++ [u], ?_⟩,
    (found (Json.swapped x y)).toList ++ [v], ?_⟩
  · rw [Json.inOrder, Json.within, Json.withinMembers, Json.withinMembers, Json.withinMembers,
      List.append_nil, List.filterMap_cons, List.filterMap_append, hx, hy]
    cases found (.object [("left", x), ("right", y)]) <;> rfl
  · rw [Json.swapped, Json.within, Json.withinMembers, Json.withinMembers, Json.withinMembers,
      List.append_nil, List.filterMap_cons, List.filterMap_append, hx, hy]
    cases found (.object [("right", y), ("left", x)]) <;> rfl

/-- A step that comes to the values of the members in their order does not keep to the same
values. -/
lemma not_keeps_same {step : Step} {x y : Json} (hx : x.HasDistinctKeys) (hy : y.HasDistinctKeys)
    (us vs : List Json)
    (hordered : value <$> (ofValue (.defined (Json.inOrder x y))).step step
      = .ok (.defined (.array (us ++ [.bool false]))))
    (hswapped : value <$> (ofValue (.defined (Json.swapped x y))).step step
      = .ok (.defined (.array (vs ++ [.bool true])))) :
    ¬ ∀ r r' : Resolved, r.Same r' → Outcome.Related Same (r.step step) (r'.step step) := by
  intro hkeeps
  have hrelated := hkeeps _ _ (same_ofValue (Value.Paired.defined (Json.same_swapped hx hy)).same)
  generalize (ofValue (.defined (Json.inOrder x y))).step step = a,
    (ofValue (.defined (Json.swapped x y))).step step = b at *
  cases hrelated with
  | error cause => simp at hordered
  | ok hsame =>
    have hvalue := hsame.value
    rw [Except.ok.inj hordered, Except.ok.inj hswapped] at hvalue
    cases hvalue.pair with
    | defined harrays =>
      cases harrays.pair with
      | array hitems =>
        have hreversed := List.rel_reverse hitems
        rw [List.reverse_concat, List.reverse_concat] at hreversed
        cases hreversed with
        | cons hlast _ => cases hlast.pair

lemma withinItems_replicate (n : Nat) (b : Bool) :
    Json.withinItems (List.replicate n (.bool b)) = List.replicate n (.bool b) := by
  induction n with
  | zero => rfl
  | succ n ih => rw [List.replicate_succ, Json.withinItems, ih]; rfl

/-- An array that is long enough has an element at the position, and its elements have none. -/
lemma found_replicate (position : Int) (b : Bool) :
    (Json.array (List.replicate (position.natAbs + 1) (.bool b))).within.filterMap
      (·.element? position) = [.bool b] := by
  have hin :
      0 ≤ (if position < 0 then ((position.natAbs + 1 : Nat) : Int) + position else position) ∧
        (if position < 0 then ((position.natAbs + 1 : Nat) : Int) + position else position)
          < (position.natAbs + 1 : Nat) := by
    split <;> omega
  obtain ⟨i, hi⟩ : ∃ i, position? position (position.natAbs + 1) = some i :=
    ⟨_, if_pos hin⟩
  have hlt := lt_of_position? hi
  have harray : (Json.array (List.replicate (position.natAbs + 1) (.bool b))).element? position
      = some (.bool b) := by
    rw [Json.element?, Json.toArray?, Option.bind_some, List.length_replicate, hi,
      Option.bind_some, List.getElem?_replicate, if_pos hlt]
  have hleaves : (List.replicate (position.natAbs + 1) (Json.bool b)).filterMap
      (·.element? position) = [] := by
    rw [List.filterMap_eq_nil_iff]
    intro leaf hleaf
    rw [List.eq_of_mem_replicate hleaf]
    rfl
  rw [Json.within, withinItems_replicate, List.filterMap_cons, harray, hleaves]

/-- A step leads from values that are the same to values that are the same exactly if it does
not show the order of members. -/
theorem step_same_iff (step : Step) :
    (∀ r r' : Resolved, r.Same r' → Outcome.Related Same (r.step step) (r'.step step)) ↔
      step.readsOrder = false := by
  refine ⟨fun hkeeps => ?_, fun horder r r' h => step_same h horder⟩
  rw [← Bool.not_eq_true]
  intro horder
  cases step with
  | wildcard =>
    exact not_keeps_same (x := .bool true) (y := .bool false) trivial trivial [.bool true]
      [.bool false] (by cbv) (by cbv) hkeeps
  | recursiveWildcard =>
    exact not_keeps_same (x := .bool true) (y := .bool false) trivial trivial [.bool true]
      [.bool false] (by cbv) (by cbv) hkeeps
  | recursiveKey name =>
    have hfound (b : Bool) :
        (Json.object [(name, .bool b)]).within.filterMap (·.field? name) = [.bool b] := by
      simp [Json.within, Json.withinMembers, Json.field?, Json.toObject?]
    have hdistinct (b : Bool) : (Json.object [(name, .bool b)]).HasDistinctKeys :=
      ⟨by simp, trivial, trivial⟩
    obtain ⟨⟨us, hus⟩, vs, hvs⟩ := found_inOrder (hfound true) (hfound false)
    exact not_keeps_same (hdistinct true) (hdistinct false) us vs
      ((value_recursiveKey _ name).trans (by rw [hus]))
      ((value_recursiveKey _ name).trans (by rw [hvs]))
      hkeeps
  | recursiveIndex position =>
    have hdistinct (b : Bool) :
        (Json.array (List.replicate (position.natAbs + 1) (.bool b))).HasDistinctKeys :=
      Json.itemsDistinct_iff.mpr fun item hitem => List.eq_of_mem_replicate hitem ▸ trivial
    obtain ⟨⟨us, hus⟩, vs, hvs⟩ :=
      found_inOrder (found_replicate position true) (found_replicate position false)
    exact not_keeps_same (hdistinct true) (hdistinct false) us vs
      ((value_recursiveIndex _ position).trans (by rw [hus]))
      ((value_recursiveIndex _ position).trans (by rw [hvs])) hkeeps
  | key _ | index _ | slice _ _ _ | computed _ | condition _ | keyUnion _ | indexUnion _
  | «attribute» _ _ => cases horder

end Resolved

end Verdict
