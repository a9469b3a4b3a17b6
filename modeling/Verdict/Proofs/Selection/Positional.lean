/-
A fan-out is like the array of its values.

Steps by position choose among the nodes of a fan-out as they choose among the parts of an
array, and what they go on to depends on values only.  So no chain of such steps tells a
fan-out from an array of the same values.

* `Step.isPositional`: the steps by position.
* `Arena.SameValue`, `Arena.alike_of_toJson_eq`: nodes of one value are alike.
* `Resolved.stepSelection_array`: an array is taken for the fan-out of its parts.
* `Resolved.stepSelection_sameValue`: a step by position keeps to nodes of the same values.
* `Resolved.chain_sameValue`: and so does a chain of them.
* `Resolved.fanOut_eq_array`: a fan-out and the array of its values come to the same.
* `Resolved.fanOut_eq_array_rows`: two rows that are found by their name.
-/
import Verdict.Proofs.Selection.Reselection

namespace Verdict

/-- The steps that choose by position. -/
def Step.isPositional : Step → Bool
  | .index _ | .wildcard | .slice _ _ _ | .indexUnion _ => true
  | _ => false

lemma Step.isLocal_of_isPositional {step : Step} (h : step.isPositional = true) :
    step.isLocal = true := by
  cases step <;> first | rfl | cases h

/-- Among the nodes of a fan-out a step by position chooses, and goes down to no parts. -/
lemma Selection.descends_of_isPositional {step : Step} (h : step.isPositional = true)
    (items : List Selected) : (Selection.multiple items).descends step = false := by
  cases step <;> first | rfl | cases h

namespace Arena

variable {value other : Json}

/-- The nodes have the same value. -/
def SameValue (arena other : Arena) (s t : Selected) : Prop :=
  arena.toJson s.node = other.toJson t.node

/-! ### Nodes of one value -/

/-- The kind of a node of a document is that of its value. -/
lemma kinds_of_toJson (id : Nat) :
    (ofJson value).isArray id = ((ofJson value).toJson id).toArray?.isSome ∧
      (ofJson value).isObject id = ((ofJson value).toJson id).toObject?.isSome ∧
      (ofJson value).kind id = ((ofJson value).toJson id).kind := by
  have hwell := ofJson_wellFormed value
  cases hnode : (ofJson value).node? id with
  | none =>
    rw [isArray, isObject, kind, toJson, hnode]
    exact ⟨rfl, rfl, rfl⟩
  | some node =>
    rw [toJson_eq_read hwell hnode, isArray, isObject, kind, hnode]
    cases node with
    | scalar leaf =>
      obtain ⟨harray, hobject⟩ := isScalar_of_node? hnode
      rw [Node.read, harray, hobject]
      exact ⟨rfl, rfl, rfl⟩
    | array ids => exact ⟨rfl, rfl, rfl⟩
    | object members => exact ⟨rfl, rfl, rfl⟩

lemma toJson_of_none {arena : Arena} {id : Nat} (h : arena.node? id = none) :
    arena.toJson id = .null := by
  rw [toJson, h]

/-- The parts of nodes of one value have the same values in the same places. -/
lemma children_sameValue {id id' : Nat}
    (h : (ofJson value).toJson id = (ofJson other).toJson id') :
    List.Forall₂ (fun c c' => SameValue (ofJson value) (ofJson other) c c' ∧ c.slot? = c'.slot?)
      ((ofJson value).children id) ((ofJson other).children id') := by
  by_cases hnodes : (∃ node, (ofJson value).node? id = some node) ∧
      ∃ node', (ofJson other).node? id' = some node'
  · obtain ⟨⟨node, hnode⟩, node', hnode'⟩ := hnodes
    rw [toJson_eq_read (ofJson_wellFormed value) hnode,
      toJson_eq_read (ofJson_wellFormed other) hnode'] at h
    have hsame := Node.corresponds_of_read (fun leaf hleaf => isScalar_of_node? (hleaf ▸ hnode))
      (fun leaf hleaf => isScalar_of_node? (hleaf ▸ hnode')) h
    rw [children_of_node? hnode, children_of_node? hnode']
    exact hsame.links id id'
  · -- Where there is no node, a null is read, and a null has no parts.
    have hnull : (ofJson value).toJson id = .null := by
      cases hnode : (ofJson value).node? id with
      | none => exact toJson_of_none hnode
      | some node =>
        cases hnode' : (ofJson other).node? id' with
        | none => rw [h, toJson_of_none hnode']
        | some node' => exact absurd ⟨⟨node, hnode⟩, node', hnode'⟩ hnodes
    have hscalar : Json.null.IsScalar := ⟨rfl, rfl⟩
    rw [children_of_isScalar (hnull ▸ hscalar), children_of_isScalar (h ▸ hnull ▸ hscalar)]
    exact .nil

/-- Nodes of one value are alike, and their parts have the same values. -/
theorem alike_of_toJson_eq {id id' : Nat}
    (h : (ofJson value).toJson id = (ofJson other).toJson id') :
    Alike (SameValue (ofJson value) (ofJson other)) (ofJson value) (ofJson other) id id' := by
  obtain ⟨harray, hobject, hkind⟩ := @kinds_of_toJson value id
  obtain ⟨harray', hobject', hkind'⟩ := @kinds_of_toJson other id'
  exact
    { isArray := by rw [harray, harray', h]
      isObject := by rw [hobject, hobject', h]
      kind := by rw [hkind, hkind', h]
      children := children_sameValue h }

lemma isArray_array (values : List Json) : (ofJson (.array values)).isArray 0 = true := by
  rw [(kinds_of_toJson 0).1, toJson_ofJson]
  rfl

/-- The parts of an array have the values that it was made of. -/
lemma children_array (values : List Json) :
    ((ofJson (.array values)).children 0).map (fun c => (ofJson (.array values)).toJson c.node)
      = values := by
  have hwell := ofJson_wellFormed (.array values)
  have hnode := (holds_ofJson (.array values)).head
  have hread := toJson_ofJson (.array values)
  rw [toJson_array hwell hnode, Json.array.injEq] at hread
  calc ((ofJson (.array values)).children 0).map (fun c => (ofJson (.array values)).toJson c.node)
      = (((ofJson (.array values)).children 0).map Selected.node).map
          (ofJson (.array values)).toJson := List.map_map.symm
    _ = (flattenItems 1 values).1.map (ofJson (.array values)).toJson := by
      rw [children_of_node? hnode, Node.map_node_links]
      rfl
    _ = values := hread

end Arena

namespace Resolved

open Arena

variable {r r' : Resolved} {step : Step}

/-! ### Steps by position -/

/-- A step by position takes an array for the fan-out of its parts. -/
lemma stepSelection_array {s : Selected} (hsingle : r.selection = .single s)
    (harray : r.arena.isArray s.node = true) (hposition : step.isPositional = true) :
    r.stepSelection step
      = (r.select (.multiple (r.arena.children s.node))).stepSelection step := by
  cases step with
  | index position =>
    rw [stepSelection_multiple_index (r := r.select _) rfl]
    simp only [stepSelection, hsingle, element_of_isArray harray]
  | wildcard | slice _ _ _ | indexUnion _ =>
    simp [stepSelection, hsingle, harray, select]
  | key _ | keyUnion _ | computed _ | condition _ | recursiveKey _ | recursiveIndex _
  | recursiveWildcard | «attribute» _ _ => cases hposition

/-- From nodes of the same values a step by position comes to nodes of the same values. -/
lemma stepSelection_sameValue {value other : Json} (harena : r.arena = ofJson value)
    (harena' : r'.arena = ofJson other)
    (hsel : Selection.Related (SameValue r.arena r'.arena) r.selection r'.selection)
    (hposition : step.isPositional = true) :
    Outcome.Related (Selection.Related (SameValue r.arena r'.arena)) (r.stepSelection step)
      (r'.stepSelection step) := by
  have hlocal := Step.isLocal_of_isPositional hposition
  cases hdown : r.selection.descends step with
  | false => exact stepSelection_along hlocal hsel hdown
  | true =>
    refine stepSelection_down hlocal hsel hdown fun s _ t hst => ?_
    rw [SameValue, harena, harena'] at hst
    rw [harena, harena']
    exact alike_of_toJson_eq hst

/-- What is selected has the same value if the selected nodes have. -/
lemma value_eq_of_related
    (h : Selection.Related (SameValue r.arena r'.arena) r.selection r'.selection) :
    r.value = r'.value := by
  obtain ⟨arena, root, selection⟩ := r
  obtain ⟨arena', root', selection'⟩ := r'
  cases h with
  | nothing => rfl
  | single hst => exact congrArg Value.defined hst
  | multiple hitems =>
    refine congrArg (fun values => Value.defined (.array values)) ?_
    rw [← List.forall₂_eq_eq_eq, List.forall₂_map_left_iff, List.forall₂_map_right_iff]
    exact hitems

/-- A step to nodes of the same values, and then a chain that tells no such nodes apart. -/
lemma foldlM_cons_sameValue {rest : List Step}
    (hstep : Outcome.Related (Selection.Related (SameValue r.arena r'.arena))
      (r.stepSelection step) (r'.stepSelection step))
    (hrest : ∀ selection selection', Selection.Related (SameValue r.arena r'.arena) selection
      selection' → value <$> rest.foldlM Resolved.step (r.select selection)
        = value <$> rest.foldlM Resolved.step (r'.select selection')) :
    value <$> (step :: rest).foldlM Resolved.step r
      = value <$> (step :: rest).foldlM Resolved.step r' := by
  rw [List.foldlM_cons, List.foldlM_cons, Resolved.step, Resolved.step]
  generalize r.stepSelection step = found, r'.stepSelection step = found' at hstep
  cases hstep with
  | error cause => rfl
  | ok hselections => exact hrest _ _ hselections

/-- From nodes of the same values, a chain of steps by position comes to the same value or
fails for the same cause. -/
theorem chain_sameValue {json other : Json} (harena : r.arena = ofJson json)
    (harena' : r'.arena = ofJson other)
    (hsel : Selection.Related (SameValue r.arena r'.arena) r.selection r'.selection)
    (chain : List Step) (hchain : ∀ step ∈ chain, step.isPositional = true) :
    value <$> chain.foldlM Resolved.step r = value <$> chain.foldlM Resolved.step r' := by
  induction chain generalizing r r' with
  | nil => exact congrArg Except.ok (value_eq_of_related hsel)
  | cons step rest ih =>
    obtain ⟨hposition, hrest⟩ := List.forall_mem_cons.mp hchain
    exact foldlM_cons_sameValue (stepSelection_sameValue harena harena' hsel hposition)
      fun _ _ hselections => ih harena harena' hselections hrest

/-! ### A fan-out and an array -/

/-- The nodes of a fan-out have the same values as the parts of their array. -/
lemma fanOut_sameValue (arena : Arena) (items : List Selected) :
    let values := items.map fun s => arena.toJson s.node
    List.Forall₂ (SameValue arena (ofJson (.array values))) items
      ((ofJson (.array values)).children 0) := by
  intro values
  have hvalues := children_array values
  rw [eq_comm, ← List.forall₂_eq_eq_eq, List.forall₂_map_left_iff,
    List.forall₂_map_right_iff] at hvalues
  exact hvalues

/-- A step by position comes to nodes of the same values from a fan-out and from the array of
its values. -/
lemma stepSelection_fanOut {items : List Selected} (hfanOut : r.selection = .multiple items)
    (hposition : step.isPositional = true) :
    let array := ofValue (.defined (.array (items.map fun s => r.arena.toJson s.node)))
    Outcome.Related (Selection.Related (SameValue r.arena array.arena)) (r.stepSelection step)
      (array.stepSelection step) := by
  intro array
  rw [stepSelection_array (r := array) rfl (isArray_array _) hposition]
  have hparts : Selection.Related (SameValue r.arena array.arena) r.selection
      (array.select (.multiple (array.arena.children 0))).selection := by
    rw [hfanOut]
    exact .multiple (fanOut_sameValue r.arena items)
  refine stepSelection_along (Step.isLocal_of_isPositional hposition) hparts ?_
  rw [hfanOut]
  exact Selection.descends_of_isPositional hposition items

/-- A fan-out behaves like the array of its values.  A step by position, applied to the
fan-out or to a new chain that starts at the array, comes to the same value or fails for the
same cause, whatever the nodes are; and in a document so does every chain of such steps. -/
theorem fanOut_eq_array (r : Resolved) (items : List Selected)
    (hfanOut : r.selection = .multiple items) :
    let array := ofValue (.defined (.array (items.map fun s => r.arena.toJson s.node)))
    (∀ step : Step, step.isPositional = true →
      value <$> r.step step = value <$> array.step step) ∧
    ∀ json, r.arena = ofJson json → ∀ chain : List Step,
      (∀ step ∈ chain, step.isPositional = true) →
        value <$> chain.foldlM Resolved.step r = value <$> chain.foldlM Resolved.step array := by
  intro array
  refine ⟨fun step hposition => ?_, fun json harena chain hchain => ?_⟩
  · have hlast (r : Resolved) : [step].foldlM Resolved.step r = r.step step := bind_pure _
    rw [← hlast, ← hlast]
    exact foldlM_cons_sameValue (stepSelection_fanOut hfanOut hposition)
      fun _ _ hselections => congrArg Except.ok (value_eq_of_related hselections)
  · cases chain with
    | nil =>
      have hvalue : array.value = r.value := by
        rw [value, value, hfanOut]
        exact congrArg Value.defined (toJson_ofJson _)
      exact congrArg Except.ok hvalue.symm
    | cons step rest =>
      obtain ⟨hposition, hrest⟩ := List.forall_mem_cons.mp hchain
      refine foldlM_cons_sameValue (stepSelection_fanOut hfanOut hposition)
        fun found found' hselections => ?_
      have harray : (array.select found').arena
          = ofJson (.array (items.map fun s => r.arena.toJson s.node)) := rfl
      exact chain_sameValue (r := r.select found) harena harray hselections rest hrest

/-- Two rows found by their name: they are reversed, and from the second one the last element
is taken; and there is no third row. -/
theorem fanOut_eq_array_rows :
    let json : Json := .array [.object [("row", .array [.ofNat 1, .ofNat 2])],
      .object [("row", .array [.ofNat 3])]]
    let rows : List Selected := [⟨2, some ⟨1, .key "row"⟩⟩, ⟨6, some ⟨5, .key "row"⟩⟩]
    let r : Resolved := ⟨ofJson json, 0, .multiple rows⟩
    let array := ofValue (.defined (.array [.array [.ofNat 1, .ofNat 2], .array [.ofNat 3]]))
    let chain : List Step := [.slice none none (some (-1)), .index 1, .wildcard, .index (-1)]
    value <$> r.step (.index 2) = .error (.indexOutOfRange 2 2) ∧
      value <$> array.step (.index 2) = .error (.indexOutOfRange 2 2) ∧
      value <$> chain.foldlM Resolved.step r = .ok (.defined (.ofNat 2)) ∧
      value <$> chain.foldlM Resolved.step array = .ok (.defined (.ofNat 2)) := by
  intro json rows r array chain
  have hrows : ofValue (.defined (.array (rows.map fun s => r.arena.toJson s.node))) = array := by
    cbv
  obtain ⟨hstep, hchain⟩ := fanOut_eq_array r rows rfl
  rw [hrows] at hstep hchain
  have hmissing : value <$> r.step (.index 2) = .error (.indexOutOfRange 2 2) := by cbv
  have hlast : value <$> chain.foldlM Resolved.step r = .ok (.defined (.ofNat 2)) := by cbv
  exact ⟨hmissing, (hstep _ rfl).symm.trans hmissing, hlast,
    (hchain json rfl chain (by decide)).symm.trans hlast⟩

end Resolved

end Verdict
