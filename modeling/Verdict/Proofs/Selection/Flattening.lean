/-
Flattened documents.

A flattened value is a tree: every node but the first one is the part of exactly
one node, and stands behind it.

* `Node.parts`, `Node.links`, `linksFrom`: the parts of a node, with their
  handles, and those of consecutive nodes.
* `Arena.flatten_perm`: every node but the first one is linked once.
* `Arena.Holds`: consecutive nodes of an arena.
* `Arena.toJson_of_holds`: a flattened value is read as it was.
* `Arena.ofJson_wellFormed`, `Arena.handle_unique`: the arena of a document is
  well-formed, and a node in it has one handle.
-/
import Mathlib.Data.List.Perm.Basic
import Mathlib.Data.List.Nodup
import Verdict.Selection.Arena

namespace Verdict

/-! ### Links -/

namespace Node

/-- The numbers of the parts, in document order. -/
def parts : Node → List Nat
  | .scalar _ => []
  | .array ids => ids
  | .object members => members.map Prod.snd

/-- The parts of a node of this number with their handles, in document order. -/
def links (id : Nat) : Node → List Selected
  | .scalar _ => []
  | .array ids => ids.mapIdx fun i child => ⟨child, some ⟨id, .index i⟩⟩
  | .object members => members.map fun (key, child) => ⟨child, some ⟨id, .key key⟩⟩

/-- Without their handles the links of a node are its parts. -/
lemma map_node_links (id : Nat) (node : Node) :
    (node.links id).map Selected.node = node.parts := by
  cases node with
  | scalar value => rfl
  | array ids => exact List.ext_getElem (by simp [links, parts]) (by simp [links, parts])
  | object members => simp [links, parts]

/-- The handle of a link names the node that it leads from. -/
lemma parent_of_mem_links {id : Nat} {node : Node} {x : Selected} (h : x ∈ node.links id) :
    ∃ slot, x.handle = some ⟨id, slot⟩ := by
  cases node with
  | scalar value => simp [links] at h
  | array ids =>
    obtain ⟨i, hi, rfl⟩ := List.mem_mapIdx.mp h
    exact ⟨_, rfl⟩
  | object members =>
    obtain ⟨member, -, rfl⟩ := List.mem_map.mp h
    exact ⟨_, rfl⟩

end Node

/-- The parts of consecutive nodes, the first number being `start`. -/
def linksFrom (start : Nat) : List Node → List Selected
  | [] => []
  | node :: rest => node.links start ++ linksFrom (start + 1) rest

/-- Numbering goes on where the nodes before end. -/
lemma linksFrom_append (start : Nat) (nodes more : List Node) :
    linksFrom start (nodes ++ more) =
      linksFrom start nodes ++ linksFrom (start + nodes.length) more := by
  induction nodes generalizing start with
  | nil => rfl
  | cons node rest ih =>
    have hstart : start + 1 + rest.length = start + (rest.length + 1) := by omega
    rw [List.cons_append, linksFrom, linksFrom, ih, List.append_assoc, List.length_cons, hstart]

/-- A link leads from one of the nodes, under the number that this node has. -/
lemma mem_linksFrom {start : Nat} {nodes : List Node} {x : Selected} :
    x ∈ linksFrom start nodes ↔
      ∃ (k : Nat) (node : Node), nodes[k]? = some node ∧ x ∈ node.links (start + k) := by
  induction nodes generalizing start with
  | nil => simp [linksFrom]
  | cons node rest ih =>
    have hstart (k : Nat) : start + 1 + k = start + (k + 1) := by omega
    rw [linksFrom, List.mem_append, ih]
    constructor
    · rintro (h | ⟨k, node', hk, h⟩)
      · exact ⟨0, node, rfl, h⟩
      · exact ⟨k + 1, node', hk, hstart k ▸ h⟩
    · rintro ⟨k, node', hk, h⟩
      cases k with
      | zero =>
        obtain rfl : node = node' := by simpa using hk
        exact .inl h
      | succ k => exact .inr ⟨k, node', hk, hstart k ▸ h⟩

namespace Arena

lemma flattenItems_cons (start : Nat) (item : Json) (rest : List Json) :
    flattenItems start (item :: rest) =
      (start :: (flattenItems (start + (flatten start item).length) rest).1,
        flatten start item ++ (flattenItems (start + (flatten start item).length) rest).2) := by
  rw [flattenItems]

lemma flattenMembers_cons (start : Nat) (key : String) (value : Json)
    (rest : List (String × Json)) :
    flattenMembers start ((key, value) :: rest) =
      ((key, start) :: (flattenMembers (start + (flatten start value).length) rest).1,
        flatten start value ++
          (flattenMembers (start + (flatten start value).length) rest).2) := by
  rw [flattenMembers]

/-! ### Numbers -/

mutual

/-- Every node of a flattened value but the first one is linked exactly once. -/
theorem flatten_perm (start : Nat) : (value : Json) →
    (start :: (linksFrom start (flatten start value)).map Selected.node).Perm
      (List.range' start (flatten start value).length)
  | .array items => by
    rw [flatten, linksFrom, List.map_append, Node.map_node_links, List.length_cons,
      List.range'_succ]
    exact (flattenItems_perm (start + 1) items).cons start
  | .object members => by
    rw [flatten, linksFrom, List.map_append, Node.map_node_links, List.length_cons,
      List.range'_succ]
    exact (flattenMembers_perm (start + 1) members).cons start
  | .null | .bool _ | .number _ | .string _ => by simp [flatten, linksFrom, Node.links]

theorem flattenItems_perm (start : Nat) : (items : List Json) →
    ((flattenItems start items).1 ++
        (linksFrom start (flattenItems start items).2).map Selected.node).Perm
      (List.range' start (flattenItems start items).2.length)
  | [] => by simp [flattenItems, linksFrom]
  | item :: rest => by
    have hitem := flatten_perm start item
    have hrest := flattenItems_perm (start + (flatten start item).length) rest
    rw [flattenItems_cons]
    simp only [linksFrom_append, List.map_append, List.length_append]
    rw [← List.range'_append_1]
    refine List.Perm.trans ?_ (hitem.append hrest)
    rw [List.cons_append, List.cons_append, List.perm_cons, ← List.append_assoc,
      ← List.append_assoc]
    exact List.perm_append_comm.append_right _

theorem flattenMembers_perm (start : Nat) : (members : List (String × Json)) →
    ((flattenMembers start members).1.map Prod.snd ++
        (linksFrom start (flattenMembers start members).2).map Selected.node).Perm
      (List.range' start (flattenMembers start members).2.length)
  | [] => by simp [flattenMembers, linksFrom]
  | (key, value) :: rest => by
    have hvalue := flatten_perm start value
    have hrest := flattenMembers_perm (start + (flatten start value).length) rest
    rw [flattenMembers_cons]
    simp only [linksFrom_append, List.map_append, List.map_cons, List.length_append]
    rw [← List.range'_append_1]
    refine List.Perm.trans ?_ (hvalue.append hrest)
    rw [List.cons_append, List.cons_append, List.perm_cons, ← List.append_assoc,
      ← List.append_assoc]
    exact List.perm_append_comm.append_right _

end

/-- A value has at least a node of its own. -/
lemma flatten_length_pos (start : Nat) (value : Json) : 0 < (flatten start value).length := by
  have h := (flatten_perm start value).length_eq
  rw [List.length_cons, List.length_range'] at h
  omega

/-- The parts of the nodes of a flattened value stand behind its first node. -/
lemma node_of_mem_linksFrom {start : Nat} {value : Json} {x : Selected}
    (h : x ∈ linksFrom start (flatten start value)) :
    start < x.node ∧ x.node < start + (flatten start value).length := by
  have hperm := flatten_perm start value
  have hmem := List.mem_map_of_mem (f := Selected.node) h
  have hrange := List.mem_range'_1.mp (hperm.subset (List.mem_cons_of_mem _ hmem))
  have hne : x.node ≠ start := by
    intro heq
    have hnodup := hperm.nodup_iff.mpr List.nodup_range'
    exact (List.nodup_cons.mp hnodup).1 (heq ▸ hmem)
  omega

mutual

/-- Parts stand behind the nodes that they are parts of. -/
theorem parent_lt_of_mem_flatten (start : Nat) : (value : Json) →
    ∀ x ∈ linksFrom start (flatten start value), ∀ handle ∈ x.handle, handle.parent < x.node
  | .array items => by
    intro x hx handle hhandle
    have hnode := (node_of_mem_linksFrom hx).1
    rw [flatten, linksFrom, List.mem_append] at hx
    rcases hx with hx | hx
    · obtain ⟨slot, hslot⟩ := Node.parent_of_mem_links hx
      obtain rfl : _ = handle := Option.some.inj (hslot.symm.trans hhandle)
      exact hnode
    · exact parent_lt_of_mem_flattenItems (start + 1) items x hx handle hhandle
  | .object members => by
    intro x hx handle hhandle
    have hnode := (node_of_mem_linksFrom hx).1
    rw [flatten, linksFrom, List.mem_append] at hx
    rcases hx with hx | hx
    · obtain ⟨slot, hslot⟩ := Node.parent_of_mem_links hx
      obtain rfl : _ = handle := Option.some.inj (hslot.symm.trans hhandle)
      exact hnode
    · exact parent_lt_of_mem_flattenMembers (start + 1) members x hx handle hhandle
  | .null | .bool _ | .number _ | .string _ => by simp [flatten, linksFrom, Node.links]

theorem parent_lt_of_mem_flattenItems (start : Nat) : (items : List Json) →
    ∀ x ∈ linksFrom start (flattenItems start items).2, ∀ handle ∈ x.handle,
      handle.parent < x.node
  | [] => by simp [flattenItems, linksFrom]
  | item :: rest => by
    intro x hx
    rw [flattenItems_cons] at hx
    simp only [linksFrom_append, List.mem_append] at hx
    rcases hx with hx | hx
    · exact parent_lt_of_mem_flatten start item x hx
    · exact parent_lt_of_mem_flattenItems _ rest x hx

theorem parent_lt_of_mem_flattenMembers (start : Nat) : (members : List (String × Json)) →
    ∀ x ∈ linksFrom start (flattenMembers start members).2, ∀ handle ∈ x.handle,
      handle.parent < x.node
  | [] => by simp [flattenMembers, linksFrom]
  | (_, value) :: rest => by
    intro x hx
    rw [flattenMembers_cons] at hx
    simp only [linksFrom_append, List.mem_append] at hx
    rcases hx with hx | hx
    · exact parent_lt_of_mem_flatten start value x hx
    · exact parent_lt_of_mem_flattenMembers _ rest x hx

end

/-! ### Nodes of an arena -/

/-- These nodes stand in the arena one after the other, the first number being
`start`. -/
def Holds (arena : Arena) (start : Nat) (nodes : List Node) : Prop :=
  ∀ (k : Nat) (node : Node), nodes[k]? = some node → arena.node? (start + k) = some node

variable {arena : Arena} {start : Nat}

/-- The first of the nodes stands at the start. -/
lemma Holds.head {node : Node} {rest : List Node} (h : arena.Holds start (node :: rest)) :
    arena.node? start = some node := h 0 node rfl

lemma Holds.tail {node : Node} {rest : List Node} (h : arena.Holds start (node :: rest)) :
    arena.Holds (start + 1) rest := by
  intro k node' hk
  rw [show start + 1 + k = start + (k + 1) by omega]
  exact h (k + 1) node' hk

lemma Holds.left {nodes more : List Node} (h : arena.Holds start (nodes ++ more)) :
    arena.Holds start nodes :=
  fun k node hk =>
    h k node ((List.getElem?_append_left (List.getElem?_eq_some_iff.mp hk).1).trans hk)

/-- The nodes behind the first ones stand where these end. -/
lemma Holds.right {nodes more : List Node} (h : arena.Holds start (nodes ++ more)) :
    arena.Holds (start + nodes.length) more := by
  intro k node hk
  rw [Nat.add_assoc]
  refine h (nodes.length + k) node ?_
  rw [List.getElem?_append_right (by omega), Nat.add_sub_cancel_left]
  exact hk

lemma lt_size_of_node? {id : Nat} {node : Node} (h : arena.node? id = some node) :
    id < arena.nodes.size := (Array.getElem?_eq_some_iff.mp h).1

lemma Holds.lt_size {nodes : List Node} (h : arena.Holds start nodes) (hpos : 0 < nodes.length) :
    start < arena.nodes.size :=
  lt_size_of_node? (h 0 nodes[0] (List.getElem?_eq_getElem hpos))

/-- The parts of a node are its links. -/
lemma children_of_node? {id : Nat} {node : Node} (h : arena.node? id = some node) :
    arena.children id = node.links id := by
  rw [children, h]
  cases node <;> rfl

lemma children_of_none {id : Nat} (h : arena.node? id = none) : arena.children id = [] := by
  rw [children, h]

/-- A well-formed arena, by the numbers of parts. -/
lemma wellFormed_iff : arena.WellFormed ↔
    ∀ id node, arena.node? id = some node → ∀ c ∈ node.parts, id < c ∧ c < arena.nodes.size := by
  constructor
  · intro h id node hnode c hc
    rw [← node.map_node_links id] at hc
    obtain ⟨x, hx, rfl⟩ := List.mem_map.mp hc
    exact h id x (children_of_node? hnode ▸ hx)
  · intro h id x hx
    cases hnode : arena.node? id with
    | none => simp [children_of_none hnode] at hx
    | some node =>
      rw [children_of_node? hnode] at hx
      exact h id node hnode x.node (node.map_node_links id ▸ List.mem_map_of_mem hx)

/-! ### Reading -/

section Reading

variable (hwell : arena.WellFormed) {id : Nat}
include hwell

/-- An array is read element by element. -/
lemma toJson_array {ids : List Nat} (h : arena.node? id = some (.array ids)) :
    arena.toJson id = .array (ids.map arena.toJson) := by
  have hparts := wellFormed_iff.mp hwell id _ h
  rw [toJson, h]
  refine congrArg Json.array (List.map_congr_left fun c hc => ?_)
  rw [dif_pos (hparts c hc)]

/-- An object is read member by member. -/
lemma toJson_object {members : List (String × Nat)}
    (h : arena.node? id = some (.object members)) :
    arena.toJson id = .object (members.map fun (key, child) => (key, arena.toJson child)) := by
  have hparts := wellFormed_iff.mp hwell id _ h
  rw [toJson, h]
  refine congrArg Json.object (List.map_congr_left fun (key, c) hc => ?_)
  exact dif_pos (hparts c (List.mem_map_of_mem (f := Prod.snd) hc))

end Reading

lemma toJson_scalar {id : Nat} {value : Json} (h : arena.node? id = some (.scalar value)) :
    arena.toJson id = value := by
  rw [toJson, h]

mutual

/-- A flattened value is read as it was. -/
theorem toJson_of_holds (hwell : arena.WellFormed) (start : Nat) : (value : Json) →
    arena.Holds start (flatten start value) → arena.toJson start = value
  | .array items, h => by
    rw [toJson_array hwell h.head, toJson_items_of_holds hwell (start + 1) items h.tail]
  | .object members, h => by
    rw [toJson_object hwell h.head, toJson_members_of_holds hwell (start + 1) members h.tail]
  | .null, h | .bool _, h | .number _, h | .string _, h => toJson_scalar (Holds.head h)

theorem toJson_items_of_holds (hwell : arena.WellFormed) (start : Nat) : (items : List Json) →
    arena.Holds start (flattenItems start items).2 →
      (flattenItems start items).1.map arena.toJson = items
  | [], _ => rfl
  | item :: rest, h => by
    rw [flattenItems_cons] at h ⊢
    exact congrArg₂ List.cons (toJson_of_holds hwell start item h.left)
      (toJson_items_of_holds hwell _ rest h.right)

theorem toJson_members_of_holds (hwell : arena.WellFormed) (start : Nat) :
    (members : List (String × Json)) → arena.Holds start (flattenMembers start members).2 →
      ((flattenMembers start members).1.map fun (key, child) => (key, arena.toJson child))
        = members
  | [], _ => rfl
  | (key, value) :: rest, h => by
    rw [flattenMembers_cons] at h ⊢
    exact congrArg₂ List.cons (congrArg (key, ·) (toJson_of_holds hwell start value h.left))
      (toJson_members_of_holds hwell _ rest h.right)

end

/-! ### Building -/

/-- Insertion makes room for the nodes of the value and for nothing else. -/
lemma size_insert (arena : Arena) (value : Json) : (arena.insert value).1.nodes.size
    = arena.nodes.size + (flatten arena.nodes.size value).length := by
  simp [insert]

/-- Insertion leaves all nodes that were there as they are. -/
lemma node?_insert_of_lt {id : Nat} (h : id < arena.nodes.size) (value : Json) :
    (arena.insert value).1.node? id = arena.node? id := by
  simp [insert, node?, Array.getElem?_append, h]

/-- The nodes of an inserted value stand behind all others, in their order. -/
lemma node?_insert_add (arena : Arena) (value : Json) (k : Nat) :
    (arena.insert value).1.node? (arena.nodes.size + k)
      = (flatten arena.nodes.size value)[k]? := by
  rw [insert, node?, Array.getElem?_append_right (Nat.le_add_right _ _), Nat.add_sub_cancel_left,
    List.getElem?_toArray]

/-- An inserted value stands behind all that was there. -/
lemma holds_insert (arena : Arena) (value : Json) :
    (arena.insert value).1.Holds arena.nodes.size (flatten arena.nodes.size value) :=
  fun k _ hk => (node?_insert_add arena value k).trans hk

/-- Inserting a value keeps an arena well-formed. -/
theorem insert_wellFormed (h : arena.WellFormed) (value : Json) :
    (arena.insert value).1.WellFormed := by
  have hsize := size_insert arena value
  rw [wellFormed_iff] at h ⊢
  intro id node hnode c hc
  by_cases hid : id < arena.nodes.size
  · rw [node?_insert_of_lt hid] at hnode
    have := h id node hnode c hc
    omega
  · obtain ⟨k, rfl⟩ := Nat.exists_eq_add_of_le (Nat.le_of_not_lt hid)
    rw [node?_insert_add] at hnode
    rw [← node.map_node_links (arena.nodes.size + k)] at hc
    obtain ⟨x, hx, rfl⟩ := List.mem_map.mp hc
    have hmem := mem_linksFrom.mpr ⟨k, node, hnode, hx⟩
    obtain ⟨slot, hslot⟩ := Node.parent_of_mem_links hx
    have hparent : arena.nodes.size + k < x.node :=
      parent_lt_of_mem_flatten _ value x hmem _ hslot
    have hbounds := node_of_mem_linksFrom hmem
    omega

/-! ### The arena of a document -/

lemma node?_ofJson (value : Json) (id : Nat) :
    (ofJson value).node? id = (flatten 0 value)[id]? := by
  simp [ofJson, insert, node?]

/-- The arena of a document holds its nodes from the root on. -/
lemma holds_ofJson (value : Json) : (ofJson value).Holds 0 (flatten 0 value) :=
  fun k _ hk => by rw [Nat.zero_add, node?_ofJson, hk]

/-- The arena of a document is well-formed. -/
theorem ofJson_wellFormed (value : Json) : (ofJson value).WellFormed := by
  refine insert_wellFormed (wellFormed_iff.mpr fun id node hnode => ?_) value
  simp [node?] at hnode

/-- The document is read as it was. -/
lemma toJson_ofJson (value : Json) : (ofJson value).toJson 0 = value :=
  toJson_of_holds (ofJson_wellFormed value) 0 value (holds_ofJson value)

/-- The parts of the nodes are the links of the flattened document. -/
lemma mem_links_iff {value : Json} {x : Selected} :
    x ∈ linksFrom 0 (flatten 0 value) ↔ ∃ id, x ∈ (ofJson value).children id := by
  rw [mem_linksFrom]
  constructor
  · rintro ⟨k, node, hk, hx⟩
    rw [← node?_ofJson] at hk
    exact ⟨k, by rwa [children_of_node? hk, ← Nat.zero_add k]⟩
  · rintro ⟨id, hx⟩
    cases hnode : (ofJson value).node? id with
    | none => simp [children_of_none hnode] at hx
    | some node =>
      rw [children_of_node? hnode] at hx
      exact ⟨id, node, by rw [← node?_ofJson, hnode], by rwa [Nat.zero_add]⟩

/-- Parts with the same node are the same: a node has one handle. -/
theorem handle_unique {value : Json} {x y : Selected}
    (hx : x ∈ linksFrom 0 (flatten 0 value)) (hy : y ∈ linksFrom 0 (flatten 0 value))
    (h : x.node = y.node) : x = y := by
  have hnodup := (flatten_perm 0 value).nodup_iff.mpr List.nodup_range'
  exact List.inj_on_of_nodup_map (List.nodup_cons.mp hnodup).2 hx hy h

end Arena

end Verdict
