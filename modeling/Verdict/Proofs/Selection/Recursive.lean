/-
Recursive steps.

The numbers of a subtree are consecutive, from that of its first node on.  So a
recursive step, which goes through the subtrees of the selected nodes, comes to
every node of them once, and selects all that it looks for below them.

* `Arena.subtree_of_holds`: the subtree of a flattened value is a range.
* `Arena.exists_holds`: every node of a document is the first one of a flattened value.
* `Arena.mem_descendants`: what is listed below a node are the parts of all nodes
  that are reached from it.
* `Arena.IsMember`, `Arena.IsElement`: what a recursive step looks for in a node.
* `Arena.Collects`: everything of a kind in the subtrees of some nodes, once each.
* `Resolved.recursive_steps_exact`: recursive steps are complete and exact.
-/
import Verdict.Proofs.Evaluation.Anchoring

namespace Verdict

namespace Arena

variable {arena : Arena} {value : Json}

/-! ### Subtrees -/

/-- In a well-formed arena all parts are entered. -/
lemma descendants_eq (hwell : arena.WellFormed) (id : Nat) : arena.descendants id =
    (arena.children id).flatMap fun child => child :: arena.descendants child.node := by
  rw [descendants]
  refine List.flatMap_congr fun child hchild => ?_
  rw [dif_pos (hwell id child hchild)]

lemma subtree_of_node? (hwell : arena.WellFormed) {id : Nat} {node : Node}
    (h : arena.node? id = some node) :
    arena.subtree id = id :: node.parts.flatMap arena.subtree := by
  rw [subtree, descendants_eq hwell, children_of_node? h, List.map_flatMap,
    ← node.map_node_links id, List.flatMap_map]
  rfl

mutual

/-- The subtree of a flattened value is the range of its numbers. -/
theorem subtree_of_holds (hwell : arena.WellFormed) (start : Nat) : (value : Json) →
    arena.Holds start (flatten start value) →
      arena.subtree start = List.range' start (flatten start value).length
  | .array items, h => by
    rw [subtree_of_node? hwell h.head, Node.parts, subtrees_of_items hwell (start + 1) items h.tail,
      flatten, List.length_cons, List.range'_succ]
  | .object members, h => by
    rw [subtree_of_node? hwell h.head, Node.parts,
      subtrees_of_members hwell (start + 1) members h.tail, flatten, List.length_cons,
      List.range'_succ]
  | .null, h | .bool _, h | .number _, h | .string _, h => subtree_of_node? hwell (Holds.head h)

theorem subtrees_of_items (hwell : arena.WellFormed) (start : Nat) : (items : List Json) →
    arena.Holds start (flattenItems start items).2 →
      (flattenItems start items).1.flatMap arena.subtree
        = List.range' start (flattenItems start items).2.length
  | [], _ => rfl
  | item :: rest, h => by
    rw [flattenItems_cons] at h ⊢
    rw [List.flatMap_cons, subtree_of_holds hwell start item h.left,
      subtrees_of_items hwell _ rest h.right,
      List.range'_append_1, List.length_append]

theorem subtrees_of_members (hwell : arena.WellFormed) (start : Nat) :
    (members : List (String × Json)) → arena.Holds start (flattenMembers start members).2 →
      ((flattenMembers start members).1.map Prod.snd).flatMap arena.subtree
        = List.range' start (flattenMembers start members).2.length
  | [], _ => rfl
  | (key, value) :: rest, h => by
    rw [flattenMembers_cons] at h ⊢
    rw [List.map_cons, List.flatMap_cons, subtree_of_holds hwell start value h.left,
      subtrees_of_members hwell _ rest h.right, List.range'_append_1, List.length_append]

end

/-! ### Nodes of a document -/

lemma exists_holds_of_mem_items {start : Nat} {items : List Json} {c : Nat}
    (h : arena.Holds start (flattenItems start items).2) (hc : c ∈ (flattenItems start items).1) :
    ∃ part, arena.Holds c (flatten c part) := by
  induction items generalizing start with
  | nil => simp [flattenItems] at hc
  | cons item rest ih =>
    rw [flattenItems_cons] at h hc
    rcases List.mem_cons.mp hc with rfl | hc
    · exact ⟨item, h.left⟩
    · exact ih h.right hc

lemma exists_holds_of_mem_members {start : Nat} {members : List (String × Json)} {c : Nat}
    (h : arena.Holds start (flattenMembers start members).2)
    (hc : c ∈ (flattenMembers start members).1.map Prod.snd) :
    ∃ part, arena.Holds c (flatten c part) := by
  induction members generalizing start with
  | nil => simp [flattenMembers] at hc
  | cons member rest ih =>
    obtain ⟨key, value⟩ := member
    rw [flattenMembers_cons] at h hc
    rcases List.mem_cons.mp hc with rfl | hc
    · exact ⟨value, h.left⟩
    · exact ih h.right hc

/-- The parts of a flattened value are flattened values. -/
lemma exists_holds_of_mem_children {id : Nat} {s : Selected}
    (h : arena.Holds id (flatten id value)) (hs : s ∈ arena.children id) :
    ∃ part, arena.Holds s.node (flatten s.node part) := by
  have hnode : ∀ node, arena.node? id = some node → s.node ∈ node.parts := fun node hnode => by
    rw [children_of_node? hnode] at hs
    exact node.map_node_links id ▸ List.mem_map_of_mem hs
  match value, h with
  | .array items, h => exact exists_holds_of_mem_items h.tail (hnode _ h.head)
  | .object members, h => exact exists_holds_of_mem_members h.tail (hnode _ h.head)
  | .null, h | .bool _, h | .number _, h | .string _, h =>
    exact absurd (hnode _ (Holds.head h)) List.not_mem_nil

/-- Every node of a document is the first one of a flattened value. -/
theorem exists_holds {id : Nat} (hid : id < (ofJson value).nodes.size) :
    ∃ part, (ofJson value).Holds id (flatten id part) := by
  induction reachable_ofJson hid with
  | root => exact ⟨value, holds_ofJson value⟩
  | part hid hs ih =>
    obtain ⟨hlt, hsize⟩ := ofJson_wellFormed value _ _ hs
    obtain ⟨part, hpart⟩ := ih (Nat.lt_trans hlt hsize)
    exact exists_holds_of_mem_children hpart hs

/-- A subtree of a document is listed in document order. -/
theorem subtree_increasing (value : Json) (id : Nat) :
    ((ofJson value).subtree id).Pairwise (· < ·) := by
  by_cases hid : id < (ofJson value).nodes.size
  · obtain ⟨part, hpart⟩ := exists_holds hid
    rw [subtree_of_holds (ofJson_wellFormed value) id part hpart]
    exact List.pairwise_lt_range'
  · have hnone : (ofJson value).node? id = none := Array.getElem?_eq_none (Nat.not_lt.mp hid)
    rw [subtree, descendants_eq (ofJson_wellFormed value), children_of_none hnone]
    exact List.pairwise_singleton _ _

/-! ### What is reached -/

/-- Whatever is reached from a node is the node itself, or reached from a part of it. -/
lemma Reachable.cases_head {root id : Nat} (h : arena.Reachable root id) :
    id = root ∨ ∃ s ∈ arena.children root, arena.Reachable s.node id := by
  induction h with
  | root => exact .inl rfl
  | part _ hs ih =>
    rcases ih with rfl | ⟨s, hroot, hreach⟩
    · exact .inr ⟨_, hs, .root⟩
    · exact .inr ⟨s, hroot, hreach.part hs⟩

lemma Reachable.head {root id : Nat} {s : Selected} (hs : s ∈ arena.children root)
    (h : arena.Reachable s.node id) : arena.Reachable root id := by
  induction h with
  | root => exact Reachable.root.part hs
  | part _ hpart ih => exact ih.part hpart

/-- Below a node the parts of all nodes are listed that are reached from it. -/
theorem mem_descendants (hwell : arena.WellFormed) {id : Nat} {s : Selected} :
    s ∈ arena.descendants id ↔ ∃ parent, arena.Reachable id parent ∧ s ∈ arena.children parent := by
  induction id using descendants.induct arena with
  | case1 id ih =>
    rw [descendants_eq hwell, List.mem_flatMap]
    constructor
    · rintro ⟨child, hchild, hs⟩
      rcases List.mem_cons.mp hs with rfl | hs
      · exact ⟨id, .root, hchild⟩
      · obtain ⟨parent, hparent, hs⟩ := (ih child (hwell id child hchild)).mp hs
        exact ⟨parent, hparent.head hchild, hs⟩
    · rintro ⟨parent, hparent, hs⟩
      rcases hparent.cases_head with rfl | ⟨child, hchild, hparent⟩
      · exact ⟨s, hs, List.mem_cons_self⟩
      · exact ⟨child, hchild,
          List.mem_cons_of_mem _ ((ih child (hwell id child hchild)).mpr ⟨parent, hparent, hs⟩)⟩

/-- The subtree of a node consists of all that is reached from it. -/
lemma mem_subtree (hwell : arena.WellFormed) {root id : Nat} :
    id ∈ arena.subtree root ↔ arena.Reachable root id := by
  rw [subtree, List.mem_cons, List.mem_map]
  constructor
  · rintro (rfl | ⟨s, hs, rfl⟩)
    · exact .root
    · obtain ⟨parent, hparent, hpart⟩ := (mem_descendants hwell).mp hs
      exact hparent.part hpart
  · rintro (_ | ⟨hparent, hpart⟩)
    · exact .inl rfl
    · exact .inr ⟨_, (mem_descendants hwell).mpr ⟨_, hparent, hpart⟩, rfl⟩

/-! ### What recursive steps look for -/

/-- The part of an object under a name. -/
def IsMember (arena : Arena) (name : String) (id : Nat) (s : Selected) : Prop :=
  arena.part? id (.key name) = some s.node ∧ s.handle = some ⟨id, .key name⟩

/-- The part of an array at a position that is in range; a negative one counts from the
end. -/
def IsElement (arena : Arena) (position : Int) (id : Nat) (s : Selected) : Prop :=
  ∃ (ids : List Nat) (index : Nat), arena.node? id = some (.array ids) ∧
    (index : Int) = (if position < 0 then ids.length + position else position) ∧
    ids[index]? = some s.node ∧ s.handle = some ⟨id, .index index⟩

/-- The subtrees of the nodes have nothing in common. -/
def Apart (arena : Arena) (selected : List Selected) : Prop :=
  selected.Pairwise fun s t => ∀ id, arena.Reachable s.node id → ¬ arena.Reachable t.node id

/-- From each of some nodes, everything of a kind is found that is in a node of the
subtree, and nothing else, and each part is found only once in all of them. -/
structure Collects (arena : Arena) (kind : Nat → Selected → Prop) (selected : List Selected)
    (found : Selected → List Selected) : Prop where
  exact : ∀ s ∈ selected, ∀ x, x ∈ found s ↔ ∃ id, arena.Reachable s.node id ∧ kind id x
  once : ((selected.flatMap found).map Selected.node).Nodup

lemma isMember_iff {name : String} {id : Nat} {s : Selected} :
    arena.member? id name = some s ↔ arena.IsMember name id s := by
  obtain ⟨node, handle⟩ := s
  simp only [IsMember, member?, part?]
  cases arena.node? id with
  | none => simp
  | some parent =>
    cases parent with
    | scalar _ | array _ => simp
    | object members =>
      simp only [Option.map_eq_some_iff, Selected.mk.injEq, eq_comm (a := handle)]
      constructor
      · rintro ⟨child, hchild, rfl, hhandle⟩
        exact ⟨hchild, hhandle⟩
      · rintro ⟨hnode, hhandle⟩
        exact ⟨node, hnode, rfl, hhandle⟩

lemma position?_eq_some {position : Int} {length index : Nat} :
    position? position length = some index ↔
      (index : Int) = (if position < 0 then length + position else position) ∧
        index < length := by
  simp only [position?]
  generalize (if position < 0 then (length : Int) + position else position) = found
  split
  · rw [Option.some.injEq]
    omega
  · simp only [reduceCtorEq, false_iff]
    omega

lemma isElement_iff {position : Int} {id : Nat} {s : Selected} :
    arena.element id position = .ok s ↔ arena.IsElement position id s := by
  obtain ⟨node, handle⟩ := s
  rw [IsElement, element]
  cases arena.node? id with
  | none => simp
  | some parent =>
    cases parent with
    | scalar _ | object _ => simp
    | array ids =>
      simp only [Option.some.injEq, Node.array.injEq, exists_and_left, exists_eq_left']
      constructor
      · intro h
        split at h
        · rename_i index hindex
          obtain ⟨hposition, hlt⟩ := position?_eq_some.mp hindex
          cases h
          refine ⟨index, hposition, ?_, rfl⟩
          rw [List.getD_eq_getElem?_getD, List.getElem?_eq_getElem hlt]
          rfl
        · simp at h
      · rintro ⟨index, hposition, hnode, rfl⟩
        obtain ⟨hlt, rfl⟩ := List.getElem?_eq_some_iff.mp hnode
        rw [position?_eq_some.mpr ⟨hposition, hlt⟩]
        simp [List.getD_eq_getElem?_getD, List.getElem?_eq_getElem hlt]

/-- The part of an array at a position, if there is one. -/
def element? (arena : Arena) (position : Int) (id : Nat) : Option Selected :=
  if arena.isArray id then (arena.element id position).toOption else none

lemma element?_eq_some {position : Int} {id : Nat} {s : Selected} :
    arena.element? position id = some s ↔ arena.IsElement position id s := by
  rw [← isElement_iff, element?, isArray, element]
  cases arena.node? id with
  | none => simp
  | some node =>
    cases node with
    | scalar _ | object _ => simp
    | array ids =>
      simp only [↓reduceIte]
      cases position? position ids.length <;> simp [Except.toOption]

lemma mem_children_of_handle {id : Nat} {slot : Slot} {s : Selected}
    (h : arena.part? id slot = some s.node) (hhandle : s.handle = some ⟨id, slot⟩) :
    s ∈ arena.children id := by
  obtain ⟨node, _⟩ := s
  subst hhandle
  exact part?_mem_children h

lemma IsMember.mem_children {name : String} {id : Nat} {s : Selected}
    (h : arena.IsMember name id s) : s ∈ arena.children id :=
  mem_children_of_handle h.1 h.2

lemma IsElement.mem_children {position : Int} {id : Nat} {s : Selected}
    (h : arena.IsElement position id s) : s ∈ arena.children id := by
  obtain ⟨ids, index, hnode, -, hpart, hhandle⟩ := h
  exact mem_children_of_handle ((part?_array hnode index).trans hpart) hhandle

/-- A part has only one parent. -/
lemma parent_unique {s t : Selected} {id id' : Nat} (hs : s ∈ (ofJson value).children id)
    (ht : t ∈ (ofJson value).children id') (h : s.node = t.node) : id = id' := by
  obtain rfl := handle_unique (mem_links_iff.mpr ⟨id, hs⟩) (mem_links_iff.mpr ⟨id', ht⟩) h
  obtain ⟨slot, hslot, -⟩ := resolves_of_mem_children hs
  obtain ⟨slot', hslot', -⟩ := resolves_of_mem_children ht
  rw [hslot, Option.some.injEq, Handle.mk.injEq] at hslot'
  exact hslot'.1

/-- Below nodes whose subtrees have nothing in common, no part is found twice if none is
found twice below one of them. -/
lemma Collects.of_apart {kind : Nat → Selected → Prop} {selected : List Selected}
    {found : Selected → List Selected} (hapart : arena.Apart selected)
    (hkind : ∀ id x, kind id x → x ∈ arena.children id)
    (hexact : ∀ s x, x ∈ found s ↔ ∃ id, arena.Reachable s.node id ∧ kind id x)
    (honce : ∀ s, ((found s).map Selected.node).Nodup) : arena.Collects kind selected found where
  exact s _ := hexact s
  once := by
    rw [List.map_flatMap, List.nodup_flatMap]
    refine ⟨fun s _ => honce s, hapart.imp fun {s t} hst id hs ht => ?_⟩
    have hreached {s : Selected} (h : id ∈ (found s).map Selected.node) :
        arena.Reachable s.node id := by
      obtain ⟨x, hx, rfl⟩ := List.mem_map.mp h
      obtain ⟨parent, hparent, hpart⟩ := (hexact s x).mp hx
      exact hparent.part (hkind parent x hpart)
    exact hst id (hreached hs) (hreached ht)

/-- What is in a node at most once is found by going through the subtrees. -/
lemma collects_subtrees {kind : Nat → Selected → Prop} {selected : List Selected}
    (hapart : (ofJson value).Apart selected)
    (hkind : ∀ id x, kind id x → x ∈ (ofJson value).children id) {pick : Nat → Option Selected}
    (hpick : ∀ id x, pick id = some x ↔ kind id x) :
    (ofJson value).Collects kind selected fun s =>
      ((ofJson value).subtree s.node).filterMap pick := by
  have hwell := ofJson_wellFormed value
  refine .of_apart hapart hkind (fun s x => ?_) fun s => ?_
  · simp only [List.mem_filterMap, mem_subtree hwell, hpick]
  · rw [List.map_filterMap]
    refine List.Nodup.filterMap (fun id id' c hc hc' => ?_)
      ((subtree_increasing value s.node).imp Nat.ne_of_lt)
    obtain ⟨x, hx, rfl⟩ := Option.map_eq_some_iff.mp hc
    obtain ⟨y, hy, hnode⟩ := Option.map_eq_some_iff.mp hc'
    exact parent_unique (hkind id x ((hpick id x).mp hx)) (hkind id' y ((hpick id' y).mp hy))
      hnode.symm

/-- All parts in the subtrees are listed below the nodes. -/
lemma collects_descendants {selected : List Selected} (hapart : (ofJson value).Apart selected) :
    (ofJson value).Collects (fun id x => x ∈ (ofJson value).children id) selected fun s =>
      (ofJson value).descendants s.node :=
  .of_apart hapart (fun _ _ hx => hx) (fun _ _ => mem_descendants (ofJson_wellFormed value))
    fun s => (List.nodup_cons.mp ((subtree_increasing value s.node).imp Nat.ne_of_lt)).2

/-- The nodes listed below a node are those that are reached from it, apart from itself. -/
lemma mem_map_descendants {root id : Nat} :
    id ∈ ((ofJson value).descendants root).map Selected.node ↔
      (ofJson value).Reachable root id ∧ id ≠ root := by
  have hwell := ofJson_wellFormed value
  have hroot := (List.pairwise_cons.mp (subtree_increasing value root)).1
  rw [← mem_subtree hwell, subtree, List.mem_cons]
  constructor
  · exact fun hid => ⟨.inr hid, Nat.ne_of_gt (hroot id hid)⟩
  · rintro ⟨hid | hid, hne⟩
    · exact absurd hid hne
    · exact hid

end Arena

namespace Resolved

open Arena

variable {r : Resolved}

/-- Wherever something is selected, the step by a name goes through the subtrees. -/
lemma step_recursiveKey (h : r.selection ≠ .nothing) (name : String) :
    r.step (.recursiveKey name) = .ok (r.select (.multiple (r.selection.toList.flatMap
      fun s => (r.arena.subtree s.node).filterMap (r.arena.member? · name)))) := by
  obtain ⟨arena, root, selection⟩ := r
  rw [← List.filterMap_flatMap]
  cases selection with
  | nothing => exact absurd rfl h
  | single _ | multiple _ => rfl

lemma step_recursiveIndex (h : r.selection ≠ .nothing) (position : Int) :
    r.step (.recursiveIndex position) = .ok (r.select (.multiple (r.selection.toList.flatMap
      fun s => (r.arena.subtree s.node).filterMap (r.arena.element? position)))) := by
  obtain ⟨arena, root, selection⟩ := r
  rw [← List.filterMap_flatMap]
  cases selection with
  | nothing => exact absurd rfl h
  | single _ | multiple _ => rfl

lemma step_recursiveWildcard (h : r.selection ≠ .nothing) :
    r.step .recursiveWildcard = .ok (r.select (.multiple (r.selection.toList.flatMap
      fun s => r.arena.descendants s.node))) := by
  obtain ⟨arena, root, selection⟩ := r
  cases selection with
  | nothing => exact absurd rfl h
  | single _ | multiple _ => rfl

/-- Recursive steps are complete and exact.  From the selected nodes of a document, one or
several whose subtrees have nothing in common, the step by a name selects the members of
that name of all objects in their subtrees, the step by a position the elements at that
position of all arrays, and the step to everything all nodes but the selected ones
themselves, in strictly increasing order below each of them: every such node once, one
selected node after the other, and nothing else. -/
theorem recursive_steps_exact (value : Json) (r : Resolved) (harena : r.arena = ofJson value)
    (hselects : r.selection ≠ .nothing) (hapart : r.arena.Apart r.selection.toList) :
    (∀ name, ∃ found,
      r.step (.recursiveKey name)
        = .ok (r.select (.multiple (r.selection.toList.flatMap found))) ∧
      r.arena.Collects (r.arena.IsMember name) r.selection.toList found) ∧
    (∀ position, ∃ found,
      r.step (.recursiveIndex position)
        = .ok (r.select (.multiple (r.selection.toList.flatMap found))) ∧
      r.arena.Collects (r.arena.IsElement position) r.selection.toList found) ∧
    ∃ found,
      r.step .recursiveWildcard
        = .ok (r.select (.multiple (r.selection.toList.flatMap found))) ∧
      r.arena.Collects (fun id x => x ∈ r.arena.children id) r.selection.toList found ∧
      ∀ s ∈ r.selection.toList, ((found s).map Selected.node).Pairwise (· < ·) ∧
        ∀ id, id ∈ (found s).map Selected.node ↔
          r.arena.Reachable s.node id ∧ id ≠ s.node := by
  have hkey := fun name => step_recursiveKey hselects name
  have hindex := fun position => step_recursiveIndex hselects position
  have hwildcard := step_recursiveWildcard hselects
  rw [harena] at hapart hkey hindex hwildcard ⊢
  refine ⟨fun name => ⟨_, hkey name, ?_⟩, fun position => ⟨_, hindex position, ?_⟩,
    _, hwildcard, collects_descendants hapart, fun s _ => ⟨?_, fun id => mem_map_descendants⟩⟩
  · exact collects_subtrees hapart (fun _ _ => IsMember.mem_children) fun _ _ => isMember_iff
  · exact collects_subtrees hapart (fun _ _ => IsElement.mem_children)
      fun _ _ => element?_eq_some
  · exact (List.pairwise_cons.mp (subtree_increasing value s.node)).2

/-- Members of one name at several depths, one of them inside another one. -/
theorem recursive_steps_exact_nested :
    let value : Json := .array
      [.object [("id", .ofNat 2), ("rows", .array [])],
        .array [.object [("id", .object [("id", .ofNat 3)])]]]
    let rows : List Selected := [⟨1, some ⟨0, .index 0⟩⟩, ⟨4, some ⟨0, .index 1⟩⟩]
    let found : List Selected :=
      [⟨2, some ⟨1, .key "id"⟩⟩, ⟨6, some ⟨5, .key "id"⟩⟩, ⟨7, some ⟨6, .key "id"⟩⟩]
    let r : Resolved := ⟨ofJson value, 0, .multiple rows⟩
    r.step (.recursiveKey "id") = .ok (r.select (.multiple found)) ∧
      ∀ x, x ∈ found ↔ ∃ s ∈ rows, ∃ id, r.arena.Reachable s.node id ∧
        r.arena.IsMember "id" id x := by
  intro value rows found r
  have hwell : r.arena.WellFormed := ofJson_wellFormed value
  have hapart : r.arena.Apart rows := by
    refine List.pairwise_pair.mpr fun id hs ht => ?_
    rw [← mem_subtree hwell] at hs ht
    have hfirst : r.arena.subtree 1 = [1, 2, 3] := by cbv
    have hsecond : r.arena.subtree 4 = [4, 5, 6, 7] := by cbv
    rw [hfirst] at hs
    rw [hsecond] at ht
    fin_cases hs <;> simp at ht
  obtain ⟨hkey, -⟩ := recursive_steps_exact value r rfl (by simp [r]) hapart
  obtain ⟨each, hstep, hexact, -⟩ := hkey "id"
  have hfound : r.step (.recursiveKey "id") = .ok (r.select (.multiple found)) := by cbv
  refine ⟨hfound, fun x => ?_⟩
  have heq : found = rows.flatMap each := by
    have := (Except.ok.inj (hfound.symm.trans hstep))
    exact Selection.multiple.inj (congrArg Resolved.selection this)
  rw [heq, List.mem_flatMap]
  exact exists_congr fun s => and_congr_right fun hs => hexact s hs x

end Resolved

end Verdict
