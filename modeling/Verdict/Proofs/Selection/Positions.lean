/-
Positions in a document.

A position is the path of slots that leads to it from the root.

* `Arena.part?`, `Arena.follow?`: the node in a slot, and at the end of a path.
* `Arena.part?_mem_children`: a slot holds a part with its handle.
* `Arena.exists_path`, `Arena.path_unique`: every node of a document has exactly
  one position.
-/
import Mathlib.Data.List.Induction
import Verdict.Proofs.Selection.Flattening

namespace Verdict.Arena

/-- The node in a slot of another one. -/
def part? (arena : Arena) (id : Nat) (slot : Slot) : Option Nat :=
  match arena.node? id, slot with
  | some (.array ids), .index i => ids[i]?
  | some (.object members), .key key => members.lookup key
  | _, _ => none

/-- The node at the end of a path. -/
def follow? (arena : Arena) (id : Nat) : List Slot → Option Nat
  | [] => some id
  | slot :: rest => (arena.part? id slot).bind fun child => arena.follow? child rest

variable {arena : Arena}

/-- A path may be followed in two stretches. -/
lemma follow?_append (id : Nat) (path more : List Slot) :
    arena.follow? id (path ++ more) = (arena.follow? id path).bind (arena.follow? · more) := by
  induction path generalizing id with
  | nil => rfl
  | cons slot rest ih =>
    rw [List.cons_append, follow?, follow?, Option.bind_assoc]
    exact congrArg _ (funext ih)

lemma follow?_concat (id : Nat) (path : List Slot) (slot : Slot) :
    arena.follow? id (path ++ [slot]) = (arena.follow? id path).bind (arena.part? · slot) := by
  rw [follow?_append]
  simp [follow?]

/-- Positions of an array lead to its elements. -/
lemma part?_array {id : Nat} {ids : List Nat} (h : arena.node? id = some (.array ids)) (i : Nat) :
    arena.part? id (.index i) = ids[i]? := by
  simp only [part?, h]

/-- Names of an object lead to the members that are found under them. -/
lemma part?_object {id : Nat} {members : List (String × Nat)}
    (h : arena.node? id = some (.object members)) (key : String) :
    arena.part? id (.key key) = members.lookup key := by
  simp only [part?, h]

lemma mem_of_lookup {key : String} {members : List (String × Nat)} {child : Nat}
    (h : members.lookup key = some child) : (key, child) ∈ members := by
  obtain ⟨pre, post, rfl, -⟩ := List.lookup_eq_some_iff.mp h
  simp

/-- A slot holds a part, and its handle names the slot. -/
lemma part?_mem_children {id child : Nat} {slot : Slot} (h : arena.part? id slot = some child) :
    ⟨child, some ⟨id, slot⟩⟩ ∈ arena.children id := by
  cases hnode : arena.node? id with
  | none => simp [part?, hnode] at h
  | some node =>
    rw [children_of_node? hnode]
    match node, slot with
    | .array ids, .index i =>
      rw [part?_array hnode] at h
      obtain ⟨hi, rfl⟩ := List.getElem?_eq_some_iff.mp h
      exact List.mem_mapIdx.mpr ⟨i, hi, rfl⟩
    | .object members, .key key =>
      rw [part?_object hnode] at h
      exact List.mem_map.mpr ⟨(key, child), mem_of_lookup h, rfl⟩
    | .scalar _, _ | .array _, .key _ | .object _, .index _ => simp [part?, hnode] at h

/-- Behind members of other names a name is found at its first place. -/
lemma lookup_append_of_not_mem {key : String} {pre : List (String × Nat)}
    (h : key ∉ pre.map Prod.fst) (child : Nat) (post : List (String × Nat)) :
    (pre ++ (key, child) :: post).lookup key = some child := by
  induction pre with
  | nil => simp
  | cons member rest ih =>
    obtain ⟨k, c⟩ := member
    rw [List.map_cons, List.mem_cons, not_or] at h
    rw [List.cons_append, List.lookup_cons, beq_eq_false_iff_ne.mpr h.1]
    exact ih h.2

/-! ### Every node has a position -/

/-- Flattening keeps the names of members and their order. -/
lemma map_fst_flattenMembers (start : Nat) (members : List (String × Json)) :
    (flattenMembers start members).1.map Prod.fst = members.map Prod.fst := by
  induction members generalizing start with
  | nil => rfl
  | cons member rest ih => rw [flattenMembers_cons, List.map_cons, List.map_cons, ih]

mutual

/-- Below the first node of a flattened value, a path leads to every other one. -/
theorem exists_path (start : Nat) : (value : Json) → value.HasDistinctKeys →
    arena.Holds start (flatten start value) →
      ∀ x ∈ linksFrom start (flatten start value), ∃ path, arena.follow? start path = some x.node
  | .array items, hkeys, h => by
    intro x hx
    rw [flatten, linksFrom, List.mem_append] at hx
    rcases hx with hx | hx
    · obtain ⟨i, hi, rfl⟩ := List.mem_mapIdx.mp hx
      refine ⟨[.index i], ?_⟩
      rw [follow?, part?_array h.head, List.getElem?_eq_getElem hi]
      rfl
    · exact exists_path_item (start + 1) items hkeys start [] h.head h.tail x hx
  | .object members, hkeys, h => by
    have hnodup : ((flattenMembers (start + 1) members).1.map Prod.fst).Nodup := by
      rw [map_fst_flattenMembers]
      exact hkeys.1
    intro x hx
    rw [flatten, linksFrom, List.mem_append] at hx
    rcases hx with hx | hx
    · obtain ⟨⟨key, c⟩, hmem, rfl⟩ := List.mem_map.mp hx
      obtain ⟨pre, post, hsplit⟩ := List.append_of_mem hmem
      refine ⟨[.key key], ?_⟩
      have hpre : key ∉ pre.map Prod.fst := by
        rw [hsplit, List.map_append, List.nodup_append] at hnodup
        exact fun hk => hnodup.2.2 key hk key (by simp) rfl
      rw [follow?, part?_object h.head, hsplit, lookup_append_of_not_mem hpre]
      rfl
    · exact exists_path_member (start + 1) members hkeys.2 start [] h.head
        (by simpa using hnodup) h.tail x hx
  | .null, _, _ | .bool _, _, _ | .number _, _, _ | .string _, _, _ => by
    simp [flatten, linksFrom, Node.links]

theorem exists_path_item (start : Nat) : (items : List Json) → Json.ItemsDistinct items →
    (id : Nat) → (pre : List Nat) →
    arena.node? id = some (.array (pre ++ (flattenItems start items).1)) →
    arena.Holds start (flattenItems start items).2 →
      ∀ x ∈ linksFrom start (flattenItems start items).2,
        ∃ path, arena.follow? id path = some x.node
  | [], _, _, _, _, _ => by simp [flattenItems, linksFrom]
  | item :: rest, hkeys, id, pre, hnode, h => by
    intro x hx
    rw [flattenItems_cons] at hnode h hx
    simp only [linksFrom_append, List.mem_append] at hx
    rcases hx with hx | hx
    · obtain ⟨path, hpath⟩ := exists_path start item hkeys.1 h.left x hx
      refine ⟨.index pre.length :: path, ?_⟩
      rw [follow?, part?_array hnode, List.getElem?_append_right (Nat.le_refl _), Nat.sub_self]
      exact hpath
    · refine exists_path_item _ rest hkeys.2 id (pre ++ [start]) ?_ h.right x hx
      rw [hnode, List.append_assoc]
      rfl

theorem exists_path_member (start : Nat) : (members : List (String × Json)) →
    Json.MembersDistinct members → (id : Nat) → (pre : List (String × Nat)) →
    arena.node? id = some (.object (pre ++ (flattenMembers start members).1)) →
    ((pre ++ (flattenMembers start members).1).map Prod.fst).Nodup →
    arena.Holds start (flattenMembers start members).2 →
      ∀ x ∈ linksFrom start (flattenMembers start members).2,
        ∃ path, arena.follow? id path = some x.node
  | [], _, _, _, _, _, _ => by simp [flattenMembers, linksFrom]
  | (key, value) :: rest, hkeys, id, pre, hnode, hnodup, h => by
    intro x hx
    rw [flattenMembers_cons] at hnode h hx hnodup
    simp only [linksFrom_append, List.mem_append] at hx
    rcases hx with hx | hx
    · obtain ⟨path, hpath⟩ := exists_path start value hkeys.1 h.left x hx
      have hpre : key ∉ pre.map Prod.fst := by
        rw [List.map_append, List.nodup_append] at hnodup
        exact fun hk => hnodup.2.2 key hk key (by simp) rfl
      refine ⟨.key key :: path, ?_⟩
      rw [follow?, part?_object hnode, lookup_append_of_not_mem hpre]
      exact hpath
    · have hsplit (more : List (String × Nat)) :
          pre ++ (key, start) :: more = pre ++ [(key, start)] ++ more := by
        rw [List.append_assoc]
        rfl
      exact exists_path_member _ rest hkeys.2 id (pre ++ [(key, start)])
        (hsplit _ ▸ hnode) (hsplit _ ▸ hnodup) h.right x hx

end

/-- A node of a document has only one position. -/
theorem path_unique {value : Json} {path path' : List Slot} {id : Nat}
    (h : (ofJson value).follow? 0 path = some id) (h' : (ofJson value).follow? 0 path' = some id) :
    path = path' := by
  have hlink {node child : Nat} {slot : Slot}
      (hpart : (ofJson value).part? node slot = some child) :
      ⟨child, some ⟨node, slot⟩⟩ ∈ linksFrom 0 (flatten 0 value) :=
    mem_links_iff.mpr ⟨node, part?_mem_children hpart⟩
  -- The root is no part, so a path to it is empty.
  have hroot {path : List Slot} {slot : Slot}
      (hpath : (ofJson value).follow? 0 (path ++ [slot]) = some 0) : False := by
    rw [follow?_concat] at hpath
    obtain ⟨node, -, hpart⟩ := Option.bind_eq_some_iff.mp hpath
    exact Nat.lt_irrefl 0 (node_of_mem_linksFrom (hlink hpart)).1
  induction path using List.reverseRecOn generalizing path' id with
  | nil =>
    obtain rfl : 0 = id := Option.some.inj h
    cases path' using List.reverseRecOn with
    | nil => rfl
    | append_singleton path' slot => exact (hroot h').elim
  | append_singleton path slot ih =>
    cases path' using List.reverseRecOn with
    | nil =>
      obtain rfl : 0 = id := Option.some.inj h'
      exact (hroot h).elim
    | append_singleton path' slot' =>
      rw [follow?_concat] at h h'
      obtain ⟨node, hnode, hpart⟩ := Option.bind_eq_some_iff.mp h
      obtain ⟨node', hnode', hpart'⟩ := Option.bind_eq_some_iff.mp h'
      -- One handle, so one parent and one slot.
      have hsame := handle_unique (hlink hpart) (hlink hpart') rfl
      simp only [Selected.mk.injEq, Option.some.injEq, Handle.mk.injEq, true_and] at hsame
      obtain ⟨rfl, rfl⟩ := hsame
      rw [ih hnode hnode']

end Verdict.Arena
