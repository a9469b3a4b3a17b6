/-
Arenas are forests.

Whatever is inserted into an arena, and whatever is replaced or removed through handles,
old ones and failing ones included, no node ever becomes a part of two others: a value is
appended behind all nodes, and then one slot at most is pointed at its first node, which
was in no slot before.  So an arena stays a forest in which parts stand behind the nodes
that they are in, and whoever goes from node to part comes to an end and meets no node
twice.

* `Node.Gap`: a node by what stands in one of its slots, and without the slot.
* `Arena.change_cases`: what a change through a handle does.
* `Arena.links`, `Arena.Forest`: all parts of all nodes, and that none of them is there twice.
* `Arena.Change`, `Arena.changed`, `Arena.Built`: the changes, and what they lead to.
* `Arena.Forest.changed`, `Arena.Built.forest`: one change, and all of them.
* `Arena.Forest.eq_of_reachable`: the subtrees of two parts of a node have nothing in common.
* `Arena.Rebuilds`, `Arena.Lists`: going from node to part without a guard.
* `Arena.representation_of_built`: what holds of every arena that is built by changes.
-/
import Verdict.Proofs.Selection.Congruence
import Verdict.Proofs.Selection.Ordering
import Verdict.Proofs.Selection.Replacement

namespace Verdict

/-! ### Slots of a node -/

namespace Node

/-- The names of the members. -/
def keys : Node → List String
  | .object members => members.map Prod.fst
  | _ => []

/-- A node by what stands in one of its slots: `part c` with the node `c` there, and `gone`
without the slot. -/
inductive Gap : Slot → (Nat → Node) → Node → Prop
  | array (pre post : List Nat) :
      Gap (.index pre.length) (fun c => .array (pre ++ c :: post)) (.array (pre ++ post))
  | object {key : String} {pre post : List (String × Nat)} (hpre : key ∉ pre.map Prod.fst)
      (hpost : key ∉ post.map Prod.fst) :
      Gap (.key key) (fun c => .object (pre ++ (key, c) :: post)) (.object (pre ++ post))

variable {slot : Slot} {part : Nat → Node} {gone : Node}

lemma Gap.hole (h : Gap slot part gone) : Hole slot part gone := by
  cases h with
  | array pre post => exact .array pre post
  | object hpre hpost => exact .object hpre hpost

lemma Gap.exists_parts (h : Gap slot part gone) :
    ∃ pre post, (∀ c, (part c).parts = pre ++ c :: post) ∧ gone.parts = pre ++ post := by
  cases h with
  | array pre post => exact ⟨pre, post, fun _ => rfl, rfl⟩
  | object _ _ => exact ⟨_, _, fun _ => List.map_append, List.map_append⟩

lemma Gap.keys (h : Gap slot part gone) (c d : Nat) :
    (part c).keys = (part d).keys ∧ gone.keys.Sublist (part c).keys := by
  cases h with
  | array pre post => exact ⟨rfl, List.Sublist.refl _⟩
  | object _ _ =>
    rw [Node.keys, Node.keys, Node.keys, List.map_append, List.map_append, List.map_append]
    exact ⟨rfl, (List.sublist_cons_self _ _).append_left _⟩

lemma read_congr {f g : Nat → Json} {node : Node} (h : ∀ c ∈ node.parts, f c = g c) :
    node.read f = node.read g := by
  cases node with
  | scalar value => rfl
  | array ids => exact congrArg Json.array (List.map_congr_left h)
  | object members =>
    refine congrArg Json.object (List.map_congr_left fun (key, c) hc => ?_)
    exact congrArg (key, ·) (h c (List.mem_map_of_mem (f := Prod.snd) hc))

lemma redirectMember_eq_none {key : String} {members : List (String × Nat)}
    (h : members.lookup key = none) (target : Nat) : redirectMember key target members = none := by
  induction members with
  | nil => rfl
  | cons member rest ih =>
    obtain ⟨k, c⟩ := member
    rw [List.lookup_cons] at h
    cases hk : key == k with
    | true => simp [hk] at h
    | false =>
      rw [hk] at h
      rw [redirectMember, if_neg fun heq => by simp [heq] at hk, ih h, Option.map_none]

end Node

namespace Arena

variable {arena : Arena}

/-- A slot that holds a part is a gap of its node. -/
lemma exists_gap {id child : Nat} {node : Node} {slot : Slot} (hnode : arena.node? id = some node)
    (hkeys : node.keys.Nodup) (hpart : arena.part? id slot = some child) :
    ∃ part gone, Node.Gap slot part gone ∧ node = part child := by
  match node, slot with
  | .array ids, .index i =>
    rw [part?_array hnode] at hpart
    obtain ⟨hi, rfl⟩ := List.getElem?_eq_some_iff.mp hpart
    have hlength : (ids.take i).length = i := List.length_take_of_le (Nat.le_of_lt hi)
    have hgap := Node.Gap.array (ids.take i) (ids.drop (i + 1))
    rw [hlength] at hgap
    refine ⟨_, _, hgap, congrArg Node.array ?_⟩
    rw [← List.drop_eq_getElem_cons hi, List.take_append_drop]
  | .object members, .key key =>
    rw [part?_object hnode] at hpart
    obtain ⟨pre, post, rfl, hpre⟩ := List.lookup_eq_some_iff.mp hpart
    rw [Node.keys, List.map_append, List.map_cons, List.nodup_append, List.nodup_cons] at hkeys
    exact ⟨_, _, .object (fun hmem => hkeys.2.2 key hmem key List.mem_cons_self rfl)
      hkeys.2.1.1, rfl⟩
  | .scalar _, _ | .array _, .key _ | .object _, .index _ => simp [part?, hnode] at hpart

lemma redirect?_eq_none {id : Nat} {node : Node} {slot : Slot} (hnode : arena.node? id = some node)
    (hpart : arena.part? id slot = none) (target : Nat) : node.redirect? target slot = none := by
  match node, slot with
  | .array ids, .index i =>
    rw [part?_array hnode, List.getElem?_eq_none_iff] at hpart
    exact if_neg (Nat.not_lt.mpr hpart)
  | .object members, .key key =>
    rw [part?_object hnode] at hpart
    rw [Node.redirect?, Node.redirectMember_eq_none hpart, Option.map_none]
  | .scalar _, _ | .array _, .key _ | .object _, .index _ => rfl

lemma erase?_eq_none {id : Nat} {node : Node} {slot : Slot} (hnode : arena.node? id = some node)
    (hpart : arena.part? id slot = none) : node.erase? slot = none := by
  match node, slot with
  | .array ids, .index i =>
    rw [part?_array hnode, List.getElem?_eq_none_iff] at hpart
    exact if_neg (Nat.not_lt.mpr hpart)
  | .object members, .key key =>
    rw [part?_object hnode, List.lookup_eq_none_iff] at hpart
    refine if_neg fun hany => ?_
    obtain ⟨⟨k, c⟩, hmem, hk⟩ := List.any_eq_true.mp hany
    have hne := hpart _ hmem
    simp_all
  | .scalar _, _ | .array _, .key _ | .object _, .index _ => rfl

/-- A change through a handle finds its slot and points it elsewhere or takes it out, or it fails
and leaves all nodes as they are. -/
theorem change_cases {handle : Handle} (hparent : handle.parent < arena.nodes.size)
    (hkeys : ∀ id node, arena.node? id = some node → node.keys.Nodup) :
    (∃ child part gone, arena.part? handle.parent handle.slot = some child ∧
      Node.Gap handle.slot part gone ∧ arena.node? handle.parent = some (part child) ∧
      (∀ value, arena.replace handle value
        = (arena.exchange handle.parent part gone (some value), .ok arena.nodes.size)) ∧
      arena.remove handle = .ok (arena.exchange handle.parent part gone none)) ∨
    (arena.part? handle.parent handle.slot = none ∧
      (∀ value, arena.replace handle value = ((arena.insert value).1, .error handle.stale)) ∧
      arena.remove handle = .error handle.stale) := by
  obtain ⟨node, hnode⟩ := exists_node? hparent
  cases hpart : arena.part? handle.parent handle.slot with
  | some child =>
    obtain ⟨part, gone, hgap, rfl⟩ := exists_gap hnode (hkeys _ _ hnode) hpart
    exact .inl ⟨child, part, gone, rfl, hgap, hnode,
      fun value => replace_eq hnode (hgap.hole.redirect? child _),
      remove_eq hnode (hgap.hole.erase? child)⟩
  | none =>
    refine .inr ⟨rfl, fun value => ?_, ?_⟩
    · have hsame : (arena.insert value).1.node? handle.parent = some node := by
        rw [node?_insert_of_lt hparent, hnode]
      have hid : (arena.insert value).2 = arena.nodes.size := rfl
      simp only [replace, hsame, hid, Option.bind_some, redirect?_eq_none hnode hpart]
    · simp only [remove, hnode, Option.bind_some, erase?_eq_none hnode hpart]

/-! ### Forests -/

/-- All parts of all nodes, with their handles. -/
def links (arena : Arena) : List Selected := linksFrom 0 arena.nodes.toList

lemma mem_links {x : Selected} : x ∈ arena.links ↔ ∃ id, x ∈ arena.children id := by
  rw [links, mem_linksFrom]
  constructor
  · rintro ⟨id, node, hnode, hx⟩
    rw [Array.getElem?_toList] at hnode
    exact ⟨id, by rwa [children_of_node? hnode, ← Nat.zero_add id]⟩
  · rintro ⟨id, hx⟩
    cases hnode : arena.node? id with
    | none => simp [children_of_none hnode] at hx
    | some node =>
      rw [children_of_node? hnode] at hx
      exact ⟨id, node, by rwa [Array.getElem?_toList], by rwa [Nat.zero_add]⟩

lemma links_insert (arena : Arena) (value : Json) : (arena.insert value).1.links
    = arena.links ++ linksFrom arena.nodes.size (flatten arena.nodes.size value) := by
  simp [links, insert, linksFrom_append]

/-- Only the parts of the node change that is put in the place of another one. -/
lemma links_setNode {id : Nat} {old : Node} (hold : arena.node? id = some old) (new : Node) :
    ∃ before after, arena.links = before ++ old.links id ++ after ∧
      (arena.setNode id new).links = before ++ new.links id ++ after := by
  rw [node?, ← Array.getElem?_toList] at hold
  obtain ⟨hid, hold⟩ := List.getElem?_eq_some_iff.mp hold
  have hlength : (arena.nodes.toList.take id).length = id :=
    List.length_take_of_le (Nat.le_of_lt hid)
  refine ⟨linksFrom 0 (arena.nodes.toList.take id),
    linksFrom (id + 1) (arena.nodes.toList.drop (id + 1)), ?_, ?_⟩
  · conv_lhs => rw [links, ← List.take_append_drop id arena.nodes.toList,
      List.drop_eq_getElem_cons hid, hold, linksFrom_append, linksFrom, hlength, Nat.zero_add]
    exact (List.append_assoc _ _ _).symm
  · rw [links, setNode, Array.toList_setIfInBounds, List.set_eq_take_append_cons_drop, if_pos hid,
      linksFrom_append, linksFrom, hlength, Nat.zero_add, List.append_assoc]

/-- The parts of every node are allocated and stand behind it, no node is a part twice, and no
object has two members of one name. -/
structure Forest (arena : Arena) : Prop where
  wellFormed : arena.WellFormed
  links : (arena.links.map Selected.node).Nodup
  keys : ∀ id node, arena.node? id = some node → node.keys.Nodup

lemma forest_empty : Forest ⟨#[]⟩ where
  wellFormed := wellFormed_iff.mpr fun id node hnode => by simp [node?] at hnode
  links := List.nodup_nil
  keys id node hnode := by simp [node?] at hnode

mutual

/-- A value in which no object has a name twice has no such node. -/
theorem nodup_keys_of_mem_flatten (start : Nat) : (value : Json) → value.HasDistinctKeys →
    ∀ node ∈ flatten start value, node.keys.Nodup
  | .array items, hkeys => by
    rw [flatten, List.forall_mem_cons]
    exact ⟨List.nodup_nil, nodup_keys_of_mem_items (start + 1) items hkeys⟩
  | .object members, hkeys => by
    rw [flatten, List.forall_mem_cons, Node.keys, map_fst_flattenMembers]
    exact ⟨hkeys.1, nodup_keys_of_mem_members (start + 1) members hkeys.2⟩
  | .null, _ | .bool _, _ | .number _, _ | .string _, _ => by simp [flatten, Node.keys]

theorem nodup_keys_of_mem_items (start : Nat) : (items : List Json) → Json.ItemsDistinct items →
    ∀ node ∈ (flattenItems start items).2, node.keys.Nodup
  | [], _ => by simp [flattenItems]
  | item :: rest, hkeys => by
    rw [flattenItems_cons, List.forall_mem_append]
    exact ⟨nodup_keys_of_mem_flatten start item hkeys.1, nodup_keys_of_mem_items _ rest hkeys.2⟩

theorem nodup_keys_of_mem_members (start : Nat) : (members : List (String × Json)) →
    Json.MembersDistinct members → ∀ node ∈ (flattenMembers start members).2, node.keys.Nodup
  | [], _ => by simp [flattenMembers]
  | (_, value) :: rest, hkeys => by
    rw [flattenMembers_cons, List.forall_mem_append]
    exact ⟨nodup_keys_of_mem_flatten start value hkeys.1,
      nodup_keys_of_mem_members _ rest hkeys.2⟩

end

namespace Forest

/-- An inserted value is a tree of its own. -/
theorem insert (h : arena.Forest) {value : Json} (hkeys : value.HasDistinctKeys) :
    (arena.insert value).1.Forest where
  wellFormed := insert_wellFormed h.wellFormed value
  links := by
    rw [links_insert, List.map_append, List.nodup_append]
    refine ⟨h.links, (List.nodup_cons.mp
      ((flatten_perm _ value).nodup_iff.mpr List.nodup_range')).2, fun c hc d hd => ?_⟩
    obtain ⟨x, hx, rfl⟩ := List.mem_map.mp hc
    obtain ⟨y, hy, rfl⟩ := List.mem_map.mp hd
    obtain ⟨id, hx⟩ := mem_links.mp hx
    have hold := (h.wellFormed id x hx).2
    have hnew := (node_of_mem_linksFrom hy).1
    omega
  keys id node hnode := by
    by_cases hid : id < arena.nodes.size
    · exact h.keys id node (node?_insert_of_lt hid value ▸ hnode)
    · obtain ⟨k, rfl⟩ := Nat.exists_eq_add_of_le (Nat.le_of_not_lt hid)
      rw [node?_insert_add] at hnode
      exact nodup_keys_of_mem_flatten _ value hkeys node (List.mem_of_getElem? hnode)

lemma nodup_exchange {before old new after : List Nat} (h : (before ++ old ++ after).Nodup)
    (hnew : new.Nodup) (hfresh : ∀ c ∈ new, c ∈ old ∨ c ∉ before ++ old ++ after) :
    (before ++ new ++ after).Nodup := by
  have hperm (middle : List Nat) :
      (before ++ middle ++ after).Perm (middle ++ (before ++ after)) := by
    rw [← List.append_assoc]
    exact List.perm_append_comm.append_right after
  rw [(hperm _).nodup_iff, List.nodup_append] at h ⊢
  refine ⟨hnew, h.2.1, fun c hc d hd heq => ?_⟩
  subst heq
  rcases hfresh c hc with hold | hnot
  · exact h.2.2 c hold c hd rfl
  · exact hnot ((hperm old).mem_iff.mpr (List.mem_append_right _ hd))

/-- A node may get parts that no node had before. -/
lemma setNode (h : arena.Forest) {id : Nat} {old new : Node} (hold : arena.node? id = some old)
    (hparts : ∀ c ∈ new.parts, c ∈ old.parts ∨
      (id < c ∧ c < arena.nodes.size) ∧ c ∉ arena.links.map Selected.node)
    (hnodup : new.parts.Nodup) (hkeys : new.keys.Nodup) : (arena.setNode id new).Forest where
  wellFormed := by
    have hkept : Kept (· = id) arena (arena.setNode id new) :=
      .setNode h.wellFormed (lt_size_of_node? hold) (fun c hc => (hparts c hc).elim
        (wellFormed_iff.mp h.wellFormed id old hold c) And.left) rfl
    exact hkept.wellFormed
  links := by
    obtain ⟨before, after, hlinks, hset⟩ := links_setNode hold new
    have hfresh (c : Nat) (hc : c ∈ new.parts) : c ∈ old.parts ∨
        c ∉ before.map Selected.node ++ old.parts ++ after.map Selected.node := by
      refine (hparts c hc).imp_right fun hnew => ?_
      rw [← old.map_node_links id, ← List.map_append, ← List.map_append, ← hlinks]
      exact hnew.2
    have hnodup' := h.links
    rw [hlinks, List.map_append, List.map_append, Node.map_node_links] at hnodup'
    rw [hset, List.map_append, List.map_append, Node.map_node_links]
    exact nodup_exchange hnodup' hnodup hfresh
  keys i node hnode := by
    by_cases hi : i = id
    · subst hi
      rw [node?_setNode_self (lt_size_of_node? hold)] at hnode
      exact Option.some.inj hnode ▸ hkeys
    · exact h.keys i node (node?_setNode_of_ne hi new ▸ hnode)

/-- The first node of an inserted value is not a part yet. -/
lemma not_mem_links_insert (h : arena.Forest) (value : Json) :
    arena.nodes.size ∉ (arena.insert value).1.links.map Selected.node := by
  rw [links_insert, List.map_append, List.mem_append]
  rintro (hmem | hmem)
  · obtain ⟨x, hx, heq⟩ := List.mem_map.mp hmem
    obtain ⟨id, hx⟩ := mem_links.mp hx
    exact absurd (h.wellFormed id x hx).2 (by omega)
  · obtain ⟨x, hx, heq⟩ := List.mem_map.mp hmem
    exact absurd (node_of_mem_linksFrom hx).1 (by omega)

/-- A node has no part twice. -/
lemma parts_nodup (h : arena.Forest) {id : Nat} {node : Node} (hnode : arena.node? id = some node) :
    node.parts.Nodup := by
  obtain ⟨before, after, hlinks, -⟩ := links_setNode hnode node
  have hnodup := h.links
  rw [hlinks, List.map_append, List.map_append, Node.map_node_links] at hnodup
  exact (List.nodup_append.mp (List.nodup_append.mp hnodup).1).2.1

section Exchange

variable {slot : Slot} {part : Nat → Node} {gone : Node} {parent child : Nat}

/-- A slot is pointed at an inserted value. -/
lemma replaced (h : arena.Forest) (hgap : Node.Gap slot part gone)
    (hnode : arena.node? parent = some (part child)) {value : Json}
    (hkeys : value.HasDistinctKeys) : (arena.exchange parent part gone (some value)).Forest := by
  obtain ⟨pre, post, hparts, -⟩ := hgap.exists_parts
  have hparent : parent < arena.nodes.size := lt_size_of_node? hnode
  have hold : (arena.insert value).1.node? parent = some (part child) := by
    rw [node?_insert_of_lt hparent, hnode]
  have hroom : arena.nodes.size < (arena.insert value).1.nodes.size := by
    have := flatten_length_pos arena.nodes.size value
    rw [size_insert]
    omega
  have hnodup := h.parts_nodup hnode
  have hfresh : arena.nodes.size ∉ (part child).parts := fun hmem =>
    Nat.lt_irrefl _ (wellFormed_iff.mp h.wellFormed _ _ hnode _ hmem).2
  refine (h.insert hkeys).setNode hold (fun c hc => ?_) ?_ ?_
  · rw [hparts] at hc ⊢
    by_cases hnew : c = arena.nodes.size
    · exact .inr (hnew ▸ ⟨⟨hparent, hroom⟩, h.not_mem_links_insert value⟩)
    · grind
  · rw [hparts] at hnodup hfresh ⊢
    grind
  · exact (hgap.keys _ child).1 ▸ h.keys _ _ hnode

/-- A slot is taken out. -/
lemma removed (h : arena.Forest) (hgap : Node.Gap slot part gone)
    (hnode : arena.node? parent = some (part child)) :
    (arena.exchange parent part gone none).Forest := by
  obtain ⟨pre, post, hparts, hrest⟩ := hgap.exists_parts
  have hsub : gone.parts.Sublist (part child).parts := by
    rw [hparts, hrest]
    exact (List.sublist_cons_self _ _).append_left _
  exact h.setNode hnode (fun c hc => .inl (hsub.subset hc)) ((h.parts_nodup hnode).sublist hsub)
    ((h.keys _ _ hnode).sublist (hgap.keys child child).2)

end Exchange

end Forest

/-! ### Changes -/

/-- What can be done to an arena. -/
inductive Change where
  | insert (value : Json)
  | replace (handle : Handle) (value : Json)
  | remove (handle : Handle)

/-- The parent of the handle is allocated, and values name no member twice. -/
def Change.Allowed (arena : Arena) : Change → Prop
  | .insert value => value.HasDistinctKeys
  | .replace handle value => handle.parent < arena.nodes.size ∧ value.HasDistinctKeys
  | .remove handle => handle.parent < arena.nodes.size

/-- The arena behind a change, which may have failed. -/
def changed (arena : Arena) : Change → Arena
  | .insert value => (arena.insert value).1
  | .replace handle value => (arena.replace handle value).1
  | .remove handle => (arena.remove handle).toOption.getD arena

/-- The arena of a document behind any number of changes. -/
inductive Built : Arena → Prop
  | ofJson {value : Json} (hkeys : value.HasDistinctKeys) : Built (ofJson value)
  | changed {arena : Arena} (h : Built arena) {change : Change} (hallowed : change.Allowed arena) :
      Built (arena.changed change)

/-- No change makes a node a part twice. -/
theorem Forest.changed (h : arena.Forest) {change : Change} (hallowed : change.Allowed arena) :
    (arena.changed change).Forest := by
  cases change with
  | insert value => exact h.insert hallowed
  | replace handle value =>
    obtain ⟨hparent, hkeys⟩ := hallowed
    rw [Arena.changed]
    rcases change_cases hparent h.keys with
      ⟨child, part, gone, -, hgap, hnode, hreplace, -⟩ | ⟨-, hreplace, -⟩ <;> rw [hreplace]
    · exact h.replaced hgap hnode hkeys
    · exact h.insert hkeys
  | remove handle =>
    rw [Arena.changed]
    rcases change_cases hallowed h.keys with
      ⟨child, part, gone, -, hgap, hnode, -, hremove⟩ | ⟨-, -, hremove⟩ <;> rw [hremove]
    · exact h.removed hgap hnode
    · exact h

/-- Every arena that is built by changes is a forest. -/
theorem Built.forest (h : arena.Built) : arena.Forest := by
  induction h with
  | ofJson hkeys => exact forest_empty.insert hkeys
  | changed _ hallowed ih => exact ih.changed hallowed

/-! ### From node to part -/

/-- What holds of a node if it holds of its parts, holds of all nodes. -/
lemma WellFormed.induction (hwell : arena.WellFormed) {motive : Nat → Prop}
    (hnode : ∀ id node, arena.node? id = some node → (∀ c ∈ node.parts, motive c) → motive id)
    {id : Nat} (hid : id < arena.nodes.size) : motive id := by
  induction hleft : arena.nodes.size - id using Nat.strongRecOn generalizing id with
  | ind left ih =>
    obtain ⟨node, hsome⟩ := exists_node? hid
    refine hnode id node hsome fun c hc => ?_
    obtain ⟨hlt, hsize⟩ := wellFormed_iff.mp hwell id node hsome c hc
    exact ih (arena.nodes.size - c) (by omega) hsize rfl

lemma exists_child {id c : Nat} {node : Node} (hnode : arena.node? id = some node)
    (hc : c ∈ node.parts) : ∃ s ∈ arena.children id, s.node = c := by
  rw [children_of_node? hnode]
  rw [← node.map_node_links id] at hc
  exact List.mem_map.mp hc

namespace Forest

/-- A node stands in one slot only. -/
lemma link_unique (h : arena.Forest) {x y : Selected} {id id' : Nat} (hx : x ∈ arena.children id)
    (hy : y ∈ arena.children id') (heq : x.node = y.node) : x = y :=
  List.inj_on_of_nodup_map h.links (mem_links.mpr ⟨id, hx⟩) (mem_links.mpr ⟨id', hy⟩) heq

lemma parent_unique (h : arena.Forest) {x y : Selected} {id id' : Nat}
    (hx : x ∈ arena.children id) (hy : y ∈ arena.children id') (heq : x.node = y.node) :
    id = id' := by
  obtain rfl := h.link_unique hx hy heq
  obtain ⟨slot, hslot, -⟩ := resolves_of_mem_children hx
  obtain ⟨slot', hslot', -⟩ := resolves_of_mem_children hy
  rw [hslot, Option.some.injEq, Handle.mk.injEq] at hslot'
  exact hslot'.1

/-- Of two nodes above a third one, one is above the other. -/
lemma reachable_or (h : arena.Forest) {a b id : Nat} (ha : arena.Reachable a id)
    (hb : arena.Reachable b id) : arena.Reachable a b ∨ arena.Reachable b a := by
  induction ha with
  | root => exact .inr hb
  | part hparent hs ih =>
    rcases hb.inv with heq | ⟨parent, t, hparent', ht, hnode⟩
    · exact .inl (heq ▸ hparent.part hs)
    · obtain rfl := h.parent_unique ht hs hnode
      exact ih hparent'

/-- The subtrees of two parts of a node have nothing in common. -/
theorem eq_of_reachable (h : arena.Forest) {id below : Nat} {c d : Selected}
    (hc : c ∈ arena.children id) (hd : d ∈ arena.children id)
    (hcbelow : arena.Reachable c.node below) (hdbelow : arena.Reachable d.node below) : c = d := by
  -- A part is not below another one, since their node stands before both.
  have haside {c d : Selected} (hc : c ∈ arena.children id) (hd : d ∈ arena.children id)
      (hcd : arena.Reachable c.node d.node) : d = c := by
    rcases hcd.inv with heq | ⟨parent, t, hparent, ht, hnode⟩
    · exact h.link_unique hd hc heq
    · obtain rfl := h.parent_unique ht hd hnode
      have hbefore := (h.wellFormed _ c hc).1
      have hafter := hparent.le h.wellFormed
      omega
  rcases h.reachable_or hcbelow hdbelow with hcd | hdc
  · exact (haside hc hd hcd).symm
  · exact haside hd hc hdc

/-- Nothing is listed twice in a subtree. -/
theorem nodup_subtree (h : arena.Forest) (id : Nat) : (arena.subtree id).Nodup := by
  induction id using descendants.induct arena with
  | case1 id ih =>
    cases hnode : arena.node? id with
    | none =>
      rw [subtree, descendants_eq h.wellFormed, children_of_none hnode]
      exact List.nodup_singleton id
    | some node =>
      rw [subtree_of_node? h.wellFormed hnode, List.nodup_cons, List.nodup_flatMap]
      refine ⟨fun hmem => ?_, fun c hc => ?_, ?_⟩
      · obtain ⟨c, hc, hid⟩ := List.mem_flatMap.mp hmem
        have hbehind := (wellFormed_iff.mp h.wellFormed id node hnode c hc).1
        have hbelow := ((mem_subtree h.wellFormed).mp hid).le h.wellFormed
        omega
      · obtain ⟨s, hs, rfl⟩ := exists_child hnode hc
        exact ih s (h.wellFormed id s hs)
      · refine (h.parts_nodup hnode).pairwise_of_forall_ne fun c hc d hd hne => ?_
        obtain ⟨s, hs, rfl⟩ := exists_child hnode hc
        obtain ⟨t, ht, rfl⟩ := exists_child hnode hd
        intro below hsbelow htbelow
        rw [mem_subtree h.wellFormed] at hsbelow htbelow
        exact hne (congrArg Selected.node (h.eq_of_reachable hs ht hsbelow htbelow))

end Forest

/-- The value of a node is made of the values of all its parts, and this comes to an end. -/
inductive Rebuilds (arena : Arena) : Nat → Json → Prop
  | node {id : Nat} {node : Node} (value : Nat → Json) (hnode : arena.node? id = some node)
      (hparts : ∀ c ∈ node.parts, arena.Rebuilds c (value c)) :
      arena.Rebuilds id (node.read value)

/-- All that is below a node are its parts, each with all that is below it, and this comes to an
end. -/
inductive Lists (arena : Arena) : Nat → List Selected → Prop
  | node {id : Nat} (below : Nat → List Selected) (hid : id < arena.nodes.size)
      (hparts : ∀ s ∈ arena.children id, arena.Lists s.node (below s.node)) :
      arena.Lists id ((arena.children id).flatMap fun s => s :: below s.node)

/-- The only way to the value of a node is the one that the guard of `toJson` leaves open. -/
theorem rebuilds_iff (hwell : arena.WellFormed) {id : Nat} (hid : id < arena.nodes.size)
    {json : Json} : arena.Rebuilds id json ↔ json = arena.toJson id := by
  constructor
  · intro h
    clear hid
    induction h with
    | node value hnode _ ih =>
      rw [toJson_eq_read hwell hnode]
      exact Node.read_congr ih
  · rintro rfl
    refine hwell.induction (motive := fun id => arena.Rebuilds id (arena.toJson id))
      (fun id node hnode ih => ?_) hid
    rw [toJson_eq_read hwell hnode]
    exact .node arena.toJson hnode ih

/-- The same holds of `descendants`. -/
theorem lists_iff (hwell : arena.WellFormed) {id : Nat} (hid : id < arena.nodes.size)
    {below : List Selected} : arena.Lists id below ↔ below = arena.descendants id := by
  constructor
  · intro h
    clear hid
    induction h with
    | node below _ _ ih =>
      rw [descendants_eq hwell]
      exact List.flatMap_congr fun s hs => congrArg (s :: ·) (ih s hs)
  · rintro rfl
    refine hwell.induction (motive := fun id => arena.Lists id (arena.descendants id))
      (fun id node hnode ih => ?_) hid
    rw [descendants_eq hwell]
    refine .node arena.descendants (lt_size_of_node? hnode) fun s hs => ih s.node ?_
    rw [children_of_node? hnode] at hs
    exact node.map_node_links id ▸ List.mem_map_of_mem hs

/-! ### Everything together -/

/-- Every arena that is built by changes is a forest in which parts stand behind their nodes: all
parts are allocated and later, no node is a part twice, and no object has two members of one name.
So `toJson`, `descendants` and `subtree` come to an end at every node, and no node is listed twice.
An inserted value gets a number that is new, it is read as it was, its subtree is a run of new
numbers in document order, and all that was there is read as before. -/
theorem representation_of_built (h : arena.Built) :
    (∀ id, ∀ x ∈ arena.children id, id < x.node ∧ x.node < arena.nodes.size) ∧
    (arena.links.map Selected.node).Nodup ∧
    (∀ id node, arena.node? id = some node → node.keys.Nodup) ∧
    (∀ id < arena.nodes.size,
      (∀ json, arena.Rebuilds id json ↔ json = arena.toJson id) ∧
      (∀ below, arena.Lists id below ↔ below = arena.descendants id) ∧
      arena.subtree id = id :: (arena.descendants id).map Selected.node ∧
      (arena.subtree id).Nodup) ∧
    ∀ value : Json, ∃ after, arena.insert value = (after, arena.nodes.size) ∧
      after.toJson arena.nodes.size = value ∧
      after.subtree arena.nodes.size
        = List.range' arena.nodes.size (after.nodes.size - arena.nodes.size) ∧
      (after.subtree arena.nodes.size).map after.toJson = value.within ∧
      ∀ id < arena.nodes.size, after.toJson id = arena.toJson id := by
  have hforest := h.forest
  have hwell := hforest.wellFormed
  refine ⟨hwell, hforest.links, hforest.keys, fun id hid => ⟨fun json => rebuilds_iff hwell hid,
    fun below => lists_iff hwell hid, rfl, hforest.nodup_subtree id⟩, fun value => ?_⟩
  have hkept : Kept (fun _ => False) arena (arena.insert value).1 := .insert hwell value _
  have hholds := holds_insert arena value
  refine ⟨(arena.insert value).1, rfl, toJson_of_holds hkept.wellFormed _ value hholds, ?_,
    map_subtree_of_holds hkept.wellFormed _ value hholds,
    fun id hid => hkept.toJson hwell hid fun _ => False.elim⟩
  rw [subtree_of_holds hkept.wellFormed _ value hholds, size_insert, Nat.add_sub_cancel_left]

/-- A part is replaced, one is removed from the part that was detached, and the old handle is
used again. -/
theorem representation_of_built_detached :
    let arena := (((ofJson (.array [.array [.null, .null], .null])).changed
      (.replace ⟨0, .index 0⟩ (.object [("a", .null)]))).changed (.remove ⟨1, .index 1⟩)).changed
        (.replace ⟨1, .index 1⟩ .null)
    arena.Built ∧ (arena.links.map Selected.node).Nodup ∧ (arena.subtree 0).Nodup ∧
      ∀ json, arena.Rebuilds 0 json ↔ json = arena.toJson 0 := by
  intro arena
  have hdocument : (ofJson (.array [.array [.null, .null], .null])).Built :=
    .ofJson (by simp [Json.HasDistinctKeys, Json.ItemsDistinct])
  have hreplaced : ((ofJson (.array [.array [.null, .null], .null])).changed
      (.replace ⟨0, .index 0⟩ (.object [("a", .null)]))).Built := by
    refine hdocument.changed (And.intro (by decide) ?_)
    simp [Json.HasDistinctKeys, Json.MembersDistinct]
  have hbuilt : arena.Built := by
    refine .changed (.changed hreplaced ?_) (And.intro ?_ trivial)
    · change 1 < Array.size _
      decide
    · decide
  obtain ⟨-, hlinks, -, hreads, -⟩ := representation_of_built hbuilt
  obtain ⟨hrebuilds, -, -, hsubtree⟩ := hreads 0 (by decide)
  exact ⟨hbuilt, hlinks, hsubtree, hrebuilds⟩

end Arena

end Verdict
