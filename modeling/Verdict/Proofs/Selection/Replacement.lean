/-
Parts replaced through their handles.

A part of a document stands in one slot of one node only.  So with its handle pointed
at a new value, every other node has the parts that it had, and that node has them, too,
with the new value instead of the old part.  Each node then is read with what has become
of its parts.

* `Node.read`, `Node.renumber`: a node by the values or numbers of its parts.
* `Arena.redirect?_eq_renumber`: a slot is pointed elsewhere by renumbering its part.
* `Arena.became`: what has become of a node when a part was replaced.
* `Arena.became_part`, `Arena.became_eq_read`: the replacement for the part itself, and
  for any other node what has become of its parts.
-/
import Verdict.Proofs.Selection.Recursive

namespace Verdict

/-! ### Nodes by their parts -/

namespace Node

/-- The value of a node whose parts are read by a function. -/
def read (f : Nat → Json) : Node → Json
  | .scalar value => value
  | .array ids => .array (ids.map f)
  | .object members => .object (members.map fun (key, child) => (key, f child))

/-- The node with its parts renumbered. -/
def renumber (g : Nat → Nat) : Node → Node
  | .scalar value => .scalar value
  | .array ids => .array (ids.map g)
  | .object members => .object (members.map fun (key, child) => (key, g child))

/-- Renumbering the parts is reading them under their new numbers. -/
lemma read_renumber (f : Nat → Json) (g : Nat → Nat) (node : Node) :
    (node.renumber g).read f = node.read (f ∘ g) := by
  cases node <;> simp [renumber, read]

lemma parts_renumber (g : Nat → Nat) (node : Node) :
    (node.renumber g).parts = node.parts.map g := by
  cases node <;> simp [renumber, parts]

/-- A node whose parts keep their numbers stays as it is. -/
lemma renumber_eq_self {g : Nat → Nat} {node : Node} (h : ∀ c ∈ node.parts, g c = c) :
    node.renumber g = node := by
  cases node with
  | scalar value => rfl
  | array ids => exact congrArg Node.array ((List.map_congr_left h).trans (List.map_id _))
  | object members =>
    refine congrArg Node.object ((List.map_congr_left fun (key, c) hc => ?_).trans (List.map_id _))
    exact congrArg (key, ·) (h c (List.mem_map_of_mem (f := Prod.snd) hc))

/-- Redirecting a member renumbers its part, which stands under no other name. -/
lemma redirectMember_eq_map {key : String} {child target : Nat} {members : List (String × Nat)}
    (hpart : members.lookup key = some child) (hnodup : (members.map Prod.snd).Nodup) :
    redirectMember key target members
      = some (members.map fun (k, c) => (k, if c = child then target else c)) := by
  obtain ⟨pre, post, rfl, hpre⟩ := List.lookup_eq_some_iff.mp hpart
  have hkey : key ∉ pre.map Prod.fst := by
    rintro hmem
    obtain ⟨member, hmember, heq⟩ := List.mem_map.mp hmem
    exact bne_iff_ne.mp (hpre member hmember) heq.symm
  rw [List.map_append, List.map_cons, List.nodup_append, List.nodup_cons] at hnodup
  obtain ⟨-, ⟨hpost, -⟩, hapart⟩ := hnodup
  have hother {members : List (String × Nat)} (h : child ∉ members.map Prod.snd) :
      (members.map fun (k, c) => (k, if c = child then target else c)) = members := by
    refine (List.map_congr_left fun (k, c) hc => ?_).trans (List.map_id _)
    have hne : c ≠ child := fun heq => h (heq ▸ List.mem_map_of_mem (f := Prod.snd) hc)
    exact congrArg (k, ·) (if_neg hne)
  rw [redirectMember_append hkey, List.map_append, List.map_cons, hother hpost,
    hother fun hmem => hapart child hmem child List.mem_cons_self rfl]
  simp only [↓reduceIte]

/-- Redirecting an element renumbers its part, which stands at no other position. -/
lemma set_eq_map {i child target : Nat} {ids : List Nat} (hpart : ids[i]? = some child)
    (hnodup : ids.Nodup) : ids.set i target = ids.map fun c => if c = child then target else c := by
  obtain ⟨hi, rfl⟩ := List.getElem?_eq_some_iff.mp hpart
  refine List.ext_getElem (by simp) fun j hj hj' => ?_
  rw [List.getElem_set, List.getElem_map]
  simp only [List.length_set] at hj
  simp only [hnodup.getElem_inj_iff, eq_comm (a := i)]

end Node

namespace Arena

variable {arena : Arena} {value : Json}

lemma toJson_eq_read (hwell : arena.WellFormed) {id : Nat} {node : Node}
    (h : arena.node? id = some node) : arena.toJson id = node.read arena.toJson := by
  cases node with
  | scalar value => exact toJson_scalar h
  | array ids => exact toJson_array hwell h
  | object members => exact toJson_object hwell h

/-- A slot is pointed elsewhere by renumbering the part in it. -/
lemma redirect?_eq_renumber {id child target : Nat} {slot : Slot} {node : Node}
    (hnode : arena.node? id = some node) (hpart : arena.part? id slot = some child)
    (hnodup : node.parts.Nodup) : node.redirect? target slot
      = some (node.renumber fun c => if c = child then target else c) := by
  match node, slot with
  | .array ids, .index i =>
    rw [part?_array hnode] at hpart
    obtain ⟨hi, -⟩ := List.getElem?_eq_some_iff.mp hpart
    rw [Node.redirect?, if_pos hi, Node.set_eq_map hpart hnodup, Node.renumber]
  | .object members, .key key =>
    rw [part?_object hnode] at hpart
    rw [Node.redirect?, Node.redirectMember_eq_map hpart hnodup, Node.renumber]
    rfl
  | .scalar _, _ | .array _, .key _ | .object _, .index _ => simp [part?, hnode] at hpart

lemma exists_node? {id : Nat} (h : id < arena.nodes.size) : ∃ node, arena.node? id = some node :=
  ⟨_, Array.getElem?_eq_getElem h⟩

/-- A node of a document has no part twice. -/
lemma parts_nodup {id : Nat} {node : Node} (h : (ofJson value).node? id = some node) :
    node.parts.Nodup := by
  have hsubtree := (subtree_increasing value id).imp Nat.ne_of_lt
  rw [subtree_of_node? (ofJson_wellFormed value) h, List.pairwise_cons] at hsubtree
  refine (List.nodup_flatMap.mp hsubtree.2).2.imp ?_
  rintro c d hcd rfl
  exact hcd List.mem_cons_self List.mem_cons_self

/-! ### What a replacement leaves -/

/-- What has become of a node when a part was replaced through its handle: the
replacement, if it is that part. -/
def became (arena : Arena) (s : Selected) (handle : Handle) (replacement : Json) (id : Nat) :
    Json :=
  (arena.replace handle replacement).1.toJson (if id = s.node then arena.nodes.size else id)

section Became

variable {s : Selected} {handle : Handle} (hkeys : value.HasDistinctKeys)
  (hs : s ∈ (ofJson value).children handle.parent) (hhandle : s.handle = some handle)
  (replacement : Json)
include hkeys hs hhandle

/-- The part is renumbered in its parent, and the replacement has its new number. -/
lemma replace_part : ∃ node after,
    (ofJson value).node? handle.parent = some node ∧
    (ofJson value).replace handle replacement = (after, .ok (ofJson value).nodes.size) ∧
    Kept (· = handle.parent) (ofJson value) after ∧
    after.node? handle.parent
      = some (node.renumber fun c => if c = s.node then (ofJson value).nodes.size else c) ∧
    after.toJson (ofJson value).nodes.size = replacement := by
  have hwell := ofJson_wellFormed value
  obtain ⟨hlt, hsize⟩ := hwell _ s hs
  obtain ⟨node, hnode⟩ := exists_node? (Nat.lt_trans hlt hsize)
  have hpart := part?_eq_of_mem_children hkeys hs hhandle
  refine ⟨node, _, hnode, replace_eq hnode (redirect?_eq_renumber hnode hpart (parts_nodup hnode)),
    Kept.insert_setNode hwell hnode (fun c hc => ?_) replacement⟩
  rw [Node.parts_renumber] at hc
  obtain ⟨d, hd, rfl⟩ := List.mem_map.mp hc
  by_cases hsame : d = s.node
  · exact .inl (if_pos hsame)
  · exact .inr ((if_neg hsame).symm ▸ hd)

/-- At the place of the part stands the replacement. -/
lemma became_part : (ofJson value).became s handle replacement s.node = replacement := by
  obtain ⟨_, after, -, hreplace, -, -, hreads⟩ := replace_part hkeys hs hhandle replacement
  rw [became, if_pos rfl, hreplace]
  exact hreads

/-- Every other node is read as before, with what has become of its parts. -/
theorem became_eq_read {id : Nat} {node : Node} (hnode : (ofJson value).node? id = some node)
    (hne : id ≠ s.node) : (ofJson value).became s handle replacement id
      = node.read ((ofJson value).became s handle replacement) := by
  obtain ⟨parent, after, hparent, hreplace, hkept, hafter, -⟩ :=
    replace_part hkeys hs hhandle replacement
  have hnew : after.node? id
      = some (node.renumber fun c => if c = s.node then (ofJson value).nodes.size else c) := by
    by_cases hid : id = handle.parent
    · subst hid
      obtain rfl := Option.some.inj (hparent.symm.trans hnode)
      exact hafter
    · rw [hkept.node? id (lt_size_of_node? hnode) hid, hnode, Node.renumber_eq_self]
      -- The part that is replaced is in no other node.
      intro c hc
      refine if_neg fun hsame => hid ?_
      rw [← node.map_node_links id] at hc
      obtain ⟨t, ht, rfl⟩ := List.mem_map.mp hc
      rw [← children_of_node? hnode] at ht
      exact parent_unique ht hs hsame
  rw [became, if_neg hne, hreplace, toJson_eq_read hkept.wellFormed hnew, Node.read_renumber]
  refine congrArg (Node.read · node) (funext fun c => ?_)
  rw [became, hreplace]
  rfl

end Became

end Arena

end Verdict
