/-
Changes of an arena.

A change through a handle touches the parent alone, and what it inserts stands
behind everything else.  So whatever stands behind the nodes that are touched is
read as before.

* `Arena.Kept`: an arena changed at some nodes only, and still well-formed.
* `Arena.Kept.toJson`: the values behind those nodes are the same.
* `Arena.Kept.insert_setNode`: a value is appended and becomes part of a node.
* `Node.redirect?_array`, `Node.erase?_array` and their like for objects: one part
  exchanged for another, or taken out.
* `Node.Hole`: a node by what stands in one of its slots.
* `Arena.replace_eq`, `Arena.remove_eq`: changes through a handle that resolves.
-/
import Verdict.Proofs.Selection.Flattening

namespace Verdict

/-! ### Slots -/

namespace Node

/-- Redirecting an element replaces the one handle at its position. -/
lemma redirect?_array (pre : List Nat) (child : Nat) (post : List Nat) (target : Nat) :
    (Node.array (pre ++ child :: post)).redirect? target (.index pre.length)
      = some (.array (pre ++ target :: post)) := by
  simp [redirect?]

/-- Erasing an element moves those behind it up. -/
lemma erase?_array (pre : List Nat) (child : Nat) (post : List Nat) :
    (Node.array (pre ++ child :: post)).erase? (.index pre.length)
      = some (.array (pre ++ post)) := by
  simp [erase?, List.eraseIdx_append_of_length_le]

/-- Redirecting a member replaces the first one of its name. -/
lemma redirectMember_append {key : String} {pre : List (String × Nat)}
    (hpre : key ∉ pre.map Prod.fst) (child : Nat) (post : List (String × Nat)) (target : Nat) :
    redirectMember key target (pre ++ (key, child) :: post)
      = some (pre ++ (key, target) :: post) := by
  induction pre with
  | nil => simp [redirectMember]
  | cons member rest ih =>
    obtain ⟨k, c⟩ := member
    rw [List.map_cons, List.mem_cons, not_or] at hpre
    rw [List.cons_append, redirectMember, if_neg (Ne.symm hpre.1), ih hpre.2]
    rfl

lemma redirect?_object {key : String} {pre : List (String × Nat)}
    (hpre : key ∉ pre.map Prod.fst) (child : Nat) (post : List (String × Nat)) (target : Nat) :
    (Node.object (pre ++ (key, child) :: post)).redirect? target (.key key)
      = some (.object (pre ++ (key, target) :: post)) := by
  rw [redirect?, redirectMember_append hpre]
  rfl

/-- Dropping a name that no member has drops nothing. -/
lemma filter_ne_key {key : String} {members : List (String × Nat)}
    (h : key ∉ members.map Prod.fst) : (members.filter fun (k, _) => k != key) = members := by
  rw [List.filter_eq_self]
  rintro ⟨k, c⟩ hmem
  have hk : k ≠ key := fun heq => h (heq ▸ List.mem_map_of_mem (f := Prod.fst) hmem)
  simpa using hk

/-- Erasing a member drops all of its name, which is one where names are distinct. -/
lemma erase?_object {key : String} {pre post : List (String × Nat)}
    (hpre : key ∉ pre.map Prod.fst) (hpost : key ∉ post.map Prod.fst) (child : Nat) :
    (Node.object (pre ++ (key, child) :: post)).erase? (.key key)
      = some (.object (pre ++ post)) := by
  simp [erase?, filter_ne_key hpre, filter_ne_key hpost]

/-- A node by what stands in one of its slots: `part c` with the node `c` there,
and `gone` without the slot. -/
structure Hole (slot : Slot) (part : Nat → Node) (gone : Node) : Prop where
  redirect? : ∀ child target, (part child).redirect? target slot = some (part target)
  erase? : ∀ child, (part child).erase? slot = some gone
  mem_parts : ∀ child c, c ∈ (part child).parts ↔ c = child ∨ c ∈ gone.parts

/-- Every position of an array is a hole. -/
lemma Hole.array (pre post : List Nat) : Hole (.index pre.length)
    (fun child => .array (pre ++ child :: post)) (.array (pre ++ post)) where
  redirect? child target := redirect?_array pre child post target
  erase? child := erase?_array pre child post
  mem_parts child c := by
    simp only [parts, List.mem_append, List.mem_cons]
    exact or_left_comm

/-- So is every name of an object, where names are distinct. -/
lemma Hole.object {key : String} {pre post : List (String × Nat)}
    (hpre : key ∉ pre.map Prod.fst) (hpost : key ∉ post.map Prod.fst) : Hole (.key key)
    (fun child => .object (pre ++ (key, child) :: post)) (.object (pre ++ post)) where
  redirect? child target := redirect?_object hpre child post target
  erase? child := erase?_object hpre hpost child
  mem_parts child c := by
    simp only [parts, List.map_append, List.map_cons, List.mem_append, List.mem_cons]
    exact or_left_comm

end Node

namespace Arena

variable {arena : Arena}

/-! ### Single nodes -/

lemma size_setNode (arena : Arena) (id : Nat) (node : Node) :
    (arena.setNode id node).nodes.size = arena.nodes.size := by
  simp [setNode]

lemma node?_setNode_self {id : Nat} (h : id < arena.nodes.size) (node : Node) :
    (arena.setNode id node).node? id = some node := by
  simp [setNode, node?, h]

/-- Writing a node leaves all other nodes as they are. -/
lemma node?_setNode_of_ne {id i : Nat} (h : i ≠ id) (node : Node) :
    (arena.setNode id node).node? i = arena.node? i := by
  simp [setNode, node?, Ne.symm h]

/-! ### Changed arenas -/

/-- The arena has changed at touched nodes only, apart from nodes that are new,
and it is well-formed. -/
structure Kept (touched : Nat → Prop) (before after : Arena) : Prop where
  grows : before.nodes.size ≤ after.nodes.size
  wellFormed : after.WellFormed
  node? : ∀ id, id < before.nodes.size → ¬ touched id → after.node? id = before.node? id

namespace Kept

variable {touched also : Nat → Prop} {before after later : Arena}

lemma refl (h : arena.WellFormed) (touched : Nat → Prop) : Kept touched arena arena :=
  ⟨Nat.le_refl _, h, fun _ _ _ => rfl⟩

/-- What is kept outside of some nodes is kept outside of more. -/
lemma mono (h : Kept touched before after)
    (htouched : ∀ id, id < before.nodes.size → touched id → also id) : Kept also before after :=
  ⟨h.grows, h.wellFormed, fun id hid hnot => h.node? id hid fun ht => hnot (htouched id hid ht)⟩

lemma trans (h : Kept touched before after) (h' : Kept touched after later) :
    Kept touched before later :=
  ⟨Nat.le_trans h.grows h'.grows, h'.wellFormed, fun id hid hnot =>
    (h'.node? id (Nat.lt_of_lt_of_le hid h.grows) hnot).trans (h.node? id hid hnot)⟩

/-- Insertion touches no node that was there. -/
lemma insert (h : arena.WellFormed) (value : Json) (touched : Nat → Prop) :
    Kept touched arena (arena.insert value).1 :=
  ⟨by rw [size_insert]; omega, insert_wellFormed h value, fun _ hid _ =>
    node?_insert_of_lt hid value⟩

/-- A node gets other parts that stand behind it. -/
lemma setNode (h : arena.WellFormed) {id : Nat} (hid : id < arena.nodes.size) {node : Node}
    (hparts : ∀ c ∈ node.parts, id < c ∧ c < arena.nodes.size) (htouched : touched id) :
    Kept touched arena (arena.setNode id node) := by
  have hsize := size_setNode arena id node
  refine ⟨Nat.le_of_eq hsize.symm, wellFormed_iff.mpr fun i old hold c hc => ?_,
    fun i _ hnot => node?_setNode_of_ne (fun heq : i = id => hnot (heq.symm ▸ htouched)) node⟩
  rw [hsize]
  by_cases hi : i = id
  · subst hi
    obtain rfl : node = old := Option.some.inj ((node?_setNode_self hid node).symm.trans hold)
    exact hparts c hc
  · rw [node?_setNode_of_ne hi] at hold
    exact wellFormed_iff.mp h i old hold c hc

/-- What stands behind all touched nodes is read as before. -/
theorem toJson (hbefore : before.WellFormed) (h : Kept touched before after) {id : Nat}
    (hid : id < before.nodes.size) (hbehind : ∀ i, touched i → i < id) :
    after.toJson id = before.toJson id := by
  induction hleft : before.nodes.size - id using Nat.strongRecOn generalizing id with
  | ind left ih =>
    obtain ⟨node, hnode⟩ : ∃ node, before.node? id = some node :=
      ⟨_, Array.getElem?_eq_getElem hid⟩
    have hsame : after.node? id = some node :=
      (h.node? id hid fun ht => Nat.lt_irrefl id (hbehind id ht)).trans hnode
    have hparts := wellFormed_iff.mp hbefore id node hnode
    have hpart : ∀ c ∈ node.parts, after.toJson c = before.toJson c := by
      intro c hc
      obtain ⟨hlt, hsize⟩ := hparts c hc
      exact ih (before.nodes.size - c) (by omega) hsize
        (fun i hi => Nat.lt_trans (hbehind i hi) hlt) rfl
    cases node with
    | scalar value => rw [toJson_scalar hsame, toJson_scalar hnode]
    | array ids =>
      rw [toJson_array h.wellFormed hsame, toJson_array hbefore hnode]
      exact congrArg Json.array (List.map_congr_left hpart)
    | object members =>
      rw [toJson_object h.wellFormed hsame, toJson_object hbefore hnode]
      refine congrArg Json.object (List.map_congr_left fun (key, c) hc => ?_)
      exact congrArg (key, ·) (hpart c (List.mem_map_of_mem (f := Prod.snd) hc))

/-- Consecutive nodes of which none is touched are still there. -/
lemma holds {start : Nat} {nodes : List Node} (h : Kept touched before after)
    (hholds : before.Holds start nodes)
    (haside : ∀ id, touched id → id < start ∨ start + nodes.length ≤ id) :
    after.Holds start nodes := by
  intro k node hk
  have hlt : k < nodes.length := (List.getElem?_eq_some_iff.mp hk).1
  have hnode := hholds k node hk
  refine (h.node? (start + k) (lt_size_of_node? hnode) fun ht => ?_).trans hnode
  have := haside (start + k) ht
  omega

end Kept

/-- A value is appended, and a node put in place that may have it as a part besides
those that were there. -/
lemma Kept.insert_setNode (hwell : arena.WellFormed) {id : Nat} {old new : Node}
    (hold : arena.node? id = some old)
    (hparts : ∀ c ∈ new.parts, c = arena.nodes.size ∨ c ∈ old.parts) (json : Json) :
    let after := (arena.insert json).1.setNode id new
    Kept (· = id) arena after ∧ after.node? id = some new ∧
      after.toJson arena.nodes.size = json := by
  have hid : id < arena.nodes.size := lt_size_of_node? hold
  have hinsert : Kept (· = id) arena (arena.insert json).1 := .insert hwell json _
  have hroom : arena.nodes.size < (arena.insert json).1.nodes.size := by
    have := flatten_length_pos arena.nodes.size json
    rw [size_insert]
    omega
  have hset : Kept (· = id) (arena.insert json).1 ((arena.insert json).1.setNode id new) := by
    refine .setNode hinsert.wellFormed (Nat.lt_trans hid hroom) (fun c hc => ?_) rfl
    rcases hparts c hc with rfl | hc
    · exact ⟨hid, hroom⟩
    · obtain ⟨hlt, hsize⟩ := wellFormed_iff.mp hwell id old hold c hc
      exact ⟨hlt, Nat.lt_trans hsize hroom⟩
  refine ⟨hinsert.trans hset, node?_setNode_self (Nat.lt_trans hid hroom) _, ?_⟩
  rw [hset.toJson hinsert.wellFormed hroom fun i hi => hi ▸ hid]
  exact toJson_of_holds hinsert.wellFormed _ json (holds_insert arena json)

/-! ### Changes through a handle -/

/-- The slot of the handle is there: the handle can be replaced and removed. -/
def Resolves (arena : Arena) (handle : Handle) : Prop :=
  (∃ removed, arena.remove handle = .ok removed) ∧
    ∀ value, ∃ id, (arena.replace handle value).2 = .ok id

section Handle

variable {old new : Node} {handle : Handle} (hold : arena.node? handle.parent = some old)
include hold

/-- Replacing inserts the new value, and then redirects the link of the handle. -/
lemma replace_eq {value : Json}
    (hnew : old.redirect? arena.nodes.size handle.slot = some new) :
    arena.replace handle value
      = ((arena.insert value).1.setNode handle.parent new, .ok arena.nodes.size) := by
  have hparent : (arena.insert value).1.node? handle.parent = some old := by
    rw [node?_insert_of_lt (lt_size_of_node? hold), hold]
  have hid : (arena.insert value).2 = arena.nodes.size := rfl
  simp only [replace, hparent, hid, Option.bind_some, hnew]

/-- Removing drops the link of the handle and leaves its node in place. -/
lemma remove_eq (hgone : old.erase? handle.slot = some new) :
    arena.remove handle = .ok (arena.setNode handle.parent new) := by
  simp only [remove, hold, Option.bind_some, hgone]

end Handle

end Arena

end Verdict
