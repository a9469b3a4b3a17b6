/-
Slots as lenses on the document.

The parent of a handle stands at one position of the document or at none.  So a change
through the handle shows in the document at the position of its slot and nowhere else,
however deep it lies, and it does not show at all if the parent has been cut off.

* `Json.child?`, `Json.at?`: what stands in a slot, and at the end of a path.
* `Json.changePart`, `Json.changeAt`: a value with another one in a slot, or without it, and the
  same at the end of a path.
* `Json.at?_changeAt`, `Json.at?_changeAt_of_apart`: the position has the new value, and
  other positions keep theirs.
* `Node.Gap.read_part`, `Node.Gap.read_gone`: a node is read with another part, or without it.
* `Arena.Forest.exists_path_iff`, `Arena.Forest.path_unique`: what is reached has one path.
* `Arena.Kept.toJson_aside`, `Arena.Forest.toJson_along`: a change at one node, read from others.
* `Arena.lenses_of_built`: replacing and removing in any arena that is built by changes.
-/
import Verdict.Proofs.Selection.Forest

namespace Verdict

/-! ### Positions in a value -/

namespace Json

/-- What stands in a slot. -/
def child? : Json → Slot → Option Json
  | .array items, .index i => items[i]?
  | .object members, .key key => members.lookup key
  | _, _ => none

/-- What stands at the end of a path. -/
def at? (value : Json) : List Slot → Option Json
  | [] => some value
  | slot :: rest => (value.child? slot).bind (at? · rest)

/-- The value with what stands in a slot changed. -/
def changePart (f : Json → Json) : Json → Slot → Json
  | .array items, .index i => .array (items.modify i f)
  | .object members, .key key => .object (members.map fun (k, v) => (k, if k = key then f v else v))
  | value, _ => value

/-- The value with what stands at the end of a path changed. -/
def changeAt (f : Json → Json) : List Slot → Json → Json
  | [], value => f value
  | slot :: rest, value => value.changePart (changeAt f rest) slot

/-- The value with another one at the end of a path. -/
def setAt (value : Json) (path : List Slot) (new : Json) : Json :=
  value.changeAt (fun _ => new) path

/-- The value without a slot: later elements move up, and other members stay in their order. -/
def erasePart : Json → Slot → Json
  | .array items, .index i => .array (items.eraseIdx i)
  | .object members, .key key => .object (members.filter fun (k, _) => k != key)
  | value, _ => value

lemma changeAt_concat (f : Json → Json) (path : List Slot) (slot : Slot) (value : Json) :
    value.changeAt f (path ++ [slot]) = value.changeAt (·.changePart f slot) path := by
  induction path generalizing value with
  | nil => rfl
  | cons first rest ih =>
    rw [List.cons_append, changeAt, changeAt]
    exact congrArg (value.changePart · first) (funext ih)

lemma lookup_changeMember (f : Json → Json) (key other : String) (members : List (String × Json)) :
    (members.map fun (k, v) => (k, if k = key then f v else v)).lookup other
      = (members.lookup other).map fun v => if other = key then f v else v := by
  induction members with
  | nil => rfl
  | cons member rest ih =>
    obtain ⟨k, v⟩ := member
    rw [List.map_cons, List.lookup_cons, List.lookup_cons, ih]
    cases hk : other == k with
    | true => simp [beq_iff_eq.mp hk]
    | false => rfl

/-- The slot has the changed part. -/
lemma child?_changePart (f : Json → Json) (value : Json) (slot : Slot) :
    (value.changePart f slot).child? slot = (value.child? slot).map f := by
  match value, slot with
  | .array items, .index i => simp [changePart, child?]
  | .object members, .key key => simp [changePart, child?, lookup_changeMember]
  | .array _, .key _ | .object _, .index _ | .null, _ | .bool _, _ | .number _, _ | .string _, _ =>
    rfl

/-- Every other slot has the part that it had. -/
lemma child?_changePart_of_ne (f : Json → Json) (value : Json) {slot other : Slot}
    (hne : other ≠ slot) : (value.changePart f slot).child? other = value.child? other := by
  match value, slot, other with
  | .array items, .index i, .index j =>
    have hij : i ≠ j := fun heq => hne (heq ▸ rfl)
    simp [changePart, child?, hij]
  | .object members, .key key, .key k =>
    have hk : k ≠ key := fun heq => hne (heq ▸ rfl)
    simp [changePart, child?, lookup_changeMember, hk]
  | .array _, .key _, _ | .array _, .index _, .key _ | .object _, .index _, _
  | .object _, .key _, .index _ | .null, _, _ | .bool _, _, _ | .number _, _, _
  | .string _, _, _ => rfl

/-- The position has the changed value. -/
theorem at?_changeAt (f : Json → Json) (path : List Slot) (value : Json) :
    (value.changeAt f path).at? path = (value.at? path).map f := by
  induction path generalizing value with
  | nil => rfl
  | cons slot rest ih =>
    rw [changeAt, at?, at?, child?_changePart]
    cases value.child? slot with
    | none => rfl
    | some part => exact ih part

/-- A position that is neither above nor below has the value that it had. -/
theorem at?_changeAt_of_apart (f : Json → Json) {path other : List Slot}
    (hbelow : ¬ path <+: other) (habove : ¬ other <+: path) (value : Json) :
    (value.changeAt f path).at? other = value.at? other := by
  induction path generalizing other value with
  | nil => exact absurd List.nil_prefix hbelow
  | cons slot rest ih =>
    cases other with
    | nil => exact absurd List.nil_prefix habove
    | cons first more =>
      rw [changeAt, at?, at?]
      by_cases hfirst : first = slot
      · subst hfirst
        rw [List.cons_prefix_cons, not_and] at hbelow habove
        rw [child?_changePart]
        cases value.child? first with
        | none => rfl
        | some part => exact ih (hbelow rfl) (habove rfl) part
      · rw [child?_changePart_of_ne _ _ hfirst]

end Json

/-! ### Nodes with other parts -/

namespace Node.Gap

variable {slot : Slot} {part : Nat → Node} {gone : Node} {f f' : Nat → Json}

/-- A node is read with another part in a slot. -/
lemma read_part (h : Gap slot part gone) {g : Json → Json} {c d : Nat}
    (hrest : ∀ b ∈ gone.parts, f' b = f b) (hpart : f' d = g (f c)) :
    (part d).read f' = ((part c).read f).changePart g slot := by
  cases h with
  | array pre post =>
    have hchanged (before : List Json) (a : Json) (after : List Json) :
        (before ++ a :: after).modify before.length g = before ++ g a :: after := by
      induction before with
      | nil => rfl
      | cons b rest ih => exact congrArg (b :: ·) ih
    have hpre : pre.map f' = pre.map f :=
      List.map_congr_left fun b hb => hrest b (List.mem_append_left _ hb)
    have hpost : post.map f' = post.map f :=
      List.map_congr_left fun b hb => hrest b (List.mem_append_right _ hb)
    have hset := hchanged (pre.map f) (f c) (post.map f)
    rw [List.length_map] at hset
    rw [read, read, Json.changePart, List.map_append, List.map_cons, List.map_append,
      List.map_cons, hset, hpre, hpost, hpart]
  | @object key pre post hpre hpost =>
    have hother {members : List (String × Nat)} (hkey : key ∉ members.map Prod.fst)
        (hsub : ∀ b ∈ members.map Prod.snd, b ∈ (Node.object (pre ++ post)).parts) :
        (members.map fun m => (m.1, f' m.2))
          = members.map fun m => (m.1, if m.1 = key then g (f m.2) else f m.2) := by
      refine List.map_congr_left fun m hm => ?_
      have hne : m.1 ≠ key := fun heq => hkey (heq ▸ List.mem_map_of_mem hm)
      rw [if_neg hne, hrest m.2 (hsub m.2 (List.mem_map_of_mem hm))]
    have hbefore := hother hpre fun b hb => by
      rw [parts, List.map_append]
      exact List.mem_append_left _ hb
    have hafter := hother hpost fun b hb => by
      rw [parts, List.map_append]
      exact List.mem_append_right _ hb
    change Json.object ((pre ++ (key, d) :: post).map fun m => (m.1, f' m.2))
      = .object (((pre ++ (key, c) :: post).map fun m => (m.1, f m.2)).map
          fun m => (m.1, if m.1 = key then g m.2 else m.2))
    simp only [List.map_map, List.map_append, List.map_cons, hbefore, hafter, hpart,
      Function.comp_def, if_true]

/-- A node is read without a slot. -/
lemma read_gone (h : Gap slot part gone) (c : Nat) (hrest : ∀ b ∈ gone.parts, f' b = f b) :
    gone.read f' = ((part c).read f).erasePart slot := by
  rw [read_congr hrest]
  cases h with
  | array pre post =>
    simp [read, Json.erasePart, List.eraseIdx_append_of_length_le]
  | @object key pre post hpre hpost =>
    have hother {members : List (String × Nat)} (hkey : key ∉ members.map Prod.fst) :
        (members.map fun m => (m.1, f m.2)).filter (fun m => m.1 != key)
          = members.map fun m => (m.1, f m.2) := by
      rw [List.filter_map]
      exact congrArg _ (filter_ne_key hkey)
    change Json.object ((pre ++ post).map fun m => (m.1, f m.2))
      = .object (((pre ++ (key, c) :: post).map fun m => (m.1, f m.2)).filter
          fun m => m.1 != key)
    rw [List.map_append, List.map_append, List.map_cons, List.filter_append, hother hpre,
      List.filter_cons_of_neg (by simp), hother hpost]

end Node.Gap

namespace Arena

variable {arena : Arena}

/-! ### Positions in an arena -/

lemma child?_toJson (hwell : arena.WellFormed) {id child : Nat} {slot : Slot}
    (h : arena.part? id slot = some child) :
    (arena.toJson id).child? slot = some (arena.toJson child) := by
  cases hnode : arena.node? id with
  | none => simp [part?, hnode] at h
  | some node =>
    cases node with
    | scalar value => simp [part?, hnode] at h
    | array ids =>
      cases slot with
      | index i =>
        rw [part?_array hnode] at h
        rw [toJson_array hwell hnode, Json.child?, List.getElem?_map, h, Option.map_some]
      | key key => simp [part?, hnode] at h
    | object members =>
      cases slot with
      | index i => simp [part?, hnode] at h
      | key key =>
        rw [part?_object hnode] at h
        rw [toJson_object hwell hnode, Json.child?, lookup_map, h, Option.map_some]

lemma at?_toJson (hwell : arena.WellFormed) {root id : Nat} {path : List Slot}
    (h : arena.follow? root path = some id) :
    (arena.toJson root).at? path = some (arena.toJson id) := by
  induction path generalizing root with
  | nil => exact congrArg some (congrArg arena.toJson (Option.some.inj h))
  | cons slot rest ih =>
    obtain ⟨child, hchild, hrest⟩ := Option.bind_eq_some_iff.mp h
    rw [Json.at?, child?_toJson hwell hchild]
    exact ih hrest

lemma reachable_of_follow? {root id : Nat} {path : List Slot}
    (h : arena.follow? root path = some id) : arena.Reachable root id := by
  induction path generalizing root with
  | nil => exact Option.some.inj h ▸ .root
  | cons slot rest ih =>
    obtain ⟨child, hchild, hrest⟩ := Option.bind_eq_some_iff.mp h
    exact (ih hrest).head (part?_mem_children hchild)

namespace Forest

/-- The slot of a part holds that part. -/
lemma exists_part?_eq (h : arena.Forest) {id : Nat} {s : Selected} (hs : s ∈ arena.children id) :
    ∃ slot, arena.part? id slot = some s.node := by
  cases hnode : arena.node? id with
  | none => simp [children_of_none hnode] at hs
  | some node =>
    rw [children_of_node? hnode] at hs
    cases node with
    | scalar value => simp [Node.links] at hs
    | array ids =>
      obtain ⟨i, hi, rfl⟩ := List.mem_mapIdx.mp hs
      exact ⟨.index i, (part?_array hnode i).trans (List.getElem?_eq_getElem hi)⟩
    | object members =>
      obtain ⟨⟨key, c⟩, hmem, rfl⟩ := List.mem_map.mp hs
      obtain ⟨pre, post, rfl⟩ := List.append_of_mem hmem
      have hkeys := h.keys id _ hnode
      rw [Node.keys, List.map_append, List.nodup_append] at hkeys
      refine ⟨.key key, (part?_object hnode key).trans (lookup_append_of_not_mem ?_ c post)⟩
      exact fun hk => hkeys.2.2 key hk key List.mem_cons_self rfl

/-- A path leads to all that is reached, and to nothing else. -/
lemma exists_path_iff (h : arena.Forest) {root id : Nat} :
    (∃ path, arena.follow? root path = some id) ↔ arena.Reachable root id := by
  refine ⟨fun ⟨path, hpath⟩ => reachable_of_follow? hpath, fun hreach => ?_⟩
  induction hreach with
  | root => exact ⟨[], rfl⟩
  | part _ hs ih =>
    obtain ⟨path, hpath⟩ := ih
    obtain ⟨slot, hslot⟩ := h.exists_part?_eq hs
    exact ⟨path ++ [slot], by rw [follow?_concat, hpath, Option.bind_some, hslot]⟩

/-- There are no two paths from one node to another. -/
lemma path_unique (h : arena.Forest) {root id : Nat} {path path' : List Slot}
    (hpath : arena.follow? root path = some id) (hpath' : arena.follow? root path' = some id) :
    path = path' := by
  -- A path that is not empty leads behind its start.
  have hbehind {root id : Nat} {slot : Slot} {rest : List Slot}
      (hpath : arena.follow? root (slot :: rest) = some id) : root < id := by
    obtain ⟨child, hchild, hrest⟩ := Option.bind_eq_some_iff.mp hpath
    exact Nat.lt_of_lt_of_le (h.wellFormed root _ (part?_mem_children hchild)).1
      ((reachable_of_follow? hrest).le h.wellFormed)
  induction path generalizing root path' with
  | nil =>
    obtain rfl : root = id := Option.some.inj hpath
    cases path' with
    | nil => rfl
    | cons slot rest => exact absurd (hbehind hpath') (Nat.lt_irrefl _)
  | cons slot rest ih =>
    cases path' with
    | nil =>
      obtain rfl : root = id := Option.some.inj hpath'
      exact absurd (hbehind hpath) (Nat.lt_irrefl _)
    | cons slot' rest' =>
      obtain ⟨child, hchild, hrest⟩ := Option.bind_eq_some_iff.mp hpath
      obtain ⟨child', hchild', hrest'⟩ := Option.bind_eq_some_iff.mp hpath'
      have hsame := h.eq_of_reachable (part?_mem_children hchild) (part?_mem_children hchild')
        (reachable_of_follow? hrest) (reachable_of_follow? hrest')
      simp only [Selected.mk.injEq, Option.some.injEq, Handle.mk.injEq, true_and] at hsame
      obtain ⟨rfl, rfl⟩ := hsame
      rw [ih hrest hrest']

end Forest

/-! ### A change at one node -/

variable {after : Arena} {parent : Nat}

/-- Nodes that the changed one is not reached from are read as before. -/
lemma Kept.toJson_aside (hwell : arena.WellFormed) (hkept : Kept (· = parent) arena after)
    {id : Nat} (hid : id < arena.nodes.size) (haside : ¬ arena.Reachable id parent) :
    after.toJson id = arena.toJson id := by
  refine hwell.induction
    (motive := fun id => ¬ arena.Reachable id parent → after.toJson id = arena.toJson id)
    (fun id node hnode ih haside => ?_) hid haside
  have hne : id ≠ parent := fun heq => haside (heq ▸ .root)
  have hsame : after.node? id = some node :=
    (hkept.node? id (lt_size_of_node? hnode) hne).trans hnode
  rw [toJson_eq_read hkept.wellFormed hsame, toJson_eq_read hwell hnode]
  refine Node.read_congr fun c hc => ih c hc fun hreach => haside ?_
  obtain ⟨s, hs, rfl⟩ := exists_child hnode hc
  exact hreach.head hs

/-- A node above the changed one is read with the change at the end of the path. -/
theorem Forest.toJson_along (h : arena.Forest) (hkept : Kept (· = parent) arena after)
    {f : Json → Json} (hchanged : after.toJson parent = f (arena.toJson parent)) {root : Nat}
    {path : List Slot} (hpath : arena.follow? root path = some parent) :
    after.toJson root = (arena.toJson root).changeAt f path := by
  have hwell := h.wellFormed
  induction path generalizing root with
  | nil =>
    obtain rfl : root = parent := Option.some.inj hpath
    exact hchanged
  | cons slot rest ih =>
    obtain ⟨child, hchild, hrest⟩ := Option.bind_eq_some_iff.mp hpath
    have hmem := part?_mem_children hchild
    obtain ⟨hlt, hsize⟩ := hwell root _ hmem
    obtain ⟨node, hnode⟩ := exists_node? (Nat.lt_trans hlt hsize)
    obtain ⟨part, gone, hgap, rfl⟩ := exists_gap hnode (h.keys root node hnode) hchild
    have hreach := reachable_of_follow? hrest
    have hne : root ≠ parent := Nat.ne_of_lt (Nat.lt_of_lt_of_le hlt (hreach.le hwell))
    have hsame : after.node? root = some (part child) :=
      (hkept.node? root (lt_size_of_node? hnode) hne).trans hnode
    rw [toJson_eq_read hkept.wellFormed hsame, toJson_eq_read hwell hnode, Json.changeAt]
    refine hgap.read_part (fun b hb => ?_) (ih hrest)
    -- The other parts are aside, since the changed node is below this one.
    have hpart : b ∈ (part child).parts := (hgap.hole.mem_parts child b).mpr (.inr hb)
    obtain ⟨s, hs, rfl⟩ := exists_child hnode hpart
    refine hkept.toJson_aside hwell (hwell root s hs).2 fun hother => ?_
    obtain rfl := h.eq_of_reachable hs hmem hother hreach
    obtain ⟨pre, post, hparts, hgone⟩ := hgap.exists_parts
    have hnodup := h.parts_nodup hnode
    rw [hparts] at hnodup
    rw [hgone] at hb
    exact (List.nodup_cons.mp (List.nodup_middle.mp hnodup)).1 hb

/-- What an exchange makes of the value of its node. -/
lemma Forest.toJson_exchange (h : arena.Forest) {slot : Slot} {part : Nat → Node} {gone : Node}
    {child : Nat} (hgap : Node.Gap slot part gone) (hnode : arena.node? parent = some (part child))
    (w : Json) :
    (arena.exchange parent part gone (some w)).toJson parent
      = (arena.toJson parent).changePart (fun _ => w) slot ∧
    (arena.exchange parent part gone none).toJson parent
      = (arena.toJson parent).erasePart slot := by
  have hwell := h.wellFormed
  have hrest {after : Arena} (hkept : Kept (· = parent) arena after) (b : Nat)
      (hb : b ∈ gone.parts) : after.toJson b = arena.toJson b := by
    obtain ⟨hlt, hsize⟩ := wellFormed_iff.mp hwell _ _ hnode b
      ((hgap.hole.mem_parts child b).mpr (.inr hb))
    exact hkept.toJson hwell hsize fun i hi => hi ▸ hlt
  obtain ⟨hset, hnew, hreads⟩ := exchange_kept hgap.hole hnode hwell (some w)
  obtain ⟨herased, hgone⟩ := exchange_kept hgap.hole hnode hwell none
  rw [toJson_eq_read hset.wellFormed hnew, toJson_eq_read herased.wellFormed hgone,
    toJson_eq_read hwell hnode]
  exact ⟨hgap.read_part (hrest hset) hreads, hgap.read_gone child (hrest herased)⟩

/-! ### Changes through a handle -/

/-- Replacing and removing are lenses on the document.  Let the handle of any allocated node be
used in an arena that is built by changes, and let the root be any allocated node.  The parent is
reached from the root by exactly one path or by none.

If the slot is there, the handle resolves.  With a path, the value of the root is the one that it
was with the new value in the position of the slot, where something stood before: every position
that is neither above nor below has what it had; or it is the one that it was without that element
or member.  Without a path, it is the one that it was.

If the slot is not there, both changes fail in the same way, and all nodes are read as before. -/
theorem lenses_of_built (h : arena.Built) {handle : Handle}
    (hparent : handle.parent < arena.nodes.size) {root : Nat} (hroot : root < arena.nodes.size)
    (w : Json) :
    (arena.Reachable root handle.parent →
      ∃! path, arena.follow? root path = some handle.parent) ∧
    (arena.part? handle.parent handle.slot ≠ none →
      ∃ replaced removed, arena.replace handle w = (replaced, .ok arena.nodes.size) ∧
        arena.remove handle = .ok removed ∧
        (∀ path, arena.follow? root path = some handle.parent →
          let position := path ++ [handle.slot]
          (∃ old, (arena.toJson root).at? position = some old) ∧
          replaced.toJson root = (arena.toJson root).setAt position w ∧
          (replaced.toJson root).at? position = some w ∧
          (∀ other, ¬ position <+: other → ¬ other <+: position →
            (replaced.toJson root).at? other = (arena.toJson root).at? other) ∧
          removed.toJson root = (arena.toJson root).changeAt (·.erasePart handle.slot) path) ∧
        (¬ arena.Reachable root handle.parent →
          replaced.toJson root = arena.toJson root ∧ removed.toJson root = arena.toJson root)) ∧
    (arena.part? handle.parent handle.slot = none →
      (∃ text, handle.stale = .filterTarget text) ∧
      ∃ after, arena.replace handle w = (after, .error handle.stale) ∧
        arena.remove handle = .error handle.stale ∧
        ∀ id < arena.nodes.size, after.toJson id = arena.toJson id) := by
  have hforest := h.forest
  have hwell := hforest.wellFormed
  refine ⟨fun hreach => ?_, fun hslot => ?_, fun hslot => ?_⟩
  · obtain ⟨path, hpath⟩ := hforest.exists_path_iff.mpr hreach
    exact ⟨path, hpath, fun other hother => hforest.path_unique hother hpath⟩
  · obtain ⟨child, part, gone, hchild, hgap, hnode, hreplace, hremove⟩ :=
      (change_cases hparent hforest.keys).resolve_right fun hstale => hslot hstale.1
    have hset := (exchange_kept hgap.hole hnode hwell (some w)).1
    have herased := (exchange_kept hgap.hole hnode hwell none).1
    obtain ⟨hnew, hgone⟩ := hforest.toJson_exchange hgap hnode w
    refine ⟨_, _, hreplace w, hremove, fun path hpath => ?_, fun haside =>
      ⟨hset.toJson_aside hwell hroot haside, herased.toJson_aside hwell hroot haside⟩⟩
    have hposition : arena.follow? root (path ++ [handle.slot]) = some child := by
      rw [follow?_concat, hpath, Option.bind_some, hchild]
    have hold := at?_toJson hwell hposition
    have hvalue : (arena.exchange handle.parent part gone (some w)).toJson root
        = (arena.toJson root).setAt (path ++ [handle.slot]) w := by
      rw [Json.setAt, Json.changeAt_concat]
      exact hforest.toJson_along hset hnew hpath
    refine ⟨⟨_, hold⟩, hvalue, ?_, fun other hbelow habove => ?_,
      hforest.toJson_along herased hgone hpath⟩
    · rw [hvalue, Json.setAt, Json.at?_changeAt, hold, Option.map_some]
    · rw [hvalue, Json.setAt, Json.at?_changeAt_of_apart _ hbelow habove]
  · obtain ⟨-, hreplace, hremove⟩ := (change_cases hparent hforest.keys).resolve_left
      fun ⟨child, _, _, hchild, _⟩ => by simp [hchild] at hslot
    have hkept : Kept (fun _ => False) arena (arena.insert w).1 := .insert hwell w _
    exact ⟨⟨_, rfl⟩, _, hreplace w, hremove,
      fun id hid => hkept.toJson hwell hid fun _ => False.elim⟩

/-- An element inside a member is replaced, or removed. -/
theorem lenses_of_built_nested :
    let arena := ofJson (.object [("a", .array [.null, .bool true]), ("b", .null)])
    let handle : Handle := ⟨1, .index 0⟩
    arena.Built ∧ handle.parent < arena.nodes.size ∧
    ∃ replaced removed, arena.replace handle (.string "x") = (replaced, .ok arena.nodes.size) ∧
      arena.remove handle = .ok removed ∧
      replaced.toJson 0 = .object [("a", .array [.string "x", .bool true]), ("b", .null)] ∧
      removed.toJson 0 = .object [("a", .array [.bool true]), ("b", .null)] := by
  intro arena handle
  have hbuilt : arena.Built :=
    .ofJson (by simp [Json.HasDistinctKeys, Json.ItemsDistinct, Json.MembersDistinct])
  have hparent : handle.parent < arena.nodes.size := by decide
  have hslot : arena.part? handle.parent handle.slot = some 2 := rfl
  have hpath : arena.follow? 0 [.key "a"] = some handle.parent := rfl
  obtain ⟨-, hresolves, -⟩ := lenses_of_built hbuilt hparent (by decide : 0 < arena.nodes.size)
    (.string "x")
  obtain ⟨replaced, removed, hreplace, hremove, hchanges, -⟩ := hresolves (by simp [hslot])
  obtain ⟨-, hreplaced, -, -, hremoved⟩ := hchanges _ hpath
  rw [toJson_ofJson] at hreplaced hremoved
  exact ⟨hbuilt, hparent, replaced, removed, hreplace, hremove, hreplaced, hremoved⟩

end Arena

end Verdict
