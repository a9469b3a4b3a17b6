/-
Selections are anchored in the document that they point into.

A chain of steps starts at the root of a document, and its steps move along the
parts of nodes only.  So whatever it selects is reached from the root, and all
that was not selected as the root itself has a handle that resolves.

* `Arena.Reachable`: the nodes that are reached from a node through parts.
* `Arena.reachable_ofJson`: all nodes of a document are reached from its root.
* `Arena.resolves_of_mem_children`, `Arena.part?_eq_of_mem_children`: the handle of a
  part resolves, and its slot holds that part.
* `Arena.Anchors`: a handle leads to a node from the root.
* `Resolved.Anchored`: what is selected is the root or is led to by its handle.
* `Resolved.PointsInto.anchored`: selections from a document are anchored.
* `Step.apply_placed`: a step selects nothing, or from some document.
* `Step.applyAll_anchored`: the selections of a chain are anchored.
-/
import Verdict.Proofs.Evaluation.Targets

namespace Verdict

/-! ### Parts and their handles -/

namespace Node

lemma exists_redirectMember {key : String} {members : List (String × Nat)}
    (h : key ∈ members.map Prod.fst) (target : Nat) :
    ∃ after, redirectMember key target members = some after := by
  induction members with
  | nil => simp at h
  | cons member rest ih =>
    obtain ⟨k, child⟩ := member
    rw [redirectMember]
    by_cases hk : k = key
    · exact ⟨_, if_pos hk⟩
    · obtain ⟨after, hafter⟩ := ih ((List.mem_cons.mp h).resolve_left (Ne.symm hk))
      exact ⟨_, by rw [if_neg hk, hafter, Option.map_some]⟩

/-- The node has the slots that the handles of its parts name. -/
lemma slot_of_mem_links {id : Nat} {node : Node} {s : Selected} (h : s ∈ node.links id) :
    ∃ slot, s.handle = some ⟨id, slot⟩ ∧ (∃ gone, node.erase? slot = some gone) ∧
      ∀ target, ∃ after, node.redirect? target slot = some after := by
  cases node with
  | scalar value => simp [links] at h
  | array ids =>
    obtain ⟨i, hi, rfl⟩ := List.mem_mapIdx.mp h
    exact ⟨_, rfl, ⟨_, if_pos hi⟩, fun _ => ⟨_, if_pos hi⟩⟩
  | object members =>
    obtain ⟨⟨key, child⟩, hmem, rfl⟩ := List.mem_map.mp h
    have hany : members.any (fun member => member.1 == key) = true :=
      List.any_eq_true.mpr ⟨_, hmem, beq_self_eq_true key⟩
    refine ⟨_, rfl, ⟨_, if_pos hany⟩, fun target => ?_⟩
    obtain ⟨after, hafter⟩ :=
      exists_redirectMember (List.mem_map_of_mem (f := Prod.fst) hmem) target
    exact ⟨_, by rw [redirect?, hafter, Option.map_some]⟩

end Node

namespace Arena

variable {arena : Arena} {value : Json}

/-- Part after part leads from the root to the node. -/
inductive Reachable (arena : Arena) (root : Nat) : Nat → Prop
  | root : arena.Reachable root root
  | part {id : Nat} {s : Selected} (h : arena.Reachable root id) (hs : s ∈ arena.children id) :
      arena.Reachable root s.node

/-- All nodes of a document are reached from its root: every other node is a part
of one before it. -/
theorem reachable_ofJson {id : Nat} (hid : id < (ofJson value).nodes.size) :
    (ofJson value).Reachable 0 id := by
  induction id using Nat.strongRecOn with
  | ind id ih =>
    have hsize : (ofJson value).nodes.size = (flatten 0 value).length := by simp [ofJson, insert]
    have hmem : id ∈ 0 :: (linksFrom 0 (flatten 0 value)).map Selected.node :=
      (flatten_perm 0 value).symm.subset (List.mem_range'_1.mpr (by omega))
    rcases List.mem_cons.mp hmem with rfl | hmem
    · exact .root
    · obtain ⟨s, hs, rfl⟩ := List.mem_map.mp hmem
      obtain ⟨parent, hparent⟩ := mem_links_iff.mp hs
      have hbefore := (ofJson_wellFormed value parent s hparent).1
      exact .part (ih parent hbefore (Nat.lt_trans hbefore hid)) hparent

/-- A part can be replaced and removed through its handle. -/
theorem resolves_of_mem_children {id : Nat} {s : Selected} (h : s ∈ arena.children id) :
    ∃ slot, s.handle = some ⟨id, slot⟩ ∧ arena.Resolves ⟨id, slot⟩ := by
  cases hnode : arena.node? id with
  | none => simp [children_of_none hnode] at h
  | some node =>
    rw [children_of_node? hnode] at h
    obtain ⟨slot, hslot, ⟨gone, hgone⟩, hafter⟩ := Node.slot_of_mem_links h
    refine ⟨slot, hslot, ⟨_, remove_eq hnode hgone⟩, fun value => ?_⟩
    obtain ⟨after, hafter⟩ := hafter arena.nodes.size
    exact ⟨_, congrArg Prod.snd (replace_eq hnode hafter)⟩

/-- The slot of a part holds that part, where no object has a name twice. -/
theorem part?_eq_of_mem_children (hkeys : value.HasDistinctKeys) {id : Nat} {slot : Slot}
    {s : Selected} (h : s ∈ (ofJson value).children id) (hslot : s.handle = some ⟨id, slot⟩) :
    (ofJson value).part? id slot = some s.node := by
  have hlink : s ∈ linksFrom 0 (flatten 0 value) := mem_links_iff.mpr ⟨id, h⟩
  obtain ⟨path, hpath⟩ := exists_path 0 value hkeys (holds_ofJson value) s hlink
  cases path using List.reverseRecOn with
  | nil =>
    -- The path is not empty, since the root is no part.
    have hroot : 0 < s.node := (node_of_mem_linksFrom hlink).1
    exact absurd (Option.some.inj hpath) (Nat.ne_of_lt hroot)
  | append_singleton path last =>
    rw [follow?_concat] at hpath
    obtain ⟨parent, -, hpart⟩ := Option.bind_eq_some_iff.mp hpath
    have hsame : s = ⟨s.node, some ⟨parent, last⟩⟩ :=
      handle_unique hlink (mem_links_iff.mpr ⟨parent, part?_mem_children hpart⟩) rfl
    rw [hsame] at hslot
    simp only [Option.some.injEq, Handle.mk.injEq] at hslot
    obtain ⟨rfl, rfl⟩ := hslot
    exact hpart

/-- The handle leads to the node from the root: its parent is reached, and has the
node as the part that this handle belongs to.  Where no object has a name twice,
nothing else stands in the slot.  Through the handle the node can be replaced and
removed. -/
structure Anchors (arena : Arena) (root : Nat) (handle : Handle) (s : Selected) : Prop where
  reachable : arena.Reachable root handle.parent
  part : s ∈ arena.children handle.parent
  slot : (arena.toJson root).HasDistinctKeys →
    arena.part? handle.parent handle.slot = some s.node
  resolves : arena.Resolves handle

/-- Every part of a document is reached, and its handle leads to it. -/
theorem IsPart.anchors {s : Selected} (h : (ofJson value).IsPart s) :
    (ofJson value).Reachable 0 s.node ∧
      ∃ handle, s.handle = some handle ∧ (ofJson value).Anchors 0 handle s := by
  obtain ⟨id, hid⟩ := h
  obtain ⟨hlt, hsize⟩ := ofJson_wellFormed value id s hid
  have hparent : (ofJson value).Reachable 0 id := reachable_ofJson (Nat.lt_trans hlt hsize)
  obtain ⟨slot, hslot, hresolves⟩ := resolves_of_mem_children hid
  refine ⟨.part hparent hid, _, hslot, hparent, hid, fun hkeys => ?_, hresolves⟩
  rw [toJson_ofJson] at hkeys
  exact part?_eq_of_mem_children hkeys hid hslot

end Arena

/-! ### Anchored selections -/

/-- Every selected node is reached from the root.  One without a handle is the
root, selected alone; the handle of any other leads to it. -/
structure Resolved.Anchored (r : Resolved) : Prop where
  reachable : ∀ s ∈ r.selection.toList, r.arena.Reachable r.root s.node
  bare : ∀ s ∈ r.selection.toList, s.handle = none → r.selection = .single ⟨r.root, none⟩
  handles : ∀ s ∈ r.selection.toList, ∀ handle ∈ s.handle, r.arena.Anchors r.root handle s

/-- The resolution has failed or is anchored. -/
def Resolution.Anchored : Resolution → Prop
  | .ok r => r.Anchored
  | .error _ => True

namespace Resolved

variable {r : Resolved} {value : Json}

lemma anchored_of_nothing (h : r.selection = .nothing) : r.Anchored := by
  have hnone : ∀ s, s ∉ r.selection.toList := by simp [h, Selection.toList]
  exact ⟨fun s hs => absurd hs (hnone s), fun s hs => absurd hs (hnone s),
    fun s hs => absurd hs (hnone s)⟩

lemma anchored_of_root (h : r.selection = .single ⟨r.root, none⟩) : r.Anchored := by
  have hs : ∀ s ∈ r.selection.toList, s = ⟨r.root, none⟩ := by simp [h, Selection.toList]
  refine ⟨fun s hmem => ?_, fun s hmem _ => h, fun s hmem handle hhandle => ?_⟩
  · rw [hs s hmem]
    exact .root
  · rw [hs s hmem] at hhandle
    exact absurd hhandle (Option.not_mem_none handle)

/-- Parts of a document are anchored in it. -/
lemma anchored_of_parts (harena : r.arena = .ofJson value) (hroot : r.root = 0)
    (hparts : ∀ s ∈ r.selection.toList, r.arena.IsPart s) : r.Anchored := by
  obtain ⟨arena, root, selection⟩ := r
  obtain rfl : arena = .ofJson value := harena
  obtain rfl : root = 0 := hroot
  refine ⟨fun s hs => ?_, fun s hs hnone => ?_, fun s hs handle hhandle => ?_⟩ <;>
    obtain ⟨hreached, own, hown, hanchors⟩ := (hparts s hs).anchors
  · exact hreached
  · rw [hnone] at hown
    exact absurd hown (by simp)
  · obtain rfl : own = handle := Option.some.inj (hown.symm.trans hhandle)
    exact hanchors

/-- A selection from a document is anchored in it. -/
theorem PointsInto.anchored (h : r.PointsInto value) : r.Anchored := by
  rcases h.parts with hsingle | hparts
  · exact anchored_of_root (by rw [hsingle, h.root])
  · exact anchored_of_parts h.arena h.root hparts

end Resolved

/-! ### Chains -/

/-- The resolution has failed, selects nothing, or selects from some document. -/
def Resolution.Placed : Resolution → Prop
  | .ok r => r.selection = .nothing ∨ ∃ value, r.PointsInto value
  | .error _ => True

lemma Resolution.Placed.anchored {resolution : Resolution} (h : resolution.Placed) :
    resolution.Anchored := by
  cases resolution with
  | error cause => trivial
  | ok r =>
    rcases h with hnothing | ⟨value, hpoints⟩
    · exact Resolved.anchored_of_nothing hnothing
    · exact hpoints.anchored

lemma Resolution.PointsInto.placed {value : Json} {resolution : Resolution}
    (h : resolution.PointsInto value) : resolution.Placed := by
  cases resolution with
  | error cause => trivial
  | ok r => exact .inr ⟨value, h⟩

lemma Resolution.placed_start (value : Value) : (Resolution.start value).Placed := by
  cases value with
  | error cause => trivial
  | undefined => exact .inl rfl
  | defined json => exact .inr ⟨json, Resolved.pointsInto_start json⟩

lemma Resolved.step_nothing {r : Resolved} (h : r.selection = .nothing) (step : Step) :
    r.step step = .ok r := by
  obtain ⟨arena, root, selection⟩ := r
  obtain rfl : selection = .nothing := h
  simp [Resolved.step, stepSelection, select]

section Chains

variable {W : World → Prop} (ctx : EvaluationContext) (inBody : Bool) (relative : Value)

/-- Only the values of an attribute are selected from when nothing is. -/
lemma Step.apply_nothing {r : Resolved} (h : r.selection = .nothing) (step : Step)
    (hstep : ∀ name arguments, step ≠ .attribute name arguments) :
    step.apply ctx inBody relative r = .just (.ok r) := by
  match step with
  | .attribute name arguments => exact absurd rfl (hstep name arguments)
  | .computed _ | .condition _ => rw [Step.apply, if_pos h]
  | .key _ | .index _ | .wildcard | .slice _ _ _ | .recursiveKey _ | .recursiveIndex _
  | .recursiveWildcard | .keyUnion _ | .indexUnion _ =>
    exact congrArg Stream.just (Resolved.step_nothing h _)

/-- An attribute step starts anew, in the documents that the attribute delivers. -/
lemma Step.apply_attribute_placed (r : Resolved) (name : String) (arguments : List Expression) :
    (Step.apply ctx inBody relative r (.attribute name arguments)).Always W
      Resolution.Placed := by
  rw [Step.apply]
  split
  · refine (Stream.Always.trivial _).switchMap fun values _ => ?_
    cases Value.firstError? values with
    | some cause => exact .just trivial
    | none => exact (Stream.Always.trivial _).map fun value _ => Resolution.placed_start value
  · exact .just trivial

/-- A step from nothing or from a document selects nothing, or from a document. -/
theorem Step.apply_placed {r : Resolved} (h : Resolution.Placed (.ok r)) (step : Step) :
    (step.apply ctx inBody relative r).Always W Resolution.Placed := by
  by_cases hstep : ∀ name arguments, step ≠ .attribute name arguments
  · rcases h with hnothing | ⟨value, hpoints⟩
    · rw [Step.apply_nothing ctx inBody relative hnothing step hstep]
      exact .just (.inl hnothing)
    · exact (Step.apply_pointsInto ctx inBody relative hpoints step hstep).mono
        fun _ => Resolution.PointsInto.placed
  · push Not at hstep
    obtain ⟨name, arguments, rfl⟩ := hstep
    exact Step.apply_attribute_placed ctx inBody relative r name arguments

theorem Step.applyAll_placed : (steps : List Step) →
    {before : Stream Resolution} → before.Always W Resolution.Placed →
      (Step.applyAll ctx inBody relative steps before).Always W Resolution.Placed
  | [], _, hbefore => hbefore
  | step :: rest, before, hbefore => by
    rw [Step.applyAll]
    refine Step.applyAll_placed rest (hbefore.switchMap fun resolution hresolution => ?_)
    cases resolution with
    | error cause => exact .just trivial
    | ok r => exact step.apply_placed ctx inBody relative hresolution

end Chains

/-- Whatever a chain of steps resolves to, from any value and in any worlds, is
anchored in its document. -/
theorem Step.applyAll_anchored (W : World → Prop) (ctx : EvaluationContext) (inBody : Bool)
    (relative : Value) (steps : List Step) (value : Value) :
    (Step.applyAll ctx inBody relative steps (.just (.start value))).Always W
      Resolution.Anchored :=
  (Step.applyAll_placed ctx inBody relative steps (.just (Resolution.placed_start value))).mono
    fun _ => Resolution.Placed.anchored

end Verdict
