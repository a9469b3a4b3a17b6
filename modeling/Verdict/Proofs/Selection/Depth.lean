/-
Depths of selected nodes.

A local step by name goes down to parts, and a local step by position does so from a
single node; in a fan-out it chooses among the nodes that are there.  So all the nodes
that a chain of local steps has selected are at one depth.

* `Arena.AtDepth`, `Arena.AtDepth.unique`: the depth of a node of a document.
* `Resolved.stepSelection_depth`: a local step stays at its depth or goes one level down.
* `Resolved.chain_depth`: what a chain of local steps selects is at one depth.
* `Resolved.chain_pointsInto`: a chain keeps to the document.
-/
import Verdict.Proofs.Selection.Recursive
import Verdict.Proofs.Selection.Simulation

namespace Verdict

namespace Arena

variable {arena : Arena} {value : Json}

/-- That many parts lead from the first node of the arena to the node. -/
inductive AtDepth (arena : Arena) : Nat → Nat → Prop
  | root : arena.AtDepth 0 0
  | part {depth id : Nat} {s : Selected} (h : arena.AtDepth depth id)
      (hs : s ∈ arena.children id) : arena.AtDepth (depth + 1) s.node

/-- Only nodes have a depth. -/
lemma AtDepth.lt_size {depth id : Nat} (h : (ofJson value).AtDepth depth id) :
    id < (ofJson value).nodes.size := by
  cases h with
  | root => exact (holds_ofJson value).lt_size (flatten_length_pos 0 value)
  | part _ hs => exact (ofJson_wellFormed value _ _ hs).2

/-- A node at some depth is the root, or part of a node one step above. -/
lemma AtDepth.inv {depth id : Nat} (h : arena.AtDepth depth id) : depth = 0 ∧ id = 0 ∨
    ∃ above parent s, depth = above + 1 ∧ s ∈ arena.children parent ∧ s.node = id ∧
      arena.AtDepth above parent := by
  cases h with
  | root => exact .inl ⟨rfl, rfl⟩
  | part h hs => exact .inr ⟨_, _, _, rfl, hs, rfl, h⟩

/-- A node of a document is at one depth. -/
theorem AtDepth.unique {depth depth' id : Nat} (h : (ofJson value).AtDepth depth id)
    (h' : (ofJson value).AtDepth depth' id) : depth = depth' := by
  induction h generalizing depth' with
  | root =>
    rcases h'.inv with ⟨rfl, -⟩ | ⟨_, parent, s, -, hs, hzero, -⟩
    · rfl
    · exact absurd (ofJson_wellFormed value parent s hs).1 (by omega)
  | @part depth id s h hs ih =>
    rcases h'.inv with ⟨-, hzero⟩ | ⟨above, parent, t, rfl, ht, hsame, habove⟩
    · exact absurd (ofJson_wellFormed value id s hs).1 (by omega)
    · obtain rfl := parent_unique ht hs hsame
      rw [ih habove]

/-- Below a node the depth only grows. -/
lemma Reachable.atDepth {depth id root : Nat} (h : arena.Reachable root id)
    (hroot : arena.AtDepth depth root) : ∃ deep, depth ≤ deep ∧ arena.AtDepth deep id := by
  induction h with
  | root => exact ⟨depth, Nat.le_refl _, hroot⟩
  | part _ hs ih =>
    obtain ⟨deep, hle, hdeep⟩ := ih
    exact ⟨deep + 1, Nat.le_succ_of_le hle, hdeep.part hs⟩

end Arena

/-! ### Chains -/

namespace Resolved

open Arena

variable {r last : Resolved} {step : Step} {depth : Nat}

lemma step_eq_ok {selection : Selection} (h : r.stepSelection step = .ok selection) :
    r.step step = .ok (r.select selection) := by
  rw [Resolved.step, h]
  rfl

/-- Steps that succeed together succeed one by one. -/
lemma foldlM_cons_eq_ok {rest : List Step}
    (h : (step :: rest).foldlM Resolved.step r = .ok last) : ∃ selection,
      r.stepSelection step = .ok selection ∧
        rest.foldlM Resolved.step (r.select selection) = .ok last := by
  rw [List.foldlM_cons] at h
  obtain ⟨next, hnext, hrest⟩ := Json.exists_of_bind_eq_ok h
  obtain ⟨selection, hselection, rfl⟩ := Json.exists_of_map_eq_ok hnext
  exact ⟨selection, hselection, hrest⟩

lemma foldlM_cons_of_ok {rest : List Step} {selection : Selection}
    (h : r.stepSelection step = .ok selection) : (step :: rest).foldlM Resolved.step r
      = rest.foldlM Resolved.step (r.select selection) := by
  rw [List.foldlM_cons, step_eq_ok h]
  rfl

/-- The last step may be taken off. -/
lemma foldlM_concat_eq_ok {front : List Step} :
    (front ++ [step]).foldlM Resolved.step r = .ok last ↔
      ∃ mid, front.foldlM Resolved.step r = .ok mid ∧ mid.step step = .ok last := by
  rw [List.foldlM_append]
  cases front.foldlM Resolved.step r with
  | error cause => exact ⟨nofun, nofun⟩
  | ok mid =>
    have hlast : [step].foldlM Resolved.step mid = mid.step step := bind_pure _
    change [step].foldlM Resolved.step mid = .ok last ↔ _
    simp [hlast]

/-- A local step stays at the depth or goes one level down. -/
lemma stepSelection_depth (hlocal : step.isLocal = true)
    (hdepth : ∀ x ∈ r.selection.toList, r.arena.AtDepth depth x.node) {selection : Selection}
    (h : r.stepSelection step = .ok selection) : ∀ x ∈ selection.toList,
      r.arena.AtDepth (if r.selection.descends step then depth + 1 else depth) x.node := by
  -- The step is compared with itself.
  have hself : Selection.Related (fun x y => x = y ∧ r.arena.AtDepth depth x.node) r.selection
      r.selection := by
    cases hselection : r.selection with
    | nothing => exact .nothing
    | single s => exact .single ⟨rfl, hdepth s (by simp [hselection, Selection.toList])⟩
    | multiple items =>
      exact .multiple (List.forall₂_same.mpr fun x hx =>
        ⟨rfl, hdepth x (by simpa [hselection, Selection.toList] using hx)⟩)
  cases hdown : r.selection.descends step with
  | false =>
    have hrelated := stepSelection_along hlocal hself hdown
    rw [h] at hrelated
    obtain ⟨_, -, hselection⟩ := hrelated.exists_ok
    exact hselection.forall_left fun _ _ hxy => hxy.2
  | true =>
    have hrelated := stepSelection_down (Q := fun x _ => r.arena.AtDepth (depth + 1) x.node)
      hlocal hself hdown fun s _ t hst => by
        obtain ⟨rfl, hs⟩ := hst
        exact ⟨rfl, rfl, rfl, List.forall₂_same.mpr fun c hc => ⟨hs.part hc, rfl⟩⟩
    rw [h] at hrelated
    obtain ⟨_, -, hselection⟩ := hrelated.exists_ok
    exact hselection.forall_left fun _ _ hxy => hxy

/-- So all that a chain of local steps selects is at one depth, and no higher than where
the chain starts. -/
lemma chain_depth (chain : List Step) (hlocal : ∀ step ∈ chain, step.isLocal = true)
    (hdepth : ∀ x ∈ r.selection.toList, r.arena.AtDepth depth x.node)
    (h : chain.foldlM Resolved.step r = .ok last) : last.arena = r.arena ∧ last.root = r.root ∧
      ∃ deep, depth ≤ deep ∧ ∀ x ∈ last.selection.toList, r.arena.AtDepth deep x.node := by
  induction chain generalizing r depth with
  | nil =>
    obtain rfl : r = last := Except.ok.inj h
    exact ⟨rfl, rfl, depth, Nat.le_refl _, hdepth⟩
  | cons step rest ih =>
    obtain ⟨selection, hselection, hrest⟩ := foldlM_cons_eq_ok h
    have hnext := stepSelection_depth (hlocal step List.mem_cons_self) hdepth hselection
    obtain ⟨harena, hroot, deep, hle, hdeep⟩ := ih (fun step hstep =>
      hlocal step (List.mem_cons_of_mem _ hstep)) hnext hrest
    refine ⟨harena, hroot, deep, Nat.le_trans ?_ hle, hdeep⟩
    split <;> omega

/-- A chain of structural steps keeps to the document. -/
lemma chain_pointsInto {value : Json} (h : r.PointsInto value)
    (chain : List Step) (hchain : chain.foldlM Resolved.step r = .ok last) :
    last.PointsInto value := by
  induction chain generalizing r with
  | nil => exact Except.ok.inj hchain ▸ h
  | cons step rest ih =>
    obtain ⟨selection, hselection, hrest⟩ := foldlM_cons_eq_ok hchain
    have hnext := h.step step
    rw [step_eq_ok hselection] at hnext
    exact ih hnext hrest

end Resolved

end Verdict
