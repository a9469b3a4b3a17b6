/-
Edits of a document agree with the rewriting of its value.

The visits go down through the numbers of the nodes, so the visits of a part and
of what is below it stand together, behind those of the later parts.  They touch
the nodes of the part and the slot in its parent, and nothing that was visited
before.

* `Descending`, `lastToFirst_descending`: the order of visits.
* `within`: the visits in a range of numbers.
* `Draft.HandlesResolve`: no visit meets a handle whose slot is gone.
* `Settles`: visits come out as a reference does.
* `Settles.child`: the visits of one part, from those below it.
* `settles_parts`: the visits below a value, by recursion on the value.
* `Resolved.edit_parts`, `Resolved.edit_root`: the edit of a document, in its parts or
  as a whole.
-/
import Verdict.Proofs.Evaluation.Rewriting
import Verdict.Proofs.Selection.Changing
import Verdict.Proofs.Selection.Positions

namespace Verdict

/-! ### The order of visits -/

/-- Each target stands before those with smaller numbers. -/
def Descending (targets : List Selected) : Prop :=
  targets.Pairwise fun s t => t.node < s.node

lemma mem_insertDescending {t s : Selected} {done : List Selected}
    (h : s ∈ insertDescending t done) : s = t ∨ s ∈ done := by
  induction done with
  | nil => exact .inl (List.mem_singleton.mp h)
  | cons d rest ih =>
    rw [insertDescending] at h
    split at h
    · exact List.mem_cons.mp h
    · split at h
      · rcases List.mem_cons.mp h with h | h
        · exact .inl h
        · exact .inr (List.mem_cons_of_mem _ h)
      · rcases List.mem_cons.mp h with rfl | h
        · exact .inr List.mem_cons_self
        · exact (ih h).imp_right (List.mem_cons_of_mem _)

lemma insertDescending_descending (t : Selected) {done : List Selected} (h : Descending done) :
    Descending (insertDescending t done) := by
  induction done with
  | nil => exact List.pairwise_singleton _ _
  | cons d rest ih =>
    obtain ⟨hd, hrest⟩ := List.pairwise_cons.mp h
    rw [insertDescending]
    split
    · rename_i hlt
      refine List.pairwise_cons.mpr ⟨fun s hs => ?_, h⟩
      rcases List.mem_cons.mp hs with rfl | hs
      · exact hlt
      · exact Nat.lt_trans (hd s hs) hlt
    · split
      · rename_i heq
        exact List.pairwise_cons.mpr ⟨fun s hs => heq ▸ hd s hs, hrest⟩
      · refine List.pairwise_cons.mpr ⟨fun s hs => ?_, ih hrest⟩
        rcases mem_insertDescending hs with rfl | hs
        · omega
        · exact hd s hs

/-- The nodes among the targets, after an insertion. -/
lemma exists_node_insertDescending {t : Selected} {done : List Selected} {id : Nat} :
    (∃ s ∈ insertDescending t done, s.node = id) ↔ t.node = id ∨ ∃ s ∈ done, s.node = id := by
  induction done with
  | nil => simp [insertDescending]
  | cons d rest ih =>
    rw [insertDescending]
    split
    · simp only [List.mem_cons, exists_eq_or_imp]
    · split
      · rename_i heq
        simp only [List.mem_cons, exists_eq_or_imp, heq]
        tauto
      · simp only [List.mem_cons, exists_eq_or_imp, ih]
        tauto

section Order

variable (targets : List Selected)

private lemma foldl_insertDescending (done : List Selected) (h : Descending done) :
    let visits := targets.foldl (fun done t => insertDescending t done) done
    Descending visits ∧ (∀ s ∈ visits, s ∈ done ∨ s ∈ targets) ∧
      ∀ id, (∃ s ∈ visits, s.node = id) ↔
        (∃ s ∈ done, s.node = id) ∨ ∃ s ∈ targets, s.node = id := by
  induction targets generalizing done with
  | nil => exact ⟨h, fun s hs => .inl hs, fun id => by simp⟩
  | cons t rest ih =>
    obtain ⟨hdescending, hmem, hnodes⟩ := ih _ (insertDescending_descending t h)
    refine ⟨hdescending, fun s hs => ?_, fun id => ?_⟩
    · rcases hmem s hs with hs | hs
      · rcases mem_insertDescending hs with rfl | hs
        · exact .inr List.mem_cons_self
        · exact .inl hs
      · exact .inr (List.mem_cons_of_mem _ hs)
    · rw [List.foldl_cons, hnodes, exists_node_insertDescending, or_assoc, or_left_comm]
      simp only [List.mem_cons, exists_eq_or_imp]

/-- The visits go down through the numbers, so each node is visited once. -/
theorem lastToFirst_descending : Descending (lastToFirst targets) :=
  (foldl_insertDescending targets [] List.Pairwise.nil).1

lemma mem_of_mem_lastToFirst {s : Selected} (h : s ∈ lastToFirst targets) : s ∈ targets :=
  ((foldl_insertDescending targets [] List.Pairwise.nil).2.1 s h).resolve_left (by simp)

/-- Every target's node is visited. -/
theorem exists_node_lastToFirst {id : Nat} :
    (∃ s ∈ lastToFirst targets, s.node = id) ↔ ∃ s ∈ targets, s.node = id := by
  refine ((foldl_insertDescending targets [] List.Pairwise.nil).2.2 id).trans ?_
  simp

end Order

/-! ### Ranges of visits -/

/-- The targets with numbers from `low` on and below `high`. -/
def within (targets : List Selected) (low high : Nat) : List Selected :=
  targets.filter fun t => decide (low ≤ t.node ∧ t.node < high)

lemma mem_within {targets : List Selected} {low high : Nat} {t : Selected} :
    t ∈ within targets low high ↔ t ∈ targets ∧ low ≤ t.node ∧ t.node < high := by
  rw [within, List.mem_filter, decide_eq_true_iff]

lemma within_cons (t : Selected) (rest : List Selected) (low high : Nat) :
    within (t :: rest) low high =
      if low ≤ t.node ∧ t.node < high then t :: within rest low high else within rest low high := by
  simp only [within, List.filter_cons, decide_eq_true_iff]

lemma within_eq_nil {targets : List Selected} {low high : Nat}
    (h : ∀ t ∈ targets, low ≤ t.node → high ≤ t.node) : within targets low high = [] := by
  rw [List.eq_nil_iff_forall_not_mem]
  intro t ht
  obtain ⟨hmem, hlow, hhigh⟩ := mem_within.mp ht
  exact Nat.not_le_of_lt hhigh (h t hmem hlow)

/-- The visits in a range are those in its upper part and then those in its lower
part. -/
lemma within_append {targets : List Selected} (h : Descending targets) {low middle high : Nat}
    (hlow : low ≤ middle) (hhigh : middle ≤ high) :
    within targets low high = within targets middle high ++ within targets low middle := by
  induction targets with
  | nil => rfl
  | cons t rest ih =>
    obtain ⟨ht, hrest⟩ := List.pairwise_cons.mp h
    rw [within_cons, within_cons t rest middle, within_cons t rest low middle, ih hrest]
    by_cases hupper : middle ≤ t.node
    · have hinside : ¬ (low ≤ t.node ∧ t.node < middle) := by omega
      rw [if_neg hinside]
      by_cases hhigh : t.node < high
      · rw [if_pos (by omega), if_pos ⟨hupper, hhigh⟩, List.cons_append]
      · rw [if_neg (by omega), if_neg (by omega)]
    · -- Every later target is smaller still, so none is in the upper part.
      have hnone : within rest middle high = [] :=
        within_eq_nil fun s hs hmiddle => by
          have := ht s hs
          omega
      have hnot : ¬ (middle ≤ t.node ∧ t.node < high) := fun hmiddle => hupper hmiddle.1
      rw [if_neg hnot, hnone, List.nil_append, List.nil_append]
      by_cases hinside : low ≤ t.node
      · rw [if_pos (by omega), if_pos (by omega)]
      · rw [if_neg (by omega), if_neg (by omega)]

/-- The visits of a single node. -/
lemma within_self {targets : List Selected} (h : Descending targets) (id : Nat) :
    (∃ t ∈ targets, t.node = id ∧ within targets id (id + 1) = [t]) ∨
      (¬ ∃ t ∈ targets, t.node = id) ∧ within targets id (id + 1) = [] := by
  induction targets with
  | nil => exact .inr ⟨by simp, rfl⟩
  | cons t rest ih =>
    obtain ⟨ht, hrest⟩ := List.pairwise_cons.mp h
    rw [within_cons]
    by_cases hid : t.node = id
    · have hnone : within rest id (id + 1) = [] :=
        within_eq_nil fun s hs hlow => by
          have := ht s hs
          omega
      rw [if_pos (by omega), hnone]
      exact .inl ⟨t, List.mem_cons_self, hid, rfl⟩
    · rw [if_neg (by omega)]
      rcases ih hrest with ⟨s, hs, hnode, hone⟩ | ⟨hnot, hnone⟩
      · exact .inl ⟨s, List.mem_cons_of_mem _ hs, hnode, hone⟩
      · refine .inr ⟨?_, hnone⟩
        rintro ⟨s, hs, hnode⟩
        rcases List.mem_cons.mp hs with rfl | hs
        · exact hid hnode
        · exact hnot ⟨s, hs, hnode⟩

/-! ### Visits and references -/

namespace Draft

/-- Each handle resolves at the moment of its visit. -/
def HandlesResolve (f : Replacer) (root : Nat) : List Selected → Draft → Prop
  | [], _ => True
  | t :: rest, draft => (∀ handle ∈ t.handle, draft.arena.Resolves handle) ∧
      ∀ next, draft.visit f root t = .ok next → HandlesResolve f root rest next

lemma handlesResolve_append {f : Replacer} {root : Nat} {targets more : List Selected}
    {draft : Draft} (h : HandlesResolve f root targets draft)
    (hmore : ∀ next, targets.foldlM (visit f root) draft = .ok next →
      HandlesResolve f root more next) : HandlesResolve f root (targets ++ more) draft := by
  induction targets generalizing draft with
  | nil => exact hmore draft rfl
  | cons t rest ih =>
    refine ⟨h.1, fun next hnext => ih (h.2 next hnext) fun last hlast => hmore last ?_⟩
    rw [List.foldlM_cons, hnext]
    exact hlast

end Draft

variable {α β : Type} {f : Replacer} {root : Nat}

/-- The visits come out as the reference does: they fail where it fails, and
where it has a result, the arena then stands to it in the given relation. No
handle is stale on the way, and the root stays. -/
structure Settles (f : Replacer) (root : Nat) (targets : List Selected) (arena : Arena)
    (reference : Except EvalError α) (holds : Arena → α → Prop) : Prop where
  resolves : Draft.HandlesResolve f root targets ⟨arena, some root⟩
  fails : ∀ cause, reference = .error cause →
    targets.foldlM (Draft.visit f root) ⟨arena, some root⟩ = .error cause
  succeeds : ∀ result, reference = .ok result →
    ∃ after, targets.foldlM (Draft.visit f root) ⟨arena, some root⟩ = .ok ⟨after, some root⟩ ∧
      holds after result

namespace Settles

variable {targets more : List Selected} {arena : Arena} {reference : Except EvalError α}
  {holds : Arena → α → Prop}

lemma done {result : α} (h : holds arena result) : Settles f root [] arena (.ok result) holds where
  resolves := trivial
  fails _ hfail := by simp at hfail
  succeeds _ hok := ⟨arena, rfl, Except.ok.inj hok ▸ h⟩

lemma mono {holds' : Arena → α → Prop} (h : Settles f root targets arena reference holds)
    (hholds : ∀ after result, holds after result → holds' after result) :
    Settles f root targets arena reference holds' where
  resolves := h.resolves
  fails := h.fails
  succeeds result hresult := by
    obtain ⟨after, hfold, hafter⟩ := h.succeeds result hresult
    exact ⟨after, hfold, hholds after result hafter⟩

/-- Visits one after the other. -/
theorem append {next : α → Except EvalError β} {holds' : Arena → β → Prop}
    (h : Settles f root targets arena reference holds)
    (hmore : ∀ after result, holds after result →
      Settles f root more after (next result) holds') :
    Settles f root (targets ++ more) arena (reference >>= next) holds' := by
  cases hreference : reference with
  | error cause =>
    have hfold := h.fails cause hreference
    refine ⟨Draft.handlesResolve_append h.resolves fun last hlast => ?_, fun cause' hcause => ?_,
      fun result hresult => ?_⟩
    · rw [hfold] at hlast
      simp at hlast
    · obtain rfl : cause = cause' := Except.error.inj hcause
      rw [List.foldlM_append, hfold]
      rfl
    · exact absurd hresult (by simp [bind, Except.bind])
  | ok result =>
    obtain ⟨after, hfold, hafter⟩ := h.succeeds result hreference
    have hnext := hmore after result hafter
    have hall : (targets ++ more).foldlM (Draft.visit f root) ⟨arena, some root⟩
        = more.foldlM (Draft.visit f root) ⟨after, some root⟩ := by
      rw [List.foldlM_append, hfold]
      rfl
    refine ⟨Draft.handlesResolve_append h.resolves fun last hlast => ?_, fun cause hcause => ?_,
      fun last hlast => ?_⟩
    · rw [hfold] at hlast
      exact Except.ok.inj hlast ▸ hnext.resolves
    · rw [hall]
      exact hnext.fails cause hcause
    · rw [hall]
      exact hnext.succeeds last hlast

/-- The same visits for a reference that goes on without any. -/
lemma map {g : α → β} {holds' : Arena → β → Prop}
    (h : Settles f root targets arena reference holds)
    (hholds : ∀ after result, holds after result → holds' after (g result)) :
    Settles f root targets arena (g <$> reference) holds' := by
  have hdone : Settles f root (targets ++ []) arena (reference >>= fun result => .ok (g result))
      holds' :=
    h.append fun after result hafter => done (hholds after result hafter)
  rw [List.append_nil] at hdone
  rw [map_eq_pure_bind]
  exact hdone

end Settles

/-! ### Selected positions -/

/-- Whether the node at the end of a path is the one of a target. -/
def Arena.selects (arena : Arena) (targets : List Selected) (id : Nat) (path : List Slot) : Bool :=
  (arena.follow? id path).any fun node => targets.any fun t => t.node == node

lemma Arena.selects_nil {arena : Arena} {targets : List Selected} {id : Nat} :
    arena.selects targets id [] = true ↔ ∃ t ∈ targets, t.node = id := by
  simp [selects, follow?]

lemma Arena.selects_cons {arena : Arena} {id child : Nat} {slot : Slot}
    (h : arena.part? id slot = some child) (targets : List Selected) :
    (fun path => arena.selects targets id (slot :: path)) = arena.selects targets child := by
  funext path
  rw [selects, follow?, h]
  rfl

/-- The whole document is at the empty path, and nowhere else. -/
lemma Arena.selects_root_nil {value : Json} :
    (ofJson value).selects [⟨0, none⟩] 0 [] = true := by
  simp [selects, follow?]

lemma Arena.selects_root_cons {value : Json} (slot : Slot) (path : List Slot) :
    (ofJson value).selects [⟨0, none⟩] 0 (slot :: path) = false := by
  rw [selects]
  cases hfollow : (ofJson value).follow? 0 (slot :: path) with
  | none => rfl
  | some id =>
    have hid : id ≠ 0 := by
      rintro rfl
      have hempty : (ofJson value).follow? 0 [] = some 0 := rfl
      exact absurd (path_unique hfollow hempty) (by simp)
    simpa using hid.symm

/-- Targets in the order of their visits, with the handles that their nodes have
in the document. -/
structure Placed (source : Arena) (targets : List Selected) : Prop where
  descending : Descending targets
  unique : ∀ t ∈ targets, ∀ id, ∀ x ∈ source.children id, x.node = t.node → t = x

/-! ### The visits of one part -/

section Part

open Arena

variable {arena source : Arena} {targets : List Selected} {parent start high : Nat} {slot : Slot}
  {part : Nat → Node} {gone : Node}

/-- The arena with what stands in a slot exchanged for a value, or without the slot. -/
def Arena.exchange (arena : Arena) (parent : Nat) (part : Nat → Node) (gone : Node) :
    Option Json → Arena
  | some json => (arena.insert json).1.setNode parent (part arena.nodes.size)
  | none => arena.setNode parent gone

section Visit

variable (hhole : Node.Hole slot part gone) (hnode : arena.node? parent = some (part start))
include hhole hnode

lemma resolves_of_hole : arena.Resolves ⟨parent, slot⟩ :=
  ⟨⟨_, remove_eq hnode (hhole.erase? start)⟩, fun _ =>
    ⟨_, congrArg Prod.snd (replace_eq hnode (hhole.redirect? start _))⟩⟩

/-- A visit through a handle exchanges what stands in its slot. -/
lemma visit_eq (f : Replacer) (root : Nat) :
    Draft.visit f root ⟨arena, some root⟩ ⟨start, some ⟨parent, slot⟩⟩ =
      (fun outcome => ⟨arena.exchange parent part gone outcome, some root⟩) <$>
        f.outcome (arena.toJson start) := by
  rw [Draft.visit]
  match f.outcome (arena.toJson start) with
  | .error cause => rfl
  | .ok (some json) =>
    simp only [bind, Except.bind]
    rw [replace_eq hnode (hhole.redirect? start _)]
    rfl
  | .ok none =>
    simp only [bind, Except.bind]
    rw [remove_eq hnode (hhole.erase? start)]
    rfl

/-- An exchange touches the parent alone. -/
lemma exchange_kept (hwell : arena.WellFormed) (outcome : Option Json) :
    Kept (· = parent) arena (arena.exchange parent part gone outcome) ∧
      match outcome with
      | some json =>
        (arena.exchange parent part gone outcome).node? parent = some (part arena.nodes.size) ∧
          (arena.exchange parent part gone outcome).toJson arena.nodes.size = json
      | none => (arena.exchange parent part gone outcome).node? parent = some gone := by
  cases outcome with
  | none =>
    have hparts : ∀ c ∈ gone.parts, parent < c ∧ c < arena.nodes.size := fun c hc =>
      wellFormed_iff.mp hwell parent _ hnode c ((hhole.mem_parts start c).mpr (.inr hc))
    have hparent : parent < arena.nodes.size := lt_size_of_node? hnode
    exact ⟨.setNode hwell hparent hparts rfl, node?_setNode_self hparent _⟩
  | some json =>
    refine Kept.insert_setNode hwell hnode (fun c hc => ?_) json
    exact ((hhole.mem_parts _ c).mp hc).imp_right fun hc => (hhole.mem_parts start c).mpr (.inr hc)

/-- The visit of a part alone. -/
lemma Settles.visit (hwell : arena.WellFormed) :
    Settles f root [⟨start, some ⟨parent, slot⟩⟩] arena (f.outcome (arena.toJson start))
      fun after outcome => Kept (· = parent) arena after ∧
        match outcome with
        | some json => after.node? parent = some (part arena.nodes.size) ∧
            after.toJson arena.nodes.size = json
        | none => after.node? parent = some gone := by
  have hfold : [⟨start, some ⟨parent, slot⟩⟩].foldlM (Draft.visit f root) ⟨arena, some root⟩
      = (fun outcome => ⟨arena.exchange parent part gone outcome, some root⟩) <$>
        f.outcome (arena.toJson start) := by
    rw [List.foldlM_cons, visit_eq hhole hnode]
    exact bind_pure _
  refine ⟨⟨?_, fun _ _ => trivial⟩, fun cause hcause => ?_, fun outcome houtcome => ?_⟩
  · rintro _ ⟨⟩
    exact resolves_of_hole hhole hnode
  · rw [hfold, hcause]
    rfl
  · refine ⟨_, ?_, exchange_kept hhole hnode hwell outcome⟩
    rw [hfold, houtcome]
    rfl

end Visit

/-- The visits of a part, from those below it: at last it is visited itself, if it
is a target. -/
theorem Settles.child {value : Json} (h : Placed source targets)
    (hpart : source.part? parent slot = some start) (hbehind : parent < start)
    (hstart : start < arena.nodes.size) (hhigh : start < high)
    (hhole : Node.Hole slot part gone) (hnode : arena.node? parent = some (part start))
    (hbelow : Settles f root (within targets (start + 1) high) arena
      (value.rewriteParts f (source.selects targets start)) fun after below =>
        after.toJson start = below ∧ Kept (fun i => start ≤ i ∧ i < high) arena after) :
    Settles f root (within targets start high) arena
      (value.rewriteAt f (source.selects targets start)) fun after outcome =>
        Kept (fun i => i = parent ∨ start ≤ i ∧ i < high) arena after ∧
          match outcome with
          | some json => ∃ c, after.node? parent = some (part c) ∧ start ≤ c ∧ after.toJson c = json
          | none => after.node? parent = some gone := by
  rw [within_append h.descending (Nat.le_succ start) hhigh, Json.rewriteAt]
  refine hbelow.append fun after below hbelow => ?_
  obtain ⟨hjson, hkept⟩ := hbelow
  have hafter : after.node? parent = some (part start) :=
    (hkept.node? parent (lt_size_of_node? hnode) (by omega)).trans hnode
  have hkept' : Kept (fun i => i = parent ∨ start ≤ i ∧ i < high) arena after :=
    hkept.mono fun i _ hi => .inr hi
  rcases within_self h.descending start with ⟨t, ht, hid, hone⟩ | ⟨hnot, hnone⟩
  · -- The handle of the target is the one of the part.
    obtain rfl : t = ⟨start, some ⟨parent, slot⟩⟩ :=
      h.unique t ht parent _ (part?_mem_children hpart) hid.symm
    rw [hone, selects_nil.mpr ⟨_, ht, rfl⟩, ← hjson]
    refine (Settles.visit hhole hafter hkept.wellFormed).mono ?_
    rintro last outcome ⟨hlast, houtcome⟩
    refine ⟨hkept'.trans (hlast.mono fun i _ hi => .inl hi), ?_⟩
    match outcome with
    | some json =>
      exact ⟨after.nodes.size, houtcome.1,
        Nat.le_trans (Nat.le_of_lt hstart) hkept.grows, houtcome.2⟩
    | none => exact houtcome
  · rw [hnone, Bool.eq_false_iff.mpr (fun hselected => hnot (selects_nil.mp hselected))]
    exact .done ⟨hkept', start, hafter, Nat.le_refl _, hjson⟩

end Part

/-! ### All visits below a value -/

section Below

open Arena

variable {source : Arena} {targets : List Selected}

/-- What the visits in a list of items leave in the place of these items. -/
def ItemsAfter (arena : Arena) (parent start high : Nat) (pre post : List Nat) (after : Arena)
    (items : List Json) : Prop :=
  Kept (fun i => i = parent ∨ start ≤ i ∧ i < high) arena after ∧
    ∃ ids, after.node? parent = some (.array (pre ++ ids ++ post)) ∧
      ids.map after.toJson = items ∧ ∀ c ∈ ids, start ≤ c

/-- What the visits in a list of members leave in the place of these members. -/
def MembersAfter (arena : Arena) (parent start high : Nat) (pre post : List (String × Nat))
    (keys : List String) (after : Arena) (members : List (String × Json)) : Prop :=
  Kept (fun i => i = parent ∨ start ≤ i ∧ i < high) arena after ∧
    ∃ entries, after.node? parent = some (.object (pre ++ entries ++ post)) ∧
      (entries.map fun (key, c) => (key, after.toJson c)) = members ∧
      (entries.map Prod.fst).Sublist keys ∧ ∀ c ∈ entries.map Prod.snd, start ≤ c

/-- What the visits below a value leave in its place. -/
def BelowAfter (arena : Arena) (start high : Nat) (after : Arena) (below : Json) : Prop :=
  after.toJson start = below ∧ Kept (fun i => start ≤ i ∧ i < high) arena after

/-- A name among different ones stands nowhere else. -/
lemma key_not_mem {pre entries post : List (String × Nat)} {key : String} {c : Nat}
    (h : ((pre ++ (key, c) :: entries ++ post).map Prod.fst).Nodup) :
    key ∉ pre.map Prod.fst ∧ key ∉ entries.map Prod.fst ∧ key ∉ post.map Prod.fst := by
  rw [List.append_assoc, List.cons_append, List.map_append, List.map_cons, List.map_append] at h
  have h := (List.nodup_middle.mp h)
  obtain ⟨hkey, -⟩ := List.nodup_cons.mp h
  simpa only [List.mem_append, not_or] using hkey

section Cons

variable {arena : Arena} {parent start middle high : Nat} (h : Placed source targets)
  (hbehind : parent < start) (hmiddle : start < middle) (hhigh : middle ≤ high)
include h hbehind hmiddle hhigh

/-- The visits in a list of items are those of the later items and then those of
the first one. -/
lemma Settles.consItem {pre post behind ids : List Nat} {item : Json} {rest : List Json}
    (hstart : start < arena.nodes.size)
    (hsource : source.node? parent = some (.array (pre ++ start :: ids ++ behind)))
    (hrest : Settles f root (within targets middle high) arena
      (Json.rewriteItems f (source.selects targets parent) (pre.length + 1) rest)
      (ItemsAfter arena parent middle high (pre ++ [start]) post))
    (hitem : ∀ after, Kept (fun i => i = parent ∨ middle ≤ i ∧ i < high) arena after →
      Settles f root (within targets (start + 1) middle) after
        (item.rewriteParts f (source.selects targets start)) (BelowAfter after start middle)) :
    Settles f root (within targets start high) arena
      (Json.rewriteItems f (source.selects targets parent) pre.length (item :: rest))
      (ItemsAfter arena parent start high pre post) := by
  have hpart : source.part? parent (.index pre.length) = some start := by
    rw [part?_array hsource, List.append_assoc, List.getElem?_append_right (Nat.le_refl _),
      Nat.sub_self]
    rfl
  rw [Json.rewriteItems_cons, selects_cons hpart,
    within_append h.descending (Nat.le_of_lt hmiddle) hhigh]
  refine hrest.append fun after items hafter => ?_
  obtain ⟨hkept, later, hnode, hjson, hlater⟩ := hafter
  have hhole := Node.Hole.array pre (later ++ post)
  have hafter : after.node? parent = some (.array (pre ++ start :: (later ++ post))) := by
    simpa using hnode
  refine (hitem after hkept).child h hpart hbehind
    (Nat.lt_of_lt_of_le hstart hkept.grows) hmiddle hhole hafter |>.map ?_
  rintro last outcome ⟨hlast, houtcome⟩
  have hkept' : Kept (fun i => i = parent ∨ start ≤ i ∧ i < high) arena last :=
    (hkept.mono fun i _ hi => by omega).trans (hlast.mono fun i _ hi => by omega)
  -- The later items stand behind all that the first one touches.
  have hsame : later.map last.toJson = items := by
    rw [← hjson]
    refine List.map_congr_left fun c hc => hlast.toJson hkept.wellFormed ?_ fun i hi => ?_
    · exact (wellFormed_iff.mp hkept.wellFormed parent _ hnode c (by simp [Node.parts, hc])).2
    · have := hlater c hc
      omega
  cases outcome with
  | none =>
    refine ⟨hkept', later, ?_, hsame, fun c hc => ?_⟩
    · rw [List.append_assoc]
      exact houtcome
    · exact Nat.le_trans (Nat.le_of_lt hmiddle) (hlater c hc)
  | some json =>
    obtain ⟨c, hnode, hc, hread⟩ := houtcome
    refine ⟨hkept', c :: later, ?_, ?_, List.forall_mem_cons.mpr ⟨hc, fun d hd => ?_⟩⟩
    · rw [List.append_assoc]
      exact hnode
    · exact congrArg₂ List.cons hread hsame
    · exact Nat.le_trans (Nat.le_of_lt hmiddle) (hlater d hd)

/-- The visits in a list of members are those of the later members and then those
of the first one. -/
lemma Settles.consMember {pre post behind entries : List (String × Nat)} {key : String}
    {value : Json} {rest : List (String × Json)} (hstart : start < arena.nodes.size)
    (hsource : source.node? parent = some (.object (pre ++ (key, start) :: entries ++ behind)))
    (hpre : key ∉ pre.map Prod.fst) (hkeys : key ∉ rest.map Prod.fst)
    (hpost : key ∉ post.map Prod.fst)
    (hrest : Settles f root (within targets middle high) arena
      (Json.rewriteMembers f (source.selects targets parent) rest)
      (MembersAfter arena parent middle high (pre ++ [(key, start)]) post (rest.map Prod.fst)))
    (hvalue : ∀ after, Kept (fun i => i = parent ∨ middle ≤ i ∧ i < high) arena after →
      Settles f root (within targets (start + 1) middle) after
        (value.rewriteParts f (source.selects targets start)) (BelowAfter after start middle)) :
    Settles f root (within targets start high) arena
      (Json.rewriteMembers f (source.selects targets parent) ((key, value) :: rest))
      (MembersAfter arena parent start high pre post (((key, value) :: rest).map Prod.fst)) := by
  have hpart : source.part? parent (.key key) = some start := by
    rw [part?_object hsource, List.append_assoc]
    exact lookup_append_of_not_mem hpre _ _
  rw [Json.rewriteMembers_cons, selects_cons hpart,
    within_append h.descending (Nat.le_of_lt hmiddle) hhigh]
  refine hrest.append fun after members hafter => ?_
  obtain ⟨hkept, later, hnode, hjson, hsub, hlater⟩ := hafter
  have hhole : Node.Hole (.key key) (fun child => .object (pre ++ (key, child) :: (later ++ post)))
      (.object (pre ++ (later ++ post))) := by
    refine .object hpre ?_
    rw [List.map_append, List.mem_append, not_or]
    exact ⟨fun hmem => hkeys (hsub.subset hmem), hpost⟩
  have hafter : after.node? parent = some (.object (pre ++ (key, start) :: (later ++ post))) := by
    simpa using hnode
  refine (hvalue after hkept).child h hpart hbehind
    (Nat.lt_of_lt_of_le hstart hkept.grows) hmiddle hhole hafter |>.map ?_
  rintro last outcome ⟨hlast, houtcome⟩
  have hkept' : Kept (fun i => i = parent ∨ start ≤ i ∧ i < high) arena last :=
    (hkept.mono fun i _ hi => by omega).trans (hlast.mono fun i _ hi => by omega)
  -- The later members stand behind all that the first one touches.
  have hsame : (later.map fun (k, c) => (k, last.toJson c)) = members := by
    rw [← hjson]
    refine List.map_congr_left fun entry hentry => ?_
    obtain ⟨k, c⟩ := entry
    refine congrArg (k, ·) ?_
    have hmem : c ∈ later.map Prod.snd := List.mem_map_of_mem (f := Prod.snd) hentry
    refine hlast.toJson hkept.wellFormed ?_ fun i hi => ?_
    · refine (wellFormed_iff.mp hkept.wellFormed parent _ hnode c ?_).2
      simp only [Node.parts, List.map_append, List.mem_append]
      exact .inl (.inr hmem)
    · have := hlater c hmem
      omega
  cases outcome with
  | none =>
    refine ⟨hkept', later, ?_, hsame, hsub.cons _, fun c hc => ?_⟩
    · rw [List.append_assoc]
      exact houtcome
    · exact Nat.le_trans (Nat.le_of_lt hmiddle) (hlater c hc)
  | some json =>
    obtain ⟨c, hnode, hc, hread⟩ := houtcome
    refine ⟨hkept', (key, c) :: later, ?_, ?_, hsub.cons_cons _, ?_⟩
    · rw [List.append_assoc]
      exact hnode
    · exact congrArg₂ List.cons (congrArg (key, ·) hread) hsame
    · rw [List.map_cons, List.forall_mem_cons]
      exact ⟨hc, fun d hd => Nat.le_trans (Nat.le_of_lt hmiddle) (hlater d hd)⟩

end Cons

mutual

/-- The visits below a value come out as its rewriting. -/
theorem settles_parts (h : Placed source targets) (start : Nat) : (value : Json) →
    value.HasDistinctKeys → (arena : Arena) → arena.WellFormed →
    source.Holds start (flatten start value) → arena.Holds start (flatten start value) →
    Settles f root (within targets (start + 1) (start + (flatten start value).length)) arena
      (value.rewriteParts f (source.selects targets start))
      (BelowAfter arena start (start + (flatten start value).length))
  | .array items, hkeys, arena, hwell, hsource, harena => by
    have hitems := settles_items h (start + 1) items hkeys arena start [] [] [] hwell
      (Nat.lt_succ_self start) (by simpa using hsource.head) (by simpa using harena.head)
      hsource.tail harena.tail
    rw [flatten, List.length_cons, Json.rewriteParts, show start +
      ((flattenItems (start + 1) items).2.length + 1) =
        start + 1 + (flattenItems (start + 1) items).2.length by omega]
    refine hitems.map ?_
    rintro after items' ⟨hkept, ids, hnode, hjson, -⟩
    refine ⟨?_, hkept.mono fun i _ hi => by omega⟩
    rw [toJson_array hkept.wellFormed hnode]
    simpa using hjson
  | .object members, hkeys, arena, hwell, hsource, harena => by
    have hnodup : ((flattenMembers (start + 1) members).1.map Prod.fst).Nodup := by
      rw [map_fst_flattenMembers]
      exact hkeys.1
    have hmembers := settles_members h (start + 1) members hkeys.2 arena start [] [] [] hwell
      (Nat.lt_succ_self start) (by simpa using hsource.head) (by simpa using harena.head)
      (by simpa using hnodup) hsource.tail harena.tail
    rw [flatten, List.length_cons, Json.rewriteParts, show start +
      ((flattenMembers (start + 1) members).2.length + 1) =
        start + 1 + (flattenMembers (start + 1) members).2.length by omega]
    refine hmembers.map ?_
    rintro after members' ⟨hkept, entries, hnode, hjson, -, -⟩
    refine ⟨?_, hkept.mono fun i _ hi => by omega⟩
    rw [toJson_object hkept.wellFormed hnode]
    simpa using hjson
  | .null, _, arena, hwell, _, harena | .bool _, _, arena, hwell, _, harena
  | .number _, _, arena, hwell, _, harena | .string _, _, arena, hwell, _, harena => by
    rw [show start + (flatten start _).length = start + 1 from rfl,
      within_eq_nil fun _ _ hlow => hlow]
    exact .done ⟨toJson_of_holds hwell start _ harena, .refl hwell _⟩

/-- The visits in a list of items come out as its rewriting. -/
theorem settles_items (h : Placed source targets) (start : Nat) : (items : List Json) →
    Json.ItemsDistinct items → (arena : Arena) → (parent : Nat) → (pre post behind : List Nat) →
    arena.WellFormed → parent < start →
    source.node? parent = some (.array (pre ++ (flattenItems start items).1 ++ behind)) →
    arena.node? parent = some (.array (pre ++ (flattenItems start items).1 ++ post)) →
    source.Holds start (flattenItems start items).2 →
    arena.Holds start (flattenItems start items).2 →
    Settles f root (within targets start (start + (flattenItems start items).2.length)) arena
      (Json.rewriteItems f (source.selects targets parent) pre.length items)
      (ItemsAfter arena parent start (start + (flattenItems start items).2.length) pre post)
  | [], _, arena, parent, pre, post, behind, hwell, hbehind, _, hnode, _, _ => by
    rw [flattenItems, List.length_nil, Nat.add_zero, within_eq_nil fun _ _ hlow => hlow]
    exact .done ⟨.refl hwell _, [], hnode, rfl, by simp⟩
  | item :: rest, hkeys, arena, parent, pre, post, behind, hwell, hbehind, hsourceNode, hnode,
      hsource, harena => by
    rw [flattenItems_cons] at hsourceNode hnode hsource harena ⊢
    have hfirst := flatten_length_pos start item
    have hrest := settles_items h (start + (flatten start item).length) rest hkeys.2 arena parent
      (pre ++ [start]) post behind hwell (by omega) (by simpa using hsourceNode)
      (by simpa using hnode) hsource.right harena.right
    rw [List.length_append, List.length_singleton] at hrest
    rw [List.length_append, ← Nat.add_assoc]
    exact hrest.consItem h hbehind (by omega) (by omega) (harena.left.lt_size hfirst) hsourceNode
      fun after hkept => settles_parts h start item hkeys.1 after hkept.wellFormed hsource.left
        (hkept.holds harena.left fun i hi => by omega)

/-- The visits in a list of members come out as its rewriting. -/
theorem settles_members (h : Placed source targets) (start : Nat) :
    (members : List (String × Json)) → Json.MembersDistinct members → (arena : Arena) →
    (parent : Nat) → (pre post behind : List (String × Nat)) → arena.WellFormed →
    parent < start →
    source.node? parent = some (.object (pre ++ (flattenMembers start members).1 ++ behind)) →
    arena.node? parent = some (.object (pre ++ (flattenMembers start members).1 ++ post)) →
    ((pre ++ (flattenMembers start members).1 ++ post).map Prod.fst).Nodup →
    source.Holds start (flattenMembers start members).2 →
    arena.Holds start (flattenMembers start members).2 →
    Settles f root (within targets start (start + (flattenMembers start members).2.length)) arena
      (Json.rewriteMembers f (source.selects targets parent) members)
      (MembersAfter arena parent start (start + (flattenMembers start members).2.length) pre post
        (members.map Prod.fst))
  | [], _, arena, parent, pre, post, behind, hwell, hbehind, _, hnode, _, _, _ => by
    rw [flattenMembers, List.length_nil, Nat.add_zero, within_eq_nil fun _ _ hlow => hlow]
    exact .done ⟨.refl hwell _, [], hnode, rfl, List.nil_sublist _, by simp⟩
  | (key, value) :: rest, hkeys, arena, parent, pre, post, behind, hwell, hbehind, hsourceNode,
      hnode, hnodup, hsource, harena => by
    rw [flattenMembers_cons] at hsourceNode hnode hnodup hsource harena ⊢
    have hfirst := flatten_length_pos start value
    have hrest := settles_members h (start + (flatten start value).length) rest hkeys.2 arena
      parent (pre ++ [(key, start)]) post behind hwell (by omega) (by simpa using hsourceNode)
      (by simpa using hnode) (by simpa using hnodup) hsource.right harena.right
    rw [List.length_append, ← Nat.add_assoc]
    obtain ⟨hpre, hkeys', hpost⟩ := key_not_mem hnodup
    rw [map_fst_flattenMembers] at hkeys'
    exact hrest.consMember h hbehind (by omega) (by omega) (harena.left.lt_size hfirst)
      hsourceNode hpre hkeys' hpost fun after hkept =>
        settles_parts h start value hkeys.1 after hkept.wellFormed hsource.left
          (hkept.holds harena.left fun i hi => by omega)

end

end Below

/-! ### Edits -/

namespace Arena

/-- The selected node is the part of some node, and its handle says of which. -/
def IsPart (arena : Arena) (s : Selected) : Prop := ∃ id, s ∈ arena.children id

lemma selects_lastToFirst (arena : Arena) (targets : List Selected) (id : Nat) :
    arena.selects (lastToFirst targets) id = arena.selects targets id := by
  funext path
  rw [selects, selects]
  cases arena.follow? id path with
  | none => rfl
  | some node =>
    rw [Option.any_some, Option.any_some, Bool.eq_iff_iff, List.any_eq_true, List.any_eq_true]
    simpa using exists_node_lastToFirst targets

lemma placed_lastToFirst {value : Json} {targets : List Selected}
    (h : ∀ t ∈ targets, (ofJson value).IsPart t) :
    Placed (ofJson value) (lastToFirst targets) where
  descending := lastToFirst_descending targets
  unique t ht id _ hx hnode :=
    handle_unique (mem_links_iff.mpr (h t (mem_of_mem_lastToFirst targets ht)))
      (mem_links_iff.mpr ⟨id, hx⟩) hnode.symm

end Arena

lemma Draft.value_replaceRoot {draft : Draft} (h : draft.arena.WellFormed)
    (outcome : Option Json) : (draft.replaceRoot outcome).value =
      match outcome with
      | some json => .defined json
      | none => .undefined := by
  cases outcome with
  | none => rfl
  | some json =>
    exact congrArg Value.defined (Arena.toJson_of_holds (Arena.insert_wellFormed h json) _ json
      (Arena.holds_insert draft.arena json))

/-- The visit of a whole document replaces its root. -/
lemma Draft.visit_root (f : Replacer) (root : Nat) (draft : Draft) :
    draft.visit f root ⟨root, none⟩
      = draft.replaceRoot <$> f.onWhole (draft.arena.toJson root) := by
  by_cases hremoves : f.removes = true
  · have houtcome : f.outcome (draft.arena.toJson root) = .ok none := if_pos hremoves
    have hwhole : f.onWhole (draft.arena.toJson root)
        = .ok (draft.arena.toJson root).emptied? := if_pos hremoves
    rw [visit, hwhole]
    simp only [houtcome, if_pos hremoves]
    rfl
  · have hwhole : f.onWhole (draft.arena.toJson root) = f.outcome (draft.arena.toJson root) :=
      if_neg hremoves
    rw [visit, hwhole]
    match f.outcome (draft.arena.toJson root) with
    | .error cause => rfl
    | .ok (some json) => rfl
    | .ok none =>
      simp only [if_neg hremoves]
      rfl

section Edit

open Arena

variable {value : Json} {r : Resolved} {each : Bool} {targets : List Selected}
  (harena : r.arena = ofJson value) (hroot : r.root = 0) (htargets : r.targets each = .ok targets)
include harena hroot htargets

lemma Resolved.edit_eq (f : Replacer) : r.edit each f =
    match (lastToFirst targets).foldlM (Draft.visit f 0) ⟨ofJson value, some 0⟩ with
    | .ok draft => draft.value
    | .error cause => .error cause := by
  rw [edit, htargets, harena, hroot]
  rfl

/-- Parts of a document are rewritten where they are. -/
theorem Resolved.edit_parts (hkeys : value.HasDistinctKeys)
    (hparts : ∀ t ∈ targets, (ofJson value).IsPart t) (f : Replacer) :
    r.edit each f = value.rewritten f ((ofJson value).selects targets 0) ∧
      Draft.HandlesResolve f 0 (lastToFirst targets) ⟨ofJson value, some 0⟩ := by
  have hbounds : ∀ t ∈ lastToFirst targets, 1 ≤ t.node ∧ t.node < 0 + (flatten 0 value).length :=
    fun t ht => node_of_mem_linksFrom
      (mem_links_iff.mpr (hparts t (mem_of_mem_lastToFirst targets ht)))
  have hall : within (lastToFirst targets) (0 + 1) (0 + (flatten 0 value).length)
      = lastToFirst targets :=
    List.filter_eq_self.mpr fun t ht => decide_eq_true (hbounds t ht)
  have hunselected : (ofJson value).selects targets 0 [] = false := by
    rw [← selects_lastToFirst, Bool.eq_false_iff]
    intro hselected
    obtain ⟨t, ht, hzero⟩ := selects_nil.mp hselected
    have := (hbounds t ht).1
    omega
  have hsettles : Settles f 0 _ (ofJson value) _ _ :=
    settles_parts (placed_lastToFirst hparts) 0 value hkeys (ofJson value)
      (ofJson_wellFormed value) (holds_ofJson value) (holds_ofJson value)
  rw [hall, selects_lastToFirst] at hsettles
  refine ⟨?_, hsettles.resolves⟩
  rw [edit_eq harena hroot htargets, Json.rewritten]
  cases hreference : value.rewriteParts f ((ofJson value).selects targets 0) with
  | error cause => rw [hsettles.fails cause hreference]
  | ok below =>
    obtain ⟨after, hfold, hafter, -⟩ := hsettles.succeeds below hreference
    rw [hfold, hunselected, ← hafter]
    rfl

/-- A whole document becomes what the function makes of it. -/
theorem Resolved.edit_root (hone : targets = [⟨0, none⟩]) (f : Replacer) :
    r.edit each f = value.rewritten f ((ofJson value).selects targets 0) ∧
      Draft.HandlesResolve f 0 (lastToFirst targets) ⟨ofJson value, some 0⟩ := by
  subst hone
  refine ⟨?_, by simp, fun _ _ => trivial⟩
  have hfold : (lastToFirst [⟨0, none⟩]).foldlM (Draft.visit f 0) ⟨ofJson value, some 0⟩
      = Draft.replaceRoot ⟨ofJson value, some 0⟩ <$> f.onWhole value := by
    rw [show lastToFirst [⟨0, none⟩] = [⟨0, none⟩] from rfl, List.foldlM_cons,
      Draft.visit_root, toJson_ofJson]
    exact bind_pure _
  rw [edit_eq harena hroot htargets, hfold, Json.rewritten,
    Json.rewriteParts_of_unselected f value _ selects_root_cons]
  simp only [selects_root_nil]
  cases f.onWhole value with
  | error cause => rfl
  | ok outcome =>
    refine (Draft.value_replaceRoot (ofJson_wellFormed value) outcome).trans ?_
    cases outcome <;> rfl

end Edit

end Verdict
