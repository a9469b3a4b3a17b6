/-
The order of what a recursive step finds.

A recursive step goes through the nodes of a subtree in document order and takes from each
of them the part that it looks for.  So what it finds is in the order of the nodes that it
is found in, which need not be its own: a part is visited when its turn comes, but taken
when that of its node comes.

* `pairwise_iff_of_increasing`: relations along an increasing list.
* `Arena.exists_reachable_iff`: what is reached from a node is an interval.
* `Arena.Reachable.lt_sibling`: a subtree stands before the later siblings of its root.
* `Arena.Foremost`: nothing of a kind is below an earlier sibling of a part of the kind.
* `Arena.increasing_found_iff`: exactly then the parts of the kind are found in document order.
* `Resolved.recursive_steps_ordered_iff`: the three recursive steps.
* `Resolved.recursiveKey_unordered`: a member that is found before an earlier one.
-/
import Verdict.Proofs.Selection.Recursive

namespace Verdict

/-- In a strictly increasing list, a relation holds in the order of the list exactly if it
holds of all numbers of the list in their own order. -/
lemma pairwise_iff_of_increasing {l : List Nat} {R : Nat → Nat → Prop}
    (hl : l.Pairwise (· < ·)) :
    l.Pairwise R ↔ ∀ a ∈ l, ∀ b ∈ l, a < b → R a b := by
  induction l with
  | nil => simp
  | cons head rest ih =>
    obtain ⟨hhead, hrest⟩ := List.pairwise_cons.mp hl
    rw [List.pairwise_cons, ih hrest]
    constructor
    · rintro ⟨hfirst, hothers⟩ a ha b hb hlt
      rcases List.mem_cons.mp ha with rfl | harest
      · exact hfirst b ((List.mem_cons.mp hb).resolve_left (Nat.ne_of_gt hlt))
      · have hbrest : b ∈ rest := by
          refine (List.mem_cons.mp hb).resolve_left fun heq => ?_
          have := hhead a harest
          omega
        exact hothers a harest b hbrest hlt
    · intro h
      exact ⟨fun b hb => h head List.mem_cons_self b (List.mem_cons_of_mem _ hb) (hhead b hb),
        fun a ha b hb => h a (List.mem_cons_of_mem _ ha) b (List.mem_cons_of_mem _ hb)⟩

namespace Arena

variable {arena : Arena} {value : Json}

/-! ### Subtrees of a document -/

/-- The numbers of a subtree are those from its root on, up to some bound. -/
lemma exists_reachable_iff {root : Nat} (hroot : root < (ofJson value).nodes.size) :
    ∃ size, ∀ id, (ofJson value).Reachable root id ↔ root ≤ id ∧ id < root + size := by
  have hwell := ofJson_wellFormed value
  obtain ⟨part, hpart⟩ := exists_holds hroot
  refine ⟨(flatten root part).length, fun id => ?_⟩
  rw [← mem_subtree hwell, subtree_of_holds hwell root part hpart, List.mem_range'_1]

lemma Reachable.inv {root id : Nat} (h : arena.Reachable root id) :
    id = root ∨ ∃ parent s, arena.Reachable root parent ∧ s ∈ arena.children parent ∧
      s.node = id := by
  cases h with
  | root => exact .inl rfl
  | part hparent hs => exact .inr ⟨_, _, hparent, hs, rfl⟩

lemma Reachable.trans {root id below : Nat} (h : arena.Reachable root id)
    (hbelow : arena.Reachable id below) : arena.Reachable root below := by
  induction hbelow with
  | root => exact h
  | part _ hs ih => exact ih.part hs

lemma Reachable.le (hwell : arena.WellFormed) {root id : Nat} (h : arena.Reachable root id) :
    root ≤ id := by
  induction h with
  | root => exact Nat.le_refl root
  | @part parent s _ hs ih =>
    calc root ≤ parent := ih
      _ ≤ s.node := Nat.le_of_lt (hwell parent s hs).1

/-- All that is reached from a part stands before the later parts of the same node. -/
lemma Reachable.lt_sibling {id below : Nat} {c x : Selected}
    (hc : c ∈ (ofJson value).children id) (hx : x ∈ (ofJson value).children id)
    (hlt : c.node < x.node) (h : (ofJson value).Reachable c.node below) : below < x.node := by
  have hwell := ofJson_wellFormed value
  obtain ⟨hafter, hsize⟩ := hwell id c hc
  by_contra hge
  -- Otherwise the later part is in the subtree of the earlier one, and so is their parent.
  obtain ⟨size, hinterval⟩ := exists_reachable_iff hsize
  have hbelow := (hinterval below).mp h
  have hreach : (ofJson value).Reachable c.node x.node := (hinterval x.node).mpr (by omega)
  rcases hreach.inv with heq | ⟨parent, s, hparent, hs, hnode⟩
  · omega
  · obtain rfl : parent = id := parent_unique hs hx hnode
    have := hparent.le hwell
    omega

/-! ### The order of what is found -/

/-- Below the parts that stand before one of the kind in the same node, there is none of the
kind. -/
def Foremost (arena : Arena) (kind : Nat → Selected → Prop) (root : Nat) : Prop :=
  ∀ id x, arena.Reachable root id → kind id x →
    ∀ c ∈ arena.children id, c.node < x.node →
      ∀ below y, arena.Reachable c.node below → ¬ kind below y

section Kind

variable {kind : Nat → Selected → Prop} {pick : Nat → Option Selected}
  (hkind : ∀ id x, kind id x → x ∈ (ofJson value).children id)

include hkind

/-- Parts of a kind come in the order of the nodes that they are in, unless the node of one
is below an earlier sibling of the other. -/
lemma foremost_iff {root : Nat} : (ofJson value).Foremost kind root ↔
    ∀ id, (ofJson value).Reachable root id → ∀ below, (ofJson value).Reachable root below →
      id < below → ∀ x, kind id x → ∀ y, kind below y → x.node < y.node := by
  have hwell := ofJson_wellFormed value
  constructor
  · intro hforemost id hid below hbelow hlt x hx y hy
    have hpart := hkind id x hx
    obtain ⟨hafter, hsize⟩ := hwell id x hpart
    have hbehind := (hwell below y (hkind below y hy)).1
    by_contra hge
    have hne : x.node ≠ y.node := by
      intro heq
      have := parent_unique hpart (hkind below y hy) heq
      omega
    -- The second node stands between the first one and its part, so below an earlier part.
    obtain ⟨size, hinterval⟩ := exists_reachable_iff (Nat.lt_trans hafter hsize)
    have hin := (hinterval x.node).mp (Reachable.root.part hpart)
    have hreach : (ofJson value).Reachable id below := (hinterval below).mpr (by omega)
    rcases hreach.cases_head with heq | ⟨c, hc, hdown⟩
    · omega
    · have hcle := hdown.le hwell
      exact hforemost id x hid hx c hc (by omega) below y hdown hy
  · intro h id x hid hx c hc hlt below y hdown hy
    have hpart := hkind id x hx
    have hbefore := (hwell id c hc).1
    have hcle := hdown.le hwell
    have hxy := h id hid below (hid.trans (hdown.head hc)) (by omega) x hx y hy
    have hyx := Reachable.lt_sibling hc hpart hlt (hdown.part (hkind below y hy))
    omega

/-- What is found in the order of a subtree is in the order of the document exactly where
nothing of the kind is below an earlier sibling. -/
lemma increasing_found_iff (hpick : ∀ id x, pick id = some x ↔ kind id x) (root : Nat) :
    ((((ofJson value).subtree root).filterMap pick).map Selected.node).Pairwise (· < ·) ↔
      (ofJson value).Foremost kind root := by
  have hwell := ofJson_wellFormed value
  rw [foremost_iff hkind, List.pairwise_map, List.pairwise_filterMap,
    pairwise_iff_of_increasing (subtree_increasing value root)]
  simp only [hpick, mem_subtree hwell]

end Kind

end Arena

namespace Resolved

open Arena

/-- Everything below a selected node comes in document order, and members of a name and
elements at a position do exactly where none of them is below an earlier sibling of
another one: a recursive step takes them in the order of the nodes that they are in. -/
theorem recursive_steps_ordered_iff (value : Json) (root : Nat) (s : Selected) :
    let r : Resolved := ⟨ofJson value, root, .single s⟩
    (∀ name, ∃ found, r.step (.recursiveKey name) = .ok (r.select (.multiple found)) ∧
      ((found.map Selected.node).Pairwise (· < ·) ↔
        r.arena.Foremost (r.arena.IsMember name) s.node)) ∧
    (∀ position, ∃ found,
      r.step (.recursiveIndex position) = .ok (r.select (.multiple found)) ∧
      ((found.map Selected.node).Pairwise (· < ·) ↔
        r.arena.Foremost (r.arena.IsElement position) s.node)) ∧
    ∃ found, r.step .recursiveWildcard = .ok (r.select (.multiple found)) ∧
      (found.map Selected.node).Pairwise (· < ·) := by
  intro r
  have hselects : r.selection ≠ .nothing := nofun
  have halone {f : Selected → List Selected} : r.selection.toList.flatMap f = f s :=
    List.flatMap_singleton f s
  refine ⟨fun name => ⟨_, step_recursiveKey hselects name, ?_⟩,
    fun position => ⟨_, step_recursiveIndex hselects position, ?_⟩,
    _, step_recursiveWildcard hselects, ?_⟩
  · rw [halone]
    exact increasing_found_iff (fun _ _ => IsMember.mem_children) (fun _ _ => isMember_iff) s.node
  · rw [halone]
    exact increasing_found_iff (fun _ _ => IsElement.mem_children)
      (fun _ _ => element?_eq_some) s.node
  · rw [halone]
    exact (List.pairwise_cons.mp (subtree_increasing value s.node)).2

/-- A member that stands behind another one of its name is found before it, because the
object that it is a member of is visited first. -/
theorem recursiveKey_unordered :
    let value : Json := .object [("a", .object [("k", .ofNat 1)]), ("k", .ofNat 2)]
    let r : Resolved := ⟨ofJson value, 0, .single ⟨0, none⟩⟩
    let found : List Selected := [⟨3, some ⟨0, .key "k"⟩⟩, ⟨2, some ⟨1, .key "k"⟩⟩]
    r = ofValue (.defined value) ∧
      r.step (.recursiveKey "k") = .ok (r.select (.multiple found)) ∧
      ¬ (found.map Selected.node).Pairwise (· < ·) := by
  intro value r found
  exact ⟨rfl, by cbv, by decide⟩

end Resolved

end Verdict
