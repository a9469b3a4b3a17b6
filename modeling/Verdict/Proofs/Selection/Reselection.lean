/-
A replaced part is selected again.

A part that alone is selected is replaced through its handle.  The rewritten document,
flattened anew, is as the old one was, apart from that part: as long as the steps of a
chain look into other nodes, they take the same ways in both.  The part, selected last,
lies deeper than whatever the local steps of a chain have looked into.  A recursive step
looks deeper, and so it may only be the last one, and only if it finds nothing below the
replacement.

* `Node.Corresponds`: nodes that are equal up to the numbers of their parts.
* `Arena.Twin`: nodes of the old and the rewritten document that stand for each other.
* `Arena.AlikeBesides`: all nodes but one are alike their twins.
* `Resolved.chain_twins`, `Resolved.recursive_twins`: chains of local steps, and recursive
  steps, select twins.
* `Resolved.reselects_replacement`: the part that was replaced is selected again.
-/
import Verdict.Proofs.Selection.Depth
import Verdict.Proofs.Selection.Replacement

namespace Verdict

/-- The value is no array and no object. -/
def Json.IsScalar (value : Json) : Prop := value.toArray? = none ∧ value.toObject? = none

/-! ### Corresponding nodes -/

namespace Node

/-- The nodes are equal up to the numbers of their parts, and these are related. -/
inductive Corresponds (R : Nat → Nat → Prop) : Node → Node → Prop
  | scalar (leaf : Json) : Corresponds R (.scalar leaf) (.scalar leaf)
  | array {ids ids' : List Nat} (h : List.Forall₂ R ids ids') :
      Corresponds R (.array ids) (.array ids')
  | object {members members' : List (String × Nat)}
      (h : List.Forall₂ (fun m m' => m.1 = m'.1 ∧ R m.2 m'.2) members members') :
      Corresponds R (.object members) (.object members')

/-- Nodes of one value correspond, if no array or object is among the scalars. -/
lemma corresponds_of_read {f g : Nat → Json} {node node' : Node}
    (hscalar : ∀ leaf, node = .scalar leaf → leaf.IsScalar)
    (hscalar' : ∀ leaf, node' = .scalar leaf → leaf.IsScalar)
    (h : node.read f = node'.read g) : Corresponds (fun n n' => f n = g n') node node' := by
  cases node with
  | scalar leaf =>
    cases node' with
    | scalar leaf' =>
      obtain rfl : leaf = leaf' := h
      exact .scalar leaf
    | array _ | object _ =>
      obtain rfl : leaf = _ := h
      simpa [Json.IsScalar, Json.toArray?, Json.toObject?, read] using hscalar _ rfl
  | array ids =>
    cases node' with
    | array ids' =>
      have hitems : ids.map f = ids'.map g := Json.array.inj h
      rw [← List.forall₂_eq_eq_eq, List.forall₂_map_left_iff, List.forall₂_map_right_iff] at hitems
      exact .array hitems
    | object _ => simp [read] at h
    | scalar leaf =>
      obtain rfl : _ = leaf := h
      simpa [Json.IsScalar, Json.toArray?, Json.toObject?, read] using hscalar' _ rfl
  | object members =>
    cases node' with
    | object members' =>
      have hmembers : members.map (fun m => (m.1, f m.2)) = members'.map fun m => (m.1, g m.2) :=
        Json.object.inj h
      rw [← List.forall₂_eq_eq_eq, List.forall₂_map_left_iff,
        List.forall₂_map_right_iff] at hmembers
      exact .object (hmembers.imp fun _ _ hm => Prod.mk.inj hm)
    | array _ => simp [read] at h
    | scalar leaf =>
      obtain rfl : _ = leaf := h
      simpa [Json.IsScalar, Json.toArray?, Json.toObject?, read] using hscalar' _ rfl

lemma Corresponds.links {R : Nat → Nat → Prop} {node node' : Node} (h : Corresponds R node node')
    (id id' : Nat) : List.Forall₂ (fun c c' => R c.node c'.node ∧ c.slot? = c'.slot?)
      (node.links id) (node'.links id') := by
  cases h with
  | scalar leaf => exact .nil
  | @array ids ids' h =>
    refine forall₂_of_getElem? (by simp [Node.links, h.length_eq]) fun i c d hc hd => ?_
    have hrel := forall₂_getElem? h i
    simp only [Node.links, List.getElem?_mapIdx, Option.map_eq_some_iff] at hc hd
    obtain ⟨n, hn, rfl⟩ := hc
    obtain ⟨m, hm, rfl⟩ := hd
    rw [hn, hm, Option.rel_some_some] at hrel
    exact ⟨hrel, rfl⟩
  | object h =>
    rw [Node.links, Node.links, List.forall₂_map_left_iff, List.forall₂_map_right_iff]
    exact h.imp fun m m' hm => ⟨hm.2, congrArg (fun key => some (Slot.key key)) hm.1⟩

end Node

namespace Arena

variable {arena : Arena} {value : Json}

/-- Corresponding nodes are alike. -/
lemma alike_of_corresponds {other : Arena} {id id' : Nat} {node node' : Node}
    {R : Nat → Nat → Prop} (hnode : arena.node? id = some node)
    (hnode' : other.node? id' = some node') (h : Node.Corresponds R node node') :
    Alike (fun c c' => c ∈ arena.children id ∧ c' ∈ other.children id' ∧ R c.node c'.node)
      arena other id id' := by
  have hlinks := h.links id id'
  rw [← children_of_node? hnode, ← children_of_node? hnode'] at hlinks
  have hchildren := forall₂_of_getElem? hlinks.length_eq fun i c d hc hd => by
    have hrel := forall₂_getElem? hlinks i
    rw [hc, hd, Option.rel_some_some] at hrel
    exact (⟨⟨List.mem_of_getElem? hc, List.mem_of_getElem? hd, hrel.1⟩, hrel.2⟩ :
      (c ∈ arena.children id ∧ d ∈ other.children id' ∧ R c.node d.node) ∧ c.slot? = d.slot?)
  cases h <;> exact ⟨by simp [isArray, hnode, hnode'], by simp [isObject, hnode, hnode'],
    by simp [kind, hnode, hnode'], hchildren⟩

/-- Arrays and objects of a document are nodes with parts. -/
lemma isScalar_of_node? {id : Nat} {leaf : Json}
    (h : (ofJson value).node? id = some (.scalar leaf)) : leaf.IsScalar := by
  obtain ⟨part, hpart⟩ := exists_holds (lt_size_of_node? h)
  match part, hpart with
  | .array _, hpart | .object _, hpart =>
    exact absurd (hpart.head.symm.trans h) (by simp)
  | .null, hpart | .bool _, hpart | .number _, hpart | .string _, hpart =>
    obtain rfl := Node.scalar.inj (Option.some.inj ((Holds.head hpart).symm.trans h))
    exact ⟨rfl, rfl⟩

/-- A node that is read as a scalar has no parts. -/
lemma children_of_isScalar {id : Nat} (h : ((ofJson value).toJson id).IsScalar) :
    (ofJson value).children id = [] := by
  cases hnode : (ofJson value).node? id with
  | none => exact children_of_none hnode
  | some node =>
    rw [toJson_eq_read (ofJson_wellFormed value) hnode] at h
    rw [children_of_node? hnode]
    cases node with
    | scalar leaf => rfl
    | array ids => exact absurd h.1 (by simp [Node.read, Json.toArray?])
    | object members => exact absurd h.2 (by simp [Node.read, Json.toObject?])

/-! ### Twins -/

/-- The node of the rewritten document is read as what the other one has become. -/
def ReadsAs (rewritten : Json) (after : Nat → Json) (x y : Selected) : Prop :=
  (ofJson rewritten).toJson y.node = after x.node

/-- The node of the rewritten document stands for the one at this depth. -/
structure Twin (value rewritten : Json) (after : Nat → Json) (depth : Nat) (x y : Selected) :
    Prop where
  depth : (ofJson value).AtDepth depth x.node
  present : y.node < (ofJson rewritten).nodes.size
  reads : ReadsAs rewritten after x y

/-- Every node but the part is alike its twins, and its parts are twins of theirs. -/
def AlikeBesides (part : Nat) (value rewritten : Json) (after : Nat → Json) : Prop :=
  ∀ depth x y, x.node ≠ part → Twin value rewritten after depth x y →
    Alike (Twin value rewritten after (depth + 1)) (ofJson value) (ofJson rewritten) x.node y.node

/-- It is so if every node but the part is read with what has become of its parts. -/
theorem alikeBesides_of_read {rewritten : Json} {after : Nat → Json} {part : Nat}
    (h : ∀ id node, (ofJson value).node? id = some node → id ≠ part → after id = node.read after) :
    AlikeBesides part value rewritten after := by
  intro depth x y hne htwin
  obtain ⟨node, hnode⟩ := exists_node? htwin.depth.lt_size
  obtain ⟨node', hnode'⟩ := exists_node? htwin.present
  have hreads : node.read after = node'.read (ofJson rewritten).toJson := by
    rw [← h x.node node hnode hne, ← htwin.reads,
      toJson_eq_read (ofJson_wellFormed rewritten) hnode']
  have hsame := Node.corresponds_of_read (fun leaf hleaf => isScalar_of_node? (hleaf ▸ hnode))
    (fun leaf hleaf => isScalar_of_node? (hleaf ▸ hnode')) hreads
  refine (alike_of_corresponds hnode hnode' hsame).mono fun c d ⟨hc, hd, hcd⟩ => ?_
  exact ⟨htwin.depth.part hc, (ofJson_wellFormed rewritten _ _ hd).2, hcd.symm⟩

end Arena

section Twins

open Arena

variable {value rewritten : Json} {after : Nat → Json} {part : Nat}

/-! ### Chains of local steps -/

namespace Resolved

variable {r r' last : Resolved} {depth deep : Nat}

/-- A chain of local steps selects twins, if it does not come below the depth of the part
that is not alike its twins. -/
theorem chain_twins (halike : AlikeBesides part value rewritten after)
    (hpart : (ofJson value).AtDepth deep part) (chain : List Step)
    (hlocal : ∀ step ∈ chain, step.isLocal = true) (harena : r.arena = ofJson value)
    (harena' : r'.arena = ofJson rewritten)
    (hsel : Selection.Related (Twin value rewritten after depth) r.selection r'.selection)
    (h : chain.foldlM Resolved.step r = .ok last)
    (hlast : ∃ x ∈ last.selection.toList, ∃ level ≤ deep, (ofJson value).AtDepth level x.node) :
    ∃ selection, chain.foldlM Resolved.step r' = .ok (r'.select selection) ∧
      ∃ level, Selection.Related (Twin value rewritten after level) last.selection selection := by
  induction chain generalizing r r' depth with
  | nil =>
    obtain rfl : r = last := Except.ok.inj h
    exact ⟨r'.selection, rfl, depth, hsel⟩
  | cons step rest ih =>
    have hstep := hlocal step List.mem_cons_self
    have hrestLocal : ∀ step ∈ rest, step.isLocal = true := fun step hmem =>
      hlocal step (List.mem_cons_of_mem _ hmem)
    obtain ⟨selection, hselection, hrest⟩ := foldlM_cons_eq_ok h
    obtain ⟨level, hrelated⟩ : ∃ level, Outcome.Related
        (Selection.Related (Twin value rewritten after level)) (r.stepSelection step)
        (r'.stepSelection step) := by
      cases hdown : r.selection.descends step with
      | false => exact ⟨depth, stepSelection_along hstep hsel hdown⟩
      | true =>
        refine ⟨depth + 1, stepSelection_down hstep hsel hdown fun s _ t hst => ?_⟩
        rw [harena, harena']
        refine halike depth s t (fun hsame => ?_) hst
        -- What is selected at last lies below the nodes that this step looks into.
        have hdepth : ∀ x ∈ r.selection.toList, r.arena.AtDepth depth x.node :=
          hsel.forall_left fun x y hxy => harena ▸ hxy.depth
        have hnext := stepSelection_depth hstep hdepth hselection
        rw [if_pos hdown] at hnext
        obtain ⟨-, -, level, hle, hlevel⟩ := chain_depth rest hrestLocal hnext hrest
        obtain ⟨x, hx, level', hdeep, hx'⟩ := hlast
        have hlevels : level = level' := AtDepth.unique (harena ▸ hlevel x hx) hx'
        have hdepths : depth = deep := AtDepth.unique hst.depth (hsame ▸ hpart)
        omega
    rw [hselection] at hrelated
    obtain ⟨other, hother, hselected⟩ := hrelated.exists_ok
    rw [foldlM_cons_of_ok hother]
    have hnext : (r.select selection).arena = ofJson value := harena
    have hnext' : (r'.select other).arena = ofJson rewritten := harena'
    exact ih hrestLocal hnext hnext' hselected hrest

end Resolved

/-! ### Recursive steps -/

/-- The steps to parts at any depth. -/
def Step.isRecursive : Step → Bool
  | .recursiveKey _ | .recursiveIndex _ | .recursiveWildcard => true
  | _ => false

/-- What a recursive step finds from a node on. -/
def Step.found (arena : Arena) (id : Nat) : Step → List Selected
  | .recursiveKey name => (arena.subtree id).filterMap (arena.member? · name)
  | .recursiveIndex position => (arena.subtree id).filterMap (arena.element? position)
  | .recursiveWildcard => arena.descendants id
  | _ => []

namespace Arena

lemma Alike.element? {R : Selected → Selected → Prop} {arena other : Arena} {id id' : Nat}
    (h : Alike R arena other id id') (position : Int) :
    Option.Rel R (arena.element? position id) (other.element? position id') := by
  have hrel := h.element position
  rw [Arena.element?, Arena.element?, h.isArray]
  generalize arena.element id position = a, other.element id' position = b at hrel
  split
  · cases hrel with
    | error cause => exact .none
    | ok hab => exact .some hab
  · exact .none

section Below

variable {depth : Nat} {x y : Selected} (hscalar : (after part).IsScalar)
  (halike : AlikeBesides part value rewritten after) (h : Twin value rewritten after depth x y)
include hscalar halike h

/-- What is found below a node is found below its twin, if that is so at every node, and
if nothing but the part is found. -/
theorem below_twins (find find' : Selected → List Selected)
    (hbehind : ∀ c, ∀ t ∈ find c, c.node ≤ t.node)
    (hfind : ∀ depth c d, Twin value rewritten after depth c d → (∀ t ∈ find c, t.node = part) →
      List.Forall₂ (ReadsAs rewritten after) (find c) (find' d))
    (hfound : ∀ t ∈ ((ofJson value).descendants x.node).flatMap find, t.node = part) :
    List.Forall₂ (ReadsAs rewritten after) (((ofJson value).descendants x.node).flatMap find)
      (((ofJson rewritten).descendants y.node).flatMap find') := by
  obtain ⟨id, hid⟩ : ∃ id, x.node = id := ⟨_, rfl⟩
  induction id using descendants.induct (ofJson value) generalizing x y depth with
  | case1 id ih =>
    subst hid
    by_cases hpart : x.node = part
    · -- All that is below the part stands behind it, and below the replacement is nothing.
      have hnone : ((ofJson value).descendants x.node).flatMap find = [] := by
        refine List.eq_nil_iff_forall_not_mem.mpr fun t ht => ?_
        obtain ⟨c, hc, htc⟩ := List.mem_flatMap.mp ht
        have hlt := (List.pairwise_cons.mp (subtree_increasing value x.node)).1 c.node
          (List.mem_map_of_mem hc)
        have hle := hbehind c t htc
        have := hfound t ht
        omega
      have hreads : ((ofJson rewritten).toJson y.node).IsScalar := by
        rw [h.reads, hpart]
        exact hscalar
      rw [hnone, descendants_eq (ofJson_wellFormed rewritten), children_of_isScalar hreads]
      exact .nil
    · have hparts := (halike depth x y hpart h).parts
      rw [descendants_eq (ofJson_wellFormed value), List.flatMap_assoc] at hfound ⊢
      rw [descendants_eq (ofJson_wellFormed rewritten), List.flatMap_assoc]
      have hmem := (List.forall₂_and_left _ _).mpr
        ⟨fun c (hc : c ∈ (ofJson value).children x.node) => hc, hparts⟩
      refine List.rel_flatMap hmem ?_
      rintro c d ⟨hc, hcd⟩
      have hall : ∀ t ∈ find c ++ ((ofJson value).descendants c.node).flatMap find,
          t.node = part := fun t ht => hfound t (List.mem_flatMap.mpr ⟨c, hc, ht⟩)
      rw [List.forall_mem_append] at hall
      exact List.rel_append (hfind _ c d hcd hall.1)
        (ih c (ofJson_wellFormed value _ c hc) hcd hall.2 rfl)

/-- The same for what is looked for in each node of the subtrees. -/
lemma subtree_twins {pick pick' : Nat → Option Selected}
    (hpick : ∀ id t, pick id = some t → t ∈ (ofJson value).children id)
    (hpick' : ∀ id t, pick' id = some t → t ∈ (ofJson rewritten).children id)
    (hrel : ∀ R id id', Alike R (ofJson value) (ofJson rewritten) id id' →
      Option.Rel R (pick id) (pick' id'))
    (hfound : ∀ t ∈ ((ofJson value).subtree x.node).filterMap pick, t.node = part) :
    List.Forall₂ (ReadsAs rewritten after) (((ofJson value).subtree x.node).filterMap pick)
      (((ofJson rewritten).subtree y.node).filterMap pick') := by
  have hsubtree (arena : Arena) (pick : Nat → Option Selected) (s : Selected) :
      (arena.subtree s.node).filterMap pick = (pick s.node).toList ++
        (arena.descendants s.node).flatMap fun c => (pick c.node).toList := by
    rw [subtree, List.filterMap_eq_flatMap_toList, List.flatMap_cons, List.flatMap_map]
  have hlt : ∀ c : Selected, ∀ t ∈ (pick c.node).toList, c.node < t.node := fun c t ht =>
    (ofJson_wellFormed value _ t (hpick _ t (by simpa using ht))).1
  have hfind : ∀ depth c d, Twin value rewritten after depth c d →
      (∀ t ∈ (pick c.node).toList, t.node = part) →
        List.Forall₂ (ReadsAs rewritten after) (pick c.node).toList (pick' d.node).toList := by
    intro depth c d hcd hall
    by_cases hpart : c.node = part
    · have hnone : pick c.node = none := Option.eq_none_iff_forall_ne_some.mpr fun t ht => by
        have hbehind := hlt c t (by simp [ht])
        have := hall t (by simp [ht])
        omega
      have hreads : ((ofJson rewritten).toJson d.node).IsScalar := by
        rw [hcd.reads, hpart]
        exact hscalar
      have hnone' : pick' d.node = none := Option.eq_none_iff_forall_ne_some.mpr fun t ht =>
        List.not_mem_nil (children_of_isScalar hreads ▸ hpick' _ t ht)
      rw [hnone, hnone']
      exact .nil
    · have hpicked := hrel _ _ _ (halike depth c d hpart hcd)
      generalize pick c.node = a, pick' d.node = b at hpicked
      cases hpicked with
      | none => exact .nil
      | some hab => exact .cons hab.reads .nil
  rw [hsubtree, hsubtree]
  rw [hsubtree, List.forall_mem_append] at hfound
  exact List.rel_append (hfind depth x y h hfound.1) (below_twins hscalar halike h _ _
    (fun c t ht => Nat.le_of_lt (hlt c t ht)) hfind hfound.2)

/-- A recursive step finds twins from a node and its twin, if all that it finds is the
part, and a scalar in its place. -/
theorem found_twins {step : Step} (hfound : ∀ t ∈ step.found (ofJson value) x.node, t.node = part) :
    List.Forall₂ (ReadsAs rewritten after) (step.found (ofJson value) x.node)
      (step.found (ofJson rewritten) y.node) := by
  match step with
  | .recursiveKey name =>
    exact subtree_twins hscalar halike h (fun _ _ ht => (isMember_iff.mp ht).mem_children)
      (fun _ _ ht => (isMember_iff.mp ht).mem_children) (fun _ _ _ hsame => hsame.member? name)
      hfound
  | .recursiveIndex position =>
    exact subtree_twins hscalar halike h (fun _ _ ht => (element?_eq_some.mp ht).mem_children)
      (fun _ _ ht => (element?_eq_some.mp ht).mem_children)
      (fun _ _ _ hsame => hsame.element? position) hfound
  | .recursiveWildcard =>
    have hbelow := below_twins hscalar halike h (fun c => [c]) (fun d => [d]) (by simp)
      (fun _ c d hcd _ => .cons hcd.reads .nil) (by simpa [Step.found] using hfound)
    simpa [Step.found] using hbelow
  | .key _ | .index _ | .wildcard | .slice _ _ _ | .keyUnion _ | .indexUnion _ | .computed _
  | .condition _ | .attribute _ _ => exact .nil

end Below

/-- What a recursive step finds is reached. -/
lemma reachable_of_mem_found {step : Step} {id : Nat} {t : Selected}
    (h : t ∈ step.found (ofJson value) id) : (ofJson value).Reachable id t.node := by
  have hwell := ofJson_wellFormed value
  have hpicked (pick : Nat → Option Selected) (h : t ∈ ((ofJson value).subtree id).filterMap pick)
      (hpick : ∀ parent, pick parent = some t → t ∈ (ofJson value).children parent) :
      (ofJson value).Reachable id t.node := by
    obtain ⟨parent, hparent, ht⟩ := List.mem_filterMap.mp h
    exact ((mem_subtree hwell).mp hparent).part (hpick parent ht)
  match step, h with
  | .recursiveKey name, h =>
    exact hpicked ((ofJson value).member? · name) h fun _ ht => (isMember_iff.mp ht).mem_children
  | .recursiveIndex position, h =>
    exact hpicked ((ofJson value).element? position) h
      fun _ ht => (element?_eq_some.mp ht).mem_children
  | .recursiveWildcard, h =>
    obtain ⟨parent, hparent, ht⟩ := (mem_descendants hwell).mp h
    exact hparent.part ht

end Arena

namespace Resolved

lemma step_recursive {r : Resolved} {step : Step} (hstep : step.isRecursive = true)
    (h : r.selection ≠ .nothing) : r.step step
      = .ok (r.select (.multiple (r.selection.toList.flatMap fun s =>
          step.found r.arena s.node))) := by
  match step with
  | .recursiveKey name => exact step_recursiveKey h name
  | .recursiveIndex position => exact step_recursiveIndex h position
  | .recursiveWildcard => exact step_recursiveWildcard h
  | .key _ | .index _ | .wildcard | .slice _ _ _ | .keyUnion _ | .indexUnion _ | .computed _
  | .condition _ | .attribute _ _ => cases hstep

/-- A recursive step that finds the part alone finds a scalar alone in its place. -/
lemma recursive_twins (hscalar : (after part).IsScalar)
    (halike : AlikeBesides part value rewritten after) {r r' : Resolved} {depth : Nat}
    (harena : r.arena = ofJson value) (harena' : r'.arena = ofJson rewritten)
    (hsel : Selection.Related (Twin value rewritten after depth) r.selection r'.selection)
    {step : Step} (hstep : step.isRecursive = true) (hselects : r.selection ≠ .nothing)
    {found : List Selected} (h : r.step step = .ok (r.select (.multiple found)))
    (hpart : ∀ t ∈ found, t.node = part) :
    ∃ again, r'.step step = .ok (r'.select (.multiple again)) ∧
      List.Forall₂ (ReadsAs rewritten after) found again := by
  have hselects' : r'.selection ≠ .nothing := fun hnone => by
    rw [hnone] at hsel
    generalize r.selection = selection at hsel hselects
    cases hsel
    exact hselects rfl
  refine ⟨_, step_recursive hstep hselects', ?_⟩
  rw [step_recursive hstep hselects, Except.ok.injEq] at h
  obtain rfl : r.selection.toList.flatMap (fun s => step.found r.arena s.node) = found :=
    Selection.multiple.inj (congrArg Resolved.selection h)
  rw [harena] at hpart ⊢
  rw [harena']
  have hmem := (List.forall₂_and_left _ _).mpr
    ⟨fun s (hs : s ∈ r.selection.toList) => hs, hsel.toList⟩
  exact List.rel_flatMap hmem fun s t ⟨hs, hst⟩ => found_twins hscalar halike hst fun u hu =>
    hpart u (List.mem_flatMap.mpr ⟨s, hs, hu⟩)

end Resolved

end Twins

/-! ### Replaced parts -/

namespace Resolved

open Arena

/-- The selections are of one shape, with one node each, and the second one has this
value. -/
def Reselects (r again : Resolved) (replacement : Json) : Prop :=
  (∃ s t, r.selection = .single s ∧ again.selection = .single t ∧
      again.value = .defined replacement) ∨
    ∃ s t, r.selection = .multiple [s] ∧ again.selection = .multiple [t] ∧
      again.value = .defined (.array [replacement])

lemma reselects_of_related {r again : Resolved} {replacement : Json} {s : Selected}
    (hone : r.selection = .single s ∨ r.selection = .multiple [s]) {P : Selected → Selected → Prop}
    (h : Selection.Related P r.selection again.selection)
    (hvalue : ∀ t, P s t → again.arena.toJson t.node = replacement) :
    r.Reselects again replacement := by
  generalize hagain : again.selection = selection at h
  rcases hone with hone | hone
  · rw [hone] at h
    cases h with
    | @single _ t hst =>
      refine .inl ⟨s, t, hone, hagain, ?_⟩
      rw [value, hagain]
      simp only [hvalue t hst]
  · rw [hone] at h
    cases h with
    | multiple hitems =>
      obtain ⟨t, _, hst, hnil, rfl⟩ := List.forall₂_cons_left_iff.mp hitems
      obtain rfl := List.forall₂_nil_left_iff.mp hnil
      refine .inr ⟨s, t, hone, hagain, ?_⟩
      rw [value, hagain]
      simp only [List.map_cons, List.map_nil, hvalue t hst]

section Replacement

variable {value : Json} {s : Selected} {handle : Handle} (hkeys : value.HasDistinctKeys)
  (hs : s ∈ (ofJson value).children handle.parent) (hhandle : s.handle = some handle)
  (replacement : Json) {r : Resolved}
include hkeys hs hhandle

/-- A chain of local steps to the part, or to nodes above it, is taken in the rewritten
document, too. -/
lemma local_twins {chain : List Step} (hlocal : ∀ step ∈ chain, step.isLocal = true)
    (hr : chain.foldlM step (ofValue (.defined value)) = .ok r)
    {x : Selected} (hx : x ∈ r.selection.toList) (hreach : (ofJson value).Reachable x.node s.node) :
    let rewritten := ((ofJson value).replace handle replacement).1.toJson 0
    ∃ again, chain.foldlM step (ofValue (.defined rewritten)) = .ok again ∧
      again.arena = ofJson rewritten ∧ ∃ depth, Selection.Related (Twin value rewritten
        ((ofJson value).became s handle replacement) depth) r.selection again.selection := by
  intro rewritten
  have hstart : ∀ y ∈ (ofValue (.defined value)).selection.toList,
      (ofJson value).AtDepth 0 y.node := by
    intro y hy
    rw [List.mem_singleton.mp hy]
    exact .root
  obtain ⟨-, -, level, -, hlevel⟩ := chain_depth chain hlocal hstart hr
  obtain ⟨deep, hle, hdeep⟩ := hreach.atDepth (hlevel x hx)
  have hroot : Twin value rewritten ((ofJson value).became s handle replacement) 0 ⟨0, none⟩
      ⟨0, none⟩ := by
    refine ⟨.root, (holds_ofJson _).lt_size (flatten_length_pos 0 _), ?_⟩
    have hne : 0 ≠ s.node := Nat.ne_of_lt (Nat.zero_lt_of_lt (ofJson_wellFormed value _ s hs).1)
    rw [ReadsAs, toJson_ofJson, became, if_neg hne]
  have halike : AlikeBesides s.node value rewritten ((ofJson value).became s handle replacement) :=
    alikeBesides_of_read fun _ _ => became_eq_read hkeys hs hhandle replacement
  have hsel : Selection.Related (Twin value rewritten ((ofJson value).became s handle replacement)
      0) (ofValue (.defined value)).selection (ofValue (.defined rewritten)).selection :=
    .single hroot
  obtain ⟨selection, hchain, depth, hselection⟩ := chain_twins halike hdeep chain hlocal rfl rfl
    hsel hr ⟨x, hx, level, hle, hlevel x hx⟩
  exact ⟨_, hchain, rfl, depth, hselection⟩

lemma reselects_local {chain : List Step} (hlocal : ∀ step ∈ chain, step.isLocal = true)
    (hr : chain.foldlM step (ofValue (.defined value)) = .ok r)
    (hone : r.selection = .single s ∨ r.selection = .multiple [s]) :
    ∃ again, chain.foldlM step (ofValue (.defined
        (((ofJson value).replace handle replacement).1.toJson 0))) = .ok again ∧
      r.Reselects again replacement := by
  have hmem : s ∈ r.selection.toList := by
    rcases hone with hone | hone <;> simp [hone, Selection.toList]
  obtain ⟨again, hagain, harena, depth, hselection⟩ :=
    local_twins hkeys hs hhandle replacement hlocal hr hmem .root
  refine ⟨again, hagain, reselects_of_related hone hselection fun t ht => ?_⟩
  rw [harena, ht.reads]
  exact became_part hkeys hs hhandle replacement

lemma reselects_recursive {front : List Step} (hlocal : ∀ step ∈ front, step.isLocal = true)
    {last : Step} (hlast : last.isRecursive = true) (hscalar : replacement.IsScalar)
    (hr : (front ++ [last]).foldlM step (ofValue (.defined value)) = .ok r)
    (hone : r.selection = .single s ∨ r.selection = .multiple [s]) :
    ∃ again, (front ++ [last]).foldlM step (ofValue (.defined
        (((ofJson value).replace handle replacement).1.toJson 0))) = .ok again ∧
      r.Reselects again replacement := by
  obtain ⟨mid, hmid, hstep⟩ := foldlM_concat_eq_ok.mp hr
  have hmidArena : mid.arena = ofJson value :=
    (chain_pointsInto (pointsInto_start value) front hmid).arena
  have hnothing : mid.selection ≠ .nothing := fun hnone => by
    rw [step_nothing hnone, Except.ok.injEq] at hstep
    rcases hone with hone | hone <;> rw [← hstep, hnone] at hone <;> cases hone
  obtain ⟨found, hfound, hfoundAll⟩ : ∃ found,
      mid.step last = .ok (mid.select (.multiple found)) ∧
        found = mid.selection.toList.flatMap fun y => last.found mid.arena y.node :=
    ⟨_, step_recursive hlast hnothing, rfl⟩
  obtain rfl : mid.select (.multiple found) = _ := Except.ok.inj (hfound.symm.trans hstep)
  obtain rfl : found = [s] := by
    rcases hone with hone | hone
    · cases hone
    · exact Selection.multiple.inj hone
  obtain ⟨y, hy, hsy⟩ := List.mem_flatMap.mp (hfoundAll ▸ List.mem_singleton_self s)
  obtain ⟨again, hagain, harena, depth, hselection⟩ := local_twins hkeys hs hhandle replacement
    hlocal hmid hy (reachable_of_mem_found (hmidArena ▸ hsy))
  have hpart := became_part hkeys hs hhandle replacement
  obtain ⟨items, hlastStep, hitems⟩ := recursive_twins (hpart.symm ▸ hscalar)
    (alikeBesides_of_read fun _ _ => became_eq_read hkeys hs hhandle replacement) hmidArena harena
    hselection hlast hnothing hfound (by simp)
  refine ⟨again.select (.multiple items), foldlM_concat_eq_ok.mpr ⟨again, hagain, hlastStep⟩,
    reselects_of_related hone (.multiple hitems) fun t ht => ?_⟩
  rw [← hpart, ← ht, ← harena]
  rfl

end Replacement

/-- A selected part is selected again when it was replaced.  From a document, a chain of
local steps has selected one node that has a handle, alone or as a fan-out of one; the
chain may end in a recursive step, if the replacement is no array or object.  Then the
node can be replaced through the handle, by any value, and in the rewritten document the
same chain selects one node in the same shape, and its value is the replacement. -/
theorem reselects_replacement (value replacement : Json) (hkeys : value.HasDistinctKeys)
    (chain : List Step)
    (hchain : (∀ step ∈ chain, step.isLocal = true) ∨ ∃ front last, chain = front ++ [last] ∧
      (∀ step ∈ front, step.isLocal = true) ∧ last.isRecursive = true ∧ replacement.IsScalar)
    (r : Resolved) (hr : chain.foldlM step (ofValue (.defined value)) = .ok r)
    (s : Selected) (hone : r.selection = .single s ∨ r.selection = .multiple [s])
    (handle : Handle) (hhandle : s.handle = some handle) :
    ∃ after id again, r.arena.replace handle replacement = (after, .ok id) ∧
      chain.foldlM step (ofValue (.defined (after.toJson r.root))) = .ok again ∧
      r.Reselects again replacement := by
  have hpoints : r.PointsInto value := chain_pointsInto (pointsInto_start value) chain hr
  have hs : s ∈ (ofJson value).children handle.parent := by
    have hmem : s ∈ r.selection.toList := by
      rcases hone with hone | hone <;> simp [hone, Selection.toList]
    have := (hpoints.anchored.handles s hmem handle hhandle).part
    rwa [hpoints.arena] at this
  obtain ⟨_, after, -, hreplace, -⟩ := replace_part hkeys hs hhandle replacement
  rw [hpoints.arena, hpoints.root]
  have hagain : ∃ again, chain.foldlM step (ofValue (.defined
      (((ofJson value).replace handle replacement).1.toJson 0))) = .ok again ∧
        r.Reselects again replacement := by
    rcases hchain with hlocal | ⟨front, last, rfl, hlocal, hlast, hscalar⟩
    · exact reselects_local hkeys hs hhandle replacement hlocal hr hone
    · exact reselects_recursive hkeys hs hhandle replacement hlocal hlast hscalar hr hone
  obtain ⟨again, hchain, hselects⟩ := hagain
  have hafter : after = ((ofJson value).replace handle replacement).1 := by rw [hreplace]
  exact ⟨after, _, again, hreplace, hafter ▸ hchain, hselects⟩

/-- The last one of several members of a name gets an object, and a member found further
below a null. -/
theorem reselects_replacement_member :
    let value : Json := .object [("rows", .array
      [.object [("id", .ofNat 1)], .object [("id", .object [("key", .ofNat 2)])], .ofNat 7])]
    let last : Resolved := ⟨ofJson value, 0, .single ⟨5, some ⟨4, .key "id"⟩⟩⟩
    let below : Resolved := ⟨ofJson value, 0, .multiple [⟨6, some ⟨5, .key "key"⟩⟩]⟩
    (∃ after id again, last.arena.replace ⟨4, .key "id"⟩ value = (after, .ok id) ∧
      [.key "rows", .wildcard, .key "id", .index (-1)].foldlM step
        (ofValue (.defined (after.toJson 0))) = .ok again ∧ last.Reselects again value) ∧
    ∃ after id again, below.arena.replace ⟨5, .key "key"⟩ .null = (after, .ok id) ∧
      [.key "rows", .slice (some 1) none none, .recursiveKey "key"].foldlM step
        (ofValue (.defined (after.toJson 0))) = .ok again ∧ below.Reselects again .null := by
  intro value last below
  have hkeys : value.HasDistinctKeys := by
    simp [value, Json.HasDistinctKeys, Json.ItemsDistinct, Json.MembersDistinct, Json.ofNat]
  refine ⟨reselects_replacement value value hkeys _ (.inl (by decide)) last (by cbv) _ (.inl rfl)
    ⟨4, .key "id"⟩ rfl, reselects_replacement value .null hkeys _ (.inr ⟨[.key "rows",
      .slice (some 1) none none], .recursiveKey "key", rfl, by decide, rfl, rfl, rfl⟩) below
      (by cbv) _ (.inr rfl) ⟨5, .key "key"⟩ rfl⟩

end Resolved

end Verdict
