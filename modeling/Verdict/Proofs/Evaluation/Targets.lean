/-
The targets of a filter statement are positions of the filtered value.

* `Arena.IsPart` of members, elements, children and descendants.
* `Resolved.PointsInto`: a selection from a document, of its root or of parts.
* `Resolved.stepSelection_parts`: what a structural step selects are parts.
* `Step.applyAll_pointsInto`: a chain that reads no attribute itself stays in the
  document that it starts from.
* `edited_eq_rewritten`: a statement with such a target rewrites what it selects,
  and nothing else.
-/
import Mathlib
import Verdict.Evaluation.Expression
import Verdict.Proofs.Evaluation.Editing
import Verdict.Proofs.Stream.Always

namespace Verdict

/-! ### Parts -/

/-- A position that is resolved lies in the array. -/
lemma lt_of_position? {position : Int} {length i : Nat} (h : position? position length = some i) :
    i < length := by
  simp only [position?] at h
  generalize (if position < 0 then (length : Int) + position else position) = found at h
  split at h
  · obtain rfl := Option.some.inj h
    omega
  · simp at h

namespace Arena

variable {arena : Arena}

/-- What is selected by a name is a part of the document. -/
lemma isPart_of_member {id : Nat} {key : String} {s : Selected}
    (h : arena.member? id key = some s) : arena.IsPart s := by
  refine ⟨id, ?_⟩
  cases hnode : arena.node? id with
  | none => simp [member?, hnode] at h
  | some node =>
    cases node with
    | scalar value => simp [member?, hnode] at h
    | array ids => simp [member?, hnode] at h
    | object members =>
      simp only [member?, hnode, Option.map_eq_some_iff] at h
      obtain ⟨child, hchild, rfl⟩ := h
      exact part?_mem_children ((part?_object hnode key).trans hchild)

/-- What is selected by a position is a part of the document. -/
lemma isPart_of_element {id : Nat} {position : Int} {s : Selected}
    (h : arena.element id position = .ok s) : arena.IsPart s := by
  refine ⟨id, ?_⟩
  cases hnode : arena.node? id with
  | none => simp [element, hnode] at h
  | some node =>
    cases node with
    | scalar value => simp [element, hnode] at h
    | object members => simp [element, hnode] at h
    | array ids =>
      simp only [element, hnode] at h
      split at h
      · rename_i i hi
        obtain rfl := Except.ok.inj h
        refine part?_mem_children ((part?_array hnode i).trans ?_)
        rw [List.getD_eq_getElem?_getD, List.getElem?_eq_getElem (lt_of_position? hi)]
        rfl
      · simp at h

/-- All descendants of a node are parts. -/
lemma isPart_of_mem_descendants {id : Nat} {s : Selected} (h : s ∈ arena.descendants id) :
    arena.IsPart s := by
  induction id using Arena.descendants.induct arena with
  | case1 id ih =>
    rw [descendants, List.mem_flatMap] at h
    obtain ⟨child, hchild, h⟩ := h
    rcases List.mem_cons.mp h with rfl | h
    · exact ⟨id, hchild⟩
    · split at h
      · rename_i hlater
        exact ih child hlater h
      · simp at h

end Arena

/-! ### Steps -/

/-- A slice selects among the items that it is taken of. -/
lemma mem_of_mem_slice {items selected : List Selected} {start stop stride : Option Int}
    (h : slice items start stop stride = .ok selected) {s : Selected} (hs : s ∈ selected) :
    s ∈ items := by
  rw [slice] at h
  split at h
  · simp at h
  · obtain rfl := Except.ok.inj h
    obtain ⟨i, -, hi⟩ := List.mem_filterMap.mp hs
    exact List.mem_of_getElem? hi

lemma mem_of_mem_indexUnion {items : List Selected} {positions : List Int} {s : Selected}
    (h : s ∈ indexUnion items positions) : s ∈ items := by
  rw [indexUnion] at h
  obtain ⟨i, -, hi⟩ := List.mem_filterMap.mp h
  split at hi
  · exact List.mem_of_getElem? hi
  · simp at hi

lemma isPart_of_mem_keyUnion {arena : Arena} {node : Nat} {names : List String} {s : Selected}
    (h : s ∈ keyUnion arena node names) : arena.IsPart s := by
  obtain ⟨name, -, hname⟩ := List.mem_filterMap.mp h
  exact Arena.isPart_of_member hname

/-- A selection of parts, or none at all because of a failure. -/
def Arena.SelectsParts (arena : Arena) : Except EvalError Selection → Prop
  | .ok selection => ∀ s ∈ selection.toList, arena.IsPart s
  | .error _ => True

namespace Resolved

variable {r : Resolved}

/-- A structural step selects parts, if the nodes of a fan-out before it are. -/
theorem stepSelection_parts (h : ∀ items, r.selection = .multiple items →
    ∀ s ∈ items, r.arena.IsPart s) (step : Step) :
    r.arena.SelectsParts (r.stepSelection step) := by
  have hchildren {node : Nat} {s : Selected} (hs : s ∈ r.arena.children node) :
      r.arena.IsPart s := ⟨node, hs⟩
  have hmember {nodes : List Nat} {name : String} : ∀ s ∈ nodes.filterMap (r.arena.member? · name),
      r.arena.IsPart s := by
    intro s hs
    obtain ⟨node, -, hnode⟩ := List.mem_filterMap.mp hs
    exact Arena.isPart_of_member hnode
  unfold stepSelection
  simp only
  split
  case h_1 => exact fun s hs => absurd hs List.not_mem_nil
  case h_2 single name hsel =>
    split
    · rename_i child hchild
      exact fun s hs => List.mem_singleton.mp hs ▸ Arena.isPart_of_member hchild
    · exact fun s hs => absurd hs List.not_mem_nil
  case h_3 items name hsel =>
    intro s hs
    obtain ⟨item, -, hitem⟩ := List.mem_filterMap.mp hs
    exact Arena.isPart_of_member hitem
  case h_4 single position hsel =>
    cases helement : r.arena.element single.node position with
    | error cause => trivial
    | ok element =>
      exact fun s hs => List.mem_singleton.mp hs ▸ Arena.isPart_of_element helement
  case h_5 items position hsel =>
    split
    · rename_i found hfound
      obtain ⟨i, -, hi⟩ := Option.bind_eq_some_iff.mp hfound
      exact fun s hs => List.mem_singleton.mp hs ▸ h items hsel found (List.mem_of_getElem? hi)
    · trivial
  case h_6 single hsel =>
    split
    · exact fun s hs => hchildren hs
    · trivial
  case h_7 items hsel => exact h items hsel
  case h_8 single start stop stride hsel =>
    split
    · cases hslice : slice (r.arena.children single.node) start stop stride with
      | error cause => trivial
      | ok selected => exact fun s hs => hchildren (mem_of_mem_slice hslice hs)
    · trivial
  case h_9 items start stop stride hsel =>
    cases hslice : slice items start stop stride with
    | error cause => trivial
    | ok selected => exact fun s hs => h items hsel s (mem_of_mem_slice hslice hs)
  case h_10 single names hsel => exact fun s hs => isPart_of_mem_keyUnion hs
  case h_11 items names hsel =>
    intro s hs
    obtain ⟨item, -, hitem⟩ := List.mem_flatMap.mp hs
    exact isPart_of_mem_keyUnion hitem
  case h_12 single positions hsel =>
    split
    · exact fun s hs => hchildren (mem_of_mem_indexUnion hs)
    · trivial
  case h_13 items positions hsel => exact fun s hs => h items hsel s (mem_of_mem_indexUnion hs)
  case h_14 name hsel => exact hmember
  case h_15 position hsel =>
    intro s hs
    obtain ⟨node, -, hnode⟩ := List.mem_filterMap.mp hs
    split at hnode
    · cases helement : r.arena.element node position with
      | error cause => simp [helement, Except.toOption] at hnode
      | ok element =>
        obtain rfl : element = s := by simpa [helement, Except.toOption] using hnode
        exact Arena.isPart_of_element helement
    · simp at hnode
  case h_16 hsel =>
    intro s hs
    obtain ⟨item, -, hitem⟩ := List.mem_flatMap.mp hs
    exact Arena.isPart_of_mem_descendants hitem
  case h_17 | h_18 | h_19 => trivial

/-! ### Chains -/

/-- A selection from a document: its root, or parts of it. -/
structure PointsInto (value : Json) (r : Resolved) : Prop where
  arena : r.arena = .ofJson value
  root : r.root = 0
  parts : r.selection = .single ⟨0, none⟩ ∨ ∀ s ∈ r.selection.toList, r.arena.IsPart s

variable {value : Json}

lemma pointsInto_start (value : Json) : PointsInto value (ofValue (.defined value)) :=
  ⟨rfl, rfl, .inl rfl⟩

namespace PointsInto

lemma multiple (h : PointsInto value r) {items : List Selected}
    (hitems : r.selection = .multiple items) : ∀ s ∈ items, r.arena.IsPart s := by
  rcases h.parts with hroot | hparts
  · rw [hroot] at hitems
    exact absurd hitems (by simp)
  · rw [hitems] at hparts
    exact hparts

/-- Selecting other parts leaves the document as it is. -/
lemma select (h : PointsInto value r) {selection : Selection}
    (hparts : ∀ s ∈ selection.toList, r.arena.IsPart s) : PointsInto value (r.select selection) :=
  ⟨h.arena, h.root, .inr hparts⟩

end PointsInto

end Resolved

/-- The resolution has failed or selects from the document. -/
def Resolution.PointsInto (value : Json) : Resolution → Prop
  | .ok r => r.PointsInto value
  | .error _ => True

namespace Resolved.PointsInto

variable {value : Json} {r : Resolved}

lemma step (h : r.PointsInto value) (step : Step) : Resolution.PointsInto value (r.step step) := by
  have hparts := stepSelection_parts (fun _ => h.multiple) step
  rw [Resolved.step]
  cases hselection : r.stepSelection step with
  | error cause => trivial
  | ok selection =>
    rw [hselection] at hparts
    exact h.select hparts

/-- A computed key or index selects parts, or fails. -/
lemma stepBy (h : r.PointsInto value) (key : Value) :
    Resolution.PointsInto value (r.stepBy key) := by
  match key with
  | .error cause => trivial
  | .undefined => exact h.select fun s hs => absurd hs List.not_mem_nil
  | .defined (.string name) => exact h.step (.key name)
  | .defined (.number n) =>
    rw [Resolved.stepBy]
    split
    · exact h.step (.index _)
    · trivial
  | .defined .null | .defined (.bool _) | .defined (.array _) | .defined (.object _) => trivial

lemma candidates (h : r.PointsInto value) {candidates : List Selected}
    (hcandidates : r.candidates = .ok candidates) : ∀ s ∈ candidates, r.arena.IsPart s := by
  rw [Resolved.candidates] at hcandidates
  split at hcandidates
  · rw [← Except.ok.inj hcandidates]
    simp
  · split at hcandidates
    · rw [← Except.ok.inj hcandidates]
      exact fun s hs => ⟨_, hs⟩
    · simp at hcandidates
  · rename_i items hitems
    rw [← Except.ok.inj hcandidates]
    exact h.multiple hitems

end Resolved.PointsInto

/-- A condition keeps some of the candidates. -/
lemma Resolved.kept_subset {candidates selected : List Selected} {checks : List Value}
    (h : kept candidates checks = .ok selected) : selected ⊆ candidates := by
  induction candidates generalizing checks selected with
  | nil =>
    rw [kept] at h
    · rw [← Except.ok.inj h]
      exact List.Subset.refl []
    · simp
  | cons candidate rest ih =>
    cases checks with
    | nil =>
      rw [← Except.ok.inj h]
      exact List.nil_subset _
    | cons check checks =>
      unfold kept at h
      split at h
      · simp at h
      · exact List.Subset.trans (ih h) (List.subset_cons_self _ _)
      · exact List.Subset.trans (ih h) (List.subset_cons_self _ _)
      · cases hrest : kept rest checks with
        | error cause => simp [hrest] at h
        | ok later =>
          rw [hrest] at h
          rw [← Except.ok.inj h]
          exact List.cons_subset_cons _ (ih hrest)
      · simp at h

section Chains

variable {W : World → Prop} {value : Json}

/-- A step that reads no attribute stays in the document. -/
theorem Step.apply_pointsInto (ctx : EvaluationContext) (inBody : Bool) (relative : Value)
    {r : Resolved} (h : r.PointsInto value) (step : Step)
    (hstep : ∀ name arguments, step ≠ .attribute name arguments) :
    (step.apply ctx inBody relative r).Always W (Resolution.PointsInto value) := by
  match step with
  | .attribute name arguments => exact absurd rfl (hstep name arguments)
  | .computed expression =>
    rw [Step.apply]
    split
    · exact .just h
    · exact (Stream.Always.trivial _).switchMap fun key _ => .just (h.stepBy key)
  | .condition expression =>
    rw [Step.apply]
    split
    · exact .just h
    · cases hcandidates : r.candidates with
      | error cause => exact .just trivial
      | ok candidates =>
        refine (Stream.Always.trivial _).map fun checks _ => ?_
        rw [Resolved.keep]
        cases hkept : Resolved.kept candidates checks with
        | error cause => trivial
        | ok selected =>
          exact h.select fun s hs => h.candidates hcandidates s (Resolved.kept_subset hkept hs)
  | .key _ | .index _ | .wildcard | .slice _ _ _ | .recursiveKey _ | .recursiveIndex _
  | .recursiveWildcard | .keyUnion _ | .indexUnion _ => exact .just (h.step _)

/-- So does a chain of such steps, whatever its other steps evaluate. -/
theorem Step.applyAll_pointsInto (ctx : EvaluationContext) (inBody : Bool) (relative : Value) :
    (steps : List Step) → (∀ name arguments, Step.attribute name arguments ∉ steps) →
      {before : Stream Resolution} → before.Always W (Resolution.PointsInto value) →
      (Step.applyAll ctx inBody relative steps before).Always W (Resolution.PointsInto value)
  | [], _, _, hbefore => hbefore
  | step :: rest, hsteps, before, hbefore => by
    rw [Step.applyAll]
    refine Step.applyAll_pointsInto ctx inBody relative rest
      (fun name arguments hmem => hsteps name arguments (List.mem_cons_of_mem _ hmem))
      (hbefore.switchMap fun resolution hresolution => ?_)
    cases resolution with
    | error cause => exact .just trivial
    | ok r =>
      refine step.apply_pointsInto ctx inBody relative hresolution fun name arguments heq => ?_
      exact hsteps name arguments (heq ▸ List.mem_cons_self)

end Chains

/-! ### Statements -/

lemma Resolved.PointsInto.targets {value : Json} {r : Resolved} (h : r.PointsInto value)
    {each : Bool} {targets : List Selected} (htargets : r.targets each = .ok targets) :
    (∀ t ∈ targets, (Arena.ofJson value).IsPart t) ∨ targets = [⟨0, none⟩] := by
  rw [← h.arena]
  unfold Resolved.targets at htargets
  split at htargets
  · simp at htargets
  · rename_i s hs
    obtain rfl := Except.ok.inj htargets
    rcases h.parts with hroot | hparts
    · obtain rfl : s = ⟨0, none⟩ := by simpa [hs] using hroot
      exact .inr rfl
    · rw [hs] at hparts
      exact .inl hparts
  · split at htargets
    · rw [← Except.ok.inj htargets]
      exact .inl fun s hs => ⟨_, hs⟩
    · simp at htargets
  · rename_i items hitems
    rw [← Except.ok.inj htargets]
    exact .inl (h.multiple hitems)
  · simp at htargets

/-- Every target has exactly one position. -/
lemma Resolved.PointsInto.existsUnique_path {value : Json} (hkeys : value.HasDistinctKeys)
    {targets : List Selected}
    (h : (∀ t ∈ targets, (Arena.ofJson value).IsPart t) ∨ targets = [⟨0, none⟩]) :
    ∀ t ∈ targets, ∃! path, (Arena.ofJson value).follow? 0 path = some t.node := by
  intro t ht
  obtain ⟨path, hpath⟩ : ∃ path, (Arena.ofJson value).follow? 0 path = some t.node := by
    rcases h with hparts | rfl
    · exact Arena.exists_path 0 value hkeys (Arena.holds_ofJson value) t
        (Arena.mem_links_iff.mpr (hparts t ht))
    · rw [List.mem_singleton.mp ht]
      exact ⟨[], rfl⟩
  exact ⟨path, hpath, fun path' hpath' => Arena.path_unique hpath' hpath⟩

/-- A filter statement rewrites exactly its targets. Its target is a chain that reads
no attribute itself, and whatever such a chain resolves to, in any worlds: where
the targets are admissible and no argument has failed, the statement makes of
the value its rewriting at the positions of the targets, from the last one to
the first. Outside of these positions the value stays the same. Every target has
one position, and no handle is stale when its turn comes. -/
theorem edited_eq_rewritten (W : World → Prop) (ctx : EvaluationContext) (inBody : Bool)
    (relative : Value) (target : List Step)
    (htarget : ∀ name arguments, Step.attribute name arguments ∉ target) (value : Json)
    (hkeys : value.HasDistinctKeys) :
    (Step.applyAll ctx inBody relative target (.just (.start (.defined value)))).Always W
      fun resolution => ∀ (r : Resolved) (each : Bool) (targets : List Selected) (f : Replacer),
        resolution = .ok r → r.targets each = .ok targets →
        Value.firstError? f.arguments = none →
          let selected := (Arena.ofJson value).selects targets 0
          edited f.functions each f.function resolution f.arguments = value.rewritten f selected ∧
          (∀ after, value.rewritten f selected = .defined after → selected [] = false →
            value.SameOutside selected after) ∧
          (∀ t ∈ targets, ∃! path, (Arena.ofJson value).follow? 0 path = some t.node) ∧
          Draft.HandlesResolve f r.root (lastToFirst targets) ⟨r.arena, some r.root⟩ := by
  have hstart : (Stream.just (Resolution.start (.defined value))).Always W
      (Resolution.PointsInto value) := .just (Resolved.pointsInto_start value)
  refine (Step.applyAll_pointsInto ctx inBody relative target htarget hstart).mono ?_
  rintro _ h r each targets f rfl htargets harguments selected
  have hparts := Resolved.PointsInto.targets h htargets
  have hedit : r.edit each f = value.rewritten f selected ∧
      Draft.HandlesResolve f 0 (lastToFirst targets) ⟨Arena.ofJson value, some 0⟩ := by
    rcases hparts with hparts | hone
    · exact r.edit_parts h.arena h.root htargets hkeys hparts f
    · exact r.edit_root h.arena h.root htargets hone f
  rw [h.arena, h.root]
  refine ⟨?_, fun _ => Json.rewritten_sameOutside,
    Resolved.PointsInto.existsUnique_path hkeys hparts, hedit.2⟩
  rw [edited, harguments]
  exact hedit.1

/-- The first elements at every depth are removed, the innermost ones first. -/
theorem edited_eq_rewritten_nested :
    let value : Json :=
      .object [("rows", .array [.array [.ofNat 1, .ofNat 2], .array [.ofNat 3, .ofNat 4]])]
    let targets : List Selected :=
      [⟨2, some ⟨1, .index 0⟩⟩, ⟨3, some ⟨2, .index 0⟩⟩, ⟨6, some ⟨5, .index 0⟩⟩]
    edited .empty true removeFunction (.ok ⟨.ofJson value, 0, .multiple targets⟩) []
      = .defined (.object [("rows", .array [.array [.ofNat 4]])]) := by
  intro value targets
  have hresolves : Except.ok ⟨Arena.ofJson value, 0, .multiple targets⟩ ∈
      ((Step.applyAll { functions := .empty } false .undefined [.recursiveIndex 0]
        (.just (.start (.defined value)))).run default).toList := by
    cbv
    exact .head _
  have hkeys : value.HasDistinctKeys := by
    simp [value, Json.HasDistinctKeys, Json.ItemsDistinct, Json.MembersDistinct, Json.ofNat]
  refine (edited_eq_rewritten (fun _ => True) { functions := .empty } false .undefined
    [.recursiveIndex 0] (by simp) value hkeys _ .refl default trivial _ hresolves _ true targets
    ⟨.empty, removeFunction, []⟩ rfl rfl rfl).1.trans ?_
  cbv

end Verdict
