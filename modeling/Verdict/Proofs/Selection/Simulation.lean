/-
Steps in documents that are alike.

What a structural step selects depends on the kinds of the nodes that it looks into, on
the places of their parts, and on nothing else.  So in two documents that are alike in
this way the same step selects related nodes, or fails for the same cause.  A step by
position chooses among the nodes of a fan-out and looks into none of them; every other
step goes down to parts.

* `Selection.Related`, `Outcome.Related`: selections and outcomes with related nodes.
* `Arena.Alike`: nodes of the same kind with related parts in the same places.
* `Step.isLocal`, `Selection.descends`: steps to nodes or their parts, and the ones to
  parts.
* `Resolved.stepSelection_along`, `Resolved.stepSelection_down`: steps select related
  nodes.
-/
import Verdict.Proofs.Evaluation.Targets
import Verdict.Proofs.Stream.Matching

namespace Verdict

/-- The place of a selected node in its parent, if it was reached through one. -/
def Selected.slot? (s : Selected) : Option Slot := s.handle.map Handle.slot

/-! ### Related selections -/

/-- The selections have the same shape, and related nodes. -/
inductive Selection.Related (R : Selected → Selected → Prop) : Selection → Selection → Prop
  | nothing : Related R .nothing .nothing
  | single {s t : Selected} (h : R s t) : Related R (.single s) (.single t)
  | multiple {items others : List Selected} (h : List.Forall₂ R items others) :
      Related R (.multiple items) (.multiple others)

/-- Both have failed for the same cause, or both have a result and these are related. -/
inductive Outcome.Related {α β : Type} (R : α → β → Prop) :
    Except EvalError α → Except EvalError β → Prop
  | error (cause : EvalError) : Related R (.error cause) (.error cause)
  | ok {a : α} {b : β} (h : R a b) : Related R (.ok a) (.ok b)

/-- Related selections have the same number of nodes, related one by one. -/
lemma Selection.Related.toList {R : Selected → Selected → Prop} {selection other : Selection}
    (h : Related R selection other) : List.Forall₂ R selection.toList other.toList := by
  cases h with
  | nothing => exact .nil
  | single hst => exact .cons hst .nil
  | multiple hitems => exact hitems

/-- What relatedness says of a node holds of all nodes that are selected. -/
lemma Selection.Related.forall_left {R : Selected → Selected → Prop} {P : Selected → Prop}
    {selection other : Selection} (h : Related R selection other) (hP : ∀ x y, R x y → P x) :
    ∀ x ∈ selection.toList, P x := by
  have hitems := h.toList
  generalize selection.toList = items, other.toList = others at hitems
  induction hitems with
  | nil => exact fun x hx => absurd hx List.not_mem_nil
  | cons hxy _ ih => exact List.forall_mem_cons.mpr ⟨hP _ _ hxy, ih⟩

/-- What is related to a success is a success. -/
lemma Outcome.Related.exists_ok {α β : Type} {R : α → β → Prop} {x : Except EvalError β} {a : α}
    (h : Related R (.ok a) x) : ∃ b, x = .ok b ∧ R a b := by
  cases h with
  | ok hab => exact ⟨_, rfl, hab⟩

/-- Functions that keep relatedness may be applied to related outcomes. -/
lemma Outcome.Related.map {α β γ δ : Type} {R : α → β → Prop} {Q : γ → δ → Prop}
    {x : Except EvalError α} {y : Except EvalError β} {f : α → γ} {g : β → δ}
    (h : Related R x y) (hfg : ∀ a b, R a b → Q (f a) (g b)) : Related Q (f <$> x) (g <$> y) := by
  cases h with
  | error cause => exact .error cause
  | ok h => exact .ok (hfg _ _ h)

namespace Arena

/-- The nodes are of the same kind, and have related parts in the same places. -/
structure Alike (R : Selected → Selected → Prop) (arena other : Arena) (id id' : Nat) :
    Prop where
  isArray : arena.isArray id = other.isArray id'
  isObject : arena.isObject id = other.isObject id'
  kind : arena.kind id = other.kind id'
  children : List.Forall₂ (fun c c' => R c c' ∧ c.slot? = c'.slot?) (arena.children id)
    (other.children id')

variable {arena other : Arena} {id id' : Nat} {R : Selected → Selected → Prop}

lemma Alike.parts (h : Alike R arena other id id') :
    List.Forall₂ R (arena.children id) (other.children id') :=
  h.children.imp fun _ _ hc => hc.1

lemma Alike.mono {Q : Selected → Selected → Prop} (h : Alike R arena other id id')
    (hRQ : ∀ c c', R c c' → Q c c') : Alike Q arena other id id' :=
  ⟨h.isArray, h.isObject, h.kind, h.children.imp fun c c' hc => ⟨hRQ c c' hc.1, hc.2⟩⟩

/-! ### Parts by name and by position -/

/-- The member of a name is the first part in its place. -/
lemma member?_eq_find? (arena : Arena) (id : Nat) (name : String) :
    arena.member? id name = (arena.children id).find? fun c => c.slot? = some (.key name) := by
  rw [member?, children]
  cases arena.node? id with
  | none => rfl
  | some node =>
    cases node with
    | scalar value => rfl
    | array ids =>
      symm
      simp only [List.find?_eq_none, List.mem_mapIdx]
      rintro _ ⟨i, hi, rfl⟩
      simp [Selected.slot?]
    | object members =>
      simp only
      induction members with
      | nil => rfl
      | cons entry rest ih =>
        obtain ⟨key, child⟩ := entry
        by_cases hkey : name = key
        · subst hkey
          simp [Selected.slot?]
        · have hplace : decide ((⟨child, some ⟨id, .key key⟩⟩ : Selected).slot?
              = some (.key name)) = false := by simpa [Selected.slot?] using Ne.symm hkey
          simp only [List.map_cons, List.find?_cons, List.lookup_cons, hplace,
            beq_false_of_ne hkey]
          exact ih

/-- Nodes that are alike have related members under one name, or both have none. -/
lemma Alike.member? (h : Alike R arena other id id') (name : String) :
    Option.Rel R (arena.member? id name) (other.member? id' name) := by
  rw [member?_eq_find?, member?_eq_find?]
  have hchildren := h.children
  generalize arena.children id = cs, other.children id' = cs' at hchildren
  induction hchildren with
  | nil => exact .none
  | @cons c c' _ _ hc _ ih =>
    rw [List.find?_cons, List.find?_cons, hc.2]
    cases decide (c'.slot? = some (.key name)) with
    | true => exact .some hc.1
    | false => exact ih

end Arena

/-- The item at a position; a negative one counts from the end. -/
def itemAt (items : List Selected) (position : Int) : Except EvalError Selected :=
  match (position? position items.length).bind (items[·]?) with
  | some s => .ok s
  | none => .error (.indexOutOfRange position items.length)

section Lists

variable {R : Selected → Selected → Prop} {items others : List Selected}
  (h : List.Forall₂ R items others)
include h

/-- One position selects related items, or both lists are too short for it. -/
lemma itemAt_related (position : Int) :
    Outcome.Related R (itemAt items position) (itemAt others position) := by
  have hitem : Option.Rel R ((position? position others.length).bind (items[·]?))
      ((position? position others.length).bind (others[·]?)) := by
    cases position? position others.length with
    | none => exact .none
    | some i => exact forall₂_getElem? h i
  rw [itemAt, itemAt, h.length_eq]
  generalize (position? position others.length).bind (items[·]?) = a,
    (position? position others.length).bind (others[·]?) = b at hitem
  cases hitem with
  | none => exact .error _
  | some hab => exact .ok hab

/-- A slice selects related items: it looks only at the number of items. -/
lemma slice_related (start stop stride : Option Int) :
    Outcome.Related (List.Forall₂ R) (slice items start stop stride)
      (slice others start stop stride) := by
  rw [slice, slice]
  split
  · exact .error _
  · rw [h.length_eq]
    refine .ok (List.rel_filterMap (R := Eq) ?_ (List.forall₂_same.mpr fun _ _ => rfl))
    rintro i _ rfl
    exact forall₂_getElem? h i

lemma indexUnion_related (positions : List Int) :
    List.Forall₂ R (indexUnion items positions) (indexUnion others positions) := by
  rw [indexUnion, indexUnion, h.length_eq]
  refine List.rel_filterMap (R := Eq) ?_ (List.forall₂_same.mpr fun _ _ => rfl)
  rintro i _ rfl
  beta_reduce
  split
  · exact forall₂_getElem? h i
  · exact .none

end Lists

namespace Arena

variable {arena other : Arena} {id id' : Nat} {R : Selected → Selected → Prop}

/-- The elements of an array are its parts in their order. -/
lemma element_of_isArray (h : arena.isArray id = true) (position : Int) :
    arena.element id position = itemAt (arena.children id) position := by
  rw [isArray] at h
  split at h
  · rename_i ids hnode
    simp only [element, itemAt, children, hnode, List.length_mapIdx]
    cases hposition : position? position ids.length with
    | none => rfl
    | some i =>
      have hi : i < ids.length := lt_of_position? hposition
      simp [hi]
  · cases h

lemma element_of_not_isArray (h : arena.isArray id = false) (position : Int) :
    arena.element id position
      = .error (.typeMismatch ("index step expects an array, got " ++ arena.kind id)) := by
  rw [isArray] at h
  rw [element]
  cases hnode : arena.node? id with
  | none => rfl
  | some node =>
    cases node with
    | array ids => simp [hnode] at h
    | scalar _ | object _ => rfl

namespace Alike

variable (h : Alike R arena other id id')
include h

/-- A position in nodes that are alike selects related elements or fails alike. -/
lemma element (position : Int) :
    Outcome.Related R (arena.element id position) (other.element id' position) := by
  have harray := h.isArray
  cases hother : other.isArray id' with
  | true =>
    rw [element_of_isArray (harray.trans hother), element_of_isArray hother]
    exact itemAt_related h.parts position
  | false =>
    rw [element_of_not_isArray (harray.trans hother), element_of_not_isArray hother, h.kind]
    exact .error _

lemma keyUnion (names : List String) :
    List.Forall₂ R (keyUnion arena id names) (Verdict.keyUnion other id' names) := by
  refine List.rel_filterMap (R := Eq) ?_ (List.forall₂_same.mpr fun _ _ => rfl)
  rintro name _ rfl
  exact h.member? name

end Alike

end Arena

/-! ### Steps -/

/-- The steps that lead to selected nodes or to parts of them, and not deeper. -/
def Step.isLocal : Step → Bool
  | .key _ | .index _ | .wildcard | .slice _ _ _ | .keyUnion _ | .indexUnion _ => true
  | _ => false

/-- Whether a local step goes down to parts.  By position it chooses among the nodes of a
fan-out. -/
def Selection.descends : Selection → Step → Bool
  | .nothing, _ => false
  | .single _, _ => true
  | .multiple _, step =>
    match step with
    | .key _ | .keyUnion _ => true
    | _ => false

namespace Resolved

variable {r r' : Resolved} {R Q : Selected → Selected → Prop} {step : Step}

lemma stepSelection_multiple_index {items : List Selected} (h : r.selection = .multiple items)
    (position : Int) : r.stepSelection (.index position) = .single <$> itemAt items position := by
  simp only [stepSelection, h, itemAt]
  cases (position? position items.length).bind (items[·]?) <;> rfl

/-- A step that chooses among the nodes of a fan-out chooses related nodes. -/
theorem stepSelection_along (hlocal : step.isLocal = true)
    (hsel : Selection.Related R r.selection r'.selection)
    (halong : r.selection.descends step = false) :
    Outcome.Related (Selection.Related R) (r.stepSelection step) (r'.stepSelection step) := by
  generalize hr : r.selection = sel, hr' : r'.selection = sel' at hsel halong
  cases hsel with
  | nothing =>
    have hnothing {r : Resolved} (h : r.selection = .nothing) :
        r.stepSelection step = .ok .nothing := by simp [stepSelection, h]
    rw [hnothing hr, hnothing hr']
    exact .ok .nothing
  | single h => cases halong
  | @multiple items others h =>
    cases step with
    | index position =>
      rw [stepSelection_multiple_index hr, stepSelection_multiple_index hr']
      exact (itemAt_related h position).map fun _ _ hst => .single hst
    | wildcard =>
      simp only [stepSelection, hr, hr']
      exact .ok (.multiple h)
    | slice start stop stride =>
      simp only [stepSelection, hr, hr']
      exact (slice_related h start stop stride).map fun _ _ hst => .multiple hst
    | indexUnion positions =>
      simp only [stepSelection, hr, hr']
      exact .ok (.multiple (indexUnion_related h positions))
    | key _ | keyUnion _ => cases halong
    | computed _ | condition _ | recursiveKey _ | recursiveIndex _ | recursiveWildcard
    | «attribute» _ _ => cases hlocal

/-- A step that goes down comes to related parts, if the selected nodes are alike. -/
theorem stepSelection_down (hlocal : step.isLocal = true)
    (hsel : Selection.Related R r.selection r'.selection)
    (hdown : r.selection.descends step = true)
    (halike : ∀ s ∈ r.selection.toList, ∀ t, R s t →
      Arena.Alike Q r.arena r'.arena s.node t.node) :
    Outcome.Related (Selection.Related Q) (r.stepSelection step) (r'.stepSelection step) := by
  generalize hr : r.selection = sel, hr' : r'.selection = sel' at hsel hdown halike
  cases hsel with
  | nothing => cases hdown
  | @single s t h =>
    have hst := halike s (List.mem_singleton.mpr rfl) t h
    cases step with
    | key name =>
      have hmember := hst.member? name
      simp only [stepSelection, hr, hr']
      generalize r.arena.member? s.node name = a, r'.arena.member? t.node name = b at hmember
      cases hmember with
      | none => exact .ok .nothing
      | some hab => exact .ok (.single hab)
    | index position =>
      simp only [stepSelection, hr, hr']
      exact (hst.element position).map fun _ _ hab => .single hab
    | wildcard =>
      simp only [stepSelection, hr, hr', stepMismatch, hst.isArray, hst.isObject, hst.kind]
      split
      · exact .ok (.multiple hst.parts)
      · exact .error _
    | slice start stop stride =>
      simp only [stepSelection, hr, hr', stepMismatch, hst.isArray, hst.kind]
      split
      · exact (slice_related hst.parts start stop stride).map fun _ _ hab => .multiple hab
      · exact .error _
    | keyUnion names =>
      simp only [stepSelection, hr, hr']
      exact .ok (.multiple (hst.keyUnion names))
    | indexUnion positions =>
      simp only [stepSelection, hr, hr', stepMismatch, hst.isArray, hst.kind]
      split
      · exact .ok (.multiple (indexUnion_related hst.parts positions))
      · exact .error _
    | computed _ | condition _ | recursiveKey _ | recursiveIndex _ | recursiveWildcard
    | «attribute» _ _ => cases hlocal
  | @multiple items others h =>
    have hitems : List.Forall₂ (fun s t => Arena.Alike Q r.arena r'.arena s.node t.node) items
        others :=
      ((List.forall₂_and_left items others).mpr ⟨fun _ hs => hs, h⟩).imp
        fun s t hst => halike s hst.1 t hst.2
    cases step with
    | key name =>
      simp only [stepSelection, hr, hr']
      exact .ok (.multiple (List.rel_filterMap (fun _ _ hst => hst.member? name) hitems))
    | keyUnion names =>
      simp only [stepSelection, hr, hr']
      exact .ok (.multiple (List.rel_flatMap hitems fun _ _ hst => hst.keyUnion names))
    | index _ | wildcard | slice _ _ _ | indexUnion _ => cases hdown
    | computed _ | condition _ | recursiveKey _ | recursiveIndex _ | recursiveWildcard
    | «attribute» _ _ => cases hlocal

end Resolved

end Verdict
