/-
Rewriting of values.

What a filter statement makes of a value is said here by recursion on the value:
later parts come before earlier ones, and a part is rewritten below before it is
rewritten itself.

* `Json.rewriteParts`: a value with the selected positions below it rewritten.
* `Json.rewriteAt`: the same for the value itself; none means that it is deleted.
* `Json.rewritten`: the outcome for a whole value.
* `Json.rewriteParts_of_unselected`: where nothing is selected, all stays.
* `Json.SameOutside`: what is not selected, nor below a selected position, stays.
* `Json.rewritten_sameOutside`: so it is with a rewriting.
-/
import Mathlib.Tactic.Lemma
import Verdict.Evaluation.Editing

namespace Verdict

namespace Replacer

/-- What becomes of a part that may be selected; none means that it is deleted. -/
def onSelected (f : Replacer) (selected : Bool) (value : Json) : Except EvalError (Option Json) :=
  if selected then f.outcome value else .ok (some value)

/-- What becomes of a whole value. -/
def onWhole (f : Replacer) (value : Json) : Except EvalError (Option Json) :=
  if f.removes then .ok value.emptied? else f.outcome value

end Replacer

namespace Json

mutual

/-- The value with the selected positions below it rewritten; a position is given
by its path from here. -/
def rewriteParts (f : Replacer) (selected : List Slot → Bool) : Json → Except EvalError Json
  | .array items => .array <$> rewriteItems f selected 0 items
  | .object members => .object <$> rewriteMembers f selected members
  | value => .ok value

/-- The items of an array from a position on, the later ones first. -/
def rewriteItems (f : Replacer) (selected : List Slot → Bool) (index : Nat) :
    List Json → Except EvalError (List Json)
  | [] => .ok []
  | item :: rest => do
    let rest ← rewriteItems f selected (index + 1) rest
    let below ← rewriteParts f (fun path => selected (.index index :: path)) item
    let outcome ← f.onSelected (selected [.index index]) below
    return outcome.toList ++ rest

/-- The members of an object, the later ones first. -/
def rewriteMembers (f : Replacer) (selected : List Slot → Bool) :
    List (String × Json) → Except EvalError (List (String × Json))
  | [] => .ok []
  | (key, value) :: rest => do
    let rest ← rewriteMembers f selected rest
    let below ← rewriteParts f (fun path => selected (.key key :: path)) value
    let outcome ← f.onSelected (selected [.key key]) below
    return (outcome.map (key, ·)).toList ++ rest

end

/-- The value rewritten below and then itself; none means that it is deleted. -/
def rewriteAt (f : Replacer) (selected : List Slot → Bool) (value : Json) :
    Except EvalError (Option Json) :=
  value.rewriteParts f selected >>= f.onSelected (selected [])

/-- The outcome of a rewriting as a value. -/
def rewritten (f : Replacer) (selected : List Slot → Bool) (value : Json) : Value :=
  match value.rewriteParts f selected with
  | .error cause => .error cause
  | .ok below =>
    if selected [] then
      match f.onWhole below with
      | .error cause => .error cause
      | .ok none => .undefined
      | .ok (some json) => .defined json
    else .defined below

variable {f : Replacer} {selected : List Slot → Bool}

lemma rewriteItems_cons (index : Nat) (item : Json) (rest : List Json) :
    rewriteItems f selected index (item :: rest) =
      rewriteItems f selected (index + 1) rest >>= fun rest =>
        (fun outcome => outcome.toList ++ rest) <$>
          item.rewriteAt f fun path => selected (.index index :: path) := by
  simp only [rewriteItems, rewriteAt, map_bind, bind_pure_comp]

lemma rewriteMembers_cons (key : String) (value : Json) (rest : List (String × Json)) :
    rewriteMembers f selected ((key, value) :: rest) =
      rewriteMembers f selected rest >>= fun rest =>
        (fun outcome => (outcome.map (key, ·)).toList ++ rest) <$>
          value.rewriteAt f fun path => selected (.key key :: path) := by
  simp only [rewriteMembers, rewriteAt, map_bind, bind_pure_comp]

mutual

/-- A value in which nothing is selected stays as it is. -/
theorem rewriteParts_of_unselected (f : Replacer) : (value : Json) →
    (selected : List Slot → Bool) → (∀ slot path, selected (slot :: path) = false) →
      value.rewriteParts f selected = .ok value
  | .array items, selected, h => by
    rw [rewriteParts, rewriteItems_of_unselected f items selected 0 h]
    rfl
  | .object members, selected, h => by
    rw [rewriteParts, rewriteMembers_of_unselected f members selected h]
    rfl
  | .null, _, _ | .bool _, _, _ | .number _, _, _ | .string _, _, _ => rfl

theorem rewriteItems_of_unselected (f : Replacer) : (items : List Json) →
    (selected : List Slot → Bool) → (index : Nat) →
    (∀ slot path, selected (slot :: path) = false) →
      rewriteItems f selected index items = .ok items
  | [], _, _, _ => rfl
  | item :: rest, selected, index, h => by
    have hitem := rewriteParts_of_unselected f item (fun path => selected (.index index :: path))
      fun slot path => h (.index index) (slot :: path)
    rw [rewriteItems_cons, rewriteItems_of_unselected f rest selected (index + 1) h, rewriteAt,
      hitem, h]
    rfl

theorem rewriteMembers_of_unselected (f : Replacer) : (members : List (String × Json)) →
    (selected : List Slot → Bool) → (∀ slot path, selected (slot :: path) = false) →
      rewriteMembers f selected members = .ok members
  | [], _, _ => rfl
  | (key, value) :: rest, selected, h => by
    have hvalue := rewriteParts_of_unselected f value (fun path => selected (.key key :: path))
      fun slot path => h (.key key) (slot :: path)
    rw [rewriteMembers_cons, rewriteMembers_of_unselected f rest selected h, rewriteAt,
      hvalue, h]
    rfl

end

/-! ### Outside of the selected positions -/

mutual

/-- The values differ at selected positions and below them alone: a part that is
selected may have changed or be gone, every other one is in its place. -/
def SameOutside (selected : List Slot → Bool) : Json → Json → Prop
  | .array items, .array after => ItemsSameOutside selected 0 items after
  | .object members, .object after => MembersSameOutside selected members after
  | before, after => before = after

/-- The same for the items of an array from a position on. -/
def ItemsSameOutside (selected : List Slot → Bool) (index : Nat) : List Json → List Json → Prop
  | [], after => after = []
  | item :: rest, after =>
    (selected [.index index] = true ∧ ItemsSameOutside selected (index + 1) rest after) ∨
    ∃ part later, after = part :: later ∧ ItemsSameOutside selected (index + 1) rest later ∧
      (selected [.index index] = true ∨
        SameOutside (fun path => selected (.index index :: path)) item part)

/-- The same for the members of an object. -/
def MembersSameOutside (selected : List Slot → Bool) :
    List (String × Json) → List (String × Json) → Prop
  | [], after => after = []
  | (key, value) :: rest, after =>
    (selected [.key key] = true ∧ MembersSameOutside selected rest after) ∨
    ∃ part later, after = (key, part) :: later ∧ MembersSameOutside selected rest later ∧
      (selected [.key key] = true ∨
        SameOutside (fun path => selected (.key key :: path)) value part)

end

lemma exists_of_bind_eq_ok {ε α β : Type} {x : Except ε α} {g : α → Except ε β} {b : β}
    (h : x >>= g = .ok b) : ∃ a, x = .ok a ∧ g a = .ok b := by
  cases x with
  | error cause => exact absurd h (by simp [bind, Except.bind])
  | ok a => exact ⟨a, rfl, h⟩

lemma exists_of_map_eq_ok {ε α β : Type} {x : Except ε α} {g : α → β} {b : β}
    (h : g <$> x = .ok b) : ∃ a, x = .ok a ∧ g a = b := by
  rw [map_eq_pure_bind] at h
  obtain ⟨a, ha, hb⟩ := exists_of_bind_eq_ok h
  exact ⟨a, ha, Except.ok.inj hb⟩

/-- A part that is not selected itself is what is left of it. -/
lemma rewriteAt_eq_ok {value : Json} {outcome : Option Json}
    (h : value.rewriteAt f selected = .ok outcome) :
    selected [] = true ∨
      ∃ below, value.rewriteParts f selected = .ok below ∧ outcome = some below := by
  obtain ⟨below, hbelow, houtcome⟩ := exists_of_bind_eq_ok h
  cases hselected : selected [] with
  | true => exact .inl rfl
  | false =>
    rw [hselected] at houtcome
    exact .inr ⟨below, hbelow, (Except.ok.inj houtcome).symm⟩

mutual

/-- A rewriting changes nothing outside of the selected positions. -/
theorem rewriteParts_sameOutside (f : Replacer) : (value : Json) →
    (selected : List Slot → Bool) → {below : Json} →
    value.rewriteParts f selected = .ok below → SameOutside selected value below
  | .array items, selected, _, h => by
    obtain ⟨after, hitems, rfl⟩ := exists_of_map_eq_ok h
    exact rewriteItems_sameOutside f items selected 0 hitems
  | .object members, selected, _, h => by
    obtain ⟨after, hmembers, rfl⟩ := exists_of_map_eq_ok h
    exact rewriteMembers_sameOutside f members selected hmembers
  | .null, _, _, h | .bool _, _, _, h | .number _, _, _, h | .string _, _, _, h => by
    rw [← Except.ok.inj h, SameOutside]
    all_goals simp

theorem rewriteItems_sameOutside (f : Replacer) : (items : List Json) →
    (selected : List Slot → Bool) → (index : Nat) → {after : List Json} →
    rewriteItems f selected index items = .ok after → ItemsSameOutside selected index items after
  | [], _, _, _, h => (Except.ok.inj h).symm
  | item :: rest, selected, index, _, h => by
    rw [rewriteItems_cons] at h
    obtain ⟨later, hrest, h⟩ := exists_of_bind_eq_ok h
    obtain ⟨outcome, hitem, rfl⟩ := exists_of_map_eq_ok h
    have hlater := rewriteItems_sameOutside f rest selected (index + 1) hrest
    have hpart := rewriteAt_eq_ok hitem
    cases outcome with
    | none => exact .inl ⟨hpart.resolve_right (by simp), hlater⟩
    | some part =>
      refine .inr ⟨part, later, rfl, hlater, hpart.imp_right ?_⟩
      rintro ⟨below, hbelow, heq⟩
      obtain rfl := Option.some.inj heq
      exact rewriteParts_sameOutside f item _ hbelow

theorem rewriteMembers_sameOutside (f : Replacer) : (members : List (String × Json)) →
    (selected : List Slot → Bool) → {after : List (String × Json)} →
    rewriteMembers f selected members = .ok after → MembersSameOutside selected members after
  | [], _, _, h => (Except.ok.inj h).symm
  | (key, value) :: rest, selected, _, h => by
    rw [rewriteMembers_cons] at h
    obtain ⟨later, hrest, h⟩ := exists_of_bind_eq_ok h
    obtain ⟨outcome, hvalue, rfl⟩ := exists_of_map_eq_ok h
    have hlater := rewriteMembers_sameOutside f rest selected hrest
    have hpart := rewriteAt_eq_ok hvalue
    cases outcome with
    | none => exact .inl ⟨hpart.resolve_right (by simp), hlater⟩
    | some part =>
      refine .inr ⟨part, later, rfl, hlater, hpart.imp_right ?_⟩
      rintro ⟨below, hbelow, heq⟩
      obtain rfl := Option.some.inj heq
      exact rewriteParts_sameOutside f value _ hbelow

end

/-- The outcome for a value that is not selected itself is the same outside of the
positions that are. -/
theorem rewritten_sameOutside {value after : Json} (h : value.rewritten f selected = .defined after)
    (hself : selected [] = false) : SameOutside selected value after := by
  rw [rewritten] at h
  cases hbelow : value.rewriteParts f selected with
  | error cause =>
    rw [hbelow] at h
    exact absurd h (by simp)
  | ok below =>
    rw [hbelow, hself] at h
    obtain rfl : below = after := by simpa using h
    exact rewriteParts_sameOutside f value selected hbelow

end Json

end Verdict
