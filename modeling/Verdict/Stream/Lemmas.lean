/-
The items of runs.

* `Run.toList_ofFinite`, `toList_ofLasting`: the items of sources.
* `Run.toList_switched`: an inner stream delivers what it delivers on its own.
* `Run.last?_eq`: the item from which a switch goes on.
* `Run.fst_take`: reading in part gives the first items.
* `Stream.toList_run_just`, `toList_run_map`: the items of the streams that
  evaluation is built from.
* `Stream.run_switch_of_ended`: a bounded switch ends together with its source.
-/
import Verdict.Stream.Run

namespace Verdict
namespace Run

variable {σ α β : Type}

/-- A run is as long as the list of its items. -/
@[simp] theorem length_toList (r : Run α) : r.toList.length = r.length := by
  induction r with
  | pending rest => rfl
  | ended => rfl
  | item a rest more ih => simp [toList, length, ih]

/-! ### Sources -/

/-- All items of a finite source are there at once. -/
@[simp] theorem toList_ofFinite (items : List α) : (ofFinite items).toList = items := by
  induction items with
  | nil => rfl
  | cons a rest ih => simp [ofFinite, toList, ih]

@[simp] theorem final_ofFinite (items : List α) : (ofFinite items).final = none := by
  induction items with
  | nil => rfl
  | cons a rest ih => simp [ofFinite, final, ih]

@[simp] theorem toList_ofLasting (items : List α) : (ofLasting items).toList = items := by
  induction items with
  | nil => rfl
  | cons a rest ih => simp [ofLasting, toList, ih]

/-- Behind its items a lasting source waits, with nothing left. -/
@[simp] theorem final_ofLasting (items : List α) :
    (ofLasting items).final = some (.lasting []) := by
  induction items with
  | nil => rfl
  | cons a rest ih => simp [ofLasting, final, ih]

/-- A published value that was not seen yet is the only item. -/
theorem toList_ofPublished (topic : Topic) (p : Published topic.Content) (seen : Option Nat) :
    (ofPublished topic p seen).toList = if seen = some p.version then [] else [p.value] := by
  unfold ofPublished
  by_cases h : seen = some p.version <;> cases hc : p.closed <;> simp [h, toList]

/-! ### Combinators -/

/-- Mapping a run maps its items. -/
@[simp] theorem toList_through_map (stage : Unit → Stream α → Stream β) (f : α → β)
    (r : Run α) :
    (r.through stage (fun (_ : Unit) a => ((), some (f a))) ()).toList = r.toList.map f := by
  induction r with
  | pending rest => rfl
  | ended => rfl
  | item a rest more ih => simp [through, toList, ih]

/-- The item from which a switch goes on. -/
theorem last?_eq (r : Run α) (before : Option α) :
    r.last? before = r.toList.getLast?.or before := by
  induction r generalizing before with
  | pending rest => rfl
  | ended => rfl
  | item a rest more ih =>
    simp only [last?, ih, toList]
    cases h : more.toList with
    | nil => rfl
    | cons b bs => cases hl : (b :: bs).getLast? <;> simp_all

/-- A switch passes on all items of the stream that it runs. -/
@[simp] theorem toList_switched (bounded : Bool) (project : α → Stream β) (source : Stream α)
    (r : Run β) : (r.switched bounded project source).toList = r.toList := by
  induction r with
  | pending rest => rfl
  | ended =>
    simp only [switched]
    split <;> rfl
  | item a rest more ih => simp [switched, toList, ih]

/-- Reading in part gives the first items. -/
theorem fst_take (r : Run α) (start : Stream α) (count : Nat) :
    (r.take start count).1 = r.toList.take count := by
  induction r generalizing start count with
  | pending rest => cases count <;> rfl
  | ended => cases count <;> rfl
  | item a rest more ih =>
    cases count with
    | zero => rfl
    | succ n => simp [take, toList, ih]

/-- Reading beyond the last item leaves the stream where its run ends. -/
theorem snd_take_of_length_lt (r : Run α) (start : Stream α) {count : Nat}
    (h : r.length < count) : (r.take start count).2 = r.final := by
  induction r generalizing start count with
  | pending rest => cases count with
    | zero => omega
    | succ n => rfl
  | ended => cases count with
    | zero => omega
    | succ n => rfl
  | item a rest more ih =>
    cases count with
    | zero => omega
    | succ n =>
      simp only [length] at h
      simp [take, final, ih rest (by omega : more.length < n)]

end Run

namespace Stream

variable {α β : Type}

@[simp] theorem toList_run_just (w : World) (a : α) : ((just a).run w).toList = [a] := rfl

/-- Reading a mapped stream maps what is read. -/
@[simp] theorem toList_run_map (w : World) (f : α → β) (s : Stream α) :
    ((s.map f).run w).toList = (s.run w).toList.map f := by
  simp [map, run]

/-- A bounded switch ends together with its source. -/
theorem run_switch_of_ended (w : World) (project : α → Stream β) (source : Stream α)
    (inner : Stream β) (h : (source.run w).final = none) :
    (switch true project source inner).run w = .ended := by
  simp [run, h]

end Stream
end Verdict
