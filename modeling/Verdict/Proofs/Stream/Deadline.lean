/-
Waiting for the first item of a source.

A stream with a deadline reads its source, and if the source still stays silent when
the time is over it delivers one item of its own.  The source is read at the same
turns as without the deadline, so that nothing is lost and nothing comes twice.

* `firstRead`: the time of the first read.
* `Stream.Overdue`: the source was found silent when the time was over.
* `Stream.Timed`: how a stream with a deadline stands behind its turns.
* `Stream.timeout_of_overdue`: what such a stream delivers, and when it ends.
-/
import Verdict.Proofs.Stream.Turns

namespace Verdict

variable {α : Type}

/-- The time of the first read. -/
def firstRead : List Turn → Option Nat
  | [] => none
  | .read w _ :: h => some ((firstRead h).getD w.time)
  | .told _ :: h => firstRead h

namespace Stream

/-- In some read the source had still delivered nothing and not ended, when so many
milliseconds had passed since the first read. -/
def Overdue (millis : Nat) (source : Stream α) (h : List Turn) : Prop :=
  ∃ w further h', .read w further :: h' <:+ h ∧
    source.delivered (.read w further :: h') = [] ∧
    source.left (.read w further :: h') ≠ none ∧
    (firstRead h').getD w.time + millis ≤ w.time

/-- How a stream with a deadline stands behind its turns. -/
inductive Timed (millis : Nat) (late : α) (source : Stream α) (h : List Turn) : Prop
  /-- It waits for the source. -/
  | waits {rest : Stream α} (hrest : source.left h = some rest) (hsilent : source.delivered h = [])
      (hearly : ¬ source.Overdue millis h)
      (hleft : (timeout millis late none source).left h
        = some (.timeout millis late ((firstRead h).map (· + millis)) rest))
      (hdelivered : (timeout millis late none source).delivered h = [])
  /-- It goes on as the source does, and whether the source was overdue is settled. -/
  | passes (hleft : (timeout millis late none source).left h = source.left h)
      (hsettled : source.Overdue millis h ∨ source.delivered h ≠ [] ∨ source.left h = none)
      (hlate : source.Overdue millis h →
        (timeout millis late none source).delivered h = late :: source.delivered h)
      (hearly : ¬ source.Overdue millis h →
        (timeout millis late none source).delivered h = source.delivered h)

variable {millis : Nat} {late : α} {source : Stream α} {h : List Turn}

lemma overdue_told_iff (e : Event) :
    source.Overdue millis (.told e :: h) ↔ source.Overdue millis h := by
  rw [Overdue, Overdue]
  simp only [List.suffix_cons_iff, List.cons.injEq, reduceCtorEq, false_and, false_or]

lemma overdue_read_iff (w : World) (further : Nat) :
    source.Overdue millis (.read w further :: h) ↔ source.Overdue millis h ∨
      (source.delivered (.read w further :: h) = [] ∧
        source.left (.read w further :: h) ≠ none ∧
        (firstRead h).getD w.time + millis ≤ w.time) := by
  rw [Overdue, Overdue]
  constructor
  · rintro ⟨w', further', h', hsuffix, hread⟩
    rcases List.suffix_cons_iff.mp hsuffix with heq | hsuffix
    · obtain ⟨⟨rfl, rfl⟩, rfl⟩ := by simpa using heq
      exact .inr hread
    · exact .inl ⟨w', further', h', hsuffix, hread⟩
  · rintro (⟨w', further', h', hsuffix, hread⟩ | hread)
    · exact ⟨w', further', h', hsuffix.trans (List.suffix_cons _ _), hread⟩
    · exact ⟨w, further, h, List.suffix_refl _, hread⟩

lemma Timed.told (ht : Timed millis late source h) (e : Event) :
    Timed millis late source (.told e :: h) := by
  cases ht with
  | waits hrest hsilent hearly hleft hdelivered =>
    refine .waits (left_told_of_left hrest e) (by rwa [delivered_told])
      (by rwa [overdue_told_iff]) ?_ (by rwa [delivered_told])
    rw [left_told_of_left hleft]
    rfl
  | passes hleft hsettled hlate hearly =>
    refine .passes (by rw [left, left, hleft]) ?_ ?_ ?_
    · rw [overdue_told_iff, delivered_told]
      exact hsettled.imp_right (.imp_right fun hnone => left_cons_of_left_eq_none _ hnone)
    · rw [overdue_told_iff, delivered_told, delivered_told]
      exact hlate
    · rw [overdue_told_iff, delivered_told, delivered_told]
      exact hearly

/-- The source of a stream that passes its items on cannot become overdue any more. -/
lemma overdue_read_of_settled
    (hsettled : source.Overdue millis h ∨ source.delivered h ≠ [] ∨ source.left h = none)
    (w : World) (further : Nat) :
    source.Overdue millis (.read w further :: h) ↔ source.Overdue millis h := by
  rw [overdue_read_iff, or_iff_left_iff_imp]
  rintro ⟨hsilent, hgoes, -⟩
  rcases hsettled with hover | hdelivered | hended
  · exact hover
  · exact absurd (List.append_eq_nil_iff.mp hsilent).1 hdelivered
  · exact absurd (left_cons_of_left_eq_none _ hended) hgoes

lemma Timed.read_of_passes (hleft : (timeout millis late none source).left h = source.left h)
    (hsettled : source.Overdue millis h ∨ source.delivered h ≠ [] ∨ source.left h = none)
    (hlate : source.Overdue millis h →
      (timeout millis late none source).delivered h = late :: source.delivered h)
    (hearly : ¬ source.Overdue millis h →
      (timeout millis late none source).delivered h = source.delivered h)
    (w : World) (further : Nat) : Timed millis late source (.read w further :: h) := by
  have hgiven : (timeout millis late none source).given (.read w further :: h)
      = source.given (.read w further :: h) := by rw [given, given, hleft]
  refine .passes (by rw [left, left, hleft]) ?_ ?_ ?_
  · rw [overdue_read_of_settled hsettled]
    refine hsettled.imp_right (.imp (fun hsome hnil => hsome ?_) fun hnone =>
      left_cons_of_left_eq_none _ hnone)
    exact (List.append_eq_nil_iff.mp hnil).1
  · rw [overdue_read_of_settled hsettled, delivered, delivered, hgiven]
    exact fun hover => by rw [hlate hover, List.cons_append]
  · rw [overdue_read_of_settled hsettled, delivered, delivered, hgiven]
    exact fun hover => by rw [hearly hover]

/-- A stream that waits reads its source, and the source delivers something, ends, or stays
silent; then it matters whether the time is over. -/
lemma Timed.read_of_waits {rest : Stream α} (hrest : source.left h = some rest)
    (hsilent : source.delivered h = []) (hearly : ¬ source.Overdue millis h)
    (hleft : (timeout millis late none source).left h
      = some (.timeout millis late ((firstRead h).map (· + millis)) rest))
    (hdelivered : (timeout millis late none source).delivered h = [])
    (w : World) (further : Nat) : Timed millis late source (.read w further :: h) := by
  have hdeadline : ((firstRead h).map (· + millis)).getD (w.time + millis)
      = (firstRead h).getD w.time + millis := by cases firstRead h <;> rfl
  have hsource : source.delivered (.read w further :: h)
      = ((rest.run w).take rest (further + 1)).1 := by
    rw [delivered, hsilent, List.nil_append, given_read_of_left hrest]
  have hitems : (timeout millis late none source).delivered (.read w further :: h)
      = (((rest.run w).timed w.time millis ((firstRead h).getD w.time + millis) late).take
          (.timeout millis late ((firstRead h).map (· + millis)) rest) (further + 1)).1 := by
    rw [delivered, hdelivered, List.nil_append, given_read_of_left hleft, run, hdeadline]
  have hbehind : source.left (.read w further :: h) = ((rest.run w).take rest (further + 1)).2 :=
    left_read_of_left hrest
  have hends : (timeout millis late none source).left (.read w further :: h)
      = (((rest.run w).timed w.time millis ((firstRead h).getD w.time + millis) late).take
          (.timeout millis late ((firstRead h).map (· + millis)) rest) (further + 1)).2 := by
    rw [left_read_of_left hleft, run, hdeadline]
  have hover : source.Overdue millis (.read w further :: h) ↔ _ := overdue_read_iff w further
  cases hrun : rest.run w with
  | ended =>
    rw [hrun] at hsource hitems hbehind hends
    have hnot : ¬ source.Overdue millis (.read w further :: h) := fun hdue =>
      (hover.mp hdue).elim hearly fun hdue => hdue.2.1 hbehind
    exact .passes (hends.trans hbehind.symm) (.inr (.inr hbehind)) (absurd · hnot)
      fun _ => hitems.trans hsource.symm
  | item a rest' more =>
    rw [hrun] at hsource hitems hbehind hends
    have hnot : ¬ source.Overdue millis (.read w further :: h) := fun hdue =>
      (hover.mp hdue).elim hearly fun hdue => List.cons_ne_nil _ _ (hsource.symm.trans hdue.1)
    exact .passes (hends.trans hbehind.symm)
      (.inr (.inl (by rw [hsource]; exact List.cons_ne_nil _ _))) (absurd · hnot)
      fun _ => hitems.trans hsource.symm
  | pending rest' =>
    rw [hrun] at hsource hitems hbehind hends
    by_cases hdue : (firstRead h).getD w.time + millis ≤ w.time
    · have hnow : source.Overdue millis (.read w further :: h) := by
        refine hover.mpr (.inr ⟨hsource, ?_, hdue⟩)
        rw [hbehind]
        exact Option.some_ne_none rest'
      rw [Run.timed, if_pos hdue] at hitems hends
      refine .passes ?_ (.inl hnow) (fun _ => ?_) (absurd hnow ·)
      · rw [hends, hbehind]
        cases further <;> rfl
      · rw [hitems, hsource]
        cases further <;> rfl
    · rw [Run.timed, if_neg hdue] at hitems hends
      exact .waits hbehind hsource (fun hnow => (hover.mp hnow).elim hearly fun hnow =>
        hdue hnow.2.2) hends hitems

/-- However a stream with a deadline is read, it either waits or goes on as its source. -/
theorem timed (millis : Nat) (late : α) (source : Stream α) (h : List Turn) :
    Timed millis late source h := by
  induction h with
  | nil =>
    refine .waits rfl rfl ?_ rfl rfl
    rintro ⟨w, further, h', hsuffix, -⟩
    exact List.cons_ne_nil _ _ (List.suffix_nil.mp hsuffix)
  | cons m h ih =>
    cases m with
    | told e => exact ih.told e
    | read w further =>
      cases ih with
      | waits hrest hsilent hearly hleft hdelivered =>
        exact .read_of_waits hrest hsilent hearly hleft hdelivered w further
      | passes hleft hsettled hlate hearly =>
        exact .read_of_passes hleft hsettled hlate hearly w further

/-- The values of an attribute with a deadline are those of its source, behind a failure if
and only if the source was found silent when the time was over; they end with the source. -/
theorem timeout_of_overdue (name : String) (millis : Nat) (source : Stream Value)
    (h : List Turn) :
    let values := timeout millis (.error (.attributeTimeout name millis)) none source
    (source.Overdue millis h →
        values.delivered h = .error (.attributeTimeout name millis) :: source.delivered h) ∧
      (¬ source.Overdue millis h → values.delivered h = source.delivered h) ∧
      (values.left h = none ↔ source.left h = none) := by
  intro values
  cases timed millis (.error (.attributeTimeout name millis)) source h with
  | waits hrest hsilent hearly hleft hdelivered =>
    refine ⟨(absurd · hearly), fun _ => hdelivered.trans hsilent.symm, ?_⟩
    rw [hrest, hleft]
    exact iff_of_false (Option.some_ne_none _) (Option.some_ne_none _)
  | passes hleft hsettled hlate hearly => exact ⟨hlate, hearly, by rw [hleft]⟩

end Stream
end Verdict
