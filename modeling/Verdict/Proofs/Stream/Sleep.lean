/-
Streams that have nothing to deliver until they are woken.

A selection asks a child only after an event has woken it.  This loses nothing:
a stream that has been read to the end is asleep, whatever does not wake it leaves
it asleep, and reading it asleep gives nothing and leaves it as it is.

* `Stream.Asleep`: the stream waits in this world, with nothing to deliver.
* `Stream.Asleep.run`: reading a stream that is asleep changes nothing.
* `Stream.Punctual`: no clock in the stream stands still.
* `Stream.Punctual.rested_drained`: a punctual stream that has been read to the end
  has ended or is asleep.
* `Stream.Listens`: what the stream waits for; `Stream.fst_notify_iff_listens`:
  this wakes it, and nothing else does.
* `Stream.heard`: the stream after several events, and `Stream.heard_select`: of a
  selection they wake the children that listen to one of them.
* `Stream.Asleep.of_unmoved`: the sleep lasts until something happens that the stream
  waits for.
-/
import Verdict.Proofs.Stream.Inert

namespace Verdict

variable {σ α β : Type}

/-! ### Sleep -/

namespace Child

/-- A child that has been asked for its items still stands for the stream that was asked. -/
lemma stream_start (w : World) (asked : Bool) (s : Stream α) :
    (start w asked s).stream = s := by
  rw [start]
  split
  · exact (Stream.eq_ended_of_isEnded ‹_›).symm
  · split <;> rfl

lemma isGone_start (w : World) (asked : Bool) (s : Stream α) :
    (start w asked s).isGone = s.isEnded := by
  rw [start]
  split
  · exact Eq.symm ‹_›
  · rw [Bool.not_eq_true] at *
    split <;> exact Eq.symm ‹_›

end Child

namespace Stream

/-- The stream waits in the world and has nothing to deliver. -/
inductive Asleep (w : World) : {α : Type} → Stream α → Prop
  | lasting {α : Type} : Asleep w (.lasting [] : Stream α)
  | watch {topic : Topic} {seen : Nat} (hseen : (w.read topic).version = seen)
      (hopen : (w.read topic).closed = false) : Asleep w (.watch topic (some seen))
  | clock {period next : Nat} (hlater : w.time < next) : Asleep w (.clock period (some next))
  | scan {σ α β : Type} {step : σ → α → σ × Option β} {state : σ} {source : Stream α}
      (hsource : Asleep w source) : Asleep w (.scan step state source)
  | dedup {α : Type} {same : α → α → Bool} {last : Option α} {source : Stream α}
      (hsource : Asleep w source) : Asleep w (.dedup same last source)
  /-- A selection asks nobody while its queue is empty, however its children are. -/
  | select {α : Type} {ss : List (Stream α)} (hgoes : ss.all isEnded = false) :
      Asleep w (.select (StreamList.ofList ss) [])
  | switch {α β : Type} {bounded : Bool} {project : α → Stream β} {source : Stream α}
      {inner : Stream β} (hsource : Asleep w source) (hinner : Asleep w inner) :
      Asleep w (.switch bounded project source inner)
  | switchSource {α β : Type} {bounded : Bool} {project : α → Stream β} {source : Stream α}
      (hsource : Asleep w source) : Asleep w (.switch bounded project source ended)
  | switchInner {α β : Type} {project : α → Stream β} {inner : Stream β}
      (hinner : Asleep w inner) : Asleep w (.switch false project ended inner)
  | timeout {α : Type} {millis deadline : Nat} {late : α} {source : Stream α}
      (hlater : w.time < deadline) (hsource : Asleep w source) :
      Asleep w (.timeout millis late (some deadline) source)

/-- The stream has ended or is asleep. -/
def Rested (w : World) (s : Stream α) : Prop := s.isEnded = true ∨ s.Asleep w

variable {w : World} {s : Stream α}

/-- A stream that is asleep has not ended. -/
lemma Asleep.goes (h : s.Asleep w) : s.isEnded = false := by
  cases h <;> rfl

lemma rested_ended : (ended : Stream α).Rested w := .inl rfl

/-- Reading a stream that is asleep gives nothing and leaves it as it is. -/
theorem Asleep.run (h : s.Asleep w) : s.run w = .pending s := by
  induction h with
  | lasting => rfl
  | watch hseen hopen => simp [Stream.run, Run.ofPublished, hseen, hopen]
  | clock hlater => simp [Stream.run, Run.ofClock, hlater]
  | scan _ ih => rw [Stream.run, ih, Run.through]
  | dedup _ ih => rw [Stream.run, ih, Run.through]
  | @select _ ss hgoes =>
    have hstreams : ((StreamList.ofList ss).runs w [] 0).map Child.stream = ss := by
      refine List.ext_getElem? fun i => ?_
      rw [List.getElem?_map, Child.getElem?_runs, Option.map_map]
      cases ss[i]? with
      | none => rfl
      | some s => exact congrArg some (Child.stream_start w _ s)
    have hgone : ((StreamList.ofList ss).runs w [] 0).all Child.isGone = ss.all isEnded := by
      have hmap : ((StreamList.ofList ss).runs w [] 0).map Child.isGone = ss.map isEnded := by
        refine List.ext_getElem? fun i => ?_
        rw [List.getElem?_map, Child.getElem?_runs, List.getElem?_map, Option.map_map]
        cases ss[i]? with
        | none => rfl
        | some s => exact congrArg some (Child.isGone_start w _ s)
      simpa [List.all_map] using congrArg (List.all · id) hmap
    rw [Stream.run, Child.schedule, hgone, hgoes, Child.streams, hstreams]
    rfl
  | switch hsource _ ihs ihi =>
    rw [Stream.run, ihs]
    simp [Run.final, Run.last?, ihi, Run.switched]
  | switchSource hsource ihs =>
    rw [Stream.run, ihs]
    simp [Run.final, Run.last?, Stream.run, Run.ofFinite, Run.switched, hsource.goes]
  | switchInner _ ihi =>
    rw [Stream.run]
    simp [Stream.run, Run.ofFinite, Run.final, Run.last?, ihi, Run.switched]
  | timeout hlater _ ih =>
    rw [Stream.run, ih]
    simp [Run.timed, Nat.not_le.mpr hlater]

/-- Reading to the end changes nothing where there is nothing to read. -/
lemma Rested.drained (h : s.Rested w) : s.drained w = s := by
  rcases h with hended | hasleep
  · rw [eq_ended_of_isEnded hended, drained_ended]
  · rw [Stream.drained, hasleep.run]
    rfl

/-- A stream that has been read to the end gives nothing more in the same world. -/
lemma Rested.toList_run (h : s.Rested w) : (s.run w).toList = [] := by
  rcases h with hended | hasleep
  · rw [eq_ended_of_isEnded hended]
    rfl
  · rw [hasleep.run]
    rfl

/-! ### Punctual streams -/

/-- No clock in the stream stands still, nor in anything that it switches to. -/
inductive Punctual : {α : Type} → Stream α → Prop
  | finite {α : Type} (items : List α) : Punctual (.finite items)
  | lasting {α : Type} (items : List α) : Punctual (.lasting items)
  | watch (topic : Topic) (seen : Option Nat) : Punctual (.watch topic seen)
  | clock {period : Nat} (hperiod : 0 < period) (next : Option Nat) :
      Punctual (.clock period next)
  | scan {σ α β : Type} {step : σ → α → σ × Option β} {state : σ} {source : Stream α}
      (hsource : Punctual source) : Punctual (.scan step state source)
  | dedup {α : Type} {same : α → α → Bool} {last : Option α} {source : Stream α}
      (hsource : Punctual source) : Punctual (.dedup same last source)
  | select {α : Type} {ss : List (Stream α)} {queue : List Nat} (hss : ∀ s ∈ ss, Punctual s) :
      Punctual (.select (StreamList.ofList ss) queue)
  | switch {α β : Type} {bounded : Bool} {project : α → Stream β} {source : Stream α}
      {inner : Stream β} (hsource : Punctual source) (hproject : ∀ a, Punctual (project a))
      (hinner : Punctual inner) : Punctual (.switch bounded project source inner)
  | timeout {α : Type} {millis : Nat} {late : α} {deadline : Option Nat} {source : Stream α}
      (hsource : Punctual source) : Punctual (.timeout millis late deadline source)

namespace Punctual

lemma ended : (Stream.ended : Stream α).Punctual := finite []

lemma just (a : α) : (Stream.just a).Punctual := finite [a]

lemma map (h : s.Punctual) (f : α → β) : (s.map f).Punctual := h.scan

lemma distinct (h : s.Punctual) (same : α → α → Bool) : (s.distinct same).Punctual := h.dedup

/-- A switch is punctual if its source is, and all streams to which it may switch. -/
lemma switchMap {project : α → Stream β} (h : s.Punctual)
    (hproject : ∀ a, (project a).Punctual) : (s.switchMap project).Punctual :=
  h.switch hproject ended

lemma switchMapBounded {project : α → Stream β} (h : s.Punctual)
    (hproject : ∀ a, (project a).Punctual) : (s.switchMapBounded project).Punctual :=
  h.switch hproject ended

/-- A selection sets up no clock of its own. -/
lemma merge {ss : List (Stream α)} (h : ∀ s ∈ ss, s.Punctual) : (Stream.merge ss).Punctual :=
  select h

lemma combineLatest {ss : List (Stream α)} (h : ∀ s ∈ ss, s.Punctual) :
    (Stream.combineLatest ss).Punctual := by
  cases ss with
  | nil => exact just []
  | cons s rest =>
    rw [combineLatest_cons]
    exact (merge h).scan

/-- Events wake parts of a punctual stream and change nothing else. -/
lemma notify (h : s.Punctual) (e : Event) : (s.notify e).2.Punctual := by
  induction h with
  | finite items => exact .finite items
  | lasting items => exact .lasting items
  | watch topic seen => exact .watch topic seen
  | clock hperiod next => exact .clock hperiod next
  | scan _ ih => exact .scan ih
  | dedup _ ih => exact .dedup ih
  | select _ ih =>
    rw [notify_select]
    refine select fun t ht => ?_
    obtain ⟨s, hs, rfl⟩ := List.mem_map.mp ht
    exact ih s hs
  | switch _ hproject _ ihs _ ihi => exact .switch ihs hproject ihi
  | timeout _ ih => exact .timeout ih

end Punctual

/-! ### Streams that have been read to the end -/

/-- What is left of a stream with a deadline is what is left of its source; as long as
the deadline is to come and nothing was delivered, the deadline stays. -/
lemma drained_timeout (w : World) (millis : Nat) (late : α) (deadline : Option Nat)
    (source : Stream α) :
    (timeout millis late deadline source).drained w = source.drained w ∨
      (source.drained w).isEnded = false ∧ ∃ d, w.time < d ∧
        (timeout millis late deadline source).drained w
          = .timeout millis late (some d) (source.drained w) := by
  rw [drained, drained, Stream.run]
  cases hrun : source.run w with
  | pending rest =>
    rw [Run.timed]
    split
    · exact .inl rfl
    · refine .inr ⟨isEnded_of_final_run (w := w) source ?_, _, Nat.not_le.mp ‹_›, rfl⟩
      rw [hrun]
      rfl
  | ended => exact .inl rfl
  | item a rest more => exact .inl rfl

/-- The first tick behind those that are due lies in the future. -/
lemma exists_final_ofTicks {period : Nat} (hperiod : 0 < period) (now next : Nat) :
    ∃ t, now < t ∧ (Run.ofTicks period ((now - next) / period + 1) next).final
      = some (.clock period (some t)) := by
  have hfinal (count next : Nat) : (Run.ofTicks period count next).final
      = some (.clock period (some (next + count * period))) := by
    induction count generalizing next with
    | zero => simp [Run.ofTicks, Run.final]
    | succ count ih =>
      rw [Run.ofTicks, Run.final, ih, Nat.add_assoc, Nat.add_comm period, ← Nat.succ_mul]
  refine ⟨_, ?_, hfinal _ next⟩
  have hlast := Nat.lt_mul_div_succ (now - next) hperiod
  rw [Nat.mul_comm] at hlast
  omega

/-- A punctual stream that has been read to the end has ended or is asleep. -/
theorem Punctual.drained (h : s.Punctual) (w : World) :
    (s.drained w).Punctual ∧ (s.drained w).Rested w := by
  induction h with
  | finite items =>
    rw [Stream.drained, Stream.run, Run.final_ofFinite]
    exact ⟨ended, rested_ended⟩
  | lasting items =>
    rw [Stream.drained, Stream.run, Run.final_ofLasting]
    exact ⟨lasting [], .inr .lasting⟩
  | watch topic seen =>
    rw [Stream.drained, Stream.run, Run.ofPublished]
    cases hclosed : (w.read topic).closed with
    | true => split <;> exact ⟨ended, rested_ended⟩
    | false => split <;> exact ⟨.watch topic _, .inr (.watch rfl hclosed)⟩
  | @clock period hperiod next =>
    rw [Stream.drained, Stream.run, Run.ofClock]
    split
    · exact ⟨clock hperiod _, .inr (.clock ‹_›)⟩
    · obtain ⟨t, hlater, hfinal⟩ := exists_final_ofTicks hperiod w.time (next.getD w.time)
      rw [hfinal]
      exact ⟨clock hperiod _, .inr (.clock hlater)⟩
  | scan _ ih =>
    rw [drained_scan]
    split
    · exact ⟨ended, rested_ended⟩
    · exact ⟨ih.1.scan, ih.2.imp (absurd · ‹_›) .scan⟩
  | dedup _ ih =>
    rw [drained_dedup]
    split
    · exact ⟨ended, rested_ended⟩
    · exact ⟨ih.1.dedup, ih.2.imp (absurd · ‹_›) .dedup⟩
  | @select _ ss queue hss ih =>
    rw [drained_select]
    split
    · exact ⟨ended, rested_ended⟩
    · refine ⟨select fun t ht => ?_, .inr (.select (Bool.eq_false_iff.mpr ‹_›))⟩
      obtain ⟨i, hi, rfl⟩ := List.mem_mapIdx.mp ht
      split
      · exact (ih _ (List.getElem_mem hi)).1
      · exact hss _ (List.getElem_mem hi)
  | @switch _ _ bounded project source inner _ hproject _ ihs ihp ihi =>
    have hcurrent : ((current w project source inner).drained w).Punctual ∧
        ((current w project source inner).drained w).Rested w := by
      rw [current]
      cases (source.run w).last? none with
      | none => exact ihi
      | some a => exact ihp a
    by_cases hends : bounded = true ∧ (source.drained w).isEnded = true
    · obtain ⟨rfl, hends⟩ := hends
      rw [Stream.drained, run_switch_of_ended w _ _ _ ((isEnded_drained_iff w source).mp hends)]
      exact ⟨ended, rested_ended⟩
    · have hgoes : bounded = true → (source.drained w).isEnded = false := fun hb =>
        Bool.eq_false_iff.mpr fun h => hends ⟨hb, h⟩
      rw [drained_switch hgoes]
      split
      · exact ⟨ended, rested_ended⟩
      · rename_i hsome
        refine ⟨.switch ihs.1 hproject hcurrent.1, .inr ?_⟩
        rcases ihs.2 with hsource | hsource <;> rcases hcurrent.2 with hinner | hinner
        · exact absurd (by rw [hsource, hinner]; rfl) hsome
        · obtain rfl : bounded = false := Bool.eq_false_iff.mpr fun hb => hends ⟨hb, hsource⟩
          rw [eq_ended_of_isEnded hsource]
          exact .switchInner hinner
        · rw [eq_ended_of_isEnded hinner]
          exact .switchSource hsource
        · exact .switch hsource hinner
  | @timeout _ millis late deadline source _ ih =>
    rcases drained_timeout w millis late deadline source with heq | ⟨hgoes, d, hlater, heq⟩
    · rw [heq]
      exact ih
    · rw [heq]
      refine ⟨ih.1.timeout, .inr (.timeout hlater (ih.2.resolve_left ?_))⟩
      rw [hgoes]
      exact Bool.false_ne_true

/-! ### What wakes a stream -/

/-- The stream waits for the event. -/
def Listens (e : Event) (s : Stream α) : Prop :=
  match e with
  | .published topic => 0 < s.subscriptions topic
  | .reached t => t ∈ s.deadlines

end Stream

/-- The deadlines of a list are those of its streams. -/
lemma StreamList.mem_deadlines_ofList {t : Nat} {ss : List (Stream α)} :
    t ∈ (ofList ss).deadlines ↔ ∃ s ∈ ss, t ∈ s.deadlines := by
  simp [deadlines_ofList, List.mem_flatten]

namespace Stream

/-- A stage with one deadline listens for just this time. -/
lemma beq_reached_iff (next : Option Nat) (t : Nat) :
    (next.any fun u => Event.reached t == .reached u) = true ↔ t ∈ next.toList := by
  cases next with
  | none => simp
  | some u => simp

/-- The coming of a time wakes exactly the streams that wait for it. -/
lemma fst_notify_reached_iff {t : Nat} (s : Stream α) :
    (s.notify (.reached t)).1 = true ↔ t ∈ s.deadlines := by
  induction s using Stream.induction with
  | finite items => simp [notify, deadlines]
  | lasting items => simp [notify, deadlines]
  | watch topic seen => simp [notify, deadlines]
  | clock period next => exact beq_reached_iff next t
  | scan step state source ih => exact ih
  | dedup same last source ih => exact ih
  | select ss queue ih =>
    rw [notify_select, deadlines, StreamList.mem_deadlines_ofList]
    simp only [Bool.not_eq_true', List.isEmpty_eq_false_iff_exists_mem, mem_wokenBy]
    constructor
    · rintro ⟨i, s, hs, hwoke⟩
      have hmem := List.mem_of_getElem? hs
      exact ⟨s, hmem, (ih s hmem).mp hwoke⟩
    · rintro ⟨s, hs, hdue⟩
      obtain ⟨i, hi⟩ := List.mem_iff_getElem?.mp hs
      exact ⟨i, s, hi, (ih s hs).mpr hdue⟩
  | switch bounded project source inner ihs ihi _ =>
    simp only [notify, deadlines, Bool.or_eq_true, ihs, ihi, List.mem_append]
  | timeout millis late deadline source ih =>
    simp only [notify, deadlines, Bool.or_eq_true, ih, List.mem_append, beq_reached_iff]
    exact or_comm

/-- An event wakes exactly the streams that wait for it. -/
theorem fst_notify_iff_listens {e : Event} (s : Stream α) :
    (s.notify e).1 = true ↔ s.Listens e := by
  cases e with
  | published topic => exact s.fst_notify_iff
  | reached t => exact s.fst_notify_reached_iff

/-- Being told moves no deadline; only reading does. -/
lemma deadlines_notify (e : Event) (s : Stream α) : (s.notify e).2.deadlines = s.deadlines := by
  induction s using Stream.induction with
  | finite items => rfl
  | lasting items => rfl
  | watch topic seen => rfl
  | clock period next => rfl
  | scan step state source ih => exact ih
  | dedup same last source ih => exact ih
  | select ss queue ih =>
    rw [notify_select, deadlines, deadlines, StreamList.deadlines_ofList,
      StreamList.deadlines_ofList, List.map_map]
    exact congrArg List.flatten (List.map_congr_left ih)
  | switch bounded project source inner ihs ihi _ => simp only [notify, deadlines, ihs, ihi]
  | timeout millis late deadline source ih => simp only [notify, deadlines, ih]

/-- What a stream waits for does not change by what it is told. -/
lemma listens_notify {e e' : Event} (s : Stream α) :
    (s.notify e').2.Listens e ↔ s.Listens e := by
  cases e with
  | published topic => rw [Listens, Listens, subscriptions_notify]
  | reached t => rw [Listens, Listens, deadlines_notify]

/-- A stream that does not wait for the event stays as it is. -/
theorem snd_notify_of_not_listens {e : Event} (s : Stream α) (h : ¬ s.Listens e) :
    (s.notify e).2 = s := by
  rw [← fst_notify_iff_listens] at h
  induction s using Stream.induction with
  | finite items => rfl
  | lasting items => rfl
  | watch topic seen => rfl
  | clock period next => rfl
  | scan step state source ih => exact congrArg _ (ih h)
  | dedup same last source ih => exact congrArg _ (ih h)
  | select ss queue ih =>
    rw [notify_select] at h ⊢
    have hnone : wokenBy e ss = [] := by simpa using h
    have hsame : (ss.map fun s => (s.notify e).2) = ss := by
      refine (List.map_congr_left fun s hs => ih s hs fun hwoke => ?_).trans (List.map_id' ss)
      obtain ⟨i, hi⟩ := List.mem_iff_getElem?.mp hs
      have hmem : i ∈ wokenBy e ss := mem_wokenBy.mpr ⟨s, hi, hwoke⟩
      rw [hnone] at hmem
      exact List.not_mem_nil hmem
    rw [hnone, hsame]
    simp [enqueue]
  | switch bounded project source inner ihs ihi _ =>
    simp only [notify, Bool.or_eq_true, not_or] at h
    simp only [notify, ihs h.1, ihi h.2]
  | timeout millis late deadline source ih =>
    simp only [notify, Bool.or_eq_true, not_or] at h
    simp only [notify, ih h.1]

/-! ### Several events -/

variable {w : World} {s : Stream α}

/-- The stream after events, one after the other. -/
def heard (es : List Event) (s : Stream α) : Stream α :=
  es.foldl (fun s e => (s.notify e).2) s

/-- The stream waits for one of the events. -/
def Hears (es : List Event) (s : Stream α) : Prop := ∃ e ∈ es, s.Listens e

lemma heard_cons (e : Event) (es : List Event) (s : Stream α) :
    s.heard (e :: es) = (s.notify e).2.heard es := rfl

@[simp] lemma heard_ended (es : List Event) : (ended : Stream α).heard es = ended := by
  induction es with
  | nil => rfl
  | cons e rest ih => exact ih

lemma heard_map (es : List Event) (f : α → β) (s : Stream α) :
    (s.map f).heard es = (s.heard es).map f := by
  induction es generalizing s with
  | nil => rfl
  | cons e rest ih => exact ih _

/-- Whatever it is told, a punctual stream stays punctual. -/
lemma Punctual.heard (h : s.Punctual) (es : List Event) : (s.heard es).Punctual := by
  induction es generalizing s with
  | nil => exact h
  | cons e rest ih => exact ih (h.notify e)

/-- Events that the stream does not wait for may as well be left out. -/
lemma heard_filter {p : Event → Bool} (es : List Event) (s : Stream α)
    (h : ∀ e ∈ es, s.Listens e → p e = true) : s.heard (es.filter p) = s.heard es := by
  induction es generalizing s with
  | nil => rfl
  | cons e rest ih =>
    rw [List.forall_mem_cons] at h
    have hrest (e') (he' : e' ∈ rest) (hlistens : (s.notify e).2.Listens e') : p e' = true :=
      h.2 e' he' (s.listens_notify.mp hlistens)
    cases hp : p e with
    | true => rw [List.filter_cons_of_pos hp, heard_cons, heard_cons, ih _ hrest]
    | false =>
      have hdeaf : ¬ s.Listens e := fun hlistens => by simp [h.1 hlistens] at hp
      have hsame : (s.notify e).2 = s := s.snd_notify_of_not_listens hdeaf
      rw [hsame] at hrest
      rw [List.filter_cons_of_neg (by simp [hp]), heard_cons, hsame, ih s hrest]

/-- Events for which a stream does not listen leave it as it is. -/
lemma heard_of_not_hears {es : List Event} (h : ¬ s.Hears es) : s.heard es = s := by
  have hnone : s.heard (es.filter fun _ => false) = s.heard es :=
    heard_filter es s fun e he hlistens => absurd ⟨e, he, hlistens⟩ h
  rw [← hnone, List.filter_false]
  rfl

/-- Of a selection the children wake that listen to one of the events. -/
theorem heard_select (es : List Event) (ss : List (Stream α)) (queue : List Nat) :
    ∃ queue', (select (StreamList.ofList ss) queue).heard es
        = .select (StreamList.ofList (ss.map (heard es))) queue' ∧
      ∀ i, i ∈ queue' ↔ i ∈ queue ∨ ∃ s, ss[i]? = some s ∧ s.Hears es := by
  induction es generalizing ss queue with
  | nil =>
    refine ⟨queue, ?_, fun i => by simp [Hears]⟩
    exact congrArg (fun ss => select (StreamList.ofList ss) queue) (List.map_id' ss).symm
  | cons e rest ih =>
    rw [heard_cons, notify_select]
    obtain ⟨queue', hheard, hqueue⟩ := ih (ss.map fun s => (s.notify e).2)
      (enqueue queue (wokenBy e ss))
    refine ⟨queue', ?_, fun i => ?_⟩
    · rw [hheard, List.map_map]
      rfl
    · rw [hqueue, mem_enqueue, mem_wokenBy, or_assoc, List.getElem?_map]
      cases ss[i]? with
      | none => simp
      | some s =>
        simp only [Option.some.injEq, Option.map_some, exists_eq_left', Hears, listens_notify,
          fst_notify_iff_listens, List.mem_cons, exists_eq_or_imp]

/-! ### How long the sleep lasts -/

/-- Nothing that the stream waits for has happened between the worlds. -/
structure Unmoved (w w' : World) (s : Stream α) : Prop where
  topics : ∀ topic, s.Listens (.published topic) → w'.read topic = w.read topic
  times : ∀ t, s.Listens (.reached t) → w.time < t → w'.time < t

/-- Where nothing has happened for which a stream listens, nothing has happened for a stream
that listens for less. -/
lemma Unmoved.imp {w' : World} {t : Stream β} (h : t.Unmoved w w')
    (himp : ∀ e, s.Listens e → t.Listens e) : s.Unmoved w w' :=
  ⟨fun _ hlistens => h.topics _ (himp _ hlistens), fun _ hlistens => h.times _ (himp _ hlistens)⟩

/-- A switch listens for whatever its source listens for. -/
lemma Listens.switchSource {e : Event} {bounded : Bool} {project : α → Stream β}
    {inner : Stream β} (h : s.Listens e) : (switch bounded project s inner).Listens e := by
  cases e with
  | published topic => exact Nat.add_pos_left h _
  | reached t => exact List.mem_append_left _ h

lemma Listens.switchInner {e : Event} {bounded : Bool} {project : β → Stream α}
    {source : Stream β} (h : s.Listens e) : (switch bounded project source s).Listens e := by
  cases e with
  | published topic => exact Nat.add_pos_right _ h
  | reached t => exact List.mem_append_right _ h

lemma Listens.timeout {e : Event} {millis : Nat} {late : α} {deadline : Option Nat}
    (h : s.Listens e) : (Stream.timeout millis late deadline s).Listens e := by
  cases e with
  | published topic => exact h
  | reached t => exact List.mem_append_right _ h

/-- A stream sleeps on until something happens that it waits for. -/
theorem Asleep.of_unmoved {w' : World} (h : s.Asleep w) (hunmoved : s.Unmoved w w') :
    s.Asleep w' := by
  induction h with
  | lasting => exact .lasting
  | @watch topic seen hseen hopen =>
    have hread : w'.read topic = w.read topic :=
      hunmoved.topics topic (by simp [Listens, subscriptions])
    exact .watch (by rw [hread, hseen]) (by rw [hread, hopen])
  | @clock period next hlater =>
    exact .clock (hunmoved.times next (by simp [Listens, deadlines]) hlater)
  | scan _ ih => exact .scan (ih (hunmoved.imp fun e h => by cases e <;> exact h))
  | dedup _ ih => exact .dedup (ih (hunmoved.imp fun e h => by cases e <;> exact h))
  | select hgoes => exact .select hgoes
  | switch _ _ ihs ihi =>
    exact .switch (ihs (hunmoved.imp fun _ => .switchSource))
      (ihi (hunmoved.imp fun _ => .switchInner))
  | switchSource _ ihs => exact .switchSource (ihs (hunmoved.imp fun _ => .switchSource))
  | switchInner _ ihi => exact .switchInner (ihi (hunmoved.imp fun _ => .switchInner))
  | @timeout _ millis deadline late source hlater _ ih =>
    exact .timeout (hunmoved.times deadline (by simp [Listens, deadlines]) hlater)
      (ih (hunmoved.imp fun _ => .timeout))

/-- The rest lasts until something happens for which the stream listens. -/
lemma Rested.of_unmoved {w' : World} (h : s.Rested w) (hunmoved : s.Unmoved w w') :
    s.Rested w' :=
  h.imp id fun hasleep => hasleep.of_unmoved hunmoved

lemma isEnded_notify (e : Event) : (s.notify e).2.isEnded = s.isEnded := by
  cases s <;> rfl

/-- Events end no stream. -/
lemma isEnded_heard (es : List Event) : (s.heard es).isEnded = s.isEnded := by
  induction es generalizing s with
  | nil => rfl
  | cons e rest ih => rw [heard_cons, ih, isEnded_notify]

end Stream
end Verdict
