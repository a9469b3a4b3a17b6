/-
What wakes a stream.

* `Stream.induction`: induction on streams, with the children of a selection as
  a list.
* `Stream.fst_notify_iff`: a publication wakes exactly the streams that hold a
  subscription to its topic.
* `Stream.told`: the stream after several publications, and
  `Stream.told_select`: of a selection they wake the children that subscribe to
  one of them.
* `World.After`: a world in which some topics have been published since, such as the one
  after `World.publishAttribute`.
-/
import Mathlib.Algebra.Ring.Nat
import Verdict.Proofs.Stream.Reading
import Verdict.Proofs.Value.Equality
import Verdict.Stream.Notify

namespace Verdict

variable {σ α β : Type}

/-! ### Induction on streams -/

section Induction

variable {motive : ∀ {α : Type}, Stream α → Prop}
  (finite : ∀ {α : Type} (items : List α), motive (.finite items))
  (lasting : ∀ {α : Type} (items : List α), motive (.lasting items))
  (watch : ∀ (topic : Topic) (seen : Option Nat), motive (.watch topic seen))
  (clock : ∀ (period : Nat) (next : Option Nat), motive (.clock period next))
  (scan : ∀ {σ α β : Type} (step : σ → α → σ × Option β) (state : σ) (source : Stream α),
    motive source → motive (.scan step state source))
  (dedup : ∀ {α : Type} (same : α → α → Bool) (last : Option α) (source : Stream α),
    motive source → motive (.dedup same last source))
  (select : ∀ {α : Type} (ss : List (Stream α)) (queue : List Nat),
    (∀ s ∈ ss, motive s) → motive (.select (StreamList.ofList ss) queue))
  (switch : ∀ {α β : Type} (bounded : Bool) (project : α → Stream β) (source : Stream α)
    (inner : Stream β), motive source → motive inner → (∀ a, motive (project a)) →
      motive (.switch bounded project source inner))
  (timeout : ∀ {α : Type} (millis : Nat) (late : α) (deadline : Option Nat) (source : Stream α),
    motive source → motive (.timeout millis late deadline source))

include finite lasting watch clock scan dedup select switch timeout

/-- Induction on a stream. -/
@[elab_as_elim]
theorem Stream.induction {α : Type} (s : Stream α) : motive s :=
  @Stream.rec (fun _ s => motive s)
    (fun _ children => ∃ ss, children = StreamList.ofList ss ∧ ∀ s ∈ ss, motive s)
    finite lasting watch clock scan dedup
    (fun _ queue h => by
      obtain ⟨ss, rfl, hss⟩ := h
      exact select ss queue hss)
    (fun bounded project source inner hproject hsource hinner =>
      switch bounded project source inner hsource hinner hproject)
    timeout ⟨[], rfl, by simp⟩
    (fun head _ hhead htail => by
      obtain ⟨ss, rfl, hss⟩ := htail
      exact ⟨head :: ss, rfl, List.forall_mem_cons.mpr ⟨hhead, hss⟩⟩)
    α s

end Induction

/-! ### Subscriptions and deadlines of lists -/

/-- The subscriptions of a list are those of its streams together. -/
lemma StreamList.subscriptions_ofList (topic : Topic) (ss : List (Stream α)) :
    (ofList ss).subscriptions topic = (ss.map (Stream.subscriptions topic)).sum := by
  induction ss with
  | nil => rfl
  | cons s rest ih => rw [ofList, subscriptions, ih, List.map_cons, List.sum_cons]

lemma StreamList.deadlines_ofList (ss : List (Stream α)) :
    (ofList ss).deadlines = (ss.map Stream.deadlines).flatten := by
  induction ss with
  | nil => rfl
  | cons s rest ih => rw [ofList, deadlines, ih, List.map_cons, List.flatten_cons]

/-- Telling a list of streams wakes those of its streams that wake. -/
lemma StreamList.notify_ofList (e : Event) (ss : List (Stream α)) (index : Nat) :
    (ofList ss).notify e index
      = ((ss.zipIdx index).filterMap fun (s, i) => if (s.notify e).1 then some i else none,
        ofList (ss.map fun s => (s.notify e).2)) := by
  induction ss generalizing index with
  | nil => rfl
  | cons s rest ih =>
    rw [ofList, notify, ih, List.zipIdx_cons, List.filterMap_cons, List.map_cons, ofList]
    cases hwoke : (s.notify e).1 <;> simp [hwoke]

/-- The numbers of the children that an event wakes. -/
def wokenBy (e : Event) (ss : List (Stream α)) : List Nat :=
  (ss.zipIdx 0).filterMap fun (s, i) => if (s.notify e).1 then some i else none

/-- The slots that an event wakes are those of the streams that it wakes. -/
lemma mem_wokenBy {e : Event} {ss : List (Stream α)} {i : Nat} :
    i ∈ wokenBy e ss ↔ ∃ s, ss[i]? = some s ∧ (s.notify e).1 = true := by
  rw [wokenBy, List.mem_filterMap]
  constructor
  · rintro ⟨⟨s, j⟩, hmem, h⟩
    have hj : ss[j]? = some s := by simpa using List.mem_zipIdx_iff_getElem?.mp hmem
    cases hwoke : (s.notify e).1 with
    | false => simp [hwoke] at h
    | true =>
      simp only [hwoke, ↓reduceIte, Option.some.injEq] at h
      exact ⟨s, h ▸ hj, hwoke⟩
  · rintro ⟨s, hs, hwoke⟩
    exact ⟨(s, i), List.mem_zipIdx_iff_getElem?.mpr (by simpa using hs), by simp [hwoke]⟩

/-- A slot that is woken is queued, and none leaves the queue. -/
lemma mem_enqueue {queue woken : List Nat} {i : Nat} :
    i ∈ enqueue queue woken ↔ i ∈ queue ∨ i ∈ woken := by
  rw [enqueue, List.mem_append, List.mem_filter]
  by_cases h : i ∈ queue <;> simp [h]

namespace Stream

/-- A selection is woken by what wakes some of its streams, and queues these. -/
lemma notify_select (e : Event) (ss : List (Stream α)) (queue : List Nat) :
    (select (StreamList.ofList ss) queue).notify e
      = (!(wokenBy e ss).isEmpty,
        .select (StreamList.ofList (ss.map fun s => (s.notify e).2))
          (enqueue queue (wokenBy e ss))) := by
  rw [notify, StreamList.notify_ofList]
  rfl

/-! ### Publications -/

/-- A publication is not the coming of a time. -/
lemma beq_published_reached (topic : Topic) (t : Nat) :
    (Event.published topic == Event.reached t) = false := by simp

/-- A publication wakes a stream exactly if it subscribes to the topic. -/
theorem fst_notify_iff {topic : Topic} (s : Stream α) :
    (s.notify (.published topic)).1 = true ↔ 0 < s.subscriptions topic := by
  induction s using Stream.induction with
  | finite items => simp [notify, subscriptions]
  | lasting items => simp [notify, subscriptions]
  | watch t seen =>
    by_cases h : t = topic
    · subst h
      simp [notify, subscriptions]
    · simp [notify, subscriptions, h, Ne.symm h]
  | clock period next => simp [notify, subscriptions, beq_published_reached]
  | scan step state source ih => exact ih
  | dedup same last source ih => exact ih
  | select ss queue ih =>
    rw [notify_select, subscriptions, StreamList.subscriptions_ofList]
    simp only [Bool.not_eq_true', List.isEmpty_eq_false_iff]
    rw [List.sum_pos_iff_exists_pos_nat]
    constructor
    · intro hne
      obtain ⟨i, hi⟩ := List.exists_mem_of_ne_nil _ hne
      obtain ⟨s, hs, hwoke⟩ := mem_wokenBy.mp hi
      have hmem := List.mem_of_getElem? hs
      exact ⟨_, List.mem_map_of_mem hmem, (ih s hmem).mp hwoke⟩
    · rintro ⟨n, hn, hpos⟩
      obtain ⟨s, hmem, rfl⟩ := List.mem_map.mp hn
      obtain ⟨i, hi⟩ := List.mem_iff_getElem?.mp hmem
      exact List.ne_nil_of_mem (mem_wokenBy.mpr ⟨s, hi, (ih s hmem).mpr hpos⟩)
  | switch bounded project source inner ihs ihi _ =>
    simp only [notify, subscriptions, Bool.or_eq_true, ihs, ihi]
    omega
  | timeout millis late deadline source ih =>
    simp [notify, subscriptions, ih, beq_published_reached]

/-- Telling a stream of an event keeps its subscriptions. -/
theorem subscriptions_notify (e : Event) (topic : Topic) (s : Stream α) :
    (s.notify e).2.subscriptions topic = s.subscriptions topic := by
  induction s using Stream.induction with
  | finite items => rfl
  | lasting items => rfl
  | watch t seen => rfl
  | clock period next => rfl
  | scan step state source ih => exact ih
  | dedup same last source ih => exact ih
  | select ss queue ih =>
    rw [notify_select, subscriptions, subscriptions, StreamList.subscriptions_ofList,
      StreamList.subscriptions_ofList, List.map_map]
    exact congrArg List.sum (List.map_congr_left ih)
  | switch bounded project source inner ihs ihi _ => simp only [notify, subscriptions, ihs, ihi]
  | timeout millis late deadline source ih => exact ih

/-- A stream that does not subscribe to the topic stays as it is. -/
theorem snd_notify_of_unsubscribed {topic : Topic} (s : Stream α)
    (h : s.subscriptions topic = 0) : (s.notify (.published topic)).2 = s := by
  induction s using Stream.induction with
  | finite items => rfl
  | lasting items => rfl
  | watch t seen => rfl
  | clock period next => rfl
  | scan step state source ih => exact congrArg _ (ih h)
  | dedup same last source ih => exact congrArg _ (ih h)
  | select ss queue ih =>
    rw [subscriptions, StreamList.subscriptions_ofList, List.sum_eq_zero_iff_forall_eq_nat] at h
    have hzero : ∀ s ∈ ss, s.subscriptions topic = 0 := fun s hs => h _ (List.mem_map_of_mem hs)
    have hnone : wokenBy (.published topic) ss = [] := by
      rw [List.eq_nil_iff_forall_not_mem]
      intro i hi
      obtain ⟨s, hs, hwoke⟩ := mem_wokenBy.mp hi
      have := s.fst_notify_iff.mp hwoke
      have := hzero s (List.mem_of_getElem? hs)
      omega
    have hsame : (ss.map fun s => (s.notify (.published topic)).2) = ss := by
      rw [List.map_congr_left fun s hs => ih s hs (hzero s hs), List.map_id']
    rw [notify_select, hnone, hsame]
    simp [enqueue]
  | switch bounded project source inner ihs ihi _ =>
    rw [subscriptions, Nat.add_eq_zero_iff] at h
    simp only [notify, ihs h.1, ihi h.2]
  | timeout millis late deadline source ih => exact congrArg _ (ih h)

/-! ### Several publications -/

/-- The stream after publications of these topics, one after the other. -/
def told (topics : List Topic) (s : Stream α) : Stream α :=
  topics.foldl (fun s topic => (s.notify (.published topic)).2) s

lemma told_cons (topic : Topic) (topics : List Topic) (s : Stream α) :
    s.told (topic :: topics) = (s.notify (.published topic)).2.told topics := rfl

/-- Publications in two stretches. -/
lemma told_append (topics more : List Topic) (s : Stream α) :
    s.told (topics ++ more) = (s.told topics).told more := List.foldl_append

/-- Publications to which a stream does not subscribe leave it as it is. -/
lemma told_of_unsubscribed {topics : List Topic} {s : Stream α}
    (h : ∀ t ∈ topics, s.subscriptions t = 0) : s.told topics = s := by
  induction topics with
  | nil => rfl
  | cons t rest ih =>
    rw [told_cons, s.snd_notify_of_unsubscribed (h t List.mem_cons_self)]
    exact ih fun u hu => h u (List.mem_cons_of_mem _ hu)

@[simp] lemma told_finite (topics : List Topic) (items : List α) :
    (finite items).told topics = .finite items := told_of_unsubscribed fun _ _ => rfl

@[simp] lemma told_lasting (topics : List Topic) (items : List α) :
    (lasting items).told topics = .lasting items := told_of_unsubscribed fun _ _ => rfl

/-- A watch notes no publication; it compares versions when it is read. -/
@[simp] lemma told_watch (topics : List Topic) (topic : Topic) (seen : Option Nat) :
    (watch topic seen).told topics = .watch topic seen := by
  induction topics with
  | nil => rfl
  | cons t rest ih => exact ih

@[simp] lemma told_scan (topics : List Topic) (step : σ → α → σ × Option β) (state : σ)
    (source : Stream α) :
    (scan step state source).told topics = .scan step state (source.told topics) := by
  induction topics generalizing source with
  | nil => rfl
  | cons t rest ih => exact ih _

@[simp] lemma told_dedup (topics : List Topic) (same : α → α → Bool) (last : Option α)
    (source : Stream α) :
    (dedup same last source).told topics = .dedup same last (source.told topics) := by
  induction topics generalizing source with
  | nil => rfl
  | cons t rest ih => exact ih _

/-- Both the source of a switch and the stream that it runs are told. -/
@[simp] lemma told_switch (topics : List Topic) (bounded : Bool) (project : α → Stream β)
    (source : Stream α) (inner : Stream β) :
    (switch bounded project source inner).told topics
      = .switch bounded project (source.told topics) (inner.told topics) := by
  induction topics generalizing source inner with
  | nil => rfl
  | cons t rest ih => exact ih _ _

/-- Whether one of the topics wakes the stream. -/
def Wakes (topics : List Topic) (s : Stream α) : Prop := ∃ t ∈ topics, 0 < s.subscriptions t

/-- The first topic wakes a child, or one of the others does. -/
lemma mem_wokenBy_or {t : Topic} {rest : List Topic} {ss : List (Stream α)} {i : Nat} :
    (i ∈ wokenBy (.published t) ss ∨
        ∃ s, (ss.map fun s => (s.notify (.published t)).2)[i]? = some s ∧ s.Wakes rest) ↔
      ∃ s, ss[i]? = some s ∧ s.Wakes (t :: rest) := by
  rw [mem_wokenBy, List.getElem?_map]
  cases ss[i]? with
  | none => simp
  | some s =>
    simp only [Option.some.injEq, Option.map_some, exists_eq_left', Wakes, subscriptions_notify,
      fst_notify_iff, List.mem_cons, exists_eq_or_imp]

/-- Of a selection the children wake that subscribe to one of the topics; they
stand behind those that were awake before. -/
theorem told_select (topics : List Topic) (ss : List (Stream α)) (queue : List Nat) :
    ∃ queue', (select (StreamList.ofList ss) queue).told topics
        = .select (StreamList.ofList (ss.map (told topics))) queue' ∧
      (∀ i, i ∈ queue' ↔ i ∈ queue ∨ ∃ s, ss[i]? = some s ∧ s.Wakes topics) ∧
      queue <+: queue' := by
  induction topics generalizing ss queue with
  | nil =>
    refine ⟨queue, ?_, fun i => ?_, List.prefix_rfl⟩
    · exact congrArg (fun ss => select (StreamList.ofList ss) queue) (List.map_id' ss).symm
    · simp [Wakes]
  | cons t rest ih =>
    rw [told_cons, notify_select]
    obtain ⟨queue', htold, hqueue, hprefix⟩ := ih (ss.map fun s => (s.notify (.published t)).2)
      (enqueue queue (wokenBy (.published t) ss))
    refine ⟨queue', ?_, fun i => ?_, (List.prefix_append _ _).trans hprefix⟩
    · rw [htold, List.map_map]
      rfl
    · rw [hqueue, mem_enqueue, or_assoc, mem_wokenBy_or]

/-- A selection that waits for nothing is woken by the first topic alone at first. -/
lemma told_select_nil (topics : List Topic) (ss : List (Stream α)) :
    ∃ queue, (select (StreamList.ofList ss) []).told topics
        = .select (StreamList.ofList (ss.map (told topics))) queue ∧
      (∀ i, i ∈ queue ↔ ∃ s, ss[i]? = some s ∧ s.Wakes topics) ∧
      ∀ t ∈ topics.head?, wokenBy (.published t) ss <+: queue := by
  cases topics with
  | nil =>
    obtain ⟨queue, htold, hqueue, -⟩ := told_select [] ss []
    exact ⟨queue, htold, fun i => by rw [hqueue]; simp, by simp⟩
  | cons t rest =>
    have henqueue : enqueue [] (wokenBy (.published t) ss) = wokenBy (.published t) ss := by
      simp [enqueue]
    obtain ⟨queue, htold, hqueue, hprefix⟩ := told_select rest
      (ss.map fun s => (s.notify (.published t)).2) (wokenBy (.published t) ss)
    refine ⟨queue, ?_, fun i => ?_, fun u hu => ?_⟩
    · rw [told_cons, notify_select, henqueue, htold, List.map_map]
      rfl
    · rw [hqueue, mem_wokenBy_or]
    · rw [← Option.some.inj hu]
      exact hprefix

end Stream

/-! ### Worlds -/

namespace World

/-- Every topic that can be read may still be published. -/
def Open (w : World) : Prop := ∀ topic, (w.read topic).closed = false

/-- The world after publications of these topics, and no others. -/
def After (topics : List Topic) (w w' : World) : Prop :=
  ∀ t, w'.read t = w.read t ∨ (t ∈ topics ∧ (w.read t).version < (w'.read t).version)

/-- Topics that have not been published have their old values. -/
lemma After.read_of_not_mem {topics : List Topic} {w w' : World} (h : After topics w w')
    {t : Topic} (ht : t ∉ topics) : w'.read t = w.read t :=
  (h t).resolve_right fun hmem => ht hmem.1

/-- Publications of some topics, and then of more. -/
lemma After.trans {topics more : List Topic} {w w' w'' : World} (h : After topics w w')
    (h' : After more w' w'') : After (topics ++ more) w w'' := by
  intro t
  rcases h t with heq | ⟨hmem, hlt⟩ <;> rcases h' t with heq' | ⟨hmem', hlt'⟩
  · exact .inl (heq'.trans heq)
  · exact .inr ⟨List.mem_append_right _ hmem', heq ▸ hlt'⟩
  · exact .inr ⟨List.mem_append_left _ hmem, heq' ▸ hlt⟩
  · exact .inr ⟨List.mem_append_left _ hmem, Nat.lt_trans hlt hlt'⟩

/-! Publications of attributes. -/

lemma lookup_publishAttribute (w : World) (name other : String) (value : Value) :
    (w.publishAttribute name value).attributes.lookup other
      = (w.attributes.lookup other).map fun p => if other = name then p.publish value else p := by
  simp only [publishAttribute]
  induction w.attributes with
  | nil => rfl
  | cons entry rest ih =>
    obtain ⟨n, p⟩ := entry
    simp only [List.map_cons, lookup_cons_eq]
    by_cases hname : n = name
    · subst hname
      by_cases hother : other = n <;> simp [hother, lookup_cons_eq, ih]
    · by_cases hother : other = n <;> simp [hother, hname, lookup_cons_eq, ih]

/-- Publishing an attribute changes this topic alone, and its version goes up. -/
lemma after_publishAttribute (w : World) (name : String) (value : Value) :
    After [.ofAttribute name] w (w.publishAttribute name value) := by
  intro t
  cases t with
  | retrieval => exact .inl rfl
  | configuration => exact .inl rfl
  | ofAttribute other =>
    simp only [read, lookup_publishAttribute]
    cases w.attributes.lookup other with
    | none => exact .inl rfl
    | some p =>
      by_cases hother : other = name
      · refine .inr ⟨by simp [hother], ?_⟩
        simp [hother, Published.publish]
      · exact .inl (by simp [hother])

/-- Publishing closes nothing. -/
lemma Open.publishAttribute {w : World} (h : w.Open) (name : String) (value : Value) :
    (w.publishAttribute name value).Open := by
  intro t
  cases t with
  | retrieval => exact h .retrieval
  | configuration => exact h .configuration
  | ofAttribute other =>
    have hread := h (.ofAttribute other)
    simp only [read, lookup_publishAttribute] at hread ⊢
    cases hl : w.attributes.lookup other with
    | none => rfl
    | some p =>
      rw [hl] at hread
      by_cases hother : other = name
      · simpa [hother, Published.publish] using hread
      · simpa [hother] using hread

end World

end Verdict
