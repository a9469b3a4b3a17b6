/-
What a reader gets that reads on.

A reader that has read everything gets, after publications, what the streams
deliver that they wake.  Stages make their news of the news of the stages before
them.  A combination lets its parts speak in the order in which they woke: that
order, and not the order of the publications, decides which lists it delivers.

* `Stream.news`: what is new in a second world.
* `news_map`, `news_distinct`, `news_switch` and their like: the news of stages.
* `Stream.Arrivals`, `exists_arrivals`: the news of the parts of a combination in
  their order, and that the combination makes its own of them.
* `forall_mem_passed_latestStep`: what all lists of a combination have in common.
-/
import Verdict.Proofs.Stream.Convergence

namespace Verdict

variable {σ α β : Type}

/-! ### Lists of stages -/

/-- What is let through is among the items. -/
lemma mem_of_mem_passed_distinctStep {same : α → α → Bool} {last : Option α} {items : List α}
    {a : α} (h : a ∈ passed (distinctStep same) last items) : a ∈ items := by
  induction items generalizing last with
  | nil => exact h
  | cons b rest ih =>
    rw [passed, List.mem_append] at h
    rcases h with h | h
    · have hb : (distinctStep same last b).2 = none ∨ (distinctStep same last b).2 = some b := by
        rw [distinctStep]
        split
        · exact .inl rfl
        · exact .inr rfl
      rcases hb with hb | hb <;> rw [hb] at h
      · simp at h
      · rw [Option.mem_toList.mp h |> Option.some.inj]
        exact List.mem_cons_self
    · exact List.mem_cons_of_mem _ (ih h)

/-- Items that all differ from the one before are all let through. -/
lemma passed_distinctStep_of_chain {same : α → α → Bool} {last : α} {items : List α}
    (h : (last :: items).IsChain fun a b => same a b = false) :
    passed (distinctStep same) (some last) items = items := by
  induction items generalizing last with
  | nil => rfl
  | cons a rest ih =>
    rw [List.isChain_cons_cons] at h
    have hstep : distinctStep same (some last) a = (some a, some a) := by
      simp [distinctStep, h.1]
    rw [passed, hstep, ih h.2]
    rfl

/-- And nothing is taken for a repetition. -/
lemma faithfulTo_of_chain {same : α → α → Bool} {last : α} {items : List α}
    (h : (last :: items).IsChain fun a b => same a b = false) :
    FaithfulTo same (some last) items := by
  induction items generalizing last with
  | nil => trivial
  | cons a rest ih =>
    rw [List.isChain_cons_cons] at h
    refine ⟨fun b hb hsame => ?_, ih h.2⟩
    rw [← Option.some.inj hb, h.1] at hsame
    exact absurd hsame Bool.false_ne_true

/-- What holds of every list that comes of an item in its slot holds of all that
a combination lets through. -/
lemma forall_mem_passed_latestStep (before after : List α → Prop) {latest : List α}
    {items : List (Nat × α)} (h : before latest)
    (hstep : ∀ v, before v → ∀ item ∈ items, after (v.set item.1 item.2))
    (hafter : ∀ v, after v → before v) :
    ∀ v ∈ passed latestStep (latest.map some) items, after v := by
  induction items generalizing latest with
  | nil =>
    intro v hv
    simp at hv
  | cons item rest ih =>
    intro v hv
    have hnext := hstep latest h item List.mem_cons_self
    rw [passed, latestStep_map_some, List.mem_append] at hv
    rcases hv with hv | hv
    · rw [← Option.some.inj (Option.mem_toList.mp hv)]
      exact hnext
    · exact ih (hafter _ hnext) (fun u hu i hi => hstep u hu i (List.mem_cons_of_mem _ hi)) v hv

namespace Stream

variable {w w' : World} {topics : List Topic} {s : Stream α}

/-! ### News -/

/-- What a reader that has read everything in one world gets in a second one,
after publications. -/
def news (w w' : World) (topics : List Topic) (s : Stream α) : List α :=
  ((s.resumed w topics).run w').toList

lemma news_of_ended (h : (s.drained w).isEnded = true) : s.news w w' topics = [] := by
  rw [news, resumed, eq_ended_of_isEnded h, told_finite]
  rfl

lemma goes_of_mem_news {a : α} (h : a ∈ s.news w w' topics) : (s.drained w).isEnded = false := by
  rw [Bool.eq_false_iff]
  intro hended
  rw [news_of_ended hended] at h
  simp at h

/-- The last of the news is the item of a fresh stream. -/
lemma Resumed.getLast?_news (h : s.Resumed w w' topics) {a a' : α} (ha : s.Shows w a)
    (ha' : s.Shows w' a') : (s.news w w' topics).getLast?.or (some a) = some a' := by
  rw [news, ← Run.last?_eq]
  exact h.latest ha ha'

lemma news_map (f : α → β) : (s.map f).news w w' topics = (s.news w w' topics).map f := by
  have hends : ((s.map f).drained w).isEnded = (s.drained w).isEnded := isEnded_drained_scan ..
  cases hended : (s.drained w).isEnded with
  | true =>
    rw [news_of_ended hended, news_of_ended (hends.trans hended)]
    rfl
  | false =>
    rw [news, Stream.map, toList_resumed_scan (hends.trans hended), passed_map]
    rfl

lemma news_distinct {a : α} (same : α → α → Bool) (ha : s.Shows w a) :
    (s.distinct same).news w w' topics
      = passed (distinctStep same) (some a) (s.news w w' topics) := by
  have hends : ((s.distinct same).drained w).isEnded = (s.drained w).isEnded :=
    isEnded_drained_dedup ..
  cases hended : (s.drained w).isEnded with
  | true =>
    rw [news_of_ended hended, news_of_ended (hends.trans hended)]
    rfl
  | false =>
    rw [news, Stream.distinct, resumed_dedup (hends.trans hended), ha, run, Run.toList_through]
    rfl

lemma news_watch {topic : Topic} (hw : w.Open) :
    (watch topic none).news w w' topics
      = if (w.read topic).version = (w'.read topic).version then []
        else [(w'.read topic).value] := by
  rw [news, resumed, drained, run_watch_none hw, Run.final, Run.final, Option.getD_some, told_watch,
    run, Run.toList_ofPublished]
  simp

lemma news_timeout {source : Stream α} {a : α} (ha : source.Shows w a) (millis : Nat) (late : α) :
    (timeout millis late none source).news w w' topics = source.news w w' topics := by
  rw [news, resumed_timeout ha]
  rfl

/-- A switch passes on a fresh stream if its source has news, and otherwise the
news of the stream that it has. -/
theorem news_switch {bounded : Bool} {source : Stream α} {a : α}
    (hends : bounded = true → (source.drained w).isEnded = false)
    (hends' : bounded = true → ((source.resumed w topics).drained w').isEnded = false)
    (ha : source.Shows w a) (project : α → Stream β) :
    (switch bounded project source ended).news w w' topics
      = match (source.news w w' topics).getLast? with
        | some c => ((project c).run w').toList
        | none => (project a).news w w' topics := by
  cases hended : ((switch bounded project source ended).drained w).isEnded with
  | true =>
    have hboth : (source.drained w).isEnded = true ∧ ((project a).drained w).isEnded = true := by
      rw [drained_switch hends, ha.current] at hended
      split at hended
      · rename_i hboth
        exact Bool.and_eq_true_iff.mp hboth
      · simp [isEnded] at hended
    rw [news_of_ended hended, news_of_ended hboth.1, news_of_ended hboth.2]
    rfl
  | false =>
    rw [news, resumed_switch hends ha hended, toList_run_switch hends', current,
      Run.last?_none_eq, ← news]
    cases (source.news w w' topics).getLast? <;> rfl

/-! ### Combinations -/

/-- The news of streams under their numbers, in the order in which a combination
gets them. -/
structure Arrivals (w w' : World) (topics : List Topic) (ss : List (Stream α))
    (arrivals : List (Nat × α)) : Prop where
  /-- A stream that wakes delivers its news. -/
  news : ∀ {i s}, ss[i]? = some s → (s.drained w).Wakes topics →
    itemsOf i arrivals = s.news w w' topics
  /-- Nothing else arrives. -/
  mem : ∀ {i a}, (i, a) ∈ arrivals →
    ∃ s, ss[i]? = some s ∧ (s.drained w).Wakes topics ∧ a ∈ s.news w w' topics
  /-- A stream that the first topic wakes alone comes first. -/
  first : ∀ {topic i s a more}, topics.head? = some topic → ss[i]? = some s →
    0 < (s.drained w).subscriptions topic →
    (∀ {j t}, ss[j]? = some t → 0 < (t.drained w).subscriptions topic → j = i) →
    s.news w w' topics = a :: more → ∃ later, arrivals = (i, a) :: later

/-- A selection starts with the child at the front of its queue. -/
lemma toList_run_select_cons {ss : List (Stream α)} {i : Nat} {a : α} {more : List α}
    (hs : ss[i]? = some s) (ha : (s.run w).toList = a :: more) (queue : List Nat) :
    ∃ later, ((select (StreamList.ofList ss) (i :: queue)).run w).toList = (i, a) :: later := by
  cases hrun : s.run w with
  | pending rest => simp [hrun, Run.toList] at ha
  | ended => simp [hrun, Run.toList] at ha
  | item b rest next =>
    rw [hrun, Run.toList, List.cons.injEq] at ha
    have hgoes : s.isEnded = false := by
      rw [Bool.eq_false_iff]
      intro hended
      rw [eq_ended_of_isEnded hended] at hrun
      cases hrun
    have hchild : ((StreamList.ofList ss).runs w (i :: queue) 0)[i]?
        = some (.ready s (.item b rest next)) := by
      rw [Child.getElem?_runs, hs, Option.map_some, Child.start, hgoes, hrun]
      simp
    rw [run, Child.schedule_item hchild, Run.toList, ha.1]
    exact ⟨_, rfl⟩

lemma exists_cons_of_forall_eq {i : Nat} {queue : List Nat} (hi : i ∈ queue)
    (h : ∀ j ∈ queue, j = i) : ∃ others, queue = i :: others := by
  cases queue with
  | nil => simp at hi
  | cons j others => exact ⟨others, by rw [h j List.mem_cons_self]⟩

/-- Streams that have all ended do not wait for a topic. -/
lemma subscriptions_of_merge_ended {ss : List (Stream α)} {i : Nat}
    (hended : ((merge ss).drained w).isEnded = true) (hs : ss[i]? = some s) (topic : Topic) :
    (s.drained w).subscriptions topic = 0 := by
  rw [drained_merge] at hended
  split at hended
  · rename_i hall
    have hmem := List.mem_map_of_mem (f := drained w) (List.mem_of_getElem? hs)
    rw [eq_ended_of_isEnded (List.all_eq_true.mp hall _ hmem), subscriptions_ended]
  · simp [isEnded] at hended

lemma arrivals_of_merge_ended {ss : List (Stream α)}
    (hended : ((merge ss).drained w).isEnded = true) : Arrivals w w' topics ss [] where
  news := by
    rintro i s hs ⟨topic, -, hpos⟩
    rw [subscriptions_of_merge_ended hended hs] at hpos
    omega
  mem := by simp
  first := by
    intro topic i s a more _ hs hpos
    rw [subscriptions_of_merge_ended hended hs] at hpos
    omega

/-- The first topic leaves the one stream that it wakes at the front of the queue. -/
lemma exists_wokenBy_eq_cons {ss : List (Stream α)} {topic : Topic} {i : Nat}
    (hs : ss[i]? = some s) (hpos : 0 < (s.drained w).subscriptions topic)
    (hone : ∀ {j t}, ss[j]? = some t → 0 < (t.drained w).subscriptions topic → j = i) :
    ∃ others, wokenBy (.published topic) (ss.map (drained w)) = i :: others := by
  have hdrained : (ss.map (drained w))[i]? = some (s.drained w) := by
    rw [List.getElem?_map, hs]
    rfl
  refine exists_cons_of_forall_eq
    (mem_wokenBy.mpr ⟨s.drained w, hdrained, (fst_notify_iff _).mpr hpos⟩) fun j hj => ?_
  obtain ⟨u, hu, hwoke⟩ := mem_wokenBy.mp hj
  rw [List.getElem?_map, Option.map_eq_some_iff] at hu
  obtain ⟨t, ht, rfl⟩ := hu
  exact hone ht ((fst_notify_iff _).mp hwoke)

lemma arrivals_of_merge {ss : List (Stream α)} (hgoes : ((merge ss).drained w).isEnded = false) :
    Arrivals w w' topics ss (((merge ss).resumed w topics).run w').toList := by
  obtain ⟨queue, hqueued, hqueue, hfirst⟩ := resumed_merge hgoes topics
  rw [hqueued]
  refine ⟨?_, ?_, ?_⟩
  · intro i s hs hwakes
    rw [itemsOf_run_select, if_pos ((hqueue i).mpr ⟨s, hs, hwakes⟩), List.getElem?_map, hs]
    rfl
  · intro i a ha
    have hmem := mem_itemsOf ha
    rw [itemsOf_run_select] at hmem
    split at hmem
    · rename_i hi
      obtain ⟨s, hs, hwakes⟩ := (hqueue i).mp hi
      rw [List.getElem?_map, hs] at hmem
      exact ⟨s, hs, hwakes, hmem⟩
    · simp at hmem
  · intro topic i s a more htopic hs hpos hone ha
    obtain ⟨later, rfl⟩ := hfirst topic htopic
    obtain ⟨others, hothers⟩ := exists_wokenBy_eq_cons hs hpos hone
    rw [hothers, List.cons_append]
    exact toList_run_select_cons (by rw [List.getElem?_map, hs]; rfl) ha _

/-- A combination that is read on makes its lists of the news of its parts. -/
theorem exists_arrivals {s : Stream α} {rest : List (Stream α)} {items : List α}
    (hitems : List.Forall₂ (Shows w) (s :: rest) items) (w' : World) (topics : List Topic) :
    ∃ arrivals, Arrivals w w' topics (s :: rest) arrivals ∧
      (Stream.combineLatest (s :: rest)).news w w' topics
        = passed latestStep (items.map some) arrivals := by
  have hends := isEnded_drained_combineLatest w s rest
  cases hended : ((merge (s :: rest)).drained w).isEnded with
  | true =>
    rw [news_of_ended (hends.trans hended)]
    exact ⟨[], arrivals_of_merge_ended hended, rfl⟩
  | false =>
    refine ⟨_, arrivals_of_merge hended, ?_⟩
    rw [combineLatest_cons] at hends ⊢
    rw [news, toList_resumed_scan (hends.trans hended), stateAfter_merge hitems]

end Stream

end Verdict
