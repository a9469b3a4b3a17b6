/-
News and the worlds that were in force.

A reader that reads on may get items that no world in force would show: a
combination delivers a list whenever one of its parts speaks, and by then the
parts that have not spoken may be out of date.  Two topics at most are harmless
if they were published one after the other, because the parts speak in the order
in which they woke.

* `Stream.ReadsOne`: at most one subscription is concerned.
* `Stream.Prompt.news_of_readsOne`: then all news are the item of a fresh stream.
* `Stream.Consistent`: if two topics are concerned, all news are items of fresh
  streams, read when the first of them or both had been published.
* `Stream.Prompt.consistent`: that holds of all prompt streams.
-/
import Mathlib.Algebra.Order.BigOperators.Group.List
import Mathlib.Algebra.Order.Group.Nat
import Verdict.Proofs.Stream.News

namespace Verdict

variable {σ α β : Type}

/-! ### Sums of subscriptions -/

/-- Of numbers that add up to one at most only one is positive. -/
lemma index_eq_of_sum_le_one {ns : List Nat} (h : ns.sum ≤ 1) {i j m n : Nat}
    (hi : ns[i]? = some m) (hj : ns[j]? = some n) (hm : 0 < m) (hn : 0 < n) : i = j := by
  induction ns generalizing i j with
  | nil => simp at hi
  | cons k rest ih =>
    rw [List.sum_cons] at h
    have hle {l p : Nat} (hl : rest[l]? = some p) : p ≤ rest.sum :=
      List.le_sum_of_mem (List.mem_of_getElem? hl)
    cases i with
    | zero =>
      cases j with
      | zero => rfl
      | succ j =>
        rw [List.getElem?_cons_zero, Option.some.injEq] at hi
        have := hle hj
        omega
    | succ i =>
      cases j with
      | zero =>
        rw [List.getElem?_cons_zero, Option.some.injEq] at hj
        have := hle hi
        omega
      | succ j => rw [ih (by omega) hi hj]

namespace Stream

variable {w w' : World} {topics : List Topic} {s : Stream α}

section Parts

variable {s : Stream α} {rest : List (Stream α)} {topic : Topic} {i j : Nat} {t u : Stream α}

/-- A part holds open no more than the combination. -/
lemma subscriptions_drained_le (w : World) (topic : Topic) (ht : (s :: rest)[i]? = some t) :
    (t.drained w).subscriptions topic
      ≤ ((Stream.combineLatest (s :: rest)).drained w).subscriptions topic := by
  rw [subscriptions_drained_combineLatest]
  exact List.le_sum_of_mem (List.mem_map_of_mem (List.mem_of_getElem? ht))

/-- Only one part of a combination holds its one subscription. -/
lemma index_eq_of_subscriptions_le_one
    (h : ((Stream.combineLatest (s :: rest)).drained w).subscriptions topic ≤ 1)
    (ht : (s :: rest)[i]? = some t) (hu : (s :: rest)[j]? = some u)
    (htpos : 0 < (t.drained w).subscriptions topic)
    (hupos : 0 < (u.drained w).subscriptions topic) : i = j := by
  rw [subscriptions_drained_combineLatest] at h
  refine index_eq_of_sum_le_one h ?_ ?_ htpos hupos
  · rw [List.getElem?_map, ht]
    rfl
  · rw [List.getElem?_map, hu]
    rfl

/-- A subscription of a combination is one of some part. -/
lemma exists_index_of_subscriptions_pos
    (h : 0 < ((Stream.combineLatest (s :: rest)).drained w).subscriptions topic) :
    ∃ (i : Nat) (t : Stream α), (s :: rest)[i]? = some t ∧
      0 < (t.drained w).subscriptions topic := by
  rw [subscriptions_drained_combineLatest, List.sum_pos_iff_exists_pos_nat] at h
  obtain ⟨n, hn, hpos⟩ := h
  obtain ⟨t, ht, rfl⟩ := List.mem_map.mp hn
  obtain ⟨i, hi⟩ := List.mem_iff_getElem?.mp ht
  exact ⟨i, t, hi, hpos⟩

end Parts

/-- Where all streams but one do the same in two worlds, the items differ in one
place. -/
lemma eq_set_of_shows {ss : List (Stream α)} {items items' : List α}
    (h : List.Forall₂ (Shows w) ss items) (h' : List.Forall₂ (Shows w') ss items') {i : Nat}
    {t : Stream α} {a' : α} (ht : ss[i]? = some t) (ha' : t.Shows w' a')
    (hsame : ∀ j u, ss[j]? = some u → j ≠ i → u.run w' = u.run w) : items' = items.set i a' := by
  refine List.ext_getElem? fun j => ?_
  rw [List.getElem?_set, ← h.length_eq]
  cases hj : ss[j]? with
  | none =>
    have hle := List.getElem?_eq_none_iff.mp hj
    have hi := (List.getElem?_eq_some_iff.mp ht).1
    rw [if_neg (by omega), List.getElem?_eq_none (h'.length_eq ▸ hle),
      List.getElem?_eq_none (h.length_eq ▸ hle)]
  | some u =>
    obtain ⟨b, hb, hshow⟩ := shows_of_getElem? h hj
    obtain ⟨b', hb', hshow'⟩ := shows_of_getElem? h' hj
    by_cases hij : i = j
    · subst hij
      obtain rfl : t = u := Option.some.inj (ht.symm.trans hj)
      rw [if_pos rfl, if_pos (List.getElem?_eq_some_iff.mp ht).1, hb', hshow'.unique ha']
    · have hold : u.Shows w b' := by rwa [Shows, ← hsame j u hj (Ne.symm hij)]
      rw [if_neg hij, hb, hb', hold.unique hshow]

/-! ### One subscription -/

/-- At most one subscription of the stream that was read is to one of the topics. -/
def ReadsOne (w : World) (topics : List Topic) (s : Stream α) : Prop :=
  ∃ t, (s.drained w).subscriptions t ≤ 1 ∧
    ∀ u ∈ topics, u ≠ t → (s.drained w).subscriptions u = 0

/-- A part of a stream that reads one topic once reads no more. -/
lemma ReadsOne.of_le {r : Stream β} (h : s.ReadsOne w topics)
    (hle : ∀ t, (r.drained w).subscriptions t ≤ (s.drained w).subscriptions t) :
    r.ReadsOne w topics := by
  obtain ⟨t, hone, hzero⟩ := h
  refine ⟨t, Nat.le_trans (hle t) hone, fun u hu hne => ?_⟩
  have := hzero u hu hne
  have := hle u
  omega

/-- If a single subscription of a combination is concerned, a single part speaks,
and all others are up to date. -/
lemma shows_of_mem_news_combineLatest {s : Stream α} {rest : List (Stream α)}
    (hprompt : ∀ t ∈ s :: rest, t.Prompt) (hw : w.Open) (hw' : w'.Open)
    (hafter : World.After topics w w')
    (hone : (Stream.combineLatest (s :: rest)).ReadsOne w topics)
    (ih : ∀ t ∈ s :: rest, (t.drained w).Wakes topics → ∀ a ∈ t.news w w' topics, t.Shows w' a) :
    ∀ v ∈ (Stream.combineLatest (s :: rest)).news w w' topics,
      (Stream.combineLatest (s :: rest)).Shows w' v := by
  obtain ⟨items, hitems⟩ := exists_shows fun t ht => (hprompt t ht).shows hw
  obtain ⟨items', hitems'⟩ := exists_shows fun t ht => (hprompt t ht).shows hw'
  obtain ⟨arrivals, harrivals, hnews⟩ := exists_arrivals hitems w' topics
  obtain ⟨topic, hle, hzero⟩ := hone
  have hreads {i : Nat} {t : Stream α} (ht : (s :: rest)[i]? = some t)
      (hwakes : (t.drained w).Wakes topics) : 0 < (t.drained w).subscriptions topic := by
    obtain ⟨u, hu, hpos⟩ := hwakes
    by_cases hut : u = topic
    · exact hut ▸ hpos
    · have := hzero u hu hut
      have := subscriptions_drained_le w u ht
      omega
  have hset {i : Nat} {t : Stream α} {a : α} (ht : (s :: rest)[i]? = some t)
      (hwakes : (t.drained w).Wakes topics) (ha : t.Shows w' a) : items' = items.set i a := by
    refine eq_set_of_shows hitems hitems' ht ha fun j u hu hne => ?_
    have hpromptu := hprompt u (List.mem_of_getElem? hu)
    refine hpromptu.frame_of_not_wakes hw hw' hafter fun hwakes' => hne ?_
    exact index_eq_of_subscriptions_le_one hle hu ht (hreads hu hwakes') (hreads ht hwakes)
  intro v hv
  rw [hnews] at hv
  have hv : v = items' := by
    refine forall_mem_passed_latestStep (fun v => v = items ∨ v = items') (fun v => v = items')
      (.inl rfl) (fun v hv item hitem => ?_) (fun v hv => .inr hv) v hv
    obtain ⟨t, ht, hwakes, ha⟩ := harrivals.mem hitem
    have hitems' := hset ht hwakes (ih t (List.mem_of_getElem? ht) hwakes item.2 ha)
    rcases hv with rfl | rfl
    · exact hitems'.symm
    · rw [hitems', List.set_set]
  rw [hv]
  exact .combineLatest hitems'

/-- A switch passes on the item of a fresh stream if its source has news, and else
the news of the stream that it has. -/
lemma news_switch_cases {bounded : Bool} {source : Stream α} {project : α → Stream β}
    (hproject : ∀ (w : World) a, w.Open → source.Shows w a → (project a).Prompt)
    (hbounded : bounded = true → ∀ w : World, w.Open → (source.drained w).isEnded = false)
    (hw : w.Open) (hw' : w'.Open) (hresumed : source.Resumed w w' topics) {a a' : α}
    (ha : source.Shows w a) (ha' : source.Shows w' a') :
    (∃ b, (switch bounded project source ended).news w w' topics = [b] ∧
        (switch bounded project source ended).Shows w' b) ∨
      (a = a' ∧ source.news w w' topics = [] ∧
        (switch bounded project source ended).news w w' topics = (project a).news w w' topics) := by
  have hends (h : bounded = true) := hbounded h w hw
  have hends' (h : bounded = true) : ((source.resumed w topics).drained w').isEnded = false := by
    rw [hresumed.drained]
    exact hbounded h w' hw'
  have hnews := news_switch hends hends' ha project
  have hlast := hresumed.getLast?_news ha ha'
  cases hl : (source.news w w' topics).getLast? with
  | some c =>
    rw [hl, Option.some_or, Option.some.injEq] at hlast
    subst hlast
    obtain ⟨b, hb⟩ := (hproject w' c hw' ha').shows hw'
    exact .inl ⟨b, by rw [hnews, hl]; exact hb, ha'.switch (fun h => hbounded h w' hw') hb⟩
  | none =>
    rw [hl, Option.none_or, Option.some.injEq] at hlast
    rw [hl] at hnews
    exact .inr ⟨hlast, List.getLast?_eq_none_iff.mp hl, hnews⟩

/-- If a single subscription is concerned, all news are the item of a fresh stream. -/
theorem Prompt.news_of_readsOne (h : s.Prompt) (hw : w.Open) (hw' : w'.Open)
    (hafter : World.After topics w w') (hfaithful : (s.resumed w topics).Faithful w')
    (hone : s.ReadsOne w topics) : ∀ a ∈ s.news w w' topics, s.Shows w' a := by
  induction h with
  | just a =>
    intro b hb
    rw [news_of_ended rfl] at hb
    simp at hb
  | lasting a =>
    intro b hb
    rw [news, show (Stream.lasting [a]).resumed w topics = .lasting [] from told_lasting topics []]
      at hb
    exact absurd hb List.not_mem_nil
  | watch topic =>
    intro b hb
    rw [news_watch hw] at hb
    rw [Shows, run_watch_none hw']
    split at hb
    · simp at hb
    · rw [List.mem_singleton.mp hb]
      rfl
  | @map α β s f h ih =>
    intro b hb
    rw [Stream.map, resumed_scan (goes_of_mem_news hb), Faithful] at hfaithful
    rw [news_map] at hb
    obtain ⟨a, ha, rfl⟩ := List.mem_map.mp hb
    have hone := hone.of_le fun t => Nat.le_of_eq (subscriptions_drained_scan w t _ _ s).symm
    exact (ih hfaithful hone a ha).map f
  | @distinct α s same h ih =>
    intro a ha
    obtain ⟨b, hb⟩ := h.shows hw
    rw [Stream.distinct, resumed_dedup (goes_of_mem_news ha), Faithful] at hfaithful
    rw [news_distinct same hb] at ha
    have hone := hone.of_le fun t => Nat.le_of_eq (subscriptions_drained_dedup w t _ _ s).symm
    exact (ih hfaithful.1 hone a (mem_of_mem_passed_distinctStep ha)).distinct same
  | @combineLatest α ss h ih =>
    cases ss with
    | nil =>
      intro b hb
      rw [news_of_ended rfl] at hb
      simp at hb
    | cons s rest =>
      intro v hv
      refine shows_of_mem_news_combineLatest h hw hw' hafter hone (fun t ht hwakes => ?_) v hv
      obtain ⟨i, hi⟩ := List.mem_iff_getElem?.mp ht
      exact ih t ht (hfaithful.of_combineLatest (goes_of_mem_news hv) ht hwakes)
        (hone.of_le fun u => subscriptions_drained_le w u hi)
  | @switch α β source project bounded hsource hproject hbounded ihsource ihproject =>
    intro b hb
    obtain ⟨a, ha⟩ := hsource.shows hw
    obtain ⟨a', ha'⟩ := hsource.shows hw'
    have hends (h : bounded = true) := hbounded h w hw
    rw [resumed_switch hends ha (goes_of_mem_news hb)] at hfaithful
    have hresumed := hsource.resume hw hw' hafter hfaithful.source
    rcases news_switch_cases hproject hbounded hw hw' hresumed ha ha' with
      ⟨c, hnews, hc⟩ | ⟨rfl, hsilent, hnews⟩
    · rw [hnews] at hb
      rw [List.mem_singleton.mp hb]
      exact hc
    · rw [hnews] at hb
      have hinner := ihproject w a hw ha (hfaithful.inner_of_silent hsilent)
        (hone.of_le fun t => ?_) b hb
      · exact ha'.switch (fun h => hbounded h w' hw') hinner
      · rw [subscriptions_drained_switch hends, ha.current]
        omega
  | @timeout α source millis late h ih =>
    intro a ha
    obtain ⟨b, hb⟩ := h.shows hw
    obtain ⟨b', hb'⟩ := h.shows hw'
    rw [news_timeout hb] at ha
    rw [resumed_timeout hb] at hfaithful
    rw [Shows, run_timeout hb']
    refine ih hfaithful (hone.of_le fun t => ?_) a ha
    rw [drained, drained, run_timeout hb]

/-! ### Two subscriptions -/

/-- Of two slots that are set one after the other, each new item of one of them
leads to a list that has been there. -/
lemma set_of_two {items₀ items₁ items₂ : List α} {i j : Nat} {a b : α}
    (h₁ : items₁ = items₀.set i a) (h₂ : items₂ = items₁.set j b) (hij : i ≠ j) {v : List α}
    (hv : v = items₁ ∨ v = items₂) {k : Nat} {c : α} (hk : k = i ∧ c = a ∨ k = j ∧ c = b) :
    v.set k c = items₁ ∨ v.set k c = items₂ := by
  rcases hk with ⟨rfl, rfl⟩ | ⟨rfl, rfl⟩
  · rcases hv with rfl | rfl
    · left
      rw [h₁, List.set_set]
    · right
      rw [h₂, List.set_comm _ _ (Ne.symm hij), h₁, List.set_set]
  · right
    rcases hv with rfl | rfl
    · exact h₂.symm
    · rw [h₂, List.set_set]

/-- Three worlds of which the second one differs from the first by the topic `x`
and the third from the second by another topic `y`.  Of the publications that lead
from the first to the third the first is one of `x`. -/
structure TwoSteps (x y : Topic) (topics : List Topic) (w₀ w₁ w₂ : World) : Prop where
  ne : x ≠ y
  open₀ : w₀.Open
  open₁ : w₁.Open
  open₂ : w₂.Open
  first : ∀ t, t ≠ x → w₁.read t = w₀.read t
  second : ∀ t, t ≠ y → w₂.read t = w₁.read t
  mem : ∀ t ∈ topics, t = x ∨ t = y
  head : topics.head? = some x
  after : World.After topics w₀ w₂

/-- No item mixes old and new: if one subscription to each of the two topics is
concerned, all news are items of fresh streams in one of the worlds that follow. -/
def Consistent (x y : Topic) (topics : List Topic) (w₀ w₁ w₂ : World) (s : Stream α) : Prop :=
  (s.resumed w₀ topics).Faithful w₂ → (s.drained w₀).subscriptions x ≤ 1 →
    (s.drained w₀).subscriptions y ≤ 1 → (s.drained w₁).subscriptions y ≤ 1 →
      ∀ a ∈ s.news w₀ w₂ topics, s.Shows w₁ a ∨ s.Shows w₂ a

section TwoSteps

variable {x y : Topic} {w₀ w₁ w₂ : World} (steps : TwoSteps x y topics w₀ w₁ w₂)

include steps

/-- A stream that does not read the first topic does not see the first step. -/
lemma TwoSteps.run₁ (h : s.Prompt) (hx : (s.drained w₀).subscriptions x = 0) :
    s.run w₁ = s.run w₀ := by
  refine h.frame steps.open₀ steps.open₁ fun t ht => steps.first t ?_
  rintro rfl
  omega

/-- A stream that does not read the second topic does not see the second step. -/
lemma TwoSteps.run₂ (h : s.Prompt) (hy : (s.drained w₁).subscriptions y = 0) :
    s.run w₂ = s.run w₁ := by
  refine h.frame steps.open₁ steps.open₂ fun t ht => steps.second t ?_
  rintro rfl
  omega

/-- If both topics are read once at most, one of them is read alone or both are read. -/
lemma TwoSteps.readsOne_or (hx : (s.drained w₀).subscriptions x ≤ 1)
    (hy : (s.drained w₀).subscriptions y ≤ 1) :
    s.ReadsOne w₀ topics ∨
      0 < (s.drained w₀).subscriptions x ∧ 0 < (s.drained w₀).subscriptions y := by
  by_cases hx₀ : (s.drained w₀).subscriptions x = 0
  · refine .inl ⟨y, hy, fun t ht hne => ?_⟩
    rcases steps.mem t ht with rfl | rfl
    · exact hx₀
    · exact absurd rfl hne
  · by_cases hy₀ : (s.drained w₀).subscriptions y = 0
    · refine .inl ⟨x, hx, fun t ht hne => ?_⟩
      rcases steps.mem t ht with rfl | rfl
      · exact absurd rfl hne
      · exact hy₀
    · exact .inr ⟨Nat.pos_of_ne_zero hx₀, Nat.pos_of_ne_zero hy₀⟩

/-- A publication that wakes a stream is one of the two topics. -/
lemma TwoSteps.reads_of_wakes (hwakes : (s.drained w₀).Wakes topics) :
    0 < (s.drained w₀).subscriptions x ∨ 0 < (s.drained w₀).subscriptions y := by
  obtain ⟨t, ht, hpos⟩ := hwakes
  rcases steps.mem t ht with rfl | rfl
  · exact .inl hpos
  · exact .inr hpos

section Combination

variable {s : Stream α} {rest : List (Stream α)} {items₀ items₁ items₂ : List α}
  (hprompt : ∀ t ∈ s :: rest, t.Prompt)
  (hitems₀ : List.Forall₂ (Shows w₀) (s :: rest) items₀)
  (hitems₁ : List.Forall₂ (Shows w₁) (s :: rest) items₁)
  (hitems₂ : List.Forall₂ (Shows w₂) (s :: rest) items₂)
  (hx : ((Stream.combineLatest (s :: rest)).drained w₀).subscriptions x ≤ 1)
  (hy : ((Stream.combineLatest (s :: rest)).drained w₀).subscriptions y ≤ 1)

include hprompt hitems₀ hitems₁ hitems₂ hx hy

/-- One part of the combination subscribes to both topics: it speaks alone. -/
lemma TwoSteps.news_of_one_part {i : Nat} {t : Stream α} (ht : (s :: rest)[i]? = some t)
    (hxpos : 0 < (t.drained w₀).subscriptions x) (hypos : 0 < (t.drained w₀).subscriptions y)
    (hnews : ∀ a ∈ t.news w₀ w₂ topics, t.Shows w₁ a ∨ t.Shows w₂ a) :
    ∀ v ∈ (Stream.combineLatest (s :: rest)).news w₀ w₂ topics, v = items₁ ∨ v = items₂ := by
  have hother {j : Nat} {u : Stream α} (hu : (s :: rest)[j]? = some u)
      (hwakes : (u.drained w₀).Wakes topics) : j = i := by
    rcases steps.reads_of_wakes hwakes with hpos | hpos
    · exact index_eq_of_subscriptions_le_one hx hu ht hpos hxpos
    · exact index_eq_of_subscriptions_le_one hy hu ht hpos hypos
  have hset₁ {a : α} (ha : t.Shows w₁ a) : items₁ = items₀.set i a := by
    refine eq_set_of_shows hitems₀ hitems₁ ht ha fun j u hu hne => ?_
    have hpromptu := hprompt u (List.mem_of_getElem? hu)
    refine steps.run₁ hpromptu (Nat.eq_zero_of_not_pos fun hpos => hne ?_)
    exact index_eq_of_subscriptions_le_one hx hu ht hpos hxpos
  have hset₂ {a : α} (ha : t.Shows w₂ a) : items₂ = items₀.set i a := by
    refine eq_set_of_shows hitems₀ hitems₂ ht ha fun j u hu hne => ?_
    exact (hprompt u (List.mem_of_getElem? hu)).frame_of_not_wakes steps.open₀ steps.open₂
      steps.after fun hwakes => hne (hother hu hwakes)
  obtain ⟨arrivals, harrivals, heq⟩ := exists_arrivals hitems₀ w₂ topics
  rw [heq]
  refine forall_mem_passed_latestStep (fun v => ∀ a, v.set i a = items₀.set i a)
    (fun v => v = items₁ ∨ v = items₂) (fun a => rfl) (fun v hv item hitem => ?_) (fun v hv a => ?_)
  · obtain ⟨u, hu, hwakes, ha⟩ := harrivals.mem hitem
    obtain rfl := hother hu hwakes
    obtain rfl : u = t := Option.some.inj (hu.symm.trans ht)
    rw [hv]
    rcases hnews item.2 ha with ha | ha
    · exact .inl (hset₁ ha).symm
    · exact .inr (hset₂ ha).symm
  · obtain ⟨a₁, -, ha₁⟩ := shows_of_getElem? hitems₁ ht
    obtain ⟨a₂, -, ha₂⟩ := shows_of_getElem? hitems₂ ht
    rcases hv with rfl | rfl
    · rw [hset₁ ha₁, List.set_set]
    · rw [hset₂ ha₂, List.set_set]

/-- Two parts subscribe to one topic each: the one that subscribes to the topic
that was published first speaks first. -/
lemma TwoSteps.news_of_two_parts
    (hy₁ : ((Stream.combineLatest (s :: rest)).drained w₁).subscriptions y ≤ 1) {i j : Nat}
    {t u : Stream α} (ht : (s :: rest)[i]? = some t) (hu : (s :: rest)[j]? = some u) (hij : i ≠ j)
    (hxpos : 0 < (t.drained w₀).subscriptions x) (hypos : 0 < (u.drained w₀).subscriptions y)
    (hresumed : t.Resumed w₀ w₂ topics) (htnews : ∀ a ∈ t.news w₀ w₂ topics, t.Shows w₂ a)
    (hunews : (u.drained w₀).Wakes topics → ∀ a ∈ u.news w₀ w₂ topics, u.Shows w₂ a) :
    ∀ v ∈ (Stream.combineLatest (s :: rest)).news w₀ w₂ topics, v = items₁ ∨ v = items₂ := by
  have hrun₁ {k : Nat} {v : Stream α} (hv : (s :: rest)[k]? = some v) (hne : k ≠ i) :
      v.run w₁ = v.run w₀ := by
    have hpromptv := hprompt v (List.mem_of_getElem? hv)
    refine steps.run₁ hpromptv (Nat.eq_zero_of_not_pos fun hpos => hne ?_)
    exact index_eq_of_subscriptions_le_one hx hv ht hpos hxpos
  -- The second part still subscribes to its topic, so that no other one can have come to do so.
  have hypos₁ : 0 < (u.drained w₁).subscriptions y := by
    rwa [drained, hrun₁ hu (Ne.symm hij)]
  have hrun₂ {k : Nat} {v : Stream α} (hv : (s :: rest)[k]? = some v) (hne : k ≠ j) :
      v.run w₂ = v.run w₁ := by
    have hpromptv := hprompt v (List.mem_of_getElem? hv)
    refine steps.run₂ hpromptv (Nat.eq_zero_of_not_pos fun hpos => hne ?_)
    exact index_eq_of_subscriptions_le_one hy₁ hv hu hpos hypos₁
  obtain ⟨a₀, hget₀, ha₀⟩ := shows_of_getElem? hitems₀ ht
  obtain ⟨a, hget₁, ha₁⟩ := shows_of_getElem? hitems₁ ht
  obtain ⟨b, -, hb⟩ := shows_of_getElem? hitems₂ hu
  have ha : t.Shows w₂ a := by rwa [Shows, hrun₂ ht hij]
  have hset₁ : items₁ = items₀.set i a :=
    eq_set_of_shows hitems₀ hitems₁ ht ha₁ fun k v hv hne => hrun₁ hv hne
  have hset₂ : items₂ = items₁.set j b :=
    eq_set_of_shows hitems₁ hitems₂ hu hb fun k v hv hne => hrun₂ hv hne
  obtain ⟨arrivals, harrivals, heq⟩ := exists_arrivals hitems₀ w₂ topics
  -- From the first item on nothing is seen but the two worlds.
  have hstep (v : List α) (hv : v = items₁ ∨ v = items₂) (item : Nat × α)
      (hitem : item ∈ arrivals) : v.set item.1 item.2 = items₁ ∨ v.set item.1 item.2 = items₂ := by
    obtain ⟨r, hr, hwakes, hmem⟩ := harrivals.mem hitem
    refine set_of_two hset₁ hset₂ hij hv ?_
    rcases steps.reads_of_wakes hwakes with hpos | hpos
    · obtain hi : item.1 = i := index_eq_of_subscriptions_le_one hx hr ht hpos hxpos
      obtain rfl : r = t := Option.some.inj ((hi ▸ hr).symm.trans ht)
      exact .inl ⟨hi, (htnews _ hmem).unique ha⟩
    · obtain hj : item.1 = j := index_eq_of_subscriptions_le_one hy hr hu hpos hypos
      obtain rfl : r = u := Option.some.inj ((hj ▸ hr).symm.trans hu)
      exact .inr ⟨hj, (hunews hwakes _ hmem).unique hb⟩
  rw [heq]
  cases hlist : t.news w₀ w₂ topics with
  | nil =>
    have hlast := hresumed.getLast?_news ha₀ ha
    rw [hlist, List.getLast?_nil, Option.none_or, Option.some.injEq] at hlast
    obtain ⟨hi, hget⟩ := List.getElem?_eq_some_iff.mp hget₀
    have hsame : items₀ = items₁ := by
      rw [hset₁, ← hlast, ← hget, List.set_getElem_self]
    rw [hsame]
    exact forall_mem_passed_latestStep _ _ (.inl rfl) hstep fun v hv => hv
  | cons a' more =>
    obtain ⟨later, rfl⟩ := harrivals.first steps.head ht hxpos
      (fun hv hpos => index_eq_of_subscriptions_le_one hx hv ht hpos hxpos) hlist
    have ha' : a' = a := (htnews a' (by rw [hlist]; exact List.mem_cons_self)).unique ha
    rw [passed, latestStep_map_some, ha', ← hset₁]
    intro v hv
    rcases List.mem_cons.mp hv with rfl | hv
    · exact .inl rfl
    · exact forall_mem_passed_latestStep (fun v => v = items₁ ∨ v = items₂) _ (.inl rfl)
        (fun v hv item hitem => hstep v hv item (List.mem_cons_of_mem _ hitem))
        (fun v hv => hv) v hv

end Combination

/-! The stages. -/

lemma TwoSteps.consistent_of_readsOne (h : s.Prompt) (hone : s.ReadsOne w₀ topics) :
    s.Consistent x y topics w₀ w₁ w₂ := fun hfaithful _ _ _ a ha =>
  .inr (h.news_of_readsOne steps.open₀ steps.open₂ steps.after hfaithful hone a ha)

lemma TwoSteps.consistent_of_unsubscribed (h : s.Prompt)
    (hzero : ∀ t, (s.drained w₀).subscriptions t = 0) : s.Consistent x y topics w₀ w₁ w₂ :=
  steps.consistent_of_readsOne h ⟨x, by rw [hzero]; exact Nat.zero_le 1, fun t _ _ => hzero t⟩

lemma TwoSteps.consistent_watch (topic : Topic) :
    (watch topic none).Consistent x y topics w₀ w₁ w₂ := by
  intro hfaithful hx hy hy₁
  rcases steps.readsOne_or hx hy with hone | ⟨hxpos, hypos⟩
  · exact steps.consistent_of_readsOne (.watch topic) hone hfaithful hx hy hy₁
  · rw [drained, run_watch_none steps.open₀] at hxpos hypos
    have hboth : topic = x ∧ topic = y := by
      simp only [Run.final, Option.getD_some, subscriptions] at hxpos hypos
      constructor <;> by_contra hne <;> simp [hne] at hxpos hypos
    exact absurd (hboth.1.symm.trans hboth.2) steps.ne

omit steps in
/-- Mapping mixes nothing. -/
lemma Consistent.map (h : s.Consistent x y topics w₀ w₁ w₂) (f : α → β) :
    (s.map f).Consistent x y topics w₀ w₁ w₂ := by
  intro hfaithful hx hy hy₁ b hb
  rw [Stream.map, resumed_scan (goes_of_mem_news hb), Faithful] at hfaithful
  rw [news_map] at hb
  obtain ⟨a, ha, rfl⟩ := List.mem_map.mp hb
  rw [subscriptions_drained_map] at hx hy hy₁
  rcases h hfaithful hx hy hy₁ a ha with ha | ha
  · exact .inl (ha.map f)
  · exact .inr (ha.map f)

lemma TwoSteps.consistent_distinct (hprompt : s.Prompt)
    (h : s.Consistent x y topics w₀ w₁ w₂) (same : α → α → Bool) :
    (s.distinct same).Consistent x y topics w₀ w₁ w₂ := by
  intro hfaithful hx hy hy₁ a ha
  obtain ⟨b, hb⟩ := hprompt.shows steps.open₀
  rw [Stream.distinct, resumed_dedup (goes_of_mem_news ha), Faithful] at hfaithful
  rw [news_distinct same hb] at ha
  rw [Stream.distinct, subscriptions_drained_dedup] at hx hy hy₁
  rcases h hfaithful.1 hx hy hy₁ a (mem_of_mem_passed_distinctStep ha) with ha | ha
  · exact .inl (ha.distinct same)
  · exact .inr (ha.distinct same)

/-- A combination is where old and new could be mixed: where both topics are read in different
parts, the part of the first one speaks first, and then the other. -/
lemma TwoSteps.consistent_combineLatest {s : Stream α} {rest : List (Stream α)}
    (hprompt : ∀ t ∈ s :: rest, t.Prompt)
    (h : ∀ t ∈ s :: rest, t.Consistent x y topics w₀ w₁ w₂) :
    (Stream.combineLatest (s :: rest)).Consistent x y topics w₀ w₁ w₂ := by
  intro hfaithful hx hy hy₁ v hv
  rcases steps.readsOne_or hx hy with hone | ⟨hxpos, hypos⟩
  · exact steps.consistent_of_readsOne (.combineLatest hprompt) hone hfaithful hx hy hy₁ v hv
  have hbelow {t : Stream α} (ht : t ∈ s :: rest) (hwakes : (t.drained w₀).Wakes topics) :
      (t.resumed w₀ topics).Faithful w₂ :=
    hfaithful.of_combineLatest (goes_of_mem_news hv) ht hwakes
  obtain ⟨items₀, hitems₀⟩ := exists_shows fun t ht => (hprompt t ht).shows steps.open₀
  obtain ⟨items₁, hitems₁⟩ := exists_shows fun t ht => (hprompt t ht).shows steps.open₁
  obtain ⟨items₂, hitems₂⟩ := exists_shows fun t ht => (hprompt t ht).shows steps.open₂
  obtain ⟨i, t, ht, htpos⟩ := exists_index_of_subscriptions_pos hxpos
  obtain ⟨j, u, hu, hupos⟩ := exists_index_of_subscriptions_pos hypos
  have hmem := List.mem_of_getElem? ht
  have hwakes : (t.drained w₀).Wakes topics := ⟨x, List.mem_of_head? steps.head, htpos⟩
  have hlists : v = items₁ ∨ v = items₂ := by
    by_cases hij : i = j
    · subst hij
      obtain rfl : t = u := Option.some.inj (ht.symm.trans hu)
      refine steps.news_of_one_part hprompt hitems₀ hitems₁ hitems₂ hx hy ht htpos hupos ?_ v hv
      exact h t hmem (hbelow hmem hwakes) (Nat.le_trans (subscriptions_drained_le w₀ x ht) hx)
        (Nat.le_trans (subscriptions_drained_le w₀ y ht) hy)
        (Nat.le_trans (subscriptions_drained_le w₁ y ht) hy₁)
    · have hone {k : Nat} {r : Stream α} (hr : (s :: rest)[k]? = some r)
          (hwakes : (r.drained w₀).Wakes topics) : ∀ a ∈ r.news w₀ w₂ topics, r.Shows w₂ a := by
        have hrmem := List.mem_of_getElem? hr
        refine (hprompt r hrmem).news_of_readsOne steps.open₀ steps.open₂ steps.after
          (hbelow hrmem hwakes) ?_
        rcases steps.readsOne_or (Nat.le_trans (subscriptions_drained_le w₀ x hr) hx)
          (Nat.le_trans (subscriptions_drained_le w₀ y hr) hy) with hone | ⟨hrx, hry⟩
        · exact hone
        · have hi := index_eq_of_subscriptions_le_one hx hr ht hrx htpos
          have hj := index_eq_of_subscriptions_le_one hy hr hu hry hupos
          exact absurd (hi.symm.trans hj) hij
      have hresumed := (hprompt t hmem).resume steps.open₀ steps.open₂ steps.after
        (hbelow hmem hwakes)
      exact steps.news_of_two_parts hprompt hitems₀ hitems₁ hitems₂ hx hy hy₁ ht hu hij htpos
        hupos hresumed (hone ht hwakes) (hone hu) v hv
  rcases hlists with rfl | rfl
  · exact .inl (.combineLatest hitems₁)
  · exact .inr (.combineLatest hitems₂)

/-- A switch whose source has news starts a fresh stream, and otherwise its own stream
speaks. -/
lemma TwoSteps.consistent_switch {bounded : Bool} {source : Stream α} {project : α → Stream β}
    (hsource : source.Prompt)
    (hproject : ∀ (w : World) a, w.Open → source.Shows w a → (project a).Prompt)
    (hbounded : bounded = true → ∀ w : World, w.Open → (source.drained w).isEnded = false)
    (h : ∀ a, source.Shows w₀ a → (project a).Consistent x y topics w₀ w₁ w₂) :
    (switch bounded project source ended).Consistent x y topics w₀ w₁ w₂ := by
  intro hfaithful hx hy hy₁ b hb
  obtain ⟨a, ha⟩ := hsource.shows steps.open₀
  obtain ⟨a₂, ha₂⟩ := hsource.shows steps.open₂
  have hends (w : World) (hw : w.Open) (h : bounded = true) := hbounded h w hw
  rw [resumed_switch (hends w₀ steps.open₀) ha (goes_of_mem_news hb)] at hfaithful
  have hresumed := hsource.resume steps.open₀ steps.open₂ steps.after hfaithful.source
  rcases news_switch_cases hproject hbounded steps.open₀ steps.open₂ hresumed ha ha₂ with
    ⟨c, hnews, hc⟩ | ⟨rfl, hsilent, hnews⟩
  · rw [hnews] at hb
    rw [List.mem_singleton.mp hb]
    exact .inr hc
  rw [hnews] at hb
  have hinner := hproject w₀ a steps.open₀ ha
  have hbelow := hfaithful.inner_of_silent hsilent
  have hsum (t : Topic) := subscriptions_drained_switch (hends w₀ steps.open₀) t project ended
  simp only [ha.current] at hsum
  rw [hsum] at hx hy
  rcases steps.readsOne_or (s := project a) (by omega) (by omega) with hone | ⟨hxpos, hypos⟩
  · have hb := hinner.news_of_readsOne steps.open₀ steps.open₂ steps.after hbelow hone b hb
    exact .inr (ha₂.switch (hends w₂ steps.open₂) hb)
  · -- The source subscribes to neither topic, and shows the same in all three worlds.
    have hrun₁ := steps.run₁ hsource (by omega)
    have ha₁ : source.Shows w₁ a := by rwa [Shows, hrun₁]
    rw [subscriptions_drained_switch (hends w₁ steps.open₁), ha₁.current] at hy₁
    rcases h a ha hbelow (by omega) (by omega) (by omega) b hb with hb | hb
    · exact .inl (ha₁.switch (hends w₁ steps.open₁) hb)
    · exact .inr (ha₂.switch (hends w₂ steps.open₂) hb)

lemma TwoSteps.consistent_timeout (hprompt : s.Prompt)
    (h : s.Consistent x y topics w₀ w₁ w₂) (millis : Nat) (late : α) :
    (timeout millis late none s).Consistent x y topics w₀ w₁ w₂ := by
  intro hfaithful hx hy hy₁ a ha
  obtain ⟨b₀, hb₀⟩ := hprompt.shows steps.open₀
  obtain ⟨b₁, hb₁⟩ := hprompt.shows steps.open₁
  obtain ⟨b₂, hb₂⟩ := hprompt.shows steps.open₂
  rw [resumed_timeout hb₀] at hfaithful
  rw [drained, run_timeout hb₀] at hx hy
  rw [drained, run_timeout hb₁] at hy₁
  rw [news_timeout hb₀] at ha
  rw [Shows, Shows, run_timeout hb₁, run_timeout hb₂]
  exact h hfaithful hx hy hy₁ a ha

/-- If one subscription to each of two topics is concerned, all news are items of
fresh streams in one of the worlds that follow. -/
theorem Prompt.consistent (h : s.Prompt) : s.Consistent x y topics w₀ w₁ w₂ := by
  induction h with
  | just a => exact steps.consistent_of_unsubscribed (.just a) fun t => rfl
  | lasting a => exact steps.consistent_of_unsubscribed (.lasting a) fun t => rfl
  | watch topic => exact steps.consistent_watch topic
  | map f _ ih => exact ih.map f
  | distinct same h ih => exact steps.consistent_distinct h ih same
  | @combineLatest α ss h ih =>
    cases ss with
    | nil => exact steps.consistent_of_unsubscribed (.combineLatest h) fun t => rfl
    | cons s rest => exact steps.consistent_combineLatest h ih
  | switch bounded hsource hproject hbounded _ ihproject =>
    exact steps.consistent_switch hsource hproject hbounded fun a ha =>
      ihproject w₀ a steps.open₀ ha
  | timeout millis late h ih => exact steps.consistent_timeout h ih millis late

end TwoSteps

end Stream

end Verdict
