/-
Streams whose news are known.

* `Stream.Retells`: what a stream shows in one world and what its news are in a
  second one.
* `Retells.map`, `distinct`, `switch_silent`, `switchMap` and their like: the
  stages, and `Retells.pair`: the combination of two streams of which one speaks
  first.
-/
import Verdict.Proofs.Stream.News

namespace Verdict

variable {α β : Type}

/-- Items of one slot only are known by that slot. -/
lemma eq_map_of_slot {i : Nat} {items : List (Nat × α)} (h : ∀ item ∈ items, item.1 = i) :
    items = (itemsOf i items).map (i, ·) := by
  induction items with
  | nil => rfl
  | cons item rest ih =>
    obtain ⟨j, a⟩ := item
    obtain rfl : j = i := h (j, a) List.mem_cons_self
    rw [itemsOf_cons, if_pos rfl, List.map_cons,
      ← ih fun item hitem => h item (List.mem_cons_of_mem _ hitem)]

/-- A combination of one slot passes every item on. -/
lemma passed_latestStep_single (a : α) (items : List α) :
    passed latestStep ([a].map some) (items.map (0, ·)) = items.map fun b => [b] := by
  induction items generalizing a with
  | nil => rfl
  | cons b rest ih => exact congrArg ([b] :: ·) (ih b)

namespace Stream

/-- The stream shows an item in one world, goes on, and has these news in a second
one after publications, at least one of which concerns it. -/
structure Retells (w w' : World) (topics : List Topic) (s : Stream α) (a : α) (items : List α) :
    Prop where
  shows : s.Shows w a
  wakes : (s.drained w).Wakes topics
  news : s.news w w' topics = items
  faithful : (s.resumed w topics).Faithful w'

namespace Retells

variable {w w' : World} {topics : List Topic} {s : Stream α} {a : α} {items : List α}

/-- A stream that some publication concerns has not ended. -/
lemma goes (h : s.Retells w w' topics a items) : (s.drained w).isEnded = false := by
  rw [Bool.eq_false_iff]
  intro hended
  obtain ⟨t, -, hpos⟩ := h.wakes
  rw [eq_ended_of_isEnded hended, subscriptions_ended] at hpos
  omega

lemma watch {topic : Topic} (hw : w.Open) (hmem : topic ∈ topics)
    (hversion : (w.read topic).version ≠ (w'.read topic).version) :
    (watch topic none).Retells w w' topics (w.read topic).value [(w'.read topic).value] where
  shows := by
    rw [Shows, run_watch_none hw]
    rfl
  wakes := by
    refine ⟨topic, hmem, ?_⟩
    rw [drained, run_watch_none hw]
    simp [Run.final, subscriptions]
  news := by rw [news_watch hw, if_neg hversion]
  faithful := by
    rw [resumed, drained, run_watch_none hw, Run.final, Run.final, Option.getD_some, told_watch]
    trivial

/-- Mapped items are the items of the news, mapped. -/
lemma map (h : s.Retells w w' topics a items) (f : α → β) :
    (s.map f).Retells w w' topics (f a) (items.map f) where
  shows := h.shows.map f
  wakes := by
    obtain ⟨t, ht, hpos⟩ := h.wakes
    exact ⟨t, ht, by rwa [Stream.map, subscriptions_drained_scan]⟩
  news := by rw [news_map, h.news]
  faithful := by
    rw [Stream.map, resumed_scan ((isEnded_drained_scan ..).trans h.goes)]
    exact h.faithful

/-- Items that all differ from the one before pass. -/
lemma distinct {same : α → α → Bool} (h : s.Retells w w' topics a items)
    (hchain : (a :: items).IsChain fun b c => same b c = false) :
    (s.distinct same).Retells w w' topics a items where
  shows := h.shows.distinct same
  wakes := by
    obtain ⟨t, ht, hpos⟩ := h.wakes
    exact ⟨t, ht, by rwa [Stream.distinct, subscriptions_drained_dedup]⟩
  news := by rw [news_distinct same h.shows, h.news, passed_distinctStep_of_chain hchain]
  faithful := by
    rw [Stream.distinct, resumed_dedup ((isEnded_drained_dedup ..).trans h.goes), h.shows, Faithful]
    refine ⟨h.faithful, ?_⟩
    rw [show ((s.resumed w topics).run w').toList = items from h.news]
    exact faithfulTo_of_chain hchain

/-! Switches whose source has no news, and others whose source has. -/

/-- Where the source of a switch has no news, those of the stream switched to are heard. -/
lemma switch_silent {bounded : Bool} {source : Stream β} {project : β → Stream α} {b : β}
    (hends : bounded = true → (source.drained w).isEnded = false)
    (hends' : bounded = true → ((source.resumed w topics).drained w').isEnded = false)
    (hb : source.Shows w b) (hsilent : source.news w w' topics = [])
    (hfaithful : (source.resumed w topics).Faithful w')
    (h : (project b).Retells w w' topics a items) :
    (switch bounded project source ended).Retells w w' topics a items := by
  have hgoes : ((switch bounded project source ended).drained w).isEnded = false := by
    rw [drained_switch hends, hb.current, h.goes, Bool.and_false, if_neg Bool.false_ne_true]
    rfl
  refine ⟨hb.switch hends h.shows, ?_, ?_, ?_⟩
  · obtain ⟨t, ht, hpos⟩ := h.wakes
    refine ⟨t, ht, ?_⟩
    rw [subscriptions_drained_switch hends, hb.current]
    omega
  · rw [news_switch hends hends' hb, hsilent]
    exact h.news
  · rw [resumed_switch hends hb hgoes, Faithful]
    have hlast : ((source.resumed w topics).run w').last? none = none := by
      rw [Run.last?_none_eq, show ((source.resumed w topics).run w').toList = [] from hsilent]
      rfl
    rw [hlast]
    exact ⟨hfaithful, h.faithful⟩

lemma switchMap_just {project : β → Stream α} {b : β}
    (h : (project b).Retells w w' topics a items) :
    ((just b).switchMap project).Retells w w' topics a items := by
  refine switch_silent (by simp) (by simp) rfl (news_of_ended rfl) ?_ h
  rw [resumed, show (just b).drained w = ended from rfl, told_finite]
  trivial

lemma switch_lasting {bounded : Bool} {project : β → Stream α} {b : β}
    (h : (project b).Retells w w' topics a items) :
    (switch bounded project (.lasting [b]) ended).Retells w w' topics a items := by
  have hres : (Stream.lasting [b]).resumed w topics = .lasting [] := told_lasting topics []
  have hsilent : (Stream.lasting [b]).news w w' topics = [] := by
    rw [Stream.news, hres]
    rfl
  have hgoes : (((Stream.lasting [b]).resumed w topics).drained w').isEnded = false := by
    rw [hres]
    rfl
  have hfaithful : ((Stream.lasting [b]).resumed w topics).Faithful w' := by
    rw [hres]
    trivial
  exact switch_silent (fun _ => rfl) (fun _ => hgoes) rfl hsilent hfaithful h

/-- Where the source has news, the stream of the last one starts anew and shows one item. -/
lemma switchMap {source : Stream β} {project : β → Stream α} {b b' : β} {news : List β} {a' : α}
    (hsource : source.Retells w w' topics b news) (hlast : news.getLast? = some b')
    (ha : (project b).Shows w a) (ha' : (project b').Shows w' a')
    (hfaithful : (project b').Faithful w') :
    (source.switchMap project).Retells w w' topics a [a'] := by
  have hends : false = true → (source.drained w).isEnded = false := by simp
  have hgoes : ((source.switchMap project).drained w).isEnded = false := by
    rw [Stream.switchMap, drained_switch hends, hsource.goes, Bool.false_and,
      if_neg Bool.false_ne_true]
    rfl
  refine ⟨hsource.shows.switchMap ha, ?_, ?_, ?_⟩
  · obtain ⟨t, ht, hpos⟩ := hsource.wakes
    refine ⟨t, ht, ?_⟩
    rw [Stream.switchMap, subscriptions_drained_switch hends]
    omega
  · rw [Stream.switchMap, news_switch hends (by simp) hsource.shows, hsource.news, hlast]
    exact ha'
  · rw [Stream.switchMap, resumed_switch hends hsource.shows hgoes, Faithful, Run.last?_none_eq,
      show ((source.resumed w topics).run w').toList = news from hsource.news, hlast]
    exact ⟨hsource.faithful, hfaithful⟩

/-! Combinations. -/

/-- A combination compares no items itself. -/
lemma faithful_combineLatest {s : Stream α} {rest : List (Stream α)}
    (hgoes : ((merge (s :: rest)).drained w).isEnded = false)
    (h : ∀ t ∈ s :: rest, (t.resumed w topics).Faithful w') :
    ((Stream.combineLatest (s :: rest)).resumed w topics).Faithful w' := by
  obtain ⟨queue, hqueued, -⟩ := resumed_merge hgoes topics
  have hends := (isEnded_drained_combineLatest w s rest).trans hgoes
  rw [combineLatest_cons] at hends ⊢
  rw [resumed_scan hends, Faithful, hqueued, Faithful]
  refine StreamList.faithful_of_forall 0 fun t ht => ?_
  obtain ⟨u, hu, rfl⟩ := List.mem_map.mp ht
  exact h u hu

/-- A combination goes on as long as one of its parts does. -/
lemma goes_merge {s : Stream α} {ss : List (Stream α)} (hs : s ∈ ss)
    (h : s.Retells w w' topics a items) : ((merge ss).drained w).isEnded = false := by
  rw [drained_merge, if_neg]
  · rfl
  · intro hall
    have := List.all_eq_true.mp hall _ (List.mem_map_of_mem hs)
    rw [h.goes] at this
    exact Bool.false_ne_true this

lemma wakes_combineLatest {s t : Stream α} {rest : List (Stream α)} (ht : t ∈ s :: rest)
    (h : t.Retells w w' topics a items) :
    ((Stream.combineLatest (s :: rest)).drained w).Wakes topics := by
  obtain ⟨topic, htopic, hpos⟩ := h.wakes
  refine ⟨topic, htopic, ?_⟩
  rw [subscriptions_drained_combineLatest, List.sum_pos_iff_exists_pos_nat]
  exact ⟨_, List.mem_map_of_mem ht, hpos⟩

/-- A combination of one stream has its news as lists of one item. -/
lemma single (h : s.Retells w w' topics a items) :
    (Stream.combineLatest [s]).Retells w w' topics [a] (items.map fun b => [b]) := by
  have hshows : List.Forall₂ (Shows w) [s] [a] := .cons h.shows .nil
  obtain ⟨arrivals, harrivals, heq⟩ := exists_arrivals hshows w' topics
  have hslot : ∀ item ∈ arrivals, item.1 = 0 := by
    intro item hitem
    obtain ⟨t, ht, -⟩ := harrivals.mem hitem
    have hlt := (List.getElem?_eq_some_iff.mp ht).1
    rw [List.length_singleton] at hlt
    omega
  have hlist : arrivals = items.map (0, ·) := by
    rw [eq_map_of_slot hslot, harrivals.news (s := s) rfl h.wakes, h.news]
  refine ⟨.combineLatest hshows, h.wakes_combineLatest List.mem_cons_self, ?_,
    faithful_combineLatest (h.goes_merge List.mem_cons_self) fun t ht => ?_⟩
  · rw [heq, hlist]
    exact passed_latestStep_single a items
  · rw [List.mem_singleton.mp ht]
    exact h.faithful

/-- Of two streams that have one item of news each the one speaks first that the
first publication wakes. -/
lemma pair {r : Stream α} {b a' b' : α} {topic : Topic} (h : s.Retells w w' topics a [a'])
    (h' : r.Retells w w' topics b [b']) (hfirst : topics.head? = some topic)
    (hs : (s.drained w).subscriptions topic = 0) (hr : 0 < (r.drained w).subscriptions topic) :
    (Stream.combineLatest [s, r]).Retells w w' topics [a, b] [[a, b'], [a', b']] := by
  have hshows : List.Forall₂ (Shows w) [s, r] [a, b] := .cons h.shows (.cons h'.shows .nil)
  obtain ⟨arrivals, harrivals, heq⟩ := exists_arrivals hshows w' topics
  have hone {j : Nat} {t : Stream α} (ht : [s, r][j]? = some t)
      (hpos : 0 < (t.drained w).subscriptions topic) : j = 1 := by
    cases j with
    | zero =>
      rw [← Option.some.inj ht, hs] at hpos
      omega
    | succ j =>
      cases j with
      | zero => rfl
      | succ j => cases ht
  obtain ⟨later, rfl⟩ := harrivals.first hfirst (i := 1) rfl hr hone h'.news
  have hitems := harrivals.news (i := 0) rfl h.wakes
  have hitems' := harrivals.news (i := 1) rfl h'.wakes
  rw [itemsOf_cons, if_neg (by omega), h.news] at hitems
  rw [itemsOf_cons, if_pos rfl, h'.news, List.cons.injEq] at hitems'
  have hslot : ∀ item ∈ later, item.1 = 0 := by
    intro item hitem
    obtain ⟨t, ht, -⟩ := harrivals.mem (List.mem_cons_of_mem _ hitem)
    have hlt := (List.getElem?_eq_some_iff.mp ht).1
    have hne : item.1 ≠ 1 := by
      intro hi
      have hmem := mem_itemsOf hitem
      rw [hi, hitems'.2] at hmem
      simp at hmem
    simp at hlt
    omega
  rw [eq_map_of_slot hslot, hitems] at heq
  refine ⟨.combineLatest hshows, h.wakes_combineLatest List.mem_cons_self, heq.trans rfl,
    faithful_combineLatest (h.goes_merge List.mem_cons_self) fun t ht => ?_⟩
  rcases List.mem_pair.mp ht with rfl | rfl
  · exact h.faithful
  · exact h'.faithful

end Retells

end Stream

end Verdict
