/-
Reading on after publications.

A prompt stream that was read before and is read on after publications comes to
stand exactly where a fresh one would stand.  Every stage carries this over from
the stages before it; the only place where it could be lost is a stage that holds
back what it takes for a repetition.

* `stateAfter_distinctStep`, `stateAfter_latestStep`: the states of the stages
  that keep items.
* `Stream.resumed`, `Stream.Resumed`: reading on, and that it ends where a fresh
  stream ends.
* `Stream.Prompt.resume`: faithful prompt streams are read on in this way.
-/
import Verdict.Proofs.Stream.Prompt

namespace Verdict

variable {σ α β : Type}

/-! ### Stages that keep items -/

lemma getLast?_cons_or (a : α) (rest : List α) (before : Option α) :
    (a :: rest).getLast?.or before = rest.getLast?.or (some a) := by
  rw [List.getLast?_cons]
  cases rest.getLast? <;> rfl

/-- Where repetitions are identical, the last item that was let through is the last
item. -/
lemma stateAfter_distinctStep {same : α → α → Bool} {last : α} {items : List α}
    (h : FaithfulTo same (some last) items) :
    stateAfter (distinctStep same) (some last) items = some (items.getLast?.getD last) ∧
      (passed (distinctStep same) (some last) items).getLast?.or (some last)
        = some (items.getLast?.getD last) := by
  induction items generalizing last with
  | nil => exact ⟨rfl, rfl⟩
  | cons a rest ih =>
    obtain ⟨hstate, hpassed⟩ := ih h.2
    have hget : (a :: rest).getLast?.getD last = rest.getLast?.getD a := by
      rw [List.getLast?_cons, Option.getD_some]
    rw [hget, stateAfter, passed]
    by_cases hsame : same last a = true
    · obtain rfl : last = a := h.1 last rfl hsame
      have hstep : distinctStep same (some last) last = (some last, none) := by
        simp [distinctStep, hsame]
      rw [hstep]
      exact ⟨hstate, hpassed⟩
    · have hstep : distinctStep same (some last) a = (some a, some a) := by
        simp [distinctStep, hsame]
      rw [hstep]
      exact ⟨hstate, (getLast?_cons_or _ _ _).trans hpassed⟩

/-- A combination that has all its items lets the changed list through. -/
lemma latestStep_map_some (latest : List α) (i : Nat) (a : α) :
    latestStep (latest.map some) (i, a)
      = ((latest.set i a).map some, some (latest.set i a)) := by
  rw [latestStep, ← List.map_set, mapM_id_eq_some_iff.mpr rfl]

/-- A combination that has all its items lets through one list for each item, and
keeps the last. -/
lemma stateAfter_latestStep (latest : List α) (items : List (Nat × α)) :
    ∃ goal, stateAfter latestStep (latest.map some) items = goal.map some ∧
      (passed latestStep (latest.map some) items).getLast?.or (some latest) = some goal := by
  induction items generalizing latest with
  | nil => exact ⟨latest, rfl, rfl⟩
  | cons item rest ih =>
    obtain ⟨i, a⟩ := item
    have hstep := latestStep_map_some latest i a
    obtain ⟨goal, hstate, hpassed⟩ := ih (latest.set i a)
    refine ⟨goal, by rw [stateAfter, hstep]; exact hstate, ?_⟩
    rw [passed, hstep]
    exact (getLast?_cons_or _ _ _).trans hpassed

namespace Stream

/-! ### Reading on -/

/-- The stream after it was read in one world and told of publications. -/
def resumed (w : World) (topics : List Topic) (s : Stream α) : Stream α :=
  (s.drained w).told topics

/-- Read on in a second world the stream comes to stand where a fresh one stands
that is read in that world. -/
structure Resumed (w w' : World) (topics : List Topic) (s : Stream α) : Prop where
  drained : (s.resumed w topics).drained w' = s.drained w'
  latest : ∀ {a a'}, s.Shows w a → s.Shows w' a' →
    ((s.resumed w topics).run w').last? (some a) = some a'

variable {w w' : World} {topics : List Topic} {s : Stream α}

/-- Publications that concern no subscription change nothing. -/
lemma Prompt.frame_of_not_wakes (h : s.Prompt) (hw : w.Open) (hw' : w'.Open)
    (hafter : World.After topics w w') (hwakes : ¬(s.drained w).Wakes topics) :
    s.run w' = s.run w :=
  h.frame hw hw' fun t ht => hafter.read_of_not_mem fun hmem => hwakes ⟨t, hmem, ht⟩

lemma told_of_not_wakes (hwakes : ¬s.Wakes topics) : s.told topics = s :=
  told_of_unsubscribed fun t ht => Nat.eq_zero_of_not_pos fun hpos => hwakes ⟨t, ht, hpos⟩

/-- A stream that has ended stays as it is. -/
lemma Prompt.resumed_of_ended (h : s.Prompt) (hw : w.Open) (hw' : w'.Open)
    (hafter : World.After topics w w') (hended : (s.drained w).isEnded = true) :
    s.Resumed w w' topics := by
  have heq := eq_ended_of_isEnded hended
  have hres : s.resumed w topics = ended := by rw [resumed, heq, told_finite]
  have hrun := h.frame_of_not_wakes hw hw' hafter (by
    rintro ⟨t, -, ht⟩
    rw [heq, subscriptions_ended] at ht
    omega)
  refine ⟨?_, fun {a a'} ha ha' => ?_⟩
  · rw [hres, drained_ended, ← heq, Stream.drained, Stream.drained, hrun]
  · rw [Shows, hrun] at ha'
    rw [hres, ha.unique ha']
    rfl

/-- Only a stream that goes on has to be looked at. -/
lemma Prompt.resumed_of_goes (h : s.Prompt) (hw : w.Open) (hw' : w'.Open)
    (hafter : World.After topics w w')
    (hgoes : (s.drained w).isEnded = false → s.Resumed w w' topics) : s.Resumed w w' topics := by
  cases hended : (s.drained w).isEnded with
  | true => exact h.resumed_of_ended hw hw' hafter hended
  | false => exact hgoes hended

/-! ### Stages -/

lemma resumed_scan {step : σ → α → σ × Option β} {state : σ} {source : Stream α}
    (hgoes : ((scan step state source).drained w).isEnded = false) :
    (scan step state source).resumed w topics
        = .scan step (stateAfter step state (source.run w).toList) (source.resumed w topics) := by
  rw [drained_scan] at hgoes
  rw [resumed, drained_scan]
  split
  · rename_i hended
    rw [if_pos hended] at hgoes
    simp [isEnded] at hgoes
  · rw [told_scan]
    rfl

lemma resumed_dedup {same : α → α → Bool} {last : Option α} {source : Stream α}
    (hgoes : ((dedup same last source).drained w).isEnded = false) :
    (dedup same last source).resumed w topics
        = .dedup same (stateAfter (distinctStep same) last (source.run w).toList)
          (source.resumed w topics) := by
  rw [drained_dedup] at hgoes
  rw [resumed, drained_dedup]
  split
  · rename_i hended
    rw [if_pos hended] at hgoes
    simp [isEnded] at hgoes
  · rw [told_dedup]
    rfl

lemma toList_resumed_scan {step : σ → α → σ × Option β} {state : σ} {source : Stream α}
    (hgoes : ((scan step state source).drained w).isEnded = false) :
    (((scan step state source).resumed w topics).run w').toList
      = passed step (stateAfter step state (source.run w).toList)
        ((source.resumed w topics).run w').toList := by
  rw [resumed_scan hgoes, run, Run.toList_through]

lemma Resumed.map {f : α → β} (h : s.Resumed w w' topics)
    (hgoes : ((s.map f).drained w).isEnded = false) : (s.map f).Resumed w w' topics := by
  rw [Stream.map] at hgoes ⊢
  refine ⟨?_, fun {b b'} hb hb' => ?_⟩
  · rw [resumed_scan hgoes, drained_scan, drained_scan, h.drained]
  · obtain ⟨a, ha, rfl⟩ := Shows.of_map hb
    obtain ⟨a', ha', rfl⟩ := Shows.of_map hb'
    have hsource := h.latest ha ha'
    rw [Run.last?_eq] at hsource ⊢
    rw [toList_resumed_scan hgoes, passed_map, List.getLast?_map]
    cases hl : ((s.resumed w topics).run w').toList.getLast? <;> simp_all

lemma Resumed.distinct {same : α → α → Bool} (h : s.Resumed w w' topics) (hprompt : s.Prompt)
    (hw : w.Open) (hw' : w'.Open) (hgoes : ((s.distinct same).drained w).isEnded = false)
    (hfaithful : ((s.distinct same).resumed w topics).Faithful w') :
    (s.distinct same).Resumed w w' topics := by
  obtain ⟨a, ha⟩ := hprompt.shows hw
  obtain ⟨a', ha'⟩ := hprompt.shows hw'
  have hfirst (w : World) {a : α} (ha : s.Shows w a) :
      stateAfter (distinctStep same) none (s.run w).toList = some a := by
    rw [ha]
    rfl
  have hres : (s.distinct same).resumed w topics
      = .dedup same (some a) (s.resumed w topics) := by
    rw [Stream.distinct, resumed_dedup hgoes, hfirst w ha]
  rw [hres, Faithful] at hfaithful
  obtain ⟨hstate, hpassed⟩ := stateAfter_distinctStep hfaithful.2
  have hget : ((s.resumed w topics).run w').toList.getLast?.getD a = a' := by
    have hsource := h.latest ha ha'
    rw [Run.last?_eq] at hsource
    cases hl : ((s.resumed w topics).run w').toList.getLast? <;> simp_all
  refine ⟨?_, fun {b b'} hb hb' => ?_⟩
  · rw [hres, Stream.distinct, drained_dedup, drained_dedup, h.drained, hstate, hget,
      hfirst w' ha']
  · rw [hb.unique (ha.distinct same), hb'.unique (ha'.distinct same), hres, Run.last?_eq, run,
      Run.toList_through, hpassed, hget]

/-! ### Combinations -/

/-- The item of one of several streams. -/
lemma shows_of_getElem? {ss : List (Stream α)} {items : List α}
    (h : List.Forall₂ (Shows w) ss items) {i : Nat} (hs : ss[i]? = some s) :
    ∃ a, items[i]? = some a ∧ s.Shows w a := by
  obtain ⟨hi, rfl⟩ := List.getElem?_eq_some_iff.mp hs
  exact ⟨_, List.getElem?_eq_getElem (h.length_eq ▸ hi), (List.forall₂_iff_get.mp h).2 i hi _⟩

/-- The state of a combination that was read: every slot holds its item. -/
lemma stateAfter_merge {ss : List (Stream α)} {items : List α}
    (h : List.Forall₂ (Shows w) ss items) :
    stateAfter latestStep (List.replicate ss.length none) ((merge ss).run w).toList
      = items.map some := by
  refine List.ext_getElem? fun i => ?_
  rw [getElem?_stateAfter_latestStep, itemsOf_run_merge, List.getElem?_map, List.getElem?_replicate]
  cases hs : ss[i]? with
  | none =>
    have hi := List.getElem?_eq_none_iff.mp hs
    rw [if_neg (by omega), List.getElem?_eq_none (h.length_eq ▸ hi)]
    rfl
  | some s =>
    obtain ⟨a, ha, hshow⟩ := shows_of_getElem? h hs
    rw [if_pos (List.getElem?_eq_some_iff.mp hs).1, ha, Option.map_some, Option.map_some,
      Option.getD_some, hshow]
    rfl

/-- A merge that is read on reads the streams that a publication wakes, and first
those that the first one wakes. -/
lemma resumed_merge {ss : List (Stream α)} (hgoes : ((merge ss).drained w).isEnded = false)
    (topics : List Topic) : ∃ queue, (merge ss).resumed w topics
        = .select (StreamList.ofList (ss.map (resumed w topics))) queue ∧
      (∀ i, i ∈ queue ↔ ∃ s, ss[i]? = some s ∧ (s.drained w).Wakes topics) ∧
      ∀ t ∈ topics.head?, wokenBy (.published t) (ss.map (drained w)) <+: queue := by
  rw [drained_merge] at hgoes
  split at hgoes
  · simp [isEnded] at hgoes
  · rename_i hall
    obtain ⟨queue, htold, hqueue, hfirst⟩ := told_select_nil topics (ss.map (drained w))
    refine ⟨queue, ?_, fun i => ?_, hfirst⟩
    · rw [resumed, drained_merge, if_neg hall, htold, List.map_map]
      rfl
    · rw [hqueue, List.getElem?_map]
      cases ss[i]? <;> simp

section Combination

variable {ss : List (Stream α)} {queue : List Nat}
  (hprompt : ∀ s ∈ ss, s.Prompt) (hw : w.Open) (hw' : w'.Open)
  (hafter : World.After topics w w')
  (hqueue : ∀ i, i ∈ queue ↔ ∃ s, ss[i]? = some s ∧ (s.drained w).Wakes topics)
  (hresumed : ∀ s ∈ ss, (s.drained w).Wakes topics → s.Resumed w w' topics)

include hprompt hw hw' hafter hqueue hresumed

/-- Behind a selection that was read on every slot holds the item of a fresh
stream. -/
lemma getLast?_itemsOf_resumed {i : Nat} {s : Stream α} (hs : ss[i]? = some s) {a a' : α}
    (ha : s.Shows w a) (ha' : s.Shows w' a') :
    (itemsOf i ((select (StreamList.ofList (ss.map (resumed w topics))) queue).run w').toList
        ).getLast?.or (some a) = some a' := by
  have hmem := List.mem_of_getElem? hs
  rw [itemsOf_run_select, List.getElem?_map, hs]
  by_cases hi : i ∈ queue
  · obtain ⟨t, ht, hwakes⟩ := (hqueue i).mp hi
    obtain rfl : s = t := Option.some.inj (hs.symm.trans ht)
    rw [if_pos hi, Option.map_some, Option.map_some, Option.getD_some, ← Run.last?_eq]
    exact (hresumed s hmem hwakes).latest ha ha'
  · have hquiet : ¬(s.drained w).Wakes topics := fun hwakes => hi ((hqueue i).mpr ⟨s, hs, hwakes⟩)
    rw [Shows, (hprompt s hmem).frame_of_not_wakes hw hw' hafter hquiet] at ha'
    rw [if_neg hi, List.getLast?_nil, Option.none_or, ha.unique ha']

/-- The children that were asked and those that were not stand where fresh ones
stand. -/
lemma drainedAt_resumed :
    drainedAt w' queue (ss.map (resumed w topics)) = ss.map (drained w') := by
  refine List.ext_getElem? fun i => ?_
  rw [drainedAt, List.getElem?_mapIdx, List.getElem?_map, List.getElem?_map]
  cases hs : ss[i]? with
  | none => rfl
  | some s =>
    have hmem := List.mem_of_getElem? hs
    rw [Option.map_some, Option.map_some, Option.map_some]
    by_cases hi : i ∈ queue
    · obtain ⟨t, ht, hwakes⟩ := (hqueue i).mp hi
      obtain rfl : s = t := Option.some.inj (hs.symm.trans ht)
      rw [if_pos hi, (hresumed s hmem hwakes).drained]
    · have hquiet : ¬(s.drained w).Wakes topics := fun hwakes => hi ((hqueue i).mpr ⟨s, hs, hwakes⟩)
      rw [if_neg hi, resumed, told_of_not_wakes hquiet, drained, drained,
        (hprompt s hmem).frame_of_not_wakes hw hw' hafter hquiet]

end Combination

lemma isEnded_drained_combineLatest (w : World) (s : Stream α) (rest : List (Stream α)) :
    ((Stream.combineLatest (s :: rest)).drained w).isEnded
      = ((merge (s :: rest)).drained w).isEnded := isEnded_drained_scan ..

/-- Of a faithful combination only the parts that wake are read on, and only these
are known to be faithful. -/
lemma Faithful.of_combineLatest {s : Stream α} {rest : List (Stream α)}
    (hgoes : ((Stream.combineLatest (s :: rest)).drained w).isEnded = false)
    (hfaithful : ((Stream.combineLatest (s :: rest)).resumed w topics).Faithful w')
    {t : Stream α} (ht : t ∈ s :: rest) (hwakes : (t.drained w).Wakes topics) :
    (t.resumed w topics).Faithful w' := by
  have hmerge := (isEnded_drained_combineLatest w s rest).symm.trans hgoes
  obtain ⟨queue, hqueued, hqueue, -⟩ := resumed_merge hmerge topics
  rw [combineLatest_cons] at hgoes hfaithful
  rw [resumed_scan hgoes, Faithful, hqueued, Faithful] at hfaithful
  obtain ⟨i, hi⟩ := List.mem_iff_getElem?.mp ht
  refine hfaithful.of_mem (i := i) (by rw [List.getElem?_map, hi]; rfl) ?_
  rw [Nat.zero_add]
  exact (hqueue i).mpr ⟨t, hi, hwakes⟩

/-- A combination is read on as its parts are, of which those wake that a
publication concerns. -/
lemma resumed_combineLatest {s : Stream α} {rest : List (Stream α)}
    (hprompt : ∀ t ∈ s :: rest, t.Prompt) (hw : w.Open) (hw' : w'.Open)
    (hafter : World.After topics w w')
    (hgoes : ((Stream.combineLatest (s :: rest)).drained w).isEnded = false)
    (hfaithful : ((Stream.combineLatest (s :: rest)).resumed w topics).Faithful w')
    (ih : ∀ t ∈ s :: rest, (t.resumed w topics).Faithful w' → t.Resumed w w' topics) :
    (Stream.combineLatest (s :: rest)).Resumed w w' topics := by
  obtain ⟨items, hitems⟩ := exists_shows fun t ht => (hprompt t ht).shows hw
  obtain ⟨items', hitems'⟩ := exists_shows fun t ht => (hprompt t ht).shows hw'
  have hresumed : ∀ t ∈ s :: rest, (t.drained w).Wakes topics → t.Resumed w w' topics :=
    fun t ht hwakes => ih t ht (hfaithful.of_combineLatest hgoes ht hwakes)
  have hmerge := (isEnded_drained_combineLatest w s rest).symm.trans hgoes
  obtain ⟨queue, hqueued, hqueue, -⟩ := resumed_merge hmerge topics
  rw [combineLatest_cons] at hgoes
  have hfirst := stateAfter_merge hitems
  obtain ⟨goal, hstate, hpassed⟩ := stateAfter_latestStep items
    (((merge (s :: rest)).resumed w topics).run w').toList
  have hgoal : goal = items' := by
    refine (List.map_inj_right fun _ _ => Option.some.inj).mp (List.ext_getElem? fun i => ?_)
    rw [← hstate, getElem?_stateAfter_latestStep, List.getElem?_map, List.getElem?_map]
    cases hi : (s :: rest)[i]? with
    | none =>
      have hle := List.getElem?_eq_none_iff.mp hi
      rw [List.getElem?_eq_none (hitems.length_eq ▸ hle),
        List.getElem?_eq_none (hitems'.length_eq ▸ hle)]
      rfl
    | some t =>
      obtain ⟨a, ha, hshow⟩ := shows_of_getElem? hitems hi
      obtain ⟨a', ha', hshow'⟩ := shows_of_getElem? hitems' hi
      rw [ha, ha', Option.map_some, Option.map_some, Option.map_some, hqueued,
        getLast?_itemsOf_resumed hprompt hw hw' hafter hqueue hresumed hi hshow hshow']
  subst hgoal
  have hsource : ((merge (s :: rest)).resumed w topics).drained w'
      = (merge (s :: rest)).drained w' := by
    rw [hqueued, drained_select, drained_merge,
      drainedAt_resumed hprompt hw hw' hafter hqueue hresumed]
  refine ⟨?_, fun {b b'} hb hb' => ?_⟩
  · rw [combineLatest_cons, resumed_scan hgoes, drained_scan, drained_scan, hsource, hfirst, hstate,
      stateAfter_merge hitems']
  · rw [hb.unique (.combineLatest hitems), hb'.unique (.combineLatest hitems'), Run.last?_eq,
      combineLatest_cons, toList_resumed_scan hgoes, hfirst]
    exact hpassed

/-! ### Switches -/

lemma resumed_switch {bounded : Bool} {source : Stream α} {project : α → Stream β} {a : α}
    (hbounded : bounded = true → (source.drained w).isEnded = false) (ha : source.Shows w a)
    (hgoes : ((switch bounded project source ended).drained w).isEnded = false)
    (topics : List Topic) :
    (switch bounded project source ended).resumed w topics
      = .switch bounded project (source.resumed w topics) ((project a).resumed w topics) := by
  rw [drained_switch hbounded, ha.current] at hgoes
  rw [resumed, drained_switch hbounded, ha.current]
  split
  · rename_i hended
    rw [if_pos hended] at hgoes
    simp [isEnded] at hgoes
  · rw [told_switch]
    rfl

/-- A switch reads on the stream that it has, or a fresh one for a new item. -/
lemma Resumed.switch {bounded : Bool} {source : Stream α} {project : α → Stream β}
    (h : source.Resumed w w' topics) (hsource : source.Prompt)
    (hproject : ∀ (w : World) a, w.Open → source.Shows w a → (project a).Prompt)
    (hw : w.Open) (hw' : w'.Open)
    (hbounded : bounded = true → ∀ w : World, w.Open → (source.drained w).isEnded = false)
    (hgoes : ((switch bounded project source ended).drained w).isEnded = false)
    (hfaithful : ((switch bounded project source ended).resumed w topics).Faithful w')
    (ih : ∀ a, source.Shows w a → ((project a).resumed w topics).Faithful w' →
      (project a).Resumed w w' topics) :
    (switch bounded project source ended).Resumed w w' topics := by
  obtain ⟨a, ha⟩ := hsource.shows hw
  obtain ⟨a', ha'⟩ := hsource.shows hw'
  obtain ⟨b, hb⟩ := (hproject w a hw ha).shows hw
  obtain ⟨b', hb'⟩ := (hproject w' a' hw' ha').shows hw'
  have hends := fun h => hbounded h w hw
  have hends' := fun h => hbounded h w' hw'
  have hres := resumed_switch hends ha hgoes topics
  have hends'' : bounded = true → ((source.resumed w topics).drained w').isEnded = false :=
    fun hb => by rw [h.drained]; exact hends' hb
  rw [hres] at hfaithful
  have hinner := hfaithful.current
  -- What is read on is either a fresh stream or the one that was read before.
  have hcurrent : (current w' project (source.resumed w topics)
        ((project a).resumed w topics)).drained w' = (project a').drained w' ∧
      ((current w' project (source.resumed w topics) ((project a).resumed w topics)).run
        w').last? (some b) = some b' := by
    have hlast := h.latest ha ha'
    rw [Run.last?_eq] at hlast
    rw [current, Run.last?_none_eq] at hinner ⊢
    cases hl : ((source.resumed w topics).run w').toList.getLast? with
    | some c =>
      rw [hl, Option.some_or, Option.some.injEq] at hlast
      subst hlast
      refine ⟨rfl, ?_⟩
      rw [Option.map_some, Option.getD_some, Run.last?_eq, hb']
      rfl
    | none =>
      rw [hl, Option.none_or, Option.some.injEq] at hlast
      subst hlast
      rw [hl] at hinner
      have hresumed := ih a ha hinner
      exact ⟨hresumed.drained, hresumed.latest hb hb'⟩
  refine ⟨?_, fun {c c'} hc hc' => ?_⟩
  · rw [hres, drained_switch hends'', drained_switch hends', h.drained, ha'.current,
      hcurrent.1]
  · have hshow := ha.switch hends hb
    have hshow' := ha'.switch hends' hb'
    rw [hc.unique hshow, hc'.unique hshow', hres, Run.last?_eq, toList_run_switch hends'',
      ← Run.last?_eq]
    exact hcurrent.2

/-! ### Prompt streams -/

/-- A published value that was read is read again if it has changed. -/
lemma resumed_watch {topic : Topic} (hw : w.Open) (hw' : w'.Open)
    (hafter : World.After topics w w') : (watch topic none).Resumed w w' topics := by
  have hres : (watch topic none).resumed w topics = .watch topic (some (w.read topic).version) := by
    rw [resumed, drained, run_watch_none hw]
    exact told_watch _ _ _
  have hread : ((watch topic none).resumed w topics).drained w'
        = .watch topic (some (w'.read topic).version) ∧
      (((watch topic none).resumed w topics).run w').last? (some (w.read topic).value)
        = some (w'.read topic).value := by
    rw [hres, drained, run, Run.ofPublished, hw' topic]
    rcases hafter topic with heq | ⟨-, hlt⟩
    · rw [heq]
      simp [Run.final, Run.last?]
    · have hne : (w.read topic).version ≠ (w'.read topic).version := Nat.ne_of_lt hlt
      simp [hne, Run.final, Run.last?]
  refine ⟨?_, fun {a a'} ha ha' => ?_⟩
  · rw [hread.1, drained, run_watch_none hw']
    rfl
  · rw [Shows, run_watch_none hw] at ha
    rw [Shows, run_watch_none hw'] at ha'
    rw [← (List.cons.inj ha).1, ← (List.cons.inj ha').1]
    exact hread.2

lemma resumed_timeout {source : Stream α} {a : α} (ha : source.Shows w a) (millis : Nat) (late : α)
    (topics : List Topic) :
    (timeout millis late none source).resumed w topics = source.resumed w topics := by
  rw [resumed, resumed, drained, drained, run_timeout ha]

/-- A timeout that did not show is gone. -/
lemma Resumed.timeout {source : Stream α} (h : source.Resumed w w' topics)
    (hsource : source.Prompt) (hw : w.Open) (hw' : w'.Open) (millis : Nat) (late : α) :
    (Stream.timeout millis late none source).Resumed w w' topics := by
  obtain ⟨a, ha⟩ := hsource.shows hw
  obtain ⟨a', ha'⟩ := hsource.shows hw'
  have hres := resumed_timeout ha millis late topics
  refine ⟨?_, fun {b b'} hb hb' => ?_⟩
  · rw [hres, h.drained, Stream.drained, Stream.drained, run_timeout ha']
  · rw [Shows, run_timeout ha] at hb
    rw [Shows, run_timeout ha'] at hb'
    rw [hres]
    exact h.latest hb hb'

/-- A prompt stream that is read on faithfully comes to stand where a fresh one
stands. -/
theorem Prompt.resume (h : s.Prompt) (hw : w.Open) (hw' : w'.Open)
    (hafter : World.After topics w w') (hfaithful : (s.resumed w topics).Faithful w') :
    s.Resumed w w' topics := by
  have hprompt := h
  induction h with
  | just a => exact hprompt.resumed_of_ended hw hw' hafter rfl
  | @lasting α a =>
    have hres : (Stream.lasting [a]).resumed w topics = .lasting [] := told_lasting topics []
    refine ⟨by rw [hres]; rfl, fun {b b'} hb hb' => ?_⟩
    rw [hres, hb.unique hb']
    rfl
  | watch topic => exact resumed_watch hw hw' hafter
  | map f h ih =>
    refine hprompt.resumed_of_goes hw hw' hafter fun hgoes => ?_
    rw [Stream.map, resumed_scan hgoes, Faithful] at hfaithful
    exact (ih hfaithful h).map hgoes
  | distinct same h ih =>
    refine hprompt.resumed_of_goes hw hw' hafter fun hgoes => ?_
    have hsource := hfaithful
    rw [Stream.distinct, resumed_dedup hgoes, Faithful] at hsource
    exact (ih hsource.1 h).distinct h hw hw' hgoes hfaithful
  | @combineLatest α ss h ih =>
    cases ss with
    | nil => exact hprompt.resumed_of_ended hw hw' hafter rfl
    | cons s rest =>
      refine hprompt.resumed_of_goes hw hw' hafter fun hgoes => ?_
      exact resumed_combineLatest h hw hw' hafter hgoes hfaithful fun t ht hfaithful =>
        ih t ht hfaithful (h t ht)
  | @switch α β source project bounded hsource hproject hbounded ihsource ihproject =>
    refine hprompt.resumed_of_goes hw hw' hafter fun hgoes => ?_
    obtain ⟨a, ha⟩ := hsource.shows hw
    have hbelow := hfaithful
    rw [resumed_switch (fun h => hbounded h w hw) ha hgoes, Faithful] at hbelow
    exact (ihsource hbelow.1 hsource).switch hsource hproject hw hw' hbounded hgoes hfaithful
      fun a ha hfaithful => ihproject w a hw ha hfaithful (hproject w a hw ha)
  | @timeout α source millis late h ih =>
    obtain ⟨a, ha⟩ := h.shows hw
    rw [resumed_timeout ha] at hfaithful
    exact (ih hfaithful h).timeout h hw hw' millis late

end Stream

end Verdict
