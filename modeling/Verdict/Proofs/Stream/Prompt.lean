/-
Streams that answer at once.

* `Stream.Prompt`: the streams built from sources that deliver one item at once
  and go on from there.
* `Stream.Prompt.shows`: read in an open world such a stream delivers one item.
* `Stream.Prompt.told`: before it has been read, no publication concerns it.
* `Stream.Prompt.frame`: what it does depends on the topics alone that it
  subscribes to.
* `Stream.Faithful`: no stage of the stream takes different items for repetitions.
-/
import Verdict.Proofs.Stream.Single
import Verdict.Proofs.Stream.Waking

namespace Verdict

variable {σ α β : Type}

/-- Elements of which each is related to something are related to a list. -/
lemma exists_related {γ δ : Type*} {R : γ → δ → Prop} {xs : List γ} (h : ∀ x ∈ xs, ∃ y, R x y) :
    ∃ ys, List.Forall₂ R xs ys := by
  induction xs with
  | nil => exact ⟨[], .nil⟩
  | cons x rest ih =>
    obtain ⟨y, hy⟩ := h x List.mem_cons_self
    obtain ⟨ys, hys⟩ := ih fun other hother => h other (List.mem_cons_of_mem _ hother)
    exact ⟨y :: ys, .cons hy hys⟩

namespace Stream

/-! ### What is left and what depends on it -/

lemma subscriptions_ended (topic : Topic) : (ended : Stream α).subscriptions topic = 0 := rfl

/-- A stage that has been read holds open what is left of its source. -/
lemma subscriptions_drained_scan (w : World) (topic : Topic) (step : σ → α → σ × Option β)
    (state : σ) (source : Stream α) :
    ((scan step state source).drained w).subscriptions topic
      = (source.drained w).subscriptions topic := by
  rw [drained_scan]
  split
  · rename_i hended
    rw [eq_ended_of_isEnded hended, subscriptions_ended, subscriptions_ended]
  · rfl

lemma subscriptions_drained_dedup (w : World) (topic : Topic) (same : α → α → Bool)
    (last : Option α) (source : Stream α) :
    ((dedup same last source).drained w).subscriptions topic
      = (source.drained w).subscriptions topic := by
  rw [drained_dedup]
  split
  · rename_i hended
    rw [eq_ended_of_isEnded hended]
  · rfl

/-- A selection holds open what is left of all its streams. -/
lemma subscriptions_drained_merge (w : World) (topic : Topic) (ss : List (Stream α)) :
    ((merge ss).drained w).subscriptions topic
      = (ss.map fun s => (s.drained w).subscriptions topic).sum := by
  rw [drained_merge]
  split
  · rename_i hall
    refine (List.sum_eq_zero_iff_forall_eq_nat.mpr fun n hn => ?_).symm
    obtain ⟨s, hs, rfl⟩ := List.mem_map.mp hn
    rw [eq_ended_of_isEnded (List.all_eq_true.mp hall _ (List.mem_map_of_mem hs)),
      subscriptions_ended]
  · rw [subscriptions, StreamList.subscriptions_ofList, List.map_map]
    rfl

/-- A switch holds open what is left of its source and of the stream to which the last item
led. -/
lemma subscriptions_drained_switch {w : World} {bounded : Bool} {source : Stream α}
    (h : bounded = true → (source.drained w).isEnded = false) (topic : Topic)
    (project : α → Stream β) (inner : Stream β) :
    ((switch bounded project source inner).drained w).subscriptions topic
      = (source.drained w).subscriptions topic
        + ((current w project source inner).drained w).subscriptions topic := by
  rw [drained_switch h]
  split
  · rename_i hended
    rw [Bool.and_eq_true] at hended
    rw [eq_ended_of_isEnded hended.1, eq_ended_of_isEnded hended.2]
    rfl
  · rfl

lemma subscriptions_drained_map (w : World) (topic : Topic) (f : α → β) (s : Stream α) :
    ((s.map f).drained w).subscriptions topic = (s.drained w).subscriptions topic :=
  subscriptions_drained_scan ..

lemma subscriptions_drained_combineLatest (w : World) (topic : Topic) (s : Stream α)
    (rest : List (Stream α)) :
    ((combineLatest (s :: rest)).drained w).subscriptions topic
      = ((s :: rest).map fun t => (t.drained w).subscriptions topic).sum := by
  rw [combineLatest_cons, subscriptions_drained_scan, subscriptions_drained_merge]

/-! A switch whose source shows an item. -/

/-- Where the source shows one item, this is the stream of that item. -/
lemma Shows.subscriptions_drained_switchMap {w : World} {s : Stream α} {a : α} (h : s.Shows w a)
    (topic : Topic) (project : α → Stream β) :
    ((s.switchMap project).drained w).subscriptions topic
      = (s.drained w).subscriptions topic + ((project a).drained w).subscriptions topic := by
  rw [Stream.switchMap, subscriptions_drained_switch (by simp), h.current]

lemma subscriptions_drained_switchMap_just (w : World) (topic : Topic) (a : α)
    (project : α → Stream β) :
    (((just a).switchMap project).drained w).subscriptions topic
      = ((project a).drained w).subscriptions topic := by
  rw [Shows.subscriptions_drained_switchMap (toList_run_just w a)]
  exact Nat.zero_add _

lemma subscriptions_drained_switch_lasting (w : World) (topic : Topic) {bounded : Bool} (a : α)
    (project : α → Stream β) :
    ((switch bounded project (.lasting [a]) ended).drained w).subscriptions topic
      = ((project a).drained w).subscriptions topic := by
  rw [subscriptions_drained_switch (fun _ => rfl)]
  exact Nat.zero_add _

/-- The same runs of all children make the same run of the selection. -/
lemma run_select_congr {w w' : World} {ss : List (Stream α)}
    (h : ∀ s ∈ ss, s.run w' = s.run w) (queue : List Nat) :
    (select (StreamList.ofList ss) queue).run w' = (select (StreamList.ofList ss) queue).run w := by
  have hruns : (StreamList.ofList ss).runs w' queue 0 = (StreamList.ofList ss).runs w queue 0 := by
    refine List.ext_getElem? fun i => ?_
    rw [Child.getElem?_runs, Child.getElem?_runs]
    cases hs : ss[i]? with
    | none => rfl
    | some s =>
      rw [Option.map_some, Option.map_some, Child.start, h s (List.mem_of_getElem? hs)]
      rfl
  rw [run, run, hruns]

/-! ### Prompt streams -/

/-- Sources that deliver an item at once, and what evaluation makes of them. -/
inductive Prompt : ∀ {α : Type}, Stream α → Prop
  | just {α : Type} (a : α) : Prompt (just a)
  | lasting {α : Type} (a : α) : Prompt (.lasting [a])
  | watch (topic : Topic) : Prompt (.watch topic none)
  | map {α β : Type} {s : Stream α} (f : α → β) (h : Prompt s) : Prompt (s.map f)
  | distinct {α : Type} {s : Stream α} (same : α → α → Bool) (h : Prompt s) :
      Prompt (s.distinct same)
  | combineLatest {α : Type} {ss : List (Stream α)} (h : ∀ s ∈ ss, Prompt s) :
      Prompt (Stream.combineLatest ss)
  | switch {α β : Type} {source : Stream α} {project : α → Stream β} (bounded : Bool)
      (hsource : Prompt source)
      (hproject : ∀ (w : World) a, w.Open → source.Shows w a → Prompt (project a))
      (hbounded : bounded = true → ∀ w : World, w.Open → (source.drained w).isEnded = false) :
      Prompt (.switch bounded project source ended)
  | timeout {α : Type} {source : Stream α} (millis : Nat) (late : α)
      (h : Prompt source) : Prompt (.timeout millis late none source)

/-- A timeout does not show where the source delivers at once. -/
lemma run_timeout {w : World} {source : Stream α} {a : α} (h : source.Shows w a) (millis : Nat)
    (late : α) (deadline : Option Nat) :
    (timeout millis late deadline source).run w = source.run w := by
  rw [run]
  cases hrun : source.run w with
  | pending rest => simp [Shows, hrun, Run.toList] at h
  | ended => rfl
  | item b rest more => rfl

/-- Streams that each deliver one item. -/
lemma exists_shows {w : World} {ss : List (Stream α)} (h : ∀ s ∈ ss, ∃ a, s.Shows w a) :
    ∃ items, List.Forall₂ (Shows w) ss items := exists_related h

/-- Before it has been read a watch delivers the published value. -/
lemma run_watch_none {topic : Topic} {w : World} (hw : w.Open) :
    (watch topic none).run w
      = .item (w.read topic).value (.watch topic (some (w.read topic).version))
          (.pending (.watch topic (some (w.read topic).version))) := by
  rw [run, Run.ofPublished]
  simp [hw topic]

namespace Prompt

variable {s : Stream α} {w w' : World}

/-- Read in an open world a prompt stream delivers one item. -/
theorem shows (h : s.Prompt) (hw : w.Open) : ∃ a, s.Shows w a := by
  induction h with
  | just a => exact ⟨a, rfl⟩
  | lasting a => exact ⟨a, rfl⟩
  | watch topic => exact ⟨_, by rw [Shows, run_watch_none hw]; rfl⟩
  | map f _ ih =>
    obtain ⟨a, ha⟩ := ih
    exact ⟨f a, ha.map f⟩
  | distinct same _ ih =>
    obtain ⟨a, ha⟩ := ih
    exact ⟨a, ha.distinct same⟩
  | @combineLatest α ss _ ih =>
    obtain ⟨items, hitems⟩ := exists_shows ih
    exact ⟨items, .combineLatest hitems⟩
  | switch bounded _ _ hbounded ihsource ihproject =>
    obtain ⟨a, ha⟩ := ihsource
    obtain ⟨b, hb⟩ := ihproject w a hw ha
    exact ⟨b, ha.switch (fun h => hbounded h w hw) hb⟩
  | timeout millis late _ ih =>
    obtain ⟨a, ha⟩ := ih
    exact ⟨a, by rw [Shows, run_timeout ha]; exact ha⟩

/-- Before it has been read, no publication concerns a prompt stream: all that it
is made of is going to be read anyway. -/
theorem notify (h : s.Prompt) (e : Event) : (s.notify e).2 = s := by
  induction h with
  | just a => rfl
  | lasting a => rfl
  | watch topic => rfl
  | map f _ ih => exact congrArg _ ih
  | distinct same _ ih => exact congrArg _ ih
  | @combineLatest α ss _ ih =>
    cases ss with
    | nil => rfl
    | cons s rest =>
      rw [combineLatest_cons, merge, Stream.notify, notify_select]
      have hsame : ((s :: rest).map fun s => (s.notify e).2) = s :: rest := by
        rw [List.map_congr_left ih, List.map_id']
      have hqueue : enqueue (List.range (s :: rest).length) (wokenBy e (s :: rest))
          = List.range (s :: rest).length := by
        rw [enqueue, List.filter_eq_nil_iff.mpr, List.append_nil]
        intro i hi
        obtain ⟨t, ht, -⟩ := mem_wokenBy.mp hi
        have hlt := (List.getElem?_eq_some_iff.mp ht).1
        simpa using hlt
      rw [hsame, hqueue]
  | switch bounded _ _ _ ihsource _ =>
    simp only [Stream.notify, ihsource]
  | timeout millis late _ ih => exact congrArg _ ih

/-- A prompt stream notes nothing before it has been read. -/
theorem told (h : s.Prompt) (topics : List Topic) : s.told topics = s := by
  induction topics with
  | nil => rfl
  | cons t rest ih => rw [told_cons, h.notify, ih]

/-- What a prompt stream does depends on nothing but the topics that it subscribes
to when it has been read. -/
theorem frame (h : s.Prompt) (hw : w.Open) (hw' : w'.Open)
    (hsame : ∀ t, 0 < (s.drained w).subscriptions t → w'.read t = w.read t) :
    s.run w' = s.run w := by
  induction h with
  | just a => rfl
  | lasting a => rfl
  | watch topic =>
    have hread : w'.read topic = w.read topic := hsame topic (by
      rw [drained, run_watch_none hw]
      simp [Run.final, subscriptions])
    rw [run_watch_none hw, run_watch_none hw', hread]
  | map f _ ih =>
    rw [Stream.map] at hsame ⊢
    rw [run, run, ih fun t ht => hsame t (by rwa [subscriptions_drained_scan])]
  | distinct same _ ih =>
    rw [Stream.distinct] at hsame ⊢
    rw [run, run, ih fun t ht => hsame t (by rwa [subscriptions_drained_dedup])]
  | @combineLatest α ss _ ih =>
    cases ss with
    | nil => rfl
    | cons s rest =>
      have hparts : ∀ t ∈ s :: rest, t.run w' = t.run w := by
        intro t ht
        refine ih t ht fun topic htopic => hsame topic ?_
        rw [subscriptions_drained_combineLatest, List.sum_pos_iff_exists_pos_nat]
        exact ⟨_, List.mem_map_of_mem ht, htopic⟩
      rw [combineLatest_cons, run, run, merge, run_select_congr hparts]
  | @switch α β source project bounded hsource _ hbounded ihsource ihproject =>
    have hsubs (topic : Topic) :=
      subscriptions_drained_switch (fun h => hbounded h w hw) topic project ended
    have hrun := ihsource fun t ht => hsame t (by rw [hsubs]; omega)
    obtain ⟨a, ha⟩ := hsource.shows hw
    have ha' : source.Shows w' a := by rwa [Shows, hrun]
    have hcurrent := ha.current project ended
    have hcurrent' := ha'.current project ended
    have hrun' := ihproject w a hw ha fun t ht => hsame t (by
      rw [hsubs, hcurrent]
      omega)
    rw [run_switch fun h => hbounded h w hw, run_switch fun h => hbounded h w' hw', hcurrent,
      hcurrent', hrun', drained, drained, hrun]
  | @timeout α source millis late h ih =>
    obtain ⟨a, ha⟩ := h.shows hw
    rw [drained, run_timeout ha] at hsame
    have hrun := ih hsame
    have ha' : source.Shows w' a := by rwa [Shows, hrun]
    rw [run_timeout ha, run_timeout ha', hrun]

end Prompt

end Stream

/-! ### Faithful stages -/

/-- Wherever an item is the same as the one before, the two are identical. -/
def FaithfulTo (same : α → α → Bool) : Option α → List α → Prop
  | _, [] => True
  | last, a :: rest => (∀ b ∈ last, same b a = true → b = a) ∧ FaithfulTo same (some a) rest

/-- Items that differ are not compared as the same. -/
lemma eq_of_mem_of_differs {γ : Type*} {same : γ → γ → Bool} {a b : γ} (h : same a b = false) :
    ∀ c ∈ some a, same c b = true → c = b := by
  rintro c ⟨⟩ heq
  exact absurd (h.symm.trans heq) Bool.false_ne_true

mutual

/-- While the stream is read in the world, any two items that one of its stages
compares are identical if they are structurally equal. -/
def Stream.Faithful (w : World) {α : Type} : Stream α → Prop
  | .finite _ => True
  | .lasting _ => True
  | .watch _ _ => True
  | .clock _ _ => True
  | .scan _ _ source => source.Faithful w
  | .dedup same last source => source.Faithful w ∧ FaithfulTo same last (source.run w).toList
  | .select children queue => children.Faithful w queue 0
  | .switch _ project source inner =>
    source.Faithful w ∧
      match (source.run w).last? none with
      | some a => (project a).Faithful w
      | none => inner.Faithful w
  | .timeout _ _ _ source => source.Faithful w

/-- The same for the children of a selection that are asked. -/
def StreamList.Faithful (w : World) {α : Type} (queue : List Nat) (index : Nat) :
    StreamList α → Prop
  | .nil => True
  | .cons head tail =>
    (index ∈ queue → head.Faithful w) ∧ tail.Faithful w queue (index + 1)

end

lemma StreamList.Faithful.of_mem {w : World} {queue : List Nat} {ss : List (Stream α)}
    {index i : Nat} {s : Stream α} (h : (ofList ss).Faithful w queue index)
    (hs : ss[i]? = some s) (hi : index + i ∈ queue) : s.Faithful w := by
  induction ss generalizing index i with
  | nil => simp at hs
  | cons t rest ih =>
    rw [ofList, StreamList.Faithful] at h
    cases i with
    | zero =>
      rw [List.getElem?_cons_zero, Option.some.injEq] at hs
      subst hs
      exact h.1 hi
    | succ i => exact ih h.2 hs (by rwa [Nat.add_right_comm, Nat.add_assoc])

/-- Reading a switch faithfully is reading faithfully the stream to which it switches. -/
lemma Stream.Faithful.current {w : World} {bounded : Bool} {project : α → Stream β}
    {source : Stream α} {inner : Stream β}
    (h : (Stream.switch bounded project source inner).Faithful w) :
    (Stream.current w project source inner).Faithful w := by
  rw [Stream.Faithful] at h
  rw [Stream.current]
  cases hlast : (source.run w).last? none with
  | none =>
    rw [hlast] at h
    exact h.2
  | some a =>
    rw [hlast] at h
    exact h.2

lemma Stream.Faithful.source {w : World} {bounded : Bool} {project : α → Stream β}
    {source : Stream α} {inner : Stream β}
    (h : (Stream.switch bounded project source inner).Faithful w) : source.Faithful w := by
  rw [Stream.Faithful] at h
  exact h.1

/-- Where the source is silent the stream that is there is read. -/
lemma Stream.Faithful.inner_of_silent {w : World} {bounded : Bool} {project : α → Stream β}
    {source : Stream α} {inner : Stream β}
    (h : (Stream.switch bounded project source inner).Faithful w)
    (hsilent : (source.run w).toList = []) : inner.Faithful w := by
  have hlast : (source.run w).last? none = none := by rw [Run.last?_none_eq, hsilent]; rfl
  rw [Stream.Faithful, hlast] at h
  exact h.2

/-- A selection of streams that are read faithfully is read faithfully. -/
lemma StreamList.faithful_of_forall {w : World} {queue : List Nat} {ss : List (Stream α)}
    (index : Nat) (h : ∀ s ∈ ss, s.Faithful w) : (ofList ss).Faithful w queue index := by
  induction ss generalizing index with
  | nil => trivial
  | cons t rest ih =>
    exact ⟨fun _ => h t List.mem_cons_self,
      ih (index + 1) fun s hs => h s (List.mem_cons_of_mem _ hs)⟩

/-- What is read for the first time is compared with nothing. -/
theorem Stream.Prompt.faithful {s : Stream α} {w : World} (h : s.Prompt) (hw : w.Open) :
    s.Faithful w := by
  induction h with
  | just a => trivial
  | lasting a => trivial
  | watch topic => trivial
  | map f _ ih => exact ih
  | @distinct α s same h ih =>
    obtain ⟨a, ha⟩ := h.shows hw
    refine ⟨ih, ?_⟩
    rw [ha]
    exact ⟨fun b hb => by simp at hb, trivial⟩
  | @combineLatest α ss h ih =>
    cases ss with
    | nil => trivial
    | cons s rest => exact StreamList.faithful_of_forall 0 ih
  | @switch α β source project bounded hsource hproject hbounded ihsource ihproject =>
    obtain ⟨a, ha⟩ := hsource.shows hw
    rw [Stream.Faithful]
    refine ⟨ihsource, ?_⟩
    rw [ha.last?]
    exact ihproject w a hw ha
  | timeout millis late h ih => exact ih

end Verdict
