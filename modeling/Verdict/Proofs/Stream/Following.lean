/-
Streams that are kept up with.

A reader has read a stream until it waits, and whatever has changed since was told to the
stream.  Then the last item that the reader got is to stand for the item that a stream
delivers which is opened only now: the two are related as the items of the sources are.
This passes through every stage.  A stage that holds back repetitions lets it pass if an
item and its repetition are related to the same items.

* `ReadIn`, `Informed`: all reads were in worlds of a kind, and what a reader has read is still
  so, or it has been told.
* `Stream.Remains`, `Stream.ReadLast`: where a reader of fixed items stands, and one of a
  published value.
* `Stream.Follows`: the last item of the one stream stands for a fresh one of the other.
* `Stream.Follows.distinct`: holding back repetitions.
* `Stream.Switches`, `Stream.exists_switches`: a switch that waits is up to date with its source
  and with its newest stream.
* `Stream.Follows.map`, `combineLatest`, `switchMap`, `timeout`: the other stages.
-/
import Verdict.Proofs.Stream.Latest
import Verdict.Proofs.Stream.Prompt
import Verdict.Proofs.Stream.Switching

namespace Verdict

variable {α β : Type} {W : World → Prop} {w : World} {topics : List Topic} {h h' : List Turn}

/-! ### Readers that were told -/

/-- The reads were in worlds of the kind. -/
def ReadIn (W : World → Prop) (h : List Turn) : Prop :=
  ∀ w further, Turn.read w further ∈ h → W w

lemma ReadIn.tail {m : Turn} (hr : ReadIn W (m :: h)) : ReadIn W h :=
  fun w further hmem => hr w further (List.mem_cons_of_mem _ hmem)

/-- The reads were in worlds of the kind, and whatever has changed since then in the world was
told: in a later one of the turns, or under the topics. -/
def Informed (W : World → Prop) (w : World) : List Topic → List Turn → Prop
  | _, [] => True
  | topics, .read v _ :: h => (W v ∧ World.After topics v w) ∧ Informed W w topics h
  | topics, .told (.published topic) :: h => Informed W w (topic :: topics) h
  | topics, .told (.reached _) :: h => Informed W w topics h

namespace Informed

/-- Who is told of everything tells its parts. -/
lemma of_attends (hs : Attends h' h) (hi : Informed W w topics h) : Informed W w topics h' := by
  induction hs generalizing topics with
  | nil => trivial
  | told e _ ih =>
    cases e with
    | published topic => exact ih hi
    | reached deadline => exact ih hi
  | asked v further further' _ ih => exact ⟨hi.1, ih hi.2⟩
  | unasked v further _ ih => exact ih hi.2

/-- What comes into play later has less to be told. -/
lemma of_prefix (hp : h' <+: h) (hi : Informed W w topics h) : Informed W w topics h' := by
  induction h' generalizing h topics with
  | nil => trivial
  | cons m h' ih =>
    obtain ⟨earlier, rfl⟩ := hp
    have hrest := h'.prefix_append earlier
    match m with
    | .read v further => exact ⟨hi.1, ih hrest hi.2⟩
    | .told (.published topic) => exact ih hrest hi
    | .told (.reached deadline) => exact ih hrest hi

lemma of_told {e : Event} (hi : Informed W w topics (.told e :: h)) :
    ∃ topics', Informed W w topics' h ∧
      ∀ topic ∈ topics', topic ∈ topics ∨ e = .published topic := by
  cases e with
  | published topic =>
    refine ⟨topic :: topics, hi, fun other hother => ?_⟩
    exact (List.mem_cons.mp hother).symm.imp_right fun heq => congrArg Event.published heq.symm
  | reached deadline => exact ⟨topics, hi, fun other hother => .inl hother⟩

lemma readIn (hi : Informed W w topics h) : ReadIn W h := by
  induction h generalizing topics with
  | nil => exact fun _ _ hmem => absurd hmem List.not_mem_nil
  | cons m h ih =>
    cases m with
    | told e =>
      obtain ⟨topics', htold, -⟩ := hi.of_told
      exact fun v further hmem => ih htold v further (by simpa using hmem)
    | read u further =>
      obtain ⟨⟨hu, -⟩, hrest⟩ := hi
      intro v further' hmem
      rcases List.mem_cons.mp hmem with heq | hmem
      · cases heq
        exact hu
      · exact ih hrest v further' hmem

end Informed

namespace Stream

variable {s t : Stream α}

/-- What holds of every item holds of what was delivered. -/
lemma Always.delivered {P : α → Prop} (hs : s.Always W P) (hr : ReadIn W h) :
    (∀ t, s.left h = some t → t.Always W P) ∧ ∀ a ∈ s.delivered h, P a := by
  induction h with
  | nil => exact ⟨fun t ht => Option.some.inj ht ▸ hs, by simp [Stream.delivered]⟩
  | cons m h ih =>
    obtain ⟨hleft, hitems⟩ := ih hr.tail
    cases m with
    | told e =>
      refine ⟨fun t ht => ?_, by rwa [delivered_told]⟩
      obtain ⟨u, hu, rfl⟩ := Option.map_eq_some_iff.mp ht
      exact (hleft u hu).notify e
    | read v further =>
      have hv : W v := hr v further List.mem_cons_self
      cases hgoes : s.left h with
      | none =>
        rw [left_cons_of_left_eq_none _ hgoes, Stream.delivered,
          given_cons_of_left_eq_none _ hgoes, List.append_nil]
        exact ⟨fun t ht => (by cases ht), hitems⟩
      | some t =>
        obtain ⟨hgiven, hrests⟩ := Run.all_iff.mp ((hleft t hgoes).run hv)
        refine ⟨fun u hu => ?_, fun a ha => ?_⟩
        · rw [left_read_of_left hgoes] at hu
          rcases Run.eq_or_mem_rests_of_take hu with ⟨hzero, -⟩ | hmem
          · cases hzero
          · exact hrests u hmem
        · rw [Stream.delivered, given_read_of_left hgoes, Run.fst_take] at ha
          exact (List.mem_append.mp ha).elim (hitems a) fun hmem =>
            hgiven a (List.mem_of_mem_take hmem)

/-! ### Following a stream -/

/-- A reader of the first stream that has read it until it waits, and was told of everything
since, has got last an item that is related to the one that the second stream delivers. -/
structure Follows (W : World → Prop) (R : α → α → Prop) (s t : Stream α) : Prop where
  always : s.Always W fun a => ∃ b, R a b
  latest : ∀ h w, W w → Informed W w [] h → s.awake h = false →
    ∃ a b, (s.delivered h).getLast? = some a ∧ t.Shows w b ∧ R a b

/-! Sources. -/

/-- The stream delivers fixed items, and a reader may leave it behind each of them. -/
structure IsListed (source : List α → Stream α) : Prop where
  quiet : ∀ items, (source items).Quiet
  take : ∀ w items count, ((source items).run w).take (source items) count
      = (items.take count, some (source (items.drop count))) ∨
    items.length < count ∧ ((source items).run w).take (source items) count = (items, none)

lemma isListed_finite : IsListed (finite : List α → Stream α) where
  quiet _ _ := rfl
  take w items count := by
    change (Run.ofFinite items).take (finite items) count = _ ∨
      _ ∧ (Run.ofFinite items).take (finite items) count = _
    induction items generalizing count with
    | nil =>
      cases count with
      | zero => exact .inl rfl
      | succ count => exact .inr ⟨Nat.succ_pos count, rfl⟩
    | cons a rest ih =>
      cases count with
      | zero => exact .inl rfl
      | succ count =>
        rw [Run.ofFinite, Run.take, List.take_succ_cons, List.drop_succ_cons]
        rcases ih count with htake | ⟨hless, htake⟩
        · exact .inl (by rw [htake])
        · refine .inr ⟨?_, by rw [htake]⟩
          rw [List.length_cons]
          omega

lemma isListed_lasting : IsListed (lasting : List α → Stream α) where
  quiet _ _ := rfl
  take w items count := by
    change (Run.ofLasting items).take (lasting items) count = _ ∨ _
    left
    induction items generalizing count with
    | nil => cases count <;> rfl
    | cons a rest ih =>
      cases count with
      | zero => rfl
      | succ count =>
        rw [Run.ofLasting, Run.take, ih, List.take_succ_cons, List.drop_succ_cons]

/-- Some of the items are still to come, none if the source waits or has ended. -/
structure Remains (source : List α → Stream α) (items : List α) (h : List Turn) (rest : List α) :
    Prop where
  delivered : (source items).delivered h ++ rest = items
  left : (source items).left h = some (source rest) ∨
    (source items).left h = none ∧ rest = []
  sleeps : (source items).awake h = false → rest = []

namespace IsListed

variable {source : List α → Stream α} {items rest : List α}

lemma told (hs : IsListed source) (hr : Remains source items h rest) (e : Event) :
    Remains source items (.told e :: h) rest where
  delivered := by rw [delivered_told, hr.delivered]
  left := by
    rcases hr.left with hgoes | ⟨hgoes, hnil⟩
    · rw [left_told_of_left hgoes, hs.quiet rest e]
      exact .inl rfl
    · rw [left_cons_of_left_eq_none _ hgoes]
      exact .inr ⟨rfl, hnil⟩
  sleeps hsleeps := by
    rw [awake, Bool.or_eq_false_iff] at hsleeps
    exact hr.sleeps hsleeps.1

lemma read (hs : IsListed source) (hr : Remains source items h rest) (v : World) (further : Nat) :
    ∃ rest', Remains source items (.read v further :: h) rest' := by
  rcases hr.left with hgoes | ⟨hgoes, rfl⟩
  · have hgiven : (source items).given (.read v further :: h)
        = (((source rest).run v).take (source rest) (further + 1)).1 := given_read_of_left hgoes
    have hleft : (source items).left (.read v further :: h)
        = (((source rest).run v).take (source rest) (further + 1)).2 := left_read_of_left hgoes
    rcases hs.take v rest (further + 1) with htake | ⟨hless, htake⟩
    · rw [htake] at hgiven hleft
      refine ⟨rest.drop (further + 1), ?_, .inl hleft, fun hsleeps => ?_⟩
      · rw [Stream.delivered, hgiven, List.append_assoc, List.take_append_drop, hr.delivered]
      · rw [awake, hgiven, decide_eq_false_iff_not, List.length_take] at hsleeps
        exact List.drop_eq_nil_of_le (by omega)
    · rw [htake] at hgiven hleft
      refine ⟨[], ?_, .inr ⟨hleft, rfl⟩, fun _ => rfl⟩
      rw [Stream.delivered, hgiven, List.append_nil, hr.delivered]
  · refine ⟨[], ?_, .inr ⟨left_cons_of_left_eq_none _ hgoes, rfl⟩, fun _ => rfl⟩
    have hitems := hr.delivered
    rwa [Stream.delivered, given_cons_of_left_eq_none _ hgoes, List.append_nil]

lemma exists_remains (hs : IsListed source) (items : List α) (h : List Turn) :
    ∃ rest, Remains source items h rest := by
  induction h with
  | nil => exact ⟨items, rfl, .inl rfl, fun hsleeps => absurd hsleeps Bool.noConfusion⟩
  | cons m h ih =>
    obtain ⟨rest, hr⟩ := ih
    cases m with
    | told e => exact ⟨rest, hs.told hr e⟩
    | read v further => exact hs.read hr v further

/-- A source of fixed items has delivered all of them when it waits. -/
lemma delivered (hs : IsListed source) (hsleeps : (source items).awake h = false) :
    (source items).delivered h = items := by
  obtain ⟨rest, hr⟩ := hs.exists_remains items h
  have hitems := hr.delivered
  rwa [hr.sleeps hsleeps, List.append_nil] at hitems

end IsListed

namespace Follows

variable {R : α → α → Prop} {Q : β → β → Prop}

lemma just {a b : α} (hab : R a b) : Follows W R (Stream.just a) (Stream.just b) where
  always := .just ⟨b, hab⟩
  latest _ _ _ _ hsleeps :=
    ⟨a, b, congrArg List.getLast? (isListed_finite.delivered hsleeps), rfl, hab⟩

lemma lasting {a b : α} (hab : R a b) : Follows W R (.lasting [a]) (.lasting [b]) where
  always := .lasting (by simpa using ⟨b, hab⟩)
  latest _ _ _ _ hsleeps :=
    ⟨a, b, congrArg List.getLast? (isListed_lasting.delivered hsleeps), rfl, hab⟩

end Follows

/-! Published values. -/

/-- The published value was read last in the world `v`, and it is published still, or a newer one
was told. -/
structure ReadLast (w : World) (topics : List Topic) (topic : Topic) (h : List Turn) (v : World) :
    Prop where
  left : (watch topic none).left h = some (.watch topic (some (v.read topic).version))
  last : ((watch topic none).delivered h).getLast? = some (v.read topic).value
  since : w.read topic = v.read topic ∨ (v.read topic).version < (w.read topic).version
  sleeps : (watch topic none).awake h = false → topic ∉ topics → w.read topic = v.read topic

namespace ReadLast

variable {topic : Topic} {topics' : List Topic} {v : World}

lemma told {e : Event} (hr : ReadLast w topics' topic h v)
    (hsub : ∀ topic ∈ topics', topic ∈ topics ∨ e = .published topic) :
    ReadLast w topics topic (.told e :: h) v where
  left := by rw [left_told_of_left hr.left]; rfl
  last := by rw [delivered_told, hr.last]
  since := hr.since
  sleeps := by
    rw [awake, hr.left, Bool.or_eq_false_iff]
    rintro ⟨hsleeps, hquiet⟩ hout
    refine hr.sleeps hsleeps fun hmem => ?_
    refine (hsub topic hmem).elim hout fun he => ?_
    rw [he] at hquiet
    simp [notify] at hquiet

/-- A value that is new to the reader is read. -/
lemma of_new {u : World} (hu : u.Open) (hafter : World.After topics u w) {seen : Option Nat}
    (hleft : (watch topic none).left h = some (.watch topic seen))
    (hnew : seen ≠ some (u.read topic).version) (further : Nat) :
    ReadLast w topics topic (.read u further :: h) u where
  left := by
    rw [left_read_of_left hleft, run, Run.ofPublished, hu topic, if_neg hnew]
    cases further <;> simp [Run.take]
  last := by
    rw [delivered, given_read_of_left hleft, run, Run.ofPublished, hu topic, if_neg hnew]
    cases further <;> simp [Run.take]
  since := (hafter topic).imp_right And.right
  sleeps _ hout := hafter.read_of_not_mem hout

/-- A value that the reader has got already is not read again. -/
lemma of_seen {u : World} (hr : ReadLast w topics' topic h v) (hu : u.Open)
    (hafter : World.After topics u w)
    (hseen : (v.read topic).version = (u.read topic).version) (further : Nat) :
    ReadLast w topics topic (.read u further :: h) v := by
  have hsilent : ((watch topic (some (v.read topic).version)).run u).take
      (watch topic (some (v.read topic).version)) (further + 1)
        = ([], some (.watch topic (some (v.read topic).version))) := by
    rw [run, Run.ofPublished, hu topic, hseen, if_pos rfl]
    rfl
  refine ⟨?_, ?_, hr.since, fun _ hout => hr.since.resolve_right ?_⟩
  · rw [left_read_of_left hr.left, hsilent]
  · rw [delivered, given_read_of_left hr.left, hsilent, List.append_nil, hr.last]
  · rw [hafter.read_of_not_mem hout, hseen]
    exact Nat.lt_irrefl _

end ReadLast

lemma watch_state (hopen : ∀ w, W w → w.Open) (topic : Topic) (hi : Informed W w topics h) :
    ((watch topic none).left h = some (.watch topic none) ∧
        (watch topic none).awake h = true) ∨
      ∃ v, ReadLast w topics topic h v := by
  induction h generalizing topics with
  | nil => exact .inl ⟨rfl, rfl⟩
  | cons m h ih =>
    cases m with
    | told e =>
      obtain ⟨topics', htold, hsub⟩ := hi.of_told
      rcases ih htold with ⟨hleft, hawake⟩ | ⟨v, hr⟩
      · rw [left_told_of_left hleft, awake, hawake]
        exact .inl ⟨rfl, rfl⟩
      · exact .inr ⟨v, hr.told hsub⟩
    | read u further =>
      obtain ⟨⟨hu, hafter⟩, hrest⟩ := hi
      rcases ih hrest with ⟨hleft, -⟩ | ⟨v, hr⟩
      · exact .inr ⟨u, .of_new (hopen u hu) hafter hleft (by simp) further⟩
      · by_cases hseen : (v.read topic).version = (u.read topic).version
        · exact .inr ⟨v, hr.of_seen (hopen u hu) hafter hseen further⟩
        · exact .inr ⟨u, .of_new (hopen u hu) hafter hr.left
            (fun heq => hseen (Option.some.inj heq)) further⟩

namespace Follows

variable {R : α → α → Prop} {Q : β → β → Prop}

lemma watch (hopen : ∀ w, W w → w.Open) {topic : Topic}
    {R : topic.Content → topic.Content → Prop}
    (hvalue : ∀ w, W w → R (w.read topic).value (w.read topic).value) :
    Follows W R (.watch topic none) (.watch topic none) where
  always := .watch topic none fun w hw => ⟨_, hvalue w hw⟩
  latest h w hw hi hsleeps := by
    rcases watch_state hopen topic hi with ⟨-, hawake⟩ | ⟨v, hr⟩
    · rw [hawake] at hsleeps
      cases hsleeps
    · refine ⟨_, (w.read topic).value, hr.last, ?_, ?_⟩
      · rw [Shows, run_watch_none (hopen w hw)]
        rfl
      · rw [← hr.sleeps hsleeps List.not_mem_nil]
        exact hvalue w hw

/-! Stages. -/

lemma map {f g : α → β} (hst : Follows W R s t) (hfg : ∀ a b, R a b → Q (f a) (g b)) :
    Follows W Q (s.map f) (t.map g) where
  always := hst.always.map fun a ⟨b, hab⟩ => ⟨g b, hfg a b hab⟩
  latest h w hw hi hsleeps := by
    obtain ⟨source, hsource⟩ :=
      exists_staged (isStage_scan fun (_ : Unit) a => ((), some (f a))) () s
    have hstaged := (hsource h).1
    obtain ⟨a, b, hlast, hshows, hab⟩ := hst.latest (source h) w hw
      (hi.of_attends hstaged.attends) (hstaged.sleeps hsleeps)
    refine ⟨f a, g b, ?_, hshows.map g, hfg a b hab⟩
    rw [Stream.map, hstaged.delivered, passed_map, List.getLast?_map, hlast]
    rfl

end Follows

/-- What was let through last stands for the last item. -/
lemma getLast?_passed_distinctStep (same : α → α → Bool) {items : List α} {a : α}
    (ha : items.getLast? = some a) :
    ∃ p, (passed (distinctStep same) none items).getLast? = some p ∧ (p = a ∨ same p a = true) := by
  have hstate (items : List α) : stateAfter (distinctStep same) none items
      = (passed (distinctStep same) none items).getLast? := by
    induction items using List.reverseRec with
    | nil => rfl
    | append_singleton items a ih =>
      rw [stateAfter_append, passed_append, ih, List.getLast?_append, stateAfter, stateAfter_nil,
        passed_cons, passed_nil, List.append_nil, distinctStep]
      split <;> simp
  obtain ⟨before, rfl⟩ := List.getLast?_eq_some_iff.mp ha
  rw [passed_append, passed_cons, passed_nil, List.append_nil, hstate, distinctStep]
  split
  · rename_i hany
    rw [Option.any_eq_true] at hany
    obtain ⟨p, hp, hsame⟩ := hany
    exact ⟨p, by simpa using hp, .inr hsame⟩
  · exact ⟨a, by simp, .inl rfl⟩

namespace Follows

variable {R : α → α → Prop} {Q : β → β → Prop}

/-- Nothing is lost by holding back an item that stands for no other items than the one before
it. -/
theorem distinct {same : α → α → Bool} (hst : Follows W R s t)
    (hsame : ∀ p q a b, R p q → same p a = true → R a b → R p b) :
    Follows W R (s.distinct same) (t.distinct same) where
  always := hst.always.distinct same
  latest h w hw hi hsleeps := by
    obtain ⟨source, hsource⟩ := exists_staged (isStage_dedup same) none s
    have hstaged := (hsource h).1
    obtain ⟨a, b, hlast, hshows, hab⟩ := hst.latest (source h) w hw
      (hi.of_attends hstaged.attends) (hstaged.sleeps hsleeps)
    obtain ⟨p, hp, hrepeats⟩ := getLast?_passed_distinctStep same hlast
    rw [← hstaged.delivered] at hp
    refine ⟨p, b, hp, hshows.distinct same, ?_⟩
    rcases hrepeats with rfl | hrepeats
    · exact hab
    · obtain ⟨q, hpq⟩ :=
        ((hst.always.distinct same).delivered hi.readIn).2 p (List.mem_of_getLast? hp)
      exact hsame p q a b hpq hrepeats hab

/-- A combination is related part by part. -/
theorem combineLatest {ss ts : List (Stream α)} (hall : List.Forall₂ (Follows W R) ss ts) :
    Follows W (List.Forall₂ R) (Stream.combineLatest ss) (Stream.combineLatest ts) where
  always := by
    refine (Always.combineLatest (P := fun _ a => ∃ b, R a b) fun i s hs => ?_).mono ?_
    · have hpart := forall₂_getElem? hall i
      rw [hs] at hpart
      generalize ts[i]? = target at hpart
      cases hpart with
      | some hst => exact hst.always
    · rintro items ⟨-, hitems⟩
      refine exists_related fun a ha => ?_
      obtain ⟨i, hi⟩ := List.mem_iff_getElem?.mp ha
      exact hitems i a hi
  latest h w hw hi hsleeps := by
    cases hall with
    | nil => exact (just (W := W) .nil).latest h w hw hi hsleeps
    | @cons s t ss ts hst hrest =>
      have hparts : List.Forall₂ (Follows W R) (s :: ss) (t :: ts) := .cons hst hrest
      obtain ⟨arrivals, parts, hcombined⟩ := exists_combined s ss
      have hc := (hcombined h).1
      have hlatest (i : Fin (s :: ss).length) : ∃ a b,
          (itemsOf i (arrivals h)).getLast? = some a ∧
            ((t :: ts).get (i.cast hparts.length_eq)).Shows w b ∧ R a b := by
        have hi' : (s :: ss)[i.1]? = some (s :: ss)[i] := List.getElem?_eq_getElem i.2
        rw [hc.items i _ hi']
        exact (hparts.get i.2 (hparts.length_eq ▸ i.2)).latest (parts h i) w hw
          (hi.of_attends (hc.attends i)) (hc.sleeps hsleeps i _ hi')
      choose items others hlast hshows hrelated using hlatest
      refine ⟨List.ofFn items, List.ofFn others, ?_, .combineLatest ?_, ?_⟩
      · rw [hc.delivered]
        refine getLast?_latestLists (Nat.succ_pos _) (latestItems?_eq_some_iff.mpr ?_)
        refine ⟨List.length_ofFn, fun slot (hslot : slot < (s :: ss).length) => ?_⟩
        rw [hlast ⟨slot, hslot⟩, List.getElem?_ofFn, dif_pos hslot]
      · refine List.forall₂_of_length_eq_of_get ?_ fun i hi hi' => ?_
        · rw [List.length_ofFn, hparts.length_eq]
        · simpa only [List.get_eq_getElem, List.getElem_ofFn, Fin.cast_mk] using
            hshows ⟨i, hparts.length_eq ▸ hi⟩
      · refine List.forall₂_of_length_eq_of_get ?_ fun i hi hi' => ?_
        · rw [List.length_ofFn, List.length_ofFn]
        · simpa only [List.get_eq_getElem, List.getElem_ofFn] using
            hrelated ⟨i, by rwa [List.length_ofFn] at hi⟩

end Follows

/-! ### Switches -/

lemma recent_isPrefix (source : Stream α) (h : List Turn) : source.recent h <+: h := by
  induction h with
  | nil => exact List.prefix_rfl
  | cons m h ih =>
    cases m with
    | told e => exact List.cons_prefix_cons.mpr ⟨rfl, ih⟩
    | read w further =>
      refine List.cons_prefix_cons.mpr ⟨rfl, ?_⟩
      split
      · exact ih
      · exact List.nil_prefix

/-- A source can be asked for so many items that it is read to the end. -/
lemma exists_read_to_end {rest : Stream α} (hrest : (s.left h).getD ended = rest) (w : World) :
    ∃ asked, s.given (.read w asked :: h) = (rest.run w).toList ∧
      (s.left (.read w asked :: h)).getD ended = rest.drained w ∧
      s.awake (.read w asked :: h) = false := by
  refine ⟨(rest.run w).length, ?_⟩
  cases hgoes : s.left h with
  | none =>
    rw [hgoes] at hrest
    rw [awake, given_cons_of_left_eq_none _ hgoes, left_cons_of_left_eq_none _ hgoes, ← hrest]
    exact ⟨rfl, rfl, rfl⟩
  | some t =>
    obtain rfl : t = rest := by rw [hgoes] at hrest; exact hrest
    have htake : ((t.run w).take t ((t.run w).length + 1)).1 = (t.run w).toList := by
      rw [Run.fst_take, List.take_of_length_le (by simp)]
    rw [awake, given_read_of_left hgoes, left_read_of_left hgoes, htake,
      Run.snd_take_of_length_lt _ _ (Nat.lt_succ_self _)]
    exact ⟨rfl, rfl, by simp⟩

/-- Behind the turns of a switch its source has had the turns `h'`, in which it was read to the
end.  A switch that waits does so above a source and a newest stream that wait, and it has
delivered last what the newest stream delivered last. -/
structure Switches (project : α → Stream β) (source : Stream α) (h h' : List Turn) : Prop where
  attends : Attends h' h
  left : (source.left h').getD ended = source.after (h.map Turn.moment)
  latest : (source.delivered h').getLast? = source.latest (h.map Turn.moment)
  sleeps : (source.switchMap project).awake h = false → source.awake h' = false ∧
    ∀ a ∈ source.latest (h.map Turn.moment), (project a).awake (source.recent h) = false
  delivered : ∀ a ∈ source.latest (h.map Turn.moment),
    (project a).delivered (source.recent h) ≠ [] →
      ((source.switchMap project).delivered h).getLast?
        = ((project a).delivered (source.recent h)).getLast?

variable {project : α → Stream β} {source : Stream α}

/-- An event that does not wake a switch wakes neither its source nor its newest stream. -/
lemma Switches.quiet (hs : Switches project source h h') {e : Event}
    (hquiet :
      (((source.switchMap project).left h).map fun t => (t.notify e).1).getD false = false) :
    ((source.left h').map fun t => (t.notify e).1).getD false = false ∧
      ((newest project source h).map fun t => (t.notify e).1).getD false = false := by
  rcases switched false project source h with hgoes | ⟨-, hended, hnone⟩
  · rw [Stream.switchMap, hgoes, Option.map_some, Option.getD_some, notify,
      Bool.or_eq_false_iff, ← hs.left] at hquiet
    refine ⟨?_, ?_⟩
    · cases hsource : source.left h' with
      | none => rfl
      | some t => rw [hsource] at hquiet; exact hquiet.1
    · cases hnewest : newest project source h with
      | none => rfl
      | some inner => rw [hnewest] at hquiet; exact hquiet.2
  · rw [hnone.resolve_left Bool.false_ne_true]
    refine ⟨?_, rfl⟩
    rw [← hs.left] at hended
    cases hsource : source.left h' with
    | none => rfl
    | some t =>
      rw [hsource, Option.getD_some] at hended
      rw [eq_ended_of_isEnded hended]
      rfl

lemma Switches.told (hs : Switches project source h h') (e : Event) :
    Switches project source (.told e :: h) (.told e :: h') where
  attends := .told e hs.attends
  left := by
    rw [List.map_cons, Turn.moment, after, ← hs.left, Stream.left]
    cases source.left h' <;> rfl
  latest := by rw [delivered_told, hs.latest]; rfl
  sleeps hsleeps := by
    rw [awake, Bool.or_eq_false_iff] at hsleeps
    obtain ⟨hsource, hnewest⟩ := hs.sleeps hsleeps.1
    obtain ⟨hquiet, hsilent⟩ := hs.quiet hsleeps.2
    refine ⟨by rw [awake, hsource, Bool.false_or, hquiet], fun a ha => ?_⟩
    have hleft : newest project source h = (project a).left (source.recent h) := by
      have ha' : source.latest (h.map Turn.moment) = some a := ha
      rw [newest, ha', Option.bind_some]
    rw [recent, awake, hnewest a ha, Bool.false_or, ← hleft, hsilent]
  delivered a ha hne := by
    rw [recent, delivered_told] at hne ⊢
    rw [delivered_told]
    exact hs.delivered a ha hne

/-- A switch gives what its newest stream gives. -/
lemma given_switchMap (w : World) (further : Nat) {a : α}
    (ha : a ∈ source.latest ((Turn.read w further :: h).map Turn.moment)) :
    (source.switchMap project).given (.read w further :: h)
      = (project a).given (source.recent (.read w further :: h)) := by
  rw [Stream.switchMap, (switched false project source h).given_read w further,
    if_neg (by simp), givenByNewest, Option.mem_def.mp ha]
  rfl

/-- A switch that is read reads its source to the end. -/
lemma Switches.read (hs : Switches project source h h') (w : World) (further : Nat) :
    ∃ asked, Switches project source (.read w further :: h) (.read w asked :: h') := by
  let rest := source.after (h.map Turn.moment)
  obtain ⟨asked, hgiven, hleft, hsleeps⟩ := exists_read_to_end hs.left w
  have hlatest : source.latest ((Turn.read w further :: h).map Turn.moment)
      = (rest.run w).toList.getLast?.or (source.latest (h.map Turn.moment)) := by
    rw [List.map_cons, Turn.moment, Stream.latest, Run.last?_eq]
  refine ⟨asked, .asked w _ _ hs.attends, hleft, ?_, fun hwaits => ⟨hsleeps, fun a ha => ?_⟩,
    fun a ha hne => ?_⟩
  · rw [Stream.delivered, hgiven, List.getLast?_append, hs.latest, hlatest]
  · rw [awake, given_switchMap w further ha] at hwaits
    exact hwaits
  · -- The newest stream is a new one, or it was there before and has delivered already.
    have hrecent : source.recent (.read w further :: h) = .read w further ::
        if (rest.run w).toList.isEmpty then source.recent h else [] := rfl
    rw [Stream.delivered, List.getLast?_append, given_switchMap w further ha]
    rw [hrecent, Stream.delivered] at hne
    rw [hrecent, Stream.delivered, List.getLast?_append]
    cases hitems : (rest.run w).toList.getLast? with
    | some b =>
      have hsome : (rest.run w).toList.isEmpty = false :=
        List.isEmpty_eq_false_iff.mpr fun hnil => by simp [hnil] at hitems
      rw [hsome, if_neg Bool.false_ne_true] at hne ⊢
      have hgave : (project a).given [.read w further] ≠ [] := hne
      rw [Option.eq_some_of_isSome (List.getLast?_isSome.mpr hgave)]
      rfl
    | none =>
      have hnone : (rest.run w).toList.isEmpty = true :=
        List.isEmpty_iff.mpr (List.getLast?_eq_none_iff.mp hitems)
      rw [hitems, Option.none_or] at hlatest
      rw [hnone, if_pos rfl] at hne ⊢
      by_cases hgave : (project a).given (.read w further :: source.recent h) = []
      · rw [hgave, List.append_nil] at hne
        rw [hs.delivered a (hlatest ▸ ha) hne]
      · rw [Option.eq_some_of_isSome (List.getLast?_isSome.mpr hgave)]
        rfl

/-- However a switch is read, its source has turns of its own. -/
theorem exists_switches (project : α → Stream β) (source : Stream α) (h : List Turn) :
    ∃ h', Switches project source h h' := by
  induction h with
  | nil =>
    exact ⟨[], .nil, rfl, rfl, fun hwaits => absurd hwaits Bool.noConfusion,
      fun a ha => by cases ha⟩
  | cons m h ih =>
    obtain ⟨h', hs⟩ := ih
    cases m with
    | told e => exact ⟨_, hs.told e⟩
    | read w further =>
      obtain ⟨asked, hread⟩ := hs.read w further
      exact ⟨_, hread⟩

/-! ### Deadlines -/

/-- A deadline does not show on a source that delivers at once. -/
lemma Prompt.timeout_state (hsource : s.Prompt) (hopen : ∀ w, W w → w.Open) (millis : Nat)
    (late : α) (hi : Informed W w topics h) :
    ((Stream.timeout millis late none s).left h = some (.timeout millis late none s) ∧
        s.left h = some s ∧ (Stream.timeout millis late none s).awake h = true ∧
        (Stream.timeout millis late none s).delivered h = s.delivered h) ∨
      ((Stream.timeout millis late none s).left h = s.left h ∧
        (Stream.timeout millis late none s).awake h = s.awake h ∧
        (Stream.timeout millis late none s).delivered h = s.delivered h) := by
  induction h generalizing topics with
  | nil => exact .inl ⟨rfl, rfl, rfl, rfl⟩
  | cons m h ih =>
    cases m with
    | told e =>
      obtain ⟨topics', htold, -⟩ := hi.of_told
      rw [delivered_told, delivered_told, awake, awake]
      rcases ih htold with ⟨hleft, hfresh, hawake, hitems⟩ | ⟨hleft, hawake, hitems⟩
      · refine .inl ⟨?_, ?_, by rw [hawake, Bool.true_or], hitems⟩
        · rw [left_told_of_left hleft, (Prompt.timeout millis late hsource).notify]
        · rw [left_told_of_left hfresh, hsource.notify]
      · exact .inr ⟨by rw [left, left, hleft], by rw [hawake, hleft], hitems⟩
    | read v further =>
      obtain ⟨⟨hv, -⟩, hrest⟩ := hi
      right
      rw [awake, awake, delivered, delivered]
      rcases ih hrest with ⟨hleft, hfresh, -, hitems⟩ | ⟨hleft, -, hitems⟩
      · obtain ⟨a, ha⟩ := hsource.shows (hopen v hv)
        have htake : ((Stream.timeout millis late none s).run v).take (.timeout millis late none s)
            (further + 1) = (s.run v).take s (further + 1) := by
          rw [run_timeout ha]
          exact Run.take_succ_of_start _ _ _ _
        rw [given_read_of_left hleft, given_read_of_left hfresh, left_read_of_left hleft,
          left_read_of_left hfresh, htake, hitems]
        exact ⟨rfl, rfl, rfl⟩
      · rw [given, given, left, left, hleft, hitems]
        exact ⟨rfl, rfl, rfl⟩

namespace Follows

variable {R : α → α → Prop} {Q : β → β → Prop}

/-- A switch goes on from related items to related streams. -/
theorem switchMap {project project' : α → Stream β} (hst : Follows W R s t)
    (hproject : ∀ a b, R a b → Follows W Q (project a) (project' b)) :
    Follows W Q (s.switchMap project) (t.switchMap project') where
  always := hst.always.switchMap fun a ⟨b, hab⟩ => (hproject a b hab).always
  latest h w hw hi hsleeps := by
    obtain ⟨h', hs⟩ := exists_switches project s h
    obtain ⟨hsource, hnewest⟩ := hs.sleeps hsleeps
    obtain ⟨a, a', hlast, hshows, haa⟩ := hst.latest h' w hw (hi.of_attends hs.attends) hsource
    have ha : a ∈ s.latest (h.map Turn.moment) := hs.latest ▸ hlast
    obtain ⟨b, b', hlast', hshows', hbb⟩ := (hproject a a' haa).latest (s.recent h) w hw
      (hi.of_prefix (recent_isPrefix s h)) (hnewest a ha)
    refine ⟨b, b', ?_, hshows.switchMap hshows', hbb⟩
    rw [hs.delivered a ha fun hnil => by simp [hnil] at hlast', hlast']

lemma timeout (hst : Follows W R s t) (hsource : s.Prompt) (hopen : ∀ w, W w → w.Open)
    {late : α} (hlate : R late late) (millis : Nat) :
    Follows W R (.timeout millis late none s) (.timeout millis late none t) where
  always := hst.always.timeout ⟨late, hlate⟩ millis none
  latest h w hw hi hsleeps := by
    rcases hsource.timeout_state hopen millis late hi with
      ⟨-, -, hawake, -⟩ | ⟨-, hawake, hitems⟩
    · rw [hawake] at hsleeps
      cases hsleeps
    · obtain ⟨a, b, hlast, hshows, hab⟩ := hst.latest h w hw hi (hawake ▸ hsleeps)
      refine ⟨a, b, by rw [hitems, hlast], ?_, hab⟩
      rw [Shows, run_timeout hshows]
      exact hshows

end Follows

end Stream

end Verdict
