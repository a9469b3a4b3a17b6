/-
Decisions and the attributes that were in force.

Between two drains of a reader attributes are published.  Each decision that the
second drain delivers should be the one for the attributes at some moment in
between.  That holds of every policy and all values if at most two attributes were
published, all of one before all of the other.

* `World.publishAll`: the world after publications.
* `Round`: a drain, the publications before it and all that happened earlier.
* `Round.Admissible`, `Round.Consistent`: what is assumed of a round and what is
  expected of it.
* `Round.Admissible.delivered_eq`: the reader gets the news of its stream.
* `Round.Admissible.consistent_of_two`: rounds of at most two attributes.
-/
import Verdict.Proofs.DecisionPoint.Convergence
import Verdict.Proofs.Stream.Consistency

namespace Verdict

/-! ### Publications -/

namespace World

/-- The world after publications of attributes, one after the other. -/
def publishAll (w : World) (published : List (String × Value)) : World :=
  published.foldl (fun w (name, value) => w.publishAttribute name value) w

lemma publishAll_append (w : World) (published more : List (String × Value)) :
    w.publishAll (published ++ more) = (w.publishAll published).publishAll more :=
  List.foldl_append

lemma Open.publishAll {w : World} (h : w.Open) (published : List (String × Value)) :
    (w.publishAll published).Open := by
  induction published generalizing w with
  | nil => exact h
  | cons p rest ih => exact ih (h.publishAttribute p.1 p.2)

lemma after_publishAll (w : World) (published : List (String × Value)) :
    After (published.map fun p => .ofAttribute p.1) w (w.publishAll published) := by
  induction published generalizing w with
  | nil => exact fun t => .inl rfl
  | cons p rest ih => exact (w.after_publishAttribute p.1 p.2).trans (ih _)

end World

namespace Session

/-- The publications as operations. -/
def publications (published : List (String × Value)) : List Operation :=
  published.map fun (name, value) => .publish name value

/-- Publications change the world and tell the streams, and nobody gets anything. -/
lemma performAll_publications (id : String) (s : Session) (published : List (String × Value)) :
    (s.performAll id (publications published)).1.world = s.world.publishAll published ∧
      (s.performAll id (publications published)).1.streams.lookup id
        = (s.streams.lookup id).map (Stream.told (published.map fun p => .ofAttribute p.1)) ∧
      (s.performAll id (publications published)).2 = [] := by
  induction published generalizing s with
  | nil => exact ⟨rfl, Option.map_id'.symm, rfl⟩
  | cons p rest ih =>
    obtain ⟨hworld, hlookup, hnone⟩ := ih (s.publish p.1 p.2)
    refine ⟨hworld, ?_, hnone⟩
    refine hlookup.trans ?_
    rw [publish, lookup_change, Option.map_map]
    rfl

/-- Nothing is read while attributes are published. -/
lemma faithful_publications (id : String) (s : Session) (published : List (String × Value)) :
    s.Faithful id (publications published) := by
  induction published generalizing s with
  | nil => trivial
  | cons p rest ih => exact ⟨by simp, ih _⟩

end Session

/-! ### Rounds -/

/-- A reader of decisions has read everything; attributes are published, and the
reader reads everything again. -/
structure Round where
  point : DecisionPoint
  subscription : AuthorizationSubscription
  /-- The session in which the reader opens its stream. -/
  session : Session
  id : String
  /-- What happens before the reader has read everything. -/
  earlier : List Session.Operation
  published : List (String × Value)

namespace Round

/-- The stream of the reader. -/
def stream (r : Round) : Stream Delivery := (r.point.decide r.subscription).map .decision

/-- The session when the reader has opened its stream. -/
def opened (r : Round) : Session := r.session.openStream r.id r.stream

/-- The session at the end of the drain before the publications. -/
def start (r : Round) : Session := (r.opened.performAll r.id (r.earlier ++ [.drain])).1

/-- The publications, and the drain behind them. -/
def operations (r : Round) : List Session.Operation :=
  Session.publications r.published ++ [.drain]

/-- What the reader gets in the drain behind the publications. -/
def delivered (r : Round) : List Delivery := (r.start.performAll r.id r.operations).2

/-- The world when so much had been published. -/
def snapshot (r : Round) (before : List (String × Value)) : World :=
  r.start.world.publishAll before

/-- All attributes deliver at once, no stage takes different items for repetitions,
and no attribute is ever subscribed at two places. -/
structure Admissible (r : Round) : Prop where
  immediate : r.point.Immediate
  isOpen : r.session.world.Open
  faithful : r.opened.Faithful r.id (r.earlier ++ [.drain] ++ r.operations)
  readsOnce : ∀ before, before <+: r.published → ∀ name,
    (r.stream.drained (r.snapshot before)).subscriptions (.ofAttribute name) ≤ 1

/-- Every decision that is delivered is one with which decisions would start that
were opened at some moment of the round. -/
def Consistent (r : Round) : Prop :=
  ∀ delivery ∈ r.delivered, ∃ before d, before <+: r.published ∧ delivery = .decision d ∧
    ∃ rest more, (r.point.decide r.subscription).run (r.snapshot before) = .item d rest more

variable {r : Round}

lemma stream_prompt (h : r.point.Immediate) : r.stream.Prompt :=
  (DecisionPoint.decide_prompt h r.subscription).map _

lemma stream_endless (h : r.point.Immediate) {w : World} (hw : w.Open) :
    (r.stream.drained w).isEnded = false :=
  (Stream.isEnded_drained_scan ..).trans (DecisionPoint.isEnded_drained_decide h r.subscription hw)

/-- The topics of the publications. -/
def topics (r : Round) : List Topic := r.published.map fun p => .ofAttribute p.1

/-- When the publications begin the stream of the reader stands where a fresh one
stands that was read. -/
lemma Admissible.start_stands (h : r.Admissible) :
    r.start.world.Open ∧
      r.start.streams.lookup r.id = some (r.stream.drained r.start.world) ∧
      r.start.Faithful r.id r.operations := by
  have hprompt := stream_prompt h.immediate
  have hendless (w : World) (hw : w.Open) := stream_endless h.immediate hw
  obtain ⟨hbefore, hround⟩ := Session.faithful_append.mp h.faithful
  obtain ⟨hearlier, hdrain⟩ := Session.faithful_append.mp hbefore
  have hstart : r.opened.Tracks r.stream r.id none :=
    ⟨h.isOpen, .inl ⟨rfl, Session.lookup_openStream _ _ _⟩⟩
  have htracks := hstart.performAll hprompt hendless r.earlier hearlier
  obtain ⟨d, -, hworld, hlookup, -⟩ := htracks.drain hprompt hendless (hdrain.1 rfl)
  have heq : r.start = ((r.opened.performAll r.id r.earlier).1.perform r.id .drain).1 := by
    rw [start, Session.performAll_concat]
  refine ⟨?_, ?_, hround⟩
  · rw [heq, hworld]
    exact htracks.isOpen
  · rw [heq, hworld]
    exact hlookup

/-- The reader gets the news of its stream. -/
lemma Admissible.delivered_eq (h : r.Admissible) :
    (r.stream.resumed r.start.world r.topics).Faithful (r.snapshot r.published) ∧
      r.delivered = r.stream.news r.start.world (r.snapshot r.published) r.topics := by
  obtain ⟨hopen, hlookup, hfaithful⟩ := h.start_stands
  obtain ⟨hworld, htold, hnone⟩ :=
    Session.performAll_publications r.id r.start r.published
  rw [hlookup, Option.map_some] at htold
  have hread := (Session.faithful_append.mp hfaithful).2.1 rfl _ htold
  rw [hworld] at hread
  have hopen' : (r.snapshot r.published).Open := hopen.publishAll r.published
  have hafter := r.start.world.after_publishAll r.published
  have hresumed := (stream_prompt h.immediate).resume hopen hopen' hafter hread
  have hgoes : ((r.stream.resumed r.start.world r.topics).drained
      (r.snapshot r.published)).isEnded = false := by
    rw [topics, hresumed.drained]
    exact stream_endless h.immediate hopen'
  have hdrain := Session.perform_drain htold (by rw [hworld]; exact hgoes)
  refine ⟨hread, ?_⟩
  rw [delivered, operations, Session.performAll_concat, hnone, List.nil_append, hdrain, hworld]
  rfl

/-- If nothing happened earlier, the publications begin in the world of the session. -/
lemma start_of_earlier_nil (h : r.point.Immediate) (hopen : r.session.world.Open)
    (hearlier : r.earlier = []) :
    r.start.world = r.session.world ∧
      r.start.streams.lookup r.id = some (r.stream.drained r.session.world) := by
  have hlookup : r.opened.streams.lookup r.id = some r.stream := Session.lookup_openStream ..
  have hdrain := Session.perform_drain hlookup (stream_endless h hopen)
  have hstart : r.start = (r.opened.perform r.id .drain).1 := by
    rw [start, hearlier]
    rfl
  rw [hstart, hdrain]
  exact ⟨rfl, Session.lookup_openStream ..⟩

/-- If nothing happened earlier, the second drain alone has to be faithful. -/
lemma faithful_of_earlier_nil (h : r.point.Immediate) (hopen : r.session.world.Open)
    (hearlier : r.earlier = [])
    (hfaithful : (r.stream.resumed r.session.world r.topics).Faithful
      (r.session.world.publishAll r.published)) :
    r.opened.Faithful r.id (r.earlier ++ [.drain] ++ r.operations) := by
  obtain ⟨hstart, hlookup⟩ := start_of_earlier_nil h hopen hearlier
  obtain ⟨hworld, htold, -⟩ := Session.performAll_publications r.id r.start r.published
  refine Session.faithful_append.mpr
    ⟨?_, Session.faithful_append.mpr ⟨?_, fun _ s hs => ?_, trivial⟩⟩
  · rw [hearlier]
    refine ⟨fun _ s hs => ?_, trivial⟩
    obtain rfl := Option.some.inj ((Session.lookup_openStream ..).symm.trans hs)
    exact (stream_prompt h).faithful hopen
  · exact Session.faithful_publications ..
  · change (Session.performAll r.id r.start _).1.streams.lookup r.id = some s at hs
    rw [htold, hlookup] at hs
    obtain rfl := Option.some.inj hs
    change Stream.Faithful (Session.performAll r.id r.start _).1.world _
    rw [hworld, hstart]
    exact hfaithful

/-- A decision of which a fresh stream shows the delivery in a snapshot. -/
lemma exists_decision {delivery : Delivery} {before : List (String × Value)}
    (hbefore : before <+: r.published) (hshows : r.stream.Shows (r.snapshot before) delivery) :
    ∃ before d, before <+: r.published ∧ delivery = .decision d ∧
      ∃ rest more, (r.point.decide r.subscription).run (r.snapshot before) = .item d rest more := by
  obtain ⟨d, hd, rfl⟩ := hshows.of_map
  exact ⟨before, d, hbefore, rfl, hd.exists_run⟩

/-- If one attribute is published alone, the round is consistent. -/
lemma Admissible.consistent_of_one (h : r.Admissible) {x : String}
    (hx : ∀ p ∈ r.published, p.1 = x) : r.Consistent := by
  intro delivery hdelivery
  obtain ⟨hopen, -, -⟩ := h.start_stands
  obtain ⟨hfaithful, heq⟩ := h.delivered_eq
  rw [heq] at hdelivery
  have hone : r.stream.ReadsOne r.start.world r.topics := by
    refine ⟨.ofAttribute x, h.readsOnce [] List.nil_prefix x, fun t ht hne => ?_⟩
    obtain ⟨p, hp, rfl⟩ := List.mem_map.mp ht
    exact absurd (congrArg Topic.ofAttribute (hx p hp)) hne
  have hshows := (stream_prompt h.immediate).news_of_readsOne hopen (hopen.publishAll r.published)
    (r.start.world.after_publishAll r.published) hfaithful hone delivery hdelivery
  exact exists_decision List.prefix_rfl hshows

/-- One attribute and behind it another one: the world changes in two steps. -/
lemma Admissible.twoSteps (h : r.Admissible) {x y : String} (hxy : x ≠ y)
    {first second : List (String × Value)} (hpublished : r.published = first ++ second)
    (hfirst : first ≠ []) (hx : ∀ p ∈ first, p.1 = x) (hy : ∀ p ∈ second, p.1 = y) :
    Stream.TwoSteps (.ofAttribute x) (.ofAttribute y) r.topics r.start.world
      (r.snapshot first) (r.snapshot r.published) := by
  obtain ⟨hopen, -, -⟩ := h.start_stands
  have hsnapshot : r.snapshot r.published = (r.snapshot first).publishAll second := by
    rw [snapshot, hpublished, World.publishAll_append]
    rfl
  -- The topics of publications of a single attribute.
  have htopic {published : List (String × Value)} {name : String}
      (hall : ∀ p ∈ published, p.1 = name) {t : Topic}
      (ht : t ∈ published.map fun p => Topic.ofAttribute p.1) : t = .ofAttribute name := by
    obtain ⟨p, hp, rfl⟩ := List.mem_map.mp ht
    exact congrArg Topic.ofAttribute (hall p hp)
  refine ⟨fun heq => hxy (Topic.ofAttribute.inj heq), hopen, hopen.publishAll _,
    hopen.publishAll _, fun t ht => ?_, fun t ht => ?_, fun t ht => ?_, ?_,
    r.start.world.after_publishAll r.published⟩
  · exact (r.start.world.after_publishAll first).read_of_not_mem fun hmem => ht (htopic hx hmem)
  · rw [hsnapshot]
    exact ((r.snapshot first).after_publishAll second).read_of_not_mem fun hmem =>
      ht (htopic hy hmem)
  · rw [topics, hpublished, List.map_append, List.mem_append] at ht
    exact ht.imp (htopic hx) (htopic hy)
  · obtain ⟨p, rest, rfl⟩ := List.exists_cons_of_ne_nil hfirst
    rw [topics, hpublished, List.cons_append, List.map_cons, List.head?_cons,
      hx p List.mem_cons_self]

/-- If one attribute is published and behind it another one, the round is
consistent. -/
lemma Admissible.consistent_of_two (h : r.Admissible) {x y : String}
    {first second : List (String × Value)} (hpublished : r.published = first ++ second)
    (hx : ∀ p ∈ first, p.1 = x) (hy : ∀ p ∈ second, p.1 = y) : r.Consistent := by
  by_cases hxy : x = y
  · refine h.consistent_of_one (x := y) fun p hp => ?_
    rw [hpublished, List.mem_append] at hp
    rcases hp with hp | hp
    · exact (hx p hp).trans hxy
    · exact hy p hp
  by_cases hfirst : first = []
  · refine h.consistent_of_one (x := y) ?_
    rw [hpublished, hfirst]
    exact hy
  intro delivery hdelivery
  obtain ⟨hfaithful, heq⟩ := h.delivered_eq
  rw [heq] at hdelivery
  have hprefix : first <+: r.published := ⟨second, hpublished.symm⟩
  have hshows := (stream_prompt h.immediate).consistent (h.twoSteps hxy hpublished hfirst hx hy)
    hfaithful (h.readsOnce [] List.nil_prefix x) (h.readsOnce [] List.nil_prefix y)
    (h.readsOnce _ hprefix y) delivery hdelivery
  rcases hshows with hshows | hshows
  · exact exists_decision hprefix hshows
  · exact exists_decision List.prefix_rfl hshows

end Round

end Verdict
