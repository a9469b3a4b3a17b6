/-
The convergence of live decisions.

A reader of the decisions for a subscription reads on from time to time, while
attributes are published and documents and configurations are put in force.  At
the end of every drain the last decision that it got is the one with which
decisions would start that were opened only then.

* `Session.Operation`, `Session.performAll`: runs of a session with one reader.
* `Session.change_after`: what the operations of owners leave behind.
* `Session.Tracks`: where a reader stands in relation to a fresh stream.
* `DecisionPoint.decide_prompt`: live decisions are prompt.
* `DecisionPoint.last_delivery_eq_fresh`: they converge.
* `Reporting.gatekeeper`, `Reporting.gated`: a point over published attributes, and
  a world with a policy behind two of them.
-/
import Mathlib
import Verdict.DecisionPoint.Session
import Verdict.Proofs.Evaluation.Prompt
import Verdict.Proofs.Stream.Convergence
import Verdict.Proofs.Value.Equality

namespace Verdict

/-! ### Runs of a session -/

namespace Session

/-- What the owners and a reader do to a session. -/
inductive Operation where
  | publish (name : String) (value : Value)
  | reload (retrieval : Retrieval)
  | configure (configuration : PdpConfiguration)
  /-- The reader reads everything that is there. -/
  | drain

/-- The session after an operation, and what the reader of the id got; a
configuration that is refused changes nothing. -/
def perform (id : String) (s : Session) : Operation → Session × List Delivery
  | .publish name value => (s.publish name value, [])
  | .reload retrieval => ((s.reload retrieval).1, [])
  | .configure configuration =>
    match s.configure configuration with
    | .ok changed => (changed, [])
    | .error _ => (s, [])
  | .drain =>
    let (left, items, _) := s.poll id none
    (left, items)

/-- The session after operations, and all that the reader got. -/
def performAll (id : String) (s : Session) : List Operation → Session × List Delivery
  | [] => (s, [])
  | op :: rest =>
    let (changed, items) := s.perform id op
    let (left, more) := performAll id changed rest
    (left, items ++ more)

/-- At every drain the stream of the reader is read faithfully. -/
def Faithful (id : String) (s : Session) : List Operation → Prop
  | [] => True
  | op :: rest =>
    (op = .drain → ∀ stream, s.streams.lookup id = some stream → stream.Faithful s.world) ∧
      Faithful id (s.perform id op).1 rest

lemma performAll_append (id : String) (s : Session) (ops more : List Operation) :
    s.performAll id (ops ++ more)
      = (((s.performAll id ops).1.performAll id more).1,
        (s.performAll id ops).2 ++ ((s.performAll id ops).1.performAll id more).2) := by
  induction ops generalizing s with
  | nil => rfl
  | cons op rest ih => simp [performAll, ih]

lemma performAll_concat (id : String) (s : Session) (ops : List Operation) (op : Operation) :
    s.performAll id (ops ++ [op])
      = (((s.performAll id ops).1.perform id op).1,
        (s.performAll id ops).2 ++ ((s.performAll id ops).1.perform id op).2) := by
  simp [performAll_append, performAll]

lemma faithful_append {id : String} {s : Session} {ops more : List Operation} :
    s.Faithful id (ops ++ more) ↔
      s.Faithful id ops ∧ (s.performAll id ops).1.Faithful id more := by
  induction ops generalizing s with
  | nil => simp [Faithful, performAll]
  | cons op rest ih =>
    rw [List.cons_append, Faithful, Faithful, ih, and_assoc]
    rfl

lemma lookup_change (s : Session) (world : World) (topic : Topic) (id : String) :
    (s.change world topic).streams.lookup id
      = (s.streams.lookup id).map (Stream.told [topic]) :=
  lookup_map (Stream.told [topic]) id s.streams

lemma lookup_advance (s : Session) (millis : Nat) (id : String) :
    (s.advance millis).streams.lookup id
      = (s.streams.lookup id).map (Stream.elapse s.world.time (s.world.time + millis)) :=
  lookup_map _ id s.streams

lemma lookup_openStream (s : Session) (id : String) (stream : Stream Delivery) :
    (s.openStream id stream).streams.lookup id = some stream := by
  rw [openStream, List.lookup_cons_self]

/-- An operation of an owner publishes some topics, and the streams are told. -/
lemma perform_owner (id : String) (s : Session) (op : Operation) (hop : op ≠ .drain)
    (hopen : s.world.Open) :
    ∃ topics, (s.perform id op).1.world.Open ∧
      World.After topics s.world (s.perform id op).1.world ∧
      (s.perform id op).1.streams.lookup id = (s.streams.lookup id).map (Stream.told topics) ∧
      (s.perform id op).2 = [] := by
  cases op with
  | drain => exact absurd rfl hop
  | publish name value =>
    exact ⟨_, hopen.publishAttribute name value, s.world.after_publishAttribute name value,
      lookup_change s _ _ id, rfl⟩
  | reload retrieval =>
    have hclosed : s.world.retrieval.closed = false := hopen .retrieval
    rw [perform, reload, if_neg (by rw [hclosed]; exact Bool.false_ne_true)]
    refine ⟨[.retrieval], fun t => ?_, fun t => ?_, lookup_change s _ _ id, rfl⟩
    · cases t with
      | retrieval => exact hopen .retrieval
      | configuration => exact hopen .configuration
      | ofAttribute name => exact hopen (.ofAttribute name)
    · cases t with
      | retrieval => exact .inr ⟨List.mem_singleton_self _, Nat.lt_succ_self _⟩
      | configuration => exact .inl rfl
      | ofAttribute name => exact .inl rfl
  | configure configuration =>
    rw [perform, configure]
    cases configuration.validate with
    | error refusal =>
      refine ⟨[], hopen, fun t => .inl rfl, ?_, rfl⟩
      exact Option.map_id'.symm
    | ok c =>
      refine ⟨[.configuration], fun t => ?_, fun t => ?_, lookup_change s _ _ id, rfl⟩
      · cases t with
        | retrieval => exact hopen .retrieval
        | configuration => exact hopen .configuration
        | ofAttribute name => exact hopen (.ofAttribute name)
      · cases t with
        | configuration => exact .inr ⟨List.mem_singleton_self _, Nat.lt_succ_self _⟩
        | retrieval => exact .inl rfl
        | ofAttribute name => exact .inl rfl

/-- A drain gives all that the stream delivers, and leaves the stream drained. -/
lemma perform_drain {id : String} {s : Session} {stream : Stream Delivery}
    (h : s.streams.lookup id = some stream)
    (hgoes : (stream.drained s.world).isEnded = false) :
    s.perform id .drain
      = (s.openStream id (stream.drained s.world), (stream.run s.world).toList) := by
  have hfinal : (stream.run s.world).final = some (stream.drained s.world) := by
    rw [Stream.final_run_eq, hgoes]
    rfl
  have htake : (stream.run s.world).take stream ((stream.run s.world).length + 1)
      = ((stream.run s.world).toList, some (stream.drained s.world)) := by
    refine Prod.ext ?_ ?_
    · rw [Run.fst_take, List.take_of_length_le (by simp)]
    · rw [Run.snd_take_of_length_lt _ _ (Nat.lt_succ_self _), hfinal]
  simp [perform, poll, h, htake, keep]

/-- The reader of the id stands where a fresh stream would stand that was told of
some publications: it has read nothing, or everything up to some world, of which
`last` was the last. -/
structure Tracks (stream : Stream Delivery) (id : String) (last : Option Delivery) (s : Session) :
    Prop where
  isOpen : s.world.Open
  stands : (last = none ∧ s.streams.lookup id = some stream) ∨
    ∃ w topics d, w.Open ∧ World.After topics w s.world ∧ stream.Shows w d ∧ last = some d ∧
      s.streams.lookup id = some (stream.resumed w topics)

variable {stream : Stream Delivery} {id : String} {last : Option Delivery} {s : Session}

/-- A reader of a prompt stream that reads to the end gets the item of a fresh
stream last, unless it has it already. -/
lemma Tracks.drain (h : s.Tracks stream id last) (hprompt : stream.Prompt)
    (hendless : ∀ w : World, w.Open → (stream.drained w).isEnded = false)
    (hfaithful : ∀ t, s.streams.lookup id = some t → t.Faithful s.world) :
    ∃ d, stream.Shows s.world d ∧ (s.perform id .drain).1.world = s.world ∧
      (s.perform id .drain).1.streams.lookup id = some (stream.drained s.world) ∧
      (s.perform id .drain).2.getLast?.or last = some d := by
  have hgoes := hendless s.world h.isOpen
  obtain ⟨d, hd⟩ := hprompt.shows h.isOpen
  refine ⟨d, hd, ?_⟩
  rcases h.stands with ⟨rfl, hlookup⟩ | ⟨w, topics, d', hw, hafter, hd', rfl, hlookup⟩
  · rw [perform_drain hlookup hgoes, hd]
    exact ⟨rfl, lookup_openStream _ _ _, rfl⟩
  · have hresumed := hprompt.resume hw h.isOpen hafter (hfaithful _ hlookup)
    have hlast := hresumed.latest hd' hd
    rw [Run.last?_eq] at hlast
    rw [perform_drain hlookup (by rw [hresumed.drained]; exact hgoes), hresumed.drained]
    exact ⟨rfl, lookup_openStream _ _ _, hlast⟩

/-- A reader keeps standing where a fresh stream would stand. -/
theorem Tracks.perform (h : s.Tracks stream id last) (hprompt : stream.Prompt)
    (hendless : ∀ w : World, w.Open → (stream.drained w).isEnded = false) (op : Operation)
    (hfaithful : op = .drain → ∀ t, s.streams.lookup id = some t → t.Faithful s.world) :
    (s.perform id op).1.Tracks stream id ((s.perform id op).2.getLast?.or last) := by
  by_cases hop : op = .drain
  · subst hop
    obtain ⟨d, hd, hworld, hlookup, hlast⟩ := h.drain hprompt hendless (hfaithful rfl)
    refine ⟨by rw [hworld]; exact h.isOpen, .inr ⟨s.world, [], d, h.isOpen, fun t => ?_, hd, hlast,
      hlookup⟩⟩
    rw [hworld]
    exact .inl rfl
  · obtain ⟨topics, hopen, hafter, hlookup, hnone⟩ := perform_owner id s op hop h.isOpen
    rw [hnone, List.getLast?_nil, Option.none_or]
    refine ⟨hopen, ?_⟩
    rcases h.stands with ⟨hlast, hstream⟩ | ⟨w, before, d, hw, hbefore, hd, hlast, hstream⟩
    · refine .inl ⟨hlast, ?_⟩
      rw [hlookup, hstream, Option.map_some, hprompt.told]
    · refine .inr ⟨w, before ++ topics, d, hw, hbefore.trans hafter, hd, hlast, ?_⟩
      rw [hlookup, hstream, Option.map_some, Stream.resumed, Stream.resumed, Stream.told_append]

/-- So it does along all operations. -/
theorem Tracks.performAll (h : s.Tracks stream id last) (hprompt : stream.Prompt)
    (hendless : ∀ w : World, w.Open → (stream.drained w).isEnded = false) (ops : List Operation)
    (hfaithful : s.Faithful id ops) :
    (s.performAll id ops).1.Tracks stream id ((s.performAll id ops).2.getLast?.or last) := by
  induction ops generalizing s last with
  | nil => exact h
  | cons op rest ih =>
    have hrest := ih (h.perform hprompt hendless op hfaithful.1) hfaithful.2
    rw [Session.performAll, List.getLast?_append, Option.or_assoc]
    exact hrest

end Session

/-! ### Decision points -/

namespace DecisionPoint

/-- The documents and the configuration never change or are published in the
world, and all finders deliver one value at once. -/
structure Immediate (point : DecisionPoint) : Prop where
  retrieval : (∃ r, point.retrieval = .lasting [r]) ∨ point.retrieval = .watch .retrieval none
  configuration : (∃ c, point.configuration = .lasting [c]) ∨
    point.configuration = .watch .configuration none
  finders : point.finders.Immediate

variable {point : DecisionPoint}

/-- The decisions by some documents under a configuration are prompt. -/
lemma evaluate_prompt (h : point.Immediate) (s : AuthorizationSubscription) (retrieval : Retrieval)
    (configuration : PdpConfiguration) : (point.evaluate s retrieval configuration).Prompt := by
  rw [evaluate]
  cases configuration.validate with
  | error refusal => exact .just _
  | ok c =>
    refine (combineLive_prompt _ fun unit hunit => ?_).map _
    rw [units, List.mem_append] at hunit
    rcases hunit with hunit | hunit
    · obtain ⟨document, -, rfl⟩ := List.mem_map.mp hunit
      exact document.evaluate_prompt h.finders rfl
    · split at hunit
      · rw [List.mem_singleton.mp hunit]
        exact .just _
      · simp at hunit

/-- The documents never end while retrieval is open. -/
lemma Immediate.endless (h : point.Immediate) {w : World} (hw : w.Open) :
    (point.retrieval.drained w).isEnded = false := by
  rcases h.retrieval with ⟨r, hr⟩ | hr
  · rw [hr]
    rfl
  · rw [hr, Stream.drained, Stream.run_watch_none hw]
    rfl

/-- The live decisions for a subscription are prompt. -/
theorem decide_prompt (h : point.Immediate) (s : AuthorizationSubscription) :
    (point.decide s).Prompt := by
  have hretrieval : point.retrieval.Prompt := by
    rcases h.retrieval with ⟨r, hr⟩ | hr
    · exact hr ▸ .lasting r
    · exact hr ▸ .watch .retrieval
  have hconfiguration : point.configuration.Prompt := by
    rcases h.configuration with ⟨c, hc⟩ | hc
    · exact hc ▸ .lasting c
    · exact hc ▸ .watch .configuration
  exact .distinct _ (.switch true hretrieval
    (fun _ retrieval _ _ => hconfiguration.switchMap (evaluate_prompt h s retrieval))
    fun _ _ hw => h.endless hw)

/-- They never end while retrieval is open. -/
lemma isEnded_drained_decide (h : point.Immediate) (s : AuthorizationSubscription) {w : World}
    (hw : w.Open) : ((point.decide s).drained w).isEnded = false := by
  rw [decide, Stream.distinct, Stream.isEnded_drained_dedup, Stream.switchMapBounded,
    Stream.drained_switch fun _ => h.endless hw, h.endless hw]
  rfl

/-- After any operations of owners and readers, a reader of the decisions for a
subscription that reads to the end has got last what decisions would deliver first
that are opened only then.  No stage may take two values for the same that differ,
as it would where values that are structurally equal need not be identical. -/
theorem last_delivery_eq_fresh (point : DecisionPoint) (hpoint : point.Immediate)
    (subscription : AuthorizationSubscription) (s : Session) (hopen : s.world.Open) (id : String)
    (ops : List Session.Operation)
    (hfaithful : (s.openStream id ((point.decide subscription).map .decision)).Faithful id
      (ops ++ [.drain])) :
    let run := (s.openStream id ((point.decide subscription).map .decision)).performAll id
      (ops ++ [.drain])
    ∃ d rest more, (point.decide subscription).run run.1.world = .item d rest more ∧
      run.2.getLast? = some (.decision d) := by
  intro run
  let stream := (point.decide subscription).map Delivery.decision
  let before := (s.openStream id stream).performAll id ops
  have hprompt : stream.Prompt := (decide_prompt hpoint subscription).map _
  have hendless (w : World) (hw : w.Open) : (stream.drained w).isEnded = false := by
    exact (Stream.isEnded_drained_scan ..).trans (isEnded_drained_decide hpoint subscription hw)
  obtain ⟨hfaithful, hdrain⟩ := Session.faithful_append.mp hfaithful
  have hstart : (s.openStream id stream).Tracks stream id none :=
    ⟨hopen, .inl ⟨rfl, Session.lookup_openStream s id stream⟩⟩
  have htracks := hstart.performAll hprompt hendless ops hfaithful
  obtain ⟨delivery, hshows, hworld, -, hlast⟩ := htracks.drain hprompt hendless (hdrain.1 rfl)
  obtain ⟨d, hd, rfl⟩ := hshows.of_map
  obtain ⟨rest, more, hfresh⟩ := hd.exists_run
  have hrun : run = ((before.1.perform id .drain).1, before.2 ++ (before.1.perform id .drain).2) :=
    Session.performAll_concat id _ ops .drain
  refine ⟨d, rest, more, ?_, ?_⟩
  · rw [hrun, hworld]
    exact hfresh
  · rw [hrun, List.getLast?_append, ← hlast, Option.or_none]

end DecisionPoint

/-! ### A policy behind two gates -/

namespace Reporting

/-- The published value of an attribute. -/
def published (name : String) : Expression :=
  .basic (.literal .null) [.attribute name []] none none

/-- A subscription that names nobody and nothing. -/
def anyone : AuthorizationSubscription := ⟨.null, .null, .null, none⟩

/-- A policy that permits while all of these attributes hold.  Each of them is read only while
those before it hold. -/
def gate (names : List String) : Policy :=
  ⟨"gate", .permit, none, names.map fun name => .condition (published name), [], [], none⟩

/-- A world with this policy, in which the first gate is shut and the second one open. -/
def gated : World where
  attributes := [("a", { value := .ofBool false }), ("b", { value := .ofBool true })]
  retrieval := { value := { documents := [.policy (gate ["a", "b"])] } }

/-- A point to which documents, the configuration and both attributes are published. -/
def gatekeeper : DecisionPoint := .watching .empty (.watching ["a", "b"]) []

lemma immediate_gatekeeper : gatekeeper.Immediate :=
  ⟨.inr rfl, .inr rfl, FinderRegistry.immediate_watching _⟩

lemma open_gated : gated.Open := by
  intro topic
  cases topic with
  | retrieval => rfl
  | configuration => rfl
  | ofAttribute name =>
    simp only [gated, World.read, lookup_cons_eq]
    split
    · rfl
    · split <;> rfl

/-- The first gate opens between two drains: no stage takes items that differ for the same. -/
lemma faithful_gated :
    (Session.openStream { world := gated } "pdp"
      ((gatekeeper.decide anyone).map .decision)).Faithful "pdp"
        ([.drain, .publish "a" (.ofBool true)] ++ [.drain]) := by
  let s := Session.openStream { world := gated } "pdp" ((gatekeeper.decide anyone).map .decision)
  let changed := ((s.perform "pdp" .drain).1.perform "pdp" (.publish "a" (.ofBool true))).1
  have hsecond : (changed.streams.lookup "pdp").elim True (Stream.Faithful changed.world) := by
    cbv
    refine ⟨⟨⟨fun _ => ?_, trivial⟩, ?_, trivial⟩, ?_, trivial⟩
    · cbv
      exact ⟨eq_of_mem_of_differs (by decide), trivial⟩
    · exact eq_of_mem_of_differs (by decide)
    · exact eq_of_mem_of_differs (by decide)
  refine ⟨fun _ t ht => ?_, by simp, fun _ t ht => ?_, trivial⟩
  · cases ht
    exact ((DecisionPoint.decide_prompt immediate_gatekeeper anyone).map
      Delivery.decision).faithful open_gated
  · replace ht : changed.streams.lookup "pdp" = some t := ht
    rwa [ht] at hsecond

end Reporting

/-- The first gate opens between two drains, and the reader is permitted last. -/
theorem DecisionPoint.last_delivery_eq_fresh_gate :
    let point := Reporting.gatekeeper
    let opened := Session.openStream { world := Reporting.gated } "pdp"
      ((point.decide Reporting.anyone).map .decision)
    let run := opened.performAll "pdp" ([.drain, .publish "a" (.ofBool true)] ++ [.drain])
    ∃ rest more,
      (point.decide Reporting.anyone).run run.1.world = .item (.plain .permit) rest more ∧
        run.2.getLast? = some (.decision (.plain .permit)) := by
  intro point opened run
  obtain ⟨d, rest, more, hfresh, hlast⟩ := last_delivery_eq_fresh point
    Reporting.immediate_gatekeeper Reporting.anyone { world := Reporting.gated }
    Reporting.open_gated "pdp" [.drain, .publish "a" (.ofBool true)] Reporting.faithful_gated
  have hpermit : run.2.getLast? = some (.decision (.plain .permit)) := by
    simp only [run, opened, point]
    cbv
  obtain rfl : .plain .permit = d := by
    rw [hlast, Option.some.injEq, Delivery.decision.injEq] at hpermit
    exact hpermit.symm
  exact ⟨rest, more, hfresh, hlast⟩

end Verdict
