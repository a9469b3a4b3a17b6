/-
Refused operations.

The update to a configuration that may not be in force is refused, and so is a reload once
retrieval is closed; closing retrieval again does nothing.  A run without what is refused
in it takes the same course: all else finds the same session and has the same answer.  And
a configuration that may not be in force never is, so no decisions are combined under its
algorithm.

* `Session.Act`, `Session.reply`: what is done to a session, and what it answers.
* `Session.refuses`, `Session.refuses_iff`: what the session refuses.
* `Session.trail`, `after`: the sessions along a run, and the one behind it.
* `Session.trail_admitted`: the trail without what is refused.
* `World.Permitted`: worlds with a configuration that may be in force.
* `DecisionPoint.decideBy`, `decideAllBy`: live decisions, where documents are evaluated in
  another way.
* `Session.refusals_unobserved`: what is refused is not observed.
-/
import Verdict.Proofs.DecisionPoint.Spoofing

namespace Verdict

namespace Session

/-! ### Runs -/

/-- What is done to a session. -/
inductive Act where
  | move (m : Move)
  /-- Counts the open subscriptions to an attribute. -/
  | count (name : String)

/-- What a session answers. -/
inductive Reply where
  | done
  | reloaded (accepted : Bool)
  | configured (refusal : Option ConfigError)
  | delivered (items : List Delivery) (ended : Bool)
  | counted (n : Nat)

/-- The session behind an act. -/
def act (s : Session) : Act → Session
  | .move m => (s.move m).1
  | .count _ => s

/-- The answer to an act. -/
def reply (s : Session) : Act → Reply
  | .move (.reload retrieval) => .reloaded (s.reload retrieval).2
  | .move (.configure configuration) =>
    match s.configure configuration with
    | .ok _ => .configured none
    | .error refusal => .configured (some refusal)
  | .move (.poll id limit) =>
    let (_, items, ended) := s.poll id limit
    .delivered items ended
  | .move (.publish _ _) | .move .close | .move (.advance _) | .move (.openStream _ _)
  | .move (.drop _) => .done
  | .count name => .counted (s.subscriptions name)

/-- The act reads a stream or counts subscriptions. -/
def Act.asks : Act → Bool
  | .move (.poll _ _) | .count _ => true
  | _ => false

/-- The answer says that nothing has been done. -/
def Reply.isRefusal : Reply → Bool
  | .reloaded accepted => !accepted
  | .configured refusal => refusal.isSome
  | _ => false

/-- The answer to the act is a refusal, or the act closes again what is closed. -/
def refuses (s : Session) (a : Act) : Bool :=
  (s.reply a).isRefusal || (a matches .move .close) && s.world.retrieval.closed

/-- The acts of a run, each with the session that it finds. -/
def trail (s : Session) : List Act → List (Session × Act)
  | [] => []
  | a :: rest => (s, a) :: (s.act a).trail rest

/-- The session behind a run. -/
def after (s : Session) (acts : List Act) : Session := acts.foldl act s

/-- The reads and the counts of a run, with their answers. -/
def answers (s : Session) (acts : List Act) : List (Act × Reply) :=
  ((s.trail acts).filter fun (_, a) => a.asks).map fun (t, a) => (a, t.reply a)

/-- The run without what is refused in it. -/
def admitted (s : Session) : List Act → List Act
  | [] => []
  | a :: rest =>
    if s.refuses a then (s.act a).admitted rest else a :: (s.act a).admitted rest

/-! ### What is refused -/

/-- Refused are the configurations for first-applicable, and reloads and closings where
retrieval is closed. -/
theorem refuses_iff {s : Session} {a : Act} : s.refuses a = true ↔
    (∃ configuration, a = .move (.configure configuration) ∧
      configuration.algorithm = .firstApplicable) ∨
    (a = .move .close ∨ ∃ retrieval, a = .move (.reload retrieval)) ∧
      s.world.retrieval.closed = true := by
  cases a with
  | count name => simp [refuses, reply, Reply.isRefusal]
  | move m =>
    cases m with
    | reload retrieval =>
      cases hclosed : s.world.retrieval.closed <;>
        simp [refuses, reply, Reply.isRefusal, reload, hclosed]
    | close => simp [refuses, reply, Reply.isRefusal]
    | configure configuration =>
      by_cases hfirst : configuration.algorithm = .firstApplicable <;>
        simp [refuses, reply, Reply.isRefusal, configure, PdpConfiguration.validate, hfirst]
    | publish _ _ | advance _ | openStream _ _ | drop _ | poll _ _ =>
      simp [refuses, reply, Reply.isRefusal]

/-- What is refused leaves the session as it is. -/
lemma act_of_refuses {s : Session} {a : Act} (h : s.refuses a = true) : s.act a = s := by
  obtain ⟨configuration, rfl, hfirst⟩ | ⟨rfl | ⟨retrieval, rfl⟩, hclosed⟩ := refuses_iff.mp h
  · rw [act, move, configure, PdpConfiguration.validate, if_pos hfirst]
  · rw [act, move, close, if_pos hclosed]
  · rw [act, move, reload, if_pos hclosed]

lemma refuses_of_asks (s : Session) {a : Act} (h : a.asks = true) : s.refuses a = false := by
  rw [Bool.eq_false_iff, ne_eq, refuses_iff]
  rintro (⟨_, rfl, -⟩ | ⟨rfl | ⟨_, rfl⟩, -⟩) <;> cases h

/-- All that is left of a run finds the session that it found. -/
theorem trail_admitted (s : Session) (acts : List Act) :
    s.trail (s.admitted acts) = (s.trail acts).filter fun (t, a) => !t.refuses a := by
  induction acts generalizing s with
  | nil => rfl
  | cons a rest ih =>
    rw [admitted, trail]
    cases h : s.refuses a with
    | true =>
      rw [if_pos rfl, List.filter_cons_of_neg (by simp [h]), act_of_refuses h]
      exact ih s
    | false =>
      rw [if_neg Bool.false_ne_true, List.filter_cons_of_pos (by simp [h])]
      exact congrArg _ (ih (s.act a))

/-- The run leads to the session to which it led. -/
theorem after_admitted (s : Session) (acts : List Act) :
    s.after (s.admitted acts) = s.after acts := by
  induction acts generalizing s with
  | nil => rfl
  | cons a rest ih =>
    rw [admitted]
    split
    · rw [act_of_refuses ‹_›, ih s]
      exact (congrArg (after · rest) (act_of_refuses ‹_›)).symm
    · exact ih (s.act a)

/-- Reads and counts have the answers that they had. -/
theorem answers_admitted (s : Session) (acts : List Act) :
    s.answers (s.admitted acts) = s.answers acts := by
  have hasks : ∀ found : Session × Act,
      (found.2.asks && !found.1.refuses found.2) = found.2.asks := by
    rintro ⟨t, a⟩
    cases h : a.asks with
    | true => simp [refuses_of_asks t h]
    | false => rfl
  rw [answers, trail_admitted, List.filter_filter, answers]
  exact congrArg (List.map _) (List.filter_congr fun found _ => hasks found)

/-- A run closes retrieval if it was closed before, or closing is among its acts. -/
lemma closed_after (s : Session) (acts : List Act) :
    (s.after acts).world.retrieval.closed = true ↔
      s.world.retrieval.closed = true ∨ .move .close ∈ acts := by
  induction acts generalizing s with
  | nil => simp [after]
  | cons a rest ih =>
    have hrest : (s.after (a :: rest)).world.retrieval.closed = true ↔
        (s.act a).world.retrieval.closed = true ∨ .move .close ∈ rest := ih (s.act a)
    rw [hrest, List.mem_cons]
    cases a with
    | count name => simp [act]
    | move m => rw [act, closed_move, Act.move.injEq, or_assoc, @eq_comm _ m]

end Session

open Session (Move Act)

/-! ### Configurations that may be in force -/

/-- The configuration in force may be in force. -/
def World.Permitted (w : World) : Prop := w.configuration.value.algorithm ≠ .firstApplicable

lemma PdpConfiguration.validate_eq_ok {c c' : PdpConfiguration} (h : c.validate = .ok c') :
    c' = c ∧ c.algorithm ≠ .firstApplicable := by
  rw [validate] at h
  split at h
  · cases h
  · cases h
    exact ⟨rfl, ‹_›⟩

namespace World.Permitted

variable {w : World} (h : w.Permitted)

include h

lemma moved (m : Move) : (w.moved m).Permitted := by
  cases m with
  | configure configuration =>
    rw [World.moved]
    cases hvalidate : configuration.validate with
    | error refusal => exact h
    | ok c =>
      obtain ⟨rfl, hpermitted⟩ := PdpConfiguration.validate_eq_ok hvalidate
      exact hpermitted
  | reload retrieval =>
    rw [World.moved]
    split <;> exact h
  | close =>
    rw [World.moved]
    split <;> exact h
  | publish _ _ | advance _ | openStream _ _ | drop _ | poll _ _ => exact h

end World.Permitted

lemma Session.permitted_after {s : Session} (h : s.world.Permitted) (acts : List Act) :
    (s.after acts).world.Permitted := by
  induction acts generalizing s with
  | nil => exact h
  | cons a rest ih =>
    refine ih (s := s.act a) ?_
    cases a with
    | count name => exact h
    | move m =>
      rw [Session.act, Session.world_move]
      exact h.moved m

/-- The same values, and a configuration that may be in force. -/
def Topic.permitted : Topic.Relation
  | .ofAttribute _ => Eq
  | .retrieval => Eq
  | .configuration => fun c c' => c = c' ∧ c.algorithm ≠ .firstApplicable

lemma Topic.permitted_equalAttributes : Topic.permitted.EqualAttributes := fun _ => rfl

lemma World.Permitted.matches {w : World} (h : w.Permitted) : w.Matches Topic.permitted w where
  time := rfl
  value topic := by
    cases topic with
    | ofAttribute name => exact rfl
    | retrieval => exact rfl
    | configuration => exact ⟨rfl, h⟩
  version _ := rfl
  closed _ := rfl

/-- One world with a configuration that may be in force goes together with itself. -/
lemma Session.Move.pairing_permitted :
    Session.Pairing Topic.permitted (fun w w' => w = w' ∧ w.Permitted) Eq where
  world_matches := by
    rintro w _ ⟨rfl, h⟩
    exact h.matches
  moved := by
    rintro w _ m _ ⟨rfl, h⟩ rfl
    exact ⟨rfl, h.moved m⟩
  polls_iff := by
    rintro m _ rfl id limit
    exact Iff.rfl
  spares := by
    rintro m _ rfl id h
    exact h
  events_eq := by
    rintro w _ m _ s t ⟨rfl, -⟩ rfl hdeadlines
    exact m.events_eq rfl rfl hdeadlines

/-! ### Other evaluations -/

namespace DecisionPoint

/-- A way to evaluate documents for a subscription under a configuration. -/
abbrev Evaluation :=
  AuthorizationSubscription → Retrieval → PdpConfiguration → Stream AuthorizationDecision

/-- The live decision for a subscription with an evaluation. -/
def decideBy (evaluation : Evaluation) (point : DecisionPoint) (s : AuthorizationSubscription) :
    Stream AuthorizationDecision :=
  (point.retrieval.switchMapBounded fun retrieval =>
    point.configuration.switchMap (evaluation s retrieval)).distinct AuthorizationDecision.same

/-- The live decisions for several subscriptions with an evaluation. -/
def decideAllBy (evaluation : Evaluation) (point : DecisionPoint) (m : MultiSubscription) :
    Stream (String × AuthorizationDecision) :=
  (Stream.merge
    (m.subscriptions.map fun (id, s) => (point.decideBy evaluation s).map (id, ·))).map Prod.snd

lemma decideBy_evaluate (point : DecisionPoint) (s : AuthorizationSubscription) :
    point.decideBy point.evaluate s = point.decide s := rfl

lemma decideAllBy_evaluate (point : DecisionPoint) (m : MultiSubscription) :
    point.decideAllBy point.evaluate m = point.decideAll m := rfl

/-- The evaluations are the same under every configuration that may be in force. -/
def Evaluation.SameWherePermitted (evaluation evaluation' : Evaluation) : Prop :=
  ∀ s retrieval c, c.algorithm ≠ .firstApplicable →
    evaluation s retrieval c = evaluation' s retrieval c

section

variable {functions : FunctionRegistry} {finders : FinderRegistry}
  {interceptors : List Interceptor} {evaluation : Evaluation}
  (h : evaluation.SameWherePermitted (watching functions finders interceptors).evaluate)

include h

lemma decide_matches_decideBy (s : AuthorizationSubscription) :
    ((watching functions finders interceptors).decide s).Matches Topic.permitted Eq
      ((watching functions finders interceptors).decideBy evaluation s) := by
  have hretrieval : Stream.Matches Topic.permitted Eq (.watch .retrieval none)
      (.watch .retrieval none) := .watch .retrieval none
  rw [← decideBy_evaluate, decideBy, decideBy]
  refine (hretrieval.switchMapBounded ?_).distinct _
  rintro retrieval _ rfl
  refine (Stream.Matches.watch .configuration none).switchMap ?_
  rintro c _ ⟨rfl, hc⟩
  rw [h s retrieval c hc]
  exact (watching_alike functions finders interceptors).evaluate_matches
    Topic.permitted_equalAttributes (.refl c) s retrieval

lemma decideAll_matches_decideAllBy (m : MultiSubscription) :
    ((watching functions finders interceptors).decideAll m).Matches Topic.permitted Eq
      ((watching functions finders interceptors).decideAllBy evaluation m) := by
  have hstreams : List.Forall₂ (Stream.Matches Topic.permitted Eq)
      (m.subscriptions.map fun (id, s) =>
        ((watching functions finders interceptors).decide s).map (id, ·))
      (m.subscriptions.map fun (id, s) =>
        ((watching functions finders interceptors).decideBy evaluation s).map (id, ·)) := by
    rw [List.forall₂_map_left_iff, List.forall₂_map_right_iff, List.forall₂_same]
    exact fun m _ => (decide_matches_decideBy h m.2).map_eq (m.1, ·)
  rw [← decideAllBy_evaluate, decideAllBy, decideAllBy, Stream.merge, Stream.merge,
    List.length_map, List.length_map]
  exact (Stream.Matches.select_of_forall₂ hstreams _).map fun _ _ hab => hab.2

end

end DecisionPoint

/-! ### What is not observed -/

namespace Session

open DecisionPoint (watching)

/-- Decisions are never combined under first-applicable: whenever it opens its stream and
whatever follows, a reader of decisions gets what it would get if documents were evaluated
in any other way under configurations that may not be in force. -/
def NeverFirstApplicable (s : Session) : Prop :=
  ∀ (functions : FunctionRegistry) (finders : FinderRegistry) (interceptors : List Interceptor)
    (evaluation : DecisionPoint.Evaluation),
    evaluation.SameWherePermitted (watching functions finders interceptors).evaluate →
    ∀ (id : String) (moves : List Move), (∀ m ∈ moves, m.Spares id) →
    let point := watching functions finders interceptors
    (∀ subscription,
      s.observed id ((point.decide subscription).map .decision) moves
        = s.observed id ((point.decideBy evaluation subscription).map .decision) moves) ∧
    ∀ subscriptions,
      s.observed id ((point.decideAll subscriptions).map fun (i, d) => .identified i d) moves
        = s.observed id
          ((point.decideAllBy evaluation subscriptions).map fun (i, d) => .identified i d) moves

lemma neverFirstApplicable_of_permitted {s : Session} (h : s.world.Permitted) :
    s.NeverFirstApplicable := by
  intro functions finders interceptors evaluation hsame id moves hspares point
  have hmoves : List.Forall₂ Eq moves moves := List.forall₂_same.mpr fun _ _ => rfl
  refine ⟨fun subscription => ?_, fun subscriptions => ?_⟩
  · exact Move.pairing_permitted.observed_eq ⟨rfl, h⟩ id
      ((DecisionPoint.decide_matches_decideBy hsame subscription).map_eq _) hmoves hspares
  · exact Move.pairing_permitted.observed_eq ⟨rfl, h⟩ id
      ((DecisionPoint.decideAll_matches_decideAllBy hsame subscriptions).map_eq _) hmoves hspares

/-- What is refused is not observed.  Without the refused updates of the configuration,
the refused reloads and the repeated closings of a run, all else finds the session that it
found, so that every read and every count has its answer, and the run leads to the same
session.  Refused are just the updates to first-applicable, and the reloads and closings
that come after a closing.  And if the first configuration is valid, so is every one that
is ever in force, and decisions are never combined under first-applicable. -/
theorem refusals_unobserved (s : Session) (acts : List Act) :
    (s.trail (s.admitted acts) = (s.trail acts).filter fun (t, a) => !t.refuses a) ∧
    s.answers (s.admitted acts) = s.answers acts ∧
    s.after (s.admitted acts) = s.after acts ∧
    (∀ a, (s.after acts).refuses a = true ↔
      (∃ configuration, a = .move (.configure configuration) ∧
        configuration.algorithm = .firstApplicable) ∨
      (a = .move .close ∨ ∃ retrieval, a = .move (.reload retrieval)) ∧
        (s.world.retrieval.closed = true ∨ .move .close ∈ acts)) ∧
    (s.world.configuration.value.validate.isOk = true →
      (s.after acts).world.configuration.value.algorithm ≠ .firstApplicable ∧
      (s.after acts).NeverFirstApplicable) := by
  refine ⟨s.trail_admitted acts, s.answers_admitted acts, s.after_admitted acts, fun a => ?_,
    fun hvalid => ?_⟩
  · rw [refuses_iff, closed_after]
  · have hpermitted : (s.after acts).world.Permitted := by
      refine permitted_after (fun hfirst => ?_) acts
      rw [PdpConfiguration.validate, if_pos hfirst] at hvalid
      cases hvalid
    exact ⟨hpermitted, neverFirstApplicable_of_permitted hpermitted⟩

/-- An update is refused before a stream is opened; a reload and a closing are refused once
the first gate of the policy has opened and the documents have been closed. -/
theorem refusals_unobserved_closed :
    let point := Reporting.gatekeeper
    let stream := (point.decide Reporting.anyone).map Delivery.decision
    let first : PdpConfiguration := { algorithm := .firstApplicable }
    let s : Session := { world := Reporting.gated }
    let acts : List Act := [.move (.configure first), .move (.openStream "pdp" stream),
      .move (.poll "pdp" none), .move (.publish "a" (.ofBool true)), .move (.poll "pdp" none),
      .count "b", .move .close, .move (.reload {}), .move .close, .move (.poll "pdp" none),
      .count "b"]
    let other : DecisionPoint.Evaluation := fun subscription retrieval c =>
      if c.algorithm = .firstApplicable then .just (.plain .permit)
      else point.evaluate subscription retrieval c
    s.admitted acts = [.move (.openStream "pdp" stream), .move (.poll "pdp" none),
        .move (.publish "a" (.ofBool true)), .move (.poll "pdp" none), .count "b",
        .move .close, .move (.poll "pdp" none), .count "b"] ∧
      s.answers acts = [
        (.move (.poll "pdp" none), .delivered [.decision (.plain .notApplicable)] false),
        (.move (.poll "pdp" none), .delivered [.decision (.plain .permit)] false),
        (.count "b", .counted 1), (.move (.poll "pdp" none), .delivered [] true),
        (.count "b", .counted 0)] ∧
      (s.after [.move (.configure first)]).observed "late"
          ((point.decideBy other Reporting.anyone).map .decision)
          [.configure first, .publish "a" (.ofBool true), .poll "late" none]
        = ([.decision (.plain .permit)], true) := by
  intro point stream first s acts other
  have hadmitted : s.admitted acts = [.move (.openStream "pdp" stream),
      .move (.poll "pdp" none), .move (.publish "a" (.ofBool true)), .move (.poll "pdp" none),
      .count "b", .move .close, .move (.poll "pdp" none), .count "b"] := by
    simp only [acts, s, stream, point]
    cbv
  obtain ⟨-, hanswers, -⟩ := refusals_unobserved s acts
  obtain ⟨-, -, -, -, hvalid⟩ := refusals_unobserved s [.move (.configure first)]
  have hsame : other.SameWherePermitted point.evaluate := fun _ _ _ hc => if_neg hc
  obtain ⟨hlate, -⟩ := (hvalid rfl).2 .empty (.watching ["a", "b"]) [] other hsame "late"
    [.configure first, .publish "a" (.ofBool true), .poll "late" none] (by simp [Move.Spares])
  refine ⟨hadmitted, ?_, ?_⟩
  · rw [← hanswers, hadmitted]
    cbv
  · refine (hlate Reporting.anyone).symm.trans ?_
    cbv

end Session

end Verdict
