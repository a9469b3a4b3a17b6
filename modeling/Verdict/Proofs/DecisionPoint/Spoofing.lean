/-
The elements of a subscription cannot be spoofed.

Documents do not define variables with the names of the elements, and the variables of a
configuration that have these names are hidden.  So a document that has been read sees
the elements of the subscription in every expression that it evaluates, and decisions are
the same under configurations that differ in such variables alone.

* `PdpConfiguration.Alike`: configurations that differ in such variables alone; so for
  worlds, moves and decision points.
* `Session.observed_eq`: readers observe the same in worlds that are alike.
* `DecisionPoint.decide_matches`: the decisions of points that are alike.
* `DecisionPoint.elements_not_spoofed`: the elements cannot be spoofed.
-/
import Verdict.Proofs.DecisionPoint.Agreement
import Verdict.Proofs.DecisionPoint.Pairing

namespace Verdict

open Session (Move gotBy)

variable {finders : FinderRegistry}

/-! ### What differs in the names of elements alone -/

/-- The configurations differ at most in variables with the names of elements.  Only
finders that look variables up may be used where the order of the others differs. -/
structure PdpConfiguration.Alike (finders : FinderRegistry) (c c' : PdpConfiguration) : Prop where
  algorithm : c.algorithm = c'.algorithm
  attributeTimeout : c.attributeTimeout = c'.attributeTimeout
  lookup : ∀ name, name ∉ reservedNames → c.bindings.lookup name = c'.bindings.lookup name
  order : finders.ByName ∨ (c.bindings.filter fun (name, _) => name ∉ reservedNames)
    = c'.bindings.filter fun (name, _) => name ∉ reservedNames

lemma PdpConfiguration.Alike.refl (c : PdpConfiguration) : c.Alike finders c :=
  ⟨rfl, rfl, fun _ _ => rfl, .inr rfl⟩

/-- Configurations that are alike, and the same of all else. -/
def Topic.alike (finders : FinderRegistry) : Topic.Relation
  | .ofAttribute _ => Eq
  | .retrieval => Eq
  | .configuration => PdpConfiguration.Alike finders

/-- The worlds differ in the configurations in force alone, and these are alike. -/
def World.Alike (finders : FinderRegistry) (w w' : World) : Prop :=
  ∃ c, w.configuration.value.Alike finders c ∧
    w' = { w with configuration := { w.configuration with value := c } }

/-- The moves differ at most in that they put configurations in force that are alike. -/
inductive Session.Move.Alike (finders : FinderRegistry) : Move → Move → Prop
  | same (m : Move) : Alike finders m m
  | configure {c c' : PdpConfiguration} (h : c.Alike finders c') :
      Alike finders (.configure c) (.configure c')

lemma World.Alike.refl (w : World) : w.Alike finders w :=
  ⟨w.configuration.value, .refl _, rfl⟩

lemma World.Alike.matches {w w' : World} (h : w.Alike finders w') :
    w.Matches (Topic.alike finders) w' := by
  obtain ⟨c, hc, rfl⟩ := h
  refine ⟨rfl, fun topic => ?_, fun topic => ?_, fun topic => ?_⟩
  · cases topic with
    | ofAttribute name => exact rfl
    | retrieval => exact rfl
    | configuration => exact hc
  · cases topic <;> rfl
  · cases topic <;> rfl

lemma PdpConfiguration.Alike.validate_eq {c c' : PdpConfiguration} (h : c.Alike finders c') :
    (∃ refusal, c.validate = .error refusal ∧ c'.validate = .error refusal) ∨
      c.validate = .ok c ∧ c'.validate = .ok c' := by
  rw [validate, validate, h.algorithm]
  split
  · exact .inl ⟨_, rfl, rfl⟩
  · exact .inr ⟨rfl, rfl⟩

/-- Moves that are alike leave worlds that are alike. -/
lemma World.Alike.moved {w w' : World} (h : w.Alike finders w') {m m' : Move}
    (hm : m.Alike finders m') : (w.moved m).Alike finders (w'.moved m') := by
  obtain ⟨c, hc, rfl⟩ := h
  cases hm with
  | configure h =>
    rw [World.moved, World.moved]
    obtain ⟨refusal, hleft, hright⟩ | ⟨hleft, hright⟩ := h.validate_eq
    · rw [hleft, hright]
      exact ⟨c, hc, rfl⟩
    · rw [hleft, hright]
      exact ⟨_, h, rfl⟩
  | same m =>
    cases m with
    | publish name value => exact ⟨c, hc, rfl⟩
    | reload retrieval =>
      rw [World.moved, World.moved]
      split
      · exact ⟨c, hc, rfl⟩
      · exact ⟨c, hc, rfl⟩
    | close =>
      rw [World.moved, World.moved]
      split
      · exact ⟨c, hc, rfl⟩
      · exact ⟨c, hc, rfl⟩
    | configure d =>
      rw [World.moved, World.moved]
      cases d.validate with
      | error refusal => exact ⟨c, hc, rfl⟩
      | ok d => exact ⟨d, .refl d, rfl⟩
    | advance millis => exact ⟨c, hc, rfl⟩
    | openStream id stream => exact ⟨c, hc, rfl⟩
    | drop id => exact ⟨c, hc, rfl⟩
    | poll id limit => exact ⟨c, hc, rfl⟩

namespace Session.Move.Alike

variable {m m' : Move} (h : m.Alike finders m')

include h

lemma polls_iff (id : String) (limit : Option Nat) :
    m = .poll id limit ↔ m' = .poll id limit := by
  cases h with
  | same => exact Iff.rfl
  | configure _ => exact ⟨nofun, nofun⟩

lemma spares {id : String} (hspares : m.Spares id) : m'.Spares id := by
  cases h with
  | same => exact hspares
  | configure _ => trivial

/-- Streams that wait for the same times are told of the same events. -/
lemma events_eq {α β : Type} {w w' : World} (hworld : w.Alike finders w') {t : Stream α}
    {t' : Stream β} (hdeadlines : t.deadlines = t'.deadlines) :
    m.events w t = m'.events w' t' := by
  obtain ⟨c, -, rfl⟩ := hworld
  cases h with
  | same => exact m.events_eq rfl rfl hdeadlines
  | configure hc =>
    rw [Move.events, Move.events]
    obtain ⟨refusal, hleft, hright⟩ | ⟨hleft, hright⟩ := hc.validate_eq
    · rw [hleft, hright]
    · rw [hleft, hright]

end Session.Move.Alike

/-- Worlds and moves that are alike go together. -/
lemma Session.Move.pairing_alike (finders : FinderRegistry) :
    Session.Pairing (Topic.alike finders) (World.Alike finders) (Move.Alike finders) where
  world_matches := World.Alike.matches
  moved hworld hm := hworld.moved hm
  polls_iff := Move.Alike.polls_iff
  spares hm _ := hm.spares
  events_eq hworld hm := hm.events_eq hworld

/-- Readers of streams that match observe the same in worlds that are alike. -/
lemma Session.observed_eq {s s' : Session} (hworld : s.world.Alike finders s'.world) (id : String)
    {t t' : Stream Delivery} (ht : t.Matches (Topic.alike finders) Eq t')
    {moves moves' : List Move} (hmoves : List.Forall₂ (Move.Alike finders) moves moves')
    (hspares : ∀ m ∈ moves, m.Spares id) :
    s.observed id t moves = s'.observed id t' moves' :=
  (Move.pairing_alike finders).observed_eq hworld id ht hmoves hspares

/-! ### Decision points -/

lemma Topic.alike_equalAttributes (finders : FinderRegistry) :
    (Topic.alike finders).EqualAttributes := fun _ => rfl

namespace DecisionPoint

/-- The points refer to the same, and their configurations are alike. -/
structure Alike (point point' : DecisionPoint) : Prop where
  functions : point.functions = point'.functions
  finders : point.finders = point'.finders
  interceptors : point.interceptors = point'.interceptors
  retrieval : point.retrieval.Matches (Topic.alike point.finders) Eq point'.retrieval
  configuration : point.configuration.Matches (Topic.alike point.finders)
    (PdpConfiguration.Alike point.finders) point'.configuration

lemma fixed_alike (retrieval : Retrieval) {c c' : PdpConfiguration} (h : c.Alike finders c')
    (functions : FunctionRegistry) (interceptors : List Interceptor) :
    (fixed retrieval c functions finders interceptors).Alike
      (fixed retrieval c' functions finders interceptors) :=
  ⟨rfl, rfl, rfl, .lasting (.cons rfl .nil), .lasting (.cons h .nil)⟩

lemma watching_alike (functions : FunctionRegistry) (finders : FinderRegistry)
    (interceptors : List Interceptor) :
    (watching functions finders interceptors).Alike (watching functions finders interceptors) :=
  ⟨rfl, rfl, rfl, .watch .retrieval none, .watch .configuration none⟩

variable {point point' : DecisionPoint}

/-- Under configurations that are alike the contexts of a subscription agree. -/
lemma Alike.context_agrees (h : point.Alike point') {c c' : PdpConfiguration}
    (hc : c.Alike point.finders c') (s : AuthorizationSubscription) :
    (point.context c s).Agrees (fun _ => none) (point'.context c' s) where
  functions := h.functions
  finders := h.finders
  attributeTimeout := hc.attributeTimeout
  lookup name := by
    rw [context, context, EvaluationContext.forSubscription, EvaluationContext.forSubscription,
      EvaluationContext.lookup_subscriptionBindings, EvaluationContext.lookup_subscriptionBindings]
    split
    · rfl
    · rw [hc.lookup name ‹_›]
  assigned _ _ hvalue := by cases hvalue
  order := hc.order.imp id fun hfree => by
    simp only [context, EvaluationContext.forSubscription, EvaluationContext.subscriptionBindings,
      hfree]

lemma Alike.evaluate_matches (h : point.Alike point') {T : Topic.Relation}
    (hT : T.EqualAttributes) {c c' : PdpConfiguration} (hc : c.Alike point.finders c')
    (s : AuthorizationSubscription) (retrieval : Retrieval) :
    (point.evaluate s retrieval c).Matches T Eq (point'.evaluate s retrieval c') := by
  rw [evaluate, evaluate]
  obtain ⟨refusal, hleft, hright⟩ | ⟨hleft, hright⟩ := hc.validate_eq
  · rw [hleft, hright]
    exact .just rfl
  · have hcontext := h.context_agrees hc s
    have hunits : List.Forall₂ (Stream.Matches T Eq)
        (units retrieval (point.context c s)) (units retrieval (point'.context c' s)) := by
      refine List.rel_append ?_ ?_
      · rw [List.forall₂_map_left_iff, List.forall₂_map_right_iff, List.forall₂_same]
        exact fun document _ => document.evaluate_agrees hT hcontext
      · split
        · exact .cons (.just rfl) .nil
        · exact .nil
    rw [hleft, hright]
    simp only [← hc.algorithm]
    refine (combineLive_matches c.algorithm hunits).map ?_
    rintro combined _ rfl
    rw [intercepted, intercepted, h.interceptors]

/-- The live decisions of points that are alike match. -/
theorem decide_matches (h : point.Alike point') (s : AuthorizationSubscription) :
    (point.decide s).Matches (Topic.alike point.finders) Eq (point'.decide s) := by
  refine (h.retrieval.switchMapBounded ?_).distinct _
  rintro retrieval _ rfl
  exact h.configuration.switchMap fun _ _ hc =>
    h.evaluate_matches (Topic.alike_equalAttributes point.finders) hc s retrieval

/-- The elements of a subscription cannot be spoofed.  Wherever a document that has been
read evaluates an expression for a subscription, under any configuration, the elements are
bound to those of the subscription, and the expression has the live values that it has with
these in place of their names, at every depth.  So has the document itself for every
reader.  And a reader of decisions gets the same where points, the configurations in force
and those that are put in force differ in variables with these names alone. -/
theorem elements_not_spoofed {value : Json} {document : PolicyDocument}
    (hread : readDocument value = .ok document) (point : DecisionPoint) (c : PdpConfiguration)
    (s : AuthorizationSubscription) (session : Session) (reader : String) (moves : List Move)
    (hspares : ∀ m ∈ moves, m.Spares reader) :
    let ctx := point.context c s
    (∀ W inner inBody e, document.Evaluates W ctx inner inBody e → inner.Binds s ∧ ∀ relative,
      e.evaluate inner inBody relative = (e.substitute s.elements).evaluate inner inBody relative) ∧
    session.observed reader ((document.evaluate ctx).map .document) moves
      = session.observed reader (((document.substitute s.elements).evaluate ctx).map .document)
        moves ∧
    ∀ (point' : DecisionPoint) (session' : Session) (moves' : List Move), point.Alike point' →
      session.world.Alike point.finders session'.world →
      List.Forall₂ (Move.Alike point.finders) moves moves' →
      session.observed reader ((point.decide s).map .decision) moves
        = session'.observed reader ((point'.decide s).map .decision) moves' := by
  intro ctx
  have hnames := readDocument_definesOnly hread
  have hctx : ctx.Binds s := EvaluationContext.binds_forSubscription ..
  refine ⟨fun W inner inBody e he => ?_, ?_, fun point' session' moves' hpoint hworld hmoves => ?_⟩
  · have hinner : inner.Binds s := he.binds hnames hctx
    exact ⟨hinner, fun relative => e.evaluate_substitute (hinner.substitutes inBody) relative⟩
  · have hmatches := PolicyDocument.evaluate_matches (Topic.alike_equalAttributes point.finders)
      hctx.agrees (hnames.mono fun _ => s.elements_eq_none)
    exact Session.observed_eq (.refl _) reader (hmatches.map_eq _)
      (List.forall₂_same.mpr fun m _ => .same m) hspares
  · exact Session.observed_eq hworld reader
      ((decide_matches hpoint s).map_eq _) hmoves hspares

/-- A configuration that pretends another subject changes nothing. -/
theorem elements_not_spoofed_pretended :
    let value : Json := .object [("kind", .string "policy"), ("name", .string "trusted"),
      ("entitlement", .string "permit"), ("body", .array [.object [("kind", .string "condition"),
        ("expression", .object [("kind", .string "identifier"), ("name", .string "subject")])]])]
    let document : PolicyDocument := .policy ⟨"trusted", .permit, none,
      [.condition (.basic (.identifier "subject") [] none none)], [], [], none⟩
    let session : Session := { world := { retrieval := { value := { documents := [document] } } } }
    let pretended : PdpConfiguration := { bindings := [("subject", .bool false)] }
    readDocument value = .ok document ∧
      session.observed "pdp"
        (((watching .empty {} []).decide ⟨.bool true, .null, .null, none⟩).map .decision)
        [.configure pretended, .poll "pdp" none] = ([.decision (.plain .permit)], true) := by
  intro value document session pretended
  have hread : readDocument value = .ok document := by cbv
  have halike : PdpConfiguration.Alike {} {} pretended := by
    refine ⟨rfl, rfl, fun name hname => ?_, .inr rfl⟩
    have hne : name ≠ "subject" := by
      rintro rfl
      exact hname (by decide)
    rw [lookup_cons_eq, if_neg hne]
  have hobserved : session.observed "pdp"
      (((watching .empty {} []).decide ⟨.bool true, .null, .null, none⟩).map .decision)
      [.configure {}, .poll "pdp" none] = ([.decision (.plain .permit)], true) := by
    simp only [session, document]
    cbv
  obtain ⟨-, -, hsame⟩ := elements_not_spoofed hread (watching .empty {} []) {}
    ⟨.bool true, .null, .null, none⟩ session "pdp" [.configure {}, .poll "pdp" none]
    (by simp [Move.Spares])
  rw [← hobserved]
  exact ⟨hread, (hsame _ session _ (watching_alike .empty {} []) (.refl _)
    (.cons (.configure halike) (.cons (.same _) .nil))).symm⟩

end DecisionPoint

end Verdict
