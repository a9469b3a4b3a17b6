/-
A policy that reports the truth values of two expressions.

* `Reporting.point`: a point with one policy that reports two values.
* `Reporting.decide_shows`, `decide_retells`: its decisions, in one world and
  behind publications.
* `Reporting.follower`: an expression that shows one attribute once another one
  holds, so that it is woken by either.
-/
import Verdict.Proofs.DecisionPoint.Convergence
import Verdict.Proofs.Stream.Retelling

namespace Verdict

namespace World

/-- The attribute has this truth value. -/
def Holds (w : World) (name : String) (b : Bool) : Prop :=
  (w.read (.ofAttribute name)).value = .ofBool b

lemma Holds.unique {w : World} {name : String} {a b : Bool} (ha : w.Holds name a)
    (hb : w.Holds name b) : a = b := by
  have h : Value.ofBool a = Value.ofBool b := ha.symm.trans hb
  cases a <;> cases b <;> first | rfl | cases h

end World

/-! ### A policy that reports two values -/

namespace Reporting

/-- A policy that permits, and reports two values as obligations. -/
def policy (first second : Expression) : Policy :=
  ⟨"report", .permit, none, [], [first, second], [], none⟩

/-- The decision of the policy. -/
def report (a b : Bool) : AuthorizationDecision :=
  { decision := .permit, obligations := [.bool a, .bool b] }

/-- A point with this policy and published attributes. -/
def point (names : List String) (first second : Expression) : DecisionPoint :=
  .fixed { documents := [.policy (policy first second)] } {} .empty
    (.watching names) []

lemma report_injective {a b a' b' : Bool} (h : report a b = report a' b') : a = a' ∧ b = b' := by
  simpa [report] using h

/-- The context of the policy. -/
def context (names : List String) : EvaluationContext where
  functions := .empty
  finders := .watching names
  bindings := EvaluationContext.subscriptionBindings anyone []

/-- The values of an expression in the policy. -/
def values (names : List String) (e : Expression) : Stream Value :=
  e.evaluate (context names) true .undefined

variable {names : List String} {first second : Expression} {w w' : World} {topics : List Topic}

lemma immediate_point (names : List String) (first second : Expression) :
    (point names first second).Immediate :=
  ⟨.inl ⟨_, rfl⟩, .inl ⟨_, rfl⟩, FinderRegistry.immediate_watching names⟩

lemma prompt_values (names : List String) (e : Expression) : (values names e).Prompt :=
  e.evaluate_prompt (FinderRegistry.immediate_watching names) true .undefined

/-- Before and after publications the policy reports the values of its
expressions, the changed one of the second first. -/
theorem decide_retells (h : (Stream.combineLatest [values names first, values names second]).Retells
      w w' topics [.ofBool false, .ofBool false]
      [[.ofBool false, .ofBool true], [.ofBool true, .ofBool true]]) :
    ((point names first second).decide anyone).Retells w w' topics (report false false)
      [report false true, report true true] := by
  have hpolicy : ((policy first second).evaluate (context names)).Retells w w' topics
      ⟨"report", report false false, none⟩
      [⟨"report", report false true, none⟩, ⟨"report", report true true, none⟩] := by
    refine Stream.Retells.distinct ?_ (by decide)
    refine Stream.Retells.switchMap_just (b := BodyOutcome.satisfied (context names)) ?_
    exact (h.map (Constraints.ofValues 2 0)).map (DocumentDecision.ofConstraints "report" .permit)
  have hcombined : (combineLive .denyOverrides
      [(policy first second).evaluate (context names)]).Retells w w' topics
      ⟨report false false, none, [⟨"report", report false false, none⟩]⟩
      [⟨report false true, none, [⟨"report", report false true, none⟩]⟩,
        ⟨report true true, none, [⟨"report", report true true, none⟩]⟩] := by
    refine Stream.Retells.distinct ?_ (by decide)
    exact hpolicy.single.map (combine .denyOverrides)
  have hauthorized := hcombined.map Combined.authorization
  have heval : (point names first second).evaluate anyone
      { documents := [.policy (policy first second)] } {}
      = (combineLive .denyOverrides [(policy first second).evaluate (context names)]).map
        Combined.authorization :=
    congrArg (fun f => Stream.map f _)
      (funext (DecisionPoint.intercepted_of_nil (by rfl) .denyOverrides anyone))
  rw [← heval] at hauthorized
  refine Stream.Retells.distinct ?_ (by decide)
  exact Stream.Retells.switch_lasting (Stream.Retells.switch_lasting hauthorized)

/-- In every world the policy reports the values of its expressions. -/
lemma decide_shows {a b : Bool} (ha : (values names first).Shows w (.ofBool a))
    (hb : (values names second).Shows w (.ofBool b)) :
    ((point names first second).decide anyone).Shows w (report a b) := by
  have hvalues : (Stream.combineLatest [values names first, values names second]).Shows w
      [.ofBool a, .ofBool b] := .combineLatest (.cons ha (.cons hb .nil))
  have hpolicy : ((policy first second).evaluate (context names)).Shows w
      ⟨"report", report a b, none⟩ := by
    refine Stream.Shows.distinct ?_ _
    refine Stream.Shows.switchMap_just (b := BodyOutcome.satisfied (context names)) ?_
    have h := (hvalues.map (Constraints.ofValues 2 0)).map
      (DocumentDecision.ofConstraints "report" .permit)
    cases a <;> cases b <;> exact h
  have hcombined : (combineLive .denyOverrides
      [(policy first second).evaluate (context names)]).Shows w
      ⟨report a b, none, [⟨"report", report a b, none⟩]⟩ := by
    refine Stream.Shows.distinct ?_ _
    have h := (Stream.Shows.combineLatest (.cons hpolicy .nil)).map (combine .denyOverrides)
    cases a <;> cases b <;> exact h
  have heval : ((point names first second).evaluate anyone
      { documents := [.policy (policy first second)] } {}).Shows w (report a b) := by
    have h := hcombined.map ((point names first second).intercepted .denyOverrides anyone)
    rwa [DecisionPoint.intercepted_of_nil rfl] at h
  refine Stream.Shows.distinct ?_ _
  exact Stream.Shows.switch_lasting (Stream.Shows.switch_lasting heval)

/-- The policy subscribes to what its expressions subscribe to. -/
lemma subscriptions_decide (w : World) (topic : Topic) :
    (((point names first second).decide anyone).drained w).subscriptions topic
      = ((values names first).drained w).subscriptions topic
        + ((values names second).drained w).subscriptions topic := by
  have hpolicy : (((policy first second).evaluate (context names)).drained w).subscriptions topic
      = ((values names first).drained w).subscriptions topic
        + ((values names second).drained w).subscriptions topic :=
    calc (((policy first second).evaluate (context names)).drained w).subscriptions topic
        = _ := Stream.subscriptions_drained_dedup ..
      _ = _ := Stream.subscriptions_drained_switchMap_just w topic
        (BodyOutcome.satisfied (context names)) _
      _ = _ := Stream.subscriptions_drained_map ..
      _ = _ := Stream.subscriptions_drained_map ..
      _ = _ := Stream.subscriptions_drained_combineLatest ..
  calc (((point names first second).decide anyone).drained w).subscriptions topic
      = _ := Stream.subscriptions_drained_dedup ..
    _ = _ := Stream.subscriptions_drained_switch_lasting ..
    _ = _ := Stream.subscriptions_drained_switch_lasting ..
    _ = _ := Stream.subscriptions_drained_map ..
    _ = _ := Stream.subscriptions_drained_dedup ..
    _ = _ := Stream.subscriptions_drained_map ..
    _ = _ := Stream.subscriptions_drained_combineLatest ..
    _ = _ := hpolicy

/-! ### The expressions -/

/-- What `z` shows once `x` holds. -/
def follower (x z : String) : Expression :=
  if z = x then published x
  else .conditional (published x) (published z) (.literal (.bool false))

variable {name x z : String} {a b : Bool}

lemma subscribe_published (hname : name ∈ names) (left : Value) (arguments : List Value)
    (bindings : Bindings) :
    (context names).finders.subscribe name left arguments bindings none
      = .watch (.ofAttribute name) none := by
  have hlookup : (context names).finders.finders.lookup name = some Finder.watched := by
    refine (lookup_map_const name names Finder.watched).trans ?_
    rw [if_pos hname]
  rw [FinderRegistry.subscribe, hlookup]
  rfl

/-- The selected value of a truth value is that value. -/
lemma value_start (c : Bool) : Resolution.value (.start (.ofBool c)) = .ofBool c := by
  cases c <;> cbv

lemma published_shows (hw : w.Open) (hname : name ∈ names) (h : w.Holds name a) :
    (values names (published name)).Shows w (.ofBool a) := by
  have hwatch (left : Value) (bindings : Bindings) :
      ((context names).finders.subscribe name left [] bindings none).Shows w (.ofBool a) := by
    rw [subscribe_published hname, ← h, Stream.Shows, Stream.run_watch_none hw]
    rfl
  rw [← value_start a]
  refine Stream.Shows.switchMap_just ?_
  refine Stream.Shows.map (a := Resolution.start (.ofBool a)) ?_ Resolution.value
  refine Stream.Shows.switchMap_just (b := Resolution.start (.defined .null)) ?_
  refine Stream.Shows.switchMap_just (b := ([] : List Value)) ?_
  exact (hwatch _ _).map Resolution.start

lemma subscriptions_published (hw : w.Open) (hname : name ∈ names) (topic : Topic) :
    ((values names (published name)).drained w).subscriptions topic
      = if Topic.ofAttribute name = topic then 1 else 0 := by
  have hwatch (left : Value) (bindings : Bindings) :
      (((context names).finders.subscribe name left [] bindings none).drained w).subscriptions topic
        = if Topic.ofAttribute name = topic then 1 else 0 := by
    rw [subscribe_published hname, Stream.drained, Stream.run_watch_none hw]
    rfl
  calc ((values names (published name)).drained w).subscriptions topic
      = _ := Stream.subscriptions_drained_switchMap_just ..
    _ = _ := Stream.subscriptions_drained_map ..
    _ = _ := Stream.subscriptions_drained_switchMap_just w topic
      (Resolution.start (.defined .null)) _
    _ = _ := Stream.subscriptions_drained_switchMap_just w topic ([] : List Value) _
    _ = _ := Stream.subscriptions_drained_map ..
    _ = _ := hwatch _ _

/-- An attribute that becomes true retells that. -/
lemma published_retells (hw : w.Open) (hname : name ∈ names) (h : w.Holds name false)
    (h' : w'.Holds name true) (hafter : World.After topics w w') :
    (values names (published name)).Retells w w' topics (.ofBool false) [.ofBool true] := by
  obtain ⟨hmem, hlt⟩ := (hafter (.ofAttribute name)).resolve_left fun heq => by
    have h'' : w.Holds name true := (congrArg Published.value heq).symm.trans h'
    exact Bool.false_ne_true (h.unique h'')
  have hwatch (left : Value) (bindings : Bindings) :
      ((context names).finders.subscribe name left [] bindings none).Retells w w' topics
        (.ofBool false) [.ofBool true] := by
    rw [subscribe_published hname, ← h, ← h']
    exact .watch hw hmem (Nat.ne_of_lt hlt)
  rw [← value_start false, ← value_start true]
  refine Stream.Retells.switchMap_just ?_
  show (Stream.map Resolution.value _).Retells w w' topics (Resolution.value _)
    ([Resolution.start _].map Resolution.value)
  refine Stream.Retells.map ?_ Resolution.value
  refine Stream.Retells.switchMap_just (b := Resolution.start (.defined .null)) ?_
  refine Stream.Retells.switchMap_just (b := ([] : List Value)) ?_
  exact (hwatch _ _).map Resolution.start

lemma follower_shows (hw : w.Open) (hx : x ∈ names) (hz : z ∈ names) (ha : w.Holds x a)
    (hb : w.Holds z b) : (values names (follower x z)).Shows w (.ofBool (a && b)) := by
  by_cases hxz : z = x
  · subst hxz
    rw [follower, if_pos rfl, ha.unique hb, Bool.and_self]
    exact published_shows hw hz hb
  · rw [follower, if_neg hxz]
    refine (published_shows hw hx ha).switchMap ?_
    cases a with
    | false => exact Stream.toList_run_just ..
    | true => exact published_shows hw hz hb

/-- The expression subscribes to `x`, and to `z` at most once besides. -/
lemma subscriptions_follower (hw : w.Open) (hx : x ∈ names) (hz : z ∈ names)
    (ha : w.Holds x a) (topic : Topic) :
    ((values names (follower x z)).drained w).subscriptions topic
      = (if Topic.ofAttribute x = topic then 1 else 0)
        + if z ≠ x ∧ a ∧ Topic.ofAttribute z = topic then 1 else 0 := by
  by_cases hxz : z = x
  · have hno : ¬(z ≠ x ∧ a = true ∧ Topic.ofAttribute z = topic) := fun h => h.1 hxz
    rw [follower, if_pos hxz, subscriptions_published hw hx, if_neg hno, Nat.add_zero]
  · rw [follower, if_neg hxz]
    refine ((published_shows hw hx ha).subscriptions_drained_switchMap topic _).trans ?_
    rw [subscriptions_published hw hx]
    congr 1
    cases a with
    | false => simp; rfl
    | true =>
      refine (subscriptions_published hw hz topic).trans ?_
      simp [hxz]

/-- The expression becomes true with the last of its attributes. -/
lemma follower_retells (hw : w.Open) (hw' : w'.Open) (hx : x ∈ names) (hz : z ∈ names)
    (hfalse : ∀ name ∈ names, w.Holds name false) (htrue : ∀ name ∈ names, w'.Holds name true)
    (hafter : World.After topics w w') :
    (values names (follower x z)).Retells w w' topics (.ofBool false) [.ofBool true] := by
  have hsource := published_retells hw hx (hfalse x hx) (htrue x hx) hafter
  by_cases hxz : z = x
  · rw [follower, if_pos hxz]
    exact hsource
  · rw [follower, if_neg hxz]
    refine hsource.switchMap rfl (Stream.toList_run_just w _) ?_ ?_
    · exact published_shows hw' hz (htrue z hz)
    · exact (prompt_values names (published z)).faithful hw'

end Reporting

end Verdict
