/-
Expressions that keep up with attributes.

Values that are the same as the ones before are held back inside an expression, at every
operator and at every call.  That does not show as long as everything around them makes the
same of the same values: what a reader has got last is then the same as what the expression
would deliver first if it were opened only now.

* `World.Sound`, `EvaluationContext.Sound`: what an expression is evaluated in.
* `Expression.Blind`: no part of the expression can tell values apart that are the same.
* `Expression.follows`: such an expression keeps up with its attributes.
* `Expression.repetitions_unseen`: which constructs make the same of the same values, and that
  the last item of an expression made of them is the same as a fresh one.
* `Retold`: an object that is published again with its members in another order.
-/
import Verdict.Proofs.Evaluation.Filtering
import Verdict.Proofs.Evaluation.Prompt
import Verdict.Proofs.Stream.Following

namespace Verdict

/-! ### Surroundings -/

/-- Everything that can be read may still be published, and in no published value an object
names a member twice. -/
structure World.Sound (w : World) : Prop where
  isOpen : w.Open
  distinct : ∀ name, (w.read (.ofAttribute name)).value.HasDistinctKeys

/-- A publication of a value that repeats no names leaves a sound world sound. -/
lemma World.Sound.publishAttribute {w : World} (h : w.Sound) (name : String) {value : Value}
    (hvalue : value.HasDistinctKeys) : (w.publishAttribute name value).Sound where
  isOpen := h.isOpen.publishAttribute name value
  distinct other := by
    have hother := h.distinct other
    simp only [World.read, World.lookup_publishAttribute] at hother ⊢
    cases hlookup : w.attributes.lookup other with
    | none => rwa [hlookup] at hother
    | some p =>
      rw [hlookup] at hother
      by_cases hname : other = name
      · simpa [hname, Published.publish] using hvalue
      · simpa [hname] using hother

/-- The finder delivers one value at once: the published one, or one that depends on the
left-hand value, the arguments and the variables, and is the same for the same of them. -/
def Finder.Sound : Finder → Prop
  | .computed values => ∀ left left' arguments arguments' bindings, left.Same left' →
      List.Forall₂ Value.Same arguments arguments' → ∃ v v',
        values left arguments bindings = [v] ∧ values left' arguments' bindings = [v'] ∧ v.Same v'
  | .watched => True
  | .clock => False

/-- The functions are the standard ones, every finder delivers one value at once, and in no
variable an object names a member twice. -/
structure EvaluationContext.Sound (ctx : EvaluationContext) : Prop where
  functions : ctx.functions = .standard
  finders : ∀ name finder, ctx.finders.finders.lookup name = some finder → finder.Sound
  bindings : ∀ name, (ctx.lookup name).HasDistinctKeys

/-- Holding back values that are the same as the one before loses nothing. -/
lemma Stream.Follows.distinctValues {W : World → Prop} {s t : Stream Value}
    (h : Stream.Follows W Value.Same s t) :
    Stream.Follows W Value.Same (s.distinct Value.same) (t.distinct Value.same) :=
  h.distinct fun _ _ _ _ hpq hsame hab => Value.Same.trans ⟨hpq.left, hab.left, hsame⟩ hab

section Attributes

variable {left left' : Value} {arguments arguments' : List Value}

/-- For left-hand values and arguments that are the same, a sound finder delivers values that
are the same. -/
lemma Finder.Sound.find {finder : Finder} (h : finder.Sound) (hleft : left.Same left')
    (harguments : List.Forall₂ Value.Same arguments arguments') (name : String)
    (bindings : Bindings) :
    (finder.find name left arguments bindings).Prompt ∧
      Stream.Follows World.Sound Value.Same (finder.find name left arguments bindings)
        (finder.find name left' arguments' bindings) := by
  cases finder with
  | computed values =>
    obtain ⟨v, v', hv, hv', hsame⟩ := h left left' arguments arguments' bindings hleft harguments
    rw [Finder.find, Finder.find, hv, hv']
    exact ⟨.lasting v, .lasting hsame⟩
  | watched =>
    have hvalue (w : World) (hw : w.Sound) : (w.read (.ofAttribute name)).value.Same
        (w.read (.ofAttribute name)).value := .refl (hw.distinct name)
    exact ⟨.watch _, .watch (fun w (hw : w.Sound) => hw.isOpen) hvalue⟩
  | clock => exact h.elim

/-- So does a subscription, whether or not there is a finder of the name and a deadline. -/
lemma EvaluationContext.Sound.subscribe {ctx : EvaluationContext} (hctx : ctx.Sound)
    (hleft : left.Same left') (harguments : List.Forall₂ Value.Same arguments arguments')
    (name : String) :
    Stream.Follows World.Sound Value.Same
      (ctx.finders.subscribe name left arguments ctx.bindings ctx.attributeTimeout)
      (ctx.finders.subscribe name left' arguments' ctx.bindings ctx.attributeTimeout) := by
  rw [FinderRegistry.subscribe, FinderRegistry.subscribe]
  cases hlookup : ctx.finders.finders.lookup name with
  | none => exact .just (Value.same_error _)
  | some finder =>
    obtain ⟨hprompt, hfollows⟩ :=
      (hctx.finders name finder hlookup).find hleft harguments name ctx.bindings
    cases ctx.attributeTimeout with
    | none => exact hfollows
    | some millis =>
      exact hfollows.timeout hprompt (fun w hw => hw.isOpen) (Value.same_error _) millis

end Attributes

/-! ### Expressions that see no difference -/

mutual

/-- The expression writes nothing out, and it selects nothing in the order in which members are
written. -/
def Expression.Blind : Expression → Prop
  | .basic head steps none none => head.Blind ∧ Step.EachBlind steps
  | .basic head steps none (some template) =>
    head.Blind ∧ Step.EachBlind steps ∧ template.Blind
  | .basic head steps (some filter) _ =>
    head.Blind ∧ Step.EachBlind steps ∧ filter.Blind
  | .binary op left right => op ≠ .add ∧ left.Blind ∧ right.Blind
  | .unary _ operand => operand.Blind
  | .conditional condition consequent alternative =>
    condition.Blind ∧ consequent.Blind ∧ alternative.Blind

/-- A head is blind if its parts are; the text of a number shows the sign of a zero. -/
def Head.Blind : Head → Prop
  | .literal value => value.HasDistinctKeys
  | .group inner => inner.Blind
  | .identifier _ | .relative => True
  | .function name arguments =>
    name ≠ "standard.numberToString" ∧ Expression.EachBlind arguments
  | .array items => Expression.EachBlind items
  | .object members => Expression.MembersBlind members

def Expression.EachBlind : List Expression → Prop
  | [] => True
  | e :: rest => e.Blind ∧ Expression.EachBlind rest

def Expression.MembersBlind : List (String × Expression) → Prop
  | [] => True
  | (_, e) :: rest => e.Blind ∧ Expression.MembersBlind rest

/-- A computed step names in its failure the number that is no position, and a condition keeps
the members of an object in their order. -/
def Step.Blind : Step → Prop
  | .attribute _ arguments => Expression.EachBlind arguments
  | .computed _ | .condition _ => False
  | step => step.readsOrder = false

def Step.EachBlind : List Step → Prop
  | [] => True
  | step :: rest => step.Blind ∧ Step.EachBlind rest

def Filter.Blind : Filter → Prop
  | .simple _ function arguments =>
    function ≠ "standard.numberToString" ∧ Expression.EachBlind arguments
  | .extended statements => FilterStatement.EachBlind statements

/-- A statement with several targets fails for the last of them, in document order, that its
function refuses. -/
def FilterStatement.Blind : FilterStatement → Prop
  | .mk target _ function arguments =>
    target = [] ∧ function ≠ "standard.numberToString" ∧ Expression.EachBlind arguments

/-- All statements of a filter are blind. -/
def FilterStatement.EachBlind : List FilterStatement → Prop
  | [] => True
  | statement :: rest => statement.Blind ∧ FilterStatement.EachBlind rest

end

/-! ### Templates -/

/-- A template is filled from the elements of an array one by one. -/
lemma Value.fill_follows {W : World → Prop} {a b : Value} (h : a.Same b)
    {template template' : Value → Stream Value}
    (htemplate : ∀ x y, x.Same y →
      Stream.Follows W Value.Same (template x) (template' y)) :
    Stream.Follows W Value.Same (a.fill template) (b.fill template') := by
  cases h.pair with
  | undefined | error _ => exact .just (Value.same_error _)
  | defined hab =>
    cases hab.pair with
    | array hitems =>
      cases hitems with
      | nil => exact .just h
      | cons hxy hrest =>
        refine .distinctValues (.map (.combineLatest ?_) fun _ _ => Value.filled_same)
        rw [List.forall₂_map_left_iff, List.forall₂_map_right_iff]
        exact (List.Forall₂.cons hxy hrest).imp fun x y hxy =>
          htemplate _ _ (Value.Paired.defined hxy).same
    | null | bool _ | number _ | string _ | object _ _ _ => exact .just (Value.same_error _)

namespace Resolution

/-- Both chains of steps have come to the same, or both have failed for the same cause. -/
abbrev Same : Resolution → Resolution → Prop := Outcome.Related Resolved.Same

/-- Selections start at the roots of values that are the same. -/
lemma start_same {a b : Value} (h : a.Same b) : Same (start a) (start b) := by
  cases h.pair with
  | error cause => exact .error cause
  | defined _ | undefined => exact .ok (Resolved.same_ofValue h)

/-- What selections that are the same select is the same. -/
lemma value_same {x y : Resolution} (h : Same x y) : x.value.Same y.value := by
  cases h with
  | error cause => exact Value.same_error cause
  | ok hsame => exact hsame.value

end Resolution

/-- What the steps of a basic expression come to, if there are any. -/
lemma Stream.Follows.selected {W : World → Prop} {base base' : Stream Value}
    (hbase : base.Follows W Value.Same base') (steps : List Step)
    {chain chain' : Value → Stream Resolution}
    (hchain : ∀ x y, x.Same y → (chain x).Follows W Resolution.Same (chain' y)) :
    Stream.Follows W Value.Same
      (if steps.isEmpty then base
        else base.switchMap fun value => (chain value).map Resolution.value)
      (if steps.isEmpty then base'
        else base'.switchMap fun value => (chain' value).map Resolution.value) := by
  split
  · exact hbase
  · exact hbase.switchMap fun x y hxy => (hchain x y hxy).map fun _ _ => Resolution.value_same

lemma Value.getD_same {xs ys : List Value} (h : List.Forall₂ Value.Same xs ys) (i : Nat) :
    (xs.getD i .undefined).Same (ys.getD i .undefined) := by
  have hrel := forall₂_getElem? h i
  rw [List.getD_eq_getElem?_getD, List.getD_eq_getElem?_getD]
  generalize xs[i]? = x, ys[i]? = y at hrel
  cases hrel with
  | none => exact Value.Paired.undefined.same
  | some hxy => exact hxy

/-- A statement about a whole value. -/
lemma EvaluationContext.Sound.statement {W : World → Prop} {ctx : EvaluationContext}
    (hctx : ctx.Sound) {function : String} (hfunction : function ≠ "standard.numberToString")
    {a b : Value} (hab : a.Same b) (each : Bool) {arguments arguments' : Stream (List Value)}
    (harguments : arguments.Follows W (List.Forall₂ Value.Same) arguments') :
    Stream.Follows W Value.Same
      (ctx.statement each function a (.just (.start a)) arguments)
      (ctx.statement each function b (.just (.start b)) arguments') := by
  cases hab.pair with
  | undefined | error _ => exact .just (Value.same_error _)
  | @defined a b hjson =>
    have hstart : Stream.Follows W (fun x y : Resolution => x = .start (.defined a) ∧
        y = .start (.defined b)) (.just (.start (.defined a))) (.just (.start (.defined b))) :=
      .just ⟨rfl, rfl⟩
    refine hstart.switchMap ?_
    rintro _ _ ⟨rfl, rfl⟩
    rw [hctx.functions]
    exact harguments.map fun _ _ hvalues => edited_same hvalues hfunction hjson each

/-! ### Evaluation -/

section Evaluation

open Verdict.Stream (Follows)

variable {ctx : EvaluationContext} {inBody : Bool}

mutual

/-- A blind expression keeps up with its attributes from values of `@` that are the same, by
induction on the expression: each stage is taken over by the lemma about its combinator. -/
theorem Expression.follows (hctx : ctx.Sound) {a b : Value} (hab : a.Same b) :
    (e : Expression) → e.Blind →
      Follows World.Sound Value.Same (e.evaluate ctx inBody a) (e.evaluate ctx inBody b)
  | .basic head steps none none, h => by
    rw [Expression.Blind] at h
    rw [Expression.evaluate, Expression.evaluate]
    exact (Head.follows hctx hab head h.1).selected steps fun x y hxy =>
      Step.followsAll hctx hab (.just (Resolution.start_same hxy)) steps h.2
  | .basic head steps none (some template), h => by
    rw [Expression.Blind] at h
    rw [Expression.evaluate, Expression.evaluate]
    have hselected := (Head.follows hctx hab head h.1).selected steps fun x y hxy =>
      Step.followsAll hctx hab (.just (Resolution.start_same hxy)) steps h.2.1
    exact hselected.switchMap fun x y hxy => Value.fill_follows hxy fun u v huv =>
      Expression.follows hctx huv template h.2.2
  | .basic head steps (some filter) template, h => by
    rw [Expression.Blind] at h
    rw [Expression.evaluate, Expression.evaluate]
    have hselected := (Head.follows hctx hab head h.1).selected steps fun x y hxy =>
      Step.followsAll hctx hab (.just (Resolution.start_same hxy)) steps h.2.1
    exact hselected.switchMap fun x y hxy => .distinctValues (Filter.follows hctx hxy filter h.2.2)
  | .binary op left right, h => by
    rw [Expression.Blind] at h
    obtain ⟨hop, hleft, hright⟩ := h
    have hl := Expression.follows hctx hab left hleft
    have hr := Expression.follows hctx hab right hright
    rw [Expression.evaluate, Expression.evaluate]
    cases op.decidedBy? with
    | none =>
      refine .distinctValues ((Follows.combineLatest (.cons hl (.cons hr .nil))).map
        fun values values' hvalues => ?_)
      exact Value.binary_same (Value.getD_same hvalues 0) (Value.getD_same hvalues 1) hop
    | some decided =>
      refine .distinctValues (hl.switchMap fun x y hxy => ?_)
      have hother := Value.lazyOperand_same op hxy
      cases hxy.pair with
      | undefined | error _ => exact .just hother
      | defined hvalues =>
        cases hvalues.pair with
        | bool b =>
          by_cases hdecides : b = decided
          · simp only [if_pos hdecides]
            exact .just hxy
          · simp only [if_neg hdecides]
            exact hr.map fun _ _ => Value.lazyOperand_same op
        | null | number _ | string _ | array _ | object _ _ _ => exact .just hother
  | .unary op operand, h => by
    rw [Expression.Blind] at h
    rw [Expression.evaluate, Expression.evaluate]
    exact .distinctValues ((Expression.follows hctx hab operand h).map fun _ _ =>
      Value.unary_same op)
  | .conditional condition consequent alternative, h => by
    rw [Expression.Blind] at h
    obtain ⟨hcondition, hconsequent, halternative⟩ := h
    rw [Expression.evaluate, Expression.evaluate]
    refine (Expression.follows hctx hab condition hcondition).switchMap fun x y hxy => ?_
    cases hxy.pair with
    | undefined => exact .just hxy
    | error cause => exact .just hxy
    | defined hvalues =>
      cases hvalues.pair with
      | bool condition =>
        cases condition with
        | true => exact Expression.follows hctx hab consequent hconsequent
        | false => exact Expression.follows hctx hab alternative halternative
      | null | number _ | string _ | array _ | object _ _ _ => exact .just (Value.same_error _)

/-- Heads keep up: a call waits for all its arguments, and makes the same of the same ones. -/
theorem Head.follows (hctx : ctx.Sound) {a b : Value} (hab : a.Same b) :
    (head : Head) → head.Blind →
      Follows World.Sound Value.Same (head.evaluate ctx inBody a) (head.evaluate ctx inBody b)
  | .literal value, h => by
    rw [Head.evaluate, Head.evaluate]
    exact .just (.refl (Value.hasDistinctKeys_defined.mpr h))
  | .group inner, h => by
    rw [Head.evaluate, Head.evaluate]
    exact Expression.follows hctx hab inner h
  | .identifier name, _ => by
    rw [Head.evaluate, Head.evaluate]
    exact .just (.refl (hctx.bindings name))
  | .relative, _ => by
    rw [Head.evaluate, Head.evaluate]
    exact .just hab
  | .function name arguments, h => by
    rw [Head.evaluate, Head.evaluate, hctx.functions]
    exact .distinctValues ((Follows.combineLatest
      (Expression.followsEach hctx hab arguments h.2)).map fun _ _ hvalues =>
        FunctionRegistry.apply_same hvalues h.1)
  | .array items, h => by
    rw [Head.evaluate, Head.evaluate]
    exact (Follows.combineLatest (Expression.followsEach hctx hab items h)).map fun _ _ hvalues =>
      Value.ofItems_same hvalues
  | .object members, h => by
    rw [Head.evaluate, Head.evaluate]
    exact (Follows.combineLatest (Expression.followsMembers hctx hab members h)).map
      fun _ _ hvalues => Value.ofMembers_same hvalues _

theorem Expression.followsEach (hctx : ctx.Sound) {a b : Value} (hab : a.Same b) :
    (es : List Expression) → Expression.EachBlind es →
      List.Forall₂ (Follows World.Sound Value.Same) (Expression.evaluateEach ctx inBody a es)
        (Expression.evaluateEach ctx inBody b es)
  | [], _ => .nil
  | e :: rest, h =>
    .cons (Expression.follows hctx hab e h.1) (Expression.followsEach hctx hab rest h.2)

theorem Expression.followsMembers (hctx : ctx.Sound) {a b : Value} (hab : a.Same b) :
    (members : List (String × Expression)) → Expression.MembersBlind members →
      List.Forall₂ (Follows World.Sound Value.Same)
        (Expression.evaluateMembers ctx inBody a members)
        (Expression.evaluateMembers ctx inBody b members)
  | [], _ => .nil
  | (_, e) :: rest, h =>
    .cons (Expression.follows hctx hab e h.1) (Expression.followsMembers hctx hab rest h.2)

/-- A step keeps up from selections that are the same. -/
theorem Step.follows (hctx : ctx.Sound) {a b : Value} (hab : a.Same b) {r r' : Resolved}
    (hr : r.Same r') : (step : Step) → step.Blind →
      Follows World.Sound Resolution.Same (step.apply ctx inBody a r) (step.apply ctx inBody b r')
  | .attribute name arguments, h => by
    rw [Step.apply, Step.apply]
    split
    · refine (Follows.combineLatest (Expression.followsEach hctx hab arguments h)).switchMap
        fun values values' hvalues => ?_
      rw [Value.firstError?_same hvalues]
      cases Value.firstError? values' with
      | some cause => exact .just (.error cause)
      | none =>
        exact (hctx.subscribe hr.value hvalues name).map fun x y => Resolution.start_same
    · exact .just (.error _)
  | .key name, h => .just (Resolved.step_same hr h)
  | .index position, h => .just (Resolved.step_same hr h)
  | .slice start stop stride, h => .just (Resolved.step_same hr h)
  | .keyUnion names, h => .just (Resolved.step_same hr h)
  | .indexUnion positions, h => .just (Resolved.step_same hr h)

theorem Step.followsAll (hctx : ctx.Sound) {a b : Value} (hab : a.Same b)
    {before before' : Stream Resolution}
    (hbefore : Follows World.Sound Resolution.Same before before') :
    (steps : List Step) → Step.EachBlind steps →
      Follows World.Sound Resolution.Same (Step.applyAll ctx inBody a steps before)
        (Step.applyAll ctx inBody b steps before')
  | [], _ => hbefore
  | step :: rest, h => by
    rw [Step.applyAll, Step.applyAll]
    refine Step.followsAll hctx hab (hbefore.switchMap fun x y hxy => ?_) rest h.2
    cases hxy with
    | error cause => exact .just (.error cause)
    | ok hr => exact Step.follows hctx hab hr step h.1

/-- Filters keep up from values that are the same. -/
theorem Filter.follows (hctx : ctx.Sound) {a b : Value} (hab : a.Same b) :
    (filter : Filter) → filter.Blind →
      Follows World.Sound Value.Same (filter.apply ctx inBody a) (filter.apply ctx inBody b)
  | .simple each function arguments, h => by
    rw [Filter.apply, Filter.apply]
    exact hctx.statement h.1 hab each
      (.combineLatest (Expression.followsEach hctx hab arguments h.2))
  | .extended statements, h => by
    rw [Filter.apply, Filter.apply]
    exact FilterStatement.followsAll hctx (.just hab) statements h

theorem FilterStatement.follows (hctx : ctx.Sound) {a b : Value} (hab : a.Same b) :
    (statement : FilterStatement) → statement.Blind →
      Follows World.Sound Value.Same (statement.apply ctx inBody a)
        (statement.apply ctx inBody b)
  | .mk target each function arguments, ⟨htarget, hfunction, harguments⟩ => by
    rw [FilterStatement.apply, FilterStatement.apply, htarget]
    exact hctx.statement hfunction hab each
      (.combineLatest (Expression.followsEach hctx hab arguments harguments))

theorem FilterStatement.followsAll (hctx : ctx.Sound) {before before' : Stream Value}
    (hbefore : Follows World.Sound Value.Same before before') :
    (statements : List FilterStatement) → FilterStatement.EachBlind statements →
      Follows World.Sound Value.Same (FilterStatement.applyAll ctx inBody statements before)
        (FilterStatement.applyAll ctx inBody statements before')
  | [], _ => hbefore
  | statement :: rest, h => by
    rw [FilterStatement.applyAll, FilterStatement.applyAll]
    exact FilterStatement.followsAll hctx
      (hbefore.switchMap fun x y hxy => FilterStatement.follows hctx hxy statement h.1) rest h.2

end

end Evaluation

/-- Every operator but `+`, every standard function but the one that writes a number out, and
every step that does not show the order of members make the same of the same values, and the
others do not.  In an expression of the former nothing is lost by holding back repetitions: a
reader that has read it until it waits, and was told of everything that was published since, has
got last the same value as the one with which the expression starts if it is opened only now. -/
theorem Expression.repetitions_unseen (op : BinaryOperator) (sign : UnaryOperator) (name : String)
    (step : Step) (e : Expression) :
    ((∀ l l' r r' : Value, l.Same l' → r.Same r' →
      (Value.binary op l r).Same (Value.binary op l' r')) ↔ op ≠ .add) ∧
    (∀ a b : Value, a.Same b → (Value.lazyOperand op a).Same (Value.lazyOperand op b) ∧
      (Value.unary sign a).Same (Value.unary sign b)) ∧
    ((∀ xs ys, List.Forall₂ Value.Same xs ys →
      (FunctionRegistry.standard.call name xs).Same (FunctionRegistry.standard.call name ys)) ↔
        name ≠ "standard.numberToString") ∧
    ((∀ r r' : Resolved, r.Same r' →
      Outcome.Related Resolved.Same (r.step step) (r'.step step)) ↔ step.readsOrder = false) ∧
    (e.Blind → ∀ (ctx : EvaluationContext) (inBody : Bool) (relative : Value) (h : List Turn)
      (w : World), ctx.Sound → relative.HasDistinctKeys → w.Sound →
      Informed World.Sound w [] h → (e.evaluate ctx inBody relative).awake h = false →
      ∃ a b, ((e.evaluate ctx inBody relative).delivered h).getLast? = some a ∧
        (e.evaluate ctx inBody relative).Shows w b ∧ a.Same b) := by
  refine ⟨Value.binary_respects_same_iff op,
    fun a b hab => ⟨Value.lazyOperand_same op hab, Value.unary_same sign hab⟩,
    FunctionRegistry.call_respects_same_iff name, Resolved.step_same_iff step, ?_⟩
  intro hblind ctx inBody relative h w hctx hrelative hw hinformed hsleeps
  have hfollows : Stream.Follows World.Sound Value.Same (e.evaluate ctx inBody relative)
      (e.evaluate ctx inBody relative) := Expression.follows hctx (.refl hrelative) e hblind
  exact hfollows.latest h w hw hinformed hsleeps

namespace Retold

/-! An object of two members is published a second time with its members in the other order. -/

/-- The value of the attribute, handed through a call. -/
def handed : Expression :=
  .basic (.function "filter.replace"
    [.basic (.literal (.ofNat 0)) [] none none,
      .basic (.literal .null) [.attribute "a" []] none none]) [] none none

/-- The text of the value. -/
def written : Expression := .binary .add handed (.basic (.literal (.string "")) [] none none)

/-- The object as it is published first. -/
def first : Json := .inOrder (.ofNat 1) (.ofNat 2)

/-- The object as it is published next. -/
def second : Json := .swapped (.ofNat 1) (.ofNat 2)

def ctx : EvaluationContext where
  functions := .standard
  finders := { finders := [("a", .watched)] }

/-- The world before the second publication. -/
def before : World := { attributes := [("a", { value := .defined first })] }

/-- The world behind it. -/
def behind : World := before.publishAttribute "a" (.defined second)

/-- The reader reads until it waits, is told of the publication, and reads again. -/
def turns : List Turn :=
  [.read behind 0, .told (.published (.ofAttribute "a")), .read before 0]

lemma same_second : first.Same second := Json.same_swapped trivial trivial

lemma ctx_sound : ctx.Sound where
  functions := rfl
  finders name finder hlookup := by
    rw [ctx, lookup_cons_eq] at hlookup
    split at hlookup
    · cases hlookup
      trivial
    · cases hlookup
  bindings name := Value.Paired.undefined.same.left

lemma handed_blind : handed.Blind := by
  simp only [handed, Expression.Blind, Head.Blind, Expression.EachBlind, Step.EachBlind,
    Step.Blind]
  exact ⟨⟨by decide, ⟨trivial, trivial⟩, ⟨trivial, trivial, trivial⟩, trivial⟩, trivial⟩

lemma before_sound : before.Sound where
  isOpen topic := by
    cases topic with
    | ofAttribute name =>
      rw [World.read, before, lookup_cons_eq]
      split <;> rfl
    | retrieval | configuration => rfl
  distinct name := by
    rw [World.read, before, lookup_cons_eq]
    split
    · exact Value.hasDistinctKeys_defined.mpr same_second.left
    · exact Value.Paired.undefined.same.left

lemma behind_sound : behind.Sound :=
  before_sound.publishAttribute "a" (Value.hasDistinctKeys_defined.mpr same_second.right)

lemma informed : Informed World.Sound behind [] turns :=
  ⟨⟨behind_sound, fun _ => .inl rfl⟩,
    ⟨before_sound, before.after_publishAttribute "a" (.defined second)⟩, trivial⟩

end Retold

/-- The call holds the second object back, and its reader keeps the first one, which is the
same. -/
theorem Expression.repetitions_unseen_handed :
    (Retold.handed.evaluate Retold.ctx true .undefined).awake Retold.turns = false ∧
    ∃ a b, ((Retold.handed.evaluate Retold.ctx true .undefined).delivered Retold.turns).getLast?
        = some a ∧
      (Retold.handed.evaluate Retold.ctx true .undefined).Shows Retold.behind b ∧ a.Same b := by
  have hsleeps :
      (Retold.handed.evaluate Retold.ctx true .undefined).awake Retold.turns = false := by cbv
  obtain ⟨-, -, -, -, hlatest⟩ :=
    Expression.repetitions_unseen .eq .not "filter.replace" (.key "left") Retold.handed
  exact ⟨hsleeps, hlatest Retold.handed_blind Retold.ctx true .undefined Retold.turns
    Retold.behind Retold.ctx_sound Value.Paired.undefined.same.left Retold.behind_sound
    Retold.informed hsleeps⟩

/-- The text of the value shows the order of its members, and its reader keeps the text of the
first object. -/
theorem Expression.repetitions_seen_written :
    Retold.first.Same Retold.second ∧ Retold.behind.Sound ∧
      Informed World.Sound Retold.behind [] Retold.turns ∧
      (Retold.written.evaluate Retold.ctx true .undefined).awake Retold.turns = false ∧
      (Retold.written.evaluate Retold.ctx true .undefined).delivered Retold.turns
        = [.defined (.string Retold.first.render)] ∧
      (Retold.written.evaluate Retold.ctx true .undefined).Shows Retold.behind
        (.defined (.string Retold.second.render)) ∧
      ¬ (Value.defined (.string Retold.first.render)).Same
        (.defined (.string Retold.second.render)) := by
  refine ⟨Retold.same_second, Retold.behind_sound, Retold.informed, by cbv, by cbv, ?_, ?_⟩
  · rw [Stream.Shows]
    cbv
  · rw [Value.same_string_iff]
    decide

end Verdict
