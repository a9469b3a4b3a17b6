/-
Decisions on unchanging inputs.

* `DecisionPoint.decision`: the decision by documents under a configuration,
  computed directly.
* `DecisionPoint.evaluate_yields`: the live decision is this one where no
  attribute is read.
* `Stream.Rests`: the stream waits for ever.
* `DecisionPoint.run_decide_fixed`: with fixed documents and a fixed
  configuration it is delivered once, and nothing follows.
-/
import Mathlib
import Verdict.DecisionPoint.Basic
import Verdict.Proofs.Evaluation.DirectDecision

namespace Verdict

/-- The stream delivers nothing and does not end in any world, and nothing wakes
it. -/
structure Stream.Rests {α : Type} (s : Stream α) : Prop where
  waits : ∀ w, s.run w = .pending s
  quiet : s.Quiet

/-- A switch whose source delivers once and waits runs the stream of that item. -/
lemma Stream.run_switch_of_once {α β : Type} {bounded : Bool} {project : α → Stream β}
    {source inner : Stream _} {w : World} {a : α} {rest waiting : Stream α}
    (h : source.run w = .item a rest (.pending waiting)) :
    (switch bounded project source inner).run w
      = ((project a).run w).switched bounded project waiting := by
  simp [run, h, Run.final, Run.last?]

namespace DecisionPoint

/-- The decisions of the documents, and one more where some target failed. -/
def decisions (retrieval : Retrieval) (ctx : EvaluationContext) : List DocumentDecision :=
  retrieval.documents.map (·.decision ctx) ++
    if retrieval.errorsInTarget then [.retrievalFailure] else []

/-- The decision by documents under a configuration. -/
def decision (point : DecisionPoint) (s : AuthorizationSubscription) (retrieval : Retrieval)
    (configuration : PdpConfiguration) : AuthorizationDecision :=
  (combine configuration.algorithm
    (decisions retrieval (point.context configuration s))).authorization

lemma units_yields (retrieval : Retrieval) (ctx : EvaluationContext)
    (h : retrieval.documents.all PolicyDocument.attributeFree = true) :
    List.Forall₂ Stream.Yields (units retrieval ctx) (decisions retrieval ctx) := by
  refine List.rel_append ?_ ?_
  · rw [List.forall₂_map_left_iff, List.forall₂_map_right_iff, List.forall₂_same]
    exact fun document hmem => document.evaluate_yields ctx (List.all_eq_true.mp h document hmem)
  · cases retrieval.errorsInTarget with
    | false => exact .nil
    | true => exact .cons (Stream.yields_just _) .nil

/-- Documents that read no attribute are decided directly. -/
theorem evaluate_yields (point : DecisionPoint) (s : AuthorizationSubscription)
    (retrieval : Retrieval) (configuration : PdpConfiguration)
    (hinterceptors : point.interceptors = [])
    (halgorithm : configuration.algorithm ≠ .firstApplicable)
    (h : retrieval.documents.all PolicyDocument.attributeFree = true) :
    (point.evaluate s retrieval configuration).Yields
      (point.decision s retrieval configuration) := by
  have hvalid : configuration.validate = .ok configuration := if_neg halgorithm
  rw [evaluate, hvalid, decision, ← intercepted_of_nil hinterceptors configuration.algorithm s]
  exact (combineLive_yields _ (units_yields retrieval _ h)).map _

/-- With documents and a configuration that never change, the run of the
decisions for a subscription is the direct decision, and then silence for ever,
whatever happens to the world. -/
theorem run_decide_fixed (retrieval : Retrieval) (configuration : PdpConfiguration)
    (functions : FunctionRegistry) (finders : FinderRegistry) (s : AuthorizationSubscription)
    (halgorithm : configuration.algorithm ≠ .firstApplicable)
    (h : retrieval.documents.all PolicyDocument.attributeFree = true) (w : World) :
    let point := fixed retrieval configuration functions finders []
    ∃ rest silent, (point.decide s).run w
        = .item (point.decision s retrieval configuration) rest (.pending silent) ∧
      (∀ w', rest.run w' = .pending silent) ∧ rest.Quiet ∧ silent.Rests := by
  intro point
  obtain ⟨spent, hrun, hspent⟩ :=
    evaluate_yields point s retrieval configuration rfl halgorithm h w
  -- The switches wait above whatever is left of the evaluation.
  let behind (inner : Stream AuthorizationDecision) : Stream AuthorizationDecision :=
    .dedup AuthorizationDecision.same (some (point.decision s retrieval configuration))
      (.switch true (fun retrieval => point.configuration.switchMap (point.evaluate s retrieval))
        (.lasting []) (.switch false (point.evaluate s retrieval) (.lasting []) inner))
  have hquiet {inner : Stream AuthorizationDecision} (hinner : inner.Quiet) :
      (behind inner).Quiet :=
    Stream.Quiet.dedup (Stream.Quiet.switch (fun _ => rfl)
      (Stream.Quiet.switch (fun _ => rfl) hinner))
  have hwaits {inner : Stream AuthorizationDecision} (hinner : ∀ w', inner.run w' = .ended)
      (w' : World) : (behind inner).run w' = .pending (behind .ended) := by
    simp [behind, Stream.run, Run.ofLasting, Run.final, Run.last?, hinner w', Run.switched,
      Run.through, Stream.isEnded]
  refine ⟨behind spent, behind .ended, ?_, hwaits hspent.ends, hquiet hspent.quiet,
    hwaits Stream.spent_ended.ends, hquiet Stream.spent_ended.quiet⟩
  have hinner : (point.configuration.switchMap (point.evaluate s retrieval)).run w
      = .item (point.decision s retrieval configuration)
          (.switch false (point.evaluate s retrieval) (.lasting []) spent)
          (.pending (.switch false (point.evaluate s retrieval) (.lasting []) .ended)) := by
    rw [Stream.switchMap, Stream.run_switch_of_once (a := configuration) rfl, hrun]
    rfl
  rw [decide, Stream.distinct, Stream.switchMapBounded, Stream.run,
    Stream.run_switch_of_once (a := retrieval) rfl, hinner]
  rfl

/-- A set whose policies read a variable that it defines, and that adds constraints of its own,
beside a policy whose denial it overrides. -/
theorem run_decide_fixed_set :
    let opening : Policy :=
      { name := "opening", entitlement := .permit, target := none
        body := [.define ⟨"open", .named "granted"⟩, .condition (.named "open")]
        obligations := [.literal (.string "log")], advice := [], transformation := none }
    let closing : Policy :=
      { name := "closing", entitlement := .deny, target := none
        body := [.condition (.unary .not (.named "granted"))]
        obligations := [], advice := [], transformation := none }
    let ward : PolicySet :=
      { name := "ward", algorithm := .denyOverrides
        target := some (.binary .eq (.named "action") (.literal (.string "read")))
        definitions := [⟨"granted", .literal (.bool true)⟩], policies := [opening, closing]
        obligations := [.named "subject"], advice := [.literal (.string "notify")] }
    let night : Policy :=
      { name := "night", entitlement := .deny, target := none, body := []
        obligations := [.literal (.string "alarm")], advice := [], transformation := none }
    let s : AuthorizationSubscription :=
      { subject := .string "alice", action := .string "read", resource := .string "doc" }
    let point := fixed { documents := [.policy night, .set ward] } { algorithm := .permitOverrides }
      .empty {} []
    ∃ rest silent, (point.decide s).run default
        = .item { decision := .permit, obligations := [.string "log", .string "alice"],
                  advice := [.string "notify"] } rest (.pending silent) ∧
      (∀ w', rest.run w' = .pending silent) ∧ rest.Quiet ∧ silent.Rests := by
  intro opening closing ward night s point
  have hdecision : point.decision s { documents := [.policy night, .set ward] }
      { algorithm := .permitOverrides }
        = { decision := .permit, obligations := [.string "log", .string "alice"],
            advice := [.string "notify"] } := by
    simp only [point, s, night, ward, opening, closing]
    cbv
  rw [← hdecision]
  exact run_decide_fixed { documents := [.policy night, .set ward] }
    { algorithm := .permitOverrides } .empty {} s (by decide) (by decide) default

end DecisionPoint

end Verdict
