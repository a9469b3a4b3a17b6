/-
Decisions that settle.

A stream settles if it delivers one item and then waits for ever, whatever happens to the
world.  So does a switch above it, as soon as the stream it leads to delivers once.

* `Stream.Settles`: one item, and silence for ever.
* `Stream.Settles.lasting`, `distinct`: a source of one item, and de-duplication.
* `Stream.Settles.switch_yields`, `Stream.Settles.switch`: a switch to a stream that
  delivers once and ends, and to one that settles.
* `DecisionPoint.verdict`: the decision by documents under a configuration, behind the
  interceptors.
* `DecisionPoint.decide_settles`: with fixed documents and a fixed configuration the live
  decision settles on it where no attribute is read.
-/
import Verdict.Proofs.DecisionPoint.Unchanging

namespace Verdict

namespace Stream

variable {α β : Type}

/-- In every world the stream delivers this item, and behind it waits in every world;
nothing wakes it. -/
def Settles (s : Stream α) (a : α) : Prop :=
  ∀ w, ∃ rest silent, s.run w = .item a rest (.pending silent) ∧
    (∀ w', rest.run w' = .pending silent) ∧ rest.Quiet ∧ silent.Rests

/-- A stream that waits has not ended. -/
lemma Rests.isEnded {s : Stream α} (h : s.Rests) : s.isEnded = false := by
  cases hended : s.isEnded with
  | false => rfl
  | true =>
    have hwaits := h.waits default
    rw [eq_ended_of_isEnded hended] at hwaits
    simp [run, Run.ofFinite] at hwaits

section Switch

variable {bounded : Bool} {project : α → Stream β} {source : Stream α} {inner : Stream β}

/-- Below a source that waits, a switch does what its inner stream does. -/
lemma Rests.run_switch (h : source.Rests) (w : World) :
    (switch bounded project source inner).run w
      = (inner.run w).switched bounded project source := by
  simp [run, h.waits w, Run.final, Run.last?]

lemma Rests.switch (h : source.Rests) (hinner : inner.Rests) :
    (Stream.switch bounded project source inner).Rests where
  waits w := by
    rw [h.run_switch, hinner.waits w]
    rfl
  quiet := h.quiet.switch hinner.quiet

/-- A spent inner stream leaves the switch waiting for its source. -/
lemma Rests.switched_ended (h : source.Rests) :
    (Run.ended : Run β).switched bounded project source
      = .pending (.switch bounded project source Stream.ended) := by
  rw [Run.switched, h.isEnded]
  rfl

lemma Rests.switch_ended (h : source.Rests) :
    (Stream.switch bounded project source Stream.ended).Rests where
  waits w := by
    rw [h.run_switch]
    exact h.switched_ended
  quiet := h.quiet.switch spent_ended.quiet

end Switch

namespace Settles

variable {s : Stream α} {a : α} {b : β} {bounded : Bool} {project : α → Stream β}

lemma lasting (a : α) : (Stream.lasting [a]).Settles a := fun _ =>
  ⟨.lasting [], .lasting [], rfl, fun _ => rfl, fun _ => rfl, fun _ => rfl, fun _ => rfl⟩

lemma distinct (h : s.Settles a) (same : α → α → Bool) : (s.distinct same).Settles a := by
  intro w
  obtain ⟨rest, silent, hrun, hrest, hquiet, hsilent⟩ := h w
  refine ⟨.dedup same (some a) rest, .dedup same (some a) silent, ?_, fun w' => ?_, hquiet.dedup,
    fun w' => ?_, hsilent.quiet.dedup⟩
  · rw [Stream.distinct, run, hrun]
    rfl
  · rw [run, hrest w']
    rfl
  · rw [run, hsilent.waits w']
    rfl

/-- The run of a switch above a source that settles is that of the stream it leads to. -/
lemma exists_run_switch (h : s.Settles a) (w : World) : ∃ silent : Stream α, silent.Rests ∧
    (Stream.switch bounded project s ended).run w
      = ((project a).run w).switched bounded project silent := by
  obtain ⟨rest, silent, hrun, -, -, hsilent⟩ := h w
  exact ⟨silent, hsilent, run_switch_of_once hrun⟩

/-- A switch to a stream that delivers once and ends waits for its source from then on. -/
theorem switch_yields (h : s.Settles a) (hb : (project a).Yields b) :
    (Stream.switch bounded project s ended).Settles b := by
  intro w
  obtain ⟨silent, hsilent, hswitch⟩ := h.exists_run_switch w
  obtain ⟨spent, hinner, hspent⟩ := hb w
  refine ⟨.switch bounded project silent spent, .switch bounded project silent ended, ?_,
    fun w' => ?_, hsilent.quiet.switch hspent.quiet, hsilent.switch_ended⟩
  · rw [hswitch, hinner, Run.switched, hsilent.switched_ended]
  · rw [hsilent.run_switch, hspent.ends w', hsilent.switched_ended]

/-- A switch to a stream that settles does so. -/
theorem switch (h : s.Settles a) (hb : (project a).Settles b) :
    (Stream.switch bounded project s ended).Settles b := by
  intro w
  obtain ⟨silent, hsilent, hswitch⟩ := h.exists_run_switch w
  obtain ⟨rest, still, hinner, hrest, hquiet, hstill⟩ := hb w
  refine ⟨.switch bounded project silent rest, .switch bounded project silent still, ?_,
    fun w' => ?_, hsilent.quiet.switch hquiet, hsilent.switch hstill⟩
  · rw [hswitch, hinner]
    rfl
  · rw [hsilent.run_switch, hrest w']
    rfl

end Settles

end Stream

namespace DecisionPoint

/-- The decision by documents under a configuration, computed directly and passed through
the interceptors. -/
def verdict (point : DecisionPoint) (s : AuthorizationSubscription) (retrieval : Retrieval)
    (configuration : PdpConfiguration) : AuthorizationDecision :=
  point.intercepted configuration.algorithm s
    (combine configuration.algorithm (decisions retrieval (point.context configuration s)))

lemma evaluate_yields_verdict (point : DecisionPoint) (s : AuthorizationSubscription)
    (retrieval : Retrieval) (configuration : PdpConfiguration)
    (halgorithm : configuration.algorithm ≠ .firstApplicable)
    (h : retrieval.documents.all PolicyDocument.attributeFree = true) :
    (point.evaluate s retrieval configuration).Yields
      (point.verdict s retrieval configuration) := by
  have hvalid : configuration.validate = .ok configuration := if_neg halgorithm
  rw [evaluate, hvalid]
  exact (combineLive_yields _ (units_yields retrieval _ h)).map _

/-- Documents and a configuration that never change are decided once, if no attribute is
read. -/
theorem decide_settles (retrieval : Retrieval) (configuration : PdpConfiguration)
    (functions : FunctionRegistry) (finders : FinderRegistry) (interceptors : List Interceptor)
    (s : AuthorizationSubscription) (halgorithm : configuration.algorithm ≠ .firstApplicable)
    (h : retrieval.documents.all PolicyDocument.attributeFree = true) :
    let point := fixed retrieval configuration functions finders interceptors
    (point.decide s).Settles (point.verdict s retrieval configuration) := by
  intro point
  have hevaluate := point.evaluate_yields_verdict s retrieval configuration halgorithm h
  have hconfiguration : (point.configuration.switchMap (point.evaluate s retrieval)).Settles
      (point.verdict s retrieval configuration) :=
    (Stream.Settles.lasting configuration).switch_yields hevaluate
  exact ((Stream.Settles.lasting retrieval).switch hconfiguration).distinct _

end DecisionPoint

end Verdict
