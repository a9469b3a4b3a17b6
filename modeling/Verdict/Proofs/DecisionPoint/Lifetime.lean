/-
The lifetime of the decisions for a subscription.

A reader of live decisions never gets the same decision twice in a row, and its
stream stays open until retrieval is closed; the next read ends it, whatever has
been published in the meantime.  The owners publish, reload, configure, close and
let time pass, and other readers come and go, in any order; every read may stop
early.

* `Run.Spaced`: items that each differ from the one before, and the streams
  behind them; `Run.Spaced.take` for reads in part.
* `AwaitsDocuments`: live decisions that wait for documents to be published.
* `Session.Move`, `Session.moveAll`: everything that owners and readers do.
* `Session.Reading`: what a reader of decisions got, and how its stream stands.
* `DecisionPoint.decide_lifetime`: the lifetime of live decisions.
-/
import Verdict.Proofs.DecisionPoint.Convergence
import Verdict.Proofs.Stream.Always

namespace Verdict

variable {α β : Type}

/-! ### Reading in part -/

/-- A list goes on where its last item fits what follows. -/
lemma isChain_append_of_getLast? {R : α → α → Prop} {items more : List α}
    (h : items.IsChain R) (hmore : (items.getLast?.toList ++ more).IsChain R) :
    (items ++ more).IsChain R := by
  rw [List.isChain_append] at hmore ⊢
  refine ⟨h, hmore.2.1, fun a ha => hmore.2.2 a ?_⟩
  rw [Option.mem_def.mp ha]
  rfl

namespace Run

/-- Reading a part of the items under a function reads that part of the items. -/
lemma take_map (f : α → β) (r : Run α) (start : Stream α) (count : Nat) :
    (r.through (.scan fun (_ : Unit) a => ((), some (f a))) (fun _ a => ((), some (f a))) ()).take
        (start.map f) count
      = ((r.take start count).1.map f, (r.take start count).2.map (Stream.map f)) := by
  induction r generalizing start count with
  | pending rest => cases count <;> rfl
  | ended => cases count <;> rfl
  | item a rest more ih =>
    cases count with
    | zero => rfl
    | succ count =>
      have hmore := ih rest count
      rw [Stream.map] at hmore
      rw [through, take, take, hmore]
      rfl

/-- Each item differs from the one before, which was `last` before the run, and
the streams as which the run may be left have a property that knows it. -/
def Spaced (same : α → α → Bool) (I : Option α → Stream α → Prop) : Option α → Run α → Prop
  | last, pending rest => I last rest
  | _, ended => True
  | last, item a rest more =>
    (∀ b ∈ last, same b a = false) ∧ I (some a) rest ∧ Spaced same I (some a) more

variable {same : α → α → Bool} {I : Option α → Stream α → Prop} {last : Option α} {r : Run α}

/-- A read that may stop early gets items that each differ from the one before. -/
lemma Spaced.take (h : r.Spaced same I last) {start : Stream α} (hstart : I last start)
    (count : Nat) :
    (last.toList ++ (r.take start count).1).IsChain (fun a b => same a b = false) ∧
      ∀ t ∈ (r.take start count).2, I ((r.take start count).1.getLast?.or last) t := by
  have hnone : (last.toList ++ []).IsChain (fun a b => same a b = false) := by
    cases last <;> simp
  induction r generalizing last start count with
  | pending rest =>
    cases count with
    | zero => exact ⟨hnone, fun t ht => Option.some.inj ht ▸ hstart⟩
    | succ count => exact ⟨hnone, fun t ht => Option.some.inj ht ▸ h⟩
  | ended =>
    cases count with
    | zero => exact ⟨hnone, fun t ht => Option.some.inj ht ▸ hstart⟩
    | succ count => exact ⟨hnone, by simp [Run.take]⟩
  | item a rest more ih =>
    cases count with
    | zero => exact ⟨hnone, fun t ht => Option.some.inj ht ▸ hstart⟩
    | succ count =>
      obtain ⟨hdiffers, hrest, hmore⟩ := h
      obtain ⟨hchain, hleft⟩ := ih hmore hrest count (by simp)
      rw [Run.take]
      refine ⟨?_, fun t ht => ?_⟩
      · cases last with
        | none => exact hchain
        | some b => exact List.isChain_cons_cons.mpr ⟨hdiffers b rfl, hchain⟩
      · rw [getLast?_cons_or]
        exact hleft t ht

/-- What holds back repetitions lets through items that each differ from the one
before. -/
lemma All.spaced {J : Stream α → Prop} (h : r.All (fun _ => True) J)
    (hstage : ∀ last s, J s → I last (.dedup same last s)) (last : Option α) :
    (r.through (.dedup same) (distinctStep same) last).Spaced same I last := by
  induction r generalizing last with
  | pending rest => exact hstage last rest h
  | ended => trivial
  | item a rest more ih =>
    obtain ⟨-, hrest, hmore⟩ := h
    rw [Run.through]
    by_cases hsame : last.any (same · a) = true
    · rw [distinctStep, if_pos hsame]
      exact ih hmore last
    · rw [distinctStep, if_neg hsame]
      refine ⟨fun b hb => ?_, hstage (some a) rest hrest, ih hmore (some a)⟩
      rw [Option.mem_def.mp hb] at hsame
      simpa using hsame

/-- A read leaves nothing only of a run that ends. -/
lemma final_of_take_eq_none {start : Stream α} {count : Nat}
    (h : (r.take start count).2 = none) : r.final = none := by
  induction r generalizing start count with
  | pending rest => cases count <;> simp [Run.take] at h
  | ended => rfl
  | item a rest more ih =>
    cases count with
    | zero => simp [Run.take] at h
    | succ count => exact ih h

end Run

/-! ### Live decisions -/

/-- Live decisions behind the one that was delivered last: they hold back its
repetitions, and they end together with the documents, which are published. -/
def AwaitsDocuments (last : Option AuthorizationDecision) (t : Stream AuthorizationDecision) :
    Prop :=
  ∃ (project : Retrieval → Stream AuthorizationDecision) (seen : Option Nat)
    (inner : Stream AuthorizationDecision),
    t = .dedup AuthorizationDecision.same last
      (.switch true project (.watch .retrieval seen) inner)

lemma DecisionPoint.decide_awaitsDocuments {point : DecisionPoint}
    (h : point.retrieval = .watch .retrieval none) (subscription : AuthorizationSubscription) :
    AwaitsDocuments none (point.decide subscription) :=
  ⟨_, none, .ended, by rw [decide, h]; rfl⟩

namespace AwaitsDocuments

variable {last : Option AuthorizationDecision} {t : Stream AuthorizationDecision} {w : World}

/-- Once retrieval is closed there is nothing more to read, seen or unseen. -/
lemma run_of_closed (h : AwaitsDocuments last t) (hclosed : w.retrieval.closed = true) :
    t.run w = .ended := by
  obtain ⟨project, seen, inner, rfl⟩ := h
  have hsource : ((Stream.watch .retrieval seen).run w).final = none := by
    have hread : (w.read .retrieval).closed = true := hclosed
    rw [Stream.run, Run.ofPublished, hread]
    split <;> rfl
  rw [Stream.run, Stream.run_switch_of_ended w project _ inner hsource]
  rfl

/-- While retrieval is open the documents stay, and wait for another publication. -/
lemma drained_watch (hopen : w.retrieval.closed = false) (seen : Option Nat) :
    (Stream.watch .retrieval seen).drained w = .watch .retrieval (some w.retrieval.version) := by
  have hread : (w.read .retrieval).closed = false := hopen
  rw [Stream.drained, Stream.run, Run.ofPublished, hread]
  split <;> rfl

/-- Every decision differs from the one before, and the decisions behind it wait
for documents. -/
lemma spaced (h : AwaitsDocuments last t) (w : World) :
    (t.run w).Spaced AuthorizationDecision.same AwaitsDocuments last := by
  cases hclosed : w.retrieval.closed with
  | true =>
    rw [h.run_of_closed hclosed]
    trivial
  | false =>
    obtain ⟨project, seen, inner, rfl⟩ := h
    have hsource := drained_watch hclosed seen
    have hswitch : ((Stream.switch true project (.watch .retrieval seen) inner).run w).All
        (fun _ => True) fun t => ∃ inner,
          t = .switch true project (.watch .retrieval (some w.retrieval.version)) inner := by
      rw [Stream.run_switch (fun _ => by rw [hsource]; rfl), hsource]
      refine Run.All.switched (I := fun _ => True) (Run.all_iff.mpr ⟨?_, ?_⟩) ?_ ?_
      · exact fun _ _ => trivial
      · exact fun _ _ => trivial
      · exact fun inner _ => ⟨inner, rfl⟩
      · exact ⟨_, rfl⟩
    refine hswitch.spaced ?_ last
    rintro last _ ⟨inner, rfl⟩
    exact ⟨project, _, inner, rfl⟩

/-- They do not end while retrieval is open. -/
lemma closed_of_final (h : AwaitsDocuments last t) (hfinal : (t.run w).final = none) :
    w.retrieval.closed = true := by
  by_contra hclosed
  obtain ⟨project, seen, inner, rfl⟩ := h
  have hgoes : ((Stream.watch .retrieval seen).drained w).isEnded = false := by
    rw [drained_watch (Bool.eq_false_iff.mpr hclosed)]
    rfl
  rw [← Stream.isEnded_drained_iff, Stream.isEnded_drained_dedup,
    Stream.drained_switch fun _ => hgoes, hgoes] at hfinal
  exact absurd hfinal Bool.false_ne_true

/-- Events do not change what they wait for. -/
lemma notify (h : AwaitsDocuments last t) (e : Event) : AwaitsDocuments last (t.notify e).2 := by
  obtain ⟨project, seen, inner, rfl⟩ := h
  exact ⟨project, seen, (inner.notify e).2, rfl⟩

lemma elapse (h : AwaitsDocuments last t) (before after : Nat) :
    AwaitsDocuments last (t.elapse before after) := by
  rw [Stream.elapse]
  exact List.foldlRecOn _ _ h fun t ht time _ => ht.notify _

end AwaitsDocuments

lemma Stream.elapse_map (f : α → β) (s : Stream α) (before after : Nat) :
    (s.map f).elapse before after = (s.elapse before after).map f := by
  rw [elapse, elapse]
  exact List.foldl_hom (Stream.map f) fun s time => rfl

/-! ### Everything that owners and readers do -/

namespace Session

/-- What the owners and any number of readers do to a session. -/
inductive Move where
  | publish (name : String) (value : Value)
  | reload (retrieval : Retrieval)
  | close
  | configure (configuration : PdpConfiguration)
  | advance (millis : Nat)
  | openStream (id : String) (stream : Stream Delivery)
  | drop (id : String)
  /-- The reader of the id reads, and stops at the limit if there is one. -/
  | poll (id : String) (limit : Option Nat)

/-- The session after a move, and what readers got, each under its id. -/
def move (s : Session) : Move → Session × List (String × Delivery)
  | .publish name value => (s.publish name value, [])
  | .reload retrieval => ((s.reload retrieval).1, [])
  | .close => (s.close, [])
  | .configure configuration =>
    match s.configure configuration with
    | .ok changed => (changed, [])
    | .error _ => (s, [])
  | .advance millis => (s.advance millis, [])
  | .openStream id stream => (s.openStream id stream, [])
  | .drop id => (s.drop id, [])
  | .poll id limit =>
    let (left, items, _) := s.poll id limit
    (left, items.map (id, ·))

/-- The session after moves, and all that readers got. -/
def moveAll (s : Session) : List Move → Session × List (String × Delivery)
  | [] => (s, [])
  | m :: rest =>
    let (moved, got) := s.move m
    let (left, more) := moved.moveAll rest
    (left, got ++ more)

/-- What the reader of the id got. -/
def gotBy (id : String) (got : List (String × Delivery)) : List Delivery :=
  got.filterMap fun (i, delivery) => if i = id then some delivery else none

/-- The move leaves the stream of the id open, and does not put another in its
place. -/
def Move.Spares (id : String) : Move → Prop
  | .openStream i _ => i ≠ id
  | .drop i => i ≠ id
  | _ => True

lemma gotBy_append (id : String) (got more : List (String × Delivery)) :
    gotBy id (got ++ more) = gotBy id got ++ gotBy id more := List.filterMap_append

lemma gotBy_map (id i : String) (items : List Delivery) :
    gotBy id (items.map (i, ·)) = if i = id then items else [] := by
  rw [gotBy, List.filterMap_map]
  by_cases h : i = id
  · simp [h]
  · simp [h]

/-! Streams of other ids. -/

lemma lookup_drop {s : Session} {id i : String} (h : i ≠ id) :
    (s.drop i).streams.lookup id = s.streams.lookup id := by
  have hkeeps : (id != i) = true := bne_iff_ne.mpr (Ne.symm h)
  rw [drop, lookup_filter (· != i), if_pos hkeeps]

lemma lookup_openStream_of_ne {s : Session} {id i : String} (h : i ≠ id)
    (stream : Stream Delivery) :
    (s.openStream i stream).streams.lookup id = s.streams.lookup id := by
  rw [openStream, lookup_cons_eq, if_neg (Ne.symm h)]
  exact lookup_drop h

lemma lookup_drop_self (s : Session) (id : String) : (s.drop id).streams.lookup id = none := by
  have hdrops : ¬(id != id) = true := by simp
  rw [drop, lookup_filter (· != id), if_neg hdrops]

lemma lookup_poll_of_ne {s : Session} {id i : String} (h : i ≠ id) (limit : Option Nat) :
    (s.poll i limit).1.streams.lookup id = s.streams.lookup id := by
  rw [poll]
  split
  · rfl
  · rename_i stream _
    simp only
    cases (stream.run s.world).take stream (limit.getD ((stream.run s.world).length + 1)) |>.2 with
    | none => exact lookup_drop h
    | some rest => exact lookup_openStream_of_ne h rest

lemma world_poll (s : Session) (id : String) (limit : Option Nat) :
    (s.poll id limit).1.world = s.world := by
  rw [poll]
  split
  · rfl
  · rename_i stream _
    simp only
    cases (stream.run s.world).take stream (limit.getD ((stream.run s.world).length + 1)) |>.2 <;>
      rfl

/-- Retrieval is closed by the move that closes it, and for good. -/
lemma closed_move (s : Session) (m : Move) :
    (s.move m).1.world.retrieval.closed = true ↔
      s.world.retrieval.closed = true ∨ m = .close := by
  cases m with
  | publish name value => simp [move, publish, change, World.publishAttribute]
  | reload retrieval =>
    rw [move, reload]
    split
    · simp
    · simp [change, Published.publish]
  | close =>
    rw [move, close]
    split
    · simp [*]
    · simp [change, Published.close]
  | configure configuration =>
    rw [move, configure]
    cases configuration.validate with
    | error refusal => simp
    | ok c => simp [change]
  | advance millis => simp [move, advance]
  | openStream id stream => simp [move, openStream]
  | drop id => simp [move, drop]
  | poll id limit =>
    have hworld := s.world_poll id limit
    simp [move, hworld]

lemma closed_moveAll (s : Session) (moves : List Move) :
    (s.moveAll moves).1.world.retrieval.closed = true ↔
      s.world.retrieval.closed = true ∨ .close ∈ moves := by
  induction moves generalizing s with
  | nil => simp [moveAll]
  | cons m rest ih =>
    rw [moveAll, ih, closed_move, List.mem_cons, or_assoc, @eq_comm _ m]

/-! ### A reader of decisions -/

/-- The reader of the id got these decisions, each of which differs from the one
before, and its stream waits for documents; it is gone only if retrieval is
closed. -/
structure Reading (id : String) (s : Session) (ds : List AuthorizationDecision) : Prop where
  spaced : ds.IsChain fun a b => a.same b = false
  stands : (∃ t, AwaitsDocuments ds.getLast? t ∧
      s.streams.lookup id = some (t.map .decision)) ∨
    (s.world.retrieval.closed = true ∧ s.streams.lookup id = none)

namespace Reading

variable {id : String} {s : Session} {ds : List AuthorizationDecision}

/-- A move that gives the reader nothing leaves it where it was, if its stream
waits on as before. -/
lemma silent (h : s.Reading id ds) {f : Stream Delivery → Stream Delivery} {s' : Session}
    (hf : ∀ t, AwaitsDocuments ds.getLast? t →
      ∃ t', AwaitsDocuments ds.getLast? t' ∧ f (t.map .decision) = t'.map .decision)
    (hlookup : s'.streams.lookup id = (s.streams.lookup id).map f)
    (hclosed : s.world.retrieval.closed = true → s'.world.retrieval.closed = true) :
    s'.Reading id ds := by
  refine ⟨h.spaced, ?_⟩
  rcases h.stands with ⟨t, ht, hstream⟩ | ⟨hworld, hstream⟩
  · obtain ⟨t', ht', heq⟩ := hf t ht
    exact .inl ⟨t', ht', by rw [hlookup, hstream, Option.map_some, heq]⟩
  · exact .inr ⟨hclosed hworld, by rw [hlookup, hstream, Option.map_none]⟩

lemma told (h : s.Reading id ds) {world : World} {topic : Topic}
    (hclosed : s.world.retrieval.closed = true → world.retrieval.closed = true) :
    (s.change world topic).Reading id ds :=
  h.silent (fun _ ht => ⟨_, ht.notify _, rfl⟩) (lookup_change s world topic id) hclosed

/-- A read of decisions gives a part of what they deliver and leaves the rest. -/
lemma poll_eq {t : Stream AuthorizationDecision}
    (hstream : s.streams.lookup id = some (t.map .decision)) (limit : Option Nat) :
    ∃ count, (limit ≠ some 0 → count ≠ 0) ∧
      s.poll id limit
        = (s.keep id (((t.run s.world).take t count).2.map (Stream.map .decision)),
          ((t.run s.world).take t count).1.map .decision,
          ((t.run s.world).take t count).2.isNone) := by
  refine ⟨limit.getD (((t.map Delivery.decision).run s.world).length + 1), fun hlimit => ?_, ?_⟩
  · cases limit with
    | none => exact Nat.succ_ne_zero _
    | some count => exact fun hzero => hlimit (congrArg some hzero)
  · rw [Session.poll, hstream]
    simp only
    rw [Stream.map, Stream.run, ← Stream.map, Run.take_map, Option.isNone_map]

/-- A read gives the reader decisions that go on from those it got. -/
lemma poll (h : s.Reading id ds) (limit : Option Nat) :
    ∃ more : List AuthorizationDecision, (s.poll id limit).2.1 = more.map .decision ∧
      (s.poll id limit).1.Reading id (ds ++ more) := by
  rcases h.stands with ⟨t, ht, hstream⟩ | ⟨-, hstream⟩
  · obtain ⟨count, -, hpoll⟩ := poll_eq hstream limit
    obtain ⟨hspaced, hleft⟩ := (ht.spaced s.world).take ht count
    rw [hpoll]
    refine ⟨_, rfl, isChain_append_of_getLast? h.spaced hspaced, ?_⟩
    rw [List.getLast?_append]
    cases hrest : ((t.run s.world).take t count).2 with
    | none =>
      exact .inr ⟨ht.closed_of_final (Run.final_of_take_eq_none hrest), lookup_drop_self s id⟩
    | some rest => exact .inl ⟨rest, hleft rest hrest, lookup_openStream s id _⟩
  · have hpoll : s.poll id limit = (s, [], true) := by rw [Session.poll, hstream]
    rw [hpoll]
    exact ⟨[], rfl, by rw [List.append_nil]; exact h⟩

/-- Whatever is done to a session, a reader of decisions whose stream is left open
gets decisions that go on from those it got. -/
lemma move (h : s.Reading id ds) {m : Move} (hspares : m.Spares id) :
    ∃ more : List AuthorizationDecision, gotBy id (s.move m).2 = more.map .decision ∧
      (s.move m).1.Reading id (ds ++ more) := by
  have hsilent {s' : Session} (hreading : s'.Reading id ds) :
      ∃ more : List AuthorizationDecision, gotBy id [] = more.map .decision ∧
        s'.Reading id (ds ++ more) :=
    ⟨[], rfl, by rw [List.append_nil]; exact hreading⟩
  have hother {s' : Session} (hworld : s'.world = s.world)
      (hlookup : s'.streams.lookup id = s.streams.lookup id) : s'.Reading id ds :=
    ⟨h.spaced, by rw [hlookup, hworld]; exact h.stands⟩
  cases m with
  | publish name value => exact hsilent (h.told fun hclosed => hclosed)
  | reload retrieval =>
    rw [Session.move, reload]
    split
    · exact hsilent h
    · exact hsilent (h.told fun hclosed => hclosed)
  | close =>
    rw [Session.move, close]
    split
    · exact hsilent h
    · exact hsilent (h.told fun _ => rfl)
  | configure configuration =>
    rw [Session.move, configure]
    cases configuration.validate with
    | error refusal => exact hsilent h
    | ok c => exact hsilent (h.told fun hclosed => hclosed)
  | advance millis =>
    exact hsilent (h.silent (fun t ht => ⟨_, ht.elapse _ _, Stream.elapse_map ..⟩)
      (s.lookup_advance millis id) fun hclosed => hclosed)
  | openStream i stream => exact hsilent (hother rfl (lookup_openStream_of_ne hspares stream))
  | drop i => exact hsilent (hother rfl (lookup_drop hspares))
  | poll i limit =>
    rw [Session.move, gotBy_map]
    by_cases hi : i = id
    · subst hi
      rw [if_pos rfl]
      exact h.poll limit
    · rw [if_neg hi]
      exact hsilent (hother (s.world_poll i limit) (lookup_poll_of_ne hi limit))

/-- So does it along all moves. -/
theorem moveAll (h : s.Reading id ds) {moves : List Move} (hspares : ∀ m ∈ moves, m.Spares id) :
    ∃ more : List AuthorizationDecision, gotBy id (s.moveAll moves).2 = more.map .decision ∧
      (s.moveAll moves).1.Reading id (ds ++ more) := by
  induction moves generalizing s ds with
  | nil => exact ⟨[], rfl, by rw [List.append_nil]; exact h⟩
  | cons m rest ih =>
    rw [List.forall_mem_cons] at hspares
    obtain ⟨first, hfirst, hmoved⟩ := h.move hspares.1
    obtain ⟨more, hmore, hleft⟩ := ih hmoved hspares.2
    refine ⟨first ++ more, ?_, by rw [← List.append_assoc]; exact hleft⟩
    rw [Session.moveAll, gotBy_append, hfirst, hmore, List.map_append]

/-- While retrieval is open, so is the stream of the reader. -/
lemma isOpen (h : s.Reading id ds) (hopen : s.world.retrieval.closed = false) :
    s.isOpen id = true := by
  rcases h.stands with ⟨t, -, hstream⟩ | ⟨hclosed, -⟩
  · rw [Session.isOpen, hstream]
    rfl
  · rw [hopen] at hclosed
    exact absurd hclosed Bool.false_ne_true

/-- Once retrieval is closed, a read gives nothing but the end. -/
lemma poll_of_closed (h : s.Reading id ds) (hclosed : s.world.retrieval.closed = true)
    {limit : Option Nat} (hlimit : limit ≠ some 0) :
    (s.poll id limit).1.streams.lookup id = none ∧ (s.poll id limit).2 = ([], true) := by
  rcases h.stands with ⟨t, ht, hstream⟩ | ⟨-, hstream⟩
  · obtain ⟨count, hcount, hpoll⟩ := poll_eq hstream limit
    obtain ⟨count, rfl⟩ := Nat.exists_eq_succ_of_ne_zero (hcount hlimit)
    rw [hpoll, ht.run_of_closed hclosed]
    exact ⟨lookup_drop_self s id, rfl⟩
  · have hpoll : s.poll id limit = (s, [], true) := by rw [Session.poll, hstream]
    rw [hpoll]
    exact ⟨hstream, rfl⟩

end Reading

/-- A reader that has just opened its stream got nothing. -/
lemma reading_openStream (s : Session) (id : String) {point : DecisionPoint}
    (h : point.retrieval = .watch .retrieval none) (subscription : AuthorizationSubscription) :
    (s.openStream id ((point.decide subscription).map .decision)).Reading id [] :=
  ⟨.nil, .inl ⟨_, point.decide_awaitsDocuments h subscription, lookup_openStream s id _⟩⟩

end Session

/-! ### The lifetime of decisions -/

namespace DecisionPoint

/-- Where documents are published, whatever owners and readers do and in whatever
order: a reader of the decisions for a subscription gets no decision that is equal
to the one before; its stream is open while retrieval is; and once retrieval has
been closed, its next read ends it and gives nothing, whatever was unseen. -/
theorem decide_lifetime (functions : FunctionRegistry) (finders : FinderRegistry)
    (interceptors : List Interceptor) (subscription : AuthorizationSubscription) (s : Session)
    (id : String) (moves : List Session.Move) (hspares : ∀ m ∈ moves, m.Spares id) :
    let stream := ((watching functions finders interceptors).decide subscription).map
      Delivery.decision
    let run := (s.openStream id stream).moveAll moves
    (∃ ds : List AuthorizationDecision, Session.gotBy id run.2 = ds.map .decision ∧
      ds.IsChain fun a b => a.same b = false) ∧
    (s.world.retrieval.closed = false → .close ∉ moves → run.1.isOpen id = true) ∧
    (s.world.retrieval.closed = true ∨ .close ∈ moves → ∀ limit, limit ≠ some 0 →
      (run.1.poll id limit).2 = ([], true) ∧ (run.1.poll id limit).1.isOpen id = false) := by
  intro stream run
  have hwatch : (watching functions finders interceptors).retrieval = .watch .retrieval none := rfl
  obtain ⟨ds, hgot, hreading⟩ :=
    (Session.reading_openStream s id hwatch subscription).moveAll hspares
  have hclosed : run.1.world.retrieval.closed = true ↔
      s.world.retrieval.closed = true ∨ .close ∈ moves :=
    Session.closed_moveAll (s.openStream id stream) moves
  refine ⟨⟨ds, hgot, hreading.spaced⟩, fun hopen hclose => ?_, fun hclose limit hlimit => ?_⟩
  · refine hreading.isOpen (Bool.eq_false_iff.mpr fun h => ?_)
    rcases hclosed.mp h with h | h
    · rw [hopen] at h
      exact absurd h Bool.false_ne_true
    · exact hclose h
  · obtain ⟨hgone, hpoll⟩ := hreading.poll_of_closed (hclosed.mpr hclose) hlimit
    refine ⟨hpoll, ?_⟩
    rw [Session.isOpen, hgone]
    rfl

/-- The first gate opens between two reads; a reload, a configuration and the closing come
before the last one. -/
theorem decide_lifetime_unseen :
    let stream := (Reporting.gatekeeper.decide Reporting.anyone).map Delivery.decision
    let run := (Session.openStream { world := Reporting.gated } "pdp" stream).moveAll
      [.poll "pdp" none, .publish "a" (.ofBool true), .poll "pdp" none,
        .publish "a" (.ofBool true), .poll "pdp" none, .reload { errorsInTarget := true },
        .configure { algorithm := .denyUnlessPermit }, .close, .advance 5]
    (∃ ds : List AuthorizationDecision, ds = [.plain .notApplicable, .plain .permit] ∧
      Session.gotBy "pdp" run.2 = ds.map .decision ∧ ds.IsChain fun a b => a.same b = false) ∧
      (run.1.poll "pdp" none).2 = ([], true) := by
  intro stream run
  have hspares : ∀ m ∈ [.poll "pdp" none, .publish "a" (.ofBool true), .poll "pdp" none,
      .publish "a" (.ofBool true), .poll "pdp" none, .reload { errorsInTarget := true },
      .configure { algorithm := .denyUnlessPermit }, .close, .advance 5],
      Session.Move.Spares "pdp" m := by
    simp [Session.Move.Spares]
  obtain ⟨⟨ds, hgot, hspaced⟩, -, hends⟩ := decide_lifetime .empty (.watching ["a", "b"]) []
    Reporting.anyone { world := Reporting.gated } "pdp" _ hspares
  have hds : Session.gotBy "pdp" run.2
      = [AuthorizationDecision.plain .notApplicable, .plain .permit].map .decision := by
    simp only [run, stream]
    cbv
  refine ⟨⟨ds, ?_, hgot, hspaced⟩, (hends (.inr (by simp)) none (by simp)).1⟩
  exact List.map_injective_iff.mpr (fun _ _ => Delivery.decision.inj) (hgot.symm.trans hds)

end DecisionPoint

end Verdict
