/-
Streams that differ in what is to make no difference.

Two streams are built alike from parts that deliver related items, and they are read in
two worlds in which related values are published.  Then what they deliver is related,
item by item, and so is what is left of them, however they are read and whatever they
are told.

* `World.Matches`: at the same time and in the same versions, related values are
  published.
* `Stream.Matches`: the streams are built alike from related parts.
* `Run.Matches`: two runs with related items.
* `Stream.Matches.run`: streams that match have runs that match.
* `Stream.Matches.notify`: and they match after an event.
* `Stream.Matches.map`, `switchMap`, `combineLatest` and their like: the combinators
  that evaluation is built from.
-/
import Verdict.Proofs.Stream.Always

namespace Verdict

variable {σ α β : Type}

/-- Which values may be published under a topic in two worlds. -/
abbrev Topic.Relation : Type := ∀ topic : Topic, topic.Content → topic.Content → Prop

/-- The worlds differ at most in the values that are published, and these are related. -/
structure World.Matches (T : Topic.Relation) (w w' : World) : Prop where
  time : w.time = w'.time
  value : ∀ topic, T topic (w.read topic).value (w'.read topic).value
  version : ∀ topic, (w.read topic).version = (w'.read topic).version
  closed : ∀ topic, (w.read topic).closed = (w'.read topic).closed

/-! ### Related lists -/

section Lists

variable {γ δ : Type*} {R : γ → δ → Prop} {xs : List γ} {ys : List δ}

/-- Related lists have related entries at every place, or both none. -/
lemma forall₂_getElem? (h : List.Forall₂ R xs ys) (i : Nat) :
    Option.Rel R xs[i]? ys[i]? := by
  induction h generalizing i with
  | nil => exact .none
  | cons ha _ ih =>
    cases i with
    | zero => exact .some ha
    | succ i => exact ih i

/-- Writing related entries into one place keeps lists related. -/
lemma forall₂_set (h : List.Forall₂ R xs ys) (i : Nat) {a : γ} {b : δ} (hnew : R a b) :
    List.Forall₂ R (xs.set i a) (ys.set i b) := by
  induction h generalizing i with
  | nil => exact .nil
  | cons ha htail ih =>
    cases i with
    | zero => exact .cons hnew htail
    | succ i => exact .cons ha (ih i)

/-- Lists of one length are related if they are so place by place. -/
lemma forall₂_of_getElem? (hlength : xs.length = ys.length)
    (h : ∀ (i : Nat) a b, xs[i]? = some a → ys[i]? = some b → R a b) : List.Forall₂ R xs ys :=
  List.forall₂_of_length_eq_of_get hlength fun i hi hi' =>
    h i _ _ (List.getElem?_eq_getElem hi) (List.getElem?_eq_getElem hi')

/-- The images are equal of lists whose elements have equal images in each place. -/
lemma map_congr_of_getElem? {ε : Type*} {f : γ → ε} {g : δ → ε} (hlength : xs.length = ys.length)
    (h : ∀ (i : Nat) a b, xs[i]? = some a → ys[i]? = some b → f a = g b) :
    xs.map f = ys.map g := by
  have hall : List.Forall₂ (fun a b => f a = g b) xs ys := forall₂_of_getElem? hlength h
  clear hlength h
  induction hall with
  | nil => rfl
  | cons hab _ ih => rw [List.map_cons, List.map_cons, hab, ih]

end Lists

/-! ### Runs -/

/-- The runs have related items, and related streams behind each of them. -/
inductive Run.Matches (R : α → α → Prop) (M : Stream α → Stream α → Prop) :
    Run α → Run α → Prop
  | pending {s t : Stream α} (h : M s t) : Matches R M (.pending s) (.pending t)
  | ended : Matches R M .ended .ended
  | item {a b : α} {s t : Stream α} {r r' : Run α} (ha : R a b) (hrest : M s t)
      (hmore : Matches R M r r') : Matches R M (.item a s r) (.item b t r')

namespace Run.Matches

variable {R : α → α → Prop} {M : Stream α → Stream α → Prop} {r r' : Run α}

/-- The items of matching runs are related one by one. -/
lemma toList (h : Run.Matches R M r r') : List.Forall₂ R r.toList r'.toList := by
  induction h with
  | pending h => exact .nil
  | ended => exact .nil
  | item ha _ _ ih => exact .cons ha ih

lemma length_eq (h : Run.Matches R M r r') : r.length = r'.length := by
  rw [← Run.length_toList, ← Run.length_toList]
  exact h.toList.length_eq

/-- Both runs end, or they leave streams behind that match. -/
lemma final (h : Run.Matches R M r r') : Option.Rel M r.final r'.final := by
  induction h with
  | pending h => exact .some h
  | ended => exact .none
  | item _ _ _ ih => exact ih

lemma final_getD (h : Run.Matches R M r r') (hended : M .ended .ended) :
    M (r.final.getD .ended) (r'.final.getD .ended) := by
  have hfinal := h.final
  generalize r.final = s, r'.final = t at hfinal
  cases hfinal with
  | none => exact hended
  | some hrest => exact hrest

lemma isNone_final (h : Run.Matches R M r r') : r.final.isNone = r'.final.isNone := by
  have hfinal := h.final
  generalize r.final = s, r'.final = t at hfinal
  cases hfinal <;> rfl

/-- The last items are related, also where nothing came and an earlier item counts. -/
lemma last? (h : Run.Matches R M r r') {before before' : Option α}
    (hbefore : Option.Rel R before before') :
    Option.Rel R (r.last? before) (r'.last? before') := by
  induction h generalizing before before' with
  | pending h => exact hbefore
  | ended => exact hbefore
  | item ha _ _ ih => exact ih (.some ha)

/-- A read in part gives related items and leaves related streams. -/
lemma take (h : Run.Matches R M r r') {start start' : Stream α} (hstart : M start start')
    (count : Nat) :
    List.Forall₂ R (r.take start count).1 (r'.take start' count).1 ∧
      Option.Rel M (r.take start count).2 (r'.take start' count).2 := by
  induction h generalizing start start' count with
  | pending h =>
    cases count with
    | zero => exact ⟨.nil, .some hstart⟩
    | succ count => exact ⟨.nil, .some h⟩
  | ended =>
    cases count with
    | zero => exact ⟨.nil, .some hstart⟩
    | succ count => exact ⟨.nil, .none⟩
  | item ha hrest _ ih =>
    cases count with
    | zero => exact ⟨.nil, .some hstart⟩
    | succ count =>
      obtain ⟨hitems, hleft⟩ := ih hrest count
      exact ⟨.cons ha hitems, hleft⟩

/-- Two lists of items run side by side to their ends. -/
lemma ofFinite {items items' : List α} (h : List.Forall₂ R items items')
    (hrest : ∀ items items', List.Forall₂ R items items' → M (.finite items) (.finite items')) :
    Run.Matches R M (Run.ofFinite items) (Run.ofFinite items') := by
  induction h with
  | nil => exact .ended
  | cons ha htail ih => exact .item ha (hrest _ _ htail) ih

lemma ofLasting {items items' : List α} (h : List.Forall₂ R items items')
    (hrest : ∀ items items', List.Forall₂ R items items' → M (.lasting items) (.lasting items')) :
    Run.Matches R M (Run.ofLasting items) (Run.ofLasting items') := by
  induction h with
  | nil => exact .pending (hrest [] [] .nil)
  | cons ha htail ih => exact .item ha (hrest _ _ htail) ih

/-- Two clocks of one period tick at the same times. -/
lemma ofTicks {M : Stream Nat → Stream Nat → Prop} {period : Nat}
    (hrest : ∀ next, M (.clock period next) (.clock period next)) (count next : Nat) :
    Run.Matches Eq M (Run.ofTicks period count next) (Run.ofTicks period count next) := by
  induction count generalizing next with
  | zero => exact .pending (hrest _)
  | succ count ih => exact .item rfl (hrest _) (ih _)

/-- Stages that take related states and items to related ones keep runs matching. -/
lemma through {Q : β → β → Prop} {N : Stream β → Stream β → Prop} {S : σ → σ → Prop}
    {stage stage' : σ → Stream α → Stream β} {step step' : σ → α → σ × Option β}
    {state state' : σ} (h : Run.Matches R M r r') (hstate : S state state')
    (hstep : ∀ state state' a b, S state state' → R a b →
      S (step state a).1 (step' state' b).1 ∧ Option.Rel Q (step state a).2 (step' state' b).2)
    (hstage : ∀ state state' s t, S state state' → M s t → N (stage state s) (stage' state' t)) :
    Run.Matches Q N (r.through stage step state) (r'.through stage' step' state') := by
  induction h generalizing state state' with
  | pending h => exact .pending (hstage _ _ _ _ hstate h)
  | ended => exact .ended
  | @item a b s t r r' ha hrest _ ih =>
    obtain ⟨hnext, hlet⟩ := hstep _ _ _ _ hstate ha
    rw [Run.through, Run.through]
    generalize step state a = result at hnext hlet
    generalize step' state' b = result' at hnext hlet
    obtain ⟨next, c⟩ := result
    obtain ⟨next', c'⟩ := result'
    cases hlet with
    | none => exact ih hnext
    | some hc => exact .item hc (hstage _ _ _ _ hnext hrest) (ih hnext)

/-- What two switches run below their sources matches in turn, if the sources have both ended
or neither has. -/
lemma switched {bounded : Bool} {project project' : β → Stream α} {source source' : Stream β}
    {N : Stream α → Stream α → Prop} (h : Run.Matches R M r r')
    (hsource : source.isEnded = source'.isEnded)
    (hinner : ∀ s t, M s t → N (.switch bounded project source s)
      (.switch bounded project' source' t))
    (hended : M .ended .ended) :
    Run.Matches R N (r.switched bounded project source)
      (r'.switched bounded project' source') := by
  induction h with
  | pending h => exact .pending (hinner _ _ h)
  | ended =>
    rw [Run.switched, Run.switched, hsource]
    split
    · exact .ended
    · exact .pending (hinner _ _ hended)
  | item ha hrest _ ih => exact .item ha (hinner _ _ hrest) ih

/-- Both runs are in time or both are late, and then the late items are related. -/
lemma timed {now millis deadline : Nat} {late late' : α} (h : Run.Matches R M r r')
    (hlate : R late late')
    (htimeout : ∀ s t, M s t → M (.timeout millis late (some deadline) s)
      (.timeout millis late' (some deadline) t)) :
    Run.Matches R M (r.timed now millis deadline late) (r'.timed now millis deadline late') := by
  cases h with
  | pending h =>
    rw [Run.timed, Run.timed]
    split
    · exact .item hlate h (.pending h)
    · exact .pending (htimeout _ _ h)
  | ended => exact .ended
  | item ha hrest hmore => exact .item ha hrest hmore

end Run.Matches

/-! ### Streams -/

/-- The streams are built alike, from sources of related items and with functions that
take related items to related ones. -/
inductive Stream.Matches (T : Topic.Relation) :
    {α : Type} → (α → α → Prop) → Stream α → Stream α → Prop
  | finite {α : Type} {R : α → α → Prop} {items items' : List α}
      (h : List.Forall₂ R items items') : Matches T R (.finite items) (.finite items')
  | lasting {α : Type} {R : α → α → Prop} {items items' : List α}
      (h : List.Forall₂ R items items') : Matches T R (.lasting items) (.lasting items')
  | watch (topic : Topic) (seen : Option Nat) :
      Matches T (T topic) (.watch topic seen) (.watch topic seen)
  | clock (period : Nat) (next : Option Nat) :
      Matches T Eq (.clock period next) (.clock period next)
  | scan {σ α β : Type} {S : σ → σ → Prop} {R : α → α → Prop} {Q : β → β → Prop}
      {step step' : σ → α → σ × Option β} {state state' : σ} {source source' : Stream α}
      (hstep : ∀ state state' a b, S state state' → R a b →
        S (step state a).1 (step' state' b).1 ∧ Option.Rel Q (step state a).2 (step' state' b).2)
      (hstate : S state state') (hsource : Matches T R source source') :
      Matches T Q (.scan step state source) (.scan step' state' source')
  | dedup {α : Type} {same : α → α → Bool} {last : Option α} {source source' : Stream α}
      (hsource : Matches T Eq source source') :
      Matches T Eq (.dedup same last source) (.dedup same last source')
  | select {α : Type} {R : α → α → Prop} {ss ts : List (Stream α)} {queue : List Nat}
      (hlength : ss.length = ts.length)
      (h : ∀ (i : Nat) s t, ss[i]? = some s → ts[i]? = some t → Matches T R s t) :
      Matches T (fun a b => a.1 = b.1 ∧ R a.2 b.2)
        (.select (StreamList.ofList ss) queue) (.select (StreamList.ofList ts) queue)
  | switch {α β : Type} {R : α → α → Prop} {Q : β → β → Prop} {bounded : Bool}
      {project project' : α → Stream β} {source source' : Stream α} {inner inner' : Stream β}
      (hsource : Matches T R source source')
      (hproject : ∀ a b, R a b → Matches T Q (project a) (project' b))
      (hinner : Matches T Q inner inner') :
      Matches T Q (.switch bounded project source inner) (.switch bounded project' source' inner')
  | timeout {α : Type} {R : α → α → Prop} {millis : Nat} {late late' : α} {deadline : Option Nat}
      {source source' : Stream α} (hlate : R late late') (hsource : Matches T R source source') :
      Matches T R (.timeout millis late deadline source) (.timeout millis late' deadline source')

namespace Stream.Matches

variable {T : Topic.Relation} {R : α → α → Prop} {s t : Stream α} {w w' : World}

/-- Matching streams have both ended or neither. -/
lemma isEnded_eq (h : s.Matches T R t) : s.isEnded = t.isEnded := by
  cases h with
  | finite h => cases h <;> rfl
  | _ => rfl

lemma ended : (ended : Stream α).Matches T R .ended := .finite .nil

end Stream.Matches

/-! ### The children of a selection -/

namespace Child

/-- The children stand alike, and they are going to deliver related items. -/
inductive Matches (R : α → α → Prop) (M : Stream α → Stream α → Prop) : Child α → Child α → Prop
  | gone : Matches R M .gone .gone
  | idle {s t : Stream α} (h : M s t) : Matches R M (.idle s) (.idle t)
  | ready {s t : Stream α} {r r' : Run α} (h : M s t) (hrun : Run.Matches R M r r') :
      Matches R M (.ready s r) (.ready t r')

variable {R : α → α → Prop} {M : Stream α → Stream α → Prop} {children others : List (Child α)}

/-- What is left of matching children matches, also where both are gone. -/
lemma Matches.stream {c c' : Child α} (h : Matches R M c c') (hended : M .ended .ended) :
    M c.stream c'.stream := by
  cases h with
  | gone => exact hended
  | idle h => exact h
  | ready h _ => exact h

lemma Matches.isGone_eq {c c' : Child α} (h : Matches R M c c') : c.isGone = c'.isGone := by
  cases h <;> rfl

/-- All children on one side are gone exactly if all on the other are. -/
lemma Matches.all_isGone (h : List.Forall₂ (Matches R M) children others) :
    children.all isGone = others.all isGone := by
  induction h with
  | nil => rfl
  | cons hchild _ ih => rw [List.all_cons, List.all_cons, hchild.isGone_eq, ih]

lemma Matches.map_stream (h : List.Forall₂ (Matches R M) children others)
    (hended : M .ended .ended) :
    List.Forall₂ M (children.map Child.stream) (others.map Child.stream) :=
  List.forall₂_map_left_iff.mpr (List.forall₂_map_right_iff.mpr
    (h.imp fun _ _ hchild => hchild.stream hended))

/-- A child with unread items stands opposite another one. -/
lemma Matches.ready_of {i : Nat} {s : Stream α} {r : Run α}
    (h : List.Forall₂ (Matches R M) children others) (hi : children[i]? = some (.ready s r)) :
    ∃ t r', others[i]? = some (.ready t r') ∧ M s t ∧ Run.Matches R M r r' := by
  have hchild := forall₂_getElem? h i
  rw [hi] at hchild
  generalize hother : others[i]? = other at hchild
  cases hchild with
  | some hchild =>
    cases hchild with
    | ready hstream hrun => exact ⟨_, _, rfl, hstream, hrun⟩

/-- A child without unread items does not stand opposite one that has some. -/
lemma Matches.not_ready_of {i : Nat} (h : List.Forall₂ (Matches R M) children others)
    (hi : ∀ s r, children[i]? ≠ some (.ready s r)) (t : Stream α) (r : Run α) :
    others[i]? ≠ some (.ready t r) := by
  intro hother
  have hchild := forall₂_getElem? h i
  rw [hother] at hchild
  generalize hown : children[i]? = own at hchild
  cases hchild with
  | some hchild =>
    cases hchild with
    | ready _ _ => exact hi _ _ hown

/-- A selection has a child for each of its streams. -/
lemma length_runs (w : World) (queue : List Nat) (ss : List (Stream α)) (index : Nat) :
    ((StreamList.ofList ss).runs w queue index).length = ss.length := by
  induction ss generalizing index with
  | nil => rfl
  | cons s rest ih =>
    rw [StreamList.ofList, StreamList.runs, List.length_cons, ih, List.length_cons]

/-- Children that match are asked in the same order, and deliver related items. -/
theorem schedule_matches {N : Stream (Nat × α) → Stream (Nat × α) → Prop} (hended : M .ended .ended)
    (hselect : ∀ ss ts queue, List.Forall₂ M ss ts →
      N (.select (StreamList.ofList ss) queue) (.select (StreamList.ofList ts) queue))
    (children others : List (Child α)) (queue : List Nat)
    (h : List.Forall₂ (Matches R M) children others) :
    Run.Matches (fun a b => a.1 = b.1 ∧ R a.2 b.2) N (schedule children queue)
      (schedule others queue) := by
  induction children, queue using schedule.induct generalizing others with
  | case1 children hgone =>
    rw [schedule, schedule, if_pos hgone, if_pos (Matches.all_isGone h ▸ hgone)]
    exact .ended
  | case2 children hgone =>
    rw [schedule, schedule, if_neg hgone, if_neg (Matches.all_isGone h ▸ hgone)]
    exact .pending (hselect _ _ _ (Matches.map_stream h hended))
  | case3 children i queue stream a s more hi _ ih =>
    obtain ⟨t₀, _, hi', -, hrun⟩ := Matches.ready_of h hi
    cases hrun with
    | @item a b s t _ more' ha hrest hmore =>
      have hset := forall₂_set h i (Matches.ready hrest hmore)
      rw [schedule_item hi, schedule_item hi']
      exact .item ⟨rfl, ha⟩ (hselect _ _ _ (Matches.map_stream hset hended)) (ih _ hset)
  | case4 children i queue s s' hi _ ih =>
    obtain ⟨t, _, hi', -, hrun⟩ := Matches.ready_of h hi
    cases hrun with
    | pending hrest =>
      rw [schedule_pending hi, schedule_pending hi']
      exact ih _ (forall₂_set h i (.idle hrest))
  | case5 children i queue s hi _ ih =>
    obtain ⟨t, _, hi', -, hrun⟩ := Matches.ready_of h hi
    cases hrun with
    | ended =>
      rw [schedule_ended hi, schedule_ended hi']
      exact ih _ (forall₂_set h i .gone)
  | case6 children i queue hitem hpending hends ih =>
    have hi := not_ready hitem hpending hends
    rw [schedule_skip hi, schedule_skip (Matches.not_ready_of h hi)]
    exact ih _ h

end Child

/-! ### Reading and telling -/

namespace Stream.Matches

variable {T : Topic.Relation} {R : α → α → Prop} {s t : Stream α} {w w' : World}

/-- Selections among matching streams deliver under the same numbers, in the same order. -/
lemma select_of_forall₂ {ss ts : List (Stream α)} (h : List.Forall₂ (Matches T R) ss ts)
    (queue : List Nat) :
    Matches T (fun a b => a.1 = b.1 ∧ R a.2 b.2) (Stream.select (StreamList.ofList ss) queue)
      (.select (StreamList.ofList ts) queue) := by
  refine .select h.length_eq fun i s t hs ht => ?_
  have hrel := forall₂_getElem? h i
  rw [hs, ht] at hrel
  cases hrel with
  | some hrel => exact hrel

/-- Streams that match, read in worlds that match, deliver related items and leave streams
that match. -/
theorem run (h : s.Matches T R t) (hw : w.Matches T w') :
    Run.Matches R (Matches T R) (s.run w) (t.run w') := by
  induction h with
  | finite h => exact .ofFinite h fun _ _ => .finite
  | lasting h => exact .ofLasting h fun _ _ => .lasting
  | watch topic seen =>
    rw [Stream.run, Stream.run, Run.ofPublished, Run.ofPublished, hw.version, hw.closed]
    split <;> split
    · exact .ended
    · exact .pending (.watch _ _)
    · exact .item (hw.value topic) (.watch _ _) .ended
    · exact .item (hw.value topic) (.watch _ _) (.pending (.watch _ _))
  | clock period next =>
    rw [Stream.run, Stream.run, Run.ofClock, Run.ofClock, hw.time]
    split
    · exact .pending (.clock _ _)
    · exact .ofTicks (fun _ => .clock _ _) _ _
  | scan hstep hstate _ ih =>
    exact ih.through hstate hstep fun _ _ _ _ hstate hsource => .scan hstep hstate hsource
  | dedup _ ih =>
    refine ih.through (S := Eq) rfl ?_ ?_
    · rintro last _ a _ rfl rfl
      exact ⟨rfl, by cases (distinctStep _ last a).2 <;> simp⟩
    · rintro last _ s t rfl hsource
      exact .dedup hsource
  | @select _ R ss ts queue hlength h ih =>
    refine Child.schedule_matches ended (fun _ _ _ => (select_of_forall₂ · _)) _ _ _ ?_
    refine forall₂_of_getElem? ?_ fun i c c' hc hc' => ?_
    · rw [Child.length_runs, Child.length_runs, hlength]
    · rw [Child.getElem?_runs, Option.map_eq_some_iff] at hc hc'
      obtain ⟨s, hs, rfl⟩ := hc
      obtain ⟨t, ht, rfl⟩ := hc'
      have hst := h i s t hs ht
      rw [Child.start, Child.start, hst.isEnded_eq]
      split
      · exact .gone
      · split
        · exact .ready hst (ih i s t hs ht)
        · exact .idle hst
  | @switch _ _ R Q bounded project project' source source' inner inner' hsource hproject _ ihs ihp
      ihi =>
    have hrest := ihs.final_getD ended
    have hswitched {u u' : Stream _}
        (hu : Run.Matches Q (Matches T Q) (u.run w) (u'.run w')) :
        Run.Matches Q (Matches T Q)
          ((u.run w).switched bounded project ((source.run w).final.getD .ended))
          ((u'.run w').switched bounded project' ((source'.run w').final.getD .ended)) :=
      hu.switched hrest.isEnded_eq (fun _ _ hinner => .switch hrest hproject hinner) ended
    rw [Stream.run, Stream.run]
    simp only [ihs.isNone_final]
    split
    · exact .ended
    · have hlast : Option.Rel R ((source.run w).last? none) ((source'.run w').last? none) :=
        ihs.last? .none
      generalize (source.run w).last? none = a, (source'.run w').last? none = b at hlast
      cases hlast with
      | none => exact hswitched ihi
      | some hab => exact hswitched (ihp _ _ hab)
  | timeout hlate _ ih =>
    rw [Stream.run, Stream.run, hw.time]
    exact ih.timed hlate fun _ _ hsource => .timeout hlate hsource

/-- Which children an event wakes depends on whether it wakes each of them. -/
lemma wokenBy_eq (e : Event) (ss : List (Stream α)) :
    wokenBy e ss = ((ss.map fun s => (s.notify e).1).zipIdx 0).filterMap
      fun (woke, i) => if woke then some i else none := by
  rw [wokenBy, List.zipIdx_map, List.filterMap_map]
  rfl

/-- Streams that match wait for the same times. -/
lemma deadlines_eq (h : s.Matches T R t) : s.deadlines = t.deadlines := by
  induction h with
  | finite _ => rfl
  | lasting _ => rfl
  | watch _ _ => rfl
  | clock _ _ => rfl
  | scan _ _ _ ih => exact ih
  | dedup _ ih => exact ih
  | select hlength _ ih =>
    rw [Stream.deadlines, Stream.deadlines, StreamList.deadlines_ofList,
      StreamList.deadlines_ofList, map_congr_of_getElem? hlength ih]
  | switch _ _ _ ihs _ ihi => rw [Stream.deadlines, Stream.deadlines, ihs, ihi]
  | timeout _ _ ih => rw [Stream.deadlines, Stream.deadlines, ih]

/-- An event wakes both or neither, and leaves streams that match. -/
theorem notify (h : s.Matches T R t) (e : Event) :
    (s.notify e).1 = (t.notify e).1 ∧ (s.notify e).2.Matches T R (t.notify e).2 := by
  induction h with
  | finite h => exact ⟨rfl, .finite h⟩
  | lasting h => exact ⟨rfl, .lasting h⟩
  | watch topic seen => exact ⟨rfl, .watch topic seen⟩
  | clock period next => exact ⟨rfl, .clock period next⟩
  | scan hstep hstate _ ih => exact ⟨ih.1, .scan hstep hstate ih.2⟩
  | dedup _ ih => exact ⟨ih.1, .dedup ih.2⟩
  | @select _ R ss ts queue hlength h ih =>
    have hwoken : wokenBy e ss = wokenBy e ts := by
      rw [wokenBy_eq, wokenBy_eq,
        map_congr_of_getElem? hlength fun i s t hs ht => (ih i s t hs ht).1]
    rw [notify_select, notify_select, hwoken]
    refine ⟨rfl, .select (by rw [List.length_map, List.length_map, hlength]) ?_⟩
    intro i s t hs ht
    rw [List.getElem?_map, Option.map_eq_some_iff] at hs ht
    obtain ⟨s, hs, rfl⟩ := hs
    obtain ⟨t, ht, rfl⟩ := ht
    exact (ih i s t hs ht).2
  | switch _ hproject _ ihs _ ihi =>
    refine ⟨?_, .switch ihs.2 hproject ihi.2⟩
    simp only [Stream.notify, ihs.1, ihi.1]
  | timeout hlate _ ih =>
    refine ⟨?_, .timeout hlate ih.2⟩
    simp only [Stream.notify, ih.1]

/-! ### Combinators -/

lemma just {a b : α} (h : R a b) : (just a).Matches T R (.just b) := .finite (.cons h .nil)

/-- Related functions of related items give related items. -/
lemma map {Q : β → β → Prop} {f g : α → β} (h : s.Matches T R t)
    (hfg : ∀ a b, R a b → Q (f a) (g b)) : (s.map f).Matches T Q (t.map g) :=
  .scan (S := fun _ _ => True) (fun _ _ a b _ hab => ⟨trivial, .some (hfg a b hab)⟩) trivial h

lemma map_eq (h : s.Matches T Eq t) (f : α → β) : (s.map f).Matches T Eq (t.map f) :=
  h.map fun _ _ hab => congrArg f hab

/-- Where the items are identical, the same repetitions are dropped. -/
lemma distinct (h : s.Matches T Eq t) (same : α → α → Bool) :
    (s.distinct same).Matches T Eq (t.distinct same) := .dedup h

/-- Where related items start matching streams, so do the switches between them. -/
lemma switchMap {Q : β → β → Prop} {project project' : α → Stream β} (h : s.Matches T R t)
    (hproject : ∀ a b, R a b → (project a).Matches T Q (project' b)) :
    (s.switchMap project).Matches T Q (t.switchMap project') := .switch h hproject ended

lemma switchMapBounded {Q : β → β → Prop} {project project' : α → Stream β} (h : s.Matches T R t)
    (hproject : ∀ a b, R a b → (project a).Matches T Q (project' b)) :
    (s.switchMapBounded project).Matches T Q (t.switchMapBounded project') :=
  .switch h hproject ended

/-- Lists of the latest items agree where the items do. -/
lemma combineLatest {ss ts : List (Stream α)} (h : List.Forall₂ (Matches T Eq) ss ts) :
    (Stream.combineLatest ss).Matches T Eq (.combineLatest ts) := by
  cases h with
  | nil => exact just rfl
  | cons hst hrest =>
    have hall := List.Forall₂.cons hst hrest
    have hstep : ∀ latest latest' (item item' : Nat × α), latest = latest' →
        (item.1 = item'.1 ∧ item.2 = item'.2) →
        (latestStep latest item).1 = (latestStep latest' item').1 ∧
          Option.Rel Eq (latestStep latest item).2 (latestStep latest' item').2 := by
      rintro latest _ item item' rfl ⟨hslot, hitem⟩
      obtain rfl : item = item' := Prod.ext hslot hitem
      exact ⟨rfl, by cases (latestStep latest item).2 <;> simp⟩
    rw [combineLatest_cons, combineLatest_cons, merge, merge, hall.length_eq]
    exact .scan hstep rfl (select_of_forall₂ hall _)

end Stream.Matches

end Verdict
