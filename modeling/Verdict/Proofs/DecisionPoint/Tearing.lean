/-
Decisions for values that never held together.

Wherever three attributes are published one behind another, of which only the
first and the third may be the same, a policy can be made to decide for the new
value of the first and the third and the old value of the second.

* `World.value_publishAll`: the values of attributes behind publications.
* `Tearing.round`: a round with such a policy.
* `Round.consistent_iff`: the orders of publications that keep all rounds
  consistent.
* `Tearing.levelAndLock`: a permit between publications that call for denial.
-/
import Verdict.Proofs.DecisionPoint.Consistency
import Verdict.Proofs.DecisionPoint.Reporting

namespace Verdict

/-! ### Values behind publications -/

namespace World

lemma isSome_lookup_publishAll (w : World) (name : String) (published : List (String × Value)) :
    ((w.publishAll published).attributes.lookup name).isSome
      = (w.attributes.lookup name).isSome := by
  induction published generalizing w with
  | nil => rfl
  | cons p rest ih =>
    refine (ih _).trans ?_
    rw [lookup_publishAttribute, Option.isSome_map]

/-- The value of an attribute is one that was published, or the one from before if
there is none. -/
lemma value_publishAll {w : World} {name : String} (h : (w.attributes.lookup name).isSome)
    (published : List (String × Value)) :
    (∃ p ∈ published, p.1 = name ∧
        ((w.publishAll published).read (.ofAttribute name)).value = p.2) ∨
      (∀ p ∈ published, p.1 ≠ name) ∧
        ((w.publishAll published).read (.ofAttribute name)).value
          = (w.read (.ofAttribute name)).value := by
  induction published generalizing w with
  | nil => exact .inr ⟨by simp, rfl⟩
  | cons p rest ih =>
    obtain ⟨old, hold⟩ := Option.isSome_iff_exists.mp h
    have hnew := w.lookup_publishAttribute p.1 name p.2
    rw [hold, Option.map_some] at hnew
    rcases ih (w := w.publishAttribute p.1 p.2) (by rw [hnew]; rfl) with
      ⟨q, hq, hname, hvalue⟩ | ⟨hnone, hvalue⟩
    · exact .inl ⟨q, List.mem_cons_of_mem _ hq, hname, hvalue⟩
    · have hread : ((w.publishAttribute p.1 p.2).read (.ofAttribute name)).value
          = if name = p.1 then p.2 else (w.read (.ofAttribute name)).value := by
        rw [read, hnew, read, hold]
        split <;> rfl
      by_cases hp : p.1 = name
      · rw [if_pos hp.symm] at hread
        exact .inl ⟨p, List.mem_cons_self, hp, hvalue.trans hread⟩
      · rw [if_neg (Ne.symm hp)] at hread
        exact .inr ⟨List.forall_mem_cons.mpr ⟨hp, hnone⟩, hvalue.trans hread⟩

section Holds

variable {w : World} {name : String} {published : List (String × Value)} {b : Bool}

lemma Holds.publishAll (h : w.Holds name b)
    (hall : ∀ p ∈ published, p.1 = name → p.2 = .ofBool b)
    (hknown : (w.attributes.lookup name).isSome) : (w.publishAll published).Holds name b := by
  rcases value_publishAll hknown published with ⟨p, hp, hname, hvalue⟩ | ⟨-, hvalue⟩
  · exact hvalue.trans (hall p hp hname)
  · exact hvalue.trans h

lemma holds_publishAll_of_mem (hmem : (name, .ofBool b) ∈ published)
    (hall : ∀ p ∈ published, p.1 = name → p.2 = .ofBool b)
    (hknown : (w.attributes.lookup name).isSome) : (w.publishAll published).Holds name b := by
  rcases value_publishAll hknown published with ⟨p, hp, hname, hvalue⟩ | ⟨hnone, -⟩
  · exact hvalue.trans (hall p hp hname)
  · exact absurd rfl (hnone _ hmem)

lemma Holds.exists_publishAll (h : w.Holds name b) (hall : ∀ p ∈ published, ∃ c, p.2 = .ofBool c)
    (hknown : (w.attributes.lookup name).isSome) : ∃ c, (w.publishAll published).Holds name c := by
  rcases value_publishAll hknown published with ⟨p, hp, -, hvalue⟩ | ⟨-, hvalue⟩
  · obtain ⟨c, hc⟩ := hall p hp
    exact ⟨c, hvalue.trans hc⟩
  · exact ⟨b, hvalue.trans h⟩

end Holds

end World

namespace Tearing

open Reporting

/-! ### The round -/

variable {names : List String} {name : String}

/-- A world with some documents, in which some attributes are false. -/
def initial (names : List String) (documents : List PolicyDocument := []) : World where
  attributes := names.map fun name => (name, { value := .ofBool false })
  retrieval := { value := { documents } }

lemma open_initial (names : List String) (documents : List PolicyDocument) :
    (initial names documents).Open := by
  intro topic
  cases topic with
  | retrieval => rfl
  | configuration => rfl
  | ofAttribute name =>
    rw [World.read, initial, lookup_map_const]
    split <;> rfl

lemma known_initial (hname : name ∈ names) : ((initial names).attributes.lookup name).isSome := by
  rw [initial, lookup_map_const, if_pos hname]
  rfl

lemma holds_initial (hname : name ∈ names) : (initial names).Holds name false := by
  rw [World.Holds, World.read, initial, lookup_map_const, if_pos hname]
  rfl

/-- The publications before `z`: of `x`, which becomes true at once if it is not
`z`, and of `y`. -/
def early (x y z : String) (i j : Nat) : List (String × Value) :=
  (List.replicate (i + 1) x).map (·, .ofBool (z ≠ x)) ++
    (List.replicate (j + 1) y).map (·, .ofBool true)

/-- The publications of `z` and of whatever follows. -/
def late (z : String) (more : List String) : List (String × Value) :=
  (z :: more).map (·, .ofBool true)

/-- The policy reports `y` and the follower of `x` and `z`; all three are false
first and true at last. -/
def round (x y z : String) (i j : Nat) (more : List String) : Round where
  point := Reporting.point [x, y, z] (published y) (follower x z)
  subscription := anyone
  session := { world := initial [x, y, z] }
  id := "reader"
  earlier := []
  published := early x y z i j ++ late z more

section Round

variable {x y z : String} {i j : Nat} {more : List String} {p : String × Value}

lemma mem_early : p ∈ early x y z i j ↔ p = (x, .ofBool (z ≠ x)) ∨ p = (y, .ofBool true) := by
  simp [early, List.map_replicate, List.mem_replicate]

lemma mem_late : p ∈ late z more ↔ p.1 ∈ z :: more ∧ p.2 = .ofBool true := by
  obtain ⟨name, value⟩ := p
  simp only [late, List.mem_map, Prod.mk.injEq]
  constructor
  · rintro ⟨n, hn, rfl, rfl⟩
    exact ⟨hn, rfl⟩
  · rintro ⟨hn, rfl⟩
    exact ⟨name, hn, rfl, rfl⟩

/-- At last all attributes are true. -/
lemma holds_last (hname : name ∈ [x, y, z]) :
    ((initial [x, y, z]).publishAll (early x y z i j ++ late z more)).Holds name true := by
  by_cases hz : name = z
  · subst hz
    rw [World.publishAll_append]
    refine World.holds_publishAll_of_mem (mem_late.mpr ⟨List.mem_cons_self, rfl⟩)
      (fun p hp _ => (mem_late.mp hp).2) ?_
    rw [World.isSome_lookup_publishAll]
    exact known_initial hname
  · -- Before `z` only `z` itself is published as false.
    have htrue (p : String × Value) (hp : p ∈ early x y z i j ++ late z more) (hpz : p.1 ≠ z) :
        p.2 = .ofBool true := by
      rcases List.mem_append.mp hp with hp | hp
      · rcases mem_early.mp hp with rfl | rfl
        · simp [Ne.symm hpz]
        · rfl
      · exact (mem_late.mp hp).2
    have hmem : (name, Value.ofBool true) ∈ early x y z i j := by
      refine mem_early.mpr ?_
      simp only [List.mem_cons, List.not_mem_nil, or_false] at hname
      rcases hname with rfl | rfl | rfl
      · simp [Ne.symm hz]
      · exact .inr rfl
      · exact absurd rfl hz
    exact World.holds_publishAll_of_mem (List.mem_append_left _ hmem)
      (fun p hp hpname => htrue p hp (hpname ▸ hz)) (known_initial hname)

/-- Before `z` is published it is false. -/
lemma holds_early (hyz : y ≠ z) {before : List (String × Value)}
    (hbefore : before <+: early x y z i j) :
    ((initial [x, y, z]).publishAll before).Holds z false := by
  refine (holds_initial (by simp)).publishAll (fun p hp hname => ?_) (known_initial (by simp))
  rcases mem_early.mp (hbefore.subset hp) with rfl | rfl
  · obtain rfl : x = z := hname
    simp
  · exact absurd hname hyz

/-- From the publication of `z` on `y` is true. -/
lemma holds_late (hxy : x ≠ y) {before : List (String × Value)}
    (hearly : early x y z i j <+: before)
    (hbefore : before <+: early x y z i j ++ late z more) :
    ((initial [x, y, z]).publishAll before).Holds y true := by
  refine World.holds_publishAll_of_mem (hearly.subset (mem_early.mpr (.inr rfl)))
    (fun p hp hname => ?_) (known_initial (by simp))
  rcases List.mem_append.mp (hbefore.subset hp) with hp | hp
  · rcases mem_early.mp hp with rfl | rfl
    · exact absurd hname hxy
    · rfl
  · exact (mem_late.mp hp).2

/-- In every snapshot the attributes have truth values. -/
lemma exists_holds {before : List (String × Value)} (hname : name ∈ [x, y, z])
    (hbefore : before <+: early x y z i j ++ late z more) :
    ∃ b, ((initial [x, y, z]).publishAll before).Holds name b := by
  refine (holds_initial hname).exists_publishAll (fun p hp => ?_) (known_initial hname)
  rcases List.mem_append.mp (hbefore.subset hp) with hp | hp
  · rcases mem_early.mp hp with rfl | rfl
    · exact ⟨_, rfl⟩
    · exact ⟨_, rfl⟩
  · exact ⟨true, (mem_late.mp hp).2⟩

lemma immediate_round : (round x y z i j more).point.Immediate := immediate_point ..

lemma start_round : (round x y z i j more).start.world = initial [x, y, z] :=
  (Round.start_of_earlier_nil immediate_round (open_initial _ _) rfl).1

/-- The follower of `x` and `z` is woken first. -/
lemma round_retells (hxy : x ≠ y) :
    (round x y z i j more).stream.Retells (initial [x, y, z])
      ((initial [x, y, z]).publishAll (round x y z i j more).published)
      (round x y z i j more).topics (.decision (report false false))
      [.decision (report false true), .decision (report true true)] := by
  have hopen := open_initial [x, y, z] []
  have hopen' := hopen.publishAll (round x y z i j more).published
  have hafter := (initial [x, y, z]).after_publishAll (round x y z i j more).published
  have hx : x ∈ [x, y, z] := by simp
  have hy : y ∈ [x, y, z] := by simp
  have hz : z ∈ [x, y, z] := by simp
  have hfirst := published_retells hopen hy (holds_initial hy) (holds_last hy) hafter
  have hsecond := follower_retells hopen hopen' hx hz (fun _ => holds_initial)
    (fun _ => holds_last) hafter
  have hhead : (round x y z i j more).topics.head? = some (.ofAttribute x) := rfl
  refine (decide_retells (hfirst.pair hsecond hhead ?_ ?_)).map Delivery.decision
  · rw [subscriptions_published hopen hy, if_neg]
    exact fun h => hxy (Topic.ofAttribute.inj h).symm
  · rw [subscriptions_follower hopen hx hz (holds_initial hx), if_pos rfl]
    omega

/-- The round is as it should be. -/
theorem round_admissible (hxy : x ≠ y) (hyz : y ≠ z) : (round x y z i j more).Admissible where
  immediate := immediate_round
  isOpen := open_initial _ _
  faithful := Round.faithful_of_earlier_nil immediate_round (open_initial _ _) rfl
    (round_retells hxy).faithful
  readsOnce before hbefore name := by
    have hx : x ∈ [x, y, z] := by simp
    have hy : y ∈ [x, y, z] := by simp
    have hz : z ∈ [x, y, z] := by simp
    have hopen := (open_initial [x, y, z] []).publishAll before
    obtain ⟨a, ha⟩ := exists_holds hx hbefore
    rw [Round.snapshot, start_round, Round.stream, Stream.subscriptions_drained_map]
    refine (subscriptions_decide ..).trans_le ?_
    rw [subscriptions_published hopen hy, subscriptions_follower hopen hx hz ha]
    grind

/-- One of its decisions is for the new value of `x` and `z` and the old one of `y`,
which never held together. -/
theorem round_torn (hxy : x ≠ y) (hyz : y ≠ z) : ¬(round x y z i j more).Consistent := by
  intro hconsistent
  have hadmissible : (round x y z i j more).Admissible := round_admissible hxy hyz
  have hdelivered := hadmissible.delivered_eq.2
  rw [Round.snapshot, start_round, (round_retells hxy).news] at hdelivered
  obtain ⟨before, d, hbefore, hd, rest, others, hrun⟩ :=
    hconsistent (.decision (report false true)) (by rw [hdelivered]; exact List.mem_cons_self)
  rw [Round.snapshot, start_round] at hrun
  have hopen := (open_initial [x, y, z] []).publishAll before
  have hx : x ∈ [x, y, z] := by simp
  have hy : y ∈ [x, y, z] := by simp
  have hz : z ∈ [x, y, z] := by simp
  obtain ⟨a, ha⟩ := exists_holds hx hbefore
  obtain ⟨b, hb⟩ := exists_holds hy hbefore
  obtain ⟨c, hc⟩ := exists_holds hz hbefore
  have hshows := decide_shows (published_shows hopen hy hb) (follower_shows hopen hx hz ha hc)
  have hreport := hshows.eq_of_run hrun
  rw [← Delivery.decision.inj hd] at hreport
  obtain ⟨rfl, htrue⟩ := report_injective hreport
  rcases List.prefix_or_prefix_of_prefix hbefore (List.prefix_append ..) with hearly | hlate
  · rw [hc.unique (holds_early hyz hearly), Bool.and_false] at htrue
    exact Bool.false_ne_true htrue.symm
  · exact Bool.false_ne_true (hb.unique (holds_late hxy hlate hbefore))

end Round

end Tearing

/-! ### Orders of publications -/

/-- A list starts with a block of its first entry. -/
lemma exists_block {γ : Type*} [DecidableEq γ] (a : γ) (rest : List γ) :
    ∃ i more, a :: rest = List.replicate (i + 1) a ++ more ∧ more.head? ≠ some a := by
  induction rest with
  | nil => exact ⟨0, [], rfl, by simp⟩
  | cons b rest ih =>
    by_cases h : b = a
    · subst h
      obtain ⟨i, more, heq, hmore⟩ := ih
      refine ⟨i + 1, more, ?_, hmore⟩
      rw [List.replicate_succ, List.cons_append, ← heq]
    · exact ⟨0, b :: rest, rfl, by simpa using h⟩

/-- A list of more than two blocks starts with three. -/
lemma exists_third {γ : Type*} [DecidableEq γ] [Nonempty γ] (names : List γ)
    (h : ¬∃ x y i j, names = List.replicate i x ++ List.replicate j y) :
    ∃ x y z i j more, x ≠ y ∧ y ≠ z ∧
      names = List.replicate (i + 1) x ++ (List.replicate (j + 1) y ++ z :: more) := by
  cases names with
  | nil => exact absurd ⟨Classical.arbitrary γ, Classical.arbitrary γ, 0, 0, rfl⟩ h
  | cons x rest =>
    obtain ⟨i, later, heq, hlater⟩ := exists_block x rest
    rw [heq] at h ⊢
    cases later with
    | nil => exact absurd ⟨x, x, i + 1, 0, rfl⟩ h
    | cons y rest =>
      obtain ⟨j, more, heq', hmore⟩ := exists_block y rest
      rw [heq'] at h ⊢
      cases more with
      | nil => exact absurd ⟨x, y, i + 1, j + 1, by rw [List.append_nil]⟩ h
      | cons z more =>
        refine ⟨x, y, z, i, j, more, ?_, ?_, rfl⟩
        · rintro rfl
          exact hlater rfl
        · rintro rfl
          exact hmore rfl

namespace Round

/-- Rounds are consistent whatever the policies and values are exactly if at most
two attributes are published, all of one before all of the other. -/
theorem consistent_iff (names : List String) :
    (∀ r : Round, r.published.map Prod.fst = names → r.Admissible → r.Consistent) ↔
      ∃ x y i j, names = List.replicate i x ++ List.replicate j y := by
  constructor
  · intro hall
    by_contra hnames
    obtain ⟨x, y, z, i, j, more, hxy, hyz, rfl⟩ := exists_third names hnames
    refine Tearing.round_torn hxy hyz (hall (Tearing.round x y z i j more) ?_
      (Tearing.round_admissible hxy hyz))
    simp [Tearing.round, Tearing.early, Tearing.late, Function.comp_def]
  · rintro ⟨x, y, i, j, rfl⟩ r hnames hadmissible
    obtain ⟨first, second, hpublished, hfirst, hsecond⟩ := List.map_eq_append_iff.mp hnames
    refine hadmissible.consistent_of_two (x := x) (y := y) hpublished (fun p hp => ?_)
      (fun p hp => ?_)
    · have hmem := List.mem_map_of_mem (f := Prod.fst) hp
      rw [hfirst] at hmem
      exact List.eq_of_mem_replicate hmem
    · have hmem := List.mem_map_of_mem (f := Prod.fst) hp
      rw [hsecond] at hmem
      exact List.eq_of_mem_replicate hmem

end Round

namespace Tearing

open Reporting

/-! Three publications for a policy that permits and one that denies. -/

/-- While `a` holds the level is permitted, and while `b` holds the lock denies
everything; `b` is published before `a` becomes true. -/
def levelAndLock : Round where
  point := .watching .empty (.watching ["a", "b"]) []
  subscription := ⟨.string "alice", .string "read", .string "doc", none⟩
  session := { world := initial ["a", "b"] [
    .policy ⟨"level", .permit, none, [.condition (published "a")], [], [], none⟩,
    .policy ⟨"lock", .deny, none, [.condition (published "b")], [], [], none⟩] }
  id := "s"
  earlier := []
  published := [("a", .ofBool false), ("b", .ofBool true), ("a", .ofBool true)]

lemma levelAndLock_snapshots {before : List (String × Value)}
    (h : before <+: levelAndLock.published) :
    before = [] ∨ before = [("a", .ofBool false)] ∨
      before = [("a", .ofBool false), ("b", .ofBool true)] ∨ before = levelAndLock.published := by
  have hmem := (List.mem_inits before levelAndLock.published).mpr h
  simpa [levelAndLock] using hmem

lemma levelAndLock_immediate : levelAndLock.point.Immediate :=
  ⟨.inr rfl, .inr rfl, FinderRegistry.immediate_watching _⟩

lemma levelAndLock_admissible : levelAndLock.Admissible where
  immediate := levelAndLock_immediate
  isOpen := open_initial _ _
  faithful := by
    refine Round.faithful_of_earlier_nil levelAndLock_immediate (open_initial _ _) rfl ?_
    cbv
    refine ⟨⟨⟨fun _ => ?_, fun _ => ?_, trivial⟩, ?_⟩, ?_⟩
    · cbv
      exact ⟨eq_of_mem_of_differs (by decide), trivial⟩
    · cbv
      exact ⟨eq_of_mem_of_differs (by decide), trivial⟩
    · exact ⟨eq_of_mem_of_differs (by decide), eq_of_mem_of_differs (by decide), trivial⟩
    · exact ⟨eq_of_mem_of_differs (by decide), eq_of_mem_of_differs (by decide), trivial⟩
  readsOnce before hbefore name := by
    by_cases ha : name = "a"
    · subst ha
      rcases levelAndLock_snapshots hbefore with rfl | rfl | rfl | rfl <;> cbv
    · by_cases hb : name = "b"
      · subst hb
        rcases levelAndLock_snapshots hbefore with rfl | rfl | rfl | rfl <;> cbv
      · have ha' : ¬Topic.ofAttribute "a" = .ofAttribute name := by simpa using Ne.symm ha
        have hb' : ¬Topic.ofAttribute "b" = .ofAttribute name := by simpa using Ne.symm hb
        rcases levelAndLock_snapshots hbefore with rfl | rfl | rfl | rfl <;> cbv <;>
          rw [if_neg ha', if_neg hb'] <;> exact Nat.zero_le _

/-- At no moment the two policies permit together. -/
lemma levelAndLock_shows {before : List (String × Value)}
    (hbefore : before <+: levelAndLock.published) :
    ∃ d, (levelAndLock.point.decide levelAndLock.subscription).Shows
      (levelAndLock.snapshot before) d ∧ d.decision ≠ .permit := by
  rcases levelAndLock_snapshots hbefore with rfl | rfl | rfl | rfl
  · exact ⟨.plain .notApplicable, by rw [Stream.Shows]; cbv, by decide⟩
  · exact ⟨.plain .notApplicable, by rw [Stream.Shows]; cbv, by decide⟩
  · exact ⟨.plain .deny, by rw [Stream.Shows]; cbv, by decide⟩
  · exact ⟨.plain .deny, by rw [Stream.Shows]; cbv, by decide⟩

/-- The reader is permitted and then denied, although the policies permit at no
moment. -/
theorem levelAndLock_torn :
    levelAndLock.Admissible ∧
      levelAndLock.delivered = [.decision (.plain .permit), .decision (.plain .deny)] ∧
      ¬levelAndLock.Consistent := by
  have hdelivered : levelAndLock.delivered
      = [.decision (.plain .permit), .decision (.plain .deny)] := by
    cbv
  refine ⟨levelAndLock_admissible, hdelivered, fun hconsistent => ?_⟩
  obtain ⟨before, d, hbefore, hd, rest, more, hrun⟩ :=
    hconsistent (.decision (.plain .permit)) (by rw [hdelivered]; exact List.mem_cons_self)
  obtain rfl := Delivery.decision.inj hd
  obtain ⟨d, hshows, hne⟩ := levelAndLock_shows hbefore
  rw [← hshows.eq_of_run hrun] at hne
  exact hne rfl

end Tearing

end Verdict
