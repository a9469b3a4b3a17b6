/-
The latest items of several streams.

A combination asks its inputs in the order of a queue and delivers, from the moment
when every input has delivered something, one list for each item that arrives: the
last item of each input.  However the combination is read and whatever it is told,
no item is lost, none is taken twice, and none is passed over for a newer one.

* `latestLists`: the lists that belong to arrivals in some order.
* `Child.take`: a child of a selection after it was asked several times.
* `Child.exists_asked`: a read of a selection asks each child so many times.
* `Stream.Attended`: how the inputs of a merge stand behind turns.
* `Stream.exists_combined`: the turns and the arrivals behind those of a combination.
* `Stream.combineLatest_of_arrivals`: what a combination delivers, and when it ends.
-/
import Mathlib.Data.List.Induction
import Mathlib.Data.List.Infix
import Verdict.Proofs.Stream.Matching
import Verdict.Proofs.Stream.Sleep
import Verdict.Proofs.Stream.Turns

namespace Verdict

variable {α : Type}

/-! ### The lists of a combination -/

/-- The last item of each of `n` slots, if every slot has one. -/
def latestItems? (n : Nat) (arrivals : List (Nat × α)) : Option (List α) :=
  (List.range n).mapM fun slot => (itemsOf slot arrivals).getLast?

/-- One list for each arrival from that one on with which every slot has an item. -/
def latestLists (n : Nat) (arrivals : List (Nat × α)) : List (List α) :=
  arrivals.inits.filterMap (latestItems? n)

lemma latestItems?_eq_mapM_id (n : Nat) (arrivals : List (Nat × α)) :
    latestItems? n arrivals
      = ((List.range n).map fun slot => (itemsOf slot arrivals).getLast?).mapM id := by
  rw [latestItems?, List.mapM_map]
  rfl

/-- The list has one item of each slot, the last one. -/
lemma latestItems?_eq_some_iff {n : Nat} {arrivals : List (Nat × α)} {items : List α} :
    latestItems? n arrivals = some items ↔
      items.length = n ∧ ∀ slot < n, (itemsOf slot arrivals).getLast? = items[slot]? := by
  rw [latestItems?_eq_mapM_id, mapM_id_eq_some_iff]
  constructor
  · intro heq
    refine ⟨by simpa using (congrArg List.length heq).symm, fun slot hslot => ?_⟩
    have h := congrArg (·[slot]?) heq
    simp only [List.getElem?_map, List.getElem?_range hslot, Option.map_some] at h
    cases hitem : items[slot]? with
    | none => rw [hitem] at h; exact absurd h (by simp)
    | some a => rw [hitem] at h; exact Option.some.inj h
  · rintro ⟨rfl, hlast⟩
    refine List.ext_getElem (by simp) fun slot hslot _ => ?_
    rw [List.length_map, List.length_range] at hslot
    simp [hlast slot hslot]

lemma stateAfter_latestStep_replicate (n : Nat) (arrivals : List (Nat × α)) :
    stateAfter latestStep (List.replicate n none) arrivals
      = (List.range n).map fun slot => (itemsOf slot arrivals).getLast? := by
  refine List.ext_getElem? fun slot => ?_
  rw [getElem?_stateAfter_latestStep, List.getElem?_map]
  by_cases hslot : slot < n
  · rw [List.getElem?_replicate, if_pos hslot, List.getElem?_range hslot]
    simp
  · rw [List.getElem?_replicate, if_neg hslot,
      List.getElem?_eq_none (by rw [List.length_range]; omega)]
    rfl

lemma latestLists_concat (n : Nat) (arrivals : List (Nat × α)) (item : Nat × α) :
    latestLists n (arrivals ++ [item])
      = latestLists n arrivals ++ (latestItems? n (arrivals ++ [item])).toList := by
  rw [latestLists, latestLists, List.inits_append, List.filterMap_append]
  cases hitems : latestItems? n (arrivals ++ [item]) <;> simp [hitems]

/-- The last list of a combination has the last item of each slot. -/
lemma getLast?_latestLists {n : Nat} (hn : 0 < n) {arrivals : List (Nat × α)} {items : List α}
    (h : latestItems? n arrivals = some items) :
    (latestLists n arrivals).getLast? = some items := by
  induction arrivals using List.reverseRec with
  | nil =>
    rw [latestItems?_eq_some_iff] at h
    obtain ⟨rfl, hlast⟩ := h
    have hfirst := hlast 0 hn
    rw [itemsOf_nil, List.getLast?_nil, List.getElem?_eq_getElem hn] at hfirst
    cases hfirst
  | append_singleton arrivals item =>
    rw [latestLists_concat, h, Option.toList_some, List.getLast?_concat]

/-- What the stage of a combination lets through. -/
lemma passed_latestStep_replicate {n : Nat} (hn : 0 < n) (arrivals : List (Nat × α)) :
    passed latestStep (List.replicate n none) arrivals = latestLists n arrivals := by
  induction arrivals using List.reverseRec with
  | nil =>
    have hnone : latestItems? n ([] : List (Nat × α)) = none := by
      rw [latestItems?_eq_mapM_id]
      exact mapM_id_eq_none (List.mem_map.mpr ⟨0, List.mem_range.mpr hn, rfl⟩)
    rw [passed_nil, latestLists, List.inits, List.filterMap_cons_none hnone, List.filterMap_nil]
  | append_singleton arrivals item ih =>
    rw [passed_append, ih, latestLists_concat, latestItems?_eq_mapM_id,
      ← stateAfter_latestStep_replicate, stateAfter_append]
    exact congrArg _ (List.append_nil _)

lemma itemsOf_append (slot : Nat) (items more : List (Nat × α)) :
    itemsOf slot (items ++ more) = itemsOf slot items ++ itemsOf slot more :=
  List.filterMap_append

/-! ### Children that are asked several times -/

namespace Child

/-- What a child delivers that is asked so many times, and what is left of it. -/
def take : Child α → Nat → List α × Option (Stream α)
  | gone, 0 => ([], some Stream.ended)
  | gone, _ + 1 => ([], none)
  | idle s, _ => ([], some s)
  | ready s r, count => r.take s count

/-- The stream that stands in the slot of a child that was asked. -/
def behind (child : Child α) (count : Nat) : Stream α := (child.take count).2.getD Stream.ended

/-- Asked so many times, the child has said that it waits or has ended. -/
def Done (child : Child α) (count : Nat) : Prop :=
  match child with
  | gone => 0 < count
  | idle _ => True
  | ready _ r => r.length < count

/-- Asked so many times, the child is known to have ended. -/
def Over (child : Child α) (count : Nat) : Prop :=
  match child with
  | gone => True
  | idle _ => False
  | ready s r => (r.take s count).2 = none

lemma fst_take_gone (times : Nat) : ((gone : Child α).take times).1 = [] := by
  cases times <;> rfl

lemma behind_gone (times : Nat) : (gone : Child α).behind times = .ended := by
  cases times <;> rfl

lemma behind_zero (child : Child α) : child.behind 0 = child.stream := by
  cases child with
  | gone => rfl
  | idle s => rfl
  | ready s r => cases r <;> rfl

/-- In a read of a selection the children are asked so many times each; `read` is what
was read and what is left, and `queue'` the queue behind it. -/
structure Asked (children : List (Child α)) (queue : List Nat) (count : Nat) (asked : Nat → Nat)
    (queue' : List Nat) (read : List (Nat × α) × Option (Stream (Nat × α))) : Prop where
  items : ∀ (i : Nat) (child : Child α), children[i]? = some child →
    itemsOf i read.1 = (child.take (asked i)).1
  slots : ∀ item ∈ read.1, item.1 < children.length
  idle : ∀ (i : Nat) (child : Child α), children[i]? = some child →
    ∀ s, child = idle s → asked i = 0
  /-- Whoever leaves the queue has said why. -/
  done : ∀ (i : Nat) (child : Child α), children[i]? = some child → i ∈ queue → i ∉ queue' →
    child.Done (asked i)
  left : (read.2 = none ∧ queue' = [] ∧
      ∀ (i : Nat) (child : Child α), children[i]? = some child → child.Over (asked i)) ∨
    (read.2 = some (.select (StreamList.ofList
        (children.mapIdx fun i child => child.behind (asked i))) queue') ∧
      (read.1.length < count → queue' = []) ∧
      (0 < count → ∃ (i : Nat) (child : Child α), children[i]? = some child ∧
        ¬ child.Over (asked i)))

lemma asked_zero (children : List (Child α)) (queue : List Nat) :
    Asked children queue 0 (fun _ => 0) queue
      ([], some (.select (streams children) queue)) where
  items i child hi := by
    cases child with
    | gone => rfl
    | idle s => rfl
    | ready s r => cases r <;> rfl
  slots := by simp
  idle _ _ _ _ _ := rfl
  done i child hi hmem hnot := absurd hmem hnot
  left := by
    refine .inr ⟨?_, fun h => absurd h (Nat.not_lt_zero _), fun h => absurd h (Nat.lt_irrefl 0)⟩
    have hslots : (children.mapIdx fun _ child => child.behind 0) = children.map stream := by
      refine List.ext_getElem? fun i => ?_
      rw [List.getElem?_mapIdx, List.getElem?_map]
      cases children[i]? with
      | none => rfl
      | some child => exact congrArg some child.behind_zero
    rw [hslots, streams]

/-- What holds of the children behind a read that goes on with another child in one place
holds of them from the start, if it does so in that place. -/
lemma forall_of_set {children : List (Child α)} {i : Nat} {old new : Child α}
    {asked : Nat → Nat} {times : Nat} {P Q : Nat → Child α → Nat → Prop}
    (hold : children[i]? = some old)
    (h : ∀ (j : Nat) (child : Child α), (children.set i new)[j]? = some child →
      P j child (asked j))
    (hself : P i new (asked i) → Q i old times)
    (hother : ∀ j child, j ≠ i → P j child (asked j) → Q j child (asked j))
    (j : Nat) (child : Child α) (hj : children[j]? = some child) :
    Q j child (Function.update asked i times j) := by
  by_cases hij : j = i
  · subst hij
    obtain rfl := Option.some.inj (hold.symm.trans hj)
    rw [Function.update_self]
    refine hself (h j new ?_)
    rw [List.getElem?_set, if_pos rfl, if_pos (List.getElem?_eq_some_iff.mp hj).1]
  · rw [Function.update_of_ne hij]
    refine hother j child hij (h j child ?_)
    rwa [List.getElem?_set, if_neg (Ne.symm hij)]

lemma mapIdx_behind_update {children : List (Child α)} {i : Nat} {old new : Child α}
    {asked : Nat → Nat} {times : Nat} (hold : children[i]? = some old)
    (hbehind : old.behind times = new.behind (asked i)) :
    ((children.set i new).mapIdx fun j child => child.behind (asked j))
      = children.mapIdx fun j child => child.behind (Function.update asked i times j) := by
  refine List.ext_getElem? fun j => ?_
  rw [List.getElem?_mapIdx, List.getElem?_mapIdx, List.getElem?_set]
  by_cases hij : j = i
  · subst hij
    rw [if_pos rfl, if_pos (List.getElem?_eq_some_iff.mp hold).1, hold, Option.map_some,
      Option.map_some, Function.update_self, hbehind]
  · rw [if_neg (Ne.symm hij), Function.update_of_ne hij]

lemma itemsOf_map_pair (i j : Nat) (given : List α) :
    itemsOf j (given.map (i, ·)) = if j = i then given else [] := by
  rw [itemsOf, List.filterMap_map]
  by_cases hj : j = i
  · subst hj
    simp
  · simp [hj, Ne.symm hj]

/-- The child at the front of the queue is asked, and then the others. -/
lemma Asked.of_set {children children' : List (Child α)} {i : Nat} {old new : Child α}
    {queue rest queue' : List Nat} {count total : Nat} {asked : Nat → Nat}
    {read : List (Nat × α) × Option (Stream (Nat × α))} (hold : children[i]? = some old)
    (h : Asked children' rest count asked queue' read) (hset : children' = children.set i new)
    (times : Nat) (given : List α)
    (hqueue : ∀ j ∈ queue, j ≠ i → j ∈ rest)
    (hitems : (old.take times).1 = given ++ (new.take (asked i)).1)
    (hbehind : old.behind times = new.behind (asked i))
    (hover : old.Over times ↔ new.Over (asked i)) (hidle : ∀ s, old = .idle s → times = 0)
    (hdone : i ∉ queue' → old.Done times)
    (htotal : total = given.length + count) (hlive : count = 0 → given ≠ [] → ¬ old.Over times) :
    Asked children queue total (Function.update asked i times) queue'
      (given.map (i, ·) ++ read.1, read.2) := by
  subst htotal hset
  constructor
  case items =>
    refine forall_of_set (P := fun j child n => itemsOf j read.1 = (child.take n).1)
      (Q := fun j child n => itemsOf j (given.map (i, ·) ++ read.1) = (child.take n).1)
      hold h.items (fun hself => ?_) fun j child hij hj => ?_
    · rw [itemsOf_append, itemsOf_map_pair, if_pos rfl, hself, hitems]
    · rw [itemsOf_append, itemsOf_map_pair, if_neg hij, List.nil_append, hj]
  case slots =>
    refine fun item hitem => (List.mem_append.mp hitem).elim (fun hmem => ?_) fun hmem => ?_
    · obtain ⟨a, -, rfl⟩ := List.mem_map.mp hmem
      exact (List.getElem?_eq_some_iff.mp hold).1
    · have hslot := h.slots item hmem
      rwa [List.length_set] at hslot
  case idle =>
    exact forall_of_set (P := fun _ child n => ∀ s, child = .idle s → n = 0)
      (Q := fun _ child n => ∀ s, child = .idle s → n = 0) hold h.idle (fun _ => hidle)
      fun _ _ _ => id
  case done =>
    exact forall_of_set (P := fun j child n => j ∈ rest → j ∉ queue' → child.Done n)
      (Q := fun j child n => j ∈ queue → j ∉ queue' → child.Done n) hold h.done
      (fun _ _ => hdone) fun j child hij hj hmem => hj (hqueue j hmem hij)
  case left =>
    rcases h.left with ⟨hnone, hempty, hall⟩ | ⟨hsome, hempty, hlives⟩
    · exact .inl ⟨hnone, hempty, forall_of_set (P := fun _ child n => child.Over n)
        (Q := fun _ child n => child.Over n) hold hall hover.mpr fun _ _ _ => id⟩
    · refine .inr ⟨by rw [hsome, mapIdx_behind_update hold hbehind], fun hless => hempty ?_,
        fun htotal => ?_⟩
      · rw [List.length_append, List.length_map] at hless
        omega
      · rcases Nat.eq_zero_or_pos count with rfl | hpos
        · refine ⟨i, old, hold, ?_⟩
          rw [Function.update_self]
          exact hlive rfl (List.ne_nil_of_length_pos htotal)
        · obtain ⟨j, child, hj, hgoes⟩ := hlives hpos
          rw [List.getElem?_set] at hj
          by_cases hij : j = i
          · subst hij
            rw [if_pos rfl, if_pos (List.getElem?_eq_some_iff.mp hold).1] at hj
            obtain rfl := Option.some.inj hj
            refine ⟨j, old, hold, ?_⟩
            rw [Function.update_self]
            exact fun h => hgoes (hover.mp h)
          · rw [if_neg (Ne.symm hij)] at hj
            refine ⟨j, child, hj, ?_⟩
            rw [Function.update_of_ne hij]
            exact hgoes

lemma over_zero_iff (child : Child α) : child.Over 0 ↔ child.isGone = true := by
  cases child with
  | gone => exact iff_of_true trivial rfl
  | idle s => exact iff_of_false id Bool.false_ne_true
  | ready s r => exact iff_of_false (by cases r <;> simp [Over, Run.take]) Bool.false_ne_true

/-- What a selection of the children gives with such a queue, and what it leaves behind. -/
def taken (children : List (Child α)) (queue : List Nat) (count : Nat) :
    List (Nat × α) × Option (Stream (Nat × α)) :=
  (schedule children queue).take (.select (streams children) queue) count

/-- With nobody in the queue no child is asked. -/
lemma asked_nil (children : List (Child α)) (count : Nat) :
    Asked children [] count (fun _ => 0) [] (taken children [] count) := by
  have hzero := asked_zero children []
  cases count with
  | zero => exact hzero
  | succ count =>
    have hslots : (.select (StreamList.ofList (children.mapIdx fun _ child => child.behind 0)) [])
        = (.select (streams children) [] : Stream (Nat × α)) := by
      rcases hzero.left with ⟨hnone, -⟩ | ⟨hsome, -⟩
      · exact absurd hnone (by simp)
      · exact (Option.some.inj hsome).symm
    rw [taken, schedule]
    split
    · rename_i hgone
      refine ⟨hzero.items, hzero.slots, hzero.idle, hzero.done,
        .inl ⟨rfl, rfl, fun i child hi => ?_⟩⟩
      exact child.over_zero_iff.mpr (List.all_eq_true.mp hgone child (List.mem_of_getElem? hi))
    · rename_i hgoes
      refine ⟨hzero.items, hzero.slots, hzero.idle, hzero.done,
        .inr ⟨congrArg some hslots.symm, fun _ => rfl, fun _ => ?_⟩⟩
      obtain ⟨child, hmem, hchild⟩ : ∃ child ∈ children, ¬ child.isGone = true := by
        simpa [List.all_eq_true] using hgoes
      obtain ⟨i, hi⟩ := List.mem_iff_getElem?.mp hmem
      exact ⟨i, child, hi, fun hover => hchild (child.over_zero_iff.mp hover)⟩

/-! The first child of the queue is asked, and what the others were asked after that is known. -/

section First

variable {children : List (Child α)} {i : Nat} {queue queue' : List Nat} {count : Nat}
  {asked : Nat → Nat}

lemma mem_rest_of_ne : ∀ j ∈ i :: queue, j ≠ i → j ∈ queue :=
  fun _ hj hij => (List.mem_cons.mp hj).resolve_left hij

/-- With one item left to read nobody is asked behind it. -/
lemma asked_item {stream s : Stream α} {a : α} {more : Run α}
    (hi : children[i]? = some (ready stream (.item a s more))) (hlast : count = 0 → asked i = 0)
    (h : Asked (children.set i (ready s more)) (queue ++ [i]) count asked queue'
      (taken (children.set i (ready s more)) (queue ++ [i]) count)) :
    Asked children (i :: queue) (count + 1) (Function.update asked i (asked i + 1)) queue'
      (taken children (i :: queue) (count + 1)) := by
  have hself : (children.set i (ready s more))[i]? = some (ready s more) := by
    rw [List.getElem?_set, if_pos rfl, if_pos (List.getElem?_eq_some_iff.mp hi).1]
  have hread : taken children (i :: queue) (count + 1)
      = ([a].map (i, ·) ++ (taken (children.set i (ready s more)) (queue ++ [i]) count).1,
        (taken (children.set i (ready s more)) (queue ++ [i]) count).2) := by
    rw [taken, schedule_item hi]
    rfl
  rw [hread]
  refine h.of_set hi rfl (asked i + 1) [a] ?_ rfl rfl Iff.rfl (fun _ h => absurd h (by simp)) ?_
    (Nat.add_comm count 1) ?_
  · exact fun j hj hij => List.mem_append_left _ (mem_rest_of_ne j hj hij)
  · intro hnot
    have hdone : more.length < asked i := h.done i _ hself (by simp) hnot
    exact Nat.succ_lt_succ hdone
  · intro hzero _ hover
    rw [hlast hzero] at hover
    exact absurd ((ready s more).over_zero_iff.mp hover) Bool.false_ne_true

lemma asked_pending {s s' : Stream α} (hi : children[i]? = some (ready s (.pending s')))
    (h : Asked (children.set i (idle s')) queue (count + 1) asked queue'
      (taken (children.set i (idle s')) queue (count + 1))) :
    Asked children (i :: queue) (count + 1) (Function.update asked i 1) queue'
      (taken children (i :: queue) (count + 1)) := by
  rw [taken, schedule_pending hi,
    Run.take_succ_of_start _ _ (.select (streams (children.set i (idle s'))) queue)]
  exact h.of_set hi rfl 1 [] mem_rest_of_ne rfl rfl (iff_of_false (by simp [Over, Run.take]) id)
    (fun _ h => absurd h (by simp)) (fun _ => Nat.one_pos) (Nat.zero_add _).symm
    fun _ hnil => absurd rfl hnil

lemma asked_ended {s : Stream α} (hi : children[i]? = some (ready s .ended))
    (h : Asked (children.set i gone) queue (count + 1) asked queue'
      (taken (children.set i gone) queue (count + 1))) :
    Asked children (i :: queue) (count + 1) (Function.update asked i 1) queue'
      (taken children (i :: queue) (count + 1)) := by
  rw [taken, schedule_ended hi,
    Run.take_succ_of_start _ _ (.select (streams (children.set i gone)) queue)]
  refine h.of_set hi rfl 1 [] mem_rest_of_ne ?_ ?_ (iff_of_true rfl trivial)
    (fun _ h => absurd h (by simp)) (fun _ => Nat.one_pos) (Nat.zero_add _).symm
    fun _ hnil => absurd rfl hnil
  · rw [fst_take_gone]
    rfl
  · rw [behind_gone]
    rfl

/-- A child that has been asked already is passed over. -/
lemma exists_asked_skip (hidle : ∀ s r, children[i]? ≠ some (ready s r))
    (h : Asked children queue (count + 1) asked queue' (taken children queue (count + 1))) :
    ∃ asked', Asked children (i :: queue) (count + 1) asked' queue'
      (taken children (i :: queue) (count + 1)) := by
  rw [taken, schedule_skip hidle, Run.take_succ_of_start _ _ (.select (streams children) queue)]
  cases hi : children[i]? with
  | none =>
    refine ⟨asked, h.items, h.slots, h.idle, fun j child hj hmem => ?_, h.left⟩
    refine h.done j child hj ((List.mem_cons.mp hmem).resolve_left ?_)
    rintro rfl
    exact absurd (hi.symm.trans hj) (by simp)
  | some child =>
    have hset : children = children.set i child := by
      obtain ⟨hlt, rfl⟩ := List.getElem?_eq_some_iff.mp hi
      exact (List.set_getElem_self hlt).symm
    cases child with
    | ready s r => exact absurd hi (hidle s r)
    | idle s =>
      exact ⟨_, h.of_set hi hset (asked i) [] mem_rest_of_ne rfl rfl Iff.rfl
        (fun _ _ => h.idle i _ hi s rfl) (fun _ => trivial) (Nat.zero_add _).symm
        fun _ hnil => absurd rfl hnil⟩
    | gone =>
      exact ⟨_, h.of_set hi hset (asked i + 1) [] mem_rest_of_ne
        (by rw [fst_take_gone, fst_take_gone]; rfl) (by rw [behind_gone, behind_gone]) Iff.rfl
        (fun _ h => absurd h (by simp)) (fun _ => Nat.succ_pos _) (Nat.zero_add _).symm
        fun _ hnil => absurd rfl hnil⟩

end First

/-- Reading a selection asks each of its children a number of times. -/
theorem exists_asked (children : List (Child α)) (queue : List Nat) (count : Nat) :
    ∃ asked queue', Asked children queue count asked queue' (taken children queue count) := by
  induction children, queue using schedule.induct generalizing count with
  | case1 children => exact ⟨_, _, asked_nil children count⟩
  | case2 children => exact ⟨_, _, asked_nil children count⟩
  | case3 children i queue stream a s more hi _ ih =>
    cases count with
    | zero => exact ⟨_, _, asked_zero children (i :: queue)⟩
    | succ count =>
      cases count with
      | zero => exact ⟨_, _, asked_item hi (fun _ => rfl) (asked_zero _ _)⟩
      | succ count =>
        obtain ⟨asked, queue', h⟩ := ih (count + 1)
        exact ⟨_, _, asked_item hi (fun hzero => absurd hzero (Nat.succ_ne_zero count)) h⟩
  | case4 children i queue s s' hi _ ih =>
    cases count with
    | zero => exact ⟨_, _, asked_zero children (i :: queue)⟩
    | succ count =>
      obtain ⟨asked, queue', h⟩ := ih (count + 1)
      exact ⟨_, _, asked_pending hi h⟩
  | case5 children i queue s hi _ ih =>
    cases count with
    | zero => exact ⟨_, _, asked_zero children (i :: queue)⟩
    | succ count =>
      obtain ⟨asked, queue', h⟩ := ih (count + 1)
      exact ⟨_, _, asked_ended hi h⟩
  | case6 children i queue hitem hpending hended ih =>
    cases count with
    | zero => exact ⟨_, _, asked_zero children (i :: queue)⟩
    | succ count =>
      obtain ⟨asked, queue', h⟩ := ih (count + 1)
      obtain ⟨asked', hskip⟩ := exists_asked_skip (not_ready hitem hpending hended) h
      exact ⟨_, _, hskip⟩

end Child

/-! ### The inputs of a merge -/

/-- The turns of an input that is asked so many times in a read. -/
def asking (w : World) (times : Nat) (h : List Turn) : List Turn :=
  if times = 0 then h else .read w (times - 1) :: h

lemma Attends.asking {h' h : List Turn} (hs : Attends h' h) (w : World) (times further : Nat) :
    Attends (asking w times h') (.read w further :: h) := by
  rw [Verdict.asking]
  split
  · exact .unasked w further hs
  · exact .asked w further _ hs

namespace Stream

/-- The streams that stand in the slots of inputs which have had these turns. -/
def remnants (ss : List (Stream α)) (parts : Nat → List Turn) : List (Stream α) :=
  ss.mapIdx fun i s => (s.left (parts i)).getD ended

/-- Behind the turns of a merge its inputs have had the given turns, and `queue` tells who
is to be asked. -/
structure Attended (ss : List (Stream α)) (h : List Turn) (parts : Nat → List Turn)
    (queue : List Nat) : Prop where
  attends : ∀ i, Attends (parts i) h
  items : ∀ (i : Nat) (s : Stream α), ss[i]? = some s →
    itemsOf i ((merge ss).delivered h) = s.delivered (parts i)
  slots : ∀ item ∈ (merge ss).delivered h, item.1 < ss.length
  queued : ∀ (i : Nat) (s : Stream α), ss[i]? = some s → s.awake (parts i) = true → i ∈ queue
  sleeps : (merge ss).awake h = false → queue = []
  left : ((merge ss).left h = none ∧ queue = [] ∧
      ∀ (i : Nat) (s : Stream α), ss[i]? = some s → s.left (parts i) = none) ∨
    ((merge ss).left h = some (.select (StreamList.ofList (remnants ss parts)) queue) ∧
      ∃ (i : Nat) (s : Stream α), ss[i]? = some s ∧ s.left (parts i) ≠ none)

/-! One input in a read. -/

section Asking

variable {s t : Stream α} {p : List Turn} {w : World} {inQueue : Bool} {child : Child α}
  {times : Nat}

lemma asking_of_left_eq_none (hleft : s.left p = none) (w : World) (times : Nat) :
    s.left (asking w times p) = none ∧ s.delivered (asking w times p) = s.delivered p := by
  rw [asking]
  split
  · exact ⟨hleft, rfl⟩
  · exact ⟨left_cons_of_left_eq_none _ hleft,
      by rw [delivered, given_cons_of_left_eq_none _ hleft, List.append_nil]⟩

lemma asking_of_left (hleft : s.left p = some t) (w : World) (times : Nat) :
    s.left (asking w times p) = ((t.run w).take t times).2 ∧
      s.delivered (asking w times p) = s.delivered p ++ ((t.run w).take t times).1 := by
  cases times with
  | zero =>
    have htake : (t.run w).take t 0 = ([], some t) := by cases t.run w <;> rfl
    rw [asking, if_pos rfl, hleft, htake, List.append_nil]
    exact ⟨rfl, rfl⟩
  | succ times =>
    rw [asking, if_neg (Nat.succ_ne_zero times), left_read_of_left hleft, delivered,
      given_read_of_left hleft]
    exact ⟨rfl, rfl⟩

/-- As a child an input does what it does on its own. -/
lemma take_start (hidle : ∀ u, Child.start w inQueue t = .idle u → times = 0) :
    (Child.start w inQueue t).take times = (t.run w).take t times := by
  rw [Child.start] at hidle ⊢
  split
  · rename_i hended
    rw [eq_ended_of_isEnded hended]
    cases times <;> rfl
  · rename_i hgoes
    rw [if_neg hgoes] at hidle
    split
    · rfl
    · rename_i hwaits
      rw [if_neg hwaits] at hidle
      rw [hidle t rfl]
      cases t.run w <;> rfl

variable (hidle : ∀ u, Child.start w inQueue ((s.left p).getD ended) = .idle u → times = 0)

include hidle

/-- What an input delivers, and what then stands in its slot. -/
lemma asking_start :
    s.delivered (asking w times p)
        = s.delivered p ++ ((Child.start w inQueue ((s.left p).getD ended)).take times).1 ∧
      (s.left (asking w times p)).getD ended
        = (Child.start w inQueue ((s.left p).getD ended)).behind times := by
  cases hleft : s.left p with
  | none =>
    obtain ⟨hnone, hdelivered⟩ := asking_of_left_eq_none hleft w times
    rw [hnone, hdelivered]
    cases times <;> exact ⟨(List.append_nil _).symm, rfl⟩
  | some t =>
    rw [hleft, Option.getD_some] at hidle
    obtain ⟨hrest, hdelivered⟩ := asking_of_left hleft w times
    rw [Option.getD_some, Child.behind, take_start hidle, hrest, hdelivered]
    exact ⟨rfl, rfl⟩

/-- An input that has said that it has ended counts as ended. -/
lemma over_of_left_eq_none (hended : s.left (asking w times p) = none) :
    (Child.start w inQueue ((s.left p).getD ended)).Over times := by
  cases hleft : s.left p with
  | none => trivial
  | some t =>
    rw [hleft, Option.getD_some] at hidle
    rw [(asking_of_left hleft w times).1, ← take_start hidle] at hended
    rw [Option.getD_some]
    cases hchild : Child.start w inQueue t with
    | gone => trivial
    | idle u =>
      rw [hchild] at hended
      exact absurd hended (Option.some_ne_none u)
    | ready u r =>
      rw [hchild] at hended
      exact hended

variable (hqueued : s.awake p = true → inQueue = true)

include hqueued

/-- An input that counts as ended has said so, at the latest when it left the queue. -/
lemma left_eq_none_of_over
    (hover : (Child.start w inQueue ((s.left p).getD ended)).Over times)
    (hdone : inQueue = true → (Child.start w inQueue ((s.left p).getD ended)).Done times) :
    s.left (asking w times p) = none := by
  cases hleft : s.left p with
  | none => exact (asking_of_left_eq_none hleft w times).1
  | some t =>
    rw [hleft, Option.getD_some] at hidle hover hdone
    rw [(asking_of_left hleft w times).1, ← take_start hidle]
    cases hchild : Child.start w inQueue t with
    | gone =>
      have hended : t.isEnded = true := by rw [← Child.isGone_start w inQueue t, hchild]; rfl
      have hpos : (Child.gone : Child α).Done times :=
        hchild ▸ hdone (hqueued (awake_of_isEnded hleft hended))
      obtain ⟨times, rfl⟩ := Nat.exists_eq_add_of_lt hpos
      rw [Nat.zero_add]
      rfl
    | idle u =>
      rw [hchild] at hover
      exact hover.elim
    | ready u r =>
      rw [hchild] at hover
      exact hover

/-- An input that is to be asked stays in the queue. -/
lemma not_done_of_awake (hawake : s.awake (asking w times p) = true) :
    inQueue = true ∧ ¬ (Child.start w inQueue ((s.left p).getD ended)).Done times := by
  have hgiven := (asking_start hidle).1
  cases times with
  | zero =>
    obtain rfl : inQueue = true := hqueued hawake
    refine ⟨rfl, ?_⟩
    rw [Child.start]
    split <;> exact Nat.not_lt_zero _
  | succ further =>
    rw [asking, if_neg (Nat.succ_ne_zero further), delivered, List.append_cancel_left_eq] at hgiven
    rw [asking, if_neg (Nat.succ_ne_zero further), awake, hgiven, decide_eq_true_eq] at hawake
    cases hchild : Child.start w inQueue ((s.left p).getD ended) with
    | gone => simp [hchild, Child.take] at hawake
    | idle u => exact absurd (hidle u hchild) (Nat.succ_ne_zero further)
    | ready u r =>
      have hin : inQueue = true := by
        rw [Child.start] at hchild
        cases inQueue with
        | true => rfl
        | false => split at hchild <;> simp at hchild
      refine ⟨hin, fun hdone => ?_⟩
      rw [hchild, Child.take, Run.fst_take, List.length_take, Run.length_toList] at hawake
      have hlast : r.length < further + 1 := hdone
      simp only [Nat.add_sub_cancel] at hawake
      omega

end Asking

/-! All inputs in a turn. -/

section Turns

variable {ss : List (Stream α)} {h : List Turn} {parts : Nat → List Turn} {queue : List Nat}

lemma getElem?_remnants (i : Nat) :
    (remnants ss parts)[i]? = ss[i]?.map fun s => (s.left (parts i)).getD ended :=
  List.getElem?_mapIdx

lemma attended_nil (hne : ss ≠ []) :
    Attended ss [] (fun _ => []) (List.range ss.length) where
  attends _ := .nil
  items _ _ _ := rfl
  slots := by simp [delivered]
  queued i s hs _ := List.mem_range.mpr (List.getElem?_eq_some_iff.mp hs).1
  sleeps hsleeps := absurd hsleeps Bool.noConfusion
  left := by
    obtain ⟨s, rest, rfl⟩ := List.exists_cons_of_ne_nil hne
    have hremnants : remnants (s :: rest) (fun _ => []) = s :: rest :=
      List.ext_getElem? fun i => by rw [getElem?_remnants]; exact congrFun Option.map_id _
    refine .inr ⟨?_, 0, s, rfl, Option.some_ne_none s⟩
    rw [hremnants]
    rfl

lemma map_notify_remnants (e : Event) :
    ((remnants ss parts).map fun s => (s.notify e).2)
      = remnants ss fun i => .told e :: parts i := by
  refine List.ext_getElem? fun i => ?_
  rw [List.getElem?_map, getElem?_remnants, getElem?_remnants, Option.map_map]
  refine congrArg (Option.map · _) (funext fun s => ?_)
  rw [Stream.left, Function.comp]
  cases s.left (parts i) <;> rfl

/-- An event reaches every input, and those that it wakes are to be asked. -/
lemma Attended.told (hs : Attended ss h parts queue) (e : Event) :
    ∃ queue', Attended ss (.told e :: h) (fun i => .told e :: parts i) queue' := by
  rcases hs.left with ⟨hnone, rfl, hall⟩ | ⟨hsome, i, s, hi, hgoes⟩
  · refine ⟨[], fun i => .told e (hs.attends i), fun i s hi => ?_, ?_, fun i s hi hawake => ?_,
      fun _ => rfl, .inl ⟨left_cons_of_left_eq_none _ hnone, rfl, fun i s hi =>
        left_cons_of_left_eq_none _ (hall i s hi)⟩⟩
    · rw [delivered_told, delivered_told]
      exact hs.items i s hi
    · rw [delivered_told]
      exact hs.slots
    · rw [awake, hall i s hi, Bool.or_eq_true] at hawake
      exact hs.queued i s hi (hawake.resolve_right Bool.false_ne_true)
  · refine ⟨enqueue queue (wokenBy e (remnants ss parts)), fun i => .told e (hs.attends i),
      fun i s hi => ?_, ?_, fun i s hi hawake => ?_, fun hsleeps => ?_,
      .inr ⟨?_, i, s, hi, ?_⟩⟩
    · rw [delivered_told, delivered_told]
      exact hs.items i s hi
    · rw [delivered_told]
      exact hs.slots
    · rw [mem_enqueue]
      rw [awake, Bool.or_eq_true] at hawake
      refine hawake.imp (hs.queued i s hi) fun hwoke => ?_
      rw [mem_wokenBy, getElem?_remnants, hi]
      refine ⟨_, rfl, ?_⟩
      cases hleft : s.left (parts i) with
      | none =>
        rw [hleft] at hwoke
        exact absurd hwoke Bool.false_ne_true
      | some t =>
        rw [hleft] at hwoke
        simpa [hleft] using hwoke
    · rw [awake, Bool.or_eq_false_iff, hsome, Option.map_some, Option.getD_some, notify_select,
        Bool.not_eq_false', List.isEmpty_iff] at hsleeps
      rw [hs.sleeps hsleeps.1, hsleeps.2]
      rfl
    · rw [left_told_of_left hsome, notify_select, map_notify_remnants]
    · rw [Stream.left]
      exact fun hnone => hgoes (Option.map_eq_none_iff.mp hnone)

/-- As the children of a merge the inputs start as they stand. -/
lemma getElem?_runs_remnants (w : World) (i : Nat) :
    ((StreamList.ofList (remnants ss parts)).runs w queue 0)[i]?
      = ss[i]?.map fun s =>
          Child.start w (decide (i ∈ queue)) ((s.left (parts i)).getD ended) := by
  rw [Child.getElem?_runs, getElem?_remnants, Option.map_map, Nat.zero_add]
  rfl

lemma streams_runs_remnants (w : World) :
    Child.streams ((StreamList.ofList (remnants ss parts)).runs w queue 0)
      = StreamList.ofList (remnants ss parts) := by
  refine congrArg StreamList.ofList (List.ext_getElem? fun i => ?_)
  rw [List.getElem?_map, getElem?_runs_remnants, getElem?_remnants, Option.map_map]
  exact congrArg (Option.map · _) (funext fun s => Child.stream_start w _ _)

lemma mapIdx_behind_remnants {w : World} {asked : Nat → Nat}
    (hidle : ∀ (i : Nat) (s : Stream α), ss[i]? = some s → ∀ u,
      Child.start w (decide (i ∈ queue)) ((s.left (parts i)).getD ended) = .idle u → asked i = 0) :
    (((StreamList.ofList (remnants ss parts)).runs w queue 0).mapIdx fun i child =>
        child.behind (asked i)) = remnants ss fun i => asking w (asked i) (parts i) := by
  refine List.ext_getElem? fun i => ?_
  rw [List.getElem?_mapIdx, getElem?_remnants, getElem?_runs_remnants]
  cases hi : ss[i]? with
  | none => rfl
  | some s => rw [Option.map_some, Option.map_some, Option.map_some,
      (asking_start (hidle i s hi)).2]

/-- The merge is read, and its inputs are asked as a read of its children asks them. -/
lemma Attended.of_asked (hs : Attended ss h parts queue)
    (hgoes : (merge ss).left h = some (.select (StreamList.ofList (remnants ss parts)) queue))
    {w : World} {further : Nat} {asked : Nat → Nat} {queue' : List Nat}
    (hasked : Child.Asked ((StreamList.ofList (remnants ss parts)).runs w queue 0) queue
      (further + 1) asked queue'
      (((Stream.select (StreamList.ofList (remnants ss parts)) queue).run w).take
        (.select (StreamList.ofList (remnants ss parts)) queue) (further + 1))) :
    Attended ss (.read w further :: h) (fun i => asking w (asked i) (parts i)) queue' := by
  have hchild {i : Nat} {s : Stream α} (hi : ss[i]? = some s) :
      ((StreamList.ofList (remnants ss parts)).runs w queue 0)[i]?
        = some (Child.start w (decide (i ∈ queue)) ((s.left (parts i)).getD ended)) := by
    rw [getElem?_runs_remnants, hi]
    rfl
  have hidle {i : Nat} {s : Stream α} (hi : ss[i]? = some s) (u : Stream α)
      (hu : Child.start w (decide (i ∈ queue)) ((s.left (parts i)).getD ended) = .idle u) :
      asked i = 0 := hasked.idle i _ (hchild hi) u hu
  have hqueued {i : Nat} {s : Stream α} (hi : ss[i]? = some s)
      (hawake : s.awake (parts i) = true) : decide (i ∈ queue) = true :=
    decide_eq_true (hs.queued i s hi hawake)
  refine ⟨fun i => (hs.attends i).asking w _ _, fun i s hi => ?_, ?_, fun i s hi hawake => ?_,
    fun hsleeps => ?_, ?_⟩
  · rw [delivered, given_read_of_left hgoes, itemsOf_append, hs.items i s hi,
      (asking_start (hidle hi)).1, hasked.items i _ (hchild hi)]
  · rw [delivered, given_read_of_left hgoes]
    refine fun item hitem => (List.mem_append.mp hitem).elim (hs.slots item) fun hmem => ?_
    have hslot := hasked.slots item hmem
    rwa [Child.length_runs, remnants, List.length_mapIdx] at hslot
  · obtain ⟨hin, hdone⟩ := not_done_of_awake (hidle hi) (hqueued hi) hawake
    by_contra hout
    exact hdone (hasked.done i _ (hchild hi) (of_decide_eq_true hin) hout)
  · rw [awake, given_read_of_left hgoes, decide_eq_false_iff_not] at hsleeps
    rcases hasked.left with ⟨-, hempty, -⟩ | ⟨-, hempty, -⟩
    · exact hempty
    · exact hempty (by omega)
  · rw [left_read_of_left hgoes]
    rcases hasked.left with ⟨hnone, rfl, hall⟩ | ⟨hsome, -, hlives⟩
    · exact .inl ⟨hnone, rfl, fun i s hi => left_eq_none_of_over (hidle hi) (hqueued hi)
        (hall i _ (hchild hi)) fun hin =>
          hasked.done i _ (hchild hi) (of_decide_eq_true hin) List.not_mem_nil⟩
    · have hremnants := mapIdx_behind_remnants fun _ _ hi => hidle hi
      obtain ⟨i, child, hi, hover⟩ := hlives (Nat.succ_pos further)
      rw [getElem?_runs_remnants, Option.map_eq_some_iff] at hi
      obtain ⟨s, hi, rfl⟩ := hi
      exact .inr ⟨by rw [hsome, hremnants], i, s, hi, fun hnone =>
        hover (over_of_left_eq_none (hidle hi) hnone)⟩

/-- In a read every input is asked a number of times. -/
lemma Attended.read (hs : Attended ss h parts queue) (w : World) (further : Nat) :
    ∃ parts' queue', Attended ss (.read w further :: h) parts' queue' ∧
      ∀ i, parts i <:+ parts' i := by
  rcases hs.left with ⟨hnone, rfl, hall⟩ | ⟨hgoes, -⟩
  · refine ⟨parts, [], ⟨fun i => .unasked w further (hs.attends i), fun i s hi => ?_, ?_, hs.queued,
      fun _ => rfl, .inl ⟨left_cons_of_left_eq_none _ hnone, rfl, hall⟩⟩, fun i =>
        List.suffix_refl _⟩
    · rw [delivered, given_cons_of_left_eq_none _ hnone, List.append_nil]
      exact hs.items i s hi
    · rw [delivered, given_cons_of_left_eq_none _ hnone, List.append_nil]
      exact hs.slots
  · obtain ⟨asked, queue', hasked⟩ := Child.exists_asked
      ((StreamList.ofList (remnants ss parts)).runs w queue 0) queue (further + 1)
    rw [Child.taken, streams_runs_remnants] at hasked
    refine ⟨_, queue', hs.of_asked hgoes hasked, fun i => ?_⟩
    rw [asking]
    split
    · exact List.suffix_refl _
    · exact List.suffix_cons _ _

end Turns

/-- However a merge is read, its inputs are asked in turns of their own. -/
theorem exists_attended {ss : List (Stream α)} (hne : ss ≠ []) :
    ∃ parts : List Turn → Nat → List Turn, ∀ h, (∃ queue, Attended ss h (parts h) queue) ∧
      ∀ m i, parts h i <:+ parts (m :: h) i := by
  refine exists_account (fun h parts => ∃ queue, Attended ss h parts queue)
    (fun parts parts' => ∀ i, parts i <:+ parts' i) ⟨_, _, attended_nil hne⟩
    fun m h parts ⟨queue, hs⟩ => ?_
  cases m with
  | told e =>
    obtain ⟨queue', htold⟩ := hs.told e
    exact ⟨_, ⟨queue', htold⟩, fun i => List.suffix_cons _ _⟩
  | read w further =>
    obtain ⟨parts', queue', hread, hsuffix⟩ := hs.read w further
    exact ⟨parts', ⟨queue', hread⟩, hsuffix⟩

/-! ### Combinations -/

/-- Behind the turns of a combination its inputs have had the given turns, and their items
have arrived in this order. -/
structure Combined (ss : List (Stream α)) (h : List Turn) (arrivals : List (Nat × α))
    (parts : Nat → List Turn) : Prop where
  delivered : (combineLatest ss).delivered h = latestLists ss.length arrivals
  /-- Every item has arrived, once and in its order. -/
  items : ∀ (i : Nat) (s : Stream α), ss[i]? = some s →
    itemsOf i arrivals = s.delivered (parts i)
  slots : ∀ item ∈ arrivals, item.1 < ss.length
  attends : ∀ i, Attends (parts i) h
  /-- A combination waits only for inputs that wait. -/
  sleeps : (combineLatest ss).awake h = false →
    ∀ (i : Nat) (s : Stream α), ss[i]? = some s → s.awake (parts i) = false
  ends : (combineLatest ss).left h = none ↔
    ∀ (i : Nat) (s : Stream α), ss[i]? = some s → s.left (parts i) = none

/-- Whatever happens to a combination, its inputs have turns of their own in which their items
arrive. -/
theorem exists_combined (first : Stream α) (others : List (Stream α)) :
    ∃ (arrivals : List Turn → List (Nat × α)) (parts : List Turn → Nat → List Turn),
      ∀ h, Combined (first :: others) h (arrivals h) (parts h) ∧
        ∀ m, arrivals h <+: arrivals (m :: h) ∧ ∀ i, parts h i <:+ parts (m :: h) i := by
  obtain ⟨source, hsource⟩ := exists_staged (isStage_scan latestStep)
    (List.replicate (first :: others).length none) (merge (first :: others))
  obtain ⟨parts, hparts⟩ := exists_attended (List.cons_ne_nil first others)
  refine ⟨fun h => (merge (first :: others)).delivered (source h), fun h => parts (source h),
    fun h => ⟨?_, fun m => ⟨delivered_grows _ ((hsource h).2 m), fun i =>
      suffix_of_suffix (fun h m => (hparts h).2 m i) ((hsource h).2 m)⟩⟩⟩
  obtain ⟨queue, hs⟩ := (hparts (source h)).1
  have hstaged := (hsource h).1
  refine ⟨?_, hs.items, hs.slots, fun i => (hs.attends i).trans hstaged.attends,
    fun hsleeps i s hi => ?_, ?_⟩
  · rw [combineLatest_cons, hstaged.delivered]
    exact passed_latestStep_replicate (Nat.succ_pos _) _
  · by_contra hawake
    have hmem := hs.queued i s hi (Bool.not_eq_false _ ▸ hawake)
    rw [hs.sleeps (hstaged.sleeps hsleeps)] at hmem
    exact List.not_mem_nil hmem
  · rw [combineLatest_cons, hstaged.left, Option.map_eq_none_iff]
    rcases hs.left with ⟨hnone, -, hall⟩ | ⟨hsome, i, s, hi, hgoes⟩
    · exact iff_of_true hnone hall
    · exact iff_of_false (by rw [hsome]; exact Option.some_ne_none _) fun hall =>
        hgoes (hall i s hi)

/-- A combination of inputs delivers the lists of the items that arrive from them, and
ends with the last of its inputs; one of nothing delivers one empty list and ends. -/
theorem combineLatest_of_arrivals (first : Stream α) (others : List (Stream α)) :
    (∃ (arrivals : List Turn → List (Nat × α)) (parts : List Turn → Nat → List Turn),
      ∀ h, Combined (first :: others) h (arrivals h) (parts h) ∧
        ∀ m, arrivals h <+: arrivals (m :: h) ∧ ∀ i, parts h i <:+ parts (m :: h) i) ∧
    ∀ w, (combineLatest ([] : List (Stream α))).run w = .item [] ended .ended :=
  ⟨exists_combined first others, fun _ => rfl⟩

end Stream
end Verdict
