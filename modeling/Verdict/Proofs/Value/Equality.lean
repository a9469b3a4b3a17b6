/-
Structural equality of values.

Two values in which no object names a member twice are structurally equal exactly if they
are of one kind and have equal parts in the same places, the places of an object being the
names of its members.  Numbers may differ in the sign of a zero.  On such values structural
equality is an equivalence.

* `Json.induction`: induction on the parts of a value.
* `Number.same_iff`: numbers are the same if they are identical or both the zero of doubles.
* `Json.same_object_iff`: objects are the same if the same names have the same values.
* `Json.Same`, `Value.Same`: values of distinct names that are structurally equal.
* `Json.Same.refl`, `symm`, `trans`: an equivalence.
* `Json.Same.pair`, `Value.Same.pair`: the shapes of two values that are the same.
-/
import Mathlib.Data.List.Forall2
import Mathlib.Data.List.Perm.Subperm
import Mathlib.Data.Option.Basic
import Verdict.Value.Operation

namespace Verdict

/-! ### Numbers -/

/-- Two doubles have the same value if they are identical or both are zeros. -/
lemma Binary64.sameValue_iff {x y : Binary64} :
    x.sameValue y = true ↔ x = y ∨ x.isZero = true ∧ y.isZero = true := by
  rw [Binary64.sameValue, Bool.or_eq_true, beq_iff_eq, Bool.and_eq_true]

namespace Number

/-- Numbers are structurally equal if they are identical, or both a zero among the doubles. -/
lemma same_iff {a b : Number} :
    a.same b = true ↔
      a = b ∨ ∃ x y, a = .real x ∧ b = .real y ∧ x.isZero = true ∧ y.isZero = true := by
  cases a with
  | integer m =>
    cases b with
    | integer n => simp [same]
    | real y => simp [same]
  | real x =>
    cases b with
    | integer n => simp [same]
    | real y => simp [same, Binary64.sameValue_iff]

lemma same_refl (a : Number) : a.same a = true := same_iff.mpr (.inl rfl)

lemma same_symm {a b : Number} (h : a.same b = true) : b.same a = true := by
  rcases same_iff.mp h with rfl | ⟨x, y, rfl, rfl, hx, hy⟩
  · exact h
  · exact same_iff.mpr (.inr ⟨y, x, rfl, rfl, hy, hx⟩)

lemma same_trans {a b c : Number} (h : a.same b = true) (h' : b.same c = true) :
    a.same c = true := by
  rcases same_iff.mp h with rfl | ⟨x, y, rfl, rfl, hx, -⟩
  · exact h'
  · rcases same_iff.mp h' with rfl | ⟨_, z, -, rfl, -, hz⟩
    · exact h
    · exact same_iff.mpr (.inr ⟨x, z, rfl, rfl, hx, hz⟩)

end Number

/-- Two optional values are related if both are absent, or both are there and related. -/
lemma optionRel_iff {γ δ : Type*} {R : γ → δ → Prop} {x : Option γ} {y : Option δ} :
    Option.Rel R x y ↔ (x = none ∧ y = none) ∨ ∃ a b, x = some a ∧ y = some b ∧ R a b := by
  constructor
  · intro h
    cases h with
    | none => exact .inl ⟨rfl, rfl⟩
    | some hab => exact .inr ⟨_, _, rfl, rfl, hab⟩
  · rintro (⟨rfl, rfl⟩ | ⟨a, b, rfl, rfl, hab⟩)
    · exact .none
    · exact .some hab

/-! ### Members by name -/

/-- The first entry of a name is the one that is found. -/
lemma lookup_cons_eq {γ : Type*} (key name : String) (entry : γ) (rest : List (String × γ)) :
    ((name, entry) :: rest).lookup key = if key = name then some entry else rest.lookup key := by
  rw [List.lookup_cons]
  by_cases h : key = name
  · rw [if_pos h, beq_iff_eq.mpr h]
  · rw [if_neg h, beq_false_of_ne h]

/-- Looking up among changed entries changes what is found. -/
lemma lookup_map {γ δ : Type*} (f : γ → δ) (key : String) (entries : List (String × γ)) :
    (entries.map fun (name, a) => (name, f a)).lookup key = (entries.lookup key).map f := by
  induction entries with
  | nil => rfl
  | cons entry rest ih =>
    obtain ⟨name, a⟩ := entry
    simp only [List.map_cons, lookup_cons_eq, ih]
    split <;> rfl

/-- Where every name of a list has the same entry, looking a name up finds it or nothing. -/
lemma lookup_map_const {γ : Type*} (name : String) (names : List String) (a : γ) :
    (names.map fun n => (n, a)).lookup name = if name ∈ names then some a else none := by
  induction names with
  | nil => rfl
  | cons other rest ih =>
    rw [List.map_cons, lookup_cons_eq, ih]
    by_cases h : name = other <;> simp [h]

/-- Where entries are kept by their names, a name is found as before or not at all. -/
lemma lookup_filter {γ : Type*} (keeps : String → Bool) (entries : List (String × γ))
    (key : String) :
    (entries.filter fun entry => keeps entry.1).lookup key
      = if keeps key then entries.lookup key else none := by
  induction entries with
  | nil => simp
  | cons entry rest ih =>
    obtain ⟨name, a⟩ := entry
    rw [List.filter_cons, lookup_cons_eq]
    by_cases hname : key = name
    · subst hname
      cases hkeeps : keeps key <;> simp [hkeeps, ih]
    · cases hkeeps : keeps name <;> simp [hname, ih, lookup_cons_eq]

namespace Json

/-! ### Parts -/

/-- What holds of a value if it holds of its parts holds of every value. -/
@[elab_as_elim]
theorem induction {P : Json → Prop} (null : P .null) (bool : ∀ b, P (.bool b))
    (number : ∀ n, P (.number n)) (string : ∀ s, P (.string s))
    (array : ∀ items : List Json, (∀ item ∈ items, P item) → P (.array items))
    (object : ∀ members : List (String × Json), (∀ m ∈ members, P m.2) → P (.object members))
    (value : Json) : P value :=
  @Json.rec P (fun items => ∀ item ∈ items, P item) (fun members => ∀ m ∈ members, P m.2)
    (fun m => P m.2) null bool number string (fun items => array items)
    (fun members => object members) (by simp)
    (fun _ _ hhead htail => List.forall_mem_cons.mpr ⟨hhead, htail⟩) (by simp)
    (fun _ _ hhead htail => List.forall_mem_cons.mpr ⟨hhead, htail⟩) (fun _ _ h => h) value

/-- No element of an array without repeated names has any. -/
lemma distinct_of_mem_items {items : List Json} (h : ItemsDistinct items) :
    ∀ item ∈ items, item.HasDistinctKeys := by
  induction items with
  | nil => simp
  | cons item rest ih => exact List.forall_mem_cons.mpr ⟨h.1, ih h.2⟩

lemma itemsDistinct_iff {items : List Json} :
    ItemsDistinct items ↔ ∀ item ∈ items, item.HasDistinctKeys := by
  refine ⟨distinct_of_mem_items, fun h => ?_⟩
  induction items with
  | nil => trivial
  | cons item rest ih =>
    exact ⟨h item List.mem_cons_self,
      ih fun other hother => h other (List.mem_cons_of_mem _ hother)⟩

/-- The values of members are without repeated names if each of them is. -/
lemma membersDistinct_iff {members : List (String × Json)} :
    MembersDistinct members ↔ ∀ m ∈ members, m.2.HasDistinctKeys := by
  induction members with
  | nil => simp [MembersDistinct]
  | cons m rest ih =>
    obtain ⟨key, value⟩ := m
    rw [MembersDistinct, ih, List.forall_mem_cons]

/-- What is found under a name has no repeated names. -/
lemma distinct_of_lookup {members : List (String × Json)} {key : String} {member : Json}
    (h : MembersDistinct members) (hkey : members.lookup key = some member) :
    member.HasDistinctKeys := by
  obtain ⟨before, behind, rfl, -⟩ := List.lookup_eq_some_iff.mp hkey
  exact membersDistinct_iff.mp h (key, member) (by simp)

/-! ### Members by their names -/

section Members

variable {γ : Type*} {members : List (String × γ)} {key : String} {value : γ}

/-- A name is among those of the members exactly if something is found under it. -/
lemma mem_keys_iff_lookup : key ∈ members.map Prod.fst ↔ members.lookup key ≠ none := by
  rw [Ne, List.lookup_eq_none_iff, List.mem_map]
  constructor
  · rintro ⟨m, hm, rfl⟩ hnone
    simpa using hnone m hm
  · intro hsome
    by_contra hout
    refine hsome fun m hm => ?_
    rw [bne_iff_ne]
    exact fun heq => hout ⟨m, hm, heq.symm⟩

/-- A member whose name comes only once is the one that its name finds. -/
lemma lookup_eq_some_iff_mem (h : (members.map Prod.fst).Nodup) :
    members.lookup key = some value ↔ (key, value) ∈ members := by
  constructor
  · intro hlookup
    obtain ⟨before, behind, rfl, -⟩ := List.lookup_eq_some_iff.mp hlookup
    simp
  · intro hmem
    obtain ⟨before, behind, rfl⟩ := List.append_of_mem hmem
    refine List.lookup_eq_some_iff.mpr ⟨before, behind, rfl, fun p hp => ?_⟩
    rw [List.map_append, List.map_cons, List.nodup_append] at h
    have hne := h.2.2 p.1 (List.mem_map_of_mem hp) key List.mem_cons_self
    simpa using hne.symm

end Members

/-! ### Equality by parts -/

/-- Elements are compared in order, and none may be left over. -/
lemma sameItems_iff {as bs : List Json} :
    sameItems as bs = true ↔ List.Forall₂ (fun a b => a.same b = true) as bs := by
  induction as generalizing bs with
  | nil => cases bs <;> simp [sameItems]
  | cons a as ih => cases bs <;> simp [sameItems, ih]

/-- Each member on the left has one on the right under its name; there may be more of these. -/
lemma sameMembers_iff {as bs : List (String × Json)} :
    sameMembers as bs = true ↔
      ∀ m ∈ as, ∃ b, bs.lookup m.1 = some b ∧ m.2.same b = true := by
  induction as with
  | nil => simp [sameMembers]
  | cons m as ih =>
    obtain ⟨key, a⟩ := m
    rw [sameMembers, Bool.and_eq_true, ih, List.forall_mem_cons]
    refine and_congr_left fun _ => ?_
    cases bs.lookup key <;> simp

section Objects

variable {as bs : List (String × Json)} (has : (as.map Prod.fst).Nodup)
  (hbs : (bs.map Prod.fst).Nodup)

include has hbs

/-- Objects that name no member twice are structurally equal if the same names have
structurally equal values in both. -/
theorem same_object_iff :
    (object as).same (object bs) = true ↔
      ∀ key, Option.Rel (fun a b => a.same b = true) (as.lookup key) (bs.lookup key) := by
  rw [same, Bool.and_eq_true, beq_iff_eq, sameMembers_iff]
  constructor
  · rintro ⟨hlength, hmembers⟩ key
    cases hkey : as.lookup key with
    | some a =>
      obtain ⟨b, hb, hab⟩ := hmembers (key, a) ((lookup_eq_some_iff_mem has).mp hkey)
      rw [hb]
      exact .some hab
    | none =>
      -- All names on the left occur on the right, and there are no more of them there.
      have hsub : as.map Prod.fst ⊆ bs.map Prod.fst := by
        intro name hname
        obtain ⟨m, hm, rfl⟩ := List.mem_map.mp hname
        obtain ⟨b, hb, -⟩ := hmembers m hm
        exact mem_keys_iff_lookup.mpr (by simp [hb])
      have hperm : (as.map Prod.fst).Perm (bs.map Prod.fst) :=
        (has.subperm hsub).perm_of_length_le (by simp [hlength])
      have hout : key ∉ bs.map Prod.fst := by
        rw [← hperm.mem_iff, mem_keys_iff_lookup]
        exact fun hfound => hfound hkey
      rw [mem_keys_iff_lookup, not_not] at hout
      rw [hout]
      exact .none
  · intro hlookup
    have hkeys : (as.map Prod.fst).Perm (bs.map Prod.fst) := by
      rw [List.perm_ext_iff_of_nodup has hbs]
      intro key
      rw [mem_keys_iff_lookup, mem_keys_iff_lookup]
      have hrel := hlookup key
      generalize as.lookup key = a, bs.lookup key = b at hrel
      cases hrel <;> simp
    refine ⟨by simpa using hkeys.length_eq, fun m hm => ?_⟩
    have hrel := hlookup m.1
    rw [(lookup_eq_some_iff_mem has).mpr hm] at hrel
    generalize bs.lookup m.1 = b at hrel
    cases hrel with
    | some hab => exact ⟨_, rfl, hab⟩

end Objects

/-! ### An equivalence -/

/-- The values are structurally equal, and no object in them names a member twice. -/
structure Same (a b : Json) : Prop where
  left : a.HasDistinctKeys
  right : b.HasDistinctKeys
  same : a.same b = true

/-- The shapes of two values that are the same. -/
inductive Paired : Json → Json → Prop
  | null : Paired .null .null
  | bool (b : Bool) : Paired (.bool b) (.bool b)
  | number {m n : Number} (h : m.same n = true) : Paired (.number m) (.number n)
  | string (s : String) : Paired (.string s) (.string s)
  | array {as bs : List Json} (h : List.Forall₂ Same as bs) : Paired (.array as) (.array bs)
  | object {as bs : List (String × Json)} (has : (as.map Prod.fst).Nodup)
      (hbs : (bs.map Prod.fst).Nodup)
      (h : ∀ key, Option.Rel Same (as.lookup key) (bs.lookup key)) :
      Paired (.object as) (.object bs)

variable {a b c : Json}

/-- Read constructor by constructor, two values that are the same agree member for member. -/
theorem Same.pair (h : a.Same b) : Paired a b := by
  obtain ⟨hleft, hright, hsame⟩ := h
  match a, b with
  | .null, .null => exact .null
  | .bool x, .bool y =>
    obtain rfl : x = y := by simpa [Json.same] using hsame
    exact .bool x
  | .number m, .number n => exact .number hsame
  | .string s, .string t =>
    obtain rfl : s = t := by simpa [Json.same] using hsame
    exact .string s
  | .array as, .array bs =>
    refine .array ?_
    have hitems := sameItems_iff.mp hsame
    have hall := (List.forall₂_and_left as bs).mpr ⟨distinct_of_mem_items hleft, hitems⟩
    have hboth := (List.forall₂_and_left bs as).mpr ⟨distinct_of_mem_items hright, hall.flip⟩
    exact hboth.flip.imp fun _ _ hab => ⟨hab.2.1, hab.1, hab.2.2⟩
  | .object as, .object bs =>
    refine .object hleft.1 hright.1 fun key => ?_
    have hrel := (same_object_iff hleft.1 hright.1).mp hsame key
    refine optionRel_iff.mpr ((optionRel_iff.mp hrel).imp_right ?_)
    rintro ⟨a, b, ha, hb, hab⟩
    exact ⟨a, b, ha, hb, distinct_of_lookup hleft.2 ha, distinct_of_lookup hright.2 hb, hab⟩
  | .null, .bool _ | .null, .number _ | .null, .string _ | .null, .array _ | .null, .object _
  | .bool _, .null | .bool _, .number _ | .bool _, .string _ | .bool _, .array _
  | .bool _, .object _ | .number _, .null | .number _, .bool _ | .number _, .string _
  | .number _, .array _ | .number _, .object _ | .string _, .null | .string _, .bool _
  | .string _, .number _ | .string _, .array _ | .string _, .object _ | .array _, .null
  | .array _, .bool _ | .array _, .number _ | .array _, .string _ | .array _, .object _
  | .object _, .null | .object _, .bool _ | .object _, .number _ | .object _, .string _
  | .object _, .array _ => simp [Json.same] at hsame

/-- Values of such shapes are the same. -/
theorem Paired.same (h : Paired a b) (ha : a.HasDistinctKeys) (hb : b.HasDistinctKeys) :
    a.Same b := by
  refine ⟨ha, hb, ?_⟩
  cases h with
  | null => rfl
  | bool b => exact beq_self_eq_true b
  | number h => exact h
  | string s => exact beq_self_eq_true s
  | array h => exact sameItems_iff.mpr (h.imp fun _ _ hab => hab.same)
  | object has hbs h =>
    refine (same_object_iff has hbs).mpr fun key => ?_
    refine optionRel_iff.mpr ((optionRel_iff.mp (h key)).imp_right ?_)
    rintro ⟨x, y, hx, hy, hxy⟩
    exact ⟨x, y, hx, hy, hxy.same⟩

/-- A value with distinct names is the same as itself; one that repeats a name need not be,
since the first member of the name is compared with all. -/
theorem Same.refl (h : a.HasDistinctKeys) : a.Same a := by
  induction a using Json.induction with
  | null => exact Paired.null.same h h
  | bool b => exact (Paired.bool b).same h h
  | number n => exact (Paired.number n.same_refl).same h h
  | string s => exact (Paired.string s).same h h
  | array items ih =>
    exact (Paired.array (List.forall₂_same.mpr fun item hitem =>
      ih item hitem (distinct_of_mem_items h item hitem))).same h h
  | object members ih =>
    refine (Paired.object h.1 h.1 fun key => ?_).same h h
    cases hkey : members.lookup key with
    | none => exact .none
    | some value =>
      exact .some (ih (key, value) ((lookup_eq_some_iff_mem h.1).mp hkey)
        (distinct_of_lookup h.2 hkey))

theorem Same.symm (h : a.Same b) : b.Same a := by
  induction a using Json.induction generalizing b with
  | null | bool _ | string _ => cases h.pair; exact h
  | number n =>
    cases h.pair with
    | number hmn => exact (Paired.number (Number.same_symm hmn)).same h.right h.left
  | array items ih =>
    cases h.pair with
    | array hitems =>
      refine (Paired.array ?_).same h.right h.left
      exact ((List.forall₂_and_left items _).mpr ⟨fun _ hx => hx, hitems⟩).flip.imp
        fun _ _ hab => ih _ hab.1 hab.2
  | object members ih =>
    cases h.pair with
    | object has hbs hmembers =>
      refine (Paired.object hbs has fun key => optionRel_iff.mpr ?_).same h.right h.left
      refine (optionRel_iff.mp (hmembers key)).imp And.symm ?_
      rintro ⟨x, y, hx, hy, hxy⟩
      exact ⟨y, x, hy, hx, ih (key, x) ((lookup_eq_some_iff_mem has).mp hx) hxy⟩

/-- Values are compared through a third one member by member, by induction on the first. -/
theorem Same.trans (h : a.Same b) (h' : b.Same c) : a.Same c := by
  induction a using Json.induction generalizing b c with
  | null | bool _ | string _ => cases h.pair; exact h'
  | number n =>
    cases h.pair with
    | number hmn =>
      cases h'.pair with
      | number hno => exact (Paired.number (Number.same_trans hmn hno)).same h.left h'.right
  | array items ih =>
    cases h.pair with
    | @array _ bs hitems =>
      cases h'.pair with
      | @array _ cs hothers =>
        refine (Paired.array ?_).same h.left h'.right
        have hlength := hitems.length_eq.trans hothers.length_eq
        refine List.forall₂_of_length_eq_of_get hlength fun i hi hi' => ?_
        exact ih _ (List.getElem_mem hi) (hitems.get hi (hitems.length_eq ▸ hi))
          (hothers.get _ hi')
  | object members ih =>
    cases h.pair with
    | object has hbs hmembers =>
      cases h'.pair with
      | object _ hcs hothers =>
        refine (Paired.object has hcs fun key => optionRel_iff.mpr ?_).same h.left h'.right
        rcases optionRel_iff.mp (hmembers key) with ⟨hx, hy⟩ | ⟨x, y, hx, hy, hxy⟩
        · refine .inl ⟨hx, ?_⟩
          rcases optionRel_iff.mp (hothers key) with ⟨-, hz⟩ | ⟨_, _, hy', -, -⟩
          · exact hz
          · exact absurd (hy.symm.trans hy') (by simp)
        · rcases optionRel_iff.mp (hothers key) with ⟨hy', -⟩ | ⟨y', z, hy', hz, hyz⟩
          · exact absurd (hy'.symm.trans hy) (by simp)
          · obtain rfl : y = y' := Option.some.inj (hy.symm.trans hy')
            exact .inr ⟨x, z, hx, hz,
              ih (key, x) ((lookup_eq_some_iff_mem has).mp hx) hxy hyz⟩

/-- Arrays of values that are the same, one by one, are the same. -/
lemma same_array {as bs : List Json} (h : List.Forall₂ Same as bs) :
    (Json.array as).Same (.array bs) := by
  have hdistinct (xs ys : List Json) (hall : List.Forall₂ Same xs ys) : ItemsDistinct xs := by
    induction hall with
    | nil => trivial
    | cons hxy _ ih => exact ⟨hxy.left, ih⟩
  exact (Paired.array h).same (hdistinct as bs h)
    (hdistinct bs as (h.flip.imp fun _ _ hab => Same.symm hab))

/-! Two values as the members of an object, in one order and in the other. -/

/-- Two members in the order of the names. -/
def inOrder (x y : Json) : Json := .object [("left", x), ("right", y)]

/-- The same members in the other order. -/
def swapped (x y : Json) : Json := .object [("right", y), ("left", x)]

/-- The order of members is not seen by structural equality. -/
lemma same_swapped {x y : Json} (hx : x.HasDistinctKeys) (hy : y.HasDistinctKeys) :
    (inOrder x y).Same (swapped x y) := by
  have hkeys : (([("left", x), ("right", y)] : List (String × Json)).map Prod.fst).Nodup := by
    simp
  have hkeys' : (([("right", y), ("left", x)] : List (String × Json)).map Prod.fst).Nodup := by
    simp
  refine (Paired.object hkeys hkeys' fun key => ?_).same ⟨hkeys, hx, hy, trivial⟩
    ⟨hkeys', hy, hx, trivial⟩
  by_cases hleft : key = "left"
  · subst hleft
    simpa [List.lookup_cons] using Same.refl hx
  · by_cases hright : key = "right"
    · subst hright
      simpa [List.lookup_cons] using Same.refl hy
    · simp [List.lookup_cons, beq_false_of_ne hleft, beq_false_of_ne hright]

/-- The same names have the same values in values that are the same. -/
lemma Same.field? (h : a.Same b) (key : String) :
    Option.Rel Same (a.field? key) (b.field? key) := by
  cases h.pair with
  | object _ _ hmembers => exact hmembers key
  | _ => exact .none

/-- Of two values that are the same, both are arrays or neither is. -/
lemma Same.toArray? (h : a.Same b) : Option.Rel (List.Forall₂ Same) a.toArray? b.toArray? := by
  cases h.pair with
  | array hitems => exact .some hitems
  | _ => exact .none

/-- Messages name the kind of a value, and so do not tell such values apart. -/
lemma Same.kind_eq (h : a.Same b) : a.kind = b.kind := by
  cases h.pair <;> rfl

end Json

/-! ### Values -/

namespace Value

/-- No object in the value names a member twice. -/
def HasDistinctKeys (value : Value) : Prop := ∀ json ∈ value.json?, json.HasDistinctKeys

/-- The values are structurally equal, and no object in them names a member twice. -/
structure Same (a b : Value) : Prop where
  left : a.HasDistinctKeys
  right : b.HasDistinctKeys
  same : a.same b = true

/-- The shapes of two values that are the same. -/
inductive Paired : Value → Value → Prop
  | defined {a b : Json} (h : a.Same b) : Paired (.defined a) (.defined b)
  | undefined : Paired .undefined .undefined
  | error (cause : EvalError) : Paired (.error cause) (.error cause)

variable {a b c : Value}

lemma hasDistinctKeys_defined {json : Json} :
    (defined json).HasDistinctKeys ↔ json.HasDistinctKeys := by
  simp [HasDistinctKeys, json?]

/-- Defined values are the same if their contents are, undefined ones always, failures if they
have the same cause. -/
theorem same_iff_paired : a.Same b ↔ Paired a b := by
  constructor
  · rintro ⟨hleft, hright, hsame⟩
    match a, b with
    | .defined a, .defined b =>
      exact .defined ⟨hasDistinctKeys_defined.mp hleft, hasDistinctKeys_defined.mp hright, hsame⟩
    | .undefined, .undefined => exact .undefined
    | .error cause, .error cause' =>
      obtain rfl : cause = cause' := by simpa [Value.same] using hsame
      exact .error cause
    | .defined _, .undefined | .defined _, .error _ | .undefined, .defined _
    | .undefined, .error _ | .error _, .defined _ | .error _, .undefined =>
      simp [Value.same] at hsame
  · intro h
    cases h with
    | defined h =>
      exact ⟨hasDistinctKeys_defined.mpr h.left, hasDistinctKeys_defined.mpr h.right, h.same⟩
    | undefined => exact ⟨by simp [HasDistinctKeys, json?], by simp [HasDistinctKeys, json?], rfl⟩
    | error cause =>
      exact ⟨by simp [HasDistinctKeys, json?], by simp [HasDistinctKeys, json?],
        beq_self_eq_true cause⟩

lemma Same.pair (h : a.Same b) : Paired a b := same_iff_paired.mp h

lemma Paired.same (h : Paired a b) : a.Same b := same_iff_paired.mpr h

/-- Every value in which no object repeats a name is the same as itself. -/
theorem Same.refl (h : a.HasDistinctKeys) : a.Same a := by
  cases a with
  | defined json => exact (Paired.defined (.refl (hasDistinctKeys_defined.mp h))).same
  | undefined => exact Paired.undefined.same
  | error cause => exact (Paired.error cause).same

theorem Same.symm (h : a.Same b) : b.Same a := by
  cases h.pair with
  | defined hab => exact (Paired.defined hab.symm).same
  | undefined => exact Paired.undefined.same
  | error cause => exact (Paired.error cause).same

theorem Same.trans (h : a.Same b) (h' : b.Same c) : a.Same c := by
  cases h.pair with
  | defined hab =>
    cases h'.pair with
    | defined hbc => exact (Paired.defined (hab.trans hbc)).same
  | undefined | error _ => exact h'

lemma same_error (cause : EvalError) : (error cause).Same (.error cause) :=
  (Paired.error cause).same

lemma Same.kind_eq (h : a.Same b) : a.kind = b.kind := by
  cases h.pair with
  | defined hab => exact hab.kind_eq
  | undefined | error _ => rfl

/-- Of two values that are the same, both fail with one cause or neither fails. -/
lemma Same.error?_eq (h : a.Same b) : a.error? = b.error? := by
  cases h.pair <;> rfl

/-- Lists of values that are the same fail with the same first cause. -/
lemma firstError?_same {xs ys : List Value} (h : List.Forall₂ Same xs ys) :
    firstError? xs = firstError? ys := by
  induction h with
  | nil => rfl
  | cons hxy _ ih => simp only [firstError?, List.findSome?_cons, hxy.error?_eq] at ih ⊢; rw [ih]

end Value
end Verdict
