/-
The documents that are read.

The form of a document names no member twice, so it is a JSON value like those that
documents are read from.  With this, the readers return exactly the valid documents.

* `Construct.distinct_toJson`: no object in the form of a construct names a member twice.
* `PolicyDocument.Valid`, `PolicyDocument.Typed`: what is asked of the constructs of a
  document, at every depth.
* `PolicyDocument.read_iff_valid`: a document is read from some value if and only if it is
  valid, and then it is read from its form.
-/
import Verdict.Proofs.Policy.Writing

namespace Verdict

namespace Construct

/-! ### Distinct members -/

section Distinct

/-- Members whose names are taken from a list without repetitions, in its order, have distinct
names. -/
lemma distinct_object {members : List (String × Json)} (names : List String)
    (hnames : (members.map Prod.fst).Sublist names) (hnodup : names.Nodup)
    (hmembers : ∀ m ∈ members, m.2.HasDistinctKeys) : (Json.object members).HasDistinctKeys := by
  refine ⟨hnodup.sublist hnames, ?_⟩
  clear hnames
  induction members with
  | nil => trivial
  | cons m rest ih =>
    rw [List.forall_mem_cons] at hmembers
    exact ⟨hmembers.1, ih hmembers.2⟩

lemma distinct_array {α : Type} {f : α → Json} {as : List α}
    (h : ∀ a ∈ as, (f a).HasDistinctKeys) : (Json.array (as.map f)).HasDistinctKeys := by
  rw [Json.HasDistinctKeys]
  induction as with
  | nil => trivial
  | cons a rest ih =>
    rw [List.forall_mem_cons] at h
    exact ⟨h.1, ih h.2⟩

/-- Expressions that are each written with distinct names, as an array. -/
lemma distinct_expressions {es : List Expression}
    (h : ∀ c ∈ es.map Construct.expression, c.toJson.HasDistinctKeys) :
    (Json.array (Expression.toJsonEach es)).HasDistinctKeys := by
  rw [Expression.toJsonEach_eq_map]
  exact distinct_array fun e he => h _ (List.mem_map_of_mem he)

lemma distinct_steps {steps : List Step}
    (h : ∀ c ∈ steps.map Construct.step, c.toJson.HasDistinctKeys) :
    (Json.array (Step.toJsonEach steps)).HasDistinctKeys := by
  rw [Step.toJsonEach_eq_map]
  exact distinct_array fun step hstep => h _ (List.mem_map_of_mem hstep)

/-- An optional expression becomes one member or none. -/
lemma distinct_toMembers {field : String} {e? : Option Expression}
    (h : ∀ c ∈ e?.toList.map Construct.expression, c.toJson.HasDistinctKeys) :
    ∀ m ∈ Expression.toMembers field e?, m.2.HasDistinctKeys := by
  cases e? with
  | none => simp [Expression.toMembers]
  | some e => exact List.forall_mem_singleton.mpr (h (.expression e) List.mem_cons_self)

lemma names_toMembers (field : String) (e? : Option Expression) :
    ((Expression.toMembers field e?).map Prod.fst).Sublist [field] := by
  cases e? with
  | none => exact List.nil_sublist _
  | some e => exact List.Sublist.refl _

/-- Of the heads only a literal brings in values from outside, and those are taken to have
distinct names. -/
lemma distinct_head {head : Head} (htyped : ∀ json, head = .literal json → json.HasDistinctKeys)
    (hparts : ∀ part ∈ head.parts, part.toJson.HasDistinctKeys) :
    ∀ m ∈ head.toMembers, m.2.HasDistinctKeys := by
  cases head with
  | literal json =>
    simp only [Head.toMembers, List.forall_mem_cons]
    exact ⟨trivial, htyped json rfl, by simp⟩
  | group inner =>
    simp only [Head.toMembers, List.forall_mem_cons]
    exact ⟨trivial, hparts _ List.mem_cons_self, by simp⟩
  | identifier | relative => simp [Head.toMembers, Json.HasDistinctKeys]
  | function name arguments =>
    simp only [Head.toMembers, List.forall_mem_cons]
    exact ⟨trivial, trivial, distinct_expressions hparts, by simp⟩
  | array items =>
    simp only [Head.toMembers, List.forall_mem_cons]
    exact ⟨trivial, distinct_expressions hparts, by simp⟩
  | object members =>
    simp only [Head.toMembers, List.forall_mem_cons, Expression.toJsonMembers_eq_map]
    exact ⟨trivial, distinct_array fun m hm => hparts _ (List.mem_map_of_mem hm), by simp⟩

/-- No expression is written with a repeated name: each of its fields has a name of its
own. -/
lemma distinct_expression {e : Expression} (htyped : (Construct.expression e).Typed)
    (hparts : ∀ part ∈ (Construct.expression e).parts, part.toJson.HasDistinctKeys) :
    (Construct.expression e).toJson.HasDistinctKeys := by
  cases e with
  | basic head steps f template =>
    simp only [parts, List.forall_mem_append] at hparts
    obtain ⟨⟨⟨hhead, hsteps⟩, hfilter⟩, htemplate⟩ := hparts
    have hnames : ((Filter.toMembers f).map Prod.fst).Sublist ["filter"] := by
      cases f with
      | none => exact List.nil_sublist _
      | some f => exact List.Sublist.refl _
    refine distinct_object (head.toMembers.map Prod.fst ++ ["steps"] ++ ["filter"] ++
      ["subtemplate"]) ?_ ?_ ?_
    · simp only [List.map_append]
      exact (((List.Sublist.refl _).append (List.Sublist.refl _)).append hnames).append
        (names_toMembers _ _)
    · cases head <;> simp [Head.toMembers]
    · simp only [List.forall_mem_append]
      refine ⟨⟨⟨distinct_head (fun json heq => ?_) hhead,
        List.forall_mem_singleton.mpr (distinct_steps hsteps)⟩, ?_⟩,
        distinct_toMembers htemplate⟩
      · subst heq
        exact htyped
      · cases f with
        | none => simp [Filter.toMembers]
        | some f => exact List.forall_mem_singleton.mpr (hfilter (.filter f) List.mem_cons_self)
  | binary op left right =>
    refine distinct_object ["kind", "operator", "left", "right"] (List.Sublist.refl _)
      (by decide) ?_
    simp only [List.forall_mem_cons]
    exact ⟨trivial, trivial, hparts (.expression left) (by simp [parts]),
      hparts (.expression right) (by simp [parts]), by simp⟩
  | unary op operand =>
    refine distinct_object ["kind", "operator", "operand"] (List.Sublist.refl _) (by decide) ?_
    simp only [List.forall_mem_cons]
    exact ⟨trivial, trivial, hparts (.expression operand) (by simp [parts]), by simp⟩
  | conditional condition consequent alternative =>
    refine distinct_object ["kind", "condition", "then", "else"] (List.Sublist.refl _)
      (by decide) ?_
    simp only [List.forall_mem_cons]
    exact ⟨trivial, hparts (.expression condition) (by simp [parts]),
      hparts (.expression consequent) (by simp [parts]),
      hparts (.expression alternative) (by simp [parts]), by simp⟩

/-- No step repeats a name: its kind and its fields have different ones. -/
lemma distinct_step {s : Step}
    (hparts : ∀ part ∈ (Construct.step s).parts, part.toJson.HasDistinctKeys) :
    (Construct.step s).toJson.HasDistinctKeys := by
  have hinteger (field : String) (n? : Option Int) :
      ((Json.integerMember field n?).map Prod.fst).Sublist [field] ∧
        ∀ m ∈ Json.integerMember field n?, m.2.HasDistinctKeys := by
    cases n? with
    | none => simp [Json.integerMember]
    | some n => simp [Json.integerMember, Json.ofInt, Json.HasDistinctKeys]
  cases s with
  | slice start stop stride =>
    obtain ⟨hstart, hstart'⟩ := hinteger "from" start
    obtain ⟨hstop, hstop'⟩ := hinteger "to" stop
    obtain ⟨hstride, hstride'⟩ := hinteger "step" stride
    refine distinct_object (["kind"] ++ ["from"] ++ ["to"] ++ ["step"]) ?_ (by decide) ?_
    · simp only [List.map_append]
      exact (((List.Sublist.refl _).append hstart).append hstop).append hstride
    · simp only [List.forall_mem_append]
      exact ⟨⟨⟨List.forall_mem_singleton.mpr trivial, hstart'⟩, hstop'⟩, hstride'⟩
  | computed _ | condition _ =>
    refine distinct_object ["kind", "expression"] (List.Sublist.refl _) (by decide) ?_
    simp only [List.forall_mem_cons]
    exact ⟨trivial, hparts _ List.mem_cons_self, by simp⟩
  | keyUnion names =>
    refine distinct_object ["kind", "keys"] (List.Sublist.refl _) (by decide) ?_
    simp only [List.forall_mem_cons]
    exact ⟨trivial, distinct_array fun _ _ => trivial, by simp⟩
  | indexUnion positions =>
    refine distinct_object ["kind", "indices"] (List.Sublist.refl _) (by decide) ?_
    simp only [List.forall_mem_cons]
    exact ⟨trivial, distinct_array fun _ _ => trivial, by simp⟩
  | «attribute» name arguments =>
    refine distinct_object ["kind", "name", "arguments"] (List.Sublist.refl _) (by decide) ?_
    simp only [List.forall_mem_cons]
    exact ⟨trivial, trivial, distinct_expressions hparts, by simp⟩
  | key _ | index _ | wildcard | recursiveKey _ | recursiveIndex _ | recursiveWildcard =>
    simp [toJson, Step.toJson, Json.HasDistinctKeys, Json.MembersDistinct, Json.ofInt]

/-- No filter repeats a name. -/
lemma distinct_filter {f : Filter}
    (hparts : ∀ part ∈ (Construct.filter f).parts, part.toJson.HasDistinctKeys) :
    (Construct.filter f).toJson.HasDistinctKeys := by
  cases f with
  | simple each function arguments =>
    refine distinct_object ["kind", "each", "function", "arguments"] (List.Sublist.refl _)
      (by decide) ?_
    simp only [List.forall_mem_cons]
    exact ⟨trivial, trivial, trivial, distinct_expressions hparts, by simp⟩
  | extended statements =>
    refine distinct_object ["kind", "statements"] (List.Sublist.refl _) (by decide) ?_
    simp only [List.forall_mem_cons, FilterStatement.toJsonEach_eq_map]
    exact ⟨trivial, distinct_array fun s hs => hparts _ (List.mem_map_of_mem hs), by simp⟩

lemma distinct_filterStatement {s : FilterStatement}
    (hparts : ∀ part ∈ (Construct.filterStatement s).parts, part.toJson.HasDistinctKeys) :
    (Construct.filterStatement s).toJson.HasDistinctKeys := by
  obtain ⟨target, each, function, arguments⟩ := s
  obtain ⟨htarget, harguments⟩ := List.forall_mem_append.mp hparts
  refine distinct_object ["target", "each", "function", "arguments"] (List.Sublist.refl _)
    (by decide) ?_
  simp only [List.forall_mem_cons]
  exact ⟨distinct_steps htarget, trivial, trivial, distinct_expressions harguments, by simp⟩

/-- No statement of a body repeats a name, that of its tag included. -/
lemma distinct_statement {s : Statement}
    (hparts : ∀ part ∈ (Construct.statement s).parts, part.toJson.HasDistinctKeys) :
    (Construct.statement s).toJson.HasDistinctKeys := by
  cases s with
  | condition e =>
    refine distinct_object ["kind", "expression"] (List.Sublist.refl _) (by decide) ?_
    simp only [List.forall_mem_cons]
    exact ⟨trivial, hparts _ List.mem_cons_self, by simp⟩
  | define d =>
    refine distinct_object ["kind", "name", "expression"] (List.Sublist.refl _) (by decide) ?_
    have hdefinition : (Json.object d.toMembers).HasDistinctKeys :=
      hparts (.definition d) List.mem_cons_self
    simp only [VariableDefinition.toMembers, List.forall_mem_cons]
    exact ⟨trivial, trivial, hdefinition.2.2.1, by simp⟩

lemma distinct_arrayMember {field : String} {es : List Expression}
    (h : ∀ c ∈ es.map Construct.expression, c.toJson.HasDistinctKeys) :
    (Expression.arrayMember field es).2.HasDistinctKeys :=
  distinct_array fun _ he => h _ (List.mem_map_of_mem he)

/-- No policy repeats a name. -/
lemma distinct_policy {p : Policy}
    (hparts : ∀ part ∈ (Construct.policy p).parts, part.toJson.HasDistinctKeys) :
    (Construct.policy p).toJson.HasDistinctKeys := by
  simp only [parts, List.map_append, List.forall_mem_append] at hparts
  obtain ⟨hbody, ⟨⟨htarget, hobligations⟩, hadvice⟩, htransformation⟩ := hparts
  refine distinct_object (["kind", "name", "entitlement"] ++ ["target"] ++
    ["body", "obligations", "advice"] ++ ["transformation"]) ?_ (by decide) ?_
  · simp only [List.map_append]
    exact (((List.Sublist.refl _).append (names_toMembers _ _)).append
      (List.Sublist.refl _)).append (names_toMembers _ _)
  · simp only [List.forall_mem_append, List.forall_mem_cons]
    exact ⟨⟨⟨⟨trivial, trivial, trivial, by simp⟩, distinct_toMembers htarget⟩,
      distinct_array fun s hs => hbody _ (List.mem_map_of_mem hs),
      distinct_arrayMember hobligations, distinct_arrayMember hadvice, by simp⟩,
      distinct_toMembers htransformation⟩

/-- No policy set repeats a name. -/
lemma distinct_set {s : PolicySet}
    (hparts : ∀ part ∈ (Construct.set s).parts, part.toJson.HasDistinctKeys) :
    (Construct.set s).toJson.HasDistinctKeys := by
  simp only [parts, List.map_append, List.forall_mem_append] at hparts
  obtain ⟨⟨hdefinitions, hpolicies⟩, ⟨htarget, hobligations⟩, hadvice⟩ := hparts
  refine distinct_object (["kind", "name", "algorithm"] ++ ["target"] ++
    ["variables", "policies", "obligations", "advice"]) ?_ (by decide) ?_
  · simp only [List.map_append]
    exact ((List.Sublist.refl _).append (names_toMembers _ _)).append (List.Sublist.refl _)
  · simp only [List.forall_mem_append, List.forall_mem_cons]
    exact ⟨⟨⟨trivial, trivial, trivial, by simp⟩, distinct_toMembers htarget⟩,
      distinct_array fun d hd => hdefinitions _ (List.mem_map_of_mem hd),
      distinct_array fun p hp => hpolicies _ (List.mem_map_of_mem hp),
      distinct_arrayMember hobligations, distinct_arrayMember hadvice, by simp⟩

/-- The form of a construct names no member twice if those of its parts do not. -/
theorem distinct_of_parts {c : Construct} (htyped : c.Typed)
    (hparts : ∀ part ∈ c.parts, part.toJson.HasDistinctKeys) : c.toJson.HasDistinctKeys := by
  cases c with
  | document d =>
    cases d with
    | policy p => exact hparts (.policy p) List.mem_cons_self
    | set s => exact hparts (.set s) List.mem_cons_self
  | policy p => exact distinct_policy hparts
  | set s => exact distinct_set hparts
  | statement s => exact distinct_statement hparts
  | definition d =>
    refine distinct_object ["name", "expression"] (List.Sublist.refl _) (by decide) ?_
    simp only [VariableDefinition.toMembers, List.forall_mem_cons]
    exact ⟨trivial, hparts _ List.mem_cons_self, by simp⟩
  | expression e => exact distinct_expression htyped hparts
  | member m =>
    refine distinct_object ["key", "value"] (List.Sublist.refl _) (by decide) ?_
    simp only [List.forall_mem_cons]
    exact ⟨trivial, hparts _ List.mem_cons_self, by simp⟩
  | step s => exact distinct_step hparts
  | filter f => exact distinct_filter hparts
  | filterStatement s => exact distinct_filterStatement hparts

end Distinct

/-- No object in the form of a construct names a member twice. -/
theorem distinct_toJson (c : Construct) :
    (∀ d, c.Contains d → d.Typed) → c.toJson.HasDistinctKeys := by
  induction c using Construct.induction with
  | h c ih =>
    intro h
    exact distinct_of_parts (h c .self) fun part hpart =>
      ih part hpart fun d hd => h d (hd.of_part hpart)

end Construct

/-! ### Documents -/

namespace PolicyDocument

/-- At every depth of the document, no slice has stride zero, no basic expression has a
template beside a filter, no variable has a reserved name, and the policies of a set
have distinct names. -/
def Valid (document : PolicyDocument) : Prop :=
  ∀ c, (Construct.document document).Contains c → c.Valid

/-- At every depth of the document, positions are integers of 64 bits and literals are
JSON values that name no member twice. -/
def Typed (document : PolicyDocument) : Prop :=
  ∀ c, (Construct.document document).Contains c → c.Typed

/-- The documents that are read are exactly the valid ones: whatever JSON value a document
is read from, it is valid, and every valid document is read from its JSON form. -/
theorem read_iff_valid (document : PolicyDocument) :
    ((∃ value : Json, value.HasDistinctKeys ∧ readDocument value = .ok document) ↔
        document.Typed ∧ document.Valid) ∧
      (document.Typed ∧ document.Valid ↔
        document.toJson.HasDistinctKeys ∧ readDocument document.toJson = .ok document) := by
  have hread : (∃ value : Json, value.HasDistinctKeys ∧ readDocument value = .ok document) →
      document.Typed ∧ document.Valid := by
    intro h
    have hreadable : (Construct.document document).Readable := h
    have hcontained : ∀ c, (Construct.document document).Contains c → c.Readable :=
      fun c hc => hreadable.contains hc
    refine ⟨fun c hc => (hcontained c hc).typed, fun c hc => ?_⟩
    obtain ⟨value, -, hvalue⟩ := hcontained c hc
    exact hvalue.valid
  have hwritten : document.Typed ∧ document.Valid →
      document.toJson.HasDistinctKeys ∧ readDocument document.toJson = .ok document := by
    rintro ⟨htyped, hvalid⟩
    exact ⟨(Construct.document document).distinct_toJson htyped,
      (Construct.document document).readFrom_toJson fun c hc => ⟨hvalid c hc, htyped c hc⟩⟩
  exact ⟨⟨hread, fun h => ⟨_, hwritten h⟩⟩, hwritten, fun h => hread ⟨_, h⟩⟩

end PolicyDocument

end Verdict
