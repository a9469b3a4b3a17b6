/-
Checking documents, and loading them to decide by them.

Both commands go over the same files, the one collecting what is wrong with each of
them, the other giving up at the first one that has no documents.  The files are taken in
the order of their names, whatever order a directory lists them in.

* `FileStore.Considers`, `FileStore.Holds`: the files that count at a path, and what a file
  holds.
* `FileStore.Relisted`: everything is found as before, but directories list their entries
  in another order.
* `documentPaths_relisted`, `runDecide_relisted`: no file and no answer depends on it.
* `CheckReport.isValid_iff`: a report is good if every file holds documents, no two of them
  under one name.
* `loadDocuments_of_holds`: then the documents of all files are loaded.
* `Outcome.listing`: the answer that lists documents, file by file.
* `check_agrees_with_loading`: what the check accepts is what is loaded.
-/
import Mathlib.Data.List.Dedup
import Mathlib.Tactic.Lemma
import Verdict.CommandLine.Decide
import Verdict.Proofs.Policy.ExpressionForms

namespace Verdict

/-! ### Files that count -/

/-- A name with the extension of documents has something in front of it. -/
lemma hasDocumentExtension_iff {name : String} :
    hasDocumentExtension name = true ↔ ∃ stem, stem ≠ "" ∧ name = stem ++ ".json" := by
  rw [hasDocumentExtension, Bool.and_eq_true, String.endsWith_eq_endsWith_toSlice,
    String.Slice.endsWith_string_iff, String.copy_toSlice, bne_iff_ne]
  constructor
  · rintro ⟨⟨stem, hstem⟩, hne⟩
    have hname : name = String.ofList stem ++ ".json" := by
      rw [← String.toList_inj, String.toList_append, String.toList_ofList, hstem]
    refine ⟨_, fun hempty => hne ?_, hname⟩
    rw [hname, hempty]
    rfl
  · rintro ⟨stem, hstem, rfl⟩
    refine ⟨⟨stem.toList, by rw [String.toList_append]⟩, fun heq => hstem ?_⟩
    have hlist := congrArg String.toList heq
    rw [String.toList_append] at hlist
    rw [← String.toList_inj]
    exact List.append_left_eq_self.mp hlist

namespace FileStore

/-- The files that count at a path: the path itself, unless it is a directory, and else the
regular files in it that are named as documents are, apart from the configuration. -/
def Considers (store : FileStore) (path file : String) : Prop :=
  match store.entries? path with
  | none => file = path
  | some names => ∃ name ∈ names, file = joinPath path name ∧ store.isFile file = true ∧
      (∃ stem, stem ≠ "" ∧ name = stem ++ ".json") ∧ name ≠ configurationName

/-- The file holds these documents: its text is JSON that spells them. -/
def Holds (store : FileStore) (file : String) (documents : List PolicyDocument) : Prop :=
  ∃ text json, store file = .file text ∧ Json.parse? text = some json ∧
    readBundle json = .ok documents

end FileStore

variable {store store' : FileStore} {path file : String}

lemma mem_documentPaths : file ∈ documentPaths store path ↔ store.Considers path file := by
  rw [documentPaths, FileStore.Considers]
  cases store.entries? path with
  | none => exact List.mem_singleton
  | some names =>
    simp only [List.mem_map, List.mem_mergeSort, List.mem_filter, Bool.and_eq_true,
      isDocumentName, hasDocumentExtension_iff, bne_iff_ne]
    constructor
    · rintro ⟨name, ⟨hname, ⟨hstem, hne⟩, hfile⟩, rfl⟩
      exact ⟨name, hname, rfl, hfile, hstem, hne⟩
    · rintro ⟨name, hname, rfl, hfile, hstem, hne⟩
      exact ⟨name, ⟨hname, ⟨hstem, hne⟩, hfile⟩, rfl⟩

lemma loadFile_eq_ok {documents : List PolicyDocument} :
    loadFile store file = .ok documents ↔ store.Holds file documents := by
  rw [loadFile, FileStore.read]
  constructor
  · intro h
    cases hentry : store file with
    | file text =>
      simp only [hentry] at h
      cases hjson : Json.parse? text with
      | none => simp [hjson] at h
      | some json =>
        cases hbundle : readBundle json with
        | error reason => simp [hjson, hbundle] at h
        | ok found =>
          simp only [hjson, hbundle, Except.ok.injEq] at h
          exact ⟨text, json, hentry, hjson, h ▸ hbundle⟩
    | _ => simp [hentry] at h
  · rintro ⟨text, json, hentry, hjson, hbundle⟩
    simp only [hentry, hjson, hbundle]

/-! ### The order of a listing -/

/-- The same names are put in the same order. -/
lemma mergeSort_eq_of_perm {names names' : List String} (h : names.Perm names') :
    (names.mergeSort fun a b => decide (a ≤ b)) = names'.mergeSort fun a b => decide (a ≤ b) := by
  have hsorted (names : List String) :
      (names.mergeSort fun a b => decide (a ≤ b)).Pairwise (· ≤ ·) := by
    have htrans (a b c : String) (hab : decide (a ≤ b) = true) (hbc : decide (b ≤ c) = true) :
        decide (a ≤ c) = true := by
      rw [decide_eq_true_eq] at *
      exact String.le_trans hab hbc
    have htotal (a b : String) : (decide (a ≤ b) || decide (b ≤ a)) = true := by
      simpa using String.le_total a b
    simpa only [decide_eq_true_eq] using List.pairwise_mergeSort htrans htotal names
  exact List.Perm.eq_of_pairwise (fun _ _ _ _ => String.le_antisymm) (hsorted names)
    (hsorted names')
    ((List.mergeSort_perm names _).trans (h.trans (List.mergeSort_perm names' _).symm))

/-- The same is found, a directory perhaps with another order of its entries. -/
inductive FileEntry.Relisted : FileEntry → FileEntry → Prop
  | same (entry : FileEntry) : Relisted entry entry
  | directory {names names' : List String} (h : names.Perm names') :
      Relisted (.directory names) (.directory names')

/-- At every path the same is found, up to the order in which directories are listed. -/
def FileStore.Relisted (store store' : FileStore) : Prop :=
  ∀ path, (store path).Relisted (store' path)

section Relisted

variable (h : store.Relisted store')

include h

lemma FileStore.Relisted.read_eq (path : String) : store.read path = store'.read path := by
  have hentry := h path
  rw [read, read]
  generalize store path = entry, store' path = entry' at hentry
  cases hentry <;> rfl

lemma FileStore.Relisted.isFile_eq (path : String) : store.isFile path = store'.isFile path := by
  have hentry := h path
  rw [isFile, isFile]
  generalize store path = entry, store' path = entry' at hentry
  cases hentry <;> rfl

lemma FileStore.Relisted.entries? (path : String) :
    Option.Rel List.Perm (store.entries? path) (store'.entries? path) := by
  have hentry := h path
  rw [FileStore.entries?, FileStore.entries?]
  generalize store path = entry, store' path = entry' at hentry
  cases hentry with
  | same entry => cases entry <;> simp
  | directory hperm => exact .some hperm

/-- The files that count are taken in one order, that of their names. -/
lemma documentPaths_relisted (path : String) :
    documentPaths store path = documentPaths store' path := by
  have hentries := h.entries? path
  rw [documentPaths, documentPaths]
  generalize store.entries? path = entries, store'.entries? path = entries' at hentries
  cases hentries with
  | none => rfl
  | @some names names' hperm =>
    simp only [h.isFile_eq]
    exact congrArg (List.map _) (mergeSort_eq_of_perm (hperm.filter _))

lemma loadFiles_relisted (path : String) : loadFiles store path = loadFiles store' path := by
  have hfile (file : String) : loadFile store file = loadFile store' file := by
    rw [loadFile, loadFile, h.read_eq]
  rw [loadFiles, loadFiles, documentPaths_relisted h]
  simp only [hfile]

lemma loadConfiguration_relisted (path : String) :
    loadConfiguration store path = loadConfiguration store' path := by
  have hfile (file : String) : loadConfigurationFile store file
      = loadConfigurationFile store' file := by
    rw [loadConfigurationFile, loadConfigurationFile, h.read_eq]
  have hentries := h.entries? path
  have hconfiguration := h (joinPath path configurationName)
  rw [loadConfiguration, loadConfiguration]
  simp only [hfile]
  generalize store.entries? path = entries, store'.entries? path = entries' at hentries
  cases hentries with
  | none => rfl
  | some _ =>
    generalize store (joinPath path configurationName) = entry,
      store' (joinPath path configurationName) = entry' at hconfiguration
    cases hconfiguration <;> rfl

/-- The answer of deciding does not depend on the order of a listing. -/
lemma runDecide_relisted (now : Nat) (r : Request) (policies subscription : String)
    (config : Option String) (timeout : Nat) :
    runDecide now store r policies subscription config timeout
      = runDecide now store' r policies subscription config timeout := by
  have hdirectory : (store.entries? policies).isSome = (store'.entries? policies).isSome := by
    have hentries := h.entries? policies
    generalize store.entries? policies = entries, store'.entries? policies = entries' at hentries
    cases hentries <;> rfl
  simp only [runDecide, loadDocuments, loadSubscription, loadFiles_relisted h, h.read_eq,
    loadConfiguration_relisted h, hdirectory]

end Relisted

/-! ### Reports -/

namespace CheckReport

variable {c : CheckReport}

/-- No name is reported exactly if no two documents share one. -/
lemma duplicates_eq_nil_iff : c.duplicates = [] ↔ c.names.Nodup := by
  rw [List.eq_nil_iff_forall_not_mem, List.nodup_iff_count_le_one]
  simp only [duplicates, List.mem_mergeSort, List.mem_eraseDups, List.mem_filter,
    decide_eq_true_eq, not_and, Nat.not_lt]
  refine forall_congr' fun name => ⟨fun hle => ?_, fun hle _ => hle⟩
  by_cases hname : name ∈ c.names
  · exact hle hname
  · rw [List.count_eq_zero_of_not_mem hname]
    exact Nat.zero_le 1

/-- The documents of the files, one list for each file. -/
def Lists (c : CheckReport) (bundles : List (List PolicyDocument)) : Prop :=
  List.Forall₂ (fun f documents => f.documents = .ok documents) c.files bundles

lemma names_of_lists {bundles : List (List PolicyDocument)} (h : c.Lists bundles) :
    c.names = bundles.flatten.map PolicyDocument.name := by
  obtain ⟨files⟩ := c
  change List.Forall₂ _ files bundles at h
  rw [names]
  induction h with
  | nil => rfl
  | cons hfile _ ih => rw [List.flatMap_cons, ih, hfile, List.flatten_cons, List.map_append]

lemma allLoaded_iff : c.allLoaded = true ↔ ∃ bundles, c.Lists bundles := by
  obtain ⟨files⟩ := c
  rw [allLoaded, List.all_eq_true]
  constructor
  · intro h
    induction files with
    | nil => exact ⟨[], .nil⟩
    | cons f rest ih =>
      obtain ⟨bundles, hbundles⟩ := ih fun g hg => h g (List.mem_cons_of_mem _ hg)
      have hfile := h f List.mem_cons_self
      cases hdocuments : f.documents with
      | error cause => simp [hdocuments, Except.isOk, Except.toBool] at hfile
      | ok documents => exact ⟨documents :: bundles, .cons hdocuments hbundles⟩
  · rintro ⟨bundles, h⟩ f hf
    obtain ⟨documents, -, hdocuments⟩ := exists_of_mem_left h hf
    rw [hdocuments]
    rfl

/-- A report is good if every file has documents and no two of them share a name. -/
lemma isValid_iff : c.isValid = true ↔
    ∃ bundles, c.Lists bundles ∧ (bundles.flatten.map PolicyDocument.name).Nodup := by
  rw [isValid, Bool.and_eq_true, allLoaded_iff, List.isEmpty_iff, duplicates_eq_nil_iff]
  constructor
  · rintro ⟨⟨bundles, hbundles⟩, hnodup⟩
    exact ⟨bundles, hbundles, names_of_lists hbundles ▸ hnodup⟩
  · rintro ⟨bundles, hbundles, hnodup⟩
    exact ⟨⟨bundles, hbundles⟩, (names_of_lists hbundles).symm ▸ hnodup⟩

lemma code_outcome (r : Request) : (c.outcome r).code = if c.isValid then 0 else 1 := by
  rw [outcome]
  cases r.output with
  | json => cases c.isValid <;> rfl
  | text => rfl

end CheckReport

/-- The answer that lists the documents of some files, file by file, as good ones. -/
def Outcome.listing (files : List (String × List PolicyDocument)) (r : Request) : Outcome :=
  match r.output with
  | .json => .ofLines 0
      [(Json.object [("valid", .bool true),
        ("files", .array (files.map fun (path, documents) =>
          .object [("path", .string path), ("valid", .bool true),
            ("documents", .array (documents.map CheckReport.summary))])),
        ("duplicate_names", .array [])]).pretty] []
  | .text => .ofLines 0
      (if r.quiet then []
        else (files.flatMap fun (path, documents) =>
            documents.map fun d => path ++ ": " ++ CheckReport.describe d) ++
          ["valid (" ++ toString (files.flatMap Prod.snd).length ++ " document(s))"]) []

/-- The answer to a report of good files is their listing. -/
lemma CheckReport.outcome_eq_listing {files : List (String × List PolicyDocument)}
    (hnodup : ((files.flatMap Prod.snd).map PolicyDocument.name).Nodup) (r : Request) :
    CheckReport.outcome ⟨files.map fun f => ⟨f.1, .ok f.2⟩⟩ r = .listing files r := by
  have hlists : Lists ⟨files.map fun f => ⟨f.1, .ok f.2⟩⟩ (files.map Prod.snd) := by
    rw [Lists, List.forall₂_map_left_iff, List.forall₂_map_right_iff, List.forall₂_same]
    exact fun _ _ => rfl
  have hnames := names_of_lists hlists
  rw [← List.flatMap_def] at hnames
  have hduplicates : duplicates ⟨files.map fun f => ⟨f.1, .ok f.2⟩⟩ = [] :=
    duplicates_eq_nil_iff.mpr (hnames ▸ hnodup)
  have hvalid : isValid ⟨files.map fun f => ⟨f.1, .ok f.2⟩⟩ = true :=
    isValid_iff.mpr ⟨_, hlists, by rwa [← List.flatMap_def]⟩
  rw [outcome, Outcome.listing]
  cases r.output with
  | json => simp only [hvalid, toJson, hduplicates, List.map_map]; rfl
  | text =>
    have hfailures : failureLines ⟨files.map fun f => ⟨f.1, .ok f.2⟩⟩ = [] := by
      simp [failureLines, hduplicates]
    simp only [hvalid, documentLines, verdictLines, hnames, hfailures, List.flatMap_map,
      List.length_map]
    rfl

/-! ### Loading -/

lemma forall₂_loadFiles {bundles : List (List PolicyDocument)} :
    List.Forall₂ (fun (f : LoadedFile) documents => f.documents = .ok documents)
        (loadFiles store path) bundles ↔
      List.Forall₂ store.Holds (documentPaths store path) bundles := by
  rw [loadFiles, List.forall₂_map_left_iff]
  simp only [loadFile_eq_ok]

/-- Where every file holds documents, all of them are loaded, in the order of the files. -/
lemma loadDocuments_of_holds {bundles : List (List PolicyDocument)}
    (h : List.Forall₂ store.Holds (documentPaths store path) bundles) :
    loadDocuments store path = .ok bundles.flatten := by
  have hbundles : (loadFiles store path).mapM LoadedFile.documents = .ok bundles := by
    replace h := forall₂_loadFiles.mpr h
    generalize loadFiles store path = files at h
    induction h with
    | nil => rfl
    | cons hfile _ ih => rw [List.mapM_cons, hfile, ih]; rfl
  rw [loadDocuments, hbundles]
  rfl

/-- Such files are loaded with what they hold. -/
lemma loadFiles_of_holds {bundles : List (List PolicyDocument)}
    (h : List.Forall₂ store.Holds (documentPaths store path) bundles) :
    loadFiles store path
      = ((documentPaths store path).zip bundles).map fun f => ⟨f.1, .ok f.2⟩ := by
  rw [loadFiles]
  generalize documentPaths store path = paths at h
  induction h with
  | nil => rfl
  | cons hfile _ ih =>
    rw [List.map_cons, List.zip_cons_cons, List.map_cons, ih, loadFile_eq_ok.mpr hfile]

lemma runCheck_of_ne_nil (h : loadFiles store path ≠ []) (r : Request) :
    runCheck store r path = CheckReport.outcome ⟨loadFiles store path⟩ r := by
  rw [runCheck]
  split
  · exact absurd ‹_› h
  · rfl

/-- The check succeeds exactly where some file counts, every one of them holds documents, and
no two documents have one name. -/
lemma runCheck_code_eq_zero_iff (r : Request) : (runCheck store r path).code = 0 ↔
    documentPaths store path ≠ [] ∧
      ∃ bundles, List.Forall₂ store.Holds (documentPaths store path) bundles ∧
        (bundles.flatten.map PolicyDocument.name).Nodup := by
  have hnil : loadFiles store path = [] ↔ documentPaths store path = [] := List.map_eq_nil_iff
  by_cases hempty : loadFiles store path = []
  · have hcode : (Outcome.failure r (.noDocuments path)).code = 1 := by
      rw [Outcome.failure]
      cases r.output <;> rfl
    simp [runCheck, hempty, hcode, hnil.mp hempty]
  · rw [runCheck_of_ne_nil hempty, CheckReport.code_outcome, ne_eq, ← hnil,
      and_iff_right hempty]
    simp only [← forall₂_loadFiles, ite_eq_left_iff, Nat.one_ne_zero, imp_false, not_not]
    exact CheckReport.isValid_iff

/-- What the check accepts is what is loaded.  It succeeds exactly where at least one file
counts, all files that count hold documents, and no two of these have one name; the files
that count are the path itself or, in a directory, the regular files that are named as
documents are.  Whenever it succeeds, loading succeeds with the documents of these files, and
they are the ones that the answer lists, in this order.  Neither the check nor the loaded
documents nor a decision by them depends on the order in which a directory is listed. -/
theorem check_agrees_with_loading (store : FileStore) (path : String) (r : Request) :
    (∀ file, file ∈ documentPaths store path ↔ store.Considers path file) ∧
    ((runCheck store r path).code = 0 ↔
      documentPaths store path ≠ [] ∧
        ∃ bundles, List.Forall₂ store.Holds (documentPaths store path) bundles ∧
          (bundles.flatten.map PolicyDocument.name).Nodup) ∧
    ((runCheck store r path).code = 0 →
      ∃ bundles, List.Forall₂ store.Holds (documentPaths store path) bundles ∧
        loadDocuments store path = .ok bundles.flatten ∧
        runCheck store r path = .listing ((documentPaths store path).zip bundles) r) ∧
    ∀ store', store.Relisted store' →
      runCheck store' r path = runCheck store r path ∧
        loadDocuments store' path = loadDocuments store path ∧
        ∀ now subscription config timeout, runDecide now store' r path subscription config timeout
          = runDecide now store r path subscription config timeout := by
  refine ⟨fun _ => mem_documentPaths, runCheck_code_eq_zero_iff r, fun hcode => ?_,
    fun store' h => ⟨?_, ?_, fun now subscription config timeout => ?_⟩⟩
  · obtain ⟨hpaths, bundles, hbundles, hnodup⟩ := (runCheck_code_eq_zero_iff r).mp hcode
    have hloaded := loadFiles_of_holds hbundles
    have hne : loadFiles store path ≠ [] := fun hnil => hpaths (List.map_eq_nil_iff.mp hnil)
    have hall : (((documentPaths store path).zip bundles).flatMap Prod.snd) = bundles.flatten := by
      rw [List.flatMap_def, List.map_snd_zip (Nat.le_of_eq hbundles.length_eq.symm)]
    refine ⟨bundles, hbundles, loadDocuments_of_holds hbundles, ?_⟩
    rw [runCheck_of_ne_nil hne, hloaded]
    exact CheckReport.outcome_eq_listing (hall.symm ▸ hnodup) r
  · rw [runCheck, runCheck, loadFiles_relisted h]
  · rw [loadDocuments, loadDocuments, loadFiles_relisted h]
  · exact (runDecide_relisted h now r path subscription config timeout).symm

/-- A text that is read as a bundle with these names holds documents of these names. -/
lemma FileStore.exists_holds {text : String} {names : List String}
    (hfile : store file = .file text)
    (hnames : ((Json.parse? text).bind fun json => (readBundle json).toOption).map
      (List.map PolicyDocument.name) = some names) :
    ∃ documents, store.Holds file documents ∧ documents.map PolicyDocument.name = names := by
  obtain ⟨documents, hdocuments, hnames⟩ := Option.map_eq_some_iff.mp hnames
  obtain ⟨json, hjson, hbundle⟩ := Option.bind_eq_some_iff.mp hdocuments
  refine ⟨documents, ⟨text, json, hfile, hjson, ?_⟩, hnames⟩
  cases hread : readBundle json with
  | error reason => simp [hread, Except.toOption] at hbundle
  | ok found =>
    rw [hread] at hbundle
    exact congrArg Except.ok (Option.some.inj hbundle)

/-- A directory with two files of documents, the configuration and a text that cannot be
read, listed in two orders. -/
theorem check_agrees_with_loading_directory :
    let storeOf (names : List String) : FileStore := fun path =>
      if path = "d" then .directory names
      else if path = "d/a.json" then
        .file "[\x7b\"kind\":\"policy\",\"name\":\"open\",\"entitlement\":\"permit\"\x7d]"
      else if path = "d/b.json" then
        .file "\x7b\"kind\":\"policy\",\"name\":\"closed\",\"entitlement\":\"deny\"\x7d"
      else if path = "d/notes.txt" then .illegible (.other "stream did not contain valid UTF-8")
      else .unreadable .missing
    let store := storeOf ["notes.txt", "b.json", "pdp.json", "a.json"]
    let store' := storeOf ["a.json", "b.json", "notes.txt", "pdp.json"]
    let r : Request := { command := .check "d" }
    store.Relisted store' ∧ (runCheck store r "d").code = 0 ∧
      runCheck store' r "d" = runCheck store r "d" ∧
      ∃ bundles, List.Forall₂ store.Holds ["d/a.json", "d/b.json"] bundles ∧
        bundles.flatten.map PolicyDocument.name = ["open", "closed"] ∧
        loadDocuments store "d" = .ok bundles.flatten ∧
        runCheck store r "d" = .listing (["d/a.json", "d/b.json"].zip bundles) r := by
  intro storeOf store store' r
  have hrelisted : store.Relisted store' := by
    intro path
    by_cases hpath : path = "d"
    · subst hpath
      exact .directory (by decide)
    · have hsame : store' path = store path := by simp only [store, store', storeOf, if_neg hpath]
      exact hsame ▸ .same _
  have hpaths : documentPaths store "d" = ["d/a.json", "d/b.json"] := by
    have hnames : (["notes.txt", "b.json", "pdp.json", "a.json"].filter fun name =>
        isDocumentName name && store.isFile (joinPath "d" name)) = ["b.json", "a.json"] := by
      decide +kernel
    have hsorted : (["a.json", "b.json"].mergeSort fun a b => decide (a ≤ b))
        = ["a.json", "b.json"] := List.mergeSort_of_pairwise (by decide)
    have hlisting : store.entries? "d" = some ["notes.txt", "b.json", "pdp.json", "a.json"] := rfl
    simp only [documentPaths, hlisting, hnames]
    rw [mergeSort_eq_of_perm (List.Perm.swap "a.json" "b.json" []), hsorted]
    decide +kernel
  obtain ⟨opened, hopened, hopen⟩ : ∃ documents, store.Holds "d/a.json" documents ∧
      documents.map PolicyDocument.name = ["open"] :=
    FileStore.exists_holds (by rfl) (by decide +kernel)
  obtain ⟨closed, hclosed, hclose⟩ : ∃ documents, store.Holds "d/b.json" documents ∧
      documents.map PolicyDocument.name = ["closed"] :=
    FileStore.exists_holds (by rfl) (by decide +kernel)
  have hnames : [opened, closed].flatten.map PolicyDocument.name = ["open", "closed"] := by
    simp [hopen, hclose]
  have hholds : List.Forall₂ store.Holds (documentPaths store "d") [opened, closed] := by
    rw [hpaths]
    exact .cons hopened (.cons hclosed .nil)
  obtain ⟨-, hexits, hlists, hsame⟩ := check_agrees_with_loading store "d" r
  have hcode := hexits.mpr ⟨by simp [hpaths], _, hholds, hnames ▸ by decide⟩
  obtain ⟨bundles, hbundles, hloads, hlisting⟩ := hlists hcode
  have hloaded : bundles.flatten = [opened, closed].flatten :=
    Except.ok.inj (hloads.symm.trans (loadDocuments_of_holds hholds))
  rw [hpaths] at hbundles hlisting
  exact ⟨hrelisted, hcode, (hsame store' hrelisted).1, bundles, hbundles, hloaded ▸ hnames,
    hloads, hlisting⟩

end Verdict
