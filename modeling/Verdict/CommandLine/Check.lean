/-
The command that checks documents.

* `CheckReport`: the files, and the names that documents share.
* `CheckReport.isValid`: every file has documents, and no two share a name.
* `runCheck`: the answer of the command.
-/
import Verdict.CommandLine.Outcome

namespace Verdict

/-- What checking has found. -/
structure CheckReport where
  files : List LoadedFile

namespace CheckReport

/-- The names of all documents in their order. -/
def names (c : CheckReport) : List String :=
  c.files.flatMap fun f =>
    match f.documents with
    | .ok documents => documents.map PolicyDocument.name
    | .error _ => []

/-- The names that several documents have, in ascending order. -/
def duplicates (c : CheckReport) : List String :=
  ((c.names.filter fun name => 1 < c.names.count name).eraseDups).mergeSort fun a b =>
    decide (a ≤ b)

/-- Whether every file has documents. -/
def allLoaded (c : CheckReport) : Bool := c.files.all (·.documents.isOk)

/-- Whether everything is as it should be. -/
def isValid (c : CheckReport) : Bool := c.allLoaded && c.duplicates.isEmpty

/-- A document in words. -/
def describe : PolicyDocument → String
  | .policy p => "policy '" ++ p.name ++ "' (" ++ p.entitlement.name ++ ")"
  | .set s =>
    "policy set '" ++ s.name ++ "' (" ++ s.algorithm.name ++ ", " ++ toString s.policies.length ++
      " policies)"

/-- A document as JSON. -/
def summary : PolicyDocument → Json
  | .policy p =>
    .object [("kind", .string "policy"), ("name", .string p.name),
      ("entitlement", .string p.entitlement.name)]
  | .set s =>
    .object [("kind", .string "policy_set"), ("name", .string s.name),
      ("algorithm", .string s.algorithm.name),
      ("policies", .array (s.policies.map fun p => .string p.name))]

/-- A file as JSON. -/
def fileJson (f : LoadedFile) : Json :=
  match f.documents with
  | .ok documents =>
    .object [("path", .string f.path), ("valid", .bool true),
      ("documents", .array (documents.map summary))]
  | .error e =>
    .object [("path", .string f.path), ("valid", .bool false), ("error", .string e.message)]

/-- The report as JSON. -/
def toJson (c : CheckReport) : Json :=
  .object [("valid", .bool c.isValid), ("files", .array (c.files.map fileJson)),
    ("duplicate_names", .array (c.duplicates.map .string))]

/-- The lines about documents. -/
def documentLines (c : CheckReport) : List String :=
  c.files.flatMap fun f =>
    match f.documents with
    | .ok documents => documents.map fun d => f.path ++ ": " ++ describe d
    | .error _ => []

/-- The lines about what is wrong. -/
def failureLines (c : CheckReport) : List String :=
  (c.files.filterMap fun f =>
    match f.documents with
    | .ok _ => none
    | .error e => some ("invalid: " ++ e.message)) ++
  c.duplicates.map fun name => "duplicate document name '" ++ name ++ "'"

/-- The last line about valid documents. -/
def verdictLines (c : CheckReport) : List String :=
  if c.isValid then ["valid (" ++ toString c.names.length ++ " document(s))"] else []

/-- The answer that gives a report. -/
def outcome (c : CheckReport) (r : Request) : Outcome :=
  let code := if c.isValid then 0 else 1
  match r.output with
  | .json =>
    if c.isValid then .ofLines code [c.toJson.pretty] []
    else .ofLines code [] [c.toJson.pretty]
  | .text =>
    .ofLines code (if r.quiet then [] else c.documentLines ++ c.verdictLines) c.failureLines

end CheckReport

/-- The answer of checking the documents at a path. -/
def runCheck (store : FileStore) (r : Request) (path : String) : Outcome :=
  match loadFiles store path with
  | [] => .failure r (.noDocuments path)
  | files => CheckReport.outcome ⟨files⟩ r

end Verdict
