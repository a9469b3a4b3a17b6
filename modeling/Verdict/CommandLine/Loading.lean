/-
Loading what a command needs.

* `CommandError`: why a command gives up, and the wording of it.
* `documentPaths`: the files at a path that count as documents.
* `loadFiles`: these files, each with its documents or why it has none.
* `loadDocuments`, `loadSubscription`, `loadConfiguration`: what deciding needs.
-/
import Verdict.Authorization.Subscription
import Verdict.CommandLine.FileStore
import Verdict.DecisionPoint.Configuration
import Verdict.Policy.Interchange

namespace Verdict

/-- Why a command gives up. -/
inductive CommandError where
  | unreadableFile (path : String) (reason : FileError)
  /-- A file of documents is no JSON. -/
  | malformedFile (path : String)
  /-- A file holds no documents. -/
  | refusedFile (path : String) (reason : InterchangeError)
  | malformedSubscription (path : String)
  | unreadableConfiguration (path : String) (reason : FileError)
  | refusedConfiguration (reason : ConfigError)
  | noDocuments (path : String)
  | noDecision (millis : Nat)

/-- The wording of a failure. -/
def CommandError.message : CommandError → String
  | unreadableFile path reason =>
    "error reading file '" ++ path ++ "': " ++ reason.message
  | malformedFile path => "error parsing JSON in '" ++ path ++ "': " ++ malformedJson
  | refusedFile path reason => path ++ ": " ++ reason.message
  | malformedSubscription path =>
    "error: invalid subscription in '" ++ path ++ "': " ++ malformedJson
  | unreadableConfiguration path reason =>
    "error: could not read '" ++ path ++ "': " ++ reason.message
  | refusedConfiguration reason => "error: " ++ reason.message
  | noDocuments path => "error: no policy documents found in '" ++ path ++ "'"
  | noDecision millis => "error: no decision within " ++ toString millis ++ " ms"

/-- The name of the file with the configuration in a directory of documents. -/
def configurationName : String := "pdp.json"

/-- Whether a file name ends in the extension of documents; the dot of a hidden
file does not begin one. -/
def hasDocumentExtension (name : String) : Bool := name.endsWith ".json" && name != ".json"

/-- Whether a file of a directory counts as a file of documents by its name. -/
def isDocumentName (name : String) : Bool :=
  hasDocumentExtension name && name != configurationName

/-- The files of documents at a path: those of a directory in the order of their
names, or else the path itself. -/
def documentPaths (store : FileStore) (path : String) : List String :=
  match store.entries? path with
  | none => [path]
  | some names =>
    ((names.filter fun name => isDocumentName name && store.isFile (joinPath path name)).mergeSort
      fun a b => decide (a ≤ b)).map (joinPath path)

/-- The documents in a file. -/
def loadFile (store : FileStore) (path : String) : Except CommandError (List PolicyDocument) :=
  match store.read path with
  | .error reason => .error (.unreadableFile path reason)
  | .ok text =>
    match Json.parse? text with
    | none => .error (.malformedFile path)
    | some json =>
      match readBundle json with
      | .error reason => .error (.refusedFile path reason)
      | .ok documents => .ok documents

/-- A file, and its documents or why it has none. -/
structure LoadedFile where
  path : String
  documents : Except CommandError (List PolicyDocument)

/-- The files of documents at a path. -/
def loadFiles (store : FileStore) (path : String) : List LoadedFile :=
  (documentPaths store path).map fun path => ⟨path, loadFile store path⟩

/-- All documents at a path; every file must have some. -/
def loadDocuments (store : FileStore) (path : String) :
    Except CommandError (List PolicyDocument) := do
  return (← (loadFiles store path).mapM LoadedFile.documents).flatten

/-- The subscription in a file. -/
def loadSubscription (store : FileStore) (path : String) :
    Except CommandError AuthorizationSubscription :=
  match store.read path with
  | .error reason => .error (.unreadableFile path reason)
  | .ok text =>
    match (Json.recordTree? AuthorizationSubscription.fields text).bind
        AuthorizationSubscription.ofJson? with
    | some s => .ok s
    | none => .error (.malformedSubscription path)

/-- The configuration in a file. -/
def loadConfigurationFile (store : FileStore) (path : String) :
    Except CommandError PdpConfiguration :=
  match store.read path with
  | .error reason => .error (.unreadableConfiguration path reason)
  | .ok text => (PdpConfiguration.ofText text).mapError .refusedConfiguration

/-- The configuration at a path.  A directory without a configuration has the
default one. -/
def loadConfiguration (store : FileStore) (path : String) :
    Except CommandError PdpConfiguration :=
  match store.entries? path with
  | none => loadConfigurationFile store path
  | some _ =>
    match store (joinPath path configurationName) with
    | .unreadable .missing => .ok {}
    | _ => loadConfigurationFile store (joinPath path configurationName)

end Verdict
