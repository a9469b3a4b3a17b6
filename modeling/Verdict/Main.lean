/-
The program: gathers the files that the words of the command line name, and
prints the answer.

The names of the entries of a directory are read from standard input, one a
line.
-/
import Std.Time.Format
import Verdict.CommandLine.Decide

namespace Verdict

/-- Why reading has failed. -/
def fileError : IO.Error → FileError
  | .noFileOrDirectory _ _ _ => .missing
  | .inappropriateType _ code details =>
    if code = 20 then .notDirectory else if code = 21 then .isDirectory else .other details
  | e => .other e.toString

/-- The lines of standard input. -/
partial def readNames (input : IO.FS.Stream) : IO (List String) := do
  let line ← input.getLine
  if line.isEmpty then return []
  return String.ofList (line.toList.filter (· != '\n')) :: (← readNames input)

/-- What is found at a path; a directory comes without its entries. -/
def readEntry (path : String) : IO FileEntry := do
  try
    let bytes ← IO.FS.readBinFile path
    return match String.fromUTF8? bytes with
      | some contents => .file contents
      | none => .illegible (.other "stream did not contain valid UTF-8")
  catch e =>
    return match e, fileError e with
      | _, .isDirectory => .directory []
      | .permissionDenied _ _ _, reason => .illegible reason
      | _, reason => .unreadable reason

/-- What is found at a path and, in a directory, below it: the configuration,
and the entries of the names that are read. -/
def gather (names : IO (List String)) (path : String) : IO (List (String × FileEntry)) := do
  match ← readEntry path with
  | .directory _ =>
    let names ← names
    let below ← (configurationName :: names).mapM fun name => do
      return (joinPath path name, ← readEntry (joinPath path name))
    return (path, .directory names) :: below
  | entry => return [(path, entry)]

/-- Everything that is found at the paths of a request. -/
def gatherAll (r : Request) : IO (List (String × FileEntry)) := do
  let documents ← gather (do readNames (← IO.getStdin)) r.documents
  let others ← r.otherPaths.mapM (gather (pure []))
  return documents ++ others.flatten

end Verdict

open Verdict in
def main (words : List String) : IO UInt32 := do
  let found ← match Request.ofWords? words with
    | some r => gatherAll r
    | none => pure []
  let now ← Std.Time.Timestamp.now
  let store : FileStore := fun path => (found.lookup path).getD (.unreadable .missing)
  let outcome := runCommand now.toMillisecondsSinceUnixEpoch.val.toNat store words
  IO.print outcome.stdout
  IO.eprint outcome.stderr
  return outcome.code.toUInt32
