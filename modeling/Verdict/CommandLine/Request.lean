/-
Requests on the command line.

* `OutputFormat`, `Command`, `Request`: what can be asked for.
* `scanWords`: words split into options and operands.
* `Request.ofWords?`: the request that words spell.

A word that starts with `--` is an option.  Its value stands behind `=` or in the
next word.  No option may be given twice beside the same command word.
-/
import Verdict.Number.Basic

namespace Verdict

/-- The form of answers. -/
inductive OutputFormat where
  | text
  | json
  deriving DecidableEq, Repr

/-- What is to be done. -/
inductive Command where
  /-- Decide about the subscription in a file, by the documents at a path. -/
  | decide (policies subscription : String) (config : Option String) (timeout : Nat)
  /-- Say whether the documents at a path are valid. -/
  | check (path : String)
  deriving DecidableEq, Repr

/-- A command, and how its answer is to be given. -/
structure Request where
  output : OutputFormat := .text
  quiet : Bool := false
  command : Command
  deriving DecidableEq, Repr

/-- How long a decision is waited for by default, in milliseconds. -/
def defaultTimeout : Nat := 5000

/-- Options by name; those without a value have the empty one. -/
abbrev OptionValues : Type := List (String × String)

/-- Whether a word can only be an option. -/
def looksLikeOption (word : String) : Bool := word.startsWith "-" && word != "-"

/-- The name and the value of a word `--name=value`; the value may be missing. -/
def splitOption (word : String) : String × Option String :=
  let cs := word.toList.drop 2
  let name := String.ofList (cs.takeWhile (· != '='))
  match cs.dropWhile (· != '=') with
  | _ :: value => (name, some (String.ofList value))
  | [] => (name, none)

/-- An option before those that a scan has found. -/
def addOption (option : String × String) (scanned : Option (OptionValues × List String)) :
    Option (OptionValues × List String) :=
  scanned.map fun (options, operands) => (option :: options, operands)

/-- Splits words into options and operands.  `valued` says which options there
are and whether they take a value, and `awaiting` is the option whose value the
first word is.  With `leading`, everything from the first operand on is left alone. -/
def scanWords (leading : Bool) (valued : String → Option Bool) (awaiting : Option String) :
    List String → Option (OptionValues × List String)
  | [] => if awaiting.isSome then none else some ([], [])
  | word :: rest =>
    match awaiting with
    | some name =>
      if looksLikeOption word || word = "" then none
      else addOption (name, word) (scanWords leading valued none rest)
    | none =>
      if word = "--" then if leading then none else some ([], rest)
      else if word.startsWith "--" then
        match splitOption word with
        | (name, value) =>
          match valued name, value with
          | some false, none => addOption (name, "") (scanWords leading valued none rest)
          | some true, some v =>
            if v = "" then none else addOption (name, v) (scanWords leading valued none rest)
          | some true, none => scanWords leading valued (some name) rest
          | _, _ => none
      else if looksLikeOption word then none
      else if leading then some ([], word :: rest)
      else (scanWords leading valued none rest).map fun (options, operands) =>
        (options, word :: operands)

/-- The options of every command. -/
def commonOption : String → Option Bool
  | "output" => some true
  | "quiet" => some false
  | _ => none

/-- The options of deciding. -/
def decideOption : String → Option Bool
  | "policies" | "subscription" | "config" | "timeout-ms" => some true
  | name => commonOption name

/-- A number of milliseconds in 64 bits; a plus sign may stand in front. -/
def readMillis? (text : String) : Option Nat :=
  let ds := match text.toList with
    | '+' :: ds => ds
    | ds => ds
  if ds.isEmpty || !ds.all Char.isDigit then none
  else
    let n : Nat := ds.foldl (fun n d => 10 * n + (d.toNat - '0'.toNat)) 0
    if (n : Int) ≤ Number.greatestUnsigned then some n else none

/-- The form of answers that a word names. -/
def OutputFormat.ofName? : String → Option OutputFormat
  | "text" => some .text
  | "json" => some .json
  | _ => none

namespace Command

/-- The command of a command word with its options and operands. -/
def ofParts? (name : String) (options : OptionValues) (operands : List String) : Option Command :=
  match name, operands with
  | "decide", [] => do
    let timeout ← match options.lookup "timeout-ms" with
      | none => some defaultTimeout
      | some text => readMillis? text
    return .decide (← options.lookup "policies") (← options.lookup "subscription")
      (options.lookup "config") timeout
  | "check", [path] => if path = "" then none else some (.check path)
  | _, _ => none

/-- The options of the command of a command word. -/
def optionsOf (name : String) : String → Option Bool :=
  if name = "decide" then decideOption else commonOption

end Command

namespace Request

/-- The request that words spell, if they spell one.  An option beside the
command word gives way to the same one behind it. -/
def ofWords? (words : List String) : Option Request := do
  match ← scanWords true commonOption none words with
  | (before, name :: rest) =>
    let (options, operands) ← scanWords false (Command.optionsOf name) none rest
    guard ((before.map Prod.fst).Nodup ∧ (options.map Prod.fst).Nodup)
    let all := options ++ before
    guard ((all.filter (·.1 == "output")).all fun (_, v) =>
      (OutputFormat.ofName? v).isSome)
    return {
      output := ((all.lookup "output").bind OutputFormat.ofName?).getD .text
      quiet := (all.lookup "quiet").isSome
      command := ← Command.ofParts? name options operands }
  | _ => none

/-- The path of the documents of a request. -/
def documents (r : Request) : String :=
  match r.command with
  | .decide policies _ _ _ => policies
  | .check path => path

/-- The other paths that a request names. -/
def otherPaths (r : Request) : List String :=
  match r.command with
  | .decide _ subscription config _ => subscription :: config.toList
  | .check _ => []

end Request
end Verdict
