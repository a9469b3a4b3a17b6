/-
What a command answers.

* `Outcome`: the exit code and the two texts.
* `Outcome.ofLines`: an outcome of lines.
* `Outcome.failure`: the report of a failure.
-/
import Verdict.CommandLine.Loading
import Verdict.CommandLine.Request
import Verdict.Json.Printer

namespace Verdict

/-- The answer of a command. -/
structure Outcome where
  code : Nat
  stdout : String := ""
  stderr : String := ""
  deriving DecidableEq, Repr

namespace Outcome

/-- A text of lines. -/
def lines (ls : List String) : String := String.join (ls.map (· ++ "\n"))

/-- An outcome whose texts are lines. -/
def ofLines (code : Nat) (stdout stderr : List String) : Outcome :=
  ⟨code, lines stdout, lines stderr⟩

/-- The report of a failure: as JSON in any case, as text unless it is to be quiet. -/
def failure (r : Request) (e : CommandError) : Outcome :=
  match r.output with
  | .json => ofLines 1 [] [(Json.object [("error", .string e.message)]).pretty]
  | .text => ofLines 1 [] (if r.quiet then [] else [e.message])

/-- The answer to words that spell no request. -/
def misuse : Outcome :=
  ofLines 2 []
    ["usage: decide --policies PATH --subscription PATH [--config PATH] [--timeout-ms N]",
      "       check PATH", "options: --output text|json, --quiet"]

end Outcome
end Verdict
