/-
Editing the targets of a filter statement.

The targets are visited from the last to the first in document order, each one
once.  So removing an element never moves a target that is still to come, and
a node is read after the nodes below it were edited.

* `Resolved.targets`: the nodes that a statement edits.
* `lastToFirst`: the order of visits.
* `Replacer`: a function with its arguments, and what it makes of a target.
* `Resolved.edit`: the edited value.
* `edited`: the same for a target and arguments that may have failed.
-/
import Verdict.Evaluation.Construction
import Verdict.Function.Registry
import Verdict.Policy.Expression
import Verdict.Selection.Basic

namespace Verdict

/-- The nodes that a statement edits: the selected one, or each of several. -/
def Resolved.targets (r : Resolved) (each : Bool) : Except EvalError (List Selected) :=
  match r.selection, each with
  | .nothing, _ => .error (.filterTarget "filter target selects nothing")
  | .single s, false => .ok [s]
  | .single s, true =>
    if r.arena.isArray s.node then .ok (r.arena.children s.node)
    else .error (.filterTarget ("'each' expects an array, got " ++ r.arena.kind s.node))
  | .multiple items, true => .ok items
  | .multiple _, false =>
    .error (.filterTarget "filter target selects several values; use 'each'")

/-- A target in its place among targets with descending numbers, instead of an
earlier one of the same node. -/
def insertDescending (t : Selected) : List Selected → List Selected
  | [] => [t]
  | s :: rest =>
    if s.node < t.node then t :: s :: rest
    else if s.node = t.node then t :: rest
    else s :: insertDescending t rest

/-- The targets from the last to the first, each node once. -/
def lastToFirst (targets : List Selected) : List Selected :=
  targets.foldl (fun done t => insertDescending t done) []

/-- What removing a whole value leaves behind. -/
def Json.emptied? : Json → Option Json
  | .array _ => some (.array [])
  | .object _ => some (.object [])
  | .string _ => some (.string "")
  | _ => none

/-- A function of a filter with the arguments behind the target. -/
structure Replacer where
  functions : FunctionRegistry
  function : String
  arguments : List Value

namespace Replacer

/-- Whether the function deletes its targets. -/
def removes (f : Replacer) : Bool := f.function == removeFunction

/-- What becomes of a target; none means that it is deleted. -/
def outcome (f : Replacer) (target : Json) : Except EvalError (Option Json) :=
  if f.removes then .ok none
  else if f.function = "" then .ok (some target)
  else
    match f.functions.call f.function (.defined target :: f.arguments) with
    | .error cause => .error cause
    | .undefined => .ok none
    | .defined json => .ok (some json)

end Replacer

/-- A document while it is edited; without a root it has become undefined. -/
structure Draft where
  arena : Arena
  root : Option Nat

namespace Draft

/-- The draft with the whole value replaced, or undefined. -/
def replaceRoot (draft : Draft) : Option Json → Draft
  | some json =>
    let (arena, id) := draft.arena.insert json
    ⟨arena, some id⟩
  | none => { draft with root := none }

/-- The draft after a visit of a target. -/
def visit (f : Replacer) (root : Nat) (draft : Draft) (t : Selected) : Except EvalError Draft := do
  let outcome ← f.outcome (draft.arena.toJson t.node)
  match t.handle, outcome with
  | some handle, some json =>
    let (arena, result) := draft.arena.replace handle json
    result.map fun _ => { draft with arena }
  | some handle, none =>
    return { draft with arena := ← draft.arena.remove handle }
  | none, some json => return draft.replaceRoot (some json)
  | none, none =>
    return draft.replaceRoot
      (if f.removes then (draft.arena.toJson root).emptied? else none)

/-- The value of a draft. -/
def value (draft : Draft) : Value :=
  match draft.root with
  | some id => .defined (draft.arena.toJson id)
  | none => .undefined

end Draft

/-- The document with the targets edited. -/
def Resolved.edit (r : Resolved) (each : Bool) (f : Replacer) : Value :=
  let draft : Except EvalError Draft := do
    (lastToFirst (← r.targets each)).foldlM (Draft.visit f r.root) ⟨r.arena, some r.root⟩
  match draft with
  | .ok draft => draft.value
  | .error cause => .error cause

/-- What a statement makes of its resolved target: the failure of the target
comes first, then the one of an argument. -/
def edited (functions : FunctionRegistry) (each : Bool) (function : String)
    (target : Resolution) (arguments : List Value) : Value :=
  match target with
  | .error cause => .error cause
  | .ok r =>
    match Value.firstError? arguments with
    | some cause => .error cause
    | none => r.edit each ⟨functions, function, arguments⟩

end Verdict
