/-
Selections of nodes from a document.

* `Selection`: nothing, a single node, or a fan-out of nodes in document order.
* `Resolved`: a selection together with the document it points into.
* `Resolved.ofValue`: the start of a chain of steps.
* `Resolved.value`, `Resolved.document`: what is selected, and the whole.
-/
import Verdict.Selection.Arena
import Verdict.Value.Basic

namespace Verdict

/-- The outcome of a chain of steps. -/
inductive Selection where
  | nothing
  | single (selected : Selected)
  | multiple (selected : List Selected)
  deriving DecidableEq, Repr

/-- A selection bound to the document that it points into. -/
structure Resolved where
  arena : Arena
  root : Nat
  selection : Selection

namespace Selection

instance : Inhabited Selection := ⟨.nothing⟩

/-- The selected nodes in their order. -/
def toList : Selection → List Selected
  | nothing => []
  | single s => [s]
  | multiple items => items

end Selection

namespace Resolved

/-- The start of a chain: the root of a defined value, nothing otherwise. -/
def ofValue : Value → Resolved
  | .defined json => ⟨Arena.ofJson json, 0, .single ⟨0, none⟩⟩
  | _ => ⟨⟨#[]⟩, 0, .nothing⟩

/-- Another selection from the same document. -/
def select (r : Resolved) (selection : Selection) : Resolved := { r with selection }

/-- The selected value: undefined, the single node, or the array of a fan-out. -/
def value (r : Resolved) : Value :=
  match r.selection with
  | .nothing => .undefined
  | .single s => .defined (r.arena.toJson s.node)
  | .multiple items => .defined (.array (items.map fun s => r.arena.toJson s.node))

/-- The whole document; undefined if there is none. -/
def document (r : Resolved) : Value :=
  match r.selection with
  | .nothing =>
    if r.arena.nodes.isEmpty then .undefined else .defined (r.arena.toJson r.root)
  | _ => .defined (r.arena.toJson r.root)

end Resolved
end Verdict
