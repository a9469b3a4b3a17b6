/-
Documents flattened into numbered nodes.

Nodes are numbered in document order, a value before its parts.  A selected
node may carry a handle, the parent and the slot through which it can be
replaced or removed; both only rewire that slot.  New values are appended, so
no number is ever given twice.

* `Node`, `Slot`, `Handle`, `Selected`: nodes and ways to reach them.
* `Arena.flatten`, `Arena.insert`, `Arena.ofJson`: building.
* `Arena.toJson`, `children`, `descendants`, `subtree`: reading.
* `Arena.replace`, `Arena.remove`: changes through a handle.
* `Arena.WellFormed`: the children of a node are allocated and come after it.
-/
import Verdict.Json.Basic
import Verdict.Unicode.Letters
import Verdict.Unicode.Marks
import Verdict.Unicode.Numbers
import Verdict.Value.Error

namespace Verdict

/-- A node of a document; its parts are given by their numbers. -/
inductive Node where
  | scalar (value : Json)
  | array (children : List Nat)
  | object (members : List (String × Nat))

/-- The place of a part inside its parent. -/
inductive Slot where
  | index (position : Nat)
  | key (name : String)
  deriving DecidableEq, Repr

/-- A parent and the slot of one of its parts. -/
structure Handle where
  parent : Nat
  slot : Slot
  deriving DecidableEq, Repr

/-- A selected node, with its handle if it was reached through a parent. -/
structure Selected where
  node : Nat
  handle : Option Handle
  deriving DecidableEq, Repr

/-- The nodes of a document and of all values inserted since. -/
structure Arena where
  nodes : Array Node

/-! ### Slots in messages -/

/-- Whether a character is seen as itself in a message: the blank, letters,
numbers, punctuation, symbols, and marks with a place of their own. -/
def Slot.isVisible (c : Char) : Bool :=
  c == ' ' || [Unicode.letters, Unicode.decimalDigits, Unicode.letterNumbers,
    Unicode.otherNumbers, Unicode.punctuation, Unicode.symbols, Unicode.spacingMarks].any
      (·.mem c.toNat)

/-- A character as it stands in the name of a slot; one that is not visible is
given by its number. -/
def Slot.shownChar (c : Char) : List Char :=
  if c = '"' then ['\\', '"']
  else if c = '\\' then ['\\', '\\']
  else if c = '\n' then ['\\', 'n']
  else if c = '\r' then ['\\', 'r']
  else if c = '\t' then ['\\', 't']
  else if c.toNat = 0 then ['\\', '0']
  else if Slot.isVisible c then [c]
  else ['\\', 'u', '\x7b'] ++ Nat.toDigits 16 c.toNat ++ ['\x7d']

/-- The text of a slot in messages. -/
def Slot.shown : Slot → String
  | index position => "Index(" ++ toString position ++ ")"
  | key name => "Key(\"" ++ String.ofList (name.toList.flatMap shownChar) ++ "\")"

/-- The failure of a handle whose slot is gone. -/
def Handle.stale (handle : Handle) : EvalError :=
  .filterTarget ("selection handle " ++ handle.slot.shown ++ " of node " ++
    toString handle.parent ++ " no longer resolves")

/-- A position in a sequence of `length`; a negative one counts from the end. -/
def position? (position : Int) (length : Nat) : Option Nat :=
  let i := if position < 0 then length + position else position
  if 0 ≤ i ∧ i < length then some i.toNat else none

/-! ### Slots of a node -/

namespace Node

/-- The members with the one of a name pointed elsewhere, if it is there. -/
def redirectMember (key : String) (target : Nat) :
    List (String × Nat) → Option (List (String × Nat))
  | [] => none
  | (k, child) :: rest =>
    if k = key then some ((k, target) :: rest)
    else (redirectMember key target rest).map ((k, child) :: ·)

/-- The node with one slot pointed elsewhere, if it has the slot. -/
def redirect? (target : Nat) : Node → Slot → Option Node
  | .array ids, .index i => if i < ids.length then some (.array (ids.set i target)) else none
  | .object members, .key key => (redirectMember key target members).map .object
  | _, _ => none

/-- The node without one slot, if it has the slot. -/
def erase? : Node → Slot → Option Node
  | .array ids, .index i => if i < ids.length then some (.array (ids.eraseIdx i)) else none
  | .object members, .key key =>
    if members.any fun (k, _) => k == key then
      some (.object (members.filter fun (k, _) => k != key))
    else none
  | _, _ => none

end Node

namespace Arena

instance : Inhabited Arena := ⟨⟨#[]⟩⟩

/-! ### Building -/

mutual

/-- The nodes of a value whose own number is `start`, in document order. -/
def flatten (start : Nat) : Json → List Node
  | .array items =>
    let (children, nodes) := flattenItems (start + 1) items
    .array children :: nodes
  | .object members =>
    let (children, nodes) := flattenMembers (start + 1) members
    .object children :: nodes
  | value => [.scalar value]

/-- The numbers of some values and their nodes, the first number being `start`. -/
def flattenItems (start : Nat) : List Json → List Nat × List Node
  | [] => ([], [])
  | item :: rest =>
    let first := flatten start item
    let (children, nodes) := flattenItems (start + first.length) rest
    (start :: children, first ++ nodes)

/-- The names and numbers of some members and their nodes. -/
def flattenMembers (start : Nat) : List (String × Json) → List (String × Nat) × List Node
  | [] => ([], [])
  | (key, value) :: rest =>
    let first := flatten start value
    let (children, nodes) := flattenMembers (start + first.length) rest
    ((key, start) :: children, first ++ nodes)

end

/-- Appends the nodes of a value; the result is its number. -/
def insert (arena : Arena) (value : Json) : Arena × Nat :=
  (⟨arena.nodes ++ (flatten arena.nodes.size value).toArray⟩, arena.nodes.size)

/-- The arena of one document; its root is node 0. -/
def ofJson (value : Json) : Arena := (insert ⟨#[]⟩ value).1

/-! ### Reading -/

/-- A node by its number. -/
def node? (arena : Arena) (id : Nat) : Option Node := arena.nodes[id]?

def isArray (arena : Arena) (id : Nat) : Bool :=
  match arena.node? id with
  | some (.array _) => true
  | _ => false

def isObject (arena : Arena) (id : Nat) : Bool :=
  match arena.node? id with
  | some (.object _) => true
  | _ => false

/-- The name of the kind of a node. -/
def kind (arena : Arena) (id : Nat) : String :=
  match arena.node? id with
  | some (.scalar value) => value.kind
  | some (.array _) => "array"
  | some (.object _) => "object"
  | none => Json.null.kind

/-- The parts of a node with their handles, in document order. -/
def children (arena : Arena) (id : Nat) : List Selected :=
  match arena.node? id with
  | some (.array ids) => ids.mapIdx fun i child => ⟨child, some ⟨id, .index i⟩⟩
  | some (.object members) => members.map fun (key, child) => ⟨child, some ⟨id, .key key⟩⟩
  | _ => []

/-- The part of an object with the given name. -/
def member? (arena : Arena) (id : Nat) (key : String) : Option Selected :=
  match arena.node? id with
  | some (.object members) =>
    (members.lookup key).map fun child => ⟨child, some ⟨id, .key key⟩⟩
  | _ => none

/-- The part of an array at a position; a negative one counts from the end. -/
def element (arena : Arena) (id : Nat) (position : Int) : Except EvalError Selected :=
  match arena.node? id with
  | some (.array ids) =>
    match position? position ids.length with
    | some i => .ok ⟨ids.getD i 0, some ⟨id, .index i⟩⟩
    | none => .error (.indexOutOfRange position ids.length)
  | _ => .error (.typeMismatch ("index step expects an array, got " ++ arena.kind id))

/-- The value of a node.  Only parts with a later number are entered: in a
well-formed arena these are all parts. -/
def toJson (arena : Arena) (id : Nat) : Json :=
  match arena.node? id with
  | some (.scalar value) => value
  | some (.array ids) =>
    .array (ids.map fun child =>
      if _h : id < child ∧ child < arena.nodes.size then toJson arena child else .null)
  | some (.object members) =>
    .object (members.map fun (key, child) =>
      if _h : id < child ∧ child < arena.nodes.size then (key, toJson arena child)
      else (key, .null))
  | none => .null
  termination_by arena.nodes.size - id

/-- All nodes below a node, in document order. -/
def descendants (arena : Arena) (id : Nat) : List Selected :=
  (arena.children id).flatMap fun child =>
    child :: (if _h : id < child.node ∧ child.node < arena.nodes.size then
      descendants arena child.node else [])
  termination_by arena.nodes.size - id

/-- A node and all nodes below it, in document order. -/
def subtree (arena : Arena) (id : Nat) : List Nat :=
  id :: (arena.descendants id).map Selected.node

/-! ### Changing -/

/-- The arena with another node at a number. -/
def setNode (arena : Arena) (id : Nat) (node : Node) : Arena :=
  ⟨arena.nodes.setIfInBounds id node⟩

/-- Appends a value and points the slot of a handle at it.  The value stays
appended where the slot is gone. -/
def replace (arena : Arena) (handle : Handle) (value : Json) : Arena × Except EvalError Nat :=
  let (arena, id) := arena.insert value
  match (arena.node? handle.parent).bind (Node.redirect? id · handle.slot) with
  | some node => (arena.setNode handle.parent node, .ok id)
  | none => (arena, .error handle.stale)

/-- Takes the slot of a handle out of its parent; later elements move up. -/
def remove (arena : Arena) (handle : Handle) : Except EvalError Arena :=
  match (arena.node? handle.parent).bind (Node.erase? · handle.slot) with
  | some node => .ok (arena.setNode handle.parent node)
  | none => .error handle.stale

/-! ### Invariant -/

/-- The children of every node are allocated and come after it. -/
def WellFormed (arena : Arena) : Prop :=
  ∀ id, ∀ child ∈ arena.children id, id < child.node ∧ child.node < arena.nodes.size

end Arena
end Verdict
