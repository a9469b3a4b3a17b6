/-
The steps that select by structure alone.

On a fan-out, steps by name select from every node, and steps by position
select from the sequence of nodes.  A missing name selects nothing; a position
in something that is no array is a failure.

* `walk`, `sliceBounds`, `sliceSpan`, `slice`: the elements of a slice with optional bounds.
* `indexUnion`, `keyUnion`: elements by several positions or names.
* `Resolved.step`: one structural step.
-/
import Verdict.Policy.Expression
import Verdict.Selection.Basic

namespace Verdict

/-! ### Slices

Bounds and strides are numbers of 64 bits, and so is all that is computed from them. -/

/-- The sum, if 64 bits hold it. -/
def checkedAdd? (a b : Int64) : Option Int64 :=
  if (a + b).toInt = a.toInt + b.toInt then some (a + b) else none

/-- The positions `i, i + stride, ...` before `stop`, as far as the fuel goes; `stop` lies
in the direction of the stride.  The last one is that behind which 64 bits hold no other. -/
def walk (stop stride : Int64) : Nat → Int64 → List Nat
  | 0, _ => []
  | fuel + 1, i =>
    if (if 0 < stride then i < stop else stop < i) then
      i.toUInt64.toNat :: match checkedAdd? i stride with
        | some next => walk stop stride fuel next
        | none => []
    else []

/-- A bound, counted from the end if it is negative. -/
def fromEnd (length bound : Int64) : Int64 := if bound < 0 then bound + length else bound

/-- A number held between two limits. -/
def clamp (low high i : Int64) : Int64 :=
  if i < low then low else if high < i then high else i

/-- Where a slice starts and where it stops. -/
def sliceBounds (length : Int64) (start stop : Option Int64) (stride : Int64) : Int64 × Int64 :=
  if 0 < stride then
    (clamp 0 length ((start.map (fromEnd length)).getD 0),
      clamp 0 length ((stop.map (fromEnd length)).getD length))
  else
    (clamp (-1) (length - 1) ((start.map (fromEnd length)).getD (length - 1)),
      clamp (-1) (length - 1) ((stop.map (fromEnd length)).getD (-1)))

/-- The positions of a slice of a sequence of `length`, which are no more than that; the
stride is not zero. -/
def sliceSpan (length : Nat) (start stop : Option Int64) (stride : Int64) : List Nat :=
  walk (sliceBounds (.ofNat length) start stop stride).2 stride length
    (sliceBounds (.ofNat length) start stop stride).1

/-- The stride of a slice, by default one. -/
def sliceStride (stride : Option Int) : Int64 := (stride.map Int64.ofInt).getD 1

/-- The elements of a slice, refused for a stride of zero. -/
def slice (items : List Selected) (start stop stride : Option Int) :
    Except EvalError (List Selected) :=
  if sliceStride stride = 0 then .error (.typeMismatch "slice step must not be zero")
  else
    .ok ((sliceSpan items.length (start.map Int64.ofInt) (stop.map Int64.ofInt)
      (sliceStride stride)).filterMap (items[·]?))

/-! ### Unions -/

/-- The elements at some positions, once each and in their order; positions out
of range are passed over. -/
def indexUnion (items : List Selected) (positions : List Int) : List Selected :=
  let wanted := positions.filterMap (position? · items.length)
  (List.range items.length).filterMap fun i => if i ∈ wanted then items[i]? else none

/-- The members of some names, in the order of the names. -/
def keyUnion (arena : Arena) (node : Nat) (names : List String) : List Selected :=
  names.filterMap (arena.member? node)

/-! ### Steps -/

/-- The failure of a step on a node of a kind that it does not take. -/
def stepMismatch (step : String) (arena : Arena) (node : Nat) : EvalError :=
  .typeMismatch (step ++ " step cannot be applied to " ++ arena.kind node)

namespace Resolved

/-- The nodes of the subtrees of all selected nodes, tree after tree. -/
def subtrees (r : Resolved) : List Nat :=
  r.selection.toList.flatMap fun s => r.arena.subtree s.node

/-- What a structural step selects. -/
def stepSelection (r : Resolved) (step : Step) : Except EvalError Selection :=
  let arena := r.arena
  match r.selection, step with
  | .nothing, _ => .ok .nothing
  | .single s, .key name =>
    match arena.member? s.node name with
    | some child => .ok (.single child)
    | none => .ok .nothing
  | .multiple items, .key name =>
    .ok (.multiple (items.filterMap fun s => arena.member? s.node name))
  | .single s, .index position => .single <$> arena.element s.node position
  | .multiple items, .index position =>
    match (position? position items.length).bind (items[·]?) with
    | some s => .ok (.single s)
    | none => .error (.indexOutOfRange position items.length)
  | .single s, .wildcard =>
    if arena.isArray s.node || arena.isObject s.node then
      .ok (.multiple (arena.children s.node))
    else .error (stepMismatch "wildcard" arena s.node)
  | .multiple items, .wildcard => .ok (.multiple items)
  | .single s, .slice start stop stride =>
    if arena.isArray s.node then
      .multiple <$> slice (arena.children s.node) start stop stride
    else .error (stepMismatch "slice" arena s.node)
  | .multiple items, .slice start stop stride => .multiple <$> slice items start stop stride
  | .single s, .keyUnion names => .ok (.multiple (keyUnion arena s.node names))
  | .multiple items, .keyUnion names =>
    .ok (.multiple (items.flatMap fun s => keyUnion arena s.node names))
  | .single s, .indexUnion positions =>
    if arena.isArray s.node then
      .ok (.multiple (indexUnion (arena.children s.node) positions))
    else .error (stepMismatch "index union" arena s.node)
  | .multiple items, .indexUnion positions => .ok (.multiple (indexUnion items positions))
  | _, .recursiveKey name =>
    .ok (.multiple (r.subtrees.filterMap fun node => arena.member? node name))
  | _, .recursiveIndex position =>
    .ok (.multiple (r.subtrees.filterMap fun node =>
      if arena.isArray node then (arena.element node position).toOption else none))
  | _, .recursiveWildcard =>
    .ok (.multiple (r.selection.toList.flatMap fun s => arena.descendants s.node))
  | _, .computed _ | _, .condition _ | _, .attribute _ _ =>
    .error (.typeMismatch "step requires evaluation and cannot be applied structurally")

/-- One structural step. -/
def step (r : Resolved) (step : Step) : Except EvalError Resolved :=
  r.select <$> r.stepSelection step

end Resolved
end Verdict
