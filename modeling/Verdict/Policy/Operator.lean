/-
The operators of policy expressions.

* `BinaryOperator`, `UnaryOperator`: the operators.
* `BinaryOperator.name`, `ofName?`: their names in policy documents.
* `BinaryOperator.symbol`: their spelling in messages.
* `ofName?_name`: every operator is read back from its name.
-/

namespace Verdict

/-- An operator with two operands. -/
inductive BinaryOperator where
  | or | and | xor
  | eq | ne | lt | le | gt | ge
  | regex | isIn
  | add | sub | mul | div | mod
  deriving DecidableEq, Repr

/-- An operator with one operand. -/
inductive UnaryOperator where
  | not
  | neg
  deriving DecidableEq, Repr

namespace BinaryOperator

/-- All operators. -/
def all : List BinaryOperator :=
  [.or, .and, .xor, .eq, .ne, .lt, .le, .gt, .ge, .regex, .isIn, .add, .sub, .mul, .div, .mod]

/-- The name in policy documents. -/
def name : BinaryOperator → String
  | .or => "or" | .and => "and" | .xor => "xor"
  | .eq => "eq" | .ne => "ne" | .lt => "lt" | .le => "le" | .gt => "gt" | .ge => "ge"
  | .regex => "regex" | .isIn => "in"
  | .add => "add" | .sub => "sub" | .mul => "mul" | .div => "div" | .mod => "mod"

/-- The operator of a name. -/
def ofName? (name : String) : Option BinaryOperator := all.find? fun op => op.name == name

/-- The spelling in messages. -/
def symbol : BinaryOperator → String
  | .or => "||" | .and => "&&" | .xor => "^"
  | .eq => "==" | .ne => "!=" | .lt => "<" | .le => "<=" | .gt => ">" | .ge => ">="
  | .regex => "=~" | .isIn => "in"
  | .add => "+" | .sub => "-" | .mul => "*" | .div => "/" | .mod => "%"

theorem ofName?_name (op : BinaryOperator) : ofName? op.name = some op := by
  cases op <;> decide

end BinaryOperator

namespace UnaryOperator

/-- The name in policy documents. -/
def name : UnaryOperator → String
  | .not => "not"
  | .neg => "neg"

/-- The operator of a name. -/
def ofName? (name : String) : Option UnaryOperator :=
  [UnaryOperator.not, .neg].find? fun op => op.name == name

theorem ofName?_name (op : UnaryOperator) : ofName? op.name = some op := by
  cases op <;> decide

end UnaryOperator
end Verdict
