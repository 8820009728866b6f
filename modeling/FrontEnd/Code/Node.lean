import FrontEnd.Binary64.Basic
import FrontEnd.DataType.Basic
import FrontEnd.Symbol.Handle

/-!
# Intermediate code

The body of a routine is a tree of nodes.  A node has a kind, a type, its children in order, and the
attributes that its kind calls for: the line of the source, the symbol entry it refers to, the value
of a constant.
-/

namespace FrontEnd

/-- What a node stands for: a statement, an operand or an operator. -/
inductive NodeKind where
  | compound | assign | branch | whileLoop | doWhileLoop | call | arguments | noOp
  | variableUse | integerConstant | realConstant | charConstant | stringConstant
  | negate | not | add | subtract | multiply | divide | modulo | and | or
  | equal | notEqual | less | lessOrEqual | greater | greaterOrEqual
deriving DecidableEq, Repr

namespace NodeKind

/-- Every kind, in order. -/
def all : List NodeKind :=
  [compound, assign, branch, whileLoop, doWhileLoop, call, arguments, noOp, variableUse,
   integerConstant, realConstant, charConstant, stringConstant, negate, not, add, subtract, multiply,
   divide, modulo, and, or, equal, notEqual, less, lessOrEqual, greater, greaterOrEqual]

theorem mem_all (kind : NodeKind) : kind ∈ all := by
  cases kind <;> decide

/-- The kind as it stands in a listing. -/
def name : NodeKind → String
  | compound => "COMPOUND"
  | assign => "ASSIGN"
  | branch => "IF"
  | whileLoop => "WHILE"
  | doWhileLoop => "DO_WHILE"
  | call => "CALL"
  | arguments => "PARAMETERS"
  | noOp => "NO_OP"
  | variableUse => "VARIABLE"
  | integerConstant => "INTEGER_CONSTANT"
  | realConstant => "REAL_CONSTANT"
  | charConstant => "CHAR_CONSTANT"
  | stringConstant => "STRING_CONSTANT"
  | negate => "NEGATE"
  | not => "NOT"
  | add => "ADD"
  | subtract => "SUBTRACT"
  | multiply => "MULTIPLY"
  | divide => "DIVIDE"
  | modulo => "MODULO"
  | and => "AND"
  | or => "OR"
  | equal => "EQ"
  | notEqual => "NE"
  | less => "LT"
  | lessOrEqual => "LE"
  | greater => "GT"
  | greaterOrEqual => "GE"

end NodeKind

/-- The value of a constant operand. -/
inductive Literal where
  | integer (value : Int)
  | real (value : Binary64)
  | character (value : Char)
  | string (value : String)
deriving DecidableEq, Repr

/-- A node of intermediate code, with everything below it. -/
structure Node where
  kind : NodeKind
  children : List Node := []
  type : DataType := .undefined
  line : Option Nat := none
  entry : Option EntryId := none
  value : Option Literal := none
deriving Repr

namespace Node

/-- The node with one more child, the last. -/
def addChild (node : Node) (child : Node) : Node :=
  { node with children := node.children ++ [child] }

mutual

/-- How many nodes of the tree are of one kind. -/
def countKind (kind : NodeKind) : Node → Nat
  | ⟨own, children, _, _, _, _⟩ =>
    (if own = kind then 1 else 0) + countKindAll kind children

/-- How many nodes of several trees are of one kind. -/
def countKindAll (kind : NodeKind) : List Node → Nat
  | [] => 0
  | node :: nodes => countKind kind node + countKindAll kind nodes

end

end Node

end FrontEnd
