import FrontEnd.Binary64.Decimal
import FrontEnd.Symbol.Table

/-!
# The listing of intermediate code

A node is written as an element with its attributes, and its children are written, indented, between
its opening and its closing line.  A node without children closes itself.
-/

namespace FrontEnd

/-- The value of a constant operand as it stands in the listing. -/
def Literal.text : Literal → String
  | integer value => toString value
  | real value => value.text
  | character value => Text.listedForm value
  | string value => Text.listedText value

namespace Code

/-- An attribute with its value between quotes, or nothing if there is no value. -/
def quotedAttribute (name : String) : Option String → String
  | some value => " " ++ name ++ "=\"" ++ value ++ "\""
  | none => ""

/-- The opening of a node, up to its closing bracket. -/
def opening (table : SymbolTable) (node : Node) : String :=
  "<" ++ node.kind.name ++
    quotedAttribute "line" (node.line.map toString) ++
    quotedAttribute "id" (node.entry.map fun id => (table.entry id).name) ++
    quotedAttribute "value" (node.value.map Literal.text) ++
    quotedAttribute "type" (some node.type.text)

/-- The indentation of a node at some depth. -/
def indentation (depth : Nat) : String :=
  String.ofList (List.replicate (4 * depth) ' ')

mutual

/-- The lines for a node at some depth. -/
def nodeLines (table : SymbolTable) (depth : Nat) : Node → List String
  | node@⟨kind, children, _, _, _, _⟩ =>
    let start := indentation depth ++ opening table node
    if children.isEmpty then [start ++ " />"]
    else
      (start ++ ">") :: childLines table (depth + 1) children ++
        [indentation depth ++ "</" ++ kind.name ++ ">"]

/-- The lines for several nodes at the same depth. -/
def childLines (table : SymbolTable) (depth : Nat) : List Node → List String
  | [] => []
  | node :: nodes => nodeLines table depth node ++ childLines table depth nodes

end

/-- The lines for a node that stands on its own. -/
def listing (table : SymbolTable) (node : Node) : List String :=
  nodeLines table 0 node

/-- The lines for a routine and for those it owns, `main` last, to a depth of nesting. -/
def routineLines (table : SymbolTable) : Nat → EntryId → List String
  | 0, _ => []
  | depth + 1, id =>
    let entry := table.entry id
    match entry.routine? with
    | none => []
    | some routine =>
      let body := match routine.body with
        | some root => listing table root
        | none => ["(no intermediate code)"]
      ("===== " ++ entry.kind.name ++ " " ++ entry.name ++ " =====") :: body ++
        (routine.routines ++ routine.mainRoutine.toList).flatMap (routineLines table depth)

/-- The lines for the program and all routines that it owns.  No chain of owners is longer than there
are entries. -/
def programLines (table : SymbolTable) : List String :=
  match table.program with
  | some program => routineLines table (table.entries.size + 1) program
  | none => []

end Code

end FrontEnd
