import FrontEnd.Binary64.Decimal
import FrontEnd.Symbol.Table
import FrontEnd.Text.Layout

/-!
# The cross-reference listing

The names of every scope but the global one, in alphabetical order, with the lines on which they
appear and what they were declared as.
-/

namespace FrontEnd

/-- The value of a constant as it stands in the listing. -/
def ConstantValue.text : ConstantValue → String
  | integer value => toString value
  | real value => value.text
  | character value => Text.quotedForm value

namespace CrossReference

/-- The width of the column of names. -/
def nameWidth : Nat := 16

/-- The width of the column of line numbers. -/
def linesWidth : Nat := 24

/-- The line of the listing for one entry. -/
def entryLine (entry : Entry) : String :=
  let lines := " ".intercalate (entry.lines.map (Text.padZeros 3))
  let type := match entry.type with
    | some type => " : " ++ type.text
    | none => ""
  let slot := match entry.definition.slot? with
    | some slot => " [slot " ++ toString slot ++ "]"
    | none => ""
  let value := match entry.definition.constant? with
    | some value => " = " ++ value.text
    | none => ""
  let stage := match entry.routine?.bind Routine.stage with
    | some stage => " (" ++ stage.name ++ ")"
    | none => ""
  "  " ++ Text.padRight nameWidth entry.name ++ " " ++ Text.padRight linesWidth lines ++ " " ++
    entry.kind.name ++ type ++ slot ++ value ++ stage

/-- Entries in alphabetical order of their names, by code points. -/
def sortedByName (entries : List Entry) : List Entry :=
  entries.mergeSort fun first second => decide (first.name ≤ second.name)

/-- The heading of a scope. -/
def heading (table : SymbolTable) (id : ScopeId) : String :=
  let owner := match table.scopeOwner id with
    | some owner => (table.entry owner).name
    | none => "<anonymous>"
  "===== SCOPE level " ++ toString (table.scope id).level ++ " (" ++ owner ++ ") ====="

/-- The lines of the listing for one scope. -/
def scopeLines (table : SymbolTable) (id : ScopeId) : List String :=
  let entries := (table.scope id).entries.map table.entry
  heading table id ::
    if entries.isEmpty then ["  (empty)"] else (sortedByName entries).map entryLine

/-- The listing of all scopes but the global one, in the order in which they were opened. -/
def listing (table : SymbolTable) : List String :=
  (List.range table.scopes.size).tail.flatMap (scopeLines table)

end CrossReference

end FrontEnd
