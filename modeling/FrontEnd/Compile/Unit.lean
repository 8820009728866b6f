import FrontEnd.Compile.Routine
import FrontEnd.Token.Scanner

/-!
# Compilation units

```text
unit ::= { constants | typedef | variables | routine | assignment | compound }
```

A unit is a sequence of declarations and routines in the scope of the program, and of statements that
make up the body of the program itself.  The predefined types are in the global scope, and so is the
program.

A compilation comes to its end whatever errors the program has, unless the source cannot be read.
-/

namespace FrontEnd

namespace Production

/-- The tokens with which an item of a unit can begin. -/
def itemStart : KindSet := declarationStart.insert .leftBrace

/-- Appends a statement to the body of the program; the body has the line of its first statement. -/
def appendStatement (statement : Node) (program : Routine) : Routine :=
  match program.body with
  | some body => { program with body := some (body.addChild statement) }
  | none =>
    { program with
        body := some { kind := .compound, children := [statement], line := statement.line } }

/-- A statement of the program itself. -/
def programStatement (program : EntryId) : Production Unit := do
  let node ← statement program
  let _ ← matchToken .semicolon
  changeRoutine program (appendStatement node)

/-- Whether the current token begins a statement of the program: a compound statement, or an
assignment. -/
def startsProgramStatement : Production Bool := do
  match ← currentKind with
  | .leftBrace => return true
  | .identifier => return (← peekKind) == .equals
  | _ => return false

/-- One declaration or routine of the program. -/
def declaration (program : EntryId) : Production Unit := do
  match ← currentKind with
  | .constWord =>
    let _ ← nextToken
    constants
  | .typedefWord =>
    let _ ← nextToken
    typeDefinition
  | _ =>
    if ← startsVariables then variablesOrFunction fun type => routine program (some type)
    else routine program none

/-- One declaration, routine or statement of the program. -/
def item (program : EntryId) : Production Unit := do
  if ← startsProgramStatement then programStatement program
  else declaration program

/-- Reports and drops the current token, if there is one, unless something has been consumed since a
position. -/
def dropItemUnlessMoved (start : Nat) : Production Unit := do
  if (← position) == start && !(← current).isEnd then
    flag .unexpectedToken
    let _ ← nextToken

/-- The next item of the unit, if there is one.  If nothing could be done with the current token, it is
reported and dropped. -/
def nextItem (program : EntryId) : Production (ForInStep Unit) := do
  if (← current).isEnd then return .done ()
  else
    let start ← position
    let token ← synchronize itemStart
    if token.isEnd then return .done ()
    else
      item program
      dropItemUnlessMoved start
      return .yield ()

/-- A whole unit.  Answers with the entry of the program. -/
def unit : Production EntryId := do
  changeTable (·.enterPredefinedTypes)
  let program ← enterOrDetach programName
  changeTable fun table => { table with program := some program }
  let scope ← onTable (·.push)
  changeEntry program fun entry => { entry with definition := .program { scope := some scope } }
  loop (fun _ => nextItem program) ()
  let _ ← onTable (·.pop)
  return program

end Production

/-- What a compilation gives: the symbol table with the code of all routines, the entry of the program,
the errors in the order in which they were found, and the last line reached. -/
structure CompilationUnit where
  table : SymbolTable
  program : EntryId
  diagnostics : List Diagnostic
  lineCount : Nat

namespace CompilationUnit

/-- The entries with a name in any scope, in the order of their creation. -/
def entriesNamed (unit : CompilationUnit) (name : String) : List EntryId :=
  (List.range unit.table.entries.size).filter fun id => (unit.table.entry id).name == Text.lower name

/-- The first routine with a name. -/
def routineNamed? (unit : CompilationUnit) (name : String) : Option EntryId :=
  (unit.entriesNamed name).find? fun id => (unit.table.entry id).kind.isRoutine

end CompilationUnit

/-- A session at the first token of a stream, which is reported if it is no token. -/
def Session.start (stream : TokenStream) : Except Interruption Session :=
  match Cursor.start stream with
  | .error cause => .error (.unreadable { line := 1, cause })
  | .ok cursor => (Production.flagScanError { cursor }).map Prod.snd

/-- Compiles a stream of tokens. -/
def compile (stream : TokenStream) : Except Interruption CompilationUnit := do
  let session ← Session.start stream
  let (program, session) ← Production.unit session
  return {
    table := session.table
    program
    diagnostics := session.diagnostics
    lineCount := session.cursor.current.line
  }

/-- Compiles a source text. -/
def compileText (source : String) : Except Interruption CompilationUnit :=
  compile (Scanner.stream (.ofText source))

end FrontEnd
