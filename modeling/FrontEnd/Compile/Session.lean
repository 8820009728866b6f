import FrontEnd.Diagnostic.Log
import FrontEnd.Symbol.Table
import FrontEnd.Token.Cursor
import FrontEnd.Token.KindSet

/-!
# Compilation sessions

A session is the state of one compilation: the cursor over the tokens, the symbol table, the errors
recorded so far, and the number of names invented for routines without a usable one.

A *production* reads a construct of the language from the current token on and answers with what it
stands for.  An error in the program is recorded and the production goes on.  A production is
interrupted only if the source can no longer be read, or if its budget is spent.

## Strategy

The grammar is recursive, and some of its loops consume what they find.  Both are bounded by the number
of tokens that can still be consumed, the end of the file included: `loop` repeats a step at most once
more than that, and the recursive productions nest at most as deep.  A step that consumes nothing and
asks to be repeated would be repeated forever, and this is what a spent budget stands for.
-/

namespace FrontEnd

/-- The state of a compilation. -/
structure Session where
  cursor : Cursor
  table : SymbolTable := {}
  diagnostics : List Diagnostic := []
  dummies : Nat := 0

/-- Why a compilation does not come to its end. -/
inductive Interruption where
  | unreadable (failure : FatalError)
  | unfinished

/-- A computation that works on a session and may be interrupted. -/
abbrev Production (α : Type) := StateT Session (Except Interruption) α

namespace Production

/-! ## The current token -/

/-- The current token. -/
def current : Production Token := do
  return (← get).cursor.current

/-- The kind of the current token. -/
def currentKind : Production TokenKind := do
  return (← get).cursor.current.kind

/-- Whether the current token is of a kind. -/
def check (kind : TokenKind) : Production Bool := do
  return (← currentKind) == kind

/-- How many tokens have been consumed. -/
def position : Production Nat := do
  return (← get).cursor.position

/-! ## Errors -/

/-- Records an error at a token. -/
def flagAt (token : Token) (kind : ErrorKind) : Production Unit :=
  modify fun session =>
    { session with diagnostics := session.diagnostics ++ [Diagnostic.atToken token kind] }

/-- Records an error at the current token. -/
def flag (kind : ErrorKind) : Production Unit := do
  flagAt (← current) kind

/-- Records an error at a token unless a condition holds. -/
def ensure (holds : Bool) (token : Token) (kind : ErrorKind) : Production Unit := do
  unless holds do flagAt token kind

/-- Records that the current token is no token, if that is so. -/
def flagScanError : Production Unit := do
  match (← current).scanError? with
  | some reason => flag (.ofScanError reason)
  | none => pure ()

/-- Gives up because the source cannot be read on from the current token. -/
def giveUp {α : Type} (cause : ReadError) : Production α := do
  throw (.unreadable { line := (← current).line, cause })

/-! ## Consuming tokens -/

/-- Consumes the current token and answers with the next one.  What is no token is reported as soon as
it becomes current. -/
def nextToken : Production Token := do
  let session ← get
  match session.cursor.advance with
  | (.error cause, _) => giveUp cause
  | (.ok token, cursor) =>
    set { session with cursor }
    flagScanError
    return token

/-- The kind of the token after the current one, which stays where it is. -/
def peekKind : Production TokenKind := do
  let session ← get
  match session.cursor.peek with
  | (.error cause, _) => giveUp cause
  | (.ok token, cursor) =>
    set { session with cursor }
    return token.kind

/-- Consumes the current token if it is of a kind, and answers whether it was. -/
def matchToken (kind : TokenKind) : Production Bool := do
  if ← check kind then
    let _ ← nextToken
    return true
  else return false

/-- Consumes the current token if it is in a set, and answers whether it was. -/
def matchAny (set : KindSet) : Production Bool := do
  if set.contains (← currentKind) then
    let _ ← nextToken
    return true
  else return false

/-- Consumes the current token if it is of a kind, and records an error if it is not. -/
def expect (kind : TokenKind) (missing : ErrorKind) : Production Unit := do
  unless ← matchToken kind do flag missing

/-- Records an error if the current token is not of a kind. -/
def require (kind : TokenKind) (missing : ErrorKind) : Production Unit := do
  let token ← current
  ensure (token.kind == kind) token missing

/-! ## Loops -/

/-- Repeats a step until it is done, at most `budget` times. -/
def loopWithin {σ : Type} (step : σ → Production (ForInStep σ)) : Nat → σ → Production σ
  | 0, _ => throw .unfinished
  | budget + 1, state => do
    match ← step state with
    | .done state => return state
    | .yield state => loopWithin step budget state

/-- Enough repetitions, or levels of nesting, if each but the last consumes a token. -/
def budget : Production Nat := do
  return (← get).cursor.remaining + 2

/-- Repeats a step until it is done. -/
def loop {σ : Type} (step : σ → Production (ForInStep σ)) (state : σ) : Production σ := do
  loopWithin step (← budget) state

/-! ## Recovery -/

/-- Consumes a token that is neither in a set nor the end of the file. -/
def skipToken (set : KindSet) (token : Token) : Production (ForInStep Token) := do
  if token.isEnd || set.contains token.kind then return .done token
  else return .yield (← nextToken)

/-- Makes sure that the current token is in a set.  If it is not, it is reported as unexpected, unless
it is no token and has been reported for that, and tokens are skipped up to one in the set or the end
of the file. -/
def synchronize (set : KindSet) : Production Token := do
  let token ← current
  if set.contains token.kind then return token
  else
    ensure (token.kind == .error) token .unexpectedToken
    loop (skipToken set) (← nextToken)

/-! ## Symbols -/

/-- Changes the symbol table and answers with what the change gives. -/
def onTable {α : Type} (change : SymbolTable → α × SymbolTable) : Production α :=
  modifyGet fun session =>
    let (answer, table) := change session.table
    (answer, { session with table })

/-- Changes the symbol table. -/
def changeTable (change : SymbolTable → SymbolTable) : Production Unit :=
  modify fun session => { session with table := change session.table }

/-- Changes one entry. -/
def changeEntry (id : EntryId) (change : Entry → Entry) : Production Unit :=
  changeTable (·.modifyEntry id change)

/-- Changes what is known about one routine. -/
def changeRoutine (id : EntryId) (change : Routine → Routine) : Production Unit :=
  changeTable (·.modifyRoutine id change)

/-- The symbol table. -/
def table : Production SymbolTable := do
  return (← get).table

/-- What is known about an entry. -/
def entry (id : EntryId) : Production Entry := do
  return (← table).entry id

/-- What a name means at this place. -/
def lookup (name : String) : Production (Option EntryId) := do
  return (← table).lookup name

/-- Binds a name to a new entry in the innermost scope, unless the scope binds it already. -/
def enterLocal (name : String) : Production (Option EntryId) :=
  onTable fun table =>
    match table.enterLocal name with
    | some (id, table) => (some id, table)
    | none => (none, table)

/-- Binds a name to a new entry in the innermost scope; if the scope binds it already, the entry is
detached. -/
def enterOrDetach (name : String) : Production EntryId :=
  onTable fun table =>
    match table.enterLocal name with
    | some (id, table) => (id, table)
    | none => table.createDetached name .undefined .undefined

end Production

end FrontEnd
