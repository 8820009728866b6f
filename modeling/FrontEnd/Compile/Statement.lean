import FrontEnd.Compile.Declaration
import FrontEnd.Compile.Expression

/-!
# Statements

```text
statement ::= compound | assignment | call | if | while | do | return | variables | constants | ";"
compound  ::= "{" { statement } "}"
if        ::= "if" "(" expression ")" statement [ "else" statement ]
while     ::= "while" "(" expression ")" statement
do        ::= "do" statement "while" "(" expression ")"
return    ::= "return" [ expression ] ";"
```

Every statement makes one node, which has the line of its first token.  A declaration makes a node
that does nothing.  A return assigns to a variable made for the purpose, which has the name of the
routine and the slot after all those in use; the slot is not taken.

The semicolon after a statement is consumed by the construct that the statement stands in.
-/

namespace FrontEnd.Production

/-- The tokens with which a statement can begin. -/
def statementStart : KindSet :=
  .of [.leftBrace, .ifWord, .doWord, .whileWord, .identifier, .semicolon, .intWord, .charWord,
       .doubleWord, .floatWord, .constWord, .returnWord]

/-! ## Assignments, calls and returns -/

/-- An assignment to the variable that the current identifier names. -/
def assignment : Production Node := do
  let target ← variableReference
  expect .equals .missingEquals
  let valueToken ← current
  let value ← expression
  ensure (target.type.accepts value.type) valueToken .incompatibleTypes
  require .semicolon .missingSemicolon
  return { kind := .assign, children := [target, value], type := target.type }

/-- What a name was declared as; one without a meaning counts as undefined. -/
def kindOf (name : String) : Production DefinitionKind := do
  match ← lookup name with
  | some id => return (← entry id).kind
  | none => return .undefined

/-- An assignment or a call, as the meaning of the current identifier decides. -/
def identifierStatement : Production Node := do
  match ← kindOf (← current).text with
  | .plainVariable | .valueParameter | .varParameter | .undefined => assignment
  | .function | .procedure =>
    let node ← call expression
    require .semicolon .missingSemicolon
    return node
  | .program | .constant | .type =>
    flag .unexpectedToken
    let _ ← nextToken
    return { kind := .noOp }

/-- The value of a return from a routine of a kind and type: a procedure must not have one, a function
must. -/
def returnedValue (kind : DefinitionKind) (type : DataType) : Production (List Node) := do
  let token ← current
  if Operator.expressionStart.contains token.kind then
    let value ← expression
    ensure (kind != .procedure) token .invalidAssignToVoid
    ensure (kind == .procedure || type.accepts value.type) token .incompatibleTypes
    return [value]
  else
    ensure (kind != .function) token .missingExpression
    return []

/-- A return from a routine. -/
def returnStatement (routine : EntryId) : Production Node := do
  let _ ← nextToken
  let entry ← entry routine
  let type := if entry.kind == .procedure then .void else entry.resolvedType
  let target ← onTable fun table =>
    table.createDetached entry.name (.plainVariable table.localScope.nextSlot) type
  let value ← returnedValue entry.kind type
  require .semicolon .missingSemicolon
  return { kind := .assign, type,
           children := { kind := .variableUse, type, entry := some target } :: value }

/-! ## Control flow -/

/-- A statement inside another, and the semicolon after it. -/
def innerStatement (nested : Production Node) : Production Node := do
  let node ← nested
  let _ ← matchToken .semicolon
  return node

/-- A condition in parentheses. -/
def condition : Production Node := do
  expect .leftParen .missingLeftParen
  let token ← current
  let node ← expression
  ensure node.type.isCondition token .incompatibleTypes
  expect .rightParen .missingRightParen
  return node

/-- A choice between two statements, or between one and nothing. -/
def ifStatement (nested : Production Node) : Production Node := do
  let _ ← nextToken
  let condition ← condition
  let consequent ← innerStatement nested
  if ← matchToken .elseWord then
    let alternative ← innerStatement nested
    return { kind := .branch, children := [condition, consequent, alternative] }
  else return { kind := .branch, children := [condition, consequent] }

/-- A loop that tests its condition before its body. -/
def whileStatement (nested : Production Node) : Production Node := do
  let _ ← nextToken
  let condition ← condition
  let body ← innerStatement nested
  return { kind := .whileLoop, children := [condition, body] }

/-- A loop that tests its condition after its body. -/
def doStatement (nested : Production Node) : Production Node := do
  let _ ← nextToken
  let body ← innerStatement nested
  if ← matchToken .whileWord then
    let condition ← condition
    return { kind := .doWhileLoop, children := [body, condition] }
  else
    flag .missingWhile
    return { kind := .doWhileLoop, children := [body] }

/-! ## Compound statements -/

/-- The tokens at which the next statement of a compound statement can be sought. -/
def afterStatement : KindSet := (statementStart.insert .rightBrace).insert .endOfFile

/-- Reports and drops the current token if nothing has been consumed since a position. -/
def dropUnlessMoved (start : Nat) : Production Unit := do
  if (← position) == start then
    flag .unexpectedToken
    let _ ← nextToken

/-- One statement of a compound statement, and the semicolon after it.  A token with which nothing can
be done is reported and dropped; then the next statement is sought. -/
def listedStatement (nested : Production Node) (statements : List Node) :
    Production (ForInStep (List Node)) := do
  let token ← current
  if token.isEnd || token.kind == .rightBrace then return .done statements
  else
    let start ← position
    let node ← nested
    let _ ← matchToken .semicolon
    dropUnlessMoved start
    let _ ← synchronize afterStatement
    return .yield (statements ++ [node])

/-- A compound statement, given the production for the statements in it. -/
def compoundOf (nested : Production Node) : Production Node := do
  let line := (← current).line
  let _ ← nextToken
  let statements ← loop (listedStatement nested) []
  expect .rightBrace .missingRightBrace
  return { kind := .compound, children := statements, line := some line }

/-! ## Statements -/

/-- The node for a statement, as the current token decides; its line is still to be set. -/
def statementNode (routine : EntryId) (nested : Production Node) : Production Node := do
  match ← currentKind with
  | .leftBrace => compoundOf nested
  | .identifier => identifierStatement
  | .intWord | .charWord | .floatWord | .doubleWord =>
    variableDeclaration
    return { kind := .noOp }
  | .constWord =>
    let _ ← nextToken
    constants
    return { kind := .noOp }
  | .doWord => doStatement nested
  | .whileWord => whileStatement nested
  | .ifWord => ifStatement nested
  | .returnWord => returnStatement routine
  | _ => return { kind := .noOp }

/-- A statement of a routine, given the production for the statements inside it. -/
def statementOf (routine : EntryId) (nested : Production Node) : Production Node := do
  let token ← current
  let node ← statementNode routine nested
  return { node with line := some token.line }

/-- A statement of a routine whose parts nest at most to a depth. -/
def statementWithin (routine : EntryId) : Nat → Production Node
  | 0 => throw .unfinished
  | depth + 1 => statementOf routine (statementWithin routine depth)

/-- A statement of a routine. -/
def statement (routine : EntryId) : Production Node := do
  statementWithin routine (← budget)

/-- A compound statement of a routine. -/
def compound (routine : EntryId) : Production Node :=
  compoundOf (statement routine)

end FrontEnd.Production
