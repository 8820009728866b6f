import FrontEnd.Compile.Operator
import FrontEnd.Compile.Session

/-!
# Expressions

```text
expression ::= operand { operator operand }            by levels of precedence
operand    ::= ( "-" | "+" | "!" ) operand | factor
factor     ::= literal | variable | constant | call | "(" expression ")"
call       ::= identifier "(" [ expression { "," expression } ] ")"
```

Every node is given its type as it is made.  Operands that their operator refuses are reported once:
the node gets the undefined type, which is taken everywhere.

## Strategy

The productions for the parts of an expression are given the production `nested` for the expressions
inside them.  `expressionWithin` ties the knot by recursion on the depth of nesting, and `expression`
starts it with a depth that no expression can exceed, since every level of nesting consumes a token.
-/

namespace FrontEnd.Production

/-! ## Operators -/

/-- A binary operation with its type.  Refused operands are reported at the token after them. -/
def binaryNode (operator : NodeKind) (line : Nat) (left right : Node) : Production Node := do
  let node : Node := { kind := operator, children := [left, right], line := some line }
  match Operator.resultType? operator left.type right.type with
  | some type => return { node with type }
  | none =>
    flag .incompatibleTypes
    return node

/-- Goes on from a left operand if the current token is an operator of the level. -/
def operation (level : OperatorLevel) (operand : Production Node) (left : Node) :
    Production (ForInStep Node) := do
  let token ← current
  match level.lookup token.kind with
  | none => return .done left
  | some operator =>
    let _ ← nextToken
    let right ← operand
    return .yield (← binaryNode operator token.line left right)

/-- Operands joined by the operators of several levels, the loosest first. -/
def operations (operand : Production Node) : List OperatorLevel → Production Node
  | [] => operand
  | level :: tighter => do
    let left ← operations operand tighter
    loop (operation level (operations operand tighter)) left

/-- An operand with a sign.  The sign `+` leaves no trace in the tree. -/
def signed (sign : Token) (operand : Node) : Production Node := do
  let type := operand.type.negationResult?
  ensure type.isSome sign .incompatibleTypes
  if sign.kind == .plus then return operand
  else
    return { kind := .negate, children := [operand], type := type.getD .undefined,
             line := some sign.line }

/-- The negation of a condition. -/
def negated (mark : Token) (operand : Node) : Production Node := do
  ensure operand.type.isCondition mark .incompatibleTypes
  return { kind := .not, children := [operand], type := .int, line := some mark.line }

/-- An operand with any number of signs and negations before it. -/
def operandWithin (factor : Production Node) : Nat → Production Node
  | 0 => throw .unfinished
  | depth + 1 => do
    let token ← current
    match token.kind with
    | .minus | .plus =>
      let _ ← nextToken
      signed token (← operandWithin factor depth)
    | .not =>
      let _ ← nextToken
      negated token (← operandWithin factor depth)
    | _ => factor

/-! ## Names -/

/-- The entry that an identifier stands for.  An identifier without a usable definition is reported at
each use; at its first use it is entered in the innermost scope as undefined. -/
def identifierEntry (name : Token) : Production EntryId := do
  match ← lookup name.text with
  | some id =>
    ensure ((← entry id).kind != .undefined) name .identifierUndefined
    return id
  | none =>
    flagAt name .identifierUndefined
    let id ← enterOrDetach name.text
    changeEntry id fun entry => { entry with definition := .undefined, type := some .undefined }
    return id

/-- The entry that the current identifier stands for; the line of the use is recorded. -/
def resolveIdentifier : Production EntryId := do
  let name ← current
  let id ← identifierEntry name
  changeEntry id (·.addLine name.line)
  return id

/-- A reference to a variable. -/
def variableReference : Production Node := do
  let id ← resolveIdentifier
  let type := (← entry id).resolvedType
  let _ ← nextToken
  return { kind := .variableUse, type, entry := some id }

/-- The node for the value of a named constant. -/
def constantNode (value : ConstantValue) : Node :=
  match value with
  | .integer value => { kind := .integerConstant, value := some (.integer value) }
  | .real value => { kind := .realConstant, value := some (.real value) }
  | .character value => { kind := .charConstant, value := some (.character value) }

/-- A named constant, which stands for its value. -/
def namedConstant (id : EntryId) (value : ConstantValue) : Production Node := do
  let token ← current
  changeEntry id (·.addLine token.line)
  let type := (← entry id).resolvedType
  let _ ← nextToken
  return { constantNode value with type, entry := some id }

/-! ## Calls -/

/-- One argument, checked against the parameter in its place if there is one, and the comma after
it. -/
def argument (nested : Production Node) (formals : List DataType) (arguments : List Node) :
    Production (ForInStep (List Node)) := do
  let token ← current
  let value ← nested
  ensure (formals[arguments.length]?.all (·.accepts value.type)) token .incompatibleTypes
  if ← matchToken .comma then return .yield (arguments ++ [value])
  else return .done (arguments ++ [value])

/-- The arguments of a call, up to the closing parenthesis. -/
def arguments (nested : Production Node) (formals : List DataType) : Production (List Node) := do
  if ← check .rightParen then return []
  else loop (argument nested formals) []

/-- The type of a call and the types of the parameters, from the entry of the routine. -/
def signature (table : SymbolTable) (id : EntryId) : DataType × List DataType :=
  let entry := table.entry id
  let type := if entry.kind == .procedure then .void else entry.resolvedType
  let parameters := (entry.routine?.map Routine.parameters).getD []
  (type, parameters.map fun id => (table.entry id).resolvedType)

/-- The node for a call; without arguments it has no children. -/
def callNode (type : DataType) (line : Nat) (id : EntryId) (arguments : List Node) : Node :=
  { kind := .call, type, line := some line, entry := some id
    children := if arguments.isEmpty then [] else [{ kind := .arguments, children := arguments }] }

/-- A call of the routine that the current identifier names.  The parameters are those that are known
before the arguments are read. -/
def call (nested : Production Node) : Production Node := do
  let name ← current
  let id ← resolveIdentifier
  let _ ← nextToken
  let (type, formals) := signature (← table) id
  if ← matchToken .leftParen then
    let arguments ← arguments nested formals
    expect .rightParen .missingRightParen
    ensure (arguments.length == formals.length) name .wrongParameterCount
    return callNode type name.line id arguments
  else
    flag .missingLeftParen
    return callNode type name.line id []

/-! ## Factors -/

/-- The node for a literal token; the value decides, but it has to fit the kind. -/
def literalNode? (token : Token) : Option Node :=
  match token.kind, token.value with
  | .integer, some (.integer value) =>
    some { kind := .integerConstant, type := .int, value := some (.integer value) }
  | .real, some (.real value) =>
    some { kind := .realConstant, type := .double, value := some (.real value) }
  | .character, some (.character value) =>
    some { kind := .charConstant, type := .char, value := some (.character value) }
  | .string, some (.string value) =>
    some { kind := .stringConstant, type := .array .char (value.length + 1),
           value := some (.string value) }
  | _, _ => none

/-- An identifier inside an expression. -/
def identifierFactor (nested : Production Node) : Production Node := do
  let token ← current
  match ← lookup token.text with
  | none => variableReference
  | some id =>
    match (← entry id).definition with
    | .constant value => namedConstant id value
    | .function _ | .procedure _ => call nested
    | .type | .program _ =>
      flag .unexpectedToken
      let _ ← nextToken
      return { kind := .noOp }
    | _ => variableReference

/-- A literal, a name, a call or an expression in parentheses.  Where none of these begins, nothing is
consumed. -/
def factor (nested : Production Node) : Production Node := do
  let token ← current
  match literalNode? token with
  | some node =>
    let _ ← nextToken
    return node
  | none =>
    match token.kind with
    | .identifier => identifierFactor nested
    | .leftParen =>
      let _ ← nextToken
      let node ← nested
      expect .rightParen .missingRightParen
      return node
    | _ =>
      flag .missingExpression
      return { kind := .noOp }

/-! ## Expressions -/

/-- An operand, given the production for the expressions inside it. -/
def operand (nested : Production Node) : Production Node := do
  operandWithin (factor nested) (← budget)

/-- An expression whose parts nest at most to a depth. -/
def expressionWithin : Nat → Production Node
  | 0 => throw .unfinished
  | depth + 1 => operations (operand (expressionWithin depth)) Operator.levels

/-- An expression. -/
def expression : Production Node := do
  expressionWithin (← budget)

end FrontEnd.Production
