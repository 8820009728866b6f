import FrontEnd.Compile.Operator
import FrontEnd.Compile.Session

/-!
# Declarations of types, variables and constants

```text
constants ::= "const" [ type ] identifier "=" constant { "," identifier "=" constant } ";"
typedef   ::= "typedef" type identifier [ "[" integer "]" ] ";"
variables ::= type identifier { "," identifier } ";"
constant  ::= [ "+" | "-" ] ( integer | real ) | character
type      ::= "int" | "float" | "double" | "char" | "void"
            | ( "struct" | "union" ) identifier | identifier
```

The names of the predefined types are looked up like any other name, so a program can hide them.  A
name that its scope has declared before is reported and not declared again.
-/

namespace FrontEnd.Production

/-! ## Types -/

/-- The words for the types of values. -/
def scalarWords : KindSet := .of [.intWord, .floatWord, .doubleWord, .charWord]

/-- The entry of the type that a name stands for at this place. -/
def typeNamed (name : String) : Production (Option EntryId) := do
  let table ← table
  return (table.lookup name).filter fun id => (table.entry id).kind == .type

/-- Whether the current token begins the declaration of a variable. -/
def startsVariables : Production Bool := do
  let token ← current
  if scalarWords.contains token.kind then return true
  else if token.kind == .identifier then return (← typeNamed token.text).isSome
  else return false

/-- The type that the current token names.  If it names none, nothing is consumed. -/
def namedType : Production (Option DataType) := do
  let token ← current
  match ← typeNamed token.text with
  | none => return none
  | some id =>
    changeEntry id (·.addLine token.line)
    let type := (← entry id).resolvedType
    let _ ← nextToken
    return some type

/-- A type.  If none begins with the current token, nothing is consumed. -/
def typeSpecifier : Production (Option DataType) := do
  match ← currentKind with
  | .intWord | .floatWord | .doubleWord | .charWord | .voidWord | .identifier => namedType
  | .structWord | .unionWord =>
    let name ← nextToken
    if name.kind == .identifier then
      let _ ← nextToken
      return some (.record (Text.lower name.text))
    else
      flag .missingIdentifier
      return some .undefined
  | _ => return none

/-- A type that has to be there. -/
def requiredType : Production DataType := do
  match ← typeSpecifier with
  | some type => return type
  | none =>
    flag .invalidType
    return .undefined

/-- Enters the name of a token in the innermost scope, or reports that the scope has it already. -/
def declare (name : Token) (definition : Definition) (type : DataType) : Production Unit := do
  match ← enterLocal name.text with
  | some id =>
    changeEntry id fun entry => { entry with definition, type := some type }
    changeEntry id (·.addLine name.line)
  | none => flagAt name .identifierRedefined

/-! ## Variables -/

/-- Enters a variable or parameter in the innermost scope, with the next slot. -/
def declareStorage (name : Token) (kind : DefinitionKind) (type : DataType) :
    Production (Option EntryId) := do
  match ← enterLocal name.text with
  | none =>
    flagAt name .identifierRedefined
    return none
  | some id =>
    let slot ← onTable (·.takeSlot)
    changeEntry id fun entry => { entry with definition := .ofStorage kind slot, type := some type }
    changeEntry id (·.addLine name.line)
    return some id

/-- One name in a declaration of variables, and the comma after it. -/
def variableName (type : DataType) : Production (ForInStep Unit) := do
  let name ← current
  if name.kind != .identifier then
    flag .missingIdentifier
    return .done ()
  else
    let _ ← declareStorage name .plainVariable type
    let _ ← nextToken
    if ← matchToken .comma then return .yield ()
    else if ← check .identifier then
      flag .missingComma
      return .yield ()
    else return .done ()

/-- The names in a declaration of variables; the type is checked against the first. -/
def variableNames (typeToken : Token) (type : DataType) : Production Unit := do
  let isName ← check .identifier
  ensure (!(isName && type == .void)) typeToken .invalidType
  loop (fun _ => variableName type) ()
  expect .semicolon .missingSemicolon

/-- A declaration of variables. -/
def variableDeclaration : Production Unit := do
  let typeToken ← current
  let type ← requiredType
  variableNames typeToken type

/-- Whether the current token is a name with a parenthesis after it. -/
def startsHeader : Production Bool := do
  if ← check .identifier then return (← peekKind) == .leftParen
  else return false

/-- A declaration of variables, or a function if a parenthesis follows the first name; `routine` is the
production for the rest of a function whose type has been read. -/
def variablesOrFunction (routine : DataType → Production Unit) : Production Unit := do
  let typeToken ← current
  let type ← requiredType
  if ← startsHeader then routine type
  else variableNames typeToken type

/-! ## Constants -/

/-- The type of the value of a constant. -/
def constantType : ConstantValue → DataType
  | .integer _ => .int
  | .real _ => .double
  | .character _ => .char

/-- The constant that a literal and the sign before it denote; a character takes no sign. -/
def signedConstant? (sign : Option TokenKind) (value : Option TokenValue) : Option ConstantValue :=
  match sign, value with
  | some .minus, some (.integer value) => some (.integer (-value))
  | some .minus, some (.real value) => some (.real value.negate)
  | _, some (.integer value) => some (.integer value)
  | _, some (.real value) => some (.real value)
  | none, some (.character value) => some (.character value)
  | _, _ => none

/-- The kinds of literals. -/
def literalKinds : KindSet := .of [.integer, .real, .character, .string]

/-- The signs. -/
def signKinds : KindSet := .of [.plus, .minus]

/-- A sign, if the current token is one. -/
def optionalSign : Production (Option TokenKind) := do
  let kind ← currentKind
  if ← matchAny signKinds then return some kind else return none

/-- The value of a constant.  A literal is consumed even if it does not fit. -/
def constantValue : Production (Option ConstantValue) := do
  let sign ← optionalSign
  let token ← current
  let value := signedConstant? sign token.value
  ensure value.isSome token .invalidConstant
  let _ ← matchAny literalKinds
  return value

/-- Declares a constant with the type that was given, or else with that of its value. -/
def declareConstant (name valueToken : Token) (declared : Option DataType) (value : ConstantValue) :
    Production Unit := do
  ensure (declared.all (·.accepts (constantType value))) valueToken .incompatibleTypes
  declare name (.constant value) (declared.getD (constantType value))

/-- One constant with its value, and the comma after it.  A constant without a value is not
declared. -/
def constantDefinition (declared : Option DataType) : Production (ForInStep Unit) := do
  let name ← current
  if name.kind != .identifier then
    flag .missingIdentifier
    return .done ()
  else
    let _ ← nextToken
    expect .equals .missingEquals
    let valueToken ← current
    let value ← constantValue
    value.forM (declareConstant name valueToken declared)
    if ← matchToken .comma then return .yield () else return .done ()

/-- The type that is given to constants, if there is one. -/
def constantsType : Production (Option DataType) := do
  if ← startsVariables then typeSpecifier else return none

/-- The constants after the word `const`. -/
def constants : Production Unit := do
  let declared ← constantsType
  loop (fun _ => constantDefinition declared) ()
  expect .semicolon .missingSemicolon

/-! ## Names for types -/

/-- The number of elements of an array. -/
def arrayCount : Production Nat := do
  match (← current).value with
  | some (.integer (.ofNat count)) =>
    let _ ← nextToken
    return count
  | _ =>
    flag .invalidConstant
    return 0

/-- The bound of an array and its closing bracket.  Only scalars can be elements. -/
def arrayOf (element : DataType) : Production DataType := do
  match element.scalar? with
  | none =>
    flag .invalidType
    return .undefined
  | some element =>
    let count ← arrayCount
    expect .rightBracket .unexpectedToken
    return .array element count

/-- A type, or arrays of it if a bracket follows. -/
def arraySuffix (type : DataType) : Production DataType := do
  if ← matchToken .leftBracket then arrayOf type else return type

/-- The name for a type. -/
def typeName (type : DataType) : Production Unit := do
  let name ← current
  if name.kind == .identifier then
    let _ ← nextToken
    let type ← arraySuffix type
    declare name .type type
  else flag .missingIdentifier

/-- The definition after the word `typedef`. -/
def typeDefinition : Production Unit := do
  let type ← requiredType
  typeName type
  expect .semicolon .missingSemicolon

end FrontEnd.Production
