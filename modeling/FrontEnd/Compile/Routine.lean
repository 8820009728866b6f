import FrontEnd.Compile.Statement

/-!
# Routines

```text
routine    ::= [ "void" | type ] identifier "(" [ parameters ] ")" ( compound | ";" )
parameters ::= "void" | parameter { "," parameter }
parameter  ::= ( "int" | "float" | "double" ) identifier
```

A routine opens a scope for its parameters and its body.  A header that no body follows declares the
routine forward, and a later header of the same name completes it; if that repeats the parameters, it
is reported, and its parameters replace the earlier ones.

A routine whose name is missing or taken is entered under an invented name, so that its body is
compiled all the same.  The function `main` is where the program begins; the first slot of its frame is
kept free.
-/

namespace FrontEnd.Production

/-! ## Where a parse can resume -/

/-- The tokens with which a declaration can begin. -/
def declarationStart : KindSet :=
  .of [.constWord, .typedefWord, .intWord, .doubleWord, .floatWord, .charWord, .voidWord, .identifier]

/-- The tokens with which a parameter can begin. -/
def parameterStart : KindSet :=
  .of [.intWord, .floatWord, .doubleWord, .charWord, .voidWord, .identifier]

/-- What can follow the name of a routine. -/
def afterRoutineName : KindSet := .of [.leftParen, .leftBrace, .semicolon]

/-- Where a list of parameters may begin, or what comes after it. -/
def beforeParameters : KindSet :=
  declarationStart.union (.of [.leftParen, .semicolon, .colon, .leftBrace])

/-- What can come after the opening parenthesis of a list of parameters. -/
def insideParameters : KindSet := declarationStart.insert .rightParen

/-- What can follow a parameter. -/
def afterParameter : KindSet :=
  parameterStart.union (.of [.comma, .rightParen, .semicolon, .leftBrace])

/-! ## Names -/

/-- The name of the program as a whole. -/
def programName : String := "dummyprogramname"

/-- The beginning of the names invented for procedures. -/
def procedureNameStem : String := "dummyprocedurename_"

/-- The beginning of the names invented for functions. -/
def functionNameStem : String := "dummyfunctionname_"

/-- The name of the function with which a program begins. -/
def mainName : String := "main"

/-- Invents a name, with a number that no other invented name has. -/
def inventName (stem : String) : Production String :=
  modifyGet fun session =>
    let number := session.dummies + 1
    (stem ++ Text.padZeros 3 number, { session with dummies := number })

/-- The kind of the routine that begins here, and a name for it in case it has none. -/
def routineKind : Production (DefinitionKind × String) := do
  match ← currentKind with
  | .voidWord =>
    let _ ← nextToken
    return (.procedure, ← inventName procedureNameStem)
  | .identifier => return (.function, ← inventName functionNameStem)
  | _ => return (.program, programName)

/-- The entry for the routine that an identifier names: a new one, or that of a routine declared
forward, in which case the answer says so.  There is none if the name is taken. -/
def namedRoutine (name : Token) : Production (Option (EntryId × Bool)) := do
  let table ← table
  match table.lookupLocal name.text with
  | none => return (← enterLocal name.text).map fun id => (id, false)
  | some id =>
    if (table.entry id).routine?.any Routine.isForward then return some (id, true)
    else
      flag .identifierRedefined
      return none

/-- The entry for the routine whose name is the current token, and whether it has been declared
forward.  There is none if the name is missing or taken. -/
def givenName : Production (Option (EntryId × Bool)) := do
  let name ← current
  if name.kind == .identifier then
    let found ← namedRoutine name
    found.forM fun (id, _) => changeEntry id (·.addLine name.line)
    let _ ← nextToken
    let _ ← synchronize afterRoutineName
    return found
  else
    flag .missingIdentifier
    return none

/-- The entry for the routine that begins here, or for an invented name if its own is missing or taken,
and whether the routine has been declared forward. -/
def routineName (invented : String) : Production (EntryId × Bool) := do
  match ← givenName with
  | some found => return found
  | none => return (← enterOrDetach invented, false)

/-! ## Parameters -/

/-- A parameter of one of the types that parameters can have. -/
def typedParameter : Production (Option EntryId) := do
  let type := (← typeSpecifier).getD .undefined
  let name ← current
  if name.kind == .identifier then
    let id ← declareStorage name .valueParameter type
    let _ ← nextToken
    return id
  else
    flag .missingIdentifier
    return none

/-- What stands in the place of a parameter and has no type that parameters can have. -/
def untypedParameter : Production Unit := do
  flag .invalidType
  let _ ← nextToken
  let _ ← matchToken .identifier

/-- What stands in the place of a parameter; the answer is its entry, if it can have one. -/
def parameterEntry : Production (Option EntryId) := do
  match ← currentKind with
  | .intWord | .floatWord | .doubleWord => typedParameter
  | _ =>
    untypedParameter
    return none

/-- What separates a parameter from the next. -/
def parameterEnd : Production Unit := do
  let token ← synchronize afterParameter
  if token.kind == .comma then
    let _ ← nextToken
  else ensure (!parameterStart.contains token.kind) token .missingComma

/-- One parameter, and the comma after it. -/
def parameter (parameters : List EntryId) : Production (ForInStep (List EntryId)) := do
  if parameterStart.contains (← currentKind) then
    let declared ← parameterEntry
    parameterEnd
    return .yield (parameters ++ declared.toList)
  else return .done parameters

/-- The word `void`, if it stands alone between the parentheses. -/
def loneVoid : Production Unit := do
  if ← check .voidWord then
    if (← peekKind) == .rightParen then
      let _ ← nextToken

/-- The parameters between the parentheses; the word `void` alone stands for none. -/
def parameterList : Production (List EntryId) := do
  loneVoid
  let _ ← synchronize insideParameters
  let parameters ← loop parameter []
  expect .rightParen .missingRightParen
  return parameters

/-- The parameters with their parentheses, if they are there. -/
def enclosedParameters : Production (List EntryId) := do
  let token ← synchronize beforeParameters
  if token.kind == .leftParen then
    let _ ← nextToken
    parameterList
  else
    flag .missingLeftParen
    return []

/-- The parameters of a routine. -/
def formalParameters (routine : EntryId) : Production Unit := do
  let parameters ← enclosedParameters
  changeRoutine routine fun known => { known with parameters }

/-! ## Headers and bodies -/

/-- Gives a function its type, which has to be a scalar. -/
def functionType (routine : EntryId) (type : DataType) : Production Unit := do
  ensure (type.form == .scalar) (← current) .invalidType
  changeEntry routine fun entry => { entry with type := some type }

/-- The parameters of a routine; then, for a function, its type. -/
def header (routine : EntryId) (kind : DefinitionKind) (type : Option DataType) :
    Production Unit := do
  formalParameters routine
  if kind == .function then functionType routine (type.getD .undefined)

/-- Records how far a routine has been declared. -/
def setStage (routine : EntryId) (stage : RoutineStage) : Production Unit :=
  changeRoutine routine fun known => { known with stage := some stage }

/-- The body of a routine, or the end of its forward declaration. -/
def bodyOrForward (routine : EntryId) : Production Unit := do
  match ← currentKind with
  | .leftBrace =>
    setStage routine .declared
    let body ← compound routine
    changeRoutine routine fun known => { known with body := some body }
  | .semicolon =>
    setStage routine .forward
    let _ ← nextToken
  | _ => setStage routine .forward

/-- An entry as that of a routine of a kind.  One declared forward keeps what is known of it. -/
def markedEntry (kind : DefinitionKind) (forwarded : Bool) (entry : Entry) : Entry :=
  if forwarded then entry.setRoutineKind kind else { entry with definition := .ofRoutine kind {} }

/-- Marks the entry of a routine with its kind. -/
def markRoutine (routine : EntryId) (kind : DefinitionKind) (forwarded : Bool) : Production Unit := do
  changeEntry routine (markedEntry kind forwarded)
  if kind == .procedure then changeEntry routine fun entry => { entry with type := some .void }

/-- Opens the scope of a routine, which has neither parameters nor a body yet. -/
def openScope (routine : EntryId) : Production Unit := do
  let scope ← onTable (·.push)
  changeRoutine routine fun known => { known with scope := some scope, body := none, parameters := [] }

/-- Makes a routine the one with which the program begins; the first slot of its frame is kept free. -/
def beginProgram (main : EntryId) : Production Unit := do
  (← table).program.forM fun program =>
    changeRoutine program fun known => { known with mainRoutine := some main }
  let _ ← onTable (·.takeSlot)

/-- Opens a routine and puts it into its place: `main` where the program begins, any other among the
routines of its parent, unless it is there already. -/
def openRoutine (parent routine : EntryId) (kind : DefinitionKind) (forwarded : Bool) :
    Production Unit := do
  let isMain := kind == .function && (← entry routine).name == mainName
  openScope routine
  if isMain then beginProgram routine
  else if !forwarded then
    changeRoutine parent fun known => { known with routines := known.routines ++ [routine] }

/-- A routine.  The type of a function has been read before. -/
def routine (parent : EntryId) (type : Option DataType) : Production Unit := do
  let (kind, invented) ← routineKind
  let (routine, forwarded) ← routineName invented
  markRoutine routine kind forwarded
  openRoutine parent routine kind forwarded
  let token ← current
  ensure (!forwarded || token.kind == .semicolon) token .alreadyForwarded
  header routine kind type
  bodyOrForward routine
  let _ ← onTable (·.pop)

end FrontEnd.Production
