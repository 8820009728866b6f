import FrontEnd.Code.Node
import FrontEnd.Text.Escaped

/-!
# Symbol entries

What is known about a declared name.  What an entry holds depends on what the name was declared as: a
routine has its parameters and its body, a variable its place in the frame of its routine, a constant
its value.
-/

namespace FrontEnd

/-- What a name can be declared as.  A plain variable is one that is no parameter. -/
inductive DefinitionKind where
  | program | procedure | function | plainVariable | valueParameter | varParameter | constant | type
  | undefined
deriving DecidableEq, Repr

namespace DefinitionKind

/-- Every kind, in order. -/
def all : List DefinitionKind :=
  [program, procedure, function, plainVariable, valueParameter, varParameter, constant, type,
   undefined]

/-- The kind in words. -/
def name : DefinitionKind → String
  | program => "program"
  | procedure => "procedure"
  | function => "function"
  | plainVariable => "variable"
  | valueParameter => "value parameter"
  | varParameter => "var parameter"
  | constant => "constant"
  | type => "type"
  | undefined => "undefined"

/-- Whether a name of this kind has a body of its own. -/
def isRoutine : DefinitionKind → Bool
  | program | procedure | function => true
  | _ => false

end DefinitionKind

/-- How far a routine has been declared: its header only, or its body too. -/
inductive RoutineStage where
  | forward | declared
deriving DecidableEq, Repr

/-- The stage in words. -/
def RoutineStage.name : RoutineStage → String
  | forward => "Forward"
  | declared => "Declared"

/-- What is known about a routine.  The program, which is a routine too, owns the other routines in
the order of their declaration, except that `main` stands apart. -/
structure Routine where
  stage : Option RoutineStage := none
  scope : Option ScopeId := none
  body : Option Node := none
  parameters : List EntryId := []
  routines : List EntryId := []
  mainRoutine : Option EntryId := none
deriving Repr

/-- Whether the routine has been declared forward and still lacks its body. -/
def Routine.isForward (routine : Routine) : Bool :=
  routine.stage == some .forward

/-- The value of a declared constant. -/
inductive ConstantValue where
  | integer (value : Int)
  | real (value : Binary64)
  | character (value : Char)
deriving DecidableEq, Repr

/-- What a name was declared as. -/
inductive Definition where
  | program (routine : Routine)
  | procedure (routine : Routine)
  | function (routine : Routine)
  | plainVariable (slot : Nat)
  | valueParameter (slot : Nat)
  | varParameter (slot : Nat)
  | constant (value : ConstantValue)
  | type
  | undefined
deriving Repr

namespace Definition

/-- The kind of a definition. -/
def kind : Definition → DefinitionKind
  | program _ => .program
  | procedure _ => .procedure
  | function _ => .function
  | plainVariable _ => .plainVariable
  | valueParameter _ => .valueParameter
  | varParameter _ => .varParameter
  | constant _ => .constant
  | type => .type
  | undefined => .undefined

/-- A variable or parameter with its slot; of a kind that has no slot, a variable. -/
def ofStorage (kind : DefinitionKind) (slot : Nat) : Definition :=
  match kind with
  | .valueParameter => valueParameter slot
  | .varParameter => varParameter slot
  | _ => plainVariable slot

/-- A routine of a kind; of a kind that has no body, a function. -/
def ofRoutine (kind : DefinitionKind) (routine : Routine) : Definition :=
  match kind with
  | .program => program routine
  | .procedure => procedure routine
  | _ => function routine

/-- The routine that is defined, if it is one. -/
def routine? : Definition → Option Routine
  | program routine | procedure routine | function routine => some routine
  | _ => none

/-- The definition with its routine changed; a definition of anything else stays as it is. -/
def mapRoutine (change : Routine → Routine) : Definition → Definition
  | program routine => program (change routine)
  | procedure routine => procedure (change routine)
  | function routine => function (change routine)
  | other => other

/-- The slot of a variable or parameter. -/
def slot? : Definition → Option Nat
  | plainVariable slot | valueParameter slot | varParameter slot => some slot
  | _ => none

/-- The value of a constant. -/
def constant? : Definition → Option ConstantValue
  | constant value => some value
  | _ => none

end Definition

/-- What is known about a name: its lower-case form, what it was declared as, its type once it has
one, the scope that owns it, and the lines on which it appears. -/
structure Entry where
  name : String
  scope : ScopeId
  definition : Definition := .undefined
  type : Option DataType := none
  lines : List Nat := []
deriving Repr

namespace Entry

/-- The kind of what the name was declared as. -/
def kind (entry : Entry) : DefinitionKind := entry.definition.kind

/-- The routine that the name stands for, if it does. -/
def routine? (entry : Entry) : Option Routine := entry.definition.routine?

/-- The type, undefined if none was ever given. -/
def resolvedType (entry : Entry) : DataType := entry.type.getD .undefined

/-- Records a line on which the name appears; a line already recorded is not recorded again. -/
def addLine (entry : Entry) (line : Nat) : Entry :=
  if entry.lines.contains line then entry else { entry with lines := entry.lines ++ [line] }

/-- Gives the name another kind of routine and keeps what is known about the routine. -/
def setRoutineKind (entry : Entry) (kind : DefinitionKind) : Entry :=
  { entry with definition := .ofRoutine kind (entry.routine?.getD {}) }

/-- Changes what is known about the routine; an entry for anything else stays as it is. -/
def mapRoutine (change : Routine → Routine) (entry : Entry) : Entry :=
  { entry with definition := entry.definition.mapRoutine change }

end Entry

end FrontEnd
