/-!
# Data types

The types that names and expressions can have.  Only scalars can be computed with; arrays and records
are recognised so that they can be refused where they are not allowed.  What could not be given a type
has the undefined one.
-/

namespace FrontEnd

/-- The predefined types, and the type of what could not be given one. -/
inductive Scalar where
  | int | float | double | char | void | undefined
deriving DecidableEq, Repr

namespace Scalar

/-- Every scalar, in order. -/
def all : List Scalar := [int, float, double, char, void, undefined]

/-- The scalar as it is written. -/
def name : Scalar → String
  | int => "int"
  | float => "float"
  | double => "double"
  | char => "char"
  | void => "void"
  | undefined => "undefined"

end Scalar

/-- The type of a name or an expression.  Records are told apart by their names alone. -/
inductive DataType where
  | scalar (scalar : Scalar)
  | array (element : Scalar) (count : Nat)
  | record (name : String)
deriving DecidableEq, Repr

/-- What a type is made of. -/
inductive TypeForm where
  | scalar | array | record
deriving DecidableEq, Repr

namespace DataType

@[match_pattern] abbrev int : DataType := .scalar .int
@[match_pattern] abbrev float : DataType := .scalar .float
@[match_pattern] abbrev double : DataType := .scalar .double
@[match_pattern] abbrev char : DataType := .scalar .char
@[match_pattern] abbrev void : DataType := .scalar .void
@[match_pattern] abbrev undefined : DataType := .scalar .undefined

/-- What the type is made of. -/
def form : DataType → TypeForm
  | scalar _ => .scalar
  | array _ _ => .array
  | record _ => .record

/-- The scalar that the type is, if it is one. -/
def scalar? : DataType → Option Scalar
  | scalar s => some s
  | _ => none

/-- Whether the type is the undefined one. -/
def isUndefined (type : DataType) : Bool := type == undefined

/-- The type as it is written. -/
def text : DataType → String
  | scalar s => s.name
  | array element count => element.name ++ "[" ++ toString count ++ "]"
  | record name => "struct " ++ name

end DataType

end FrontEnd
