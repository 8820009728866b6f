import FrontEnd.DataType.Basic

/-!
# Rules for types

Which values can be assigned to which targets, and which operands an operator takes.

* A value can be assigned to a target of its own type; a target of floating type also takes integers
  and narrower floating values.
* The numeric types are `int`, `char`, `float` and `double`.  Arithmetic has the widest type of its
  operands, `char` counting as `int`.  Comparisons and logical operators have type `int`.
* The undefined type is taken everywhere, since an error has been reported where it arose.
-/

namespace FrontEnd

/-- Whether a value of one scalar type can be assigned to a target of another. -/
def Scalar.accepts : Scalar → Scalar → Bool
  | undefined, _ => true
  | _, undefined => true
  | float, int => true
  | double, int => true
  | double, float => true
  | target, value => target == value

namespace DataType

/-- Whether a value can be assigned to a target. -/
def accepts (target value : DataType) : Bool :=
  if target.isUndefined || value.isUndefined then true
  else
    match target, value with
    | scalar t, scalar v => t.accepts v
    | _, _ => target == value

/-- Whether the type can be computed with. -/
def isNumeric : DataType → Bool
  | int | char | float | double => true
  | _ => false

/-- Whether the type is one of whole numbers. -/
def isInteger : DataType → Bool
  | int | char => true
  | _ => false

/-- Whether the type can decide a branch or a loop, or be an operand of a logical operator. -/
def isCondition (type : DataType) : Bool :=
  type.isUndefined || type.isNumeric

/-- The type of a sum, difference, product or quotient. -/
def arithmeticResult? (left right : DataType) : Option DataType :=
  if left.isUndefined || right.isUndefined then some undefined
  else if !left.isNumeric || !right.isNumeric then none
  else if left == double || right == double then some double
  else if left == float || right == float then some float
  else some int

/-- The type of a remainder. -/
def moduloResult? (left right : DataType) : Option DataType :=
  if left.isUndefined || right.isUndefined then some undefined
  else if left.isInteger && right.isInteger then some int
  else none

/-- The type of a comparison. -/
def comparisonResult? (left right : DataType) : Option DataType :=
  if left.isUndefined || right.isUndefined then some int
  else if left.isNumeric && right.isNumeric then some int
  else none

/-- The type of a conjunction or disjunction. -/
def logicalResult? (left right : DataType) : Option DataType :=
  if left.isCondition && right.isCondition then some int else none

/-- The type of an operand with a sign. -/
def negationResult? (operand : DataType) : Option DataType :=
  match operand with
  | undefined => some undefined
  | char => some int
  | _ => if operand.isNumeric then some operand else none

end DataType

end FrontEnd
