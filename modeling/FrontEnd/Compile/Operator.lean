import FrontEnd.Code.Node
import FrontEnd.DataType.Rules
import FrontEnd.Token.KindSet

/-!
# Operators

The binary operators by precedence, and the types of their results.
-/

namespace FrontEnd

/-- Operators of equal precedence: how each is written, and the node that it makes. -/
abbrev OperatorLevel := List (TokenKind × NodeKind)

namespace Operator

/-- The levels of precedence, from the loosest to the tightest.  All operators associate to the
left. -/
def levels : List OperatorLevel :=
  [[(.or, .or)],
   [(.and, .and)],
   [(.equalEquals, .equal), (.notEquals, .notEqual)],
   [(.lessThan, .less), (.lessEquals, .lessOrEqual), (.greaterThan, .greater),
    (.greaterEquals, .greaterOrEqual)],
   [(.plus, .add), (.minus, .subtract)],
   [(.star, .multiply), (.slash, .divide), (.mod, .modulo)]]

/-- The type of a binary operation, or nothing if its operands are refused. -/
def resultType? (operator : NodeKind) (left right : DataType) : Option DataType :=
  match operator with
  | .add | .subtract | .multiply | .divide => left.arithmeticResult? right
  | .modulo => left.moduloResult? right
  | .and | .or => left.logicalResult? right
  | _ => left.comparisonResult? right

/-- The tokens with which an expression can begin. -/
def expressionStart : KindSet :=
  .of [.plus, .minus, .not, .identifier, .integer, .real, .character, .string, .leftParen]

end Operator

end FrontEnd
