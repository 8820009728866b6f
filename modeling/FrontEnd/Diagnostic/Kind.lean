import FrontEnd.Token.Basic

/-!
# Kinds of errors

The errors that a program can contain, in alphabetical order, and the one that ends the compilation:
the source can no longer be read.
-/

namespace FrontEnd

/-- What is wrong at a place in the source. -/
inductive ErrorKind where
  | alreadyForwarded
  | identifierRedefined
  | identifierUndefined
  | incompatibleTypes
  | invalidAssignToVoid
  | invalidCharacter
  | invalidConstant
  | invalidNumber
  | invalidType
  | missingComma
  | missingEquals
  | missingExpression
  | missingIdentifier
  | missingLeftParen
  | missingRightBrace
  | missingRightParen
  | missingSemicolon
  | missingWhile
  | integerOutOfRange
  | realOutOfRange
  | unexpectedEnd
  | unexpectedToken
  | wrongParameterCount
  | inputFailure
deriving DecidableEq, Repr

namespace ErrorKind

/-- Every kind, in order. -/
def all : List ErrorKind :=
  [alreadyForwarded, identifierRedefined, identifierUndefined, incompatibleTypes,
   invalidAssignToVoid, invalidCharacter, invalidConstant, invalidNumber, invalidType, missingComma,
   missingEquals, missingExpression, missingIdentifier, missingLeftParen, missingRightBrace,
   missingRightParen, missingSemicolon, missingWhile, integerOutOfRange, realOutOfRange,
   unexpectedEnd, unexpectedToken, wrongParameterCount, inputFailure]

theorem mem_all (kind : ErrorKind) : kind ∈ all := by
  cases kind <;> decide

/-- The error in words. -/
def message : ErrorKind → String
  | alreadyForwarded => "Forward declaration does not match"
  | identifierRedefined => "Redefined identifier"
  | identifierUndefined => "Undefined identifier"
  | incompatibleTypes => "Incompatible types"
  | invalidAssignToVoid => "Cannot return a value from a void routine"
  | invalidCharacter => "Invalid character"
  | invalidConstant => "Invalid constant"
  | invalidNumber => "Invalid number"
  | invalidType => "Invalid type"
  | missingComma => "Missing ,"
  | missingEquals => "Missing ="
  | missingExpression => "Missing expression"
  | missingIdentifier => "Missing identifier"
  | missingLeftParen => "Missing ("
  | missingRightBrace => "Missing \x7d"
  | missingRightParen => "Missing )"
  | missingSemicolon => "Missing ;"
  | missingWhile => "Missing while"
  | integerOutOfRange => "Integer literal out of range"
  | realOutOfRange => "Real literal out of range"
  | unexpectedEnd => "Unexpected end of file"
  | unexpectedToken => "Unexpected token"
  | wrongParameterCount => "Wrong number of actual parameters"
  | inputFailure => "Object I/O error"

/-- Whether the error ends the compilation. -/
def isFatal (kind : ErrorKind) : Bool := kind == inputFailure

/-- The error that a piece of source text is which is no token. -/
def ofScanError : ScanError → ErrorKind
  | .invalidCharacter => invalidCharacter
  | .invalidNumber => invalidNumber
  | .integerOutOfRange => integerOutOfRange
  | .realOutOfRange => realOutOfRange
  | .unexpectedEnd => unexpectedEnd

end ErrorKind

end FrontEnd
