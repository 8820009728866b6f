import FrontEnd.Token.Kind
import FrontEnd.Binary64.Basic

/-!
# Tokens

A token is a piece of source text with its kind, the place of its first character, and what the text
denotes if it is a literal.  A piece that is no token has the kind `error` and carries the reason.
-/

namespace FrontEnd

/-- A place in the source; lines and columns are counted from one. -/
structure Location where
  line : Nat
  column : Nat
deriving DecidableEq, Repr

/-- Why a piece of source text is no token. -/
inductive ScanError where
  | invalidCharacter
  | invalidNumber
  | integerOutOfRange
  | realOutOfRange
  | unexpectedEnd
deriving DecidableEq, Repr

/-- What a literal denotes, or why there is no literal. -/
inductive TokenValue where
  | integer (value : Int)
  | real (value : Binary64)
  | character (value : Char)
  | string (value : String)
  | error (reason : ScanError)
deriving DecidableEq, Repr

/-- A piece of source text. -/
structure Token where
  kind : TokenKind
  text : String
  location : Location
  value : Option TokenValue := none
deriving DecidableEq, Repr

namespace Token

/-- The token that stands for the end of the file. -/
def endOfFile (location : Location) : Token :=
  ⟨.endOfFile, "", location, none⟩

/-- The line of the first character. -/
def line (token : Token) : Nat := token.location.line

/-- Whether the token stands for the end of the file. -/
def isEnd (token : Token) : Bool := token.kind == .endOfFile

/-- The reason that an error token carries. -/
def scanError? (token : Token) : Option ScanError :=
  match token.value with
  | some (.error reason) => some reason
  | _ => none

/-- The token as it is named in a message. -/
def description (token : Token) : String :=
  match token.kind with
  | .identifier => "identifier '" ++ token.text ++ "'"
  | .integer | .real | .character | .string => token.kind.text ++ " " ++ token.text
  | .endOfFile => "end of file"
  | .error => "invalid token '" ++ token.text ++ "'"
  | kind => "'" ++ kind.text ++ "'"

end Token

end FrontEnd
