import FrontEnd.Diagnostic.Kind
import FrontEnd.Source.LineFeed

/-!
# Diagnostics

An error in a program is recorded with the place and the text of the token at which it was found, and
the compilation goes on.  A failure to read the source is not recorded; it ends the compilation.
-/

namespace FrontEnd

/-- One error in a program. -/
structure Diagnostic where
  kind : ErrorKind
  location : Location
  text : String
deriving DecidableEq, Repr

namespace Diagnostic

/-- The error found at a token. -/
def atToken (token : Token) (kind : ErrorKind) : Diagnostic :=
  ⟨kind, token.location, token.text⟩

/-- The error as one line; the text of a token that has none is left out. -/
def render (diagnostic : Diagnostic) : String :=
  toString diagnostic.location.line ++ ":" ++ toString diagnostic.location.column ++ "  " ++
    diagnostic.kind.message ++
    if diagnostic.text.isEmpty then "" else " [at '" ++ diagnostic.text ++ "']"

/-- How many of the errors are of one kind. -/
def countOf (diagnostics : List Diagnostic) (kind : ErrorKind) : Nat :=
  diagnostics.countP (·.kind == kind)

end Diagnostic

/-- The end of a compilation whose source could not be read on. -/
structure FatalError where
  kind : ErrorKind := .inputFailure
  line : Nat
  cause : ReadError
deriving DecidableEq, Repr

/-- The failure as one line. -/
def FatalError.message (failure : FatalError) : String :=
  failure.kind.message ++ " at line " ++ toString failure.line ++ ": " ++ failure.cause.message

end FrontEnd
