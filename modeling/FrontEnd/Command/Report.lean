import FrontEnd.Code.Listing
import FrontEnd.Command.Options
import FrontEnd.Compile.Unit
import FrontEnd.Symbol.CrossReference

/-!
# The report of a command

What the command prints and how it ends.  Errors and the summary go to the error output, listings to the
standard output.  The command fails if the file cannot be read or the program has errors.
-/

namespace FrontEnd.Command

/-- Why a file cannot be read. -/
inductive FileError where
  | notFound
  | isDirectory
  | notDirectory
  | nameTooLong
  | accessDenied
  | notText
  | other (reason : String)
deriving DecidableEq, Repr

/-- The reason in words. -/
def FileError.message : FileError → String
  | notFound => "No such file or directory (os error 2)"
  | isDirectory => "Is a directory (os error 21)"
  | notDirectory => "Not a directory (os error 20)"
  | nameTooLong => "File name too long (os error 36)"
  | accessDenied => "Permission denied (os error 13)"
  | notText => ReadError.invalidText.reason
  | other reason => reason

/-- What a run of the command prints, and the code with which it ends. -/
structure Outcome where
  exitCode : Nat
  output : String := ""
  errorOutput : String := ""
deriving DecidableEq, Repr

/-! ## Text in colour -/

/-- The sequence of characters that sets an attribute of the terminal. -/
def terminalCode (code : String) : String := "\x1b[" ++ code ++ "m"

/-- Text in one of the numbered colours of the terminal. -/
def inColour (colour : Nat) (text : String) : String :=
  terminalCode ("38;5;" ++ toString colour) ++ text ++ terminalCode "39"

/-- Text of less importance. -/
def faint (text : String) : String := inColour 8 text

/-- Text that says what is wrong. -/
def alarming (text : String) : String := inColour 9 text

/-- Bold text. -/
def bold (text : String) : String := terminalCode "1" ++ text ++ terminalCode "0"

/-! ## Parts of the report -/

/-- Lines, each with its end. -/
def joinLines (lines : List String) : String := String.join (lines.map (· ++ "\n"))

/-- One error. -/
def diagnosticLine (diagnostic : Diagnostic) : String :=
  let place := toString diagnostic.location.line ++ ":" ++ toString diagnostic.location.column
  let text := if diagnostic.text.isEmpty then "" else "  [at '" ++ diagnostic.text ++ "']"
  faint place ++ "  " ++ alarming diagnostic.kind.message ++ text

/-- The summary, with the time that the compilation took. -/
def summaryLine (unit : CompilationUnit) (seconds : String) : String :=
  toString unit.lineCount ++ " source lines. " ++ toString unit.diagnostics.length ++
    " syntax errors. " ++ seconds ++ " seconds total parsing time."

/-- A listing under its heading. -/
def titledListing (title : String) (lines : List String) : List String :=
  "" :: bold ("===== " ++ title ++ " =====") :: lines

/-- The report on a unit. -/
def unitOutcome (options : Options) (unit : CompilationUnit) (seconds : String) : Outcome where
  exitCode := if unit.diagnostics.isEmpty then 0 else 1
  output :=
    joinLines (
      (if options.crossReference then
        titledListing "CROSS-REFERENCE TABLE" (CrossReference.listing unit.table) else []) ++
      (if options.code then
        titledListing "INTERMEDIATE CODE" (Code.programLines unit.table) else []))
  errorOutput :=
    joinLines (["Parsing " ++ options.file ++ "..."] ++ unit.diagnostics.map diagnosticLine ++
      [summaryLine unit seconds])

/-- The report on a compilation that did not come to its end. -/
def interruptedOutcome (options : Options) (interruption : Interruption) : Outcome :=
  let reason := match interruption with
    | .unreadable failure => failure.message
    | .unfinished => "the declarations of a parameter list cannot be told apart"
  { exitCode := 1
    errorOutput :=
      joinLines ["Parsing " ++ options.file ++ "...",
        bold (alarming "*** FATAL ERROR:") ++ " " ++ reason] }

/-- The report on a compilation that took the given time. -/
def compilationOutcome (options : Options) (result : Except Interruption CompilationUnit)
    (seconds : String) : Outcome :=
  match result with
  | .ok unit => unitOutcome options unit seconds
  | .error interruption => interruptedOutcome options interruption

/-- The report on a file that cannot be read. -/
def unreadableOutcome (options : Options) (problem : FileError) : Outcome where
  exitCode := 1
  errorOutput := joinLines ["Error: cannot read '" ++ options.file ++ "': " ++ problem.message]

/-- The name and version of the command. -/
def versionOutcome : Outcome := { exitCode := 0, output := "subcc 0.1.0\n" }

/-- What is wrong with the arguments, in words. -/
def Misuse.message : Misuse → String
  | unknownOption argument | secondFile argument => "unexpected argument '" ++ argument ++ "' found"
  | repeatedOption argument => "the argument '" ++ argument ++ "' cannot be used multiple times"
  | emptyFile => "a value is required for '<FILE>' but none was supplied"
  | missingFile => "the following required arguments were not provided:\n  <FILE>"

/-- How to give the arguments instead, unless the message says so already. -/
def Misuse.usage : Misuse → List String
  | emptyFile => []
  | missingFile => ["", "Usage: subcc <FILE>"]
  | _ => ["", "Usage: subcc [OPTIONS] <FILE>"]

/-- How to pass for a file what looks like an option. -/
def Misuse.tip : Misuse → List String
  | unknownOption argument =>
    ["", "  tip: to pass '" ++ argument ++ "' as a value, use '-- " ++ argument ++ "'"]
  | _ => []

/-- The report on arguments that make no request. -/
def misuseOutcome (misuse : Misuse) : Outcome where
  exitCode := 2
  errorOutput := joinLines (["error: " ++ misuse.message] ++ misuse.tip ++ misuse.usage)

end FrontEnd.Command
