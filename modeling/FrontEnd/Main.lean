import FrontEnd.Command.Report
import FrontEnd.Elapsed

/-!
# The command

Compiles a file and reports its errors; on request it lists the symbol tables and the intermediate
code.
-/

namespace FrontEnd.Command

/-- The number of a reason why an operation failed; some operations give it with its sign changed. -/
def reasonNumber (code : UInt32) : Nat := min code.toNat (-code).toNat

/-- Why a file cannot be read. -/
def fileErrorOf : IO.Error → FileError
  | .noFileOrDirectory .. => .notFound
  | .permissionDenied .. => .accessDenied
  | .inappropriateType _ code _ => if reasonNumber code = 20 then .notDirectory else .isDirectory
  | .invalidArgument _ code problem =>
    if reasonNumber code = 36 then .nameTooLong else .other problem
  | problem => .other (toString problem)

/-- The contents of a file, or why they cannot be read. -/
def fileContents (file : String) : IO (Except FileError String) := do
  try
    match String.fromUTF8? (← IO.FS.readBinFile file) with
    | some text => return .ok text
    | none => return .error .notText
  catch problem =>
    return .error (fileErrorOf problem)

/-- Compiles a file and reports on it. -/
def compileFile (options : Options) : IO Outcome := do
  match ← fileContents options.file with
  | .error problem => return unreadableOutcome options problem
  | .ok source =>
    let start ← IO.monoMsNow
    let result ← IO.lazyPure fun _ => compileText source
    let stop ← IO.monoMsNow
    if options.browse then IO.eprintln "The browser needs a terminal of its own."
    return compilationOutcome options result (Elapsed.text 2 (stop - start))

/-- Does what a request asks for. -/
def answer : Request → IO Outcome
  | .version => return versionOutcome
  | .misuse reason => return misuseOutcome reason
  | .compile options => compileFile options

end FrontEnd.Command

/-- Runs the command. -/
def main (arguments : List String) : IO UInt32 := do
  let outcome ← FrontEnd.Command.answer (.ofArguments arguments)
  IO.eprint outcome.errorOutput
  IO.print outcome.output
  return UInt32.ofNat outcome.exitCode
