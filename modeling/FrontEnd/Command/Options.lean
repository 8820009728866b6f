/-!
# Command line options

The command takes one file and options that say what to print besides the errors.  Options may stand
before and after the file; everything after a double dash is taken for a file.
-/

namespace FrontEnd.Command

/-- What the command is asked to do with a file. -/
structure Options where
  file : String
  crossReference : Bool := false
  code : Bool := false
  browse : Bool := false
deriving DecidableEq, Repr

/-- What can be wrong with the arguments. -/
inductive Misuse where
  | unknownOption (argument : String)
  | secondFile (argument : String)
  | repeatedOption (argument : String)
  | emptyFile
  | missingFile
deriving DecidableEq, Repr

/-- What the command is asked to do. -/
inductive Request where
  | version
  | compile (options : Options)
  | misuse (misuse : Misuse)
deriving DecidableEq, Repr

/-- What has been read of a command line. -/
structure Parsed where
  file : Option String := none
  crossReference : Bool := false
  code : Bool := false
  browse : Bool := false

/-- Takes an argument for the file, of which there can be only one and whose name is not empty. -/
def Parsed.takeFile (parsed : Parsed) (argument : String) : Except Request Parsed :=
  if parsed.file.isSome then .error (.misuse (.secondFile argument))
  else if argument.isEmpty then .error (.misuse .emptyFile)
  else .ok { parsed with file := some argument }

/-- Goes on with what has been read and an option, unless the option was given before. -/
def Parsed.unlessGiven (given : Bool) (argument : String) (parsed : Parsed) : Except Request Parsed :=
  if given then .error (.misuse (.repeatedOption argument))
  else .ok parsed

/-- Takes one argument before any double dash.  What is written behind the short form of the version
option does not count. -/
def Parsed.take (parsed : Parsed) (argument : String) : Except Request Parsed :=
  match argument with
  | "--version" => .error .version
  | "--xref" => unlessGiven parsed.crossReference argument { parsed with crossReference := true }
  | "--icode" => unlessGiven parsed.code argument { parsed with code := true }
  | "--tui" => unlessGiven parsed.browse argument { parsed with browse := true }
  | _ =>
    if argument.startsWith "-V" then .error .version
    else if argument.startsWith "-" && argument != "-" then
      .error (.misuse (.unknownOption argument))
    else parsed.takeFile argument

/-- Takes all arguments in order. -/
def Parsed.takeAll (parsed : Parsed) : List String → Except Request Parsed
  | [] => .ok parsed
  | "--" :: rest => rest.foldlM takeFile parsed
  | argument :: rest => do takeAll (← parsed.take argument) rest

/-- What the arguments of a command line ask for. -/
def Request.ofArguments (arguments : List String) : Request :=
  match Parsed.takeAll {} arguments with
  | .error request => request
  | .ok parsed =>
    match parsed.file with
    | some file =>
      .compile ⟨file, parsed.crossReference, parsed.code, parsed.browse⟩
    | none => .misuse .missingFile

end FrontEnd.Command
