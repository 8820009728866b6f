import FrontEnd.Text.Layout

/-!
# Reading lines

Source text arrives line by line, and each read may fail.  A feed is the list of what the reads will
answer, followed by what every read answers after that: the end of the input, or the same failure
again and again.

A line that is not valid text is used up by the read that fails on it.  A device that fails takes with
it the line it was delivering, so only lines that end in a line feed are read before the failure.
-/

namespace FrontEnd

/-- Why a read failed. -/
inductive ReadError where
  | invalidText
  | device (reason : String)
deriving DecidableEq, Repr

namespace ReadError

/-- What went wrong, in words. -/
def reason : ReadError → String
  | invalidText => "stream did not contain valid UTF-8"
  | device reason => reason

/-- The failure as it is reported. -/
def message (failure : ReadError) : String :=
  "failed to read source: " ++ failure.reason

end ReadError

/-- The answers of the reads still to come.  After the listed ones, `failure` is repeated forever, or
the input has ended if there is none. -/
structure LineFeed where
  reads : List (Except ReadError (List Char))
  failure : Option ReadError := none

namespace LineFeed

/-- The lines of a text. -/
def ofText (text : String) : LineFeed where
  reads := (Text.splitAfterLineFeeds text.toList).map .ok

/-- The complete lines of a text, on a device that fails after them. -/
def ofFailing (text : String) (failure : ReadError) : LineFeed where
  reads := ((Text.splitAfterLineFeeds text.toList).filter (·.getLast? == some '\n')).map .ok
  failure := some failure

/-- The pieces of a sequence of bytes up to and including each line feed. -/
def splitBytes : List UInt8 → List (List UInt8)
  | [] => []
  | byte :: rest =>
    if byte = 10 then [byte] :: splitBytes rest
    else
      match splitBytes rest with
      | [] => [[byte]]
      | piece :: pieces => (byte :: piece) :: pieces

/-- The text that some bytes encode. -/
def decode? (bytes : List UInt8) : Option String :=
  String.fromUTF8? ⟨bytes.toArray⟩

/-- The lines of a file, each decoded on its own. -/
def ofBytes (bytes : List UInt8) : LineFeed where
  reads := (splitBytes bytes).map fun line =>
    match decode? line with
    | some text => .ok text.toList
    | none => .error .invalidText

end LineFeed

end FrontEnd
