import FrontEnd.Text.Blank
import FrontEnd.Text.Category

/-!
# Escaped characters

Two ways to write a character so that it stays visible and on one line.

* In a listing of intermediate code, printable characters of the basic set stand for themselves,
  quotes and backslashes are preceded by a backslash, and all else is written as its code point.
* In a cross-reference, a character constant stands between single quotes; only the single quote and
  the backslash are preceded by a backslash, and every character that can be seen on its own stands
  for itself.

In both, tab, carriage return and line feed have their own short forms, and a code point is written
in hexadecimal between braces.
-/

namespace FrontEnd.Text

/-- The code point of a character, in hexadecimal between braces. -/
def codePointForm (c : Char) : List Char :=
  ['\\', 'u', '\x7b'] ++ Nat.toDigits 16 c.toNat ++ ['\x7d']

/-- The short form of a line-layout character or a backslash, if the character has one. -/
def shortForm? (c : Char) : Option (List Char) :=
  match c with
  | '\t' => some ['\\', 't']
  | '\r' => some ['\\', 'r']
  | '\n' => some ['\\', 'n']
  | '\\' => some ['\\', '\\']
  | _ => none

/-- One character as it stands in a listing of intermediate code. -/
def listedCharacter (c : Char) : List Char :=
  match shortForm? c with
  | some form => form
  | none =>
    if c = '\'' || c = '"' then ['\\', c]
    else if decide (0x20 ≤ c.toNat) && decide (c.toNat ≤ 0x7e) then [c]
    else codePointForm c

/-- A character as it stands in a listing of intermediate code. -/
def listedForm (c : Char) : String :=
  String.ofList (listedCharacter c)

/-- A text as it stands in a listing of intermediate code. -/
def listedText (text : String) : String :=
  String.ofList (text.toList.flatMap listedCharacter)

/-- Whether the character can be seen on its own.  Of the characters that belong to the one before
them, only the sound marks can. -/
def isVisible (c : Char) : Bool :=
  c = ' ' ||
    !(isControl c || isBlank c || fillers.has c || (isExtending c && !soundMarks.has c) ||
      formatCharacters.has c || unassignedCodePoints.has c)

/-- A character constant between single quotes, as it stands in a cross-reference. -/
def quotedForm (c : Char) : String :=
  let body :=
    match shortForm? c with
    | some form => form
    | none =>
      if c = '\x00' then ['\\', '0']
      else if c = '\'' then ['\\', c]
      else if isVisible c then [c]
      else codePointForm c
  String.ofList (['\''] ++ body ++ ['\''])

end FrontEnd.Text
