import FrontEnd.Token.Basic
import FrontEnd.Binary64.Decimal

/-!
# Lexemes

The piece of a line with which a token begins.  The first character decides what the piece is: a word,
a number, a character literal, a string, or a symbol.  Words and numbers reach as far as they can; of
two symbols that fit, the longer is taken.

A lexeme is as long as its text, so the text says how far to move on.  The text is what stands in the
line, with one exception: the exponent letter of a number is always written `e`.

Every line ends in a line feed, which belongs to no lexeme, except that a backslash in a character
literal takes the character after it whatever that is.  Such a literal reaches over the end of the
line.
-/

namespace FrontEnd

/-- The piece of a line that makes up a token. -/
structure Lexeme where
  kind : TokenKind
  text : List Char
  value : Option TokenValue := none

namespace Lexeme

/-- A piece that is no token. -/
def invalid (text : List Char) (reason : ScanError) : Lexeme :=
  ⟨.error, text, some (.error reason)⟩

/-! ## Words -/

/-- Whether a word may begin with the character. -/
def startsWord (c : Char) : Bool := c.isAlpha || c == '_'

/-- Whether a word may go on with the character. -/
def continuesWord (c : Char) : Bool := c.isAlphanum || c == '_'

/-- A reserved word or an identifier. -/
def word (line : List Char) : Lexeme :=
  let text := line.takeWhile continuesWord
  ⟨(TokenKind.reservedWord? (String.ofList text)).getD .identifier, text, none⟩

/-! ## Numbers -/

/-- The largest integer that a literal may denote. -/
def largestInteger : Nat := 0x7fffffff

/-- The fraction at the start of what follows the whole part of a number: a point and the digits after
it.  A point that no digit follows does not belong to the number. -/
def fraction : List Char → List Char
  | '.' :: rest =>
    let digits := rest.takeWhile Char.isDigit
    if digits.isEmpty then [] else '.' :: digits
  | _ => []

/-- The letter and sign of an exponent, and its digits.  The letter alone decides that there is an
exponent. -/
def exponent : List Char → Option (List Char × List Char)
  | letter :: rest =>
    if letter = 'e' || letter = 'E' then
      match rest with
      | '+' :: digits => some (['e', '+'], digits.takeWhile Char.isDigit)
      | '-' :: digits => some (['e', '-'], digits.takeWhile Char.isDigit)
      | _ => some (['e'], rest.takeWhile Char.isDigit)
    else none
  | [] => none

/-- An integer, out of range beyond the largest one. -/
def integerLiteral (digits : List Char) : Lexeme :=
  let value := Binary64.digitsValue digits
  if value ≤ largestInteger then ⟨.integer, digits, some (.integer value)⟩
  else invalid digits .integerOutOfRange

/-- A real, out of range if it is not finite. -/
def realLiteral (text : List Char) : Lexeme :=
  match Binary64.ofText? (String.ofList text) with
  | some value =>
    if value.isFinite then ⟨.real, text, some (.real value)⟩ else invalid text .realOutOfRange
  | none => invalid text .realOutOfRange

/-- A number: digits, perhaps a fraction, perhaps an exponent, which must have digits. -/
def number (line : List Char) : Lexeme :=
  let whole := line.takeWhile Char.isDigit
  let fraction := fraction (line.drop whole.length)
  let unscaled := whole ++ fraction
  match exponent (line.drop unscaled.length) with
  | some (letter, digits) =>
    let text := unscaled ++ letter ++ digits
    if digits.isEmpty then invalid text .invalidNumber else realLiteral text
  | none => if fraction.isEmpty then integerLiteral whole else realLiteral unscaled

/-! ## Characters and strings -/

/-- The character that a backslash and the given character denote. -/
def escape? : Char → Option Char
  | 'n' => some '\n'
  | 't' => some '\t'
  | 'r' => some '\r'
  | '0' => some '\x00'
  | '\\' => some '\\'
  | '\'' => some '\''
  | '"' => some '"'
  | _ => none

/-- A character literal that has been read up to its closing quote, which may be missing. -/
def closeCharacter (text : List Char) (value : Option Char) (rest : List Char) : Lexeme :=
  match value, rest with
  | some c, '\'' :: _ => ⟨.character, text ++ ['\''], some (.character c)⟩
  | none, '\'' :: _ => invalid (text ++ ['\'']) .invalidCharacter
  | _, _ => invalid text .invalidCharacter

/-- A character literal, given what follows its opening quote. -/
def character : List Char → Lexeme
  | '\\' :: escaped :: rest => closeCharacter ['\'', '\\', escaped] (escape? escaped) rest
  | c :: rest =>
    if c = '\'' || c = '\n' then closeCharacter ['\''] none (c :: rest)
    else closeCharacter ['\'', c] (some c) rest
  | [] => invalid ['\''] .invalidCharacter

/-- A string whose text and characters so far are given, nearest first.  A backslash keeps the
character after it from closing the string; one that denotes nothing special denotes itself.  The
string has to be closed on its line. -/
def stringFrom (text value : List Char) : List Char → Lexeme
  | '"' :: _ =>
    ⟨.string, ('"' :: text).reverse, some (.string (String.ofList value.reverse))⟩
  | '\\' :: escaped :: rest =>
    if escaped = '\n' then invalid ('\\' :: text).reverse .unexpectedEnd
    else stringFrom (escaped :: '\\' :: text) ((escape? escaped).getD escaped :: value) rest
  | c :: rest =>
    if c = '\n' then invalid text.reverse .unexpectedEnd else stringFrom (c :: text) (c :: value) rest
  | [] => invalid text.reverse .unexpectedEnd

/-- A string, given what follows its opening quote. -/
def string (line : List Char) : Lexeme := stringFrom ['"'] [] line

/-! ## Symbols -/

/-- The symbol that is written with two characters. -/
def pairSymbol? : Char → Char → Option TokenKind
  | '+', '+' => some .increment
  | '+', '=' => some .plusEquals
  | '-', '-' => some .decrement
  | '-', '=' => some .minusEquals
  | '*', '=' => some .starEquals
  | '/', '=' => some .slashEquals
  | '=', '=' => some .equalEquals
  | '!', '=' => some .notEquals
  | '<', '=' => some .lessEquals
  | '>', '=' => some .greaterEquals
  | '&', '&' => some .and
  | '|', '|' => some .or
  | '%', '=' => some .modEquals
  | _, _ => none

/-- The symbol that is written with one character. -/
def singleSymbol? : Char → Option TokenKind
  | '+' => some .plus
  | '-' => some .minus
  | '*' => some .star
  | '/' => some .slash
  | '=' => some .equals
  | '!' => some .not
  | '<' => some .lessThan
  | '>' => some .greaterThan
  | '&' => some .ampersand
  | '|' => some .verticalBar
  | '%' => some .mod
  | '.' => some .dot
  | ',' => some .comma
  | ';' => some .semicolon
  | ':' => some .colon
  | '~' => some .tilde
  | '(' => some .leftParen
  | ')' => some .rightParen
  | '?' => some .question
  | '[' => some .leftBracket
  | ']' => some .rightBracket
  | '\x7b' => some .leftBrace
  | '\x7d' => some .rightBrace
  | '^' => some .caret
  | _ => none

/-- The symbol with which a line begins. -/
def symbol? : List Char → Option TokenKind
  | first :: second :: _ => (pairSymbol? first second).or (singleSymbol? first)
  | [first] => singleSymbol? first
  | [] => none

/-! ## The first lexeme of a line -/

/-- The lexeme with which a line begins, if the line is not empty.  A character that begins no token
is an error of its own. -/
def first? : List Char → Option Lexeme
  | [] => none
  | c :: rest =>
    if startsWord c then some (word (c :: rest))
    else if c.isDigit then some (number (c :: rest))
    else if c = '\'' then some (character rest)
    else if c = '"' then some (string rest)
    else
      match symbol? (c :: rest) with
      | some kind => some ⟨kind, kind.text.toList, none⟩
      | none => some (invalid [c] .invalidCharacter)

/-- The token that a lexeme makes at a place. -/
def toToken (lexeme : Lexeme) (location : Location) : Token :=
  ⟨lexeme.kind, String.ofList lexeme.text, location, lexeme.value⟩

end Lexeme

end FrontEnd
