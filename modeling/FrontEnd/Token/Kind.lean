/-!
# Kinds of tokens

The terminals of the grammar: thirty-two reserved words, the operators and punctuation marks, the
classes of literals, pieces of text that are no token, and the end of the file.

Reserved words are written in lower case and in no other way.
-/

namespace FrontEnd

/-- A terminal of the grammar. -/
inductive TokenKind where
  | autoWord | doubleWord | intWord | structWord | breakWord | elseWord | longWord | switchWord
  | caseWord | enumWord | registerWord | typedefWord | charWord | externWord | returnWord | unionWord
  | constWord | floatWord | shortWord | unsignedWord | continueWord | forWord | signedWord | voidWord
  | defaultWord | gotoWord | sizeofWord | volatileWord | doWord | ifWord | staticWord | whileWord
  | plus | plusEquals | increment | minus | minusEquals | decrement | star | starEquals | slash
  | slashEquals | equals | equalEquals | not | notEquals | lessThan | lessEquals | greaterEquals
  | greaterThan | ampersand | and | verticalBar | or | mod | modEquals | dot | comma | semicolon
  | colon | tilde | leftParen | rightParen | question | leftBracket | rightBracket | leftBrace
  | rightBrace | caret
  | identifier | integer | real | character | string
  | error
  | endOfFile
deriving DecidableEq, Repr

namespace TokenKind

/-- The reserved words. -/
def reservedWords : List TokenKind :=
  [autoWord, doubleWord, intWord, structWord, breakWord, elseWord, longWord, switchWord, caseWord,
   enumWord, registerWord, typedefWord, charWord, externWord, returnWord, unionWord, constWord,
   floatWord, shortWord, unsignedWord, continueWord, forWord, signedWord, voidWord, defaultWord,
   gotoWord, sizeofWord, volatileWord, doWord, ifWord, staticWord, whileWord]

/-- The operators and punctuation marks. -/
def symbols : List TokenKind :=
  [plus, plusEquals, increment, minus, minusEquals, decrement, star, starEquals, slash, slashEquals,
   equals, equalEquals, not, notEquals, lessThan, lessEquals, greaterEquals, greaterThan, ampersand,
   and, verticalBar, or, mod, modEquals, dot, comma, semicolon, colon, tilde, leftParen, rightParen,
   question, leftBracket, rightBracket, leftBrace, rightBrace, caret]

/-- Every kind, in the order in which the kinds are declared. -/
def all : List TokenKind :=
  reservedWords ++ symbols ++ [identifier, integer, real, character, string, error, endOfFile]

theorem mem_all (kind : TokenKind) : kind ∈ all := by
  cases kind <;> decide

/-- The text of a reserved word, an operator or a punctuation mark, and the name of any other kind.
The two braces are given by their codes. -/
def text : TokenKind → String
  | autoWord => "auto"
  | doubleWord => "double"
  | intWord => "int"
  | structWord => "struct"
  | breakWord => "break"
  | elseWord => "else"
  | longWord => "long"
  | switchWord => "switch"
  | caseWord => "case"
  | enumWord => "enum"
  | registerWord => "register"
  | typedefWord => "typedef"
  | charWord => "char"
  | externWord => "extern"
  | returnWord => "return"
  | unionWord => "union"
  | constWord => "const"
  | floatWord => "float"
  | shortWord => "short"
  | unsignedWord => "unsigned"
  | continueWord => "continue"
  | forWord => "for"
  | signedWord => "signed"
  | voidWord => "void"
  | defaultWord => "default"
  | gotoWord => "goto"
  | sizeofWord => "sizeof"
  | volatileWord => "volatile"
  | doWord => "do"
  | ifWord => "if"
  | staticWord => "static"
  | whileWord => "while"
  | plus => "+"
  | plusEquals => "+="
  | increment => "++"
  | minus => "-"
  | minusEquals => "-="
  | decrement => "--"
  | star => "*"
  | starEquals => "*="
  | slash => "/"
  | slashEquals => "/="
  | equals => "="
  | equalEquals => "=="
  | not => "!"
  | notEquals => "!="
  | lessThan => "<"
  | lessEquals => "<="
  | greaterEquals => ">="
  | greaterThan => ">"
  | ampersand => "&"
  | and => "&&"
  | verticalBar => "|"
  | or => "||"
  | mod => "%"
  | modEquals => "%="
  | dot => "."
  | comma => ","
  | semicolon => ";"
  | colon => ":"
  | tilde => "~"
  | leftParen => "("
  | rightParen => ")"
  | question => "?"
  | leftBracket => "["
  | rightBracket => "]"
  | leftBrace => "\x7b"
  | rightBrace => "\x7d"
  | caret => "^"
  | identifier => "identifier"
  | integer => "integer literal"
  | real => "real literal"
  | character => "character literal"
  | string => "string literal"
  | error => "error"
  | endOfFile => "end of file"

/-- The reserved word that is spelled `word`, if there is one. -/
def reservedWord? (word : String) : Option TokenKind :=
  reservedWords.find? fun kind => kind.text == word

end TokenKind

end FrontEnd
