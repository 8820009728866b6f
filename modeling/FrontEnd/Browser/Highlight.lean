import FrontEnd.Browser.Palette
import FrontEnd.Text.Category

/-!
# Highlighting

A line of source text is taken apart into spans in different colours: words, literals, brackets, other
characters, and a comment at its end.  This goes by the look of the line alone and does not follow the
scanner: a literal that is not closed reaches to the end of the line, and so does a line that begins
with a hash sign.

The spans together are the line; nothing is lost or moved.
-/

namespace FrontEnd.Highlight

/-- Whether a word begins with a digit. -/
def isNumber (word : List Char) : Bool :=
  word.head?.any Char.isDigit

/-- The words for types and for the declaration of types. -/
def typeWords : List String :=
  ["int", "char", "void", "float", "double", "struct", "union", "typedef", "const"]

/-- The words that begin statements. -/
def statementWords : List String := ["return", "if", "else", "while", "do"]

/-- The style of a word; a name before an opening parenthesis is taken for that of a routine. -/
def wordStyle (word : List Char) (isCalled : Bool) : Style :=
  let text := String.ofList word
  if typeWords.contains text then Palette.ink Palette.typeName
  else if statementWords.contains text then Palette.boldInk Palette.keyword
  else if isNumber word then Palette.ink Palette.literal
  else if isCalled then Palette.ink Palette.routine
  else Palette.ink Palette.text

/-- The style of a character that belongs to no word. -/
def delimiterStyle (c : Char) : Style :=
  if c = '\x7b' || c = '\x7d' || c = '(' || c = ')' || c = '[' || c = ']' then
    Palette.ink Palette.punctuation
  else Palette.ink Palette.text

/-- The span of a word, unless it is empty. -/
def wordSpan (word : List Char) (style : Style) : List Span :=
  if word.isEmpty then [] else [⟨word, style⟩]

/-- What has been read of a span that is not complete: a word, or a literal with its quote, and
whether the character before was a backslash that keeps the next one from closing it.  The characters
are listed nearest first. -/
inductive Pending where
  | word (passed : List Char)
  | literal (quote : Char) (passed : List Char) (escaped : Bool)

/-- The spans of the rest of a line; `atStart` says whether it is the whole line. -/
def spansFrom (atStart : Bool) : Pending → List Char → List Span
  | .word passed, [] => wordSpan passed.reverse (wordStyle passed.reverse false)
  | .literal _ passed _, [] => [⟨passed.reverse, Palette.ink Palette.literal⟩]
  | .word passed, c :: rest =>
    let word := passed.reverse
    if (c = '/' && rest.head? = some '/') || (c = '#' && atStart) then
      wordSpan word {} ++ [⟨c :: rest, Palette.ink Palette.muted⟩]
    else if c = '"' || c = '\'' then
      wordSpan word {} ++ spansFrom false (.literal c [c] false) rest
    else if !Text.isAlphanumeric c && c != '_' && !(c = '.' && isNumber word) then
      wordSpan word (wordStyle word (c = '(')) ++ ⟨[c], delimiterStyle c⟩ ::
        spansFrom false (.word []) rest
    else spansFrom false (.word (c :: passed)) rest
  | .literal quote passed escaped, c :: rest =>
    if c = quote && !escaped then
      ⟨(c :: passed).reverse, Palette.ink Palette.literal⟩ :: spansFrom false (.word []) rest
    else spansFrom false (.literal quote (c :: passed) (c = '\\' && !escaped)) rest

/-- The spans of a line. -/
def spans (line : List Char) : List Span :=
  spansFrom true (.word []) line

end FrontEnd.Highlight
