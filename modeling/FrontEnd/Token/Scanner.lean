import FrontEnd.Text.Blank
import FrontEnd.Token.Lexeme
import FrontEnd.Token.Stream

/-!
# Scanning

Turns a feed of lines into a stream of tokens.

A line is prepared when it is read: every carriage return is dropped, and a missing line feed at the
end of the last line is supplied.  Between tokens stand white space, line comments, block comments,
which may reach over several lines, and lines that begin with a hash sign, all of which are skipped.

A read is attempted only when a character beyond the end of the line is needed, which happens between
tokens and, inside a token, only in a character literal that is broken over the line.  A read that
fails leaves nothing of the old line: the next request starts afresh with the lines still unread.  So
an unfinished comment or literal is given up.

## Strategy

`skipInLine` recurses on the characters of a line and `skipLines` on the reads still to come, so both
end by their data.  `Scanner.stream` asks for at most one token for each character and each read that
is left, which `Scanner.effort` counts.
-/

namespace FrontEnd

/-- A position in a feed of lines: the number of lines read, and the characters of the current line
before the position (nearest first) and from it on. -/
structure Scanner where
  feed : LineFeed
  lineNumber : Nat := 0
  before : List Char := []
  after : List Char := []

namespace Scanner

/-- The scanner at the start of a feed. -/
def ofFeed (feed : LineFeed) : Scanner := { feed }

/-- The place of the next character; before the first line it is taken to be on line one. -/
def location (scanner : Scanner) : Location :=
  ⟨max scanner.lineNumber 1, scanner.before.length + 1⟩

/-- A line as it is scanned: without carriage returns, and with a line feed at its end. -/
def prepare (line : List Char) : List Char :=
  let ended := if line.getLast? = some '\n' then line else line ++ ['\n']
  ended.filter (· != '\r')

/-! ## Moving on -/

/-- The scanner after `count` more characters of its line. -/
def move (scanner : Scanner) (count : Nat) : Scanner :=
  { scanner with
    before := (scanner.after.take count).reverse ++ scanner.before
    after := scanner.after.drop count }

/-- Reads the next line.  At the end of the input, and when the read fails, the line is empty. -/
def readLine (scanner : Scanner) : Except ReadError Unit × Scanner :=
  let drained := { scanner with before := [], after := [] }
  match scanner.feed.reads with
  | .ok line :: reads =>
    (.ok (), { feed := { scanner.feed with reads }
               lineNumber := scanner.lineNumber + 1
               before := []
               after := prepare line })
  | .error failure :: reads => (.error failure, { drained with feed := { scanner.feed with reads } })
  | [] =>
    match scanner.feed.failure with
    | some failure => (.error failure, drained)
    | none => (.ok (), drained)

/-! ## Between tokens -/

/-- Skips what stands before the next token of a line.  Answers whether the line ends inside a block
comment, and the characters before and after the place that is reached. -/
def skipInLine : Bool → List Char → List Char → Bool × List Char × List Char
  | inComment, before, [] => (inComment, before, [])
  | true, before, '*' :: '/' :: rest => skipInLine false ('/' :: '*' :: before) rest
  | true, before, c :: rest => skipInLine true (c :: before) rest
  | false, before, '/' :: '*' :: rest => skipInLine true ('*' :: '/' :: before) rest
  | false, before, '/' :: '/' :: rest => (false, rest.reverse ++ '/' :: '/' :: before, [])
  | false, before, c :: rest =>
    if Text.isBlank c then skipInLine false (c :: before) rest
    else if c = '#' && before.all Text.isBlank then (false, rest.reverse ++ c :: before, [])
    else (false, before, c :: rest)

/-- Skips what stands before the next token, through the lines of `reads` once the current line is
used up. -/
def skipLines (failure : Option ReadError) :
    List (Except ReadError (List Char)) → Bool → Nat → List Char → List Char →
      Except ReadError Unit × Scanner
  | reads, inComment, lineNumber, before, after =>
    match skipInLine inComment before after with
    | (_, before, c :: rest) =>
      (.ok (), ⟨⟨reads, failure⟩, lineNumber, before, c :: rest⟩)
    | (inComment, _, []) =>
      match reads with
      | .ok line :: reads => skipLines failure reads inComment (lineNumber + 1) [] (prepare line)
      | .error problem :: reads => (.error problem, ⟨⟨reads, failure⟩, lineNumber, [], []⟩)
      | [] =>
        match failure with
        | some problem => (.error problem, ⟨⟨[], failure⟩, lineNumber, [], []⟩)
        | none => (.ok (), ⟨⟨[], failure⟩, lineNumber, [], []⟩)

/-- Skips what stands before the next token. -/
def skip (scanner : Scanner) : Except ReadError Unit × Scanner :=
  skipLines scanner.feed.failure scanner.feed.reads false scanner.lineNumber scanner.before
    scanner.after

/-! ## Tokens -/

/-- Completes a character literal that is broken over the end of its line: the literal is an error,
and a quote with which the next line begins still belongs to it. -/
def finishBroken (scanner : Scanner) (lexeme : Lexeme) (location : Location) :
    Except ReadError Token × Scanner :=
  match scanner.readLine with
  | (.error failure, scanner) => (.error failure, scanner)
  | (.ok (), scanner) =>
    if scanner.after.head? = some '\'' then
      (.ok (Lexeme.toToken { lexeme with text := lexeme.text ++ ['\''] } location), scanner.move 1)
    else (.ok (lexeme.toToken location), scanner)

/-- The next token.  At the end of the input every request answers with the end of the file. -/
def next (scanner : Scanner) : Except ReadError Token × Scanner :=
  match scanner.skip with
  | (.error failure, scanner) => (.error failure, scanner)
  | (.ok (), scanner) =>
    match Lexeme.first? scanner.after with
    | none => (.ok (.endOfFile scanner.location), scanner)
    | some lexeme =>
      let moved := scanner.move lexeme.text.length
      if moved.after.isEmpty then moved.finishBroken lexeme scanner.location
      else (.ok (lexeme.toToken scanner.location), moved)

/-! ## The stream of all tokens -/

/-- Whether nothing is left to read or to scan. -/
def isSpent (scanner : Scanner) : Bool :=
  scanner.after.isEmpty && scanner.feed.reads.isEmpty

/-- At least the number of characters and reads that are left in a feed. -/
def effortOfReads : List (Except ReadError (List Char)) → Nat
  | [] => 0
  | .ok line :: reads => line.length + 2 + effortOfReads reads
  | .error _ :: reads => 1 + effortOfReads reads

/-- More than the number of characters and reads that are left. -/
def effort (scanner : Scanner) : Nat :=
  scanner.after.length + 1 + effortOfReads scanner.feed.reads

/-- What a spent scanner answers. -/
def ending (scanner : Scanner) : Except ReadError Location :=
  match scanner.feed.failure with
  | some failure => .error failure
  | none => .ok ⟨max scanner.lineNumber 1, 1⟩

/-- The answers to at most `requests` requests, followed by what a spent scanner answers. -/
def streamWithin : Nat → Scanner → TokenStream
  | 0, scanner => ⟨[], scanner.ending⟩
  | requests + 1, scanner =>
    if scanner.isSpent then ⟨[], scanner.ending⟩
    else
      let (event, scanner) := scanner.next
      (streamWithin requests scanner).push event

/-- All tokens of a feed of lines. -/
def stream (feed : LineFeed) : TokenStream :=
  let scanner := ofFeed feed
  streamWithin scanner.effort scanner

end Scanner

end FrontEnd
