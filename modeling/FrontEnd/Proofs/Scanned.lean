import FrontEnd.Token.Scanner
import Mathlib.Tactic.Common

/-!
# What the scanner makes of a piece of text

A piece of source text is a word or symbol, which has no value, a literal with its value, or no token, and
then its value is the reason why (`Lexeme.Formed`).  The first lexeme of every line is made in one of these
ways (`Lexeme.formed_first?`), and so is every token that is scanned (`Scanner.stream_of_formed`).

So the value of a token is of the kind of the token, and what is no token has one (`Token.Fits`).  A token comes
with the reason why it is none just if it is none (`Token.Fits.explained`), and words and symbols have no value
(`Token.Fits.valued`).
-/

namespace FrontEnd

/-- Whether a token says why it is none just if it is none. -/
def Token.Explained (token : Token) : Prop :=
  token.kind = .error ↔ token.scanError?.isSome

/-- The kinds of tokens that can have a value: the literals, and what is no token. -/
def TokenKind.valued : List TokenKind :=
  [integer, real, character, string, error]

/-- Whether a token has a value only if its kind can have one. -/
def Token.Valued (token : Token) : Prop :=
  token.value.isSome → token.kind ∈ TokenKind.valued

/-- The kind of the tokens that a value belongs to. -/
def TokenValue.kind : TokenValue → TokenKind
  | integer _ => .integer
  | real _ => .real
  | character _ => .character
  | string _ => .string
  | error _ => .error

/-- Whether a token has no value but one of its kind, and has one if it is no token. -/
structure Token.Fits (token : Token) : Prop where
  value : ∀ value ∈ token.value, value.kind = token.kind
  reason : token.kind = .error → token.value.isSome

instance (token : Token) : Decidable token.Fits :=
  decidable_of_iff ((∀ value ∈ token.value, value.kind = token.kind) ∧ (token.kind = .error → token.value.isSome))
    ⟨fun h => ⟨h.1, h.2⟩, fun h => ⟨h.value, h.reason⟩⟩

theorem Token.fits_endOfFile (location : Location) : (Token.endOfFile location).Fits :=
  ⟨by simp [Token.endOfFile], by simp [Token.endOfFile]⟩

namespace Token.Fits

variable {token : Token}

theorem explained (h : token.Fits) : token.Explained := by
  unfold Explained scanError?
  constructor
  · intro hkind
    obtain ⟨value, hvalue⟩ := Option.isSome_iff_exists.mp (h.reason hkind)
    have hsame := (h.value value hvalue).trans hkind
    rw [hvalue]
    cases value with
    | error reason => rfl
    | integer | real | character | string => cases hsame
  · intro hreason
    split at hreason
    · next reason hvalue => exact (h.value _ hvalue).symm
    · cases hreason

theorem valued (h : token.Fits) : token.Valued := by
  intro hsome
  obtain ⟨value, hvalue⟩ := Option.isSome_iff_exists.mp hsome
  rw [← h.value value hvalue]
  cases value <;> simp [TokenValue.kind, TokenKind.valued]

end Token.Fits

theorem Token.explained_endOfFile (location : Location) : (Token.endOfFile location).Explained :=
  (fits_endOfFile location).explained

theorem Token.valued_endOfFile (location : Location) : (Token.endOfFile location).Valued :=
  (fits_endOfFile location).valued

namespace Lexeme

/-- The ways in which a piece of text is made into a token. -/
inductive Formed : Lexeme → Prop
  | plain {kind : TokenKind} (text : List Char) (hkind : kind ≠ .error) : Formed ⟨kind, text, none⟩
  | literal (text : List Char) (value : TokenValue) (hknown : value.kind ≠ .error) :
      Formed ⟨value.kind, text, some value⟩
  | invalid (text : List Char) (reason : ScanError) : Formed (invalid text reason)

/-! ## Pieces of a line -/

theorem formed_word (line : List Char) : (word line).Formed := by
  refine .plain _ ?_
  intro herror
  -- a word is reserved or an identifier, and neither is the kind for what is no token
  have hreserved : ∀ kind ∈ TokenKind.reservedWords, kind ≠ .error := by decide
  cases hword : TokenKind.reservedWord? (String.ofList (line.takeWhile continuesWord)) with
  | none => simp [hword] at herror
  | some kind =>
      have hmem : kind ∈ TokenKind.reservedWords := List.mem_of_find?_eq_some hword
      simp only [hword, Option.getD_some] at herror
      exact hreserved kind hmem herror

theorem formed_integerLiteral (digits : List Char) : (integerLiteral digits).Formed := by
  unfold integerLiteral
  dsimp only
  split
  · exact .literal _ (.integer _) (by simp [TokenValue.kind])
  · exact .invalid _ _

theorem formed_realLiteral (text : List Char) : (realLiteral text).Formed := by
  unfold realLiteral
  split
  · split
    · exact .literal _ (.real _) (by simp [TokenValue.kind])
    · exact .invalid _ _
  · exact .invalid _ _

theorem formed_number (line : List Char) : (number line).Formed := by
  unfold number
  dsimp only
  split
  · split
    · exact .invalid _ _
    · exact formed_realLiteral _
  · split
    · exact formed_integerLiteral _
    · exact formed_realLiteral _

theorem formed_closeCharacter (text : List Char) (value : Option Char) (rest : List Char) :
    (closeCharacter text value rest).Formed := by
  unfold closeCharacter
  split
  · exact .literal _ (.character _) (by simp [TokenValue.kind])
  · exact .invalid _ _
  · exact .invalid _ _

theorem formed_character (line : List Char) : (character line).Formed := by
  unfold character
  split
  · exact formed_closeCharacter _ _ _
  · split <;> exact formed_closeCharacter _ _ _
  · exact .invalid _ _

theorem formed_stringFrom (text value line : List Char) : (stringFrom text value line).Formed := by
  fun_induction stringFrom text value line with
  | case1 => exact .literal _ (.string _) (by simp [TokenValue.kind])
  | case2 => exact .invalid _ _
  | case3 _ _ _ _ _ ih => exact ih
  | case4 => exact .invalid _ _
  | case5 _ _ _ _ _ _ _ ih => exact ih
  | case6 => exact .invalid _ _

/-! ## The first piece of a line -/

theorem symbol?_ne_error {line : List Char} {kind : TokenKind} (h : symbol? line = some kind) :
    kind ≠ .error := by
  have hpair {first second : Char} {kind : TokenKind} (h : pairSymbol? first second = some kind) :
      kind ≠ .error := by
    unfold pairSymbol? at h
    split at h <;> cases h <;> nofun
  have hsingle {c : Char} {kind : TokenKind} (h : singleSymbol? c = some kind) :
      kind ≠ .error := by
    unfold singleSymbol? at h
    split at h <;> cases h <;> nofun
  unfold symbol? at h
  split at h
  · rcases Option.or_eq_some_iff.mp h with hpairs | ⟨-, hsingles⟩
    · exact hpair hpairs
    · exact hsingle hsingles
  · exact hsingle h
  · simp at h

/-- Whatever a line begins with is made in one of the three ways. -/
theorem formed_first? {line : List Char} {lexeme : Lexeme} (h : first? line = some lexeme) :
    lexeme.Formed := by
  unfold first? at h
  split at h
  · simp at h
  · split_ifs at h
    · exact Option.some.inj h ▸ formed_word _
    · exact Option.some.inj h ▸ formed_number _
    · exact Option.some.inj h ▸ formed_character _
    · exact Option.some.inj h ▸ formed_stringFrom _ _ _
    · split at h
      · next kind hsymbol =>
          exact Option.some.inj h ▸ .plain _ (symbol?_ne_error hsymbol)
      · exact Option.some.inj h ▸ .invalid _ _

/-- How a piece is made does not depend on its text. -/
theorem Formed.withText {lexeme : Lexeme} (h : lexeme.Formed) (text : List Char) :
    Formed { lexeme with text } := by
  cases h with
  | plain _ hkind => exact .plain text hkind
  | literal _ value hknown => exact .literal text value hknown
  | invalid _ reason => exact .invalid text reason

theorem Formed.fits {lexeme : Lexeme} (h : lexeme.Formed) (location : Location) :
    (lexeme.toToken location).Fits := by
  cases h with
  | plain _ hkind => exact ⟨by simp [Lexeme.toToken], fun herror => absurd herror hkind⟩
  | literal _ value _ => exact ⟨by simp [Lexeme.toToken], fun _ => rfl⟩
  | invalid _ reason => exact ⟨by simp [Lexeme.toToken, Lexeme.invalid, TokenValue.kind], fun _ => rfl⟩

theorem Formed.explained {lexeme : Lexeme} (h : lexeme.Formed) (location : Location) :
    (lexeme.toToken location).Explained :=
  (h.fits location).explained

theorem Formed.valued {lexeme : Lexeme} (h : lexeme.Formed) (location : Location) :
    (lexeme.toToken location).Valued :=
  (h.fits location).valued

end Lexeme

namespace Scanner

/-! ## Tokens -/

section

variable {holds : Token → Prop}

/-- A literal that is broken over the end of its line is made as it was, but for its text. -/
theorem finishBroken_of_first {lexeme : Lexeme}
    (hmade : ∀ text location, holds (Lexeme.toToken { lexeme with text } location)) (scanner : Scanner)
    (location : Location) {token : Token} (htoken : (scanner.finishBroken lexeme location).1 = .ok token) :
    holds token := by
  unfold finishBroken at htoken
  split at htoken
  · simp at htoken
  · split at htoken
    · exact Except.ok.inj htoken ▸ hmade _ location
    · exact Except.ok.inj htoken ▸ hmade lexeme.text location

theorem next_of_first (hend : ∀ location, holds (.endOfFile location))
    (hfirst : ∀ {line lexeme}, Lexeme.first? line = some lexeme →
      ∀ text location, holds (Lexeme.toToken { lexeme with text } location))
    (scanner : Scanner) {token : Token} (htoken : scanner.next.1 = .ok token) : holds token := by
  unfold next at htoken
  split at htoken
  · simp at htoken
  · split at htoken
    · exact Except.ok.inj htoken ▸ hend _
    · next lexeme hlexeme =>
        dsimp only at htoken
        split at htoken
        · exact finishBroken_of_first (hfirst hlexeme) _ _ htoken
        · exact Except.ok.inj htoken ▸ hfirst hlexeme lexeme.text _

/-- What holds of the end of the file and of whatever a line can begin with, its text aside, holds of all tokens
that are scanned. -/
theorem stream_of_first (hend : ∀ location, holds (.endOfFile location))
    (hfirst : ∀ {line lexeme}, Lexeme.first? line = some lexeme →
      ∀ text location, holds (Lexeme.toToken { lexeme with text } location))
    (feed : LineFeed) {token : Token} (h : .ok token ∈ (stream feed).events) : holds token := by
  have hwithin (requests : Nat) (scanner : Scanner) :
      ∀ event ∈ (streamWithin requests scanner).events, event = .ok token → holds token := by
    induction requests generalizing scanner with
    | zero => simp [streamWithin]
    | succ requests ih =>
        unfold streamWithin
        split
        · simp
        · intro event hmem hevent
          rcases List.mem_cons.mp hmem with rfl | hrest
          · exact next_of_first hend hfirst scanner hevent
          · exact ih _ event hrest hevent
  exact hwithin _ _ _ h rfl

/-- What holds of the end of the file and of every token that is made holds of all that are scanned. -/
theorem stream_of_formed (hend : ∀ location, holds (.endOfFile location))
    (hformed : ∀ lexeme : Lexeme, lexeme.Formed → ∀ location, holds (lexeme.toToken location))
    (feed : LineFeed) {token : Token} (h : .ok token ∈ (stream feed).events) : holds token :=
  stream_of_first hend
    (fun hlexeme text location => hformed _ ((Lexeme.formed_first? hlexeme).withText text) location) feed h

end

/-- The values of all tokens that are scanned are of their kinds. -/
theorem fits_stream (feed : LineFeed) {token : Token} (h : .ok token ∈ (stream feed).events) : token.Fits :=
  stream_of_formed Token.fits_endOfFile (fun _ hlexeme => hlexeme.fits) feed h

/-- Every token that is scanned says why it is none just if it is none. -/
theorem explained_stream (feed : LineFeed) {token : Token}
    (h : .ok token ∈ (stream feed).events) : token.Explained :=
  stream_of_formed Token.explained_endOfFile (fun _ hlexeme => hlexeme.explained) feed h

end Scanner

end FrontEnd
