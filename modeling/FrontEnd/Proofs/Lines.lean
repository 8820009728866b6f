import FrontEnd.Proofs.Reports

/-!
# The lines of the tokens of a source

Whatever a feed of lines contains, the scanner gives its tokens in the order of their lines, which are counted
from one, and the end of the file comes on the last of them.  A literal for an integer denotes a number that is
neither negative nor larger than the largest integer, and an identifier is never reported by itself.  `Scanned`
says this of a list of tokens, and `Scanner.scanned_stream` that it is so of the tokens of every feed.

## Strategy

The number of the current line only grows, from one request to the next and within a request, and a token stands
on a line between the two numbers (`lines_of_next`).
-/

namespace FrontEnd

/-- Whether a number is at most as far from zero as the largest integer that a literal may denote. -/
def InRange (value : Int) : Prop :=
  value.natAbs ≤ Lexeme.largestInteger

theorem InRange.neg {value : Int} (h : InRange value) : InRange (-value) := by
  rwa [InRange, Int.natAbs_neg]

/-- What the scanner makes sure of in the tokens of a source. -/
structure Scanned (tokens : List Token) : Prop where
  sorted : tokens.Pairwise fun earlier later => earlier.line ≤ later.line
  positive : ∀ token ∈ tokens, 1 ≤ token.line
  fits : ∀ token ∈ tokens, token.Fits
  integer : ∀ token ∈ tokens, ∀ value, token.value = some (.integer value) → 0 ≤ value ∧ InRange value

namespace Lexeme

/-! ## Integers -/

variable {line : List Char} {value : Int}

/-- Digits denote an integer that is not too large, or none. -/
theorem integer_of_number (h : (number line).value = some (.integer value)) : 0 ≤ value ∧ InRange value := by
  have hreal (text : List Char) : (realLiteral text).value ≠ some (.integer value) := by
    unfold realLiteral
    split
    · split <;> simp [invalid]
    · simp [invalid]
  unfold number at h
  dsimp only at h
  split at h
  · split at h
    · simp [invalid] at h
    · exact absurd h (hreal _)
  · split at h
    · unfold integerLiteral at h
      dsimp only at h
      split at h
      · next hle =>
          obtain rfl : (Binary64.digitsValue _ : Int) = value := by simpa using h
          exact ⟨Int.natCast_nonneg _, hle⟩
      · simp [invalid] at h
    · exact absurd h (hreal _)

theorem value_character_ne_integer (rest : List Char) : (character rest).value ≠ some (.integer value) := by
  have hclosed (text : List Char) (denoted : Option Char) (rest : List Char) :
      (closeCharacter text denoted rest).value ≠ some (.integer value) := by
    unfold closeCharacter
    split <;> simp [invalid]
  unfold character
  split
  · exact hclosed _ _ _
  · split <;> exact hclosed _ _ _
  · simp [invalid]

theorem value_stringFrom_ne_integer (text denoted rest : List Char) :
    (stringFrom text denoted rest).value ≠ some (.integer value) := by
  fun_induction stringFrom text denoted rest with
  | case1 | case2 | case4 | case6 => simp [invalid]
  | case3 _ _ _ _ _ ih => exact ih
  | case5 _ _ _ _ _ _ _ ih => exact ih

/-- Nothing but digits denotes an integer. -/
theorem integer_of_first {lexeme : Lexeme} (h : first? line = some lexeme)
    (hvalue : lexeme.value = some (.integer value)) : 0 ≤ value ∧ InRange value := by
  unfold first? at h
  split at h
  · simp at h
  · split_ifs at h
    · obtain rfl := Option.some.inj h
      simp [word] at hvalue
    · obtain rfl := Option.some.inj h
      exact integer_of_number hvalue
    · obtain rfl := Option.some.inj h
      exact absurd hvalue (value_character_ne_integer _)
    · obtain rfl := Option.some.inj h
      exact absurd hvalue (value_stringFrom_ne_integer _ _ _)
    · split at h <;> obtain rfl := Option.some.inj h <;> simp [invalid] at hvalue

end Lexeme

/-! ## Lines in order -/

/-- Whether tokens are in the order of their lines, the first of which is no earlier than a given one. -/
structure Ascending (first : Nat) (tokens : List Token) : Prop where
  sorted : tokens.Pairwise fun earlier later => earlier.line ≤ later.line
  first_le : ∀ token ∈ tokens, first ≤ token.line

namespace Ascending

variable {first : Nat} {token : Token} {tokens : List Token}

theorem nil (first : Nat) : Ascending first [] :=
  ⟨.nil, by simp⟩

theorem mono (h : Ascending first tokens) {lower : Nat} (hle : lower ≤ first) : Ascending lower tokens :=
  ⟨h.sorted, fun token hmem => Nat.le_trans hle (h.first_le token hmem)⟩

theorem cons (h : Ascending token.line tokens) (hle : first ≤ token.line) : Ascending first (token :: tokens) :=
  ⟨.cons h.first_le h.sorted, List.forall_mem_cons.mpr ⟨hle, (h.mono hle).first_le⟩⟩

theorem sublist (h : Ascending first tokens) {some : List Token} (hsome : some.Sublist tokens) :
    Ascending first some :=
  ⟨h.sorted.sublist hsome, fun token hmem => h.first_le token (hsome.subset hmem)⟩

end Ascending

namespace TokenStream

/-- All tokens that a stream lists, and the end of the file if that is what it repeats. -/
def supplied (stream : TokenStream) : List Token :=
  tokensOf (stream.events ++ [stream.finalEvent])

theorem tokensOf_cons (answer : Except ReadError Token) (answers : List (Except ReadError Token)) :
    tokensOf (answer :: answers) = answer.toOption.toList ++ tokensOf answers := by
  cases answer <;> rfl

theorem supplied_push (stream : TokenStream) (answer : Except ReadError Token) :
    (stream.push answer).supplied = answer.toOption.toList ++ stream.supplied :=
  tokensOf_cons answer _

/-- The answers up to the first final one are the first of those that are listed. -/
theorem prefix_answersUntil (final : Except ReadError Token) (events : List (Except ReadError Token)) :
    answersUntil final events 0 <+: events ++ [final] := by
  induction events with
  | nil => exact List.prefix_refl _
  | cons event events ih =>
      unfold answersUntil
      split
      · exact (List.prefix_cons_inj event).mpr List.nil_prefix
      · exact (List.prefix_cons_inj event).mpr ih

theorem tokensOf_answers_sublist (stream : TokenStream) :
    (tokensOf (stream.answers 0)).Sublist stream.supplied :=
  (prefix_answersUntil stream.finalEvent stream.events).sublist.filterMap _

end TokenStream

namespace Scanner

open TokenStream (tokensOf)

/-! ## The number of the current line -/

theorem lineNumber_le_skipLines (failure : Option ReadError) (reads : List (Except ReadError (List Char)))
    (inComment : Bool) (lineNumber : Nat) (before after : List Char) :
    lineNumber ≤ (skipLines failure reads inComment lineNumber before after).2.lineNumber := by
  induction reads generalizing inComment lineNumber before after with
  | nil =>
      unfold skipLines
      split
      · exact Nat.le_refl lineNumber
      · cases failure <;> exact Nat.le_refl lineNumber
  | cons read reads ih =>
      unfold skipLines
      split
      · exact Nat.le_refl lineNumber
      · cases read with
        | error problem => exact Nat.le_refl lineNumber
        | ok line => exact Nat.le_trans (Nat.le_succ lineNumber) (ih _ _ _ _)

theorem lineNumber_le_readLine (scanner : Scanner) : scanner.lineNumber ≤ scanner.readLine.2.lineNumber := by
  unfold readLine
  split
  · exact Nat.le_succ _
  · exact Nat.le_refl _
  · split <;> exact Nat.le_refl _

/-- Where a literal that is broken over the end of its line begins, and what its completion reads. -/
theorem lines_of_finishBroken (scanner : Scanner) (lexeme : Lexeme) (location : Location) :
    scanner.lineNumber ≤ (scanner.finishBroken lexeme location).2.lineNumber ∧
      ∀ token, (scanner.finishBroken lexeme location).1 = .ok token → token.line = location.line := by
  have hread := scanner.lineNumber_le_readLine
  unfold finishBroken
  split
  · next hfailed => exact ⟨by rwa [hfailed] at hread, by simp⟩
  · next hdone =>
      rw [hdone] at hread
      split
      · exact ⟨hread, fun token htoken => Except.ok.inj htoken ▸ rfl⟩
      · exact ⟨hread, fun token htoken => Except.ok.inj htoken ▸ rfl⟩

/-- A token stands on a line between the one that the scanner was on and the one that it comes to. -/
theorem lines_of_next (scanner : Scanner) :
    scanner.lineNumber ≤ scanner.next.2.lineNumber ∧
      ∀ token, scanner.next.1 = .ok token →
        max scanner.lineNumber 1 ≤ token.line ∧ token.line ≤ max scanner.next.2.lineNumber 1 := by
  have hskip : scanner.lineNumber ≤ scanner.skip.2.lineNumber := lineNumber_le_skipLines _ _ _ _ _ _
  unfold next
  split
  · next hfailed => exact ⟨by rwa [hfailed] at hskip, by simp⟩
  · next reached hdone =>
      rw [hdone] at hskip
      have hmax : max scanner.lineNumber 1 ≤ max reached.lineNumber 1 := by
        dsimp only at hskip
        omega
      split
      · exact ⟨hskip, fun token htoken => Except.ok.inj htoken ▸ ⟨hmax, Nat.le_refl _⟩⟩
      · next lexeme _ =>
          dsimp only
          split
          · obtain ⟨hfinished, hline⟩ :=
              lines_of_finishBroken (reached.move lexeme.text.length) lexeme reached.location
            refine ⟨Nat.le_trans hskip hfinished, fun token htoken => ?_⟩
            rw [hline token htoken]
            have hfinished : reached.lineNumber ≤ _ := hfinished
            exact ⟨hmax, show max reached.lineNumber 1 ≤ _ by omega⟩
          · exact ⟨hskip, fun token htoken => Except.ok.inj htoken ▸ ⟨hmax, Nat.le_refl _⟩⟩

/-! ## All tokens of a feed -/

theorem line_of_ending {scanner : Scanner} {token : Token}
    (h : .ok token = scanner.ending.map Token.endOfFile) : token.line = max scanner.lineNumber 1 := by
  unfold ending at h
  split at h
  · cases h
  · exact Except.ok.inj h ▸ rfl

/-- What a scanner supplies begins on the line on which it is. -/
theorem ascending_streamWithin (requests : Nat) (scanner : Scanner) :
    Ascending (max scanner.lineNumber 1) (streamWithin requests scanner).supplied := by
  have hspent (scanner : Scanner) :
      Ascending (max scanner.lineNumber 1) (TokenStream.supplied ⟨[], scanner.ending⟩) := by
    cases hending : scanner.ending.map Token.endOfFile with
    | error failure =>
        have hnone : TokenStream.supplied ⟨[], scanner.ending⟩ = [] := by
          rw [TokenStream.supplied, TokenStream.finalEvent, hending]
          rfl
        exact hnone ▸ .nil _
    | ok token =>
        have hone : TokenStream.supplied ⟨[], scanner.ending⟩ = [token] := by
          rw [TokenStream.supplied, TokenStream.finalEvent, hending]
          rfl
        exact hone ▸ (Ascending.nil token.line).cons (Nat.le_of_eq (line_of_ending hending.symm).symm)
  induction requests generalizing scanner with
  | zero => exact hspent scanner
  | succ requests ih =>
      unfold streamWithin
      split
      · exact hspent scanner
      · obtain ⟨hgrows, hline⟩ := scanner.lines_of_next
        have hrest := ih scanner.next.2
        rw [TokenStream.supplied_push]
        cases hanswer : scanner.next.1 with
        | error failure => exact hrest.mono (by omega)
        | ok token =>
            obtain ⟨hlower, hupper⟩ := hline token hanswer
            exact (hrest.mono hupper).cons hlower

/-- What the scanner makes sure of, whatever a feed contains. -/
theorem scanned_stream (feed : LineFeed) : Scanned (tokensOf ((stream feed).answers 0)) := by
  have hsorted := (ascending_streamWithin (ofFeed feed).effort (ofFeed feed)).sublist
    (TokenStream.tokensOf_answers_sublist (stream feed))
  have hsupplied {token : Token} (hmem : token ∈ tokensOf ((stream feed).answers 0)) :
      .ok token ∈ (stream feed).events ∨ (stream feed).finalEvent = .ok token := by
    obtain ⟨answer, hanswer, htoken⟩ := List.mem_filterMap.mp hmem
    obtain rfl : answer = .ok token := by
      cases answer with
      | error failure => simp [Except.toOption] at htoken
      | ok other => simpa [Except.toOption] using htoken
    exact (TokenStream.mem_answersUntil hanswer).imp_right Eq.symm
  have hscanned {holds : Token → Prop} (hend : ∀ location, holds (.endOfFile location))
      (hfirst : ∀ {line lexeme}, Lexeme.first? line = some lexeme →
        ∀ text location, holds (Lexeme.toToken { lexeme with text } location)) :
      ∀ token ∈ tokensOf ((stream feed).answers 0), holds token := fun token hmem =>
    (hsupplied hmem).elim (stream_of_first hend hfirst feed) (TokenStream.of_finalEvent hend)
  exact {
    sorted := hsorted.sorted
    positive := fun token hmem => Nat.le_trans (Nat.le_max_right _ 1) (hsorted.first_le token hmem)
    fits := fun _ hmem =>
      (hsupplied hmem).elim (fits_stream feed) (TokenStream.of_finalEvent Token.fits_endOfFile)
    integer := hscanned (by simp [Token.endOfFile]) fun hlexeme _ _ _ hvalue =>
      Lexeme.integer_of_first hlexeme hvalue }

end Scanner

end FrontEnd
