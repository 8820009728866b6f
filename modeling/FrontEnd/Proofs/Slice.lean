import FrontEnd.Proofs.Gap
import FrontEnd.Proofs.Scanned
import Mathlib.Data.List.TakeWhile

/-!
# Lexemes as slices of a text

The lexeme with which a text begins is a slice of it, in which an exponent may be written with a capital
letter (`Lexeme.begins_of_first?`).

A lexeme is looked for on one line, but the end of the line is not needed to find it: what follows a line feed
decides nothing, unless the line ends within a character literal (`Lexeme.first?_append_lineFeed`).  And a
lexeme that is no error is found again in its own text, whatever blank follows that
(`Lexeme.first?_text_append`).

## Strategy

Words and numbers reach as far as they can and symbols are as long as they can be, and no blank lets any of
them reach further (`first?_append_blank`).  Literals in quotes are closed by their last character, so nothing
that follows can change them.  They are the only lexemes for which the two cases differ.
-/

namespace FrontEnd

/-- How a text says what stands in a slice: it is the slice, except that the exponent letter of a number is
written `e`. -/
inductive Spells : (text slice : List Char) → Prop
  | exact (slice : List Char) : Spells slice slice
  | exponent {first : Char} {mantissa sign digits : List Char} :
      first.isDigit → mantissa.all (fun c => c.isDigit || c == '.') → sign ∈ [[], ['+'], ['-']] →
        digits.all Char.isDigit →
          Spells (first :: mantissa ++ 'e' :: (sign ++ digits)) (first :: mantissa ++ 'E' :: (sign ++ digits))

theorem Spells.length_eq {text slice : List Char} (h : Spells text slice) : text.length = slice.length := by
  cases h <;> simp

namespace Lexeme

open Text (isBlank)

variable {line rest : List Char} {c : Char}

/-! ## Reaching as far as possible -/

theorem toNat_lt_of_continuesWord (h : continuesWord c = true) : c.toNat < 0x80 := by
  have hlast {last : Char} (hle : c.val ≤ last.val) (hlt : last.toNat < 0x80) : c.toNat < 0x80 :=
    Nat.lt_of_le_of_lt (UInt32.le_iff_toNat_le.mp hle) hlt
  simp only [continuesWord, Char.isAlphanum, Bool.or_eq_true, beq_iff_eq] at h
  rcases h with (hletter | hdigit) | rfl
  · rcases Bool.or_eq_true_iff.mp hletter with hupper | hlower
    · exact hlast (of_decide_eq_true hupper).2 (by decide)
    · exact hlast (of_decide_eq_true (Bool.and_eq_true_iff.mp hlower).2) (by decide)
  · exact hlast (of_decide_eq_true (Bool.and_eq_true_iff.mp hdigit).2) (by decide)
  · decide

/-- What can stand in a word can be told by trying all characters of the basic set. -/
theorem forall_continuesWord {holds : Char → Prop}
    (h : ∀ code < 0x80, continuesWord (Char.ofNat code) = true → holds (Char.ofNat code)) (c : Char)
    (hc : continuesWord c = true) : holds c := by
  have hcode := h c.toNat (toNat_lt_of_continuesWord hc)
  rw [Char.ofNat_toNat] at hcode
  exact hcode hc

/-- A blank is no character of a word. -/
theorem continuesWord_of_isBlank (h : isBlank c = true) : continuesWord c = false := by
  have hblank : ∀ c, continuesWord c = true → isBlank c = false := forall_continuesWord (by decide)
  by_contra hword
  simp [hblank c (by simpa using hword)] at h

theorem isDigit_of_isBlank (h : isBlank c = true) : c.isDigit = false := by
  have hword := continuesWord_of_isBlank h
  simp only [continuesWord, Char.isAlphanum, Bool.or_eq_false_iff] at hword
  exact hword.1.2

theorem ne_of_isBlank {c' : Char} (h : isBlank c = true) (h' : isBlank c' = false) : c ≠ c' := by
  rintro rfl
  simp [h] at h'

/-- What has been taken ends before the first character that does not fit. -/
theorem takeWhile_append_cons {p : Char → Bool} (h : p c = false) :
    (line ++ c :: rest).takeWhile p = line.takeWhile p := by
  induction line with
  | nil => simp [h]
  | cons first line ih => simp [List.takeWhile_cons, ih]

theorem dropWhile_append_cons {p : Char → Bool} (h : p c = false) :
    (line ++ c :: rest).dropWhile p = line.dropWhile p ++ c :: rest := by
  induction line with
  | nil => simp [h]
  | cons first line ih =>
      simp only [List.cons_append, List.dropWhile_cons, ih]
      split <;> rfl

theorem word_append (h : continuesWord c = false) : word (line ++ c :: rest) = word line := by
  simp [word, takeWhile_append_cons h]

/-! ## The parts of a number -/

/-- The digits with which a number begins. -/
def whole (line : List Char) : List Char :=
  line.takeWhile Char.isDigit

/-- The point and the digits that follow them, if the number has any. -/
def afterPoint (line : List Char) : List Char :=
  fraction (line.dropWhile Char.isDigit)

/-- A number without its exponent. -/
def mantissa (line : List Char) : List Char :=
  whole line ++ afterPoint line

theorem drop_length_whole (line : List Char) : line.drop (whole line).length = line.dropWhile Char.isDigit := by
  induction line with
  | nil => rfl
  | cons first line ih =>
      simp only [whole, List.takeWhile_cons, List.dropWhile_cons] at ih ⊢
      split <;> simp [ih]

theorem fraction_cases (line : List Char) :
    fraction line = [] ∨
      ∃ rest digits, line = '.' :: rest ∧ digits = rest.takeWhile Char.isDigit ∧ digits ≠ [] ∧
        fraction line = '.' :: digits := by
  unfold fraction
  split
  · next rest =>
      dsimp only
      split
      · exact .inl rfl
      · next hdigits => exact .inr ⟨rest, _, rfl, rfl, by simpa using hdigits, rfl⟩
  · exact .inl rfl

theorem prefix_fraction (line : List Char) : fraction line <+: line := by
  rcases fraction_cases line with h | ⟨rest, digits, rfl, rfl, -, h⟩
  · exact h ▸ List.nil_prefix
  · rw [h]
    exact (List.prefix_cons_inj _).mpr (List.takeWhile_prefix _)

theorem fraction_append (hdigit : c.isDigit = false) (hpoint : c ≠ '.') :
    fraction (line ++ c :: rest) = fraction line := by
  rcases line with _ | ⟨first, line⟩
  · simp [fraction, hpoint]
  · by_cases hfirst : first = '.'
    · subst hfirst
      simp [fraction, takeWhile_append_cons hdigit]
    · simp [fraction, hfirst]

theorem whole_append (hdigit : c.isDigit = false) : whole (line ++ c :: rest) = whole line :=
  takeWhile_append_cons hdigit

theorem afterPoint_append (hdigit : c.isDigit = false) (hpoint : c ≠ '.') :
    afterPoint (line ++ c :: rest) = afterPoint line := by
  rw [afterPoint, dropWhile_append_cons hdigit, fraction_append hdigit hpoint, afterPoint]

theorem mantissa_append (hdigit : c.isDigit = false) (hpoint : c ≠ '.') :
    mantissa (line ++ c :: rest) = mantissa line := by
  rw [mantissa, whole_append hdigit, afterPoint_append hdigit hpoint, mantissa]

theorem prefix_mantissa (line : List Char) : mantissa line <+: line := by
  conv => rhs; rw [← List.takeWhile_append_dropWhile (p := Char.isDigit) (l := line)]
  exact (List.prefix_append_right_inj _).mpr (prefix_fraction _)

theorem mantissa_all (line : List Char) : (mantissa line).all (fun c => c.isDigit || c == '.') = true := by
  have hdigits (text : List Char) :
      (text.takeWhile Char.isDigit).all (fun c => c.isDigit || c == '.') = true :=
    List.all_eq_true.mpr fun c hc => by simp [List.mem_takeWhile_imp hc]
  rw [mantissa, List.all_append, Bool.and_eq_true]
  refine ⟨hdigits _, ?_⟩
  rcases fraction_cases (line.dropWhile Char.isDigit) with h | ⟨rest, digits, -, rfl, -, h⟩
  · simp [afterPoint, h]
  · simpa [afterPoint, h] using hdigits rest

/-- The digits and the fraction of a number are found again in what they make up. -/
theorem whole_mantissa (line : List Char) : whole (mantissa line) = whole line := by
  rcases fraction_cases (line.dropWhile Char.isDigit) with h | ⟨rest, digits, -, -, -, h⟩
  · simp [mantissa, whole, afterPoint, h, List.takeWhile_idem]
  · rw [mantissa, afterPoint, h, whole_append rfl, whole, whole, List.takeWhile_idem]

theorem afterPoint_mantissa (line : List Char) : afterPoint (mantissa line) = afterPoint line := by
  have hdrop (digits : List Char) : (digits.takeWhile Char.isDigit).dropWhile Char.isDigit = [] :=
    List.dropWhile_eq_nil_iff.mpr fun c hc => List.mem_takeWhile_imp hc
  rcases fraction_cases (line.dropWhile Char.isDigit) with h | ⟨rest, digits, -, rfl, hne, h⟩
  · rw [mantissa, show afterPoint line = [] from h, List.append_nil, afterPoint, whole, hdrop]
    rfl
  · rw [mantissa, show afterPoint line = '.' :: rest.takeWhile Char.isDigit from h, afterPoint,
      dropWhile_append_cons rfl, whole, hdrop, List.nil_append, fraction, List.takeWhile_idem]
    simpa using hne

theorem exponent_append (hdigit : c.isDigit = false) (hword : continuesWord c = false) (hplus : c ≠ '+')
    (hminus : c ≠ '-') : exponent (line ++ c :: rest) = exponent line := by
  have hletter : c ≠ 'e' ∧ c ≠ 'E' := ⟨by rintro rfl; simp [continuesWord] at hword,
    by rintro rfl; simp [continuesWord] at hword⟩
  rcases line with _ | ⟨letter, _ | ⟨sign, digits⟩⟩
  · simp [exponent, hletter]
  · simp [exponent, hplus, hminus, hdigit]
  · unfold exponent
    simp only [List.cons_append]
    split
    · split
      · next heq =>
          obtain ⟨rfl, rfl⟩ := List.cons.inj heq
          simp [takeWhile_append_cons hdigit]
      · next heq =>
          obtain ⟨rfl, rfl⟩ := List.cons.inj heq
          simp [takeWhile_append_cons hdigit]
      · next hnot hnot' =>
          have hp : sign ≠ '+' := fun h => hnot _ (by rw [h])
          have hm : sign ≠ '-' := fun h => hnot' _ (by rw [h])
          rw [← List.cons_append, takeWhile_append_cons hdigit]
          simp [hp, hm]
    · rfl

/-- An exponent is a letter, perhaps a sign, and digits; what is taken of it has a small letter. -/
theorem exponent_cases {letter digits : List Char} (h : exponent line = some (letter, digits)) :
    ∃ first sign tail, (first = 'e' ∨ first = 'E') ∧ sign ∈ [[], ['+'], ['-']] ∧ letter = 'e' :: sign ∧
      line = first :: (sign ++ tail) ∧ digits = tail.takeWhile Char.isDigit := by
  rcases line with _ | ⟨first, line⟩
  · simp [exponent] at h
  · unfold exponent at h
    dsimp only at h
    split_ifs at h with hfirst
    have hfirst : first = 'e' ∨ first = 'E' := by simpa using hfirst
    split at h <;> obtain ⟨rfl, rfl⟩ := Prod.mk.inj (Option.some.inj h)
    · exact ⟨first, ['+'], _, hfirst, by simp, rfl, rfl, rfl⟩
    · exact ⟨first, ['-'], _, hfirst, by simp, rfl, rfl, rfl⟩
    · exact ⟨first, [], _, hfirst, by simp, rfl, rfl, rfl⟩

/-- A number in terms of its parts. -/
theorem number_eq (line : List Char) :
    number line =
      match exponent (line.drop (mantissa line).length) with
      | some (letter, digits) =>
        if digits.isEmpty then invalid (mantissa line ++ letter ++ digits) .invalidNumber
        else realLiteral (mantissa line ++ letter ++ digits)
      | none =>
        if (afterPoint line).isEmpty then integerLiteral (whole line) else realLiteral (mantissa line) := by
  rw [mantissa, afterPoint, ← drop_length_whole]
  rfl

theorem number_append (h : isBlank c = true) : number (line ++ c :: rest) = number line := by
  have hdigit := isDigit_of_isBlank h
  have hpoint : c ≠ '.' := ne_of_isBlank h (by decide)
  have hlength := (prefix_mantissa line).length_le
  rw [number_eq, number_eq, mantissa_append hdigit hpoint, whole_append hdigit, afterPoint_append hdigit hpoint,
    List.drop_append_of_le_length hlength,
    exponent_append hdigit (continuesWord_of_isBlank h) (ne_of_isBlank h (by decide))
      (ne_of_isBlank h (by decide))]

/-! ## What follows a piece -/

theorem pairSymbol?_of_isBlank (h : isBlank c = true) (first : Char) : pairSymbol? first c = none := by
  unfold pairSymbol?
  split <;> first | rfl | exact absurd h (by decide)

theorem symbol?_append {first : Char} (h : isBlank c = true) :
    symbol? (first :: line ++ c :: rest) = symbol? (first :: line) := by
  cases line with
  | nil => simp [symbol?, pairSymbol?_of_isBlank h]
  | cons => rfl

/-- A blank ends what does not begin with a quote. -/
theorem first?_append_blank {first : Char} (h : isBlank c = true) (hcharacter : first ≠ '\'')
    (hstring : first ≠ '"') : first? (first :: line ++ c :: rest) = first? (first :: line) := by
  have hword : word (first :: line ++ c :: rest) = word (first :: line) :=
    word_append (continuesWord_of_isBlank h)
  have hnumber : number (first :: line ++ c :: rest) = number (first :: line) := number_append h
  have hsymbol : symbol? (first :: line ++ c :: rest) = symbol? (first :: line) := symbol?_append h
  rw [List.cons_append] at hword hnumber hsymbol ⊢
  simp [first?, hcharacter, hstring, hword, hnumber, hsymbol]

/-- A string does not reach over the end of a line. -/
theorem stringFrom_append_lineFeed (text value rest : List Char) (h : '\n' ∉ line) :
    stringFrom text value (line ++ '\n' :: rest) = stringFrom text value line := by
  fun_induction stringFrom text value line with
  | case1 => simp [stringFrom]
  | case2 => simp at h
  | case3 text value escaped tail hescaped ih =>
      have htail : '\n' ∉ tail := by simp_all
      simp [stringFrom, hescaped, ih htail]
  | case4 text value tail => simp at h
  | case5 text value c tail hquote hescape hc ih =>
      have htail : '\n' ∉ tail := by simp_all
      rcases tail with _ | ⟨escaped, tail⟩
      · by_cases hslash : c = '\\'
        · subst hslash
          simp [stringFrom]
        · simp [stringFrom, hslash, hc]
      · have hslash : c ≠ '\\' := fun h => hescape escaped tail h rfl
        rw [List.cons_append, stringFrom.eq_def]
        simp_all
  | case6 => simp [stringFrom]

theorem closeCharacter_append_lineFeed (text : List Char) (value : Option Char) (line rest : List Char) :
    closeCharacter text value (line ++ '\n' :: rest) = closeCharacter text value line := by
  cases line with
  | nil => cases value <;> rfl
  | cons first line =>
      by_cases hquote : first = '\''
      · subst hquote
        cases value <;> rfl
      · simp [closeCharacter, hquote]

/-- A character literal does not reach over the end of a line, unless its backslash is the last character. -/
theorem character_append_lineFeed (rest : List Char) (h : '\n' ∉ line) (hbroken : line ≠ ['\\']) :
    character (line ++ '\n' :: rest) = character line := by
  rcases line with _ | ⟨first, _ | ⟨escaped, tail⟩⟩
  · rfl
  · have hslash : first ≠ '\\' := fun h => hbroken (by rw [h])
    have hfeed : first ≠ '\n' := fun h' => h (by simp [h'])
    by_cases hquote : first = '\''
    · subst hquote
      rfl
    · simp [character, hslash, hquote, hfeed, closeCharacter]
  · by_cases hslash : first = '\\'
    · subst hslash
      exact closeCharacter_append_lineFeed _ _ _ _
    · by_cases hquote : first = '\''
      · subst hquote
        rfl
      · have hfeed : first ≠ '\n' := fun h' => h (by simp [h'])
        have hclose := closeCharacter_append_lineFeed ['\'', first] (some first) (escaped :: tail) rest
        rw [List.cons_append] at hclose
        simp [character, hslash, hquote, hfeed, hclose]

/-- Of the lexemes only a character literal that is broken after its backslash reaches over the end of a
line. -/
theorem first?_append_lineFeed {first : Char} (rest : List Char) (h : '\n' ∉ first :: line)
    (hbroken : first :: line ≠ ['\'', '\\']) :
    first? (first :: line ++ '\n' :: rest) = first? (first :: line) := by
  by_cases hcharacter : first = '\''
  · subst hcharacter
    have hline := character_append_lineFeed rest (List.not_mem_of_not_mem_cons h)
      fun hline => hbroken (by rw [hline])
    simp [first?, startsWord, hline]
  · by_cases hstring : first = '"'
    · subst hstring
      have hline := stringFrom_append_lineFeed ['"'] [] rest (List.not_mem_of_not_mem_cons h)
      simp [first?, startsWord, string, hline]
    · exact first?_append_blank (by decide) hcharacter hstring

/-- A character literal that is broken after its backslash takes the line feed, and a quote after that. -/
theorem first?_broken (rest : List Char) :
    first? ('\'' :: '\\' :: '\n' :: rest) = some (invalid
      ('\'' :: '\\' :: '\n' :: if rest.head? = some '\'' then ['\''] else []) .invalidCharacter) := by
  rcases rest with _ | ⟨c, rest⟩
  · rfl
  · by_cases hc : c = '\''
    · subst hc
      rfl
    · simp [first?, startsWord, character, closeCharacter, escape?, hc]

/-- Every line that is not empty begins with a lexeme. -/
theorem exists_first? (first : Char) (line : List Char) : ∃ lexeme, first? (first :: line) = some lexeme := by
  unfold first?
  dsimp only
  split_ifs
  case neg => split <;> exact ⟨_, rfl⟩
  all_goals exact ⟨_, rfl⟩

/-! ## Slices -/

/-- Whether a line begins with a slice that is not empty and that a lexeme spells. -/
def Begins (lexeme : Lexeme) (line : List Char) : Prop :=
  ∃ slice rest, line = slice ++ rest ∧ slice ≠ [] ∧ Spells lexeme.text slice

/-- The text of a lexeme begins as the line does. -/
theorem Begins.text_cons {lexeme : Lexeme} {first : Char} (h : lexeme.Begins (first :: line)) :
    ∃ tail, lexeme.text = first :: tail := by
  obtain ⟨slice, rest, hline, hne, hspells⟩ := h
  obtain ⟨head, slice, rfl⟩ := List.exists_cons_of_ne_nil hne
  obtain ⟨rfl, -⟩ := List.cons.inj hline
  generalize htext : lexeme.text = text at hspells
  cases hspells with
  | exact => exact ⟨_, rfl⟩
  | exponent => exact ⟨_, rfl⟩

theorem begins_of_prefix {lexeme : Lexeme} (h : lexeme.text <+: line) (hne : lexeme.text ≠ []) :
    lexeme.Begins line := by
  obtain ⟨rest, rfl⟩ := h
  exact ⟨_, rest, rfl, hne, .exact _⟩

theorem integerLiteral_text (digits : List Char) : (integerLiteral digits).text = digits := by
  unfold integerLiteral
  dsimp only
  split <;> rfl

theorem realLiteral_text (text : List Char) : (realLiteral text).text = text := by
  unfold realLiteral
  split
  · split <;> rfl
  · rfl

theorem begins_word {first : Char} (h : startsWord first = true) :
    (word (first :: line)).Begins (first :: line) := by
  have hfirst : continuesWord first = true := by
    simp only [startsWord, continuesWord, Char.isAlphanum, Bool.or_eq_true] at h ⊢
    exact h.imp_left Or.inl
  exact begins_of_prefix (List.takeWhile_prefix _) (by simp [word, hfirst])

theorem begins_number {first : Char} (h : first.isDigit = true) :
    (number (first :: line)).Begins (first :: line) := by
  have hmantissa : mantissa (first :: line) = first :: (whole line ++ afterPoint (first :: line)) := by
    simp [mantissa, whole, h]
  have hne : mantissa (first :: line) ≠ [] := by simp [hmantissa]
  have hline := List.prefix_iff_eq_append.mp (prefix_mantissa (first :: line))
  rw [number_eq]
  split
  · next letter digits hexponent =>
      obtain ⟨first', sign, tail, hfirst', hsign, rfl, htail, rfl⟩ := exponent_cases hexponent
      -- the text is the slice, but with a small letter
      have hspells : Spells (mantissa (first :: line) ++ 'e' :: sign ++ tail.takeWhile Char.isDigit)
          (mantissa (first :: line) ++ first' :: (sign ++ tail.takeWhile Char.isDigit)) := by
        rw [List.append_assoc, List.cons_append]
        rcases hfirst' with rfl | rfl
        · exact .exact _
        · have hall := mantissa_all (first :: line)
          rw [hmantissa, List.all_cons, Bool.and_eq_true] at hall
          rw [hmantissa]
          exact .exponent h hall.2 hsign (List.all_eq_true.mpr fun c hc => List.mem_takeWhile_imp hc)
      have hslice : first :: line = (mantissa (first :: line) ++
          first' :: (sign ++ tail.takeWhile Char.isDigit)) ++ tail.dropWhile Char.isDigit := by
        rw [htail] at hline
        simpa using hline.symm
      split
      · exact ⟨_, _, hslice, by simp, hspells⟩
      · exact ⟨_, _, hslice, by simp, by rwa [realLiteral_text]⟩
  · split
    · refine begins_of_prefix ?_ (by simp [integerLiteral_text, whole, h])
      rw [integerLiteral_text]
      exact List.takeWhile_prefix _
    · refine begins_of_prefix ?_ (by simp [realLiteral_text, hne])
      rw [realLiteral_text]
      exact prefix_mantissa _

theorem prefix_closeCharacter (text : List Char) (value : Option Char) (line : List Char) :
    (closeCharacter text value line).text <+: text ++ line ∧ text <+: (closeCharacter text value line).text := by
  unfold closeCharacter
  split <;> simp [invalid]

theorem begins_closeCharacter {text : List Char} (hne : text ≠ []) (value : Option Char) (line : List Char) :
    (closeCharacter text value line).Begins (text ++ line) :=
  have hstart := prefix_closeCharacter text value line
  begins_of_prefix hstart.1 (hstart.2.ne_nil hne)

theorem begins_character (line : List Char) : (character line).Begins ('\'' :: line) := by
  unfold character
  split
  · exact begins_closeCharacter (by simp) _ _
  · split <;> exact begins_closeCharacter (by simp) _ _
  · exact begins_of_prefix (by simp [invalid]) (by simp [invalid])

theorem prefix_stringFrom (text value line : List Char) :
    (stringFrom text value line).text <+: text.reverse ++ line ∧
      text.reverse <+: (stringFrom text value line).text := by
  fun_induction stringFrom text value line with
  | case1 | case2 | case4 | case6 => simp [invalid]
  | case3 text value escaped rest hescaped ih =>
      simp only [List.reverse_cons, List.append_assoc] at ih
      exact ⟨ih.1, (List.prefix_append _ _).trans ih.2⟩
  | case5 text value c rest hquote hescape hc ih =>
      simp only [List.reverse_cons, List.append_assoc] at ih
      exact ⟨ih.1, (List.prefix_append _ _).trans ih.2⟩

theorem begins_string (line : List Char) : (string line).Begins ('"' :: line) :=
  have hstart := prefix_stringFrom ['"'] [] line
  begins_of_prefix hstart.1 (hstart.2.ne_nil (by simp))

theorem text_of_pairSymbol? {first second : Char} {kind : TokenKind} (h : pairSymbol? first second = some kind) :
    kind.text.toList = [first, second] := by
  unfold pairSymbol? at h
  split at h <;> simp_all <;> subst h <;> rfl

theorem text_of_singleSymbol? {first : Char} {kind : TokenKind} (h : singleSymbol? first = some kind) :
    kind.text.toList = [first] := by
  unfold singleSymbol? at h
  split at h <;> simp_all <;> subst h <;> rfl

theorem symbol?_cases {kind : TokenKind} (h : symbol? line = some kind) :
    (∃ first second rest, line = first :: second :: rest ∧ pairSymbol? first second = some kind) ∨
      ∃ first rest, line = first :: rest ∧ singleSymbol? first = some kind := by
  unfold symbol? at h
  split at h
  · rcases Option.or_eq_some_iff.mp h with h | ⟨-, h⟩
    · exact .inl ⟨_, _, _, rfl, h⟩
    · exact .inr ⟨_, _, rfl, h⟩
  · exact .inr ⟨_, _, rfl, h⟩
  · simp at h

theorem begins_symbol {kind : TokenKind} (h : symbol? line = some kind) :
    Begins ⟨kind, kind.text.toList, none⟩ line := by
  rcases symbol?_cases h with ⟨first, second, rest, rfl, hpair⟩ | ⟨first, rest, rfl, hsingle⟩
  · exact begins_of_prefix (by simp [text_of_pairSymbol? hpair]) (by simp [text_of_pairSymbol? hpair])
  · exact begins_of_prefix (by simp [text_of_singleSymbol? hsingle]) (by simp [text_of_singleSymbol? hsingle])

/-- The lexeme with which a line begins spells a slice of it. -/
theorem begins_of_first? {lexeme : Lexeme} (h : first? line = some lexeme) : lexeme.Begins line := by
  unfold first? at h
  split at h
  · simp at h
  · next first rest =>
      split_ifs at h with hword hdigit hcharacter hstring
      · exact Option.some.inj h ▸ begins_word hword
      · exact Option.some.inj h ▸ begins_number hdigit
      · exact Option.some.inj h ▸ hcharacter ▸ begins_character rest
      · exact Option.some.inj h ▸ hstring ▸ begins_string rest
      · split at h
        · next kind hsymbol =>
            exact Option.some.inj h ▸ begins_symbol hsymbol
        · exact Option.some.inj h ▸ begins_of_prefix (by simp [invalid]) (by simp [invalid])

/-! ## Kinds -/

theorem integerLiteral_kind (digits : List Char) : (integerLiteral digits).kind ∈ [.integer, .error] := by
  unfold integerLiteral
  dsimp only
  split <;> simp [invalid]

theorem realLiteral_kind (text : List Char) : (realLiteral text).kind ∈ [.real, .error] := by
  unfold realLiteral
  split
  · split <;> simp [invalid]
  · simp [invalid]

theorem number_kind (line : List Char) : (number line).kind ∈ [.integer, .real, .error] := by
  have hinteger := integerLiteral_kind (whole line)
  have hreal (text : List Char) := realLiteral_kind text
  simp only [List.mem_cons, List.not_mem_nil, or_false] at hinteger hreal ⊢
  rw [number_eq]
  split
  · split
    · exact .inr (.inr rfl)
    · exact .inr (hreal _)
  · split
    · exact hinteger.imp_right .inr
    · exact .inr (hreal _)

theorem closeCharacter_kind (text : List Char) (value : Option Char) (line : List Char) :
    (closeCharacter text value line).kind ∈ [.character, .error] := by
  unfold closeCharacter
  split <;> simp [invalid]

theorem character_kind (line : List Char) : (character line).kind ∈ [.character, .error] := by
  unfold character
  split
  · exact closeCharacter_kind _ _ _
  · split <;> exact closeCharacter_kind _ _ _
  · simp [invalid]

theorem stringFrom_kind (text value line : List Char) :
    (stringFrom text value line).kind ∈ [.string, .error] := by
  fun_induction stringFrom text value line with
  | case1 | case2 | case4 | case6 => simp [invalid]
  | case3 _ _ _ _ _ ih => exact ih
  | case5 _ _ _ _ _ _ _ ih => exact ih

theorem word_kind (line : List Char) : (word line).kind ∈ .identifier :: TokenKind.reservedWords := by
  cases hword : TokenKind.reservedWord? (String.ofList (line.takeWhile continuesWord)) with
  | none => simp [word, hword]
  | some kind =>
      have hmem : kind ∈ TokenKind.reservedWords := List.mem_of_find?_eq_some hword
      simpa [word, hword] using .inr hmem

theorem symbol?_kind {kind : TokenKind} (h : symbol? line = some kind) : kind ∈ TokenKind.symbols := by
  rcases symbol?_cases h with ⟨_, _, _, -, hpair⟩ | ⟨_, _, -, hsingle⟩
  · unfold pairSymbol? at hpair
    split at hpair <;> cases hpair <;> decide
  · unfold singleSymbol? at hsingle
    split at hsingle <;> cases hsingle <;> decide

/-- A line begins with a word, a literal or what is no token, or a symbol. -/
theorem first?_cases {lexeme : Lexeme} (h : first? line = some lexeme) :
    lexeme = word line ∨ lexeme.kind ∈ TokenKind.valued ∨ lexeme.kind ∈ TokenKind.symbols := by
  have hvalued {kinds : List TokenKind} {kind : TokenKind} (h : kind ∈ kinds)
      (hkinds : ∀ kind ∈ kinds, kind ∈ TokenKind.valued) : kind ∈ TokenKind.valued := hkinds kind h
  unfold first? at h
  split at h
  · simp at h
  · split_ifs at h
    · exact .inl (Option.some.inj h).symm
    · exact Option.some.inj h ▸ .inr (.inl (hvalued (number_kind _) (by decide)))
    · exact Option.some.inj h ▸ .inr (.inl (hvalued (character_kind _) (by decide)))
    · exact Option.some.inj h ▸ .inr (.inl (hvalued (stringFrom_kind _ _ _) (by decide)))
    · split at h
      · next hsymbol => exact Option.some.inj h ▸ .inr (.inr (symbol?_kind hsymbol))
      · exact Option.some.inj h ▸ .inr (.inl (by simp [invalid, TokenKind.valued]))

/-- No lexeme stands for the end of the file. -/
theorem first?_ne_endOfFile {lexeme : Lexeme} (h : first? line = some lexeme) : lexeme.kind ≠ .endOfFile := by
  rcases first?_cases h with rfl | hkind | hkind
  · exact ne_of_mem_of_not_mem (word_kind line) (by decide)
  · exact ne_of_mem_of_not_mem hkind (by decide)
  · exact ne_of_mem_of_not_mem hkind (by decide)

/-- An identifier is made of letters, digits and underscores. -/
theorem continuesWord_of_first? {lexeme : Lexeme} (h : first? line = some lexeme)
    (hkind : lexeme.kind = .identifier) : ∀ c ∈ lexeme.text, continuesWord c = true := by
  rcases first?_cases h with rfl | hother | hother
  · exact fun c hc => List.mem_takeWhile_imp hc
  · exact absurd (hkind ▸ hother) (by decide)
  · exact absurd (hkind ▸ hother) (by decide)

/-! ## Texts of lexemes -/

theorem exponent_digits {sign digits : List Char} (hsign : sign ∈ [[], ['+'], ['-']])
    (hdigits : digits.takeWhile Char.isDigit = digits) :
    exponent ('e' :: (sign ++ digits)) = some ('e' :: sign, digits) := by
  simp only [List.mem_cons, List.not_mem_nil, or_false] at hsign
  rcases hsign with rfl | rfl | rfl
  · rcases digits with _ | ⟨digit, digits⟩
    · rfl
    · have hdigit : digit.isDigit = true :=
        List.mem_takeWhile_imp (hdigits.symm ▸ List.mem_cons_self .. : digit ∈ (digit :: digits).takeWhile _)
      have hplus : digit ≠ '+' := by rintro rfl; simp at hdigit
      have hminus : digit ≠ '-' := by rintro rfl; simp at hdigit
      simp [exponent, hplus, hminus, hdigits]
  · simp [exponent, hdigits]
  · simp [exponent, hdigits]

theorem mantissa_mantissa (line : List Char) : mantissa (mantissa line) = mantissa line := by
  rw [mantissa, whole_mantissa, afterPoint_mantissa, ← mantissa]

/-- A number is read again from its text. -/
theorem number_text (h : (number line).kind ≠ .error) : number (number line).text = number line := by
  rw [number_eq line] at h ⊢
  split at h
  · next letter digits hexponent =>
      obtain ⟨first, sign, tail, -, hsign, rfl, -, rfl⟩ := exponent_cases hexponent
      split at h
      · exact absurd rfl h
      · next hdigits =>
          have hmantissa : mantissa (mantissa line ++ 'e' :: (sign ++ tail.takeWhile Char.isDigit)) =
              mantissa line := by
            rw [mantissa_append rfl (by decide), mantissa_mantissa]
          simp only [hdigits, realLiteral_text, List.append_assoc, List.cons_append, Bool.false_eq_true, if_false]
          rw [number_eq, hmantissa, List.drop_left, exponent_digits hsign List.takeWhile_idem]
          simp [hdigits]
  · have hnone : exponent ((mantissa line).drop (mantissa line).length) = none := by
      rw [List.drop_length]
      rfl
    split at h
    · next hpoint =>
        have hwhole : whole line = mantissa line := by simp [mantissa, List.isEmpty_iff.mp hpoint]
        simp only [hpoint, if_true, integerLiteral_text]
        rw [number_eq, hwhole, mantissa_mantissa, hnone]
        simp [afterPoint_mantissa, hpoint, whole_mantissa, hwhole]
    · next hpoint =>
        simp only [hpoint, Bool.false_eq_true, if_false, realLiteral_text]
        rw [number_eq, mantissa_mantissa, hnone, afterPoint_mantissa]
        simp [hpoint]

/-- A character literal is closed by its last character. -/
theorem character_text (h : (character line).kind ≠ .error) :
    ∃ body, (character line).text = '\'' :: body ∧ ∀ rest, character (body ++ rest) = character line := by
  have hclosed {text : List Char} {value : Option Char} {line : List Char}
      (h : (closeCharacter text value line).kind ≠ .error) :
      ∃ c tail, value = some c ∧ line = '\'' :: tail := by
    unfold closeCharacter at h
    split at h
    · exact ⟨_, _, rfl, rfl⟩
    · exact absurd rfl h
    · exact absurd rfl h
  unfold character at h
  split at h
  · next escaped line =>
      obtain ⟨c, tail, hescape, rfl⟩ := hclosed h
      refine ⟨['\\', escaped, '\''], ?_, fun rest => ?_⟩ <;> simp [character, hescape, closeCharacter]
  · next first line hslash =>
      split at h
      · exact absurd (hclosed h).choose_spec.choose_spec.1 (by simp)
      · next hfirst =>
          obtain ⟨c, tail, -, rfl⟩ := hclosed h
          have hslash : first ≠ '\\' := fun heq => hslash _ _ heq rfl
          refine ⟨[first, '\''], ?_, fun rest => ?_⟩ <;> simp_all [character, closeCharacter]
  · exact absurd rfl h

/-- A string is closed by its last character. -/
theorem stringFrom_text (text value : List Char) (h : (stringFrom text value line).kind ≠ .error) :
    ∃ body, (stringFrom text value line).text = text.reverse ++ body ∧
      ∀ rest, stringFrom text value (body ++ rest) = stringFrom text value line := by
  fun_induction stringFrom text value line with
  | case1 => exact ⟨['"'], by simp, fun rest => by simp [stringFrom]⟩
  | case2 | case4 | case6 => exact absurd rfl h
  | case3 text value escaped tail hescaped ih =>
      obtain ⟨body, htext, hagain⟩ := ih h
      refine ⟨'\\' :: escaped :: body, by simp [htext], fun rest => ?_⟩
      simp [stringFrom, hescaped, hagain]
  | case5 text value c tail hquote hescape hc ih =>
      have hslash : c ≠ '\\' := by
        rintro rfl
        cases tail with
        | nil => exact h rfl
        | cons escaped tail => exact hescape escaped tail rfl rfl
      obtain ⟨body, htext, hagain⟩ := ih h
      refine ⟨c :: body, by simp [htext], fun rest => ?_⟩
      rw [List.cons_append, stringFrom.eq_def]
      simp_all

theorem word_text (line : List Char) : word (word line).text = word line := by
  simp [word, List.takeWhile_idem]

/-- A symbol is found again in its text. -/
theorem symbol?_text {kind : TokenKind} (h : symbol? line = some kind) : symbol? kind.text.toList = some kind := by
  rcases symbol?_cases h with ⟨first, second, rest, rfl, hpair⟩ | ⟨first, rest, rfl, hsingle⟩
  · simp [text_of_pairSymbol? hpair, symbol?, hpair]
  · simp [text_of_singleSymbol? hsingle, symbol?, hsingle]

/-- A lexeme that is no error is found again in its text, whatever blank follows that. -/
theorem first?_text_append {lexeme : Lexeme} (h : first? line = some lexeme) (hknown : lexeme.kind ≠ .error)
    (hc : isBlank c = true) (rest : List Char) : first? (lexeme.text ++ c :: rest) = some lexeme := by
  rcases line with _ | ⟨first, line⟩
  · simp [first?] at h
  obtain ⟨tail, htext⟩ := (begins_of_first? h).text_cons
  -- what does not begin with a quote ends before the blank
  have hunquoted (hcharacter : first ≠ '\'') (hstring : first ≠ '"') :
      first? (lexeme.text ++ c :: rest) = first? (first :: tail) := by
    rw [htext]
    exact first?_append_blank hc hcharacter hstring
  unfold first? at h
  dsimp only at h
  split_ifs at h with hword hdigit hcharacter hstring
  · rw [hunquoted (by rintro rfl; simp [startsWord] at hword) (by rintro rfl; simp [startsWord] at hword)]
    obtain rfl := Option.some.inj h
    have hagain := word_text (first :: line)
    rw [htext] at hagain
    simp [first?, hword, hagain]
  · rw [hunquoted (by rintro rfl; simp at hdigit) (by rintro rfl; simp at hdigit)]
    obtain rfl := Option.some.inj h
    have hagain := number_text hknown
    rw [htext] at hagain
    simp [first?, hword, hdigit, hagain]
  · obtain rfl := Option.some.inj h
    obtain ⟨body, htext, hagain⟩ := character_text hknown
    simp [htext, first?, startsWord, hagain]
  · obtain rfl := Option.some.inj h
    obtain ⟨body, htext, hagain⟩ := stringFrom_text _ _ hknown
    simp [string, htext, first?, startsWord, hagain]
  · split at h
    · next kind hsymbol =>
        rw [hunquoted hcharacter hstring]
        obtain rfl := Option.some.inj h
        have hagain := symbol?_text hsymbol
        rw [show kind.text.toList = first :: tail from htext] at hagain
        simp [first?, hword, hdigit, hcharacter, hstring, hagain]
    · exact absurd (Option.some.inj h ▸ rfl) hknown

end Lexeme

end FrontEnd
