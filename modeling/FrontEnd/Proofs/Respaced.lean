import FrontEnd.Proofs.Reading

/-!
# Writing tokens anew

Tokens that have been scanned may be written one after another with whatever separators between them, and the
text that comes of it is scanned into the same tokens again (`Scanner.scansAgain_of_spaced`).  A separator begins
with a blank, so that no token reaches into it, and goes on with blanks and comments (`Separator`).

Carriage returns do not count, since they are dropped before a text is scanned.  It follows that a comment is
closed by the first star and slash that stand side by side when they have been dropped, which may be earlier
than it seems (`Scanner.not_scansAgain_of_spaced_return`).

## Strategy

A lexeme is found again in its text before any blank (`Lexeme.first?_text_append`), and no gap begins with it
(`Lexeme.stops_text_append`).  So a reading of the new text is built from its end, token by token
(`Spaced.exists_reads`), and a text is scanned as it can be read (`Scanner.scans_of_reads`).
-/

namespace FrontEnd

open Text (isBlank Closes normalized)

/-! ## Lexemes before blanks -/

namespace Lexeme

variable {line rest : List Char} {c : Char} {lexeme : Lexeme}

/-- No symbol begins with a blank or a hash sign. -/
theorem symbol?_eq_none (h : isBlank c = true ∨ c = '#') (rest : List Char) : symbol? (c :: rest) = none := by
  have hsingle : singleSymbol? c = none := by
    unfold singleSymbol?
    split <;> first | rfl | exact absurd h (by decide)
  have hpair (second : Char) : pairSymbol? c second = none := by
    unfold pairSymbol?
    split <;> first | rfl | exact absurd h (by decide)
  cases rest with
  | nil => exact hsingle
  | cons second rest => simp [symbol?, hpair, hsingle]

theorem first?_eq_invalid (h : isBlank c = true ∨ c = '#') :
    first? (c :: rest) = some (invalid [c] .invalidCharacter) := by
  have hsymbol := symbol?_eq_none h rest
  have hword : continuesWord c = false := h.elim continuesWord_of_isBlank (by rintro rfl; decide)
  have hquotes : c ≠ '\'' ∧ c ≠ '"' :=
    ⟨by rintro rfl; exact absurd h (by decide), by rintro rfl; exact absurd h (by decide)⟩
  simp only [continuesWord, Char.isAlphanum, Bool.or_eq_false_iff] at hword
  simp [first?, startsWord, hword, hquotes, hsymbol]

/-- No gap begins with the text of a lexeme. -/
theorem stops_text_append (h : first? line = some lexeme) (hknown : lexeme.kind ≠ .error) (hc : isBlank c = true)
    (passed rest : List Char) : Stops passed (lexeme.text ++ c :: rest) := by
  have hagain := first?_text_append h hknown hc rest
  obtain ⟨first, tail, htext⟩ : ∃ first tail, lexeme.text = first :: tail := by
    cases line with
    | nil => simp [first?] at h
    | cons first line => exact ⟨first, (begins_of_first? h).text_cons⟩
  rw [htext, List.cons_append] at hagain ⊢
  have hvalid : ¬ (isBlank first = true ∨ first = '#') := fun hfirst =>
    hknown (by rw [← Option.some.inj ((first?_eq_invalid hfirst).symm.trans hagain)]; rfl)
  rw [not_or] at hvalid
  -- a slash is a token of its own before whatever would make it the beginning of a comment
  have hslash {second : Char} (hfirst : first = '/') (hsecond : second = '/' ∨ second = '*')
      (hhead : (tail ++ c :: rest).head? = some second) : False := by
    obtain ⟨more, hmore⟩ := List.head?_eq_some_iff.mp hhead
    have hsingle : first? ('/' :: second :: more) = some ⟨.slash, ['/'], none⟩ := by
      rcases hsecond with rfl | rfl <;> rfl
    rw [hfirst, hmore, hsingle] at hagain
    obtain ⟨-, rfl⟩ : first = '/' ∧ tail = [] := by simpa [← Option.some.inj hagain] using htext.symm
    obtain rfl : c = second := by simpa using hhead
    rcases hsecond with rfl | rfl <;> exact absurd hc (by decide)
  exact ⟨by simpa using hvalid.1, fun hfirst => ⟨hslash hfirst (.inl rfl), hslash hfirst (.inr rfl)⟩,
    fun hfirst => absurd hfirst hvalid.2⟩

/-- A lexeme that is no error does not reach over the end of a line. -/
theorem lineFeed_not_mem_text (h : first? line = some lexeme) (hknown : lexeme.kind ≠ .error) :
    '\n' ∉ lexeme.text := by
  intro hmem
  obtain ⟨before, after, htext, hbefore⟩ := List.eq_append_cons_of_mem hmem
  have hagain := first?_text_append (c := ' ') h hknown (by decide) []
  rw [htext, List.append_assoc, List.cons_append] at hagain
  have hinvalid {text : List Char} {reason : ScanError} (heq : some (invalid text reason) = some lexeme) : False :=
    hknown (by rw [← Option.some.inj heq]; rfl)
  rcases before with _ | ⟨first, before⟩
  · exact hinvalid ((first?_eq_invalid (.inl (by decide))).symm.trans hagain)
  · by_cases hbroken : first :: before = ['\'', '\\']
    · rw [hbroken] at hagain
      exact hinvalid ((first?_broken _).symm.trans hagain)
    · rw [first?_append_lineFeed _ hbefore hbroken] at hagain
      obtain ⟨slice, rest, hline, -, hspells⟩ := begins_of_first? hagain
      have hlength := hspells.length_eq
      simp only [htext, hline, List.length_append, List.length_cons] at hlength
      omega

/-- Nor does it hold a carriage return that the line does not hold. -/
theorem return_not_mem_text (h : first? line = some lexeme) (hline : '\r' ∉ line) : '\r' ∉ lexeme.text := by
  obtain ⟨slice, rest, rfl, -, hspells⟩ := begins_of_first? h
  rw [List.mem_append, not_or] at hline
  generalize lexeme.text = text at hspells
  cases hspells with
  | exact => exact hline.1
  | exponent => simpa using hline.1

end Lexeme

/-! ## Separators -/

namespace Text

/-- The parts of separators: blanks, line comments, and block comments of those texts that may stand in them. -/
inductive SeparatorPart (mayStand : List Char → Prop) : List Char → Prop
  | blank {c : Char} : isBlank c = true → SeparatorPart mayStand [c]
  | lineComment {body : List Char} : '\n' ∉ body → SeparatorPart mayStand ('/' :: '/' :: body ++ ['\n'])
  | blockComment {body : List Char} : mayStand body → SeparatorPart mayStand ('/' :: '*' :: body ++ ['*', '/'])

/-- A separator begins with a blank that is no carriage return. -/
inductive Separator (mayStand : List Char → Prop) : List Char → Prop
  | intro {c : Char} {parts : List (List Char)} : isBlank c = true → c ≠ '\r' →
      (∀ part ∈ parts, SeparatorPart mayStand part) → Separator mayStand (c :: parts.flatten)

/-- A text as it is scanned, but for the line feed at its end. -/
def withoutReturns (text : List Char) : List Char :=
  text.filter (· != '\r')

/-- Whether a comment with the given text is closed by its end only, when it is scanned. -/
def ClosedByItsEnd (body : List Char) : Prop :=
  ¬ Closes (withoutReturns body)

instance (body : List Char) : Decidable (ClosedByItsEnd body) :=
  inferInstanceAs (Decidable (¬ Closes (withoutReturns body)))

theorem lineFeed_not_mem_withoutReturns {body : List Char} (h : '\n' ∉ body) : '\n' ∉ withoutReturns body :=
  fun hmem => h (List.mem_of_mem_filter hmem)

theorem withoutReturns_eq_self {text : List Char} (h : '\r' ∉ text) : withoutReturns text = text := by
  refine List.filter_eq_self.mpr fun c hc => ?_
  simpa using fun heq : c = '\r' => h (heq ▸ hc)

/-- A part of a separator is a part of a gap, or only a carriage return. -/
theorem SeparatorPart.skipped {part passed : List Char} (h : SeparatorPart ClosedByItsEnd part) :
    withoutReturns part = [] ∨ Skipped passed (withoutReturns part) := by
  cases h with
  | @blank c hc =>
      by_cases hreturn : c = '\r'
      · exact .inl (by simp [withoutReturns, hreturn])
      · exact .inr (by simpa [withoutReturns, hreturn] using .blank hc)
  | @lineComment body hbody =>
      have hpart : withoutReturns ('/' :: '/' :: body ++ ['\n']) = '/' :: '/' :: withoutReturns body ++ ['\n'] := by
        simp [withoutReturns]
      exact .inr (hpart ▸ .lineComment (lineFeed_not_mem_withoutReturns hbody))
  | @blockComment body hbody =>
      have hpart : withoutReturns ('/' :: '*' :: body ++ ['*', '/']) =
          '/' :: '*' :: withoutReturns body ++ ['*', '/'] := by
        simp [withoutReturns]
      exact .inr (hpart ▸ .blockComment hbody)

/-- A separator begins with a blank, and is a gap wherever it stands. -/
theorem Separator.gap {separator : List Char} (h : Separator ClosedByItsEnd separator) (passed rest : List Char) :
    Gap passed (withoutReturns separator) rest ∧
      ∃ c more, isBlank c = true ∧ withoutReturns separator = c :: more := by
  obtain ⟨hc, hreturn, hparts⟩ := h
  rename_i c parts
  have hseparator : withoutReturns (c :: parts.flatten) = [c] ++ withoutReturns parts.flatten := by
    simp [withoutReturns, hreturn]
  have hgap (passed : List Char) : Gap passed (withoutReturns parts.flatten) rest := by
    clear hseparator
    induction parts generalizing passed with
    | nil => exact .nil _ _
    | cons part parts ih =>
        have hmore (passed : List Char) := ih (fun other hmem => hparts other (List.mem_cons_of_mem _ hmem)) passed
        have hpart : withoutReturns (part :: parts).flatten =
            withoutReturns part ++ withoutReturns parts.flatten := by
          simp [withoutReturns]
        rw [hpart]
        rcases (hparts part (List.mem_cons_self ..)).skipped with hnil | hskipped
        · simpa [hnil] using hmore passed
        · exact .cons hskipped (hmore _)
  rw [hseparator]
  exact ⟨.cons (.blank hc) (hgap _), c, _, hc, rfl⟩

end Text

/-! ## Tokens with separators between them -/

/-- How tokens are written with separators between them. -/
inductive Spaced (mayStand : List Char → Prop) : List Token → List Char → Prop
  | nil : Spaced mayStand [] []
  | last (token : Token) : Spaced mayStand [token] token.text.toList
  | cons (token : Token) {next : Token} {tokens : List Token} {separator text : List Char} :
      Text.Separator mayStand separator → Spaced mayStand (next :: tokens) text →
        Spaced mayStand (token :: next :: tokens) (token.text.toList ++ separator ++ text)

/-- A token without its place: its kind, its text and its value. -/
def Token.content (token : Token) : TokenKind × String × Option TokenValue :=
  (token.kind, token.text, token.value)

/-- Whether a token is no error and is made of what is scanned at some place. -/
def Token.Readable (token : Token) : Prop :=
  ∃ line lexeme location, '\r' ∉ line ∧ Lexeme.first? line = some lexeme ∧ lexeme.kind ≠ .error ∧
    token = lexeme.toToken location

theorem ReadsAs.readable {passed rest : List Char} {tokens : List Token} (h : ReadsAs passed rest tokens)
    (hrest : '\r' ∉ rest) {token : Token} (htoken : token ∈ tokens) (hknown : token.kind ≠ .error) :
    token.Readable := by
  induction h with
  | done => simp at htoken
  | @token passed gap slice rest lexeme tokens _ _ hfirst _ _ _ ih =>
      simp only [List.mem_append, not_or] at hrest
      rcases List.mem_cons.mp htoken with rfl | hmem
      · exact ⟨slice ++ rest, lexeme, _, by simp [hrest], hfirst, hknown, rfl⟩
      · exact ih hrest.2.2 hmem

namespace Token.Readable

variable {token : Token}

theorem text_ne_nil (h : token.Readable) : token.text.toList ≠ [] := by
  obtain ⟨line, lexeme, location, -, hfirst, -, rfl⟩ := h
  obtain ⟨slice, rest, -, hne, hspells⟩ := Lexeme.begins_of_first? hfirst
  have hlength := hspells.length_eq
  have hslice := List.length_pos_iff.mpr hne
  refine List.length_pos_iff.mp ?_
  simp only [Lexeme.toToken, String.toList_ofList]
  omega

theorem lineFeed_not_mem (h : token.Readable) : '\n' ∉ token.text.toList := by
  obtain ⟨line, lexeme, location, -, hfirst, hknown, rfl⟩ := h
  simpa [Lexeme.toToken] using Lexeme.lineFeed_not_mem_text hfirst hknown

theorem withoutReturns_text (h : token.Readable) : Text.withoutReturns token.text.toList = token.text.toList := by
  obtain ⟨line, lexeme, location, hline, hfirst, -, rfl⟩ := h
  refine Text.withoutReturns_eq_self ?_
  simpa [Lexeme.toToken] using Lexeme.return_not_mem_text hfirst hline

/-- A token can be read in its text before a blank. -/
theorem reads (h : token.Readable) {passed gap more : List Char} {c : Char} {again : List Token}
    (hgap : ∀ rest, Gap passed gap rest) (hc : isBlank c = true)
    (hmore : ReadsAs (passed ++ gap ++ token.text.toList) (c :: more) again) :
    ReadsAs passed (gap ++ (token.text.toList ++ c :: more))
      ({ token with location := .after (passed ++ gap) } :: again) := by
  have hne := h.text_ne_nil
  obtain ⟨line, lexeme, location, -, hfirst, hknown, rfl⟩ := h
  simp only [Lexeme.toToken, String.toList_ofList] at hmore hne ⊢
  exact .token (hgap _) (Lexeme.stops_text_append hfirst hknown hc _ _)
    (Lexeme.first?_text_append hfirst hknown hc _) hne (.exact _) hmore

end Token.Readable

namespace Spaced

open Text (withoutReturns)

variable {tokens : List Token} {text : List Char}

/-- Before the line feed at the end of a text, tokens with separators between them can be read. -/
theorem exists_reads (h : Spaced Text.ClosedByItsEnd tokens text) (htokens : ∀ token ∈ tokens, token.Readable)
    (hne : tokens ≠ []) {passed gap : List Char} (hgap : ∀ rest, Gap passed gap rest) :
    ∃ again, ReadsAs passed (gap ++ (withoutReturns text ++ ['\n'])) again ∧
      again.map Token.content = tokens.map Token.content := by
  induction h generalizing passed gap with
  | nil => simp at hne
  | last token =>
      have htoken := htokens token (List.mem_cons_self ..)
      have hlast (passed : List Char) : ReadsAs passed ['\n'] [] := .done (.cons (.blank (by decide)) (.nil _ _))
      rw [htoken.withoutReturns_text]
      exact ⟨_, htoken.reads hgap (by decide) (hlast _), rfl⟩
  | @cons token next tokens separator text hseparator hmore ih =>
      have htoken := htokens token (List.mem_cons_self ..)
      have hseparators (passed rest : List Char) := hseparator.gap passed rest
      obtain ⟨again, hreads, hsame⟩ := ih (fun other hmem => htokens other (List.mem_cons_of_mem _ hmem)) (by simp)
        fun rest => (hseparators (passed ++ gap ++ token.text.toList) rest).1
      obtain ⟨c, rest, hc, hblank⟩ := (hseparators [] []).2
      have htext : withoutReturns (token.text.toList ++ separator ++ text) =
          token.text.toList ++ (withoutReturns separator ++ withoutReturns text) := by
        rw [← htoken.withoutReturns_text]
        simp [withoutReturns]
      rw [htext, hblank, List.append_assoc]
      rw [hblank] at hreads
      exact ⟨_, htoken.reads hgap hc (by simpa using hreads), by simp [hsame, Token.content]⟩

theorem getLast?_ne (h : Spaced Text.ClosedByItsEnd tokens text) (htokens : ∀ token ∈ tokens, token.Readable) :
    text.getLast? ≠ some '\n' ∧ (tokens ≠ [] → text ≠ []) := by
  induction h with
  | nil => simp
  | last token =>
      have htoken := htokens token (List.mem_cons_self ..)
      exact ⟨fun hlast => htoken.lineFeed_not_mem (List.mem_of_getLast? hlast), fun _ => htoken.text_ne_nil⟩
  | cons token hseparator hmore ih =>
      obtain ⟨hlast, hne⟩ := ih fun other hmem => htokens other (List.mem_cons_of_mem _ hmem)
      have htext := hne (by simp)
      refine ⟨?_, fun _ => by simp [htext]⟩
      simpa [List.getLast?_append, List.getLast?_eq_some_getLast htext] using hlast

/-- A text of tokens with separators between them is read into these tokens. -/
theorem reads_normalized (h : Spaced Text.ClosedByItsEnd tokens text)
    (htokens : ∀ token ∈ tokens, token.Readable) :
    ∃ again, ReadsAs [] (normalized text) again ∧ again.map Token.content = tokens.map Token.content := by
  by_cases hne : tokens = []
  · subst hne
    cases h
    exact ⟨[], .done (.nil _ _), rfl⟩
  · have hstart (rest : List Char) : Gap [] [] rest := .nil _ _
    obtain ⟨again, hreads, hsame⟩ := h.exists_reads htokens hne hstart
    obtain ⟨hlast, htext⟩ := h.getLast?_ne htokens
    have hnormalized : normalized text = withoutReturns text ++ ['\n'] := by
      rw [Text.normalized_eq_prepare (htext hne), Scanner.prepare, if_neg hlast]
      simp [withoutReturns]
    exact ⟨again, by simpa [hnormalized] using hreads, hsame⟩

end Spaced

/-- The texts of some tokens with a space between each two. -/
def Token.joined (tokens : List Token) : List Char :=
  [' '].intercalate (tokens.map fun token => token.text.toList)

theorem Spaced.joined (mayStand : List Char → Prop) (tokens : List Token) :
    Spaced mayStand tokens (Token.joined tokens) := by
  induction tokens with
  | nil => exact .nil
  | cons token tokens ih =>
      cases tokens with
      | nil => simpa [Token.joined] using Spaced.last token
      | cons next tokens =>
          have hspace : Text.Separator mayStand [' '] :=
            @Text.Separator.intro _ ' ' [] (by decide) (by decide) (by simp)
          simpa [Token.joined, List.intercalate] using Spaced.cons token hspace ih

/-- The tokens of a text are what the first requests are answered with. -/
theorem Scanner.scans_of_answers {source : String} {tokens : List Token} (last : Token)
    (h : (stream (.ofText source)).answers 0 = (tokens ++ [last]).map .ok) : Scans source tokens := by
  obtain ⟨tokens', hreads⟩ := exists_reads source
  have hscans := scans_of_reads hreads
  have hanswers : (tokens' ++ [Token.endOf (normalized source.toList)]).map .ok =
      ((tokens ++ [last]).map .ok : List (Except ReadError Token)) := by
    rw [← h, hscans.answers 0]
    simp
  obtain rfl := (List.append_inj' (List.map_injective_iff.mpr (fun _ _ => Except.ok.inj) hanswers) rfl).1
  exact hscans

/-- Whether the scanner returns a token for some text, which is no error. -/
def Token.Scannable (token : Token) : Prop :=
  token.kind ≠ .error ∧ ∃ source tokens, Scanner.Scans source tokens ∧ token ∈ tokens

theorem Token.Scannable.readable {token : Token} (h : token.Scannable) : token.Readable := by
  obtain ⟨hknown, source, tokens, hscans, hmem⟩ := h
  obtain ⟨tokens', hreads⟩ := Scanner.exists_reads source
  obtain rfl := hscans.unique (Scanner.scans_of_reads hreads)
  exact hreads.readable (by simp [normalized]) hmem hknown

namespace Scanner

/-- Whether a text is scanned into tokens that are the given ones but for their places. -/
def ScansAgain (text : List Char) (tokens : List Token) : Prop :=
  ∃ again, Scans (String.ofList text) again ∧ again.map Token.content = tokens.map Token.content

/-- Tokens that the scanner returns and that are no errors, whatever texts they are from, may be written with
whatever separators between them, and are returned again for the text that comes of it.  So are the tokens of a
text when a space is written between each two. -/
theorem scansAgain_of_spaced {tokens : List Token} (htokens : ∀ token ∈ tokens, token.Scannable) :
    (∀ text, Spaced Text.ClosedByItsEnd tokens text → ScansAgain text tokens) ∧
      ScansAgain (Token.joined tokens) tokens := by
  have hagain (text : List Char) (htext : Spaced Text.ClosedByItsEnd tokens text) : ScansAgain text tokens := by
    obtain ⟨again, hreads, hsame⟩ := htext.reads_normalized fun token hmem => (htokens token hmem).readable
    exact ⟨again, scans_of_reads (by simpa using hreads), hsame⟩
  exact ⟨hagain, hagain _ (.joined _ tokens)⟩

/-- A comparison, and the same with comments in it. -/
theorem scansAgain_of_spaced_comments :
    ∃ tokens, (∀ token ∈ tokens, token.Scannable) ∧ tokens.length = 3 ∧
      ScansAgain "x //one\n<= /*two*/\"a b\"".toList tokens ∧ ScansAgain "x <= \"a b\"".toList tokens := by
  let x : Token := ⟨.identifier, "x", ⟨1, 1⟩, none⟩
  let most : Token := ⟨.lessEquals, "<=", ⟨1, 2⟩, none⟩
  let name : Token := ⟨.string, "\"a b\"", ⟨1, 4⟩, some (.string "a b")⟩
  have hscans : Scans "x<=\"a b\"" [x, most, name] := scans_of_answers (.endOfFile ⟨1, 1⟩) (by decide +kernel)
  have hknown : ∀ token ∈ [x, most, name], token.kind ≠ .error := by decide
  have htokens : ∀ token ∈ [x, most, name], token.Scannable := fun token hmem =>
    ⟨hknown token hmem, _, _, hscans, hmem⟩
  obtain ⟨hspaced, hjoined⟩ := scansAgain_of_spaced htokens
  have hone : Text.Separator Text.ClosedByItsEnd [' ', '/', '/', 'o', 'n', 'e', '\n'] :=
    .intro (by decide) (by decide) (List.forall_mem_singleton.mpr
      (Text.SeparatorPart.lineComment (by decide : '\n' ∉ ['o', 'n', 'e'])))
  have htwo : Text.Separator Text.ClosedByItsEnd [' ', '/', '*', 't', 'w', 'o', '*', '/'] :=
    .intro (by decide) (by decide) (List.forall_mem_singleton.mpr
      (Text.SeparatorPart.blockComment (by decide : Text.ClosedByItsEnd ['t', 'w', 'o'])))
  have htext : Spaced Text.ClosedByItsEnd [x, most, name] "x //one\n<= /*two*/\"a b\"".toList := by
    simpa [x, most, name] using Spaced.cons x hone (Spaced.cons most htwo (Spaced.last name))
  exact ⟨_, htokens, rfl, hspaced _ htext, by simpa [Token.joined, x, most, name] using hjoined⟩

/-- It is not enough that the text of a comment does not close it: in this comment a carriage return stands
between a star and a slash, and when it has been dropped they close the comment. -/
theorem not_scansAgain_of_spaced_return :
    ∃ tokens text, (∀ token ∈ tokens, token.Scannable) ∧ Spaced (fun body => ¬ Closes body) tokens text ∧
      text = "x /* *\r/ */ y".toList ∧ ¬ ScansAgain text tokens := by
  let x : Token := ⟨.identifier, "x", ⟨1, 1⟩, none⟩
  let y : Token := ⟨.identifier, "y", ⟨1, 3⟩, none⟩
  have hscans : Scans "x y" [x, y] := scans_of_answers (.endOfFile ⟨1, 1⟩) (by decide +kernel)
  have hknown : ∀ token ∈ [x, y], token.kind ≠ .error := by decide
  have hpart : Text.SeparatorPart (fun body => ¬ Closes body)
      ('/' :: '*' :: [' ', '*', '\r', '/', ' '] ++ ['*', '/']) :=
    .blockComment (by decide)
  have hseparator : Text.Separator (fun body => ¬ Closes body)
      [' ', '/', '*', ' ', '*', '\r', '/', ' ', '*', '/', ' '] :=
    @Text.Separator.intro _ ' ' [['/', '*', ' ', '*', '\r', '/', ' ', '*', '/'], [' ']] (by decide) (by decide)
      (List.forall_mem_cons.mpr ⟨hpart, List.forall_mem_singleton.mpr (.blank (by decide))⟩)
  have htext : Spaced (fun body => ¬ Closes body) [x, y] "x /* *\r/ */ y".toList := by
    simpa [x, y] using Spaced.cons x hseparator (Spaced.last y)
  refine ⟨_, _, fun token hmem => ⟨hknown token hmem, _, _, hscans, hmem⟩, htext, rfl, ?_⟩
  rintro ⟨again, hagain, hsame⟩
  have hfour : Scans "x /* *\r/ */ y" [x, ⟨.star, "*", ⟨1, 9⟩, none⟩, ⟨.slash, "/", ⟨1, 10⟩, none⟩,
      ⟨.identifier, "y", ⟨1, 12⟩, none⟩] := scans_of_answers (.endOfFile ⟨1, 1⟩) (by decide +kernel)
  obtain rfl := hagain.unique (by simpa using hfour)
  simp at hsame

end Scanner

end FrontEnd
