import FrontEnd.Proofs.Lines
import FrontEnd.Proofs.Reading

/-!
# Requests to a scanner

A feed may fail at any read, and in the middle of a comment or a literal.  Whatever a request has done until
then, it leaves a scanner between two lines: what it has begun is given up, and all further requests are
answered from the lines still unread, as if nothing had been scanned but only their lines counted
(`Scanner.resumes_of_failure`).

## Strategy

A request moves on in what is left to scan and in the reads, and counts the lines that it reads
(`Scanner.Advances`).  Each of its parts does so, and what parts do one after the other adds up.  That a
literal which is broken over the end of its line has used it up, and so continues with the next line,
depends on every line ending in a line feed (`Scanner.Ended`).
-/

namespace FrontEnd

open Text (isBlank)

/-- The lines that some reads deliver. -/
def LineFeed.delivered (reads : List (Except ReadError (List Char))) : List (List Char) :=
  reads.filterMap Except.toOption

theorem LineFeed.delivered_append (reads more : List (Except ReadError (List Char))) :
    delivered (reads ++ more) = delivered reads ++ delivered more :=
  List.filterMap_append

/-- What spells a piece of text that ends in a line feed is the piece itself. -/
theorem Spells.eq_of_lineFeed {text slice : List Char} (h : Spells text slice)
    (hlast : slice.getLast? = some '\n') : text = slice := by
  have hmem : '\n' ∈ slice := List.mem_of_getLast? hlast
  cases h with
  | exact => rfl
  | exponent hfirst hmantissa hsign hdigits =>
      -- a number has no line feed in it
      exfalso
      have hnot (c : Char) (hc : c.isDigit = true) : '\n' ≠ c := by
        rintro rfl
        simp at hc
      simp only [List.mem_append, List.mem_cons] at hmem
      rcases hmem with ((rfl | hmem) | hfeed | hmem | hmem)
      · exact hnot _ hfirst rfl
      · simpa using List.all_eq_true.mp hmantissa _ hmem
      · simp at hfeed
      · simp only [List.mem_cons, List.not_mem_nil, or_false] at hsign
        rcases hsign with rfl | rfl | rfl <;> simp at hmem
      · exact hnot _ (List.all_eq_true.mp hdigits _ hmem) rfl

namespace Scanner

open LineFeed (delivered delivered_append)

variable {scanner place later : Scanner}

/-! ## At the beginning of a token -/

/-- Where a character stands that begins no gap, nothing is skipped. -/
theorem skip_eq_self {c : Char} {rest : List Char} (hafter : place.after = c :: rest)
    (hblank : isBlank c = false) (hcomment : c ≠ '/') (hdirective : c ≠ '#') :
    place.skip = (.ok (), place) := by
  obtain ⟨feed, lineNumber, before, after⟩ := place
  subst hafter
  have hline : skipInLine false before (c :: rest) = (false, before, c :: rest) := by
    rw [skipInLine.eq_def]
    simp_all
  rw [skip, skipLines.eq_def]
  dsimp only
  rw [hline]

/-- What a request does where a lexeme begins. -/
def take (place : Scanner) (lexeme : Lexeme) : Except ReadError Token × Scanner :=
  let moved := place.move lexeme.text.length
  if moved.after.isEmpty then moved.finishBroken lexeme place.location
  else (.ok (lexeme.toToken place.location), moved)

theorem next_of_first? {lexeme : Lexeme} (hskip : scanner.skip = (.ok (), place))
    (hfirst : Lexeme.first? place.after = some lexeme) : scanner.next = place.take lexeme := by
  simp [next, hskip, hfirst, take]

/-- A lexeme that ends before its line is all that a token is made of. -/
theorem take_of_length {lexeme : Lexeme} (hlength : lexeme.text.length < place.after.length) :
    place.take lexeme = (.ok (lexeme.toToken place.location), place.move lexeme.text.length) := by
  have hmoved : (place.move lexeme.text.length).after.isEmpty = false := by
    simpa [move] using hlength
  simp [take, hmoved]

/-- Whether the answer is a token that begins where the scanner is: what is written has been read, and the scanner goes
on with the rest of the line. -/
structure Answers (place : Scanner) (written rest : List Char) (token : Token) : Prop where
  line : place.after = written ++ rest
  location : token.location = ⟨max place.lineNumber 1, place.before.length + 1⟩
  next : place.next = (.ok token, { place with before := written.reverse ++ place.before, after := rest })

/-- A lexeme that is as long as what is written is the text of the token. -/
theorem answers_of_first? {lexeme : Lexeme} {written rest : List Char} (hskip : place.skip = (.ok (), place))
    (hfirst : Lexeme.first? place.after = some lexeme) (hline : place.after = written ++ rest) (hrest : rest ≠ [])
    (hlength : lexeme.text.length = written.length) : place.Answers written rest (lexeme.toToken place.location) where
  line := hline
  location := rfl
  next := by
    have hpositive := List.length_pos_iff.mpr hrest
    rw [next_of_first? hskip hfirst, take_of_length (by simp [hline, hlength, hpositive]), hlength]
    simp [move, hline]

/-! ## Moving on -/

/-- What is left to scan: the rest of the line, and the lines that are still delivered. -/
def unscanned (scanner : Scanner) : List Char :=
  scanner.after ++ (delivered scanner.feed.reads).flatMap prepare

/-- Whether the rest of the line, if there is one, ends in a line feed. -/
def Ended (scanner : Scanner) : Prop :=
  ∀ c ∈ scanner.after.getLast?, c = '\n'

theorem getLast?_prepare (line : List Char) : (prepare line).getLast? = some '\n' := by
  have hended (ended : List Char) (h : ended.getLast? = some '\n') :
      (ended.filter (· != '\r')).getLast? = some '\n' := by
    obtain ⟨body, rfl⟩ := List.getLast?_eq_some_iff.mp h
    simp
  unfold prepare
  dsimp only
  split
  · next h => exact hended _ h
  · exact hended _ (by simp)

/-- What an answer tells about the way from a scanner to a later one: which reads were used up, and how many
lines they delivered.  A failure leaves nothing of a line, and was the answer of the last read. -/
structure Advances {α : Type} (scanner : Scanner) (answer : Except ReadError α × Scanner) : Prop where
  failure : answer.2.feed.failure = scanner.feed.failure
  unscanned : answer.2.unscanned <:+ scanner.unscanned
  ended : scanner.Ended → answer.2.Ended
  reads : ∃ done, scanner.feed.reads = done ++ answer.2.feed.reads ∧
    answer.2.lineNumber = scanner.lineNumber + (delivered done).length ∧
      ∀ failure, answer.1 = .error failure → answer.2.before = [] ∧ answer.2.after = [] ∧
        (done.getLast? = some (.error failure) ∨
          answer.2.feed.reads = [] ∧ scanner.feed.failure = some failure)

namespace Advances

variable {α β : Type} {answer : Except ReadError β × Scanner} {value : α}

/-- Without a read, only characters of the line are passed. -/
theorem of_after (hfeed : later.feed = scanner.feed) (hline : later.lineNumber = scanner.lineNumber)
    (hafter : later.after <:+ scanner.after) : Advances scanner (.ok value, later) where
  failure := by rw [hfeed]
  unscanned := by
    simp only [Scanner.unscanned, hfeed]
    obtain ⟨passed, hpassed⟩ := hafter
    exact ⟨passed, by rw [← hpassed, List.append_assoc]⟩
  ended hended c hc := by
    obtain ⟨passed, hpassed⟩ := hafter
    refine hended c ?_
    rw [← hpassed, List.getLast?_append, Option.mem_def.mp hc]
    rfl
  reads := ⟨[], by rw [hfeed]; rfl, hline, nofun⟩

/-- A failure tells the same of the way whatever was asked for. -/
theorem failed {problem : ReadError} (h : Advances scanner ((.error problem : Except ReadError α), later)) :
    Advances scanner ((.error problem : Except ReadError β), later) where
  failure := h.failure
  unscanned := h.unscanned
  ended := h.ended
  reads := by
    obtain ⟨done, hdone, hline, herror⟩ := h.reads
    exact ⟨done, hdone, hline, fun _ hfailure => herror _ (Except.error.inj hfailure ▸ rfl)⟩

theorem trans (h : Advances scanner (.ok value, later)) (h' : Advances later answer) :
    Advances scanner answer where
  failure := h'.failure.trans h.failure
  unscanned := h'.unscanned.trans h.unscanned
  ended hended := h'.ended (h.ended hended)
  reads := by
    obtain ⟨done, hdone, hline, -⟩ := h.reads
    obtain ⟨more, hmore, hline', herror⟩ := h'.reads
    refine ⟨done ++ more, ?_, ?_, fun failure hfailure => ?_⟩
    · rw [hdone, hmore, List.append_assoc]
    · dsimp only at hline
      rw [hline', hline, delivered_append, List.length_append, Nat.add_assoc]
    · obtain ⟨hbefore, hafter, hlast | ⟨hnone, hrepeated⟩⟩ := herror failure hfailure
      · exact ⟨hbefore, hafter, .inl (by simp [List.getLast?_append, hlast])⟩
      · exact ⟨hbefore, hafter, .inr ⟨hnone, h.failure ▸ hrepeated⟩⟩

theorem move (scanner : Scanner) (count : Nat) : Advances scanner (.ok value, scanner.move count) :=
  of_after rfl rfl (List.drop_suffix count scanner.after)

theorem readLine (scanner : Scanner) : Advances scanner scanner.readLine := by
  obtain ⟨⟨reads, failure⟩, lineNumber, before, after⟩ := scanner
  rcases reads with _ | ⟨problem | line, reads⟩
  · cases failure with
    | none => exact ⟨rfl, List.suffix_append _ _, nofun, [], rfl, rfl, nofun⟩
    | some problem =>
        refine ⟨rfl, List.suffix_append _ _, nofun, [], rfl, rfl, fun _ hfailure => ?_⟩
        exact ⟨rfl, rfl, .inr ⟨rfl, congrArg some (Except.error.inj hfailure)⟩⟩
  · refine ⟨rfl, List.suffix_append _ _, nofun, [.error problem], rfl, rfl, fun _ hfailure => ?_⟩
    exact ⟨rfl, rfl, .inl (congrArg (some ∘ Except.error) (Except.error.inj hfailure))⟩
  · refine ⟨rfl, List.suffix_append _ _, fun _ c hc => ?_, [.ok line], rfl, rfl, nofun⟩
    have hlast := getLast?_prepare line
    exact Option.some.inj (hc.symm.trans hlast)

end Advances

theorem suffix_skipInLine (inComment : Bool) (before after : List Char) :
    (skipInLine inComment before after).2.2 <:+ after := by
  fun_induction skipInLine inComment before after with
  | case1 => exact List.suffix_refl _
  | case2 before rest ih => exact ih.trans ⟨['*', '/'], rfl⟩
  | case3 before c rest hopen ih => exact ih.trans (List.suffix_cons c rest)
  | case4 before rest ih => exact ih.trans ⟨['/', '*'], rfl⟩
  | case5 => exact List.nil_suffix
  | case6 before c rest hblock hline hblank ih => exact ih.trans (List.suffix_cons c rest)
  | case7 => exact List.nil_suffix
  | case8 => exact List.suffix_refl _

theorem advances_skipLines (failure : Option ReadError) (reads : List (Except ReadError (List Char)))
    (inComment : Bool) (lineNumber : Nat) (before after : List Char) :
    Advances ⟨⟨reads, failure⟩, lineNumber, before, after⟩
      (skipLines failure reads inComment lineNumber before after) := by
  fun_induction skipLines failure reads inComment lineNumber before after with
  | case1 reads inComment lineNumber before after inComment' before' c rest hresult =>
      have hsuffix := suffix_skipInLine inComment before after
      rw [hresult] at hsuffix
      exact .of_after rfl rfl hsuffix
  | case2 inComment lineNumber before after _ _ _ line reads ih =>
      exact (Advances.readLine ⟨⟨.ok line :: reads, failure⟩, lineNumber, before, after⟩).trans ih
  | case3 inComment lineNumber before after _ _ _ problem reads =>
      exact Advances.readLine ⟨⟨.error problem :: reads, failure⟩, lineNumber, before, after⟩
  | case4 inComment lineNumber before after _ _ _ problem hproblem =>
      subst hproblem
      exact Advances.readLine ⟨⟨[], some problem⟩, lineNumber, before, after⟩
  | case5 inComment lineNumber before after _ _ _ hnone =>
      subst hnone
      exact Advances.readLine ⟨⟨[], none⟩, lineNumber, before, after⟩

theorem advances_finishBroken (scanner : Scanner) (lexeme : Lexeme) (location : Location) :
    Advances scanner (scanner.finishBroken lexeme location) := by
  have hread := Advances.readLine scanner
  unfold finishBroken
  split
  · next failure later hfailed =>
      rw [hfailed] at hread
      exact hread.failed
  · next later hdone =>
      rw [hdone] at hread
      split
      · exact hread.trans (.move later 1)
      · exact hread.trans (.of_after rfl rfl (List.suffix_refl _))

theorem advances_take (place : Scanner) (lexeme : Lexeme) : Advances place (place.take lexeme) := by
  have hmoved : Advances place (.ok (), place.move lexeme.text.length) := .move place _
  unfold take
  dsimp only
  split
  · exact hmoved.trans (advances_finishBroken _ _ _)
  · exact .move place _

/-- Whatever a request is answered, it moves on. -/
theorem advances_next (scanner : Scanner) : Advances scanner scanner.next := by
  have hskip : Advances scanner scanner.skip := advances_skipLines _ _ _ _ _ _
  rcases hreached : scanner.skip with ⟨failure | _, place⟩ <;> rw [hreached] at hskip
  · have hnext : scanner.next = (.error failure, place) := by simp [next, hreached]
    exact hnext ▸ hskip.failed
  · cases hfirst : Lexeme.first? place.after with
    | none =>
        have hnext : scanner.next = (.ok (.endOfFile place.location), place) := by simp [next, hreached, hfirst]
        exact hnext ▸ hskip.trans (.of_after rfl rfl (List.suffix_refl _))
    | some lexeme => exact next_of_first? hreached hfirst ▸ hskip.trans (advances_take place lexeme)

/-! ## Runs of requests -/

/-- The scanner after so many requests. -/
def served (scanner : Scanner) (requests : Nat) : Scanner :=
  (fun scanner => scanner.next.2)^[requests] scanner

theorem answer_eq (scanner : Scanner) (requests : Nat) :
    scanner.answer requests = (scanner.served requests).next.1 :=
  rfl

theorem served_succ (scanner : Scanner) (requests : Nat) :
    scanner.served (requests + 1) = (scanner.served requests).next.2 :=
  Function.iterate_succ_apply' _ _ _

theorem served_add (scanner : Scanner) (requests more : Nat) :
    scanner.served (requests + more) = (scanner.served requests).served more := by
  rw [Nat.add_comm]
  exact Function.iterate_add_apply _ _ _ _

/-- Requests in a row move on. -/
theorem advances_served (scanner : Scanner) (requests : Nat) :
    Advances scanner (.ok (), scanner.served requests) := by
  induction requests with
  | zero => exact .of_after rfl rfl (List.suffix_refl _)
  | succ requests ih =>
      have hnext : Advances scanner (scanner.served requests).next := ih.trans (advances_next _)
      rw [served_succ]
      obtain ⟨done, hdone, hline, -⟩ := hnext.reads
      exact ⟨hnext.failure, hnext.unscanned, hnext.ended, done, hdone, hline, nofun⟩

/-! ## Where a token comes from -/

/-- A read passes over nothing but what is left of the line. -/
theorem unscanned_readLine (h : scanner.readLine.1 = .ok ()) :
    scanner.unscanned = scanner.after ++ scanner.readLine.2.unscanned := by
  obtain ⟨⟨reads, failure⟩, lineNumber, before, after⟩ := scanner
  rcases reads with _ | ⟨problem | line, reads⟩
  · cases failure with
    | none => rfl
    | some problem => cases h
  · cases h
  · rfl

/-- Whether a token is made of a piece of a text. -/
def TakenFrom (text : List Char) (token : Token) : Prop :=
  ∃ slice, Spells token.text.toList slice ∧ slice <:+: text

theorem TakenFrom.mono {text more : List Char} {token : Token} (h : TakenFrom text token) (hmore : text <:+: more) :
    TakenFrom more token :=
  h.imp fun _ hslice => ⟨hslice.1, hslice.2.trans hmore⟩

/-- A literal that has used up its line is taken from that and the next line. -/
theorem taken_of_finishBroken {lexeme : Lexeme} {location : Location} {slice : List Char}
    (hspells : Spells lexeme.text slice) (hlast : slice.getLast? = some '\n') (hafter : scanner.after = [])
    {token : Token} (h : (scanner.finishBroken lexeme location).1 = .ok token) :
    token.location = location ∧ TakenFrom (slice ++ scanner.unscanned) token := by
  have hleft : scanner.readLine.1 = .ok () → _ := unscanned_readLine
  unfold finishBroken at h
  split at h
  · cases h
  · next later hdone =>
      rw [hdone] at hleft
      specialize hleft rfl
      split at h
      · next hquote =>
          obtain rfl := Except.ok.inj h
          obtain ⟨rest, hrest⟩ := List.head?_eq_some_iff.mp hquote
          refine ⟨rfl, slice ++ ['\''], ?_, ?_⟩
          · simpa [Lexeme.toToken, hspells.eq_of_lineFeed hlast] using Spells.exact _
          · refine List.IsPrefix.isInfix ⟨rest ++ (delivered later.feed.reads).flatMap prepare, ?_⟩
            rw [hleft, hafter]
            simp [unscanned, hrest]
      · obtain rfl := Except.ok.inj h
        exact ⟨rfl, slice, by simpa [Lexeme.toToken] using hspells, (List.prefix_append _ _).isInfix⟩

/-- What a token that begins at a place is taken from. -/
theorem taken_of_take {lexeme : Lexeme} (hended : place.Ended) (hfirst : Lexeme.first? place.after = some lexeme)
    {token : Token} (h : (place.take lexeme).1 = .ok token) :
    token.location = place.location ∧ TakenFrom place.unscanned token := by
  obtain ⟨slice, rest, hline, hne, hspells⟩ := Lexeme.begins_of_first? hfirst
  have hrest : (place.move lexeme.text.length).after = rest := by
    rw [hspells.length_eq, move, hline, List.drop_left]
  have hleft : place.unscanned = slice ++ (place.move lexeme.text.length).unscanned := by
    rw [unscanned, unscanned, hrest, hline, List.append_assoc]
    rfl
  unfold take at h
  dsimp only at h
  rw [hleft]
  split at h
  · next hempty =>
      have hnil : (place.move lexeme.text.length).after = [] := List.isEmpty_iff.mp hempty
      obtain rfl : rest = [] := hrest ▸ hnil
      have hlast : slice.getLast? = some '\n' := by
        have hlast := List.getLast?_eq_some_getLast hne
        have hfeed : slice.getLast hne = '\n' := hended _ (by rwa [hline, List.append_nil])
        rw [hlast, hfeed]
      exact taken_of_finishBroken hspells hlast hnil h
  · obtain rfl := Except.ok.inj h
    exact ⟨rfl, slice, by simpa [Lexeme.toToken] using hspells, (List.prefix_append _ _).isInfix⟩

/-- A request is answered with the end of the file, or with a token on the line to which skipping leads, which is
taken from what was left to scan. -/
theorem taken_of_next (hended : scanner.Ended) {token : Token} (h : scanner.next.1 = .ok token) :
    token.isEnd = true ∧ scanner.next.2.after = [] ∨
      ∃ place, scanner.skip = (.ok (), place) ∧ place.after ≠ [] ∧
        place.lineNumber ≤ scanner.next.2.lineNumber ∧ token.line = max place.lineNumber 1 ∧
          TakenFrom scanner.unscanned token := by
  have hskip : Advances scanner scanner.skip := advances_skipLines _ _ _ _ _ _
  rcases hreached : scanner.skip with ⟨failure | _, place⟩
  · simp [next, hreached] at h
  · rw [hreached] at hskip
    cases hfirst : Lexeme.first? place.after with
    | none =>
        have hafter : place.after = [] := by
          by_contra hne
          obtain ⟨c, rest, hcons⟩ := List.exists_cons_of_ne_nil hne
          obtain ⟨lexeme, hsome⟩ := Lexeme.exists_first? c rest
          simp [hcons, hsome] at hfirst
        have hnext : scanner.next = (.ok (.endOfFile place.location), place) := by simp [next, hreached, hfirst]
        rw [hnext] at h ⊢
        exact .inl ⟨Except.ok.inj h ▸ rfl, hafter⟩
    | some lexeme =>
        have hafter : place.after ≠ [] := by
          intro hnil
          simp [hnil, Lexeme.first?] at hfirst
        rw [next_of_first? hreached hfirst] at h ⊢
        obtain ⟨done, -, hline, -⟩ := (advances_take place lexeme).reads
        obtain ⟨hlocation, htaken⟩ := taken_of_take (hskip.ended hended) hfirst h
        refine .inr ⟨place, rfl, hafter, by omega, ?_, htaken.mono hskip.unscanned.isInfix⟩
        rw [Token.line, hlocation, location]

/-! ## Lines that are never returned to -/

/-- Where a line is used up, another has been read before anything can be taken. -/
theorem lineNumber_lt_of_skip (hafter : scanner.after = []) (hskip : scanner.skip = (.ok (), place))
    (hplace : place.after ≠ []) : scanner.lineNumber < place.lineNumber := by
  obtain ⟨⟨reads, failure⟩, lineNumber, before, after⟩ := scanner
  subst hafter
  rw [skip, skipLines.eq_def] at hskip
  dsimp only at hskip ⊢
  rw [show skipInLine false before [] = (false, before, []) by rw [skipInLine.eq_def]] at hskip
  rcases reads with _ | ⟨problem | line, reads⟩
  · cases failure with
    | none =>
        obtain rfl := (Prod.mk.inj hskip).2
        exact absurd rfl hplace
    | some problem => cases hskip
  · cases hskip
  · have hle := lineNumber_le_skipLines failure reads false (lineNumber + 1) [] (prepare line)
    dsimp only at hskip
    rw [hskip] at hle
    exact hle

/-- Whether a scanner has used up a line and all lines before it. -/
def Past (line : Nat) (scanner : Scanner) : Prop :=
  line ≤ scanner.lineNumber ∧ (scanner.after = [] ∨ line < scanner.lineNumber)

/-- A request goes on to later lines, and answers with nothing from a line that has been used up. -/
theorem Past.next {line : Nat} (h : scanner.Past line) (hended : scanner.Ended) :
    scanner.next.2.Past line ∧ ∀ token, scanner.next.1 = .ok token → token.isEnd = true ∨
      line < token.line ∧ TakenFrom scanner.unscanned token := by
  obtain ⟨hline, hused⟩ := h
  have hgrows := (lines_of_next scanner).1
  cases hanswer : scanner.next.1 with
  | error failure =>
      obtain ⟨done, -, -, hfailed⟩ := (advances_next scanner).reads
      exact ⟨⟨Nat.le_trans hline hgrows, .inl (hfailed failure hanswer).2.1⟩, nofun⟩
  | ok token =>
      rcases taken_of_next hended hanswer with ⟨hend, hafter⟩ | ⟨place, hskip, hplace, hnext, htoken, htaken⟩
      · exact ⟨⟨Nat.le_trans hline hgrows, .inl hafter⟩, fun _ h => .inl (Except.ok.inj h ▸ hend)⟩
      · have hlt : line < place.lineNumber := by
          rcases hused with hafter | hlt
          · exact Nat.lt_of_le_of_lt hline (lineNumber_lt_of_skip hafter hskip hplace)
          · have hle : scanner.lineNumber ≤ scanner.skip.2.lineNumber := lineNumber_le_skipLines _ _ _ _ _ _
            rw [hskip] at hle
            exact Nat.lt_of_lt_of_le hlt hle
        refine ⟨⟨Nat.le_trans hline hgrows, .inr (Nat.lt_of_lt_of_le hlt hnext)⟩, fun _ h => ?_⟩
        obtain rfl := Except.ok.inj h
        exact .inr ⟨by omega, htaken⟩

theorem Past.served {line : Nat} (h : scanner.Past line) (hended : scanner.Ended) (requests : Nat) :
    (scanner.served requests).Past line := by
  induction requests with
  | zero => exact h
  | succ requests ih =>
      rw [served_succ]
      exact (ih.next ((advances_served scanner requests).ended hended)).1

/-! ## After a failure -/

/-- A scanner between two lines, which holds nothing of the one before. -/
def betweenLines (feed : LineFeed) (lineNumber : Nat) : Scanner := { feed, lineNumber }

/-- From between two lines, all that is answered is taken from later lines. -/
theorem taken_betweenLines {feed : LineFeed} {lineNumber later : Nat} {token : Token}
    (h : (betweenLines feed lineNumber).answer later = .ok token) :
    token.isEnd = true ∨ lineNumber < token.line ∧ TakenFrom ((delivered feed.reads).flatMap prepare) token := by
  have hended : (betweenLines feed lineNumber).Ended := nofun
  have hpast : (betweenLines feed lineNumber).Past lineNumber := ⟨Nat.le_refl _, .inl rfl⟩
  have hmoved := advances_served (betweenLines feed lineNumber) later
  obtain ⟨-, htaken⟩ := (hpast.served hended later).next (hmoved.ended hended)
  exact (htaken token h).imp_right fun hlater =>
    ⟨hlater.1, hlater.2.mono hmoved.unscanned.isInfix⟩

/-- While reads fail, they are answered with one after the other, and nothing else changes. -/
theorem served_betweenLines (failures : List ReadError) (more : List (Except ReadError (List Char)))
    (failure : Option ReadError) (lineNumber : Nat) :
    (betweenLines ⟨failures.map .error ++ more, failure⟩ lineNumber).served failures.length =
        betweenLines ⟨more, failure⟩ lineNumber ∧
      ∀ index problem, failures[index]? = some problem →
        (betweenLines ⟨failures.map .error ++ more, failure⟩ lineNumber).answer index = .error problem := by
  induction failures with
  | nil => exact ⟨rfl, by simp⟩
  | cons first failures ih =>
      have hnext : (betweenLines ⟨(first :: failures).map .error ++ more, failure⟩ lineNumber).next =
          (.error first, betweenLines ⟨failures.map .error ++ more, failure⟩ lineNumber) := rfl
      have hserved (requests : Nat) :
          (betweenLines ⟨(first :: failures).map .error ++ more, failure⟩ lineNumber).served (requests + 1) =
            (betweenLines ⟨failures.map .error ++ more, failure⟩ lineNumber).served requests := by
        rw [Nat.add_comm, served_add, served_succ]
        exact congrArg (fun scanner : Scanner => scanner.served requests) (congrArg Prod.snd hnext)
      refine ⟨(hserved _).trans ih.1, fun index problem hproblem => ?_⟩
      cases index with
      | zero =>
          obtain rfl : first = problem := by simpa using hproblem
          exact congrArg Prod.fst hnext
      | succ index =>
          rw [answer_eq, hserved]
          exact ih.2 index problem (by simpa using hproblem)

/-- A failure that is repeated forever is answered forever, and nothing else changes. -/
theorem served_betweenLines_forever (problem : ReadError) (lineNumber later : Nat) :
    (betweenLines ⟨[], some problem⟩ lineNumber).served later = betweenLines ⟨[], some problem⟩ lineNumber := by
  induction later with
  | zero => rfl
  | succ later ih =>
      rw [served_succ, ih]
      rfl

/-- What comes after a request that fails, given the reads that have been used up by then and the others.  The
failure was the answer of the last read.  The scanner is between two lines and has counted the lines delivered so
far, so its further answers depend on the unread lines alone: every token but the end of the file is on one of
them and is made of their characters.  While reads go on failing, nothing but their number changes. -/
structure Resumes (feed : LineFeed) (requests : Nat) (failure : ReadError)
    (done unread : List (Except ReadError (List Char))) : Prop where
  reads : feed.reads = done ++ unread
  failed : done.getLast? = some (.error failure) ∨ unread = [] ∧ feed.failure = some failure
  scanner : (ofFeed feed).served (requests + 1) = betweenLines ⟨unread, feed.failure⟩ (delivered done).length
  answers : ∀ later, (ofFeed feed).answer (requests + 1 + later) =
    (betweenLines ⟨unread, feed.failure⟩ (delivered done).length).answer later
  taken : ∀ later token, (ofFeed feed).answer (requests + 1 + later) = .ok token → token.isEnd = true ∨
    (delivered done).length < token.line ∧ TakenFrom ((delivered unread).flatMap prepare) token
  failing : ∀ (failures : List ReadError) (more : List (Except ReadError (List Char))),
    unread = failures.map .error ++ more →
    (ofFeed feed).served (requests + 1 + failures.length) =
        betweenLines ⟨more, feed.failure⟩ (delivered done).length ∧
      ∀ index problem, failures[index]? = some problem →
        (ofFeed feed).answer (requests + 1 + index) = .error problem
  forever : ∀ problem, unread = [] → feed.failure = some problem → ∀ later,
    (ofFeed feed).served (requests + 1 + later) = betweenLines ⟨[], some problem⟩ (delivered done).length ∧
      (ofFeed feed).answer (requests + 1 + later) = .error problem

/-- **After a request that fails, a scanner goes on as one that holds no line**, over the lines still unread, with
the lines delivered so far counted: whatever a feed contains, and wherever its reads fail. -/
theorem resumes_of_failure (feed : LineFeed) (requests : Nat) {failure : ReadError}
    (h : (ofFeed feed).answer requests = .error failure) :
    ∃ done unread, Resumes feed requests failure done unread := by
  have hbefore := advances_served (ofFeed feed) requests
  obtain ⟨done, hreads, hline, hfailed⟩ := (hbefore.trans (advances_next _)).reads
  obtain ⟨hempty, hused, hlast⟩ := hfailed failure h
  have hfailure := (hbefore.trans (advances_next _)).failure
  rw [← served_succ] at hreads hline hempty hused hlast hfailure
  have hscanner : (ofFeed feed).served (requests + 1) =
      betweenLines ⟨((ofFeed feed).served (requests + 1)).feed.reads, feed.failure⟩ (delivered done).length := by
    generalize (ofFeed feed).served (requests + 1) = later at hreads hline hempty hused hfailure
    obtain ⟨⟨reads, failure⟩, lineNumber, before, after⟩ := later
    simp_all [betweenLines, ofFeed]
  generalize ((ofFeed feed).served (requests + 1)).feed.reads = unread at hreads hlast hscanner
  have hserved (later : Nat) : (ofFeed feed).served (requests + 1 + later) =
      (betweenLines ⟨unread, feed.failure⟩ (delivered done).length).served later := by
    rw [served_add, hscanner]
  have hanswers (later : Nat) : (ofFeed feed).answer (requests + 1 + later) =
      (betweenLines ⟨unread, feed.failure⟩ (delivered done).length).answer later := by
    rw [answer_eq, hserved, answer_eq]
  refine ⟨done, unread, hreads, hlast, hscanner, hanswers, fun later token htoken => ?_,
    fun failures more hunread => ?_, fun problem hunread hproblem later => ?_⟩
  · rw [hanswers] at htoken
    exact taken_betweenLines htoken
  · obtain ⟨hlater, hproblems⟩ := served_betweenLines failures more feed.failure (delivered done).length
    rw [← hunread] at hlater hproblems
    exact ⟨(hserved _).trans hlater, fun index problem hproblem =>
      (hanswers index).trans (hproblems index problem hproblem)⟩
  · have hlater := served_betweenLines_forever problem (delivered done).length later
    rw [hanswers, hserved, answer_eq, hunread, hproblem, hlater]
    exact ⟨rfl, rfl⟩

/-- A comment in which a read fails is given up, and so is a literal: what has been read of them is not scanned
again, and what is read of them later is scanned as anything else. -/
theorem resumes_of_failure_twice :
    let feed : LineFeed :=
      ⟨[.ok "x /* a\n".toList, .error .invalidText, .error (.device "lost"), .ok "b */ '\\\n".toList,
        .error .invalidText, .ok "' c".toList], none⟩
    (ofFeed feed).answer 1 = .error .invalidText ∧
      (ofFeed feed).answer 2 = .error (.device "lost") ∧
      (ofFeed feed).answer 3 = .ok ⟨.identifier, "b", ⟨2, 1⟩, none⟩ ∧
      (ofFeed feed).answer 6 = .error .invalidText ∧
      (ofFeed feed).answer 7 = .ok ⟨.error, "' ", ⟨3, 1⟩, some (.error .invalidCharacter)⟩ ∧
      (∃ done unread, Resumes feed 1 .invalidText done unread) ∧
        ∃ done unread, Resumes feed 6 .invalidText done unread := by
  intro feed
  have hcomment : (ofFeed feed).answer 1 = .error .invalidText := by decide +kernel
  have hliteral : (ofFeed feed).answer 6 = .error .invalidText := by decide +kernel
  exact ⟨hcomment, by decide +kernel, by decide +kernel, hliteral, by decide +kernel,
    resumes_of_failure feed 1 hcomment, resumes_of_failure feed 6 hliteral⟩

end Scanner

end FrontEnd
