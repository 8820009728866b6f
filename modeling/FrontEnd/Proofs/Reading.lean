import FrontEnd.Proofs.Slice
import Mathlib.Data.List.Count

/-!
# Reading a text

The scanner takes a text line by line, but what it answers is plain from the text as one piece: it skips the
gap at which it stands and then takes the lexeme with which the rest begins, whose place is that of its first
character (`ReadsAs`).  A text can be read in one way only (`ReadsAs.unique`), and the scanner reads it so
(`Scanner.Stands.exists_reads`, `Scanner.Stands.answer`, `Scanner.Stands.answers`).

So a text is parted into gaps and slices that the tokens spell (`Scanner.exists_scans_partitioned`).

## Strategy

`Scanner.Stands` says where in a text a scanner stands.  Skipping goes on from line to line within a comment,
so what has been skipped is described together with whether it begins within a comment (`GapFrom`): first on
one line (`Scanner.skipInLine_skips`), then over all lines (`Scanner.Stands.skip`).  From this comes what one
request does (`Scanner.Stands.next`), and the rest is induction on the length of the text or on how it is read.
-/

namespace FrontEnd

open Text (isBlank lastLine Closes closes_cons not_closes_nil normalized)

/-! ## Lines -/

namespace Text

/-- Whether a text is one line with the line feed that ends it. -/
def IsLine (line : List Char) : Prop :=
  ∃ body, '\n' ∉ body ∧ line = body ++ ['\n']

theorem isLine_cons {c : Char} {rest : List Char} (h : IsLine (c :: rest)) :
    c = '\n' ∧ rest = [] ∨ c ≠ '\n' ∧ IsLine rest := by
  obtain ⟨_ | ⟨first, body⟩, hbody, hline⟩ := h
  · simpa using Or.inl (List.cons.inj hline)
  · obtain ⟨rfl, rfl⟩ := List.cons.inj hline
    exact .inr ⟨fun heq => hbody (by simp [heq]), body, List.not_mem_of_not_mem_cons hbody, rfl⟩

theorem IsLine.tail {c : Char} {rest : List Char} (h : IsLine (c :: rest)) (hc : c ≠ '\n') : IsLine rest :=
  ((isLine_cons h).resolve_left fun heq => hc heq.1).2

theorem IsLine.ne_nil {line : List Char} (h : IsLine line) : line ≠ [] := by
  obtain ⟨body, -, rfl⟩ := h
  simp

theorem lastLine_append {earlier before : List Char} (h : lastLine earlier = []) (hbefore : '\n' ∉ before) :
    lastLine (earlier ++ before.reverse) = before := by
  have hall : ∀ c ∈ before, (c != '\n') = true := by
    intro c hc
    simpa using fun heq : c = '\n' => hbefore (heq ▸ hc)
  rw [lastLine, List.reverse_append, List.reverse_reverse, List.takeWhile_append_of_pos hall]
  rw [lastLine] at h
  rw [h, List.append_nil]

theorem lastLine_append_lineFeed (text : List Char) : lastLine (text ++ ['\n']) = [] := by
  simp [lastLine]

end Text

open Text (IsLine isLine_cons lastLine_append lastLine_append_lineFeed)

/-! ## Gaps that begin within a comment -/

/-- The gaps between what has been passed of a text and the rest of it, where what has been passed may end
within a comment. -/
inductive GapFrom : (inComment : Bool) → (passed gap rest : List Char) → Prop
  | outside {passed gap rest : List Char} : Gap passed gap rest → GapFrom false passed gap rest
  | closed {passed body gap rest : List Char} : ¬ Closes body → Gap (passed ++ (body ++ ['*', '/'])) gap rest →
      GapFrom true passed (body ++ ['*', '/'] ++ gap) rest
  | unclosed {passed body : List Char} : ¬ Closes body → GapFrom true passed body []

namespace GapFrom

variable {passed gap rest : List Char} {c : Char}

theorem nil (inComment : Bool) (passed : List Char) : GapFrom inComment passed [] [] := by
  cases inComment with
  | false => exact .outside (.nil _ _)
  | true => exact .unclosed not_closes_nil

theorem blank (h : GapFrom false (passed ++ [c]) gap rest) (hc : isBlank c = true) :
    GapFrom false passed (c :: gap) rest := by
  cases h with
  | outside h => exact .outside (.cons (.blank hc) h)

theorem opened (h : GapFrom true (passed ++ ['/', '*']) gap rest) :
    GapFrom false passed ('/' :: '*' :: gap) rest := by
  cases h with
  | @closed _ body gap _ hbody h =>
      have hpart : Gap (passed ++ ('/' :: '*' :: body ++ ['*', '/'])) gap rest := by simpa using h
      simpa using GapFrom.outside (.cons (.blockComment hbody) hpart)
  | unclosed hbody => exact .outside (.unclosed hbody)

theorem close (h : GapFrom false (passed ++ ['*', '/']) gap rest) :
    GapFrom true passed ('*' :: '/' :: gap) rest := by
  cases h with
  | outside h => exact (.closed not_closes_nil h : GapFrom true passed ([] ++ ['*', '/'] ++ gap) rest)

/-- A comment goes on with every character that does not begin its end. -/
theorem inside (h : GapFrom true (passed ++ [c]) gap rest)
    (hc : c = '*' → (gap ++ rest).head? ≠ some '/') : GapFrom true passed (c :: gap) rest := by
  have hgoes {body : List Char} (tail : List Char) (hbody : ¬ Closes body) (htail : body ++ tail = gap ++ rest) :
      ¬ Closes (c :: body) := by
    rw [closes_cons, not_or, not_and]
    refine ⟨fun hstar hhead => hc hstar ?_, hbody⟩
    obtain ⟨body, rfl⟩ := List.head?_eq_some_iff.mp hhead
    rw [← htail]
    rfl
  cases h with
  | @closed _ body gap _ hbody h =>
      have hpart : Gap (passed ++ (c :: body ++ ['*', '/'])) gap rest := by simpa using h
      exact .closed (hgoes (['*', '/'] ++ gap ++ rest) hbody (by simp)) hpart
  | unclosed hbody => exact .unclosed (hgoes _ hbody rfl)

theorem lineComment {body : List Char} (h : GapFrom false (passed ++ ('/' :: '/' :: body ++ ['\n'])) gap rest)
    (hbody : '\n' ∉ body) : GapFrom false passed ('/' :: '/' :: body ++ ['\n'] ++ gap) rest := by
  cases h with
  | outside h => exact .outside (.cons (.lineComment hbody) h)

theorem directive {body : List Char} (h : GapFrom false (passed ++ ('#' :: body ++ ['\n'])) gap rest)
    (hpassed : (lastLine passed).all isBlank = true) (hbody : '\n' ∉ body) :
    GapFrom false passed ('#' :: body ++ ['\n'] ++ gap) rest := by
  cases h with
  | outside h => exact .outside (.cons (.directive hpassed hbody) h)

end GapFrom

namespace Scanner

/-! ## Skipping on one line -/

/-- What it means that skipping on a line, from a place to a later one, has skipped a part of a gap.  The line
is used up, or else the gap ends at the later place. -/
def Skips (earlier : List Char) (inComment : Bool) (before after : List Char) :
    Bool × List Char × List Char → Prop
  | (inComment', before', after') =>
    ∃ part, after = part ++ after' ∧ before' = part.reverse ++ before ∧
      (after' = [] ∨ inComment' = false ∧ '\n' ∉ before' ∧ IsLine after' ∧
        ∀ later, Stops (earlier ++ before'.reverse) (after' ++ later)) ∧
      ∀ gap rest later, gap ++ rest = after' ++ later →
        GapFrom inComment' (earlier ++ before'.reverse) gap rest →
          GapFrom inComment (earlier ++ before.reverse) (part ++ gap) rest

/-- A part that is skipped before another. -/
theorem Skips.append {earlier before rest : List Char} {inComment inComment' : Bool}
    {result : Bool × List Char × List Char} (part : List Char)
    (h : Skips earlier inComment' (part.reverse ++ before) rest result)
    (hpart : ∀ gap left later, gap ++ left = rest ++ later →
      GapFrom inComment' (earlier ++ before.reverse ++ part) gap left →
        GapFrom inComment (earlier ++ before.reverse) (part ++ gap) left) :
    Skips earlier inComment before (part ++ rest) result := by
  obtain ⟨inComment'', before', after'⟩ := result
  obtain ⟨part', rfl, rfl, hend, hgap⟩ := h
  refine ⟨part ++ part', by simp, by simp, hend, fun gap left later heq hmore => ?_⟩
  have hskipped := hgap gap left later heq hmore
  rw [List.reverse_append, List.reverse_reverse, ← List.append_assoc] at hskipped
  rw [List.append_assoc]
  exact hpart _ _ later (by simp [heq]) hskipped

theorem skipInLine_skips {earlier : List Char} (hearlier : lastLine earlier = []) (inComment : Bool)
    (before after : List Char) (h : after = [] ∨ '\n' ∉ before ∧ IsLine after) :
    Skips earlier inComment before after (skipInLine inComment before after) := by
  have htail {c : Char} {before rest : List Char} (h : c :: rest = [] ∨ '\n' ∉ before ∧ IsLine (c :: rest)) :
      rest = [] ∨ '\n' ∉ c :: before ∧ IsLine rest := by
    obtain ⟨hbefore, hline⟩ := h.resolve_left (by simp)
    rcases isLine_cons hline with ⟨-, rfl⟩ | ⟨hc, hrest⟩
    · exact .inl rfl
    · exact .inr ⟨by simp [hbefore, Ne.symm hc], hrest⟩
  fun_induction skipInLine inComment before after with
  | case1 inComment before => exact ⟨[], rfl, rfl, .inl rfl, fun _ _ _ _ hgap => hgap⟩
  | case2 before rest ih =>
      exact (ih (htail (htail h))).append ['*', '/'] fun _ _ _ _ hgap => hgap.close
  | case3 before c rest hopen ih =>
      refine (ih (htail h)).append [c] fun gap left later heq hgap => hgap.inside ?_
      rintro rfl hslash
      -- the star is not the last character of the line
      have hrest := (h.resolve_left (by simp)).2.tail (by decide)
      obtain ⟨first, rest, rfl⟩ := List.exists_cons_of_ne_nil hrest.ne_nil
      obtain rfl : first = '/' := by simpa [heq] using hslash
      exact hopen _ rfl rfl
  | case4 before rest ih =>
      exact (ih (htail (htail h))).append ['/', '*'] fun _ _ _ _ hgap => hgap.opened
  | case5 before rest =>
      obtain ⟨body, hbody, rfl⟩ := ((h.resolve_left (by simp)).2.tail (by decide)).tail (by decide)
      refine ⟨'/' :: '/' :: (body ++ ['\n']), by simp, by simp, .inl rfl, fun gap left later _ hgap => ?_⟩
      exact GapFrom.lineComment (by simpa using hgap) hbody
  | case6 before c rest hblock hline hblank ih =>
      exact (ih (htail h)).append [c] fun _ _ _ _ hgap => hgap.blank hblank
  | case7 before c rest hblock hline hblank hdirective =>
      obtain ⟨rfl, hbefore⟩ : c = '#' ∧ before.all isBlank = true := by simpa using hdirective
      obtain ⟨hfeed, hrest⟩ := h.resolve_left (by simp)
      obtain ⟨body, hbody, rfl⟩ := hrest.tail (by decide)
      refine ⟨'#' :: (body ++ ['\n']), by simp, by simp, .inl rfl, fun gap left later _ hgap => ?_⟩
      exact GapFrom.directive (by simpa using hgap) (by rwa [lastLine_append hearlier hfeed]) hbody
  | case8 before c rest hblock hline hblank hdirective =>
      obtain ⟨hfeed, hafter⟩ := h.resolve_left (by simp)
      refine ⟨[], rfl, rfl, .inr ⟨rfl, hfeed, hafter, fun later => ⟨by simpa using hblank, ?_, ?_⟩⟩,
        fun _ _ _ _ hgap => hgap⟩
      · rintro rfl
        obtain ⟨first, rest, rfl⟩ := List.exists_cons_of_ne_nil (hafter.tail (by decide)).ne_nil
        refine ⟨fun heq => ?_, fun heq => ?_⟩
        · exact hline rest rfl (by rw [Option.some.inj heq])
        · exact hblock rest rfl (by rw [Option.some.inj heq])
      · rintro rfl
        rw [lastLine_append hearlier hfeed]
        simpa using hdirective

/-! ## Where a scanner stands -/

/-- Whether a scanner stands on a line after some earlier text, or between two lines, given the lines that
are still to be read. -/
structure StandsAfter (earlier : List Char) (lines : List (List Char)) (scanner : Scanner) : Prop where
  feed : scanner.feed = ⟨lines.map .ok, none⟩
  ended : lastLine earlier = []
  whole : ∀ line ∈ lines, IsLine (prepare line)
  place : (scanner.before = [] ∧ scanner.after = [] ∧ scanner.lineNumber = earlier.count '\n') ∨
    ('\n' ∉ scanner.before ∧ IsLine scanner.after ∧ scanner.lineNumber = earlier.count '\n' + 1)

/-- Where in a text a scanner stands, given what it has passed of the text and the rest. -/
def Stands (scanner : Scanner) (passed rest : List Char) : Prop :=
  ∃ earlier lines, StandsAfter earlier lines scanner ∧ passed = earlier ++ scanner.before.reverse ∧
    rest = scanner.after ++ lines.flatMap prepare

namespace StandsAfter

variable {scanner : Scanner} {earlier : List Char} {lines : List (List Char)}

theorem stands (h : StandsAfter earlier lines scanner) :
    scanner.Stands (earlier ++ scanner.before.reverse) (scanner.after ++ lines.flatMap prepare) :=
  ⟨earlier, lines, h, rfl, rfl⟩

theorem onLine (h : StandsAfter earlier lines scanner) (hafter : scanner.after ≠ []) :
    '\n' ∉ scanner.before ∧ IsLine scanner.after ∧ scanner.lineNumber = earlier.count '\n' + 1 :=
  h.place.resolve_left fun hplace => hafter hplace.2.1

/-- The place of the scanner is that of the first character of the rest. -/
theorem location_eq (h : StandsAfter earlier lines scanner) (hafter : scanner.after ≠ []) :
    scanner.location = Location.after (earlier ++ scanner.before.reverse) := by
  obtain ⟨hbefore, -, hline⟩ := h.onLine hafter
  have hcount : scanner.before.reverse.count '\n' = 0 := by simpa [List.count_eq_zero] using hbefore
  simp [Scanner.location, Location.after, lastLine_append h.ended hbefore, hcount, hline]

/-- A scanner between two lines stands at the start of the second once that is read. -/
theorem nextLine {line : List Char} (h : StandsAfter earlier (line :: lines) scanner)
    (hafter : scanner.after = []) :
    StandsAfter earlier lines ⟨⟨lines.map .ok, none⟩, scanner.lineNumber + 1, [], prepare line⟩ where
  feed := rfl
  ended := h.ended
  whole := fun other hmem => h.whole other (List.mem_cons_of_mem _ hmem)
  place := by
    have hline := h.whole line (List.mem_cons_self ..)
    rcases h.place with ⟨-, -, hnumber⟩ | ⟨-, hnot, -⟩
    · exact .inr ⟨by simp, hline, by simp [hnumber]⟩
    · exact absurd hafter hnot.ne_nil

/-- A scanner that has used up its line stands between two lines. -/
theorem used (h : StandsAfter earlier lines scanner) :
    StandsAfter (earlier ++ scanner.before.reverse ++ scanner.after) lines
      ⟨⟨lines.map .ok, none⟩, scanner.lineNumber, [], []⟩ where
  feed := rfl
  ended := by
    rcases h.place with ⟨hbefore, hafter, -⟩ | ⟨-, ⟨body, -, hafter⟩, -⟩
    · simpa [hbefore, hafter] using h.ended
    · rw [hafter, ← List.append_assoc]
      exact lastLine_append_lineFeed _
  whole := h.whole
  place := by
    refine .inl ⟨rfl, rfl, ?_⟩
    rcases h.place with ⟨hbefore, hafter, hnumber⟩ | ⟨hbefore, ⟨body, hbody, hafter⟩, hnumber⟩
    · simp [hbefore, hafter, hnumber]
    · have hcount : scanner.before.reverse.count '\n' = 0 := by simpa [List.count_eq_zero] using hbefore
      simp [hafter, hnumber, hcount, List.count_eq_zero.mpr hbody]

end StandsAfter

/-! ## Skipping -/

/-- What it means that skipping from a place in a text has skipped the gap that stands there. -/
def SkipsGap (inComment : Bool) (passed rest : List Char) (result : Except ReadError Unit × Scanner) : Prop :=
  ∃ gap left, result.1 = .ok () ∧ rest = gap ++ left ∧ GapFrom inComment passed gap left ∧
    Stops (passed ++ gap) left ∧ Stands result.2 (passed ++ gap) left ∧ (result.2.after = [] → left = [])

/-- A gap that goes on after a line is used up. -/
theorem SkipsGap.append {passed part rest : List Char} {inComment inComment' : Bool}
    {result : Except ReadError Unit × Scanner} (h : SkipsGap inComment' (passed ++ part) rest result)
    (hpart : ∀ gap left, gap ++ left = rest → GapFrom inComment' (passed ++ part) gap left →
      GapFrom inComment passed (part ++ gap) left) : SkipsGap inComment passed (part ++ rest) result := by
  obtain ⟨gap, left, hok, rfl, hgap, hstops, hstands, hend⟩ := h
  refine ⟨part ++ gap, left, hok, by simp, hpart gap left rfl hgap, ?_, ?_, hend⟩
  · rwa [← List.append_assoc]
  · rwa [← List.append_assoc]

/-- Where a line is used up, what has been skipped of it is a part of a gap. -/
theorem Skips.usedUp {earlier before after before' : List Char} {inComment inComment' : Bool}
    (h : Skips earlier inComment before after (inComment', before', [])) {rest : List Char}
    {result : Except ReadError Unit × Scanner}
    (hnext : SkipsGap inComment' (earlier ++ before.reverse ++ after) rest result) :
    SkipsGap inComment (earlier ++ before.reverse) (after ++ rest) result := by
  obtain ⟨part, hafter, rfl, -, hgap⟩ := h
  obtain rfl : after = part := by simpa using hafter
  refine hnext.append fun gap left heq hmore => hgap gap left rest (by simpa using heq) ?_
  simpa using hmore

theorem skipLines_skipsGap (failure : Option ReadError) (reads : List (Except ReadError (List Char)))
    (inComment : Bool) {earlier : List Char} {lines : List (List Char)} (lineNumber : Nat)
    (before after : List Char) (h : StandsAfter earlier lines ⟨⟨reads, failure⟩, lineNumber, before, after⟩) :
    SkipsGap inComment (earlier ++ before.reverse) (after ++ lines.flatMap prepare)
      (skipLines failure reads inComment lineNumber before after) := by
  have hskips (inComment : Bool) {earlier : List Char} {lines : List (List Char)}
      {reads : List (Except ReadError (List Char))} {lineNumber : Nat} {before after : List Char}
      (h : StandsAfter earlier lines ⟨⟨reads, failure⟩, lineNumber, before, after⟩) :=
    skipInLine_skips h.ended inComment before after
      (h.place.imp (fun hplace => hplace.2.1) fun hplace => ⟨hplace.1, hplace.2.1⟩)
  fun_induction skipLines failure reads inComment lineNumber before after generalizing earlier lines with
  | case1 reads inComment lineNumber before after inComment' before' c tail hresult =>
      obtain ⟨part, rfl, rfl, hend, hgap⟩ := hresult ▸ hskips inComment h
      obtain ⟨rfl, hbefore, hline, hstops⟩ := hend.resolve_left (by simp)
      have hnumber := (h.onLine (by simp)).2.2
      have hplaced : StandsAfter earlier lines
          ⟨⟨reads, failure⟩, lineNumber, part.reverse ++ before, c :: tail⟩ :=
        ⟨h.feed, h.ended, h.whole, .inr ⟨hbefore, hline, hnumber⟩⟩
      have hpassed : earlier ++ (part.reverse ++ before).reverse = earlier ++ before.reverse ++ part := by simp
      refine ⟨part, c :: tail ++ lines.flatMap prepare, rfl, by simp, ?_, ?_, ?_, fun hnil => by simp at hnil⟩
      · simpa using hgap [] _ _ rfl (.outside (.nil _ _))
      · exact hpassed ▸ hstops _
      · exact hpassed ▸ hplaced.stands
  | case2 inComment lineNumber before after inComment' before' hresult line reads ih =>
      have hfeed := h.feed
      cases lines with
      | nil => simp at hfeed
      | cons line' lines =>
          obtain ⟨⟨rfl, rfl⟩, rfl⟩ : (line = line' ∧ reads = lines.map .ok) ∧ failure = none := by
            simpa using hfeed
          have hnext := ih (h.used.nextLine rfl)
          rw [List.reverse_nil, List.append_nil] at hnext
          exact (hresult ▸ hskips inComment h).usedUp hnext
  | case3 =>
      have hfeed := h.feed
      cases lines <;> simp at hfeed
  | case4 _ _ _ _ _ _ _ _ hfailure =>
      have hfeed := h.feed
      simp [hfailure] at hfeed
  | case5 inComment lineNumber before after inComment' before' hresult =>
      obtain ⟨rfl, -⟩ : lines = [] ∧ failure = none := by simpa [eq_comm] using h.feed
      refine (hresult ▸ hskips inComment h).usedUp ⟨[], [], rfl, rfl, .nil _ _, trivial, ?_, fun _ => rfl⟩
      simpa using h.used.stands

/-- What a request skips is the gap that stands where the scanner stands. -/
theorem Stands.skip {scanner : Scanner} {passed rest : List Char} (h : scanner.Stands passed rest) :
    ∃ gap left, scanner.skip.1 = .ok () ∧ rest = gap ++ left ∧ Gap passed gap left ∧
      Stops (passed ++ gap) left ∧ scanner.skip.2.Stands (passed ++ gap) left ∧
        (scanner.skip.2.after = [] → left = []) := by
  obtain ⟨earlier, lines, hafter, rfl, rfl⟩ := h
  obtain ⟨gap, left, hok, hrest, ⟨hgap⟩, hskipped⟩ := skipLines_skipsGap scanner.feed.failure scanner.feed.reads
    false scanner.lineNumber scanner.before scanner.after hafter
  exact ⟨gap, left, hok, hrest, hgap, hskipped⟩

/-! ## Taking a token -/

/-- What a request answers and where the scanner stands after it, from a place where a gap has come to its
end. -/
def Takes (passed left : List Char) (answer : Except ReadError Token × Scanner) : Prop :=
  ∃ lexeme slice later, Lexeme.first? left = some lexeme ∧ left = slice ++ later ∧ slice ≠ [] ∧
    Spells lexeme.text slice ∧ answer.1 = .ok (lexeme.toToken (Location.after passed)) ∧
      answer.2.Stands (passed ++ slice) later

namespace StandsAfter

variable {scanner : Scanner} {earlier : List Char} {lines : List (List Char)}

/-- Moving on takes a part of the rest of the line. -/
theorem move {body : List Char} (slice : List Char) (h : StandsAfter earlier lines scanner)
    (hafter : scanner.after = slice ++ (body ++ ['\n'])) (hslice : '\n' ∉ slice) (hbody : '\n' ∉ body) :
    StandsAfter earlier lines (scanner.move slice.length) where
  feed := h.feed
  ended := h.ended
  whole := h.whole
  place := by
    obtain ⟨hbefore, -, hnumber⟩ := h.onLine (by simp [hafter])
    refine .inr ⟨?_, ?_, hnumber⟩
    · simp [Scanner.move, hafter, hslice, hbefore]
    · simpa [Scanner.move, hafter] using ⟨body, hbody, rfl⟩

/-- Reading on gives the next line, if there is one, from any place on the line before it. -/
theorem readLine (h : StandsAfter earlier lines scanner) (count : Nat) :
    ∃ lines', (scanner.move count).readLine.1 = .ok () ∧
      StandsAfter (earlier ++ scanner.before.reverse ++ scanner.after) lines' (scanner.move count).readLine.2 ∧
        (scanner.move count).readLine.2.before = [] ∧
          lines.flatMap prepare = (scanner.move count).readLine.2.after ++ lines'.flatMap prepare ∧
            ((scanner.move count).readLine.2.after = [] → lines' = []) := by
  have hused := h.used
  cases lines with
  | nil =>
      refine ⟨[], ?_⟩
      simpa [Scanner.readLine, Scanner.move, h.feed] using hused
  | cons line lines =>
      refine ⟨lines, ?_⟩
      have hline := (h.whole line (List.mem_cons_self ..)).ne_nil
      simpa [Scanner.readLine, Scanner.move, h.feed, hline] using hused.nextLine rfl

/-- A scanner before a character literal that is broken after its backslash. -/
theorem takes_broken (h : StandsAfter earlier lines scanner) (hafter : scanner.after = ['\'', '\\', '\n']) :
    Takes (earlier ++ scanner.before.reverse) (scanner.after ++ lines.flatMap prepare)
      ((scanner.move 3).finishBroken (.invalid ['\'', '\\', '\n'] .invalidCharacter) scanner.location) := by
  obtain ⟨lines', hok, hnext, hbefore, hrest, hnone⟩ := h.readLine 3
  have hlocation := h.location_eq (by simp [hafter])
  have hfirst := Lexeme.first?_broken (lines.flatMap prepare)
  rcases hread : (scanner.move 3).readLine with ⟨answer, next⟩
  simp only [hread] at hok hnext hbefore hrest hnone
  subst hok
  have hfinish (lexeme : Lexeme) (location : Location) :
      (scanner.move 3).finishBroken lexeme location =
        if next.after.head? = some '\'' then
          (.ok (Lexeme.toToken { lexeme with text := lexeme.text ++ ['\''] } location), next.move 1)
        else (.ok (lexeme.toToken location), next) := by
    rw [finishBroken, hread]
  by_cases hquote : next.after.head? = some '\''
  · -- the quote with which the next line begins is taken too
    obtain ⟨tail, htail⟩ := List.head?_eq_some_iff.mp hquote
    obtain ⟨body, hbody, rfl⟩ := (htail ▸ (hnext.onLine (by simp [htail])).2.1).tail (by decide)
    have hstands := (hnext.move ['\''] htail (by decide) hbody).stands
    rw [hrest, htail] at hfirst
    rw [hafter] at hstands
    rw [hfinish, if_pos hquote, hrest, htail, hafter]
    refine ⟨_, ['\'', '\\', '\n', '\''], body ++ '\n' :: lines'.flatMap prepare, hfirst, by simp, by simp, .exact _,
      ?_, ?_⟩
    · simp [hlocation, Lexeme.invalid]
    · simpa [Scanner.move, htail, hbefore] using hstands
  · have hhead : (lines.flatMap prepare).head? ≠ some '\'' := by
      cases hnextAfter : next.after with
      | nil => simp [hrest, hnextAfter, hnone hnextAfter]
      | cons => simpa [hrest, hnextAfter] using hquote
    have hstands := hnext.stands
    rw [if_neg hhead] at hfirst
    rw [← hrest, hbefore, hafter] at hstands
    rw [hfinish, if_neg hquote, hafter]
    refine ⟨_, ['\'', '\\', '\n'], lines.flatMap prepare, hfirst, rfl, by simp, .exact _, by rw [hlocation], ?_⟩
    simpa using hstands

/-- A scanner before any other token. -/
theorem takes_unbroken {first : Char} {body : List Char} {lexeme : Lexeme} (h : StandsAfter earlier lines scanner)
    (hafter : scanner.after = first :: body ++ ['\n']) (hbody : '\n' ∉ first :: body)
    (hbroken : first :: body ≠ ['\'', '\\']) (hfirst : Lexeme.first? scanner.after = some lexeme) :
    Takes (earlier ++ scanner.before.reverse) (scanner.after ++ lines.flatMap prepare)
      (.ok (lexeme.toToken scanner.location), scanner.move lexeme.text.length) ∧
        (scanner.move lexeme.text.length).after ≠ [] := by
  have hlocation := h.location_eq (by simp [hafter])
  rw [hafter, Lexeme.first?_append_lineFeed [] hbody hbroken] at hfirst
  obtain ⟨slice, tail, hline, hne, hspells⟩ := Lexeme.begins_of_first? hfirst
  have hsame := Lexeme.first?_append_lineFeed (lines.flatMap prepare) hbody hbroken
  rw [hfirst] at hsame
  have hsplit : '\n' ∉ slice ∧ '\n' ∉ tail := by simpa [hline] using hbody
  have hslice : scanner.after = slice ++ (tail ++ ['\n']) := by simp [hafter, hline]
  have hstands := (h.move slice hslice hsplit.1 hsplit.2).stands
  rw [← hspells.length_eq] at hstands
  refine ⟨⟨lexeme, slice, tail ++ '\n' :: lines.flatMap prepare, ?_, by simp [hslice], hne, hspells,
    by rw [hlocation], ?_⟩, ?_⟩
  · simpa [hafter] using hsame
  · simpa [Scanner.move, hslice, hspells.length_eq] using hstands
  · simp [Scanner.move, hslice, hspells.length_eq]

/-- What a scanner answers that stands before a token. -/
theorem takes (h : StandsAfter earlier lines scanner) (hafter : scanner.after ≠ [])
    (hstops : Stops (earlier ++ scanner.before.reverse) (scanner.after ++ lines.flatMap prepare)) :
    ∃ lexeme, Lexeme.first? scanner.after = some lexeme ∧
      Takes (earlier ++ scanner.before.reverse) (scanner.after ++ lines.flatMap prepare)
        (if (scanner.move lexeme.text.length).after.isEmpty then
          (scanner.move lexeme.text.length).finishBroken lexeme scanner.location
        else (.ok (lexeme.toToken scanner.location), scanner.move lexeme.text.length)) := by
  obtain ⟨-, ⟨body, hbody, hline⟩, -⟩ := h.onLine hafter
  rcases body with _ | ⟨first, body⟩
  · -- a line feed does not end a gap
    simp [hline, Stops, isBlank] at hstops
  obtain ⟨lexeme, hfirst⟩ : ∃ lexeme, Lexeme.first? scanner.after = some lexeme := by
    rw [hline]
    exact Lexeme.exists_first? _ _
  refine ⟨lexeme, hfirst, ?_⟩
  by_cases hbroken : first :: body = ['\'', '\\']
  · rw [hbroken] at hline
    obtain rfl : Lexeme.invalid ['\'', '\\', '\n'] .invalidCharacter = lexeme := by
      rw [hline] at hfirst
      exact Option.some.inj ((Lexeme.first?_broken []).symm.trans hfirst)
    have hmoved : (scanner.move 3).after = [] := by simp [Scanner.move, hline]
    rw [if_pos]
    · exact h.takes_broken hline
    · simpa [Lexeme.invalid] using hmoved
  · obtain ⟨htakes, hne⟩ := h.takes_unbroken hline hbody hbroken hfirst
    rwa [if_neg (by simpa using hne)]

end StandsAfter

/-- What a scanner answers that has come to the end of the text. -/
theorem StandsAfter.atEnd {scanner : Scanner} {earlier : List Char} {lines : List (List Char)}
    (h : StandsAfter earlier lines scanner) (hafter : scanner.after = []) :
    scanner.location = ⟨max ((earlier ++ scanner.before.reverse).count '\n') 1, 1⟩ := by
  obtain ⟨hbefore, -, hnumber⟩ := h.place.resolve_right fun hplace => hplace.2.1.ne_nil hafter
  simp [Scanner.location, hbefore, hnumber]

/-- A request skips the gap that stands where the scanner stands, and then takes a token, or comes to the end of
the text. -/
theorem Stands.next {scanner : Scanner} {passed rest : List Char} (h : scanner.Stands passed rest) :
    ∃ gap left, rest = gap ++ left ∧ Gap passed gap left ∧ Stops (passed ++ gap) left ∧
      (Takes (passed ++ gap) left scanner.next ∨
        left = [] ∧ scanner.next.1 = .ok (.endOfFile ⟨max ((passed ++ gap).count '\n') 1, 1⟩) ∧
          scanner.next.2.Stands (passed ++ gap) []) := by
  obtain ⟨gap, left, hok, hrest, hgap, hstops, hstands, hend⟩ := h.skip
  refine ⟨gap, left, hrest, hgap, hstops, ?_⟩
  rcases hskip : scanner.skip with ⟨answer, later⟩
  simp only [hskip] at hok hstands hend
  subst hok
  obtain ⟨earlier, lines, hlater, hpassed, rfl⟩ := hstands
  rw [hpassed] at hstops ⊢
  by_cases hafter : later.after = []
  · have hnone := hend hafter
    have hnext : scanner.next = (.ok (.endOfFile later.location), later) := by
      simp [Scanner.next, hskip, hafter, Lexeme.first?]
    refine .inr ⟨hnone, by rw [hnext, hlater.atEnd hafter], ?_⟩
    rw [hnext]
    exact hnone ▸ hlater.stands
  · obtain ⟨lexeme, hfirst, htakes⟩ := hlater.takes hafter hstops
    have hnext : scanner.next = if (later.move lexeme.text.length).after.isEmpty then
        (later.move lexeme.text.length).finishBroken lexeme later.location
      else (.ok (lexeme.toToken later.location), later.move lexeme.text.length) := by
      simp [Scanner.next, hskip, hfirst]
    rw [hnext]
    exact .inl htakes

end Scanner

/-! ## Readings -/

/-- How a text is read from a place in it on: after each gap stands a lexeme, whose place is that of its first
character, until a gap reaches to the end of the text. -/
inductive ReadsAs : (passed rest : List Char) → List Token → Prop
  | done {passed gap : List Char} : Gap passed gap [] → ReadsAs passed gap []
  | token {passed gap slice rest : List Char} {lexeme : Lexeme} {tokens : List Token} :
      Gap passed gap (slice ++ rest) → Stops (passed ++ gap) (slice ++ rest) →
        Lexeme.first? (slice ++ rest) = some lexeme → slice ≠ [] → Spells lexeme.text slice →
          ReadsAs (passed ++ gap ++ slice) rest tokens →
            ReadsAs passed (gap ++ (slice ++ rest)) (lexeme.toToken (Location.after (passed ++ gap)) :: tokens)

/-- The end of a text, which is said to be where its last line begins. -/
def Token.endOf (text : List Char) : Token :=
  .endOfFile ⟨max (text.count '\n') 1, 1⟩

namespace ReadsAs

theorem isEnd_eq_false {passed rest : List Char} {tokens : List Token} (h : ReadsAs passed rest tokens) :
    ∀ token ∈ tokens, token.isEnd = false := by
  induction h with
  | done => simp
  | token _ _ hfirst _ _ _ ih =>
      have hkind := Lexeme.first?_ne_endOfFile hfirst
      simpa [Token.isEnd, Lexeme.toToken, hkind] using ih

theorem eq_nil_of_rest {passed : List Char} {tokens : List Token} (h : ReadsAs passed [] tokens) : tokens = [] := by
  generalize hrest : [] = rest at h
  cases h with
  | done => rfl
  | token _ _ _ hne => simp [hne] at hrest

end ReadsAs

/-- The answer to a request, given how many were made before. -/
def Scanner.answer (scanner : Scanner) (earlier : Nat) : Except ReadError Token :=
  ((fun scanner => scanner.next.2)^[earlier] scanner).next.1

namespace Scanner.Stands

variable {scanner : Scanner} {passed rest : List Char} {tokens : List Token}

/-- From wherever a scanner stands, the text can be read. -/
theorem exists_reads (h : scanner.Stands passed rest) : ∃ tokens, ReadsAs passed rest tokens := by
  induction hlength : rest.length using Nat.strong_induction_on generalizing scanner passed rest with
  | _ length ih =>
      obtain ⟨gap, left, rfl, hgap, hstops, htakes | ⟨rfl, -⟩⟩ := h.next
      · obtain ⟨lexeme, slice, later, hfirst, rfl, hne, hspells, -, hstands⟩ := htakes
        have hless : later.length < length := by
          have hslice := List.length_pos_iff.mpr hne
          simp only [← hlength, List.length_append]
          omega
        obtain ⟨tokens, hreads⟩ := ih later.length hless hstands rfl
        exact ⟨_, .token hgap hstops hfirst hne hspells hreads⟩
      · exact ⟨[], by simpa using ReadsAs.done hgap⟩

/-- A request is answered with the next token of the reading, or else the end of the text. -/
theorem next_of_reads (h : scanner.Stands passed rest) (hreads : ReadsAs passed rest tokens) :
    scanner.next.1 = .ok (tokens.head?.getD (.endOf (passed ++ rest))) ∧
      ∃ passed' rest', scanner.next.2.Stands passed' rest' ∧ ReadsAs passed' rest' tokens.tail ∧
        passed' ++ rest' = passed ++ rest ∧ (rest ≠ [] → rest'.length < rest.length) := by
  obtain ⟨gap, left, rfl, hgap, hstops, hcases⟩ := h.next
  generalize hrest : gap ++ left = rest at hreads
  cases hreads with
  | done hgap' =>
      obtain rfl := hgap.unique hstops hgap' trivial (by rw [hrest, List.append_nil])
      obtain rfl : left = [] := by simpa using hrest
      rcases hcases with ⟨lexeme, slice, later, hfirst, -⟩ | ⟨-, hanswer, hstands⟩
      · simp [Lexeme.first?] at hfirst
      · exact ⟨hanswer, passed ++ gap, [], hstands, .done (.nil _ _), by simp,
          fun hne => by simpa [List.length_pos_iff] using hne⟩
  | @token _ gap' slice rest' lexeme tokens hgap' hstops' hfirst' hne' hspells' hreads' =>
      obtain rfl := hgap.unique hstops hgap' hstops' hrest
      obtain rfl : left = slice ++ rest' := List.append_cancel_left hrest
      rcases hcases with ⟨lexeme', slice', later, hfirst, hsplit, -, hspells, hanswer, hstands⟩ | ⟨hnil, -⟩
      · obtain rfl : lexeme' = lexeme := Option.some.inj (hfirst.symm.trans hfirst')
        -- the slices are equally long
        obtain ⟨rfl, rfl⟩ : slice' = slice ∧ later = rest' :=
          List.append_inj hsplit.symm (hspells.length_eq.symm.trans hspells'.length_eq)
        refine ⟨hanswer, _, _, hstands, hreads', by simp, fun _ => ?_⟩
        have hslice := List.length_pos_iff.mpr hne'
        simp only [List.length_append]
        omega
      · simp [hne'] at hnil

/-- Whether there is anything left to ask for, and what is answered when there is nothing. -/
theorem isSpent_iff (h : scanner.Stands passed rest) :
    (scanner.isSpent = true ↔ rest = []) ∧
      (rest = [] → scanner.ending = .ok ⟨max ((passed ++ rest).count '\n') 1, 1⟩) := by
  obtain ⟨earlier, lines, hstands, rfl, rfl⟩ := h
  have hlines : lines.flatMap prepare = [] ↔ lines = [] := by
    refine ⟨fun hnil => List.eq_nil_iff_forall_not_mem.mpr fun line hmem => ?_, fun hnil => by simp [hnil]⟩
    exact (hstands.whole line hmem).ne_nil (List.flatMap_eq_nil_iff.mp hnil line hmem)
  refine ⟨by simp [isSpent, hstands.feed, hlines], fun hnil => ?_⟩
  obtain ⟨hafter, hnone⟩ := List.append_eq_nil_iff.mp hnil
  obtain ⟨hbefore, -, hnumber⟩ := hstands.place.resolve_right fun hplace => hplace.2.1.ne_nil hafter
  simp [ending, hstands.feed, hafter, hnone, hbefore, hnumber]

/-- The requests are answered with the tokens of the reading, and after these with the end of the text. -/
theorem answer (h : scanner.Stands passed rest) (hreads : ReadsAs passed rest tokens) (earlier : Nat) :
    scanner.answer earlier = .ok (tokens[earlier]?.getD (.endOf (passed ++ rest))) := by
  induction earlier generalizing scanner passed rest tokens with
  | zero => simpa [Scanner.answer, List.head?_eq_getElem?] using (h.next_of_reads hreads).1
  | succ earlier ih =>
      obtain ⟨-, passed', rest', hstands, hreads', hsame, -⟩ := h.next_of_reads hreads
      have hanswer := ih hstands hreads'
      rwa [List.getElem?_tail, hsame] at hanswer

theorem answers_within (h : scanner.Stands passed rest) (hreads : ReadsAs passed rest tokens) {requests : Nat}
    (hlength : rest.length < requests) (extra : Nat) :
    (streamWithin requests scanner).answers extra =
      tokens.map .ok ++ List.replicate (extra + 1) (.ok (.endOf (passed ++ rest))) := by
  induction requests generalizing scanner passed rest tokens extra with
  | zero => simp at hlength
  | succ requests ih =>
      unfold streamWithin
      split
      · next hspent =>
          obtain rfl := h.isSpent_iff.1.mp hspent
          obtain rfl := hreads.eq_nil_of_rest
          simp [TokenStream.answers, TokenStream.answersUntil, TokenStream.finalEvent, h.isSpent_iff.2 rfl,
            Except.map, Token.endOf]
      · next hspent =>
          have hne : rest ≠ [] := fun hnil => hspent (h.isSpent_iff.1.mpr hnil)
          obtain ⟨hanswer, passed', rest', hstands, hreads', hsame, hless⟩ := h.next_of_reads hreads
          have hmore (extra : Nat) := ih hstands hreads' (by have := hless hne; omega) extra
          rcases hnext : scanner.next with ⟨event, later⟩
          simp only [hnext, hsame] at hanswer hmore ⊢
          subst hanswer
          cases tokens with
          | nil =>
              cases extra with
              | zero => rfl
              | succ extra => exact congrArg (_ :: ·) (hmore extra)
          | cons token tokens =>
              have hend : token.isEnd = false := hreads.isEnd_eq_false token (List.mem_cons_self ..)
              have hfinal (stream : TokenStream) :
                  (stream.push (.ok token)).answers extra = .ok token :: stream.answers extra := by
                simp [TokenStream.push, TokenStream.answers, TokenStream.answersUntil, TokenStream.isFinal, hend,
                  TokenStream.finalEvent]
              rw [List.head?_cons, Option.getD_some, hfinal, hmore extra]
              rfl

/-- The stream of a scanner answers with the tokens of the reading, and then with the end of the text. -/
theorem answers (h : scanner.Stands passed rest) (hreads : ReadsAs passed rest tokens) (extra : Nat) :
    (streamWithin scanner.effort scanner).answers extra =
      tokens.map .ok ++ List.replicate (extra + 1) (.ok (.endOf (passed ++ rest))) := by
  refine h.answers_within hreads ?_ extra
  obtain ⟨earlier, lines, hstands, rfl, rfl⟩ := h
  have hlines : (lines.flatMap prepare).length ≤ effortOfReads (lines.map .ok) := by
    clear hreads hstands
    induction lines with
    | nil => simp
    | cons line lines ih =>
        have hline : (prepare line).length ≤ line.length + 1 := by
          unfold prepare
          dsimp only
          refine (List.length_filter_le _ _).trans ?_
          split <;> simp
        simp only [List.flatMap_cons, List.length_append, List.map_cons, effortOfReads]
        omega
  simp only [effort, hstands.feed, List.length_append]
  omega

end Scanner.Stands

/-! ## The lines of a text -/

namespace Text

open Scanner (prepare)

variable {c : Char} {text : List Char}

/-- A text that is not empty is scanned as one line would be. -/
theorem normalized_eq_prepare (h : text ≠ []) : normalized text = prepare text := by
  simp [normalized, prepare, List.getLast?_eq_some_getLast h]

theorem prepare_cons (h : text ≠ []) : prepare (c :: text) = [c].filter (· != '\r') ++ prepare text := by
  have hlast : (c :: text).getLast? = text.getLast? := by
    obtain ⟨first, text, rfl⟩ := List.exists_cons_of_ne_nil h
    exact List.getLast?_cons_cons
  simp only [prepare, hlast]
  split <;> simp [← List.filter_append]

theorem ne_nil_of_mem_splitAfterLineFeeds (text : List Char) :
    ∀ line ∈ splitAfterLineFeeds text, line ≠ [] := by
  fun_induction splitAfterLineFeeds text with
  | case1 => simp
  | case2 rest ih => simpa using ih
  | case3 => simp
  | case4 c rest hc piece pieces hsplit ih => simpa using fun line hmem => ih line (by simp [hsplit, hmem])

/-- What follows the last line feed of a text is empty just if the text is taken apart into nothing. -/
theorem eq_nil_of_splitAfterLineFeeds (h : splitAfterLineFeeds text = []) : text = [] := by
  rw [← flatten_splitAfterLineFeeds text, h, List.flatten_nil]

theorem isLine_prepare_singleton (hc : c ≠ '\n') : IsLine (prepare [c]) := by
  have hprepare : prepare [c] = ([c] ++ ['\n']).filter (· != '\r') := by simp [prepare, hc]
  refine ⟨[c].filter (· != '\r'), fun hmem => ?_, by rw [hprepare, List.filter_append]; rfl⟩
  exact hc (List.mem_singleton.mp (List.mem_filter.mp hmem).1).symm

/-- Every line is whole when it has been prepared. -/
theorem isLine_of_mem_splitAfterLineFeeds : ∀ line ∈ splitAfterLineFeeds text, IsLine (prepare line) := by
  fun_induction splitAfterLineFeeds text with
  | case1 => simp
  | case2 rest ih => simpa using ⟨⟨[], by simp, rfl⟩, ih⟩
  | case3 c rest hc hsplit => simpa using isLine_prepare_singleton hc
  | case4 c rest hc piece pieces hsplit ih =>
      have hpiece : piece ≠ [] := ne_nil_of_mem_splitAfterLineFeeds rest piece (by simp [hsplit])
      obtain ⟨body, hbody, hline⟩ := ih piece (by simp [hsplit])
      have hfirst : IsLine (prepare (c :: piece)) := by
        refine ⟨[c].filter (· != '\r') ++ body, ?_, by simp [prepare_cons hpiece, hline]⟩
        simp [hbody, Ne.symm hc]
      simpa [hfirst] using fun line hmem => ih line (by simp [hsplit, hmem])

/-- The lines of a text, each prepared, make up the text as it is scanned. -/
theorem flatMap_splitAfterLineFeeds (text : List Char) :
    (splitAfterLineFeeds text).flatMap prepare = normalized text := by
  have hcons {c : Char} {text : List Char} (hne : text ≠ []) :
      normalized (c :: text) = [c].filter (· != '\r') ++ normalized text := by
    rw [normalized_eq_prepare (by simp), normalized_eq_prepare hne, prepare_cons hne]
  fun_induction splitAfterLineFeeds text with
  | case1 => rfl
  | case2 rest ih =>
      rw [List.flatMap_cons, ih]
      by_cases hrest : rest = []
      · subst hrest
        rfl
      · rw [hcons hrest]
        rfl
  | case3 c rest hc hsplit =>
      obtain rfl := eq_nil_of_splitAfterLineFeeds hsplit
      rw [normalized_eq_prepare (by simp)]
      simp
  | case4 c rest hc piece pieces hsplit ih =>
      have hpiece : piece ≠ [] := ne_nil_of_mem_splitAfterLineFeeds rest piece (by simp [hsplit])
      have hrest : rest ≠ [] := by
        rintro rfl
        simp [splitAfterLineFeeds] at hsplit
      rw [hsplit, List.flatMap_cons] at ih
      rw [hcons hrest, ← ih, List.flatMap_cons, prepare_cons hpiece, List.append_assoc]

end Text

namespace Scanner

/-- At the start all of a text is still to be read. -/
theorem stands_ofText (source : String) : (ofFeed (.ofText source)).Stands [] (normalized source.toList) := by
  refine ⟨[], Text.splitAfterLineFeeds source.toList,
    ⟨rfl, rfl, Text.isLine_of_mem_splitAfterLineFeeds, ?_⟩, rfl, ?_⟩
  · exact .inl ⟨rfl, rfl, rfl⟩
  · simp [ofFeed, Text.flatMap_splitAfterLineFeeds]

/-- Whether the tokens of a text are what is returned for it before the end of the file: after as many requests
as there are tokens, every request is answered with the end of the file, where the last line begins. -/
structure Scans (source : String) (tokens : List Token) : Prop where
  notEnd : ∀ token ∈ tokens, token.isEnd = false
  answer : ∀ earlier, (ofFeed (.ofText source)).answer earlier =
    .ok (tokens[earlier]?.getD (.endOf (normalized source.toList)))
  answers : ∀ extra, (stream (.ofText source)).answers extra =
    tokens.map .ok ++ List.replicate (extra + 1) (.ok (.endOf (normalized source.toList)))

/-- What is returned for a text is how it is read. -/
theorem scans_of_reads {source : String} {tokens : List Token} (h : ReadsAs [] (normalized source.toList) tokens) :
    Scans source tokens where
  notEnd := h.isEnd_eq_false
  answer := (stands_ofText source).answer h
  answers := (stands_ofText source).answers h

theorem exists_reads (source : String) : ∃ tokens, ReadsAs [] (normalized source.toList) tokens :=
  (stands_ofText source).exists_reads

theorem Scans.unique {source : String} {tokens tokens' : List Token} (h : Scans source tokens)
    (h' : Scans source tokens') : tokens = tokens' := by
  have hanswers := (h.answers 0).symm.trans (h'.answers 0)
  simpa [List.map_inj_right (f := (Except.ok : Token → Except ReadError Token)) (by simp)] using hanswers

end Scanner

/-! ## Partitions -/

/-- How a text is parted from a place in it on: each token spells a slice that is not empty, the place of the
token is that of the first character of the slice, and before, between and after the slices stand gaps. -/
inductive Partitioned : (passed rest : List Char) → List Token → Prop
  | done {passed gap : List Char} : Gap passed gap [] → Partitioned passed gap []
  | token {passed gap slice rest : List Char} {token : Token} {tokens : List Token} :
      Gap passed gap (slice ++ rest) → slice ≠ [] → Spells token.text.toList slice →
        token.location = Location.after (passed ++ gap) → Partitioned (passed ++ gap ++ slice) rest tokens →
          Partitioned passed (gap ++ (slice ++ rest)) (token :: tokens)

theorem ReadsAs.partitioned {passed rest : List Char} {tokens : List Token} (h : ReadsAs passed rest tokens) :
    Partitioned passed rest tokens := by
  induction h with
  | done hgap => exact .done hgap
  | token hgap _ _ hne hspells _ ih => exact .token hgap hne (by simpa [Lexeme.toToken] using hspells) rfl ih

/-- Every text, as it is scanned, is parted by the tokens that are returned for it into slices that they spell
and gaps of white space, comments and lines that begin with a hash sign. -/
theorem Scanner.exists_scans_partitioned (source : String) :
    ∃ tokens, Scans source tokens ∧ Partitioned [] (normalized source.toList) tokens := by
  obtain ⟨tokens, hreads⟩ := exists_reads source
  exact ⟨tokens, scans_of_reads hreads, hreads.partitioned⟩

end FrontEnd
