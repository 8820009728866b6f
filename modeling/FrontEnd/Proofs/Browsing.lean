import FrontEnd.Browser.Display
import FrontEnd.Proofs.Order.Routine
import FrontEnd.Proofs.Request

/-!
# Browsing a unit

However keys are pressed, the focus is moved and the browser is drawn, an error is selected if there is one, and a line
if there is an error; both are within what the browser shows, which stays what it was (`Browser.selection_inRange`).

Lines are counted twice: by the scanner as it reads them, which is where the lines of the errors come from, and by the
browser, which takes the source apart to bound the selected line.

## Strategy

The scanner counts a line for each that its feed delivers, and the feed of a text delivers the lines of the text
(`locatedIn_of_compileText`).  All that an event can do is listed once (`Browser.Effect`); none of it touches what is
shown (`Browser.Shows`), and the selection stays in range (`Browser.InRange`) because the errors are on lines of the
source.
-/

namespace FrontEnd

open TokenStream (tokensOf)
open LineFeed (delivered delivered_append)

/-! ## The last line of a text -/

namespace Scanner

/-- The number of the line on which a scanner ends that goes through all its feed. -/
def finalLine (scanner : Scanner) : Nat :=
  scanner.lineNumber + (delivered scanner.feed.reads).length

/-- A line is counted when it is read, and was still to be read before. -/
theorem finalLine_next (scanner : Scanner) : scanner.next.2.finalLine = scanner.finalLine := by
  obtain ⟨done, hdone, hline, -⟩ := (advances_next scanner).reads
  calc scanner.next.2.lineNumber + (delivered scanner.next.2.feed.reads).length
      = scanner.lineNumber + ((delivered done).length + (delivered scanner.next.2.feed.reads).length) := by
        rw [hline, Nat.add_assoc]
    _ = scanner.lineNumber + (delivered scanner.feed.reads).length := by
        rw [hdone, delivered_append, List.length_append]

theorem lineNumber_le_finalLine (scanner : Scanner) : scanner.lineNumber ≤ scanner.finalLine :=
  Nat.le_add_right _ _

/-- A scanner that is spent has nothing to give but the end of the file, on the line on which it is. -/
theorem line_of_mem_ending {scanner : Scanner} {token : Token}
    (h : token ∈ TokenStream.supplied ⟨[], scanner.ending⟩) : token.line = max scanner.lineNumber 1 := by
  obtain ⟨answer, hanswer, htoken⟩ := List.mem_filterMap.mp h
  obtain rfl : answer = scanner.ending.map Token.endOfFile := List.mem_singleton.mp hanswer
  cases hending : scanner.ending.map Token.endOfFile with
  | error failure => simp [hending, Except.toOption] at htoken
  | ok last =>
      obtain rfl : last = token := by simpa [hending, Except.toOption] using htoken
      exact line_of_ending hending.symm

/-- No token stands beyond the final line. -/
theorem line_le_of_mem_streamWithin (requests : Nat) (scanner : Scanner) :
    ∀ token ∈ (streamWithin requests scanner).supplied, token.line ≤ max scanner.finalLine 1 := by
  have hspent (scanner : Scanner) :
      ∀ token ∈ TokenStream.supplied ⟨[], scanner.ending⟩, token.line ≤ max scanner.finalLine 1 := by
    intro token hmem
    have hle := scanner.lineNumber_le_finalLine
    rw [line_of_mem_ending hmem]
    omega
  induction requests generalizing scanner with
  | zero => exact hspent scanner
  | succ requests ih =>
      unfold streamWithin
      split
      · exact hspent scanner
      · rw [TokenStream.supplied_push]
        intro token hmem
        rcases List.mem_append.mp hmem with hanswer | hlater
        · have hfirst : scanner.next.1 = .ok token := by
            cases hnext : scanner.next.1 with
            | error failure => simp [hnext, Except.toOption] at hanswer
            | ok first => simp_all [Except.toOption]
          have hline := (scanner.lines_of_next.2 token hfirst).2
          have hle := scanner.next.2.lineNumber_le_finalLine
          rw [finalLine_next] at hle
          omega
        · rw [← finalLine_next]
          exact ih scanner.next.2 token hlater

end Scanner

/-- Whether the errors of a unit are on lines of a source, which has one even if it is empty. -/
def CompilationUnit.LocatedIn (unit : CompilationUnit) (source : String) : Prop :=
  ∀ report ∈ unit.diagnostics,
    1 ≤ report.location.line ∧ report.location.line ≤ max (Text.lines source).length 1

/-- The errors of a text are on its lines. -/
theorem locatedIn_of_compileText {source : String} {unit : CompilationUnit} (h : compileText source = .ok unit) :
    unit.LocatedIn source := by
  obtain ⟨later, hordered, hunit⟩ := compile_ordered h
  rw [hunit]
  intro report hmem
  obtain ⟨token, htoken, hlocation, -⟩ := hordered.reports report hmem
  have hlast : (Scanner.ofFeed (.ofText source)).finalLine = (Text.lines source).length := by
    simp [Scanner.finalLine, Scanner.ofFeed, LineFeed.ofText, delivered, Text.lines, Except.toOption]
  have hsupplied := (TokenStream.tokensOf_answers_sublist _).subset htoken
  have hle := Scanner.line_le_of_mem_streamWithin _ _ token hsupplied
  rw [hlast] at hle
  rw [hlocation]
  exact ⟨hordered.scanned.positive token htoken, hle⟩

/-! ## The lines with errors -/

/-- Numbers in order stay so without duplicates, and are then strictly increasing. -/
theorem pairwise_eraseDups {numbers : List Nat} (h : numbers.Pairwise (· ≤ ·)) :
    numbers.eraseDups.Pairwise (· < ·) := by
  induction hlength : numbers.length using Nat.strong_induction_on generalizing numbers with
  | _ length ih =>
      cases numbers with
      | nil => exact .nil
      | cons first rest =>
          obtain ⟨hfirst, hrest⟩ := List.pairwise_cons.mp h
          rw [List.eraseDups_cons]
          refine List.pairwise_cons.mpr ⟨fun later hmem => ?_, ?_⟩
          · obtain ⟨hlater, hne⟩ := List.mem_filter.mp (List.mem_eraseDups.mp hmem)
            have hle := hfirst later hlater
            have hne : later ≠ first := by simpa using hne
            omega
          · refine ih _ ?_ (hrest.filter _) rfl
            have hle := List.length_filter_le (fun later => !later == first) rest
            rw [List.length_cons] at hlength
            omega

namespace Browser

theorem pairwise_linesOf (diagnostics : List Diagnostic) : (linesOf diagnostics).Pairwise (· < ·) := by
  have hsorted : ((diagnostics.map (·.location.line)).mergeSort fun a b => decide (a ≤ b)).Pairwise
      fun a b => decide (a ≤ b) = true :=
    List.pairwise_mergeSort (by simpa using fun _ _ _ => Nat.le_trans) (by simpa using Nat.le_total) _
  exact pairwise_eraseDups (hsorted.imp of_decide_eq_true)

theorem mem_linesOf {diagnostics : List Diagnostic} {line : Nat} :
    line ∈ linesOf diagnostics ↔ ∃ report ∈ diagnostics, report.location.line = line := by
  simp [linesOf, List.mem_eraseDups, List.mem_mergeSort]

/-! ## Events -/

/-- What can happen to a browser. -/
inductive Event where
  | press (key : Key)
  | focus (pane : Pane)
  | draw (screen : Screen) (milliseconds : Nat)

/-- The browser after an event. -/
def handle (browser : Browser) : Event → Browser
  | .press key => browser.press key
  | .focus pane => { browser with focus := pane }
  | .draw screen milliseconds => (browser.draw screen milliseconds).2

/-- The browser after some events, one after another. -/
def after (browser : Browser) (events : List Event) : Browser :=
  events.foldl handle browser

/-- All that an event can do to a browser: it moves the focus and the scroll offsets, quits, selects a line, or selects
an error together with its line; where there is no error to select, it says so. -/
inductive Effect (browser : Browser) : Browser → Prop
  | turn (focus : Pane) (sourceScroll symbolScroll codeScroll : Nat) :
      Effect browser { browser with focus, sourceScroll, symbolScroll, codeScroll }
  | quit : Effect browser { browser with hasQuit := true }
  | line (number : Nat) : 1 ≤ number → number ≤ max browser.selectedLine browser.lastLine →
      Effect browser { browser with selectedLine := number }
  | error (index : Nat) (report : Diagnostic) (status : String) (focus : Pane) :
      browser.unit.diagnostics[index]? = some report →
        Effect browser
          { browser with selectedError := index, selectedLine := report.location.line, status, focus }
  | none (status : String) (focus : Pane) : Effect browser { browser with status, focus }

theorem selectError_cases (browser : Browser) (index : Nat) :
    (∃ status, browser.selectError index = { browser with status }) ∨
      ∃ selected report status, browser.unit.diagnostics[selected]? = some report ∧
        browser.selectError index =
          { browser with selectedError := selected, selectedLine := report.location.line, status } := by
  unfold selectError
  dsimp only
  split
  · exact .inl ⟨_, rfl⟩
  · next report hreport => exact .inr ⟨_, report, _, hreport, rfl⟩

theorem effect_selectError (browser : Browser) (index : Nat) : browser.Effect (browser.selectError index) := by
  rcases browser.selectError_cases index with ⟨status, hselect⟩ | ⟨selected, report, status, hreport, hselect⟩
  · exact hselect ▸ .none status browser.focus
  · exact hselect ▸ .error selected report status browser.focus hreport

theorem effect_moveUp (browser : Browser) : browser.Effect browser.moveUp := by
  have hlast : 1 ≤ browser.lastLine := Nat.le_max_right _ 1
  unfold moveUp
  split
  · exact .line _ (Nat.le_max_right _ 1) (by omega)
  · exact browser.effect_selectError _
  · exact .turn _ _ _ _
  · exact .turn _ _ _ _

theorem effect_moveDown (browser : Browser) : browser.Effect browser.moveDown := by
  have hlast : 1 ≤ browser.lastLine := Nat.le_max_right _ 1
  unfold moveDown
  split
  · exact .line _ (by omega) (by omega)
  · exact browser.effect_selectError _
  · exact .turn _ _ _ _
  · exact .turn _ _ _ _

theorem effect_press (browser : Browser) (key : Key) : browser.Effect (browser.press key) := by
  cases key with
  | escape => exact .quit
  | tab => exact .turn browser.focus.next _ _ _
  | backTab => exact .turn browser.focus.previous _ _ _
  | up => exact browser.effect_moveUp
  | down => exact browser.effect_moveDown
  | left => exact .turn browser.focus _ _ _
  | enter =>
      -- an error is selected, and the focus moves to its line
      unfold press
      rcases browser.selectError_cases browser.selectedError with
        ⟨status, hselect⟩ | ⟨selected, report, status, hreport, hselect⟩
      · exact hselect ▸ .none status .source
      · exact hselect ▸ .error selected report status .source hreport
  | character c =>
      by_cases hquit : c = 'q' ∨ c = 'Q'
      · rcases hquit with rfl | rfl
        · exact .quit
        · exact .quit
      · have hpress : browser.press (.character c) = browser := by simp_all [press]
        rw [hpress]
        exact .turn browser.focus _ _ _

theorem effect_handle (browser : Browser) (event : Event) : browser.Effect (browser.handle event) := by
  cases event with
  | press key => exact browser.effect_press key
  | focus pane => exact .turn pane _ _ _
  | draw screen milliseconds => exact .turn browser.focus _ _ _

/-! ## What is kept -/

variable {unit : CompilationUnit} {source : String} {browser later : Browser}

/-- Whether a browser shows a unit and its source. -/
structure Shows (unit : CompilationUnit) (source : String) (browser : Browser) : Prop where
  unit_eq : browser.unit = unit
  source_eq : browser.source = source
  symbolLines_eq : browser.symbolLines = CrossReference.listing unit.table
  codeLines_eq : browser.codeLines = Code.programLines unit.table
  errorLines_eq : browser.errorLines = linesOf unit.diagnostics

/-- Whether the selected error is one of the errors of a unit and the selected line is one of those of its source, as
far as there are any. -/
structure InRange (unit : CompilationUnit) (source : String) (browser : Browser) : Prop where
  error_le : browser.selectedError ≤ unit.diagnostics.length - 1
  line_le : browser.selectedLine ≤ max (Text.lines source).length 1
  nil_of_line : browser.selectedLine = 0 → unit.diagnostics = []

theorem shows_ofUnit (unit : CompilationUnit) (source : String) : (ofUnit unit source).Shows unit source :=
  ⟨rfl, rfl, rfl, rfl, rfl⟩

theorem inRange_ofUnit (h : unit.LocatedIn source) : (ofUnit unit source).InRange unit source := by
  have hselected : (ofUnit unit source).selectedLine = (unit.diagnostics.head?.map (·.location.line)).getD 0 := rfl
  cases hreports : unit.diagnostics with
  | nil =>
      rw [hreports] at hselected
      exact ⟨Nat.zero_le _, hselected ▸ Nat.zero_le _, fun _ => hreports⟩
  | cons report reports =>
      obtain ⟨hfirst, hlast⟩ := h report (hreports ▸ List.mem_cons_self ..)
      rw [hreports] at hselected
      exact ⟨Nat.zero_le _, hselected ▸ hlast, fun hzero => absurd (hselected.symm.trans hzero) (Nat.ne_of_gt hfirst)⟩

theorem Shows.of_effect (h : browser.Shows unit source) (heffect : browser.Effect later) :
    later.Shows unit source := by
  obtain ⟨hunit, hsource, hsymbols, hcode, herrors⟩ := h
  cases heffect <;> exact ⟨hunit, hsource, hsymbols, hcode, herrors⟩

theorem InRange.of_effect (h : browser.InRange unit source) (hshows : browser.Shows unit source)
    (hlocated : unit.LocatedIn source) (heffect : browser.Effect later) : later.InRange unit source := by
  cases heffect with
  | turn | quit | none => exact ⟨h.error_le, h.line_le, h.nil_of_line⟩
  | line number hfirst hlast =>
      have hlast : number ≤ max (Text.lines source).length 1 :=
        Nat.le_trans hlast (Nat.max_le.mpr ⟨h.line_le, by rw [lastLine, hshows.source_eq]⟩)
      exact ⟨h.error_le, hlast, fun hzero => absurd hzero (Nat.ne_of_gt hfirst)⟩
  | error index report status focus hreport =>
      rw [hshows.unit_eq] at hreport
      obtain ⟨hlt, -⟩ := List.getElem?_eq_some_iff.mp hreport
      obtain ⟨hfirst, hlast⟩ := hlocated report (List.mem_of_getElem? hreport)
      exact ⟨Nat.le_sub_one_of_lt hlt, hlast, fun hzero => absurd hzero (Nat.ne_of_gt hfirst)⟩

theorem Effect.hasQuit (h : browser.Effect later) (hquit : browser.hasQuit = true) : later.hasQuit = true := by
  cases h with
  | quit => rfl
  | turn | line | error | none => exact hquit

/-- What holds of a browser and is kept by every event holds after any events. -/
theorem keeps_after {holds : Browser → Prop} (hkeeps : ∀ browser event, holds browser → holds (browser.handle event))
    (h : holds browser) (events : List Event) : holds (browser.after events) := by
  induction events generalizing browser with
  | nil => exact h
  | cons event events ih => exact ih (hkeeps browser event h)

theorem after_append (browser : Browser) (events more : List Event) :
    browser.after (events ++ more) = (browser.after events).after more :=
  List.foldl_append

/-- **The selection stays in range, and what is shown stays the same.**  After any events, an error is selected if
there is one; a line of the source is, unless there is no error; the lines with errors are those of the errors, each
once and in order; and a browser that has quit does not go on. -/
theorem selection_inRange {source : String} {unit : CompilationUnit} (h : compileText source = .ok unit)
    (events : List Event) :
    let browser := (ofUnit unit source).after events
    let last := max 1 (Text.lines source).length
    (unit.diagnostics = [] ∧ browser.selectedError = 0 ∨ browser.selectedError < unit.diagnostics.length) ∧
      (browser.selectedLine ≤ last ∧ (browser.selectedLine = 0 → unit.diagnostics = [])) ∧
      ((∀ line ∈ browser.errorLines, 1 ≤ line ∧ line ≤ last) ∧ browser.errorLines.Pairwise (· < ·) ∧
        ∀ line, line ∈ browser.errorLines ↔ ∃ report ∈ unit.diagnostics, report.location.line = line) ∧
      (browser.unit = unit ∧ browser.source = source ∧
        browser.symbolLines = CrossReference.listing unit.table ∧ browser.codeLines = Code.programLines unit.table) ∧
      ∀ earlier, earlier <+: events → ((ofUnit unit source).after earlier).hasQuit = true → browser.hasQuit = true := by
  intro browser last
  have hlocated := locatedIn_of_compileText h
  have hlast : max (Text.lines source).length 1 = last := Nat.max_comm _ _
  have hstep (browser : Browser) (event : Event) (hkept : browser.Shows unit source ∧ browser.InRange unit source) :
      (browser.handle event).Shows unit source ∧ (browser.handle event).InRange unit source :=
    have heffect := browser.effect_handle event
    ⟨hkept.1.of_effect heffect, hkept.2.of_effect hkept.1 hlocated heffect⟩
  obtain ⟨hshows, hrange⟩ := keeps_after hstep ⟨shows_ofUnit unit source, inRange_ofUnit hlocated⟩ events
  refine ⟨?_, ⟨hlast ▸ hrange.line_le, hrange.nil_of_line⟩, ?_,
    ⟨hshows.unit_eq, hshows.source_eq, hshows.symbolLines_eq, hshows.codeLines_eq⟩, ?_⟩
  · have hle := hrange.error_le
    cases hreports : unit.diagnostics with
    | nil => exact .inl ⟨rfl, by simpa [hreports] using hle⟩
    | cons report reports =>
        rw [hreports, List.length_cons, Nat.add_sub_cancel] at hle
        exact .inr (Nat.lt_succ_of_le hle)
  · rw [hshows.errorLines_eq]
    refine ⟨fun line hline => ?_, pairwise_linesOf _, fun line => mem_linesOf⟩
    obtain ⟨report, hreport, rfl⟩ := mem_linesOf.mp hline
    exact hlast ▸ hlocated report hreport
  · rintro earlier ⟨more, rfl⟩ hquit
    show ((ofUnit unit source).after (earlier ++ more)).hasQuit = true
    rw [after_append]
    exact keeps_after (fun browser event => (effect_handle browser event).hasQuit) hquit more

/-- Of two errors the second is selected and its line gone to, and then, when the browser has already quit, the line
before. -/
theorem selection_inRange_quit :
    let source := "void p() \x7b\n  int x;\n  x = 1.5;\n  x = 'c';\n\x7d"
    let events : List Event := [.focus .diagnostics, .press .down, .press .down, .draw (.blank 20 11) 0, .press .enter,
      .press (.character 'q'), .press .up]
    ∃ unit, compileText source = .ok unit ∧ unit.diagnostics.map (·.location.line) = [3, 4] ∧
      let browser := (ofUnit unit source).after events
      (browser.selectedError = 1 ∧ browser.selectedLine = 3 ∧ browser.selectedLine ≤ max 1 (Text.lines source).length) ∧
        (browser.errorLines.Pairwise (· < ·) ∧ ∀ line, line ∈ browser.errorLines ↔ line ∈ [3, 4]) ∧
        browser.unit = unit ∧ browser.hasQuit = true := by
  intro source events
  have hcompiled : ∃ unit, compileText source = .ok unit ∧
      (unit.diagnostics.map (·.location.line) = [3, 4] ∧ ((ofUnit unit source).after events).selectedError = 1 ∧
        ((ofUnit unit source).after events).selectedLine = 3 ∧
        ((ofUnit unit source).after (events.take 6)).hasQuit = true) :=
    exists_compiled (by decide +kernel)
  obtain ⟨unit, hunit, hplaces, herror, hline, hquit⟩ := hcompiled
  obtain ⟨-, ⟨hle, -⟩, ⟨-, hsorted, hlines⟩, ⟨hkept, -⟩, hstays⟩ := selection_inRange hunit events
  have hlisted (line : Nat) : line ∈ ((ofUnit unit source).after events).errorLines ↔ line ∈ [3, 4] := by
    rw [hlines, ← hplaces, List.mem_map]
  exact ⟨unit, hunit, hplaces, ⟨herror, hline, hle⟩, ⟨hsorted, hlisted⟩, hkept,
    hstays _ (List.take_prefix 6 events) hquit⟩

end Browser

end FrontEnd
