import FrontEnd.Proofs.Scanned
import FrontEnd.Proofs.Unit
import Mathlib.Data.List.Forall2

/-!
# Reports of what is no token

Every piece of the source that is no token is reported once, where it stands, and in the order of the
source (`compile_reports`).

## Strategy

A piece is reported when it becomes the current token, and never otherwise: the productions themselves
record other errors only (`Place.flags`).  So the reports made so far, followed by those for the tokens
that are still to become current, are the same throughout a run (`Steps.allReports`).  At the start they
are those for all tokens of the stream (`Session.allReports_of_start`), and since a run of a unit goes on
to the end of the file, at the end they have all been made.

Only the tokens up to the first end of the file ever become current.  The end of the file is asked for
again and again, so it matters that it is not itself reported; the scanner gives it no reason
(`Token.Explained`).
-/

namespace FrontEnd

theorem Token.fromScan_reports (token : Token) : ∀ report ∈ token.reports, report.kind.fromScan = true := by
  intro report hmem
  obtain ⟨reason, -, rfl⟩ := List.mem_map.mp hmem
  cases reason <;> rfl

/-- The end of the file is not reported. -/
theorem Token.reports_of_isEnd {token : Token} (h : token.Explained) (hend : token.isEnd = true) :
    token.reports = [] := by
  have hkind : token.kind ≠ .error := by simp [show token.kind = .endOfFile by simpa [isEnd] using hend]
  have hreason : token.scanError? = none := by
    simpa using fun hsome => hkind (h.mpr hsome)
  simp [reports, hreason]

namespace TokenStream

/-- The tokens among some answers. -/
def tokensOf (answers : List (Except ReadError Token)) : List Token :=
  answers.filterMap Except.toOption

/-- The tokens from the first of some answers up to the end of the file, if that answer is a token. -/
theorem tokensOf_answersUntil_cons (final : Except ReadError Token) (token : Token)
    (events : List (Except ReadError Token)) :
    tokensOf (answersUntil final (.ok token :: events) 0) =
      token :: if token.isEnd then [] else tokensOf (answersUntil final events 0) := by
  cases hend : token.isEnd <;> simp [answersUntil, isFinal, hend, tokensOf, Except.toOption]

theorem mem_answersUntil {final event : Except ReadError Token} {events : List (Except ReadError Token)}
    {extra : Nat} (h : event ∈ answersUntil final events extra) : event ∈ events ∨ event = final := by
  induction events generalizing extra with
  | nil => exact Or.inr (List.eq_of_mem_replicate h)
  | cons first rest ih =>
      have hrest {fewer : Nat} (hmem : event ∈ answersUntil final rest fewer) :
          event ∈ first :: rest ∨ event = final :=
        (ih hmem).imp_left (List.mem_cons_of_mem _)
      have hfirst (hsame : event = first) : event ∈ first :: rest ∨ event = final :=
        Or.inl (hsame ▸ List.mem_cons_self ..)
      unfold answersUntil at h
      split at h
      · split at h
        · exact hfirst (List.mem_singleton.mp h)
        · exact (List.mem_cons.mp h).elim hfirst hrest
      · exact (List.mem_cons.mp h).elim hfirst hrest

/-- What holds of the end of the file holds of what a stream repeats at its end. -/
theorem of_finalEvent {holds : Token → Prop} (hend : ∀ location, holds (.endOfFile location))
    {stream : TokenStream} {token : Token} (h : stream.finalEvent = .ok token) : holds token := by
  cases hending : stream.ending with
  | error failure => simp [finalEvent, hending, Except.map] at h
  | ok location =>
      obtain rfl : Token.endOfFile location = token := by
        simpa [finalEvent, hending, Except.map] using h
      exact hend location

end TokenStream

namespace Cursor

open TokenStream (answersUntil tokensOf tokensOf_answersUntil_cons)

/-- The tokens that are still to become current. -/
def upcoming (cursor : Cursor) : List Token :=
  if cursor.current.isEnd then []
  else tokensOf (answersUntil cursor.stream.finalEvent cursor.pending.tail 0)

theorem upcoming_of_isEnd {cursor : Cursor} (hend : cursor.current.isEnd = true) :
    cursor.upcoming = [] := by
  simp [upcoming, hend]

/-- The current token and what is upcoming, as the answers that are pending give them. -/
theorem tokensOf_pending (cursor : Cursor) :
    tokensOf (answersUntil cursor.stream.finalEvent cursor.pending 0) =
      cursor.current :: cursor.upcoming :=
  tokensOf_answersUntil_cons _ _ _

theorem upcoming_of_pending {cursor : Cursor} {events : List (Except ReadError Token)}
    (hend : cursor.current.isEnd = false) (h : cursor.pending = .ok cursor.current :: events) :
    cursor.upcoming = tokensOf (answersUntil cursor.stream.finalEvent events 0) := by
  simp [upcoming, hend, h]

/-- The token that a move makes current is the next of those upcoming. -/
theorem upcoming_of_advance {cursor next : Cursor} {token : Token}
    (h : cursor.advance = (.ok token, next)) (hend : cursor.current.isEnd = false) :
    cursor.upcoming = next.current :: next.upcoming := by
  obtain ⟨rfl, hfinalEvent, ⟨hnot, -⟩ | ⟨-, -, hpending | ⟨hpending, hfinal, hnext⟩⟩⟩ :=
    advance_cases h
  · simp [hend] at hnot
  · rw [upcoming_of_pending hend hpending, ← hfinalEvent, tokensOf_pending]
  · -- the last of the listed answers is followed by the end of the file
    have hlast := Cursor.finalEvent_isEnd hfinal
    rw [upcoming_of_pending hend hpending, upcoming_of_isEnd hlast, hfinal]
    simp [answersUntil, tokensOf, Except.toOption]

theorem upcoming_of_peek {cursor next : Cursor} {token : Token}
    (h : cursor.peek = (.ok token, next)) : next.upcoming = cursor.upcoming := by
  obtain ⟨hcurrent, -, hfinalEvent, hcases⟩ := peek_cases h
  cases hend : cursor.current.isEnd with
  | true => rw [upcoming_of_isEnd hend, upcoming_of_isEnd (by rwa [hcurrent])]
  | false =>
      have hend' : next.current.isEnd = false := by rwa [hcurrent]
      rcases hcases with hpending | ⟨hpending, hfinal, hnext⟩ | ⟨hnot, -⟩
      · simp only [upcoming, hend, hend', hpending, hfinalEvent]
      · have hlast := Cursor.finalEvent_isEnd hfinal
        rw [upcoming_of_pending hend hpending, upcoming_of_pending hend' (by rwa [hcurrent]),
          tokensOf_answersUntil_cons, hfinal]
        simp [hlast, answersUntil, tokensOf, Except.toOption]
      · simp [hend] at hnot

end Cursor

namespace Session

/-- The reports made so far, and those for the tokens still to become current. -/
def allReports (session : Session) : List Diagnostic :=
  session.diagnostics.filter (·.kind.fromScan) ++ session.cursor.upcoming.flatMap Token.reports

end Session

/-! ## Runs -/

section

variable {place : Place} {session later : Session}

/-- A token is reported when it becomes current, and then only. -/
theorem Step.allReports (h : Step Token.Explained place session later)
    (hlawful : session.Lawful Token.Explained) : later.allReports = session.allReports := by
  cases h with
  | @flag token kind hflags hknown =>
      have hkind : kind.fromScan = false := by
        simp only [Place.flags, Bool.and_eq_true, Bool.not_eq_true'] at hflags
        exact hflags.1.1
      simp [Session.allReports, Diagnostic.atToken, hkind]
  | @consume token cursor hadvance =>
      have hreports : (cursor.current.reports).filter (·.kind.fromScan) = cursor.current.reports :=
        List.filter_eq_self.mpr cursor.current.fromScan_reports
      cases hend : session.cursor.current.isEnd with
      | true =>
          obtain rfl := Cursor.advance_of_isEnd hadvance hend
          have hnone := Token.reports_of_isEnd hlawful.current hend
          simp only [Session.allReports, hnone, List.append_nil]
      | false =>
          simp only [Session.allReports, List.filter_append, hreports,
            Cursor.upcoming_of_advance hadvance hend, List.flatMap_cons, List.append_assoc]
  | look hpeek => simp only [Session.allReports, Cursor.upcoming_of_peek hpeek]
  | declare | settle | invent | reshape => rfl

/-- Throughout a run the reports made and those still to be made are the same. -/
theorem Steps.allReports (h : Steps Token.Explained place session later)
    (hlawful : session.Lawful Token.Explained) : later.allReports = session.allReports := by
  induction h with
  | refl => rfl
  | tail hsteps hstep ih => exact (hstep.allReports (Steps.lawful hsteps hlawful)).trans ih

end

/-! ## The start of a run -/

section

open TokenStream (tokensOf)

variable {stream : TokenStream} {session : Session}

/-- A run starts with the first event of a stream, or with its end if there are no events. -/
theorem Cursor.start_cases {cursor : Cursor} (h : Cursor.start stream = .ok cursor) :
    ∃ rest, cursor = { stream := rest, current := cursor.current } ∧ rest.finalEvent = stream.finalEvent ∧
      (stream.events = .ok cursor.current :: rest.events ∨
        stream.events = [] ∧ rest = stream ∧ .ok cursor.current = stream.finalEvent) := by
  rcases hnext : stream.next with ⟨answer, rest⟩
  cases answer with
  | error failure => simp [Cursor.start, hnext] at h
  | ok token =>
      obtain rfl : _ = cursor := by simpa [Cursor.start, hnext] using h
      have hfinalEvent : rest.finalEvent = stream.finalEvent := by
        simpa [hnext] using Cursor.next_finalEvent stream
      refine ⟨rest, rfl, hfinalEvent, ?_⟩
      rcases Cursor.next_cases stream with hevents | ⟨hevents, hfinal⟩
      · rw [hnext] at hevents
        exact Or.inl hevents
      · obtain ⟨hfinal, hrest⟩ : .ok token = stream.finalEvent ∧ rest = stream := by
          simpa [hnext] using hfinal
        exact Or.inr ⟨hevents, hrest, hfinal⟩

theorem Cursor.tokensOf_of_start {cursor : Cursor} (h : Cursor.start stream = .ok cursor) :
    tokensOf (stream.answers 0) = cursor.current :: cursor.upcoming := by
  obtain ⟨rest, hcursor, hfinalEvent, hevents | ⟨hevents, -, hfinal⟩⟩ := Cursor.start_cases h
  · rw [TokenStream.answers, ← hfinalEvent, hevents, hcursor]
    exact Cursor.tokensOf_pending ⟨rest, cursor.current, none, 0⟩
  · have hlast := Cursor.finalEvent_isEnd hfinal.symm
    simp [TokenStream.answers, hevents, TokenStream.answersUntil, ← hfinal, tokensOf,
      Except.toOption, Cursor.upcoming, hlast]

theorem Cursor.answers_of_start {cursor : Cursor} {event : Except ReadError Token}
    (h : Cursor.start stream = .ok cursor) (hevent : cursor.Answers event) :
    event ∈ stream.events ∨ event = stream.finalEvent := by
  obtain ⟨rest, hcursor, hfinalEvent, hcases⟩ := Cursor.start_cases h
  rw [hcursor] at hevent
  rcases hevent with hmem | hlast
  · rcases hcases with hevents | ⟨hevents, rfl, hfinal⟩
    · rw [hevents]
      exact Or.inl hmem
    · obtain rfl : event = .ok cursor.current := by simpa [Cursor.pending, hevents] using hmem
      exact Or.inr hfinal
  · exact Or.inr (hlast.trans hfinalEvent)

/-- What holds of the end of the file and of every token that is made holds of all that are supplied. -/
theorem Cursor.holds_of_scanned {holds : Token → Prop} (hend : ∀ location, holds (.endOfFile location))
    (hformed : ∀ lexeme : Lexeme, lexeme.Formed → ∀ location, holds (lexeme.toToken location))
    {feed : LineFeed} {cursor : Cursor} {token : Token} (h : Cursor.start (Scanner.stream feed) = .ok cursor)
    (htoken : cursor.Answers (.ok token)) : holds token := by
  rcases Cursor.answers_of_start h htoken with hmem | hlast
  · exact Scanner.stream_of_formed hend hformed feed hmem
  · exact TokenStream.of_finalEvent hend hlast.symm

/-- At the start the reports are those for all tokens of the stream. -/
theorem Session.allReports_of_start (h : Session.start stream = .ok session) :
    session.allReports = (tokensOf (stream.answers 0)).flatMap Token.reports := by
  obtain ⟨hcursor, -, hdiagnostics⟩ := Session.start_cases h
  have hreports := List.filter_eq_self.mpr session.cursor.current.fromScan_reports
  rw [Session.allReports, hdiagnostics, hreports, Cursor.tokensOf_of_start hcursor,
    List.flatMap_cons]

end

/-! ## Units -/

/-- Whether a report is the one that there is of a token that is none: it is about the place and the text of the
token, and says why it is none. -/
structure Token.IsReportedAs (token : Token) (report : Diagnostic) : Prop where
  location : report.location = token.location
  text : report.text = token.text
  reason : ∃ reason, token.value = some (.error reason) ∧ report.kind = .ofScanError reason

theorem Token.scanError?_eq_some {token : Token} {reason : ScanError} :
    token.scanError? = some reason ↔ token.value = some (.error reason) := by
  unfold scanError?
  split <;> simp_all

/-- Tokens that say why they are none just if they are none are reported one by one. -/
theorem Token.forall₂_reports {tokens : List Token} (h : ∀ token ∈ tokens, token.Explained) :
    List.Forall₂ Token.IsReportedAs (tokens.filter (·.kind == .error))
      (tokens.flatMap Token.reports) := by
  induction tokens with
  | nil => exact .nil
  | cons token rest ih =>
      have hrest := ih fun other hmem => h other (List.mem_cons_of_mem _ hmem)
      have htoken := h token (List.mem_cons_self ..)
      cases hreason : token.scanError? with
      | none =>
          have hkind : token.kind ≠ .error := fun herror => by simpa [hreason] using htoken.mp herror
          simpa [hkind, Token.reports, hreason] using hrest
      | some reason =>
          have hkind : token.kind = .error := htoken.mpr (by simp [hreason])
          have hvalue : token.value = some (.error reason) := Token.scanError?_eq_some.mp hreason
          simpa [hkind, Token.reports, hreason] using
            List.Forall₂.cons ⟨rfl, rfl, reason, hvalue, rfl⟩ hrest

open TokenStream (tokensOf) in
/-- Of every text that is compiled to its end, the errors that say of a piece of it that it is no token
are, in order and each once, those of the pieces for which the scanner supplies no token: each has the
reason, the place and the text of the piece. -/
theorem compile_reports {feed : LineFeed} {unit : CompilationUnit}
    (h : compile (Scanner.stream feed) = .ok unit) :
    List.Forall₂ Token.IsReportedAs
      ((tokensOf ((Scanner.stream feed).answers 0)).filter (·.kind == .error))
      (unit.diagnostics.filter (·.kind.fromScan)) := by
  have hexplained (session : Session) (hstart : Session.start (Scanner.stream feed) = .ok session)
      (token : Token) (htoken : session.cursor.Answers (.ok token)) : token.Explained :=
    Cursor.holds_of_scanned Token.explained_endOfFile (fun _ hlexeme => hlexeme.explained)
      (Session.start_cases hstart).1 htoken
  have hitems (session : Session) (hstart : Session.start (Scanner.stream feed) = .ok session) :=
    Production.traced_items (lawful_unitTable (hexplained session hstart))
      (SymbolTable.hosts_unitTable _)
  obtain ⟨session, later, hstart, hsteps, -, ⟨-, hend⟩, -, hdiagnostics⟩ := compile_traced h hitems
  -- all reports have been made at the end of the file
  have hreports : unit.diagnostics.filter (·.kind.fromScan) =
      (tokensOf ((Scanner.stream feed).answers 0)).flatMap Token.reports := calc
    _ = later.allReports := by
      rw [Session.allReports, Cursor.upcoming_of_isEnd hend, hdiagnostics, List.flatMap_nil,
        List.append_nil]
    _ = session.allReports := hsteps.allReports (lawful_unitTable (hexplained session hstart))
    _ = _ := Session.allReports_of_start hstart
  rw [hreports]
  refine Token.forall₂_reports fun token hmem => ?_
  obtain ⟨event, hevent, htoken⟩ := List.mem_filterMap.mp hmem
  obtain rfl : event = .ok token := by
    cases event with
    | error failure => simp [Except.toOption] at htoken
    | ok found => simpa [Except.toOption] using htoken
  rcases TokenStream.mem_answersUntil hevent with hlisted | hlast
  · exact Scanner.explained_stream feed hlisted
  · exact TokenStream.of_finalEvent Token.explained_endOfFile hlast.symm

/-- A stray character stands between two declarations, and another where a name is looked for. -/
theorem compile_reports_strayCharacters :
    ∃ unit, compileText "int a; @ int `;" = .ok unit ∧
      unit.diagnostics.filter (·.kind.fromScan) =
        [⟨.invalidCharacter, ⟨1, 8⟩, "@"⟩, ⟨.invalidCharacter, ⟨1, 14⟩, "`"⟩] ∧
        List.Forall₂ Token.IsReportedAs
          ((TokenStream.tokensOf ((Scanner.stream (.ofText "int a; @ int `;")).answers 0)).filter
            (·.kind == .error))
          (unit.diagnostics.filter (·.kind.fromScan)) := by
  have hcompiled : ∃ unit, compileText "int a; @ int `;" = .ok unit ∧
      unit.diagnostics.filter (·.kind.fromScan) =
        [⟨.invalidCharacter, ⟨1, 8⟩, "@"⟩, ⟨.invalidCharacter, ⟨1, 14⟩, "`"⟩] :=
    exists_compiled (by decide +kernel)
  obtain ⟨unit, hunit, hreports⟩ := hcompiled
  exact ⟨unit, hunit, hreports, compile_reports hunit⟩

end FrontEnd
