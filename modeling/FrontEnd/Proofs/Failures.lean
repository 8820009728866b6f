import FrontEnd.Proofs.Completion
import FrontEnd.Proofs.Mirrors.Unit
import FrontEnd.Proofs.Reports

/-!
# Compilations fail just where the source does

A compilation is ended by a failure to read and by nothing else: where the stream never fails, it comes to its
end and no failure is among the errors that it records; and where the stream fails after some tokens, the
compilation fails too, at the line of the last of them (`compile_failures`).  In both cases it may also find
that it makes no progress, which takes an improper token.

## Strategy

Whichever production asks for the token that cannot be read, by a move or by a look, the cursor stands before
the failure with nothing between (`Cut.unreadable`).  So it is enough that all answers before which a cursor
stands are the last tokens of the list (`Cursor.Draws`), which every step preserves: where the next answer
is the failure, the current token is the last of all.
-/

namespace FrontEnd

open Production

/-! ## What is recorded -/

section

variable {known : Token → Prop} {place : Place} {session later : Session}

/-- A failure is not recorded. -/
theorem Step.not_fatal (h : Step known place session later)
    (hsession : ∀ report ∈ session.diagnostics, report.kind.isFatal = false) :
    ∀ report ∈ later.diagnostics, report.kind.isFatal = false := by
  cases h with
  | @flag token kind hflags _ =>
      simp only [Place.flags, Bool.and_eq_true, Bool.not_eq_true'] at hflags
      exact List.forall_mem_append.mpr ⟨hsession, List.forall_mem_singleton.mpr hflags.1.2⟩
  | @consume _ cursor _ =>
      refine List.forall_mem_append.mpr ⟨hsession, fun report hmem => ?_⟩
      obtain ⟨reason, -, rfl⟩ := List.mem_map.mp hmem
      cases reason <;> rfl
  | look | declare | settle | invent | reshape => exact hsession

theorem Steps.not_fatal (h : Steps known place session later)
    (hsession : ∀ report ∈ session.diagnostics, report.kind.isFatal = false) :
    ∀ report ∈ later.diagnostics, report.kind.isFatal = false := by
  induction h with
  | refl => exact hsession
  | tail _ hstep ih => exact hstep.not_fatal ih

end

/-! ## Outcomes -/

/-- A compilation comes to its end at the end of the file, or is interrupted where a run can be. -/
theorem compile_outcome {known : Token → Prop} {stream : TokenStream} {cursor : Cursor}
    (hstart : Cursor.start stream = .ok cursor)
    (hknown : ∀ token, cursor.Answers (.ok token) → known token) :
    (∃ unit later, compile stream = .ok unit ∧ Steps known .topLevel (Session.opened cursor) later ∧
      later.cursor.current.isEnd = true ∧ unit.diagnostics = later.diagnostics) ∨
      ∃ cause, compile stream = .error cause ∧ Cut known .topLevel (Session.opened cursor) cause := by
  have hlawful : (Session.opened cursor).Lawful known :=
    ⟨hknown, SymbolTable.valid_unitTable, fun _ => SymbolTable.namesTypes_unitTable⟩
  have hitems := traced_items hlawful (SymbolTable.hosts_unitTable _)
  cases hrun : items (Session.opened cursor) with
  | ok outcome =>
      obtain ⟨program, later⟩ := outcome
      obtain ⟨hsteps, -, -, hend⟩ := (leads_of_ok hrun).mp hitems
      refine Or.inl ⟨.ofOutcome (program, later), later, ?_, hsteps, hend, rfl⟩
      rw [compile_eq hstart, hrun]
      rfl
  | error cause =>
      refine Or.inr ⟨cause, ?_, (leads_of_error hrun).mp hitems⟩
      rw [compile_eq hstart, hrun]
      rfl

/-! ## Streams that never fail -/

/-- Whether no answer of a stream is a failure. -/
def TokenStream.NeverFails (stream : TokenStream) : Prop :=
  ∀ failure, .error failure ∉ stream.events ∧ stream.finalEvent ≠ .error failure

theorem TokenStream.NeverFails.exists_start {stream : TokenStream} (h : stream.NeverFails) :
    ∃ cursor, Cursor.start stream = .ok cursor := by
  rcases hnext : stream.next with ⟨answer, rest⟩
  cases answer with
  | ok token => exact ⟨{ stream := rest, current := token }, by simp [Cursor.start, hnext]⟩
  | error failure =>
      rcases Cursor.next_cases stream with hevents | ⟨-, hfinal⟩
      · rw [hnext] at hevents
        exact absurd (hevents ▸ List.mem_cons_self ..) (h failure).1
      · rw [hnext] at hfinal
        exact absurd (congrArg Prod.fst hfinal).symm (h failure).2

/-- Where a stream never fails, a compilation that does not come to its end makes no progress. -/
theorem TokenStream.NeverFails.compile {stream : TokenStream} (h : stream.NeverFails) :
    (∃ unit, FrontEnd.compile stream = .ok unit ∧ ∀ report ∈ unit.diagnostics, report.kind ≠ .inputFailure) ∨
      FrontEnd.compile stream = .error .unfinished ∧
        ∃ token, .ok token ∈ stream.events ∧ ¬ token.Proper := by
  obtain ⟨cursor, hstart⟩ := h.exists_start
  have hanswers (token : Token) (htoken : cursor.Answers (.ok token)) :
      .ok token ∈ stream.events ∨ stream.finalEvent = .ok token :=
    (Cursor.answers_of_start hstart htoken).imp_right Eq.symm
  rcases compile_outcome hstart hanswers with ⟨unit, later, hunit, hsteps, -, hsame⟩ | ⟨cause, hcause, hcut⟩
  · refine Or.inl ⟨unit, hunit, fun report hmem hkind => ?_⟩
    have hopened : ∀ report ∈ (Session.opened cursor).diagnostics, report.kind.isFatal = false := by
      intro report hmem
      obtain ⟨reason, -, rfl⟩ := List.mem_map.mp hmem
      cases reason <;> rfl
    have hnot := hsteps.not_fatal hopened report (hsame ▸ hmem)
    rw [hkind] at hnot
    cases hnot
  · cases hcut with
    | @unreadable _ failure hsteps hfails =>
        rcases Cursor.answers_of_start hstart (hsteps.answers hfails.answers) with hmem | hfinal
        · exact absurd hmem (h failure).1
        · exact absurd hfinal.symm (h failure).2
    | @unfinished token hknown himproper =>
        refine Or.inr ⟨hcause, token, hknown.resolve_right fun hfinal => ?_, himproper⟩
        -- the end of the file that is repeated is proper
        cases hending : stream.ending with
        | error failure => simp [TokenStream.finalEvent, hending, Except.map] at hfinal
        | ok location =>
            obtain rfl : Token.endOfFile location = token := by
              simpa [TokenStream.finalEvent, hending, Except.map] using hfinal
            exact himproper (Token.proper_endOfFile location)

/-! ## Streams that fail -/

/-- Whether the answers before which a cursor stands are the last tokens of a list, and then a failure. -/
structure Cursor.Draws (cursor : Cursor) (tokens : List Token) (failure : ReadError) : Prop where
  pending : cursor.pending <:+ tokens.map .ok
  final : cursor.stream.finalEvent = .error failure

namespace Cursor.Draws

variable {cursor next : Cursor} {tokens : List Token} {token : Token} {failure cause : ReadError}

theorem mem_of_answers (h : cursor.Draws tokens failure) (htoken : cursor.Answers (.ok token)) :
    token ∈ tokens := by
  rcases htoken with hmem | hfinal
  · obtain ⟨other, hother, hsame⟩ := List.mem_map.mp (h.pending.subset hmem)
    obtain rfl := Except.ok.inj hsame
    exact hother
  · rw [h.final] at hfinal
    cases hfinal

theorem advance (h : cursor.Draws tokens failure) (hend : cursor.current.isEnd = false)
    (hadvance : cursor.advance = (.ok token, next)) : next.Draws tokens failure := by
  obtain ⟨-, hfinal, ⟨hnot, -⟩ | ⟨-, -, hpending | ⟨-, hlast, -⟩⟩⟩ := advance_cases hadvance
  · rw [hend] at hnot
    cases hnot
  · have hsuffix := h.pending
    rw [hpending] at hsuffix
    exact ⟨(List.suffix_cons _ _).trans hsuffix, hfinal.trans h.final⟩
  · rw [h.final] at hlast
    cases hlast

theorem peek (h : cursor.Draws tokens failure) (hend : cursor.current.isEnd = false)
    (hpeek : cursor.peek = (.ok token, next)) : next.Draws tokens failure := by
  obtain ⟨-, -, hfinal, hpending | ⟨-, hlast, -⟩ | ⟨hnot, -⟩⟩ := peek_cases hpeek
  · exact ⟨hpending ▸ h.pending, hfinal.trans h.final⟩
  · rw [h.final] at hlast
    cases hlast
  · rw [hend] at hnot
    cases hnot

/-- Where the next token cannot be read, the current one is the last. -/
theorem getLast?_eq (h : cursor.Draws tokens failure) (hfails : cursor.Fails cause) :
    cause = failure ∧ tokens.getLast? = some cursor.current := by
  rcases next_cases cursor.stream with hevents | ⟨hevents, hfinal⟩
  · -- no failure is among the tokens
    rw [hfails.next] at hevents
    have hmem : (.error cause : Except ReadError Token) ∈ cursor.pending := by
      simp [Cursor.pending, hevents]
    obtain ⟨token, -, hsame⟩ := List.mem_map.mp (h.pending.subset hmem)
    cases hsame
  · have hcause : (.error cause : Except ReadError Token) = .error failure := by
      rw [← hfails.next, hfinal, h.final]
    refine ⟨Except.error.inj hcause, ?_⟩
    have hsuffix := h.pending
    rw [Cursor.pending, hfails.unread, hevents] at hsuffix
    obtain ⟨before, hbefore⟩ := hsuffix
    obtain ⟨handed, last, rfl, -, hlast⟩ := List.map_eq_append_iff.mp hbefore.symm
    obtain ⟨token, rest, rfl, htoken, hrest⟩ := List.map_eq_cons_iff.mp hlast
    obtain rfl := Except.ok.inj htoken
    obtain rfl : rest = [] := by simpa using hrest
    exact List.getLast?_concat

end Cursor.Draws

section

variable {known : Token → Prop} {place : Place} {session later : Session} {tokens : List Token}
  {failure : ReadError}

theorem Step.draws (h : Step known place session later) (hends : ∀ token ∈ tokens, token.isEnd = false)
    (hdraws : session.cursor.Draws tokens failure) : later.cursor.Draws tokens failure := by
  have hend := hends _ (hdraws.mem_of_answers session.cursor.answers_current)
  cases h with
  | consume hadvance => exact hdraws.advance hend hadvance
  | look hpeek => exact hdraws.peek hend hpeek
  | flag | declare | settle | invent | reshape => exact hdraws

theorem Steps.draws (h : Steps known place session later) (hends : ∀ token ∈ tokens, token.isEnd = false)
    (hdraws : session.cursor.Draws tokens failure) : later.cursor.Draws tokens failure := by
  induction h with
  | refl => exact hdraws
  | tail _ hstep ih => exact hstep.draws hends ih

end

theorem compile_ofFailing {tokens : List Token} (failure : ReadError)
    (hends : ∀ token ∈ tokens, token.isEnd = false) :
    compile (.ofFailing tokens failure) = .error (.unreadable
        { kind := .inputFailure, line := (tokens.getLast?.map Token.line).getD 1, cause := failure }) ∨
      compile (.ofFailing tokens failure) = .error .unfinished ∧ ∃ token ∈ tokens, ¬ token.Proper := by
  cases tokens with
  | nil => exact Or.inl (compile_eq_error rfl)
  | cons first rest =>
      have hdraws : Cursor.Draws { stream := .ofFailing rest failure, current := first } (first :: rest)
          failure := ⟨List.suffix_refl _, rfl⟩
      have hstart : Cursor.start (.ofFailing (first :: rest) failure) =
          .ok { stream := .ofFailing rest failure, current := first } := rfl
      rcases compile_outcome hstart (fun _ => hdraws.mem_of_answers) with ⟨_, later, -, hsteps, hend, -⟩ | ⟨cause, hcause, hcut⟩
      · -- no token is the end of the file
        have hmem := (hsteps.draws hends hdraws).mem_of_answers later.cursor.answers_current
        rw [hends _ hmem] at hend
        cases hend
      · cases hcut with
        | unreadable hsteps hfails =>
            obtain ⟨rfl, hlast⟩ := (hsteps.draws hends hdraws).getLast?_eq hfails
            rw [hlast]
            exact Or.inl hcause
        | unfinished hknown himproper => exact Or.inr ⟨hcause, _, hknown, himproper⟩

/-- A compilation fails just where its source does.  If a stream never fails, no compilation of it does, and no
failure is among the errors that are recorded.  If a stream fails after some tokens, none of which is the end
of the file, its compilation fails at the line of the last of them, or in the first line if there are none.
Only an improper token can keep either from coming to its end. -/
theorem compile_failures :
    (∀ stream : TokenStream, stream.NeverFails →
      (∃ unit, compile stream = .ok unit ∧ ∀ report ∈ unit.diagnostics, report.kind ≠ .inputFailure) ∨
        compile stream = .error .unfinished ∧ ∃ token, .ok token ∈ stream.events ∧ ¬ token.Proper) ∧
      ∀ (tokens : List Token) (failure : ReadError), (∀ token ∈ tokens, token.isEnd = false) →
        compile (.ofFailing tokens failure) = .error (.unreadable
            { kind := .inputFailure, line := (tokens.getLast?.map Token.line).getD 1, cause := failure }) ∨
          compile (.ofFailing tokens failure) = .error .unfinished ∧ ∃ token ∈ tokens, ¬ token.Proper :=
  ⟨fun _ h => h.compile, fun _ failure hends => compile_ofFailing failure hends⟩

/-- The source fails after the tokens of `int x`, which stand on two lines. -/
theorem compile_failures_declaration :
    let tokens : List Token := [⟨.intWord, "int", ⟨1, 1⟩, none⟩, ⟨.identifier, "x", ⟨2, 1⟩, none⟩]
    compile (.ofFailing tokens .invalidText) = .error (.unreadable
      { kind := .inputFailure, line := 2, cause := .invalidText }) := by
  intro tokens
  have hproper : ∀ token ∈ tokens, token.Proper := by decide +kernel
  refine (compile_failures.2 tokens .invalidText (by decide)).resolve_right ?_
  rintro ⟨-, token, hmem, himproper⟩
  exact himproper (hproper token hmem)

end FrontEnd
