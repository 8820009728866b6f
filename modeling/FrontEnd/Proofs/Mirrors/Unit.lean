import FrontEnd.Proofs.Mirrors.Routine
import FrontEnd.Proofs.Unit

/-!
# Units side by side

Every production for the items of a unit is mirrored, and so is the loop over them.
-/

namespace FrontEnd.Production

open Coupling

variable {c : Coupling}

theorem unlined_appendStatement (statement : Node) (program : Routine) :
    (appendStatement statement program).unlined =
      appendStatement statement.unlined program.unlined := by
  unfold appendStatement
  cases hbody : program.body with
  | some body =>
      simp [Routine.unlined, hbody, Node.addChild, Node.unlined_eq body, Node.unlinedAll_append,
        Node.unlined, Node.unlinedAll]
  | none => simp [Routine.unlined, hbody, Node.unlined, Node.unlinedAll, Node.line_unlined]

theorem mirrors_appendStatement (program : EntryId) {statement statement' : Node}
    (h : c.Nodes statement statement') :
    c.Mirrors Eq (changeRoutine program (appendStatement statement))
      (changeRoutine program (appendStatement statement')) :=
  mirrors_changeRoutine program fun _ _ hknown =>
    ⟨by rw [unlined_appendStatement, unlined_appendStatement, h.unlined_eq, hknown.unlined_eq],
      fun haligned => by rw [h.eq haligned, hknown.eq haligned]⟩

theorem mirrors_programStatement (program : EntryId) :
    c.Mirrors Eq (programStatement program) (programStatement program) := by
  refine (mirrors_statement program).bind fun node node' hnode => ?_
  refine (mirrors_matchToken _).bind_eq fun _ => ?_
  exact mirrors_appendStatement program hnode

theorem mirrors_startsProgramStatement :
    c.Mirrors Eq startsProgramStatement startsProgramStatement := by
  refine mirrors_currentKind_bind fun kind => ?_
  split
  · exact .inl (.pure rfl)
  · exact .inr ⟨by simp, _, rfl, fun _ => .pure rfl⟩
  · exact .inl (.pure rfl)

theorem mirrors_declaration (program : EntryId) :
    c.Mirrors Eq (declaration program) (declaration program) := by
  refine mirrors_currentKind.bind_eq fun kind => ?_
  split
  · exact mirrors_nextToken.bind fun _ _ _ => mirrors_constants
  · exact mirrors_nextToken.bind fun _ _ _ => mirrors_typeDefinition
  · refine mirrors_startsVariables.bind_eq fun _ => .ite (fun _ => ?_) fun _ => ?_
    · exact mirrors_variablesOrFunction fun type => mirrors_routine program (some type)
    · exact mirrors_routine program none

theorem mirrors_item (program : EntryId) : c.Mirrors Eq (item program) (item program) :=
  mirrors_startsProgramStatement.bind_eq fun _ =>
    .ite (fun _ => mirrors_programStatement program) fun _ => mirrors_declaration program

theorem mirrors_dropItemUnlessMoved (start : Nat) :
    c.Mirrors Eq (dropItemUnlessMoved start) (dropItemUnlessMoved start) := by
  refine mirrors_position.bind_eq fun position => ?_
  refine mirrors_current.bind fun token token' htoken => ?_
  rw [isEnd_eq htoken]
  exact .ite (fun _ => (mirrors_flag _).bind_eq fun _ => mirrors_nextToken.bind fun _ _ _ => .pure rfl)
    fun _ => .pure rfl

theorem mirrors_nextItem (program : EntryId) :
    c.Mirrors (Turned Eq) (nextItem program) (nextItem program) := by
  refine mirrors_current.bind fun token token' htoken => ?_
  rw [isEnd_eq htoken]
  refine .ite (fun _ => .pure (.done rfl)) fun _ => ?_
  refine mirrors_position.bind_eq fun start => ?_
  refine (mirrors_synchronize _).bind fun token token' htoken => ?_
  rw [isEnd_eq htoken]
  refine .ite (fun _ => .pure (.done rfl)) fun _ => ?_
  refine (mirrors_item program).bind_eq fun _ => ?_
  exact (mirrors_dropItemUnlessMoved start).bind_eq fun _ => .pure (.yield rfl)

theorem mirrors_items : c.Mirrors Eq items items := by
  refine (mirrors_loop (fun _ _ _ => mirrors_nextItem _) rfl).bind_eq fun _ => ?_
  exact (mirrors_onTable fun _ _ h => ⟨h.pop_eq, h.pop⟩).bind_eq fun _ => .pure rfl

end FrontEnd.Production

namespace FrontEnd

open Coupling

variable {c : Coupling}

/-! ## Compilations -/

/-- The session in which the items of a unit are begun, with the cursor on the first token. -/
def Session.opened (cursor : Cursor) : Session :=
  { cursor, table := SymbolTable.unitTable, diagnostics := cursor.current.reports }

/-- What a compilation gives that has come to its end with the entry of the program and a session. -/
def CompilationUnit.ofOutcome (outcome : EntryId × Session) : CompilationUnit where
  table := outcome.2.table
  program := outcome.1
  diagnostics := outcome.2.diagnostics
  lineCount := outcome.2.cursor.current.line

theorem compile_eq {stream : TokenStream} {cursor : Cursor} (h : Cursor.start stream = .ok cursor) :
    compile stream = (Production.items (Session.opened cursor)).map CompilationUnit.ofOutcome := by
  have hunit : Production.unit { cursor, diagnostics := cursor.current.reports } =
      Production.items (Session.opened cursor) := Production.unit_eq_items rfl
  unfold compile
  rw [Session.start_eq h]
  simp only [bind, Except.bind, hunit]
  cases Production.items (Session.opened cursor) <;> rfl

theorem compile_eq_error {stream : TokenStream} {failure : ReadError}
    (h : Cursor.start stream = .error failure) :
    compile stream = .error (.unreadable { line := 1, cause := failure }) := by
  unfold compile Session.start
  rw [h]
  rfl

/-- A compilation that comes to its end has taken its items from the first token on. -/
theorem exists_outcome {stream : TokenStream} {unit : CompilationUnit} (h : compile stream = .ok unit) :
    ∃ cursor outcome, Cursor.start stream = .ok cursor ∧
      Production.items (Session.opened cursor) = .ok outcome ∧ unit = .ofOutcome outcome := by
  cases hcursor : Cursor.start stream with
  | error failure => simp [compile_eq_error hcursor] at h
  | ok cursor =>
      rw [compile_eq hcursor] at h
      cases hitems : Production.items (Session.opened cursor) with
      | error cause => simp [hitems, Except.map] at h
      | ok outcome =>
          rw [hitems] at h
          exact ⟨cursor, outcome, rfl, hitems, (Except.ok.inj h).symm⟩

namespace Coupling

/-- Whether two streams begin alike: with corresponding tokens, or with the same failure. -/
def Starts (c : Coupling) (stream stream' : TokenStream) : Prop :=
  match Cursor.start stream, Cursor.start stream' with
  | .ok cursor, .ok cursor' => c.cursor cursor cursor'
  | .error failure, .error failure' => failure = failure'
  | _, _ => False

/-- Two compiled units that correspond. -/
structure Units (c : Coupling) (first second : CompilationUnit) : Prop where
  table : c.Tables first.table second.table
  program : first.program = second.program
  diagnostics : List.Forall₂ c.Reports first.diagnostics second.diagnostics
  lineCount : c.aligned → first.lineCount = second.lineCount

/-- How two compilations end that correspond: both with a unit, or both interrupted. -/
inductive Compiled (c : Coupling) :
    Except Interruption CompilationUnit → Except Interruption CompilationUnit → Prop
  | finished {unit unit' : CompilationUnit} : c.Units unit unit' → Compiled c (.ok unit) (.ok unit')
  | interrupted {cause cause' : Interruption} : c.Like Interruption.unlined cause cause' →
      Compiled c (.error cause) (.error cause')

theorem sessions_opened {cursor cursor' : Cursor} (h : c.cursor cursor cursor') :
    c.Sessions (Session.opened cursor) (Session.opened cursor') where
  cursor := h
  table := .refl _
  diagnostics := reports_of (c.current h)
  dummies := rfl

/-- Compilations of streams that begin alike, neither of which is the shorter one, end alike. -/
theorem compiled_of_starts (hshorter : ¬ c.shorter) {stream stream' : TokenStream}
    (h : c.Starts stream stream') : c.Compiled (compile stream) (compile stream') := by
  unfold Starts at h
  split at h
  · next cursor cursor' hstart hstart' =>
      rw [compile_eq hstart, compile_eq hstart']
      have houtcomes := Production.mirrors_items.outcomes (sessions_opened h)
      cases hfirst : Production.items (Session.opened cursor) with
      | error cause =>
          rw [hfirst] at houtcomes
          obtain hlost | ⟨cause', hsecond, hcauses⟩ := houtcomes.of_error
          · exact absurd hlost hshorter
          · rw [hsecond]
            exact .interrupted hcauses
      | ok outcome =>
          rw [hfirst] at houtcomes
          obtain hlost | ⟨program', session', hsecond, hprogram, hsessions⟩ := houtcomes.of_ok
          · exact absurd hlost.shorter hshorter
          · rw [hsecond]
            exact .finished {
              table := hsessions.table
              program := hprogram
              diagnostics := hsessions.diagnostics
              lineCount := fun haligned => c.line_eq haligned (c.current hsessions.cursor) }
  · next failure failure' hstart hstart' =>
      rw [compile_eq_error hstart, compile_eq_error hstart', h]
      exact .interrupted (.refl _)
  · exact h.elim

end Coupling

end FrontEnd
