import FrontEnd.Proofs.Redefined
import Mathlib.Data.List.Chain

/-!
# Entries that are settled

An entry that stands for no routine is settled when it has been made.  Every production that finds it keeps it
(`Grammatical.conserves`), and so it stays what it is to the end of the compilation, but for its lines.  What declares
a name once more in the same scope is refused: it makes no entry and takes no slot (`compile_settled`).

## Strategy

What happens between the productions is covered by breaking up a compilation into what is done to a session at a time
(`Session.Deed`).  An entry is made in one deed, with its definition and type, and the entry of a routine is made a
routine in the deed that makes it, since nothing else happens in between.  So no deed changes an entry that it has not
made, unless it is that of a routine (`Session.Deed.conserves`), and what every deed keeps is kept between any two
points of a compilation.
-/

namespace FrontEnd

/-! ## Deeds -/

namespace Session

/-- A single thing that is done to a session in the course of a compilation: a move inside a scope, the invention
of a number for a name, the naming of a routine, a change of what is known about a routine, the report that a header
repeats a declaration, or a change of the scopes that are open and of the slots that are taken. -/
inductive Deed (session : Session) : Session → Prop
  | move {stores : List DefinitionKind} {owner : EntryId} {later : Session} :
      session.Move stores owner later → Deed session later
  | number (dummies : Nat) : Deed session { session with dummies }
  | name {invented : String} {id : EntryId} {forwarded : Bool} {named : Session} (kind : DefinitionKind) :
      session.Names invented (id, forwarded) named →
      Deed session { named with table := named.table.marked id kind forwarded }
  | rework (id : EntryId) (change : Routine → Routine) :
      Deed session { session with table := session.table.modifyRoutine id change }
  | retype {id : EntryId} (type : DataType) : (session.table.entry id).routine? ≠ none →
      Deed session { session with
        table := session.table.modifyEntry id fun entry => { entry with type := some type } }
  | repeated (token : Token) :
      Deed session { session with
        diagnostics := session.diagnostics ++ [Diagnostic.atToken token .alreadyForwarded] }
  | push : Deed session { session with table := session.table.push.2 }
  | pop : Deed session { session with table := session.table.pop.2 }
  | takeSlot : Deed session { session with table := session.table.takeSlot.2 }

/-- Any number of deeds. -/
abbrev Deeds : Session → Session → Prop :=
  Relation.ReflTransGen Deed

variable {session later : Session}

/-- No entry is changed but that of a routine. -/
theorem Deed.conserves (h : session.Deed later) : session.Conserves none later := by
  cases h with
  | move hmove => exact hmove.conserves
  | number | repeated => exact .refl _
  | @name invented id forwarded named kind hnames =>
      exact hnames.conserves_marked kind
  | rework id change => exact .modifyRoutine id change
  | retype type hroutine => exact .modifyEntry fun _ hplain => absurd hplain hroutine
  | push | takeSlot => exact .of_entries rfl
  | pop => exact .pop

theorem Reads.deeds (h : session.Reads later) : session.Deeds later := by
  have hmove : session.Move [] 0 later := .read h
  exact .single (.move hmove)

theorem Moves.deeds {stores : List DefinitionKind} {owner : EntryId} (h : session.Moves stores owner later) :
    session.Deeds later :=
  Relation.ReflTransGen.mono (fun _ _ => Deed.move) _ _ h

/-- What is done to some sessions, one after the other, from the first to the last. -/
theorem Deeds.exists_trace (h : session.Deeds later) :
    ∃ trace : List Session, trace.IsChain Deed ∧ trace.head? = some session ∧ trace.getLast? = some later := by
  obtain ⟨rest, hchain, hlast⟩ := List.exists_isChain_cons_of_relationReflTransGen h
  exact ⟨session :: rest, hchain, rfl, by rw [List.getLast?_eq_some_getLast (List.cons_ne_nil _ _), hlast]⟩

/-- What is there at a point of a trace is kept to its end. -/
theorem pairwise_of_isChain {trace : List Session} (h : trace.IsChain Deed) : trace.Pairwise (Conserves none) :=
  (h.imp fun _ _ => Deed.conserves).pairwise

end Session

/-! ## What a compilation does -/

namespace Production

open Session

theorem deeds_routineKind : Relates Deeds routineKind := by
  have hreads : Relates Deeds nextToken := reads_nextToken.mono fun _ _ => Reads.deeds
  have hinvent (stem : String) : Relates Deeds (inventName stem) :=
    ⟨fun session => .single (.number (session.dummies + 1))⟩
  refine (Relates.read _).bind fun kind => ?_
  split
  · exact hreads.bind fun _ => (hinvent _).bind fun _ => .pure _
  · exact (hinvent _).bind fun _ => .pure _
  · exact .pure _

end Production

namespace Call

open Session Production

variable {known : Token → Prop} {program : EntryId} {call : Call}

/-- A scope is opened for a routine. -/
theorem deeds_entered (session : Session) (id : EntryId) :
    session.Deeds { session with table := session.table.entered id } :=
  Relation.ReflTransGen.tail (.single .push) (.rework id fun known => known.opened session.table.push.1)

/-- A routine is put in its place. -/
theorem deeds_placed (session : Session) (program id : EntryId) (isMain forwarded : Bool) :
    session.Deeds { session with table := session.table.placed program id isMain forwarded } := by
  unfold SymbolTable.placed
  split
  · exact Relation.ReflTransGen.tail
      (.single (.rework program fun known => { known with mainRoutine := some id })) .takeSlot
  · split
    · exact .single (.rework program fun known => { known with routines := known.routines ++ [id] })
    · exact .refl

/-- It is checked that a repeated header has a semicolon after its name. -/
theorem deeds_checked (call : Call) (program : EntryId) : (call.begun program).Deeds (call.checked program) := by
  unfold checked
  split
  · exact .single (.repeated call.named.cursor.current)
  · rw [List.append_nil]
    exact .refl

/-- A function gets its type after its parameters. -/
theorem deeds_typed {read : Session} (hid : call.kind = .function → (read.table.entry call.id).routine? ≠ none)
    (parameters : List EntryId) : read.Deeds { read with table := call.typed read.table parameters } := by
  unfold typed
  have hparameters : read.Deed { read with
      table := read.table.modifyRoutine call.id fun known => { known with parameters } } := .rework call.id _
  split
  · next hfunction =>
      have hroutine := hid (beq_iff_eq.mp hfunction)
      refine Relation.ReflTransGen.tail (.single hparameters) (.retype _ ?_)
      show ((read.table.modifyRoutine call.id _).entry call.id).routine? ≠ none
      rw [SymbolTable.modifyRoutine, SymbolTable.entry_modifyEntry]
      split
      · simpa [Entry.routine?_mapRoutine] using hroutine
      · exact hroutine
  · exact .single hparameters

/-- A body is compiled, or the routine is left as declared forward. -/
theorem Ends.deeds {headed closed : Session} (h : call.Ends headed closed) : headed.Deeds closed := by
  cases h with
  | @declared made body hbrace hmade =>
      have hstaged : headed.Deeds (headed.staged call.id .declared) := .single (.rework call.id _)
      have hbody : Deeds (headed.staged call.id .declared) made := ((stays_compound call.id).of_run hmade).deeds
      exact (hstaged.trans hbody).tail (.rework call.id _)
  | forward hother hreads =>
      have hstaged : headed.Deeds (headed.staged call.id .forward) := .single (.rework call.id _)
      exact hstaged.trans hreads.deeds

/-- A call of the production for routines consists of deeds. -/
theorem Made.deeds (h : call.Made known program) : call.before.Deeds call.after := by
  obtain ⟨headed, closed, hparts⟩ := h.parts
  have hopens := h.opens
  obtain ⟨parameters, read, reported, hread, hreported, hheaded⟩ := typed_header hparts.header
  have hnames : call.started.Names call.invented (call.id, call.forwarded) call.named :=
    (leads_of_ok h.runs.naming).mp (names_routineName call.invented call.started)
  have hparameters : Moves [.valueParameter] program (call.checked program) read :=
    stays_enclosedParameters.of_run hread
  have hroutine : call.kind = .function → (reported.table.entry call.id).routine? ≠ none := by
    intro hfunction
    have hlt : call.id < (call.checked program).table.entries.size :=
      Nat.lt_of_lt_of_eq hopens.target.lt hopens.begins.size.symm
    have hdefinition : ((call.checked program).table.entry call.id).definition = .ofRoutine call.kind _ :=
      hopens.begins.definition
    rw [hreported.table_eq, (hparameters.grows.agrees call.id hlt).routine?, Entry.routine?, hdefinition, hfunction]
    exact Option.some_ne_none _
  have hstarted : call.before.Deeds call.started := deeds_routineKind.of_run h.runs.kind
  have hmarked : call.started.Deeds _ := .single (.name call.kind hnames)
  have hbegun : Deeds { call.named with table := call.named.table.marked call.id call.kind call.forwarded }
      (call.begun program) := (deeds_entered _ call.id).trans (deeds_placed _ program call.id _ _)
  have htyped : reported.Deeds headed := by
    rw [hheaded, ← hreported.table_eq]
    exact deeds_typed hroutine parameters
  have hclosed : headed.Deeds closed := (ends_bodyOrForward hparts.body).deeds
  rw [hparts.after]
  exact (((((((hstarted.trans hmarked).trans hbegun).trans (deeds_checked call program)).trans
    hparameters.deeds).trans hreported.deeds).trans htyped).trans hclosed).tail .pop

end Call

/-- A history consists of deeds. -/
theorem History.deeds {known : Token → Prop} {program : EntryId} {start session : Session} {calls : List Call}
    (h : History known program start calls session) : start.Deeds session := by
  induction h with
  | nil => exact .refl
  | goes _ _ _ hgoes ih =>
      cases hgoes with
      | moves hmoves => exact ih.trans hmoves.deeds
      | appends node hmoves => exact (ih.trans hmoves.deeds).tail (.rework program _)
  | call _ hmade ih => exact ih.trans hmade.deeds

/-! ## Whole compilations -/

/-- A production of the grammar keeps every entry that it finds and that stands for no routine, unless the production
is a header and the entry its own.  The productions that name are run one after the other, with nothing in between that
names, and such an entry is kept from the beginning and the end of each of them to those of every later one and to the
end of the compilation.  So it is at every point of it, since all that is done is a sequence of deeds.  A name that the
innermost scope has is not declared again: no entry is made for it and no slot is taken, and it is reported once as
declared again. -/
theorem compile_settled {stream : TokenStream} {unit : CompilationUnit} (h : compile stream = .ok unit) :
    (∀ {α : Type} {production : Production α} {session later : Session} {answer : α},
      production.Grammatical → production session = .ok (answer, later) →
        ∀ id < session.table.entries.size, (session.table.entry id).kind.isRoutine = false →
          ¬ production.Retypes id →
            id < later.table.entries.size ∧ (session.table.entry id).Keeps (later.table.entry id)) ∧
    (∃ session log ended, Session.start stream = .ok session ∧
      Log { session with table := SymbolTable.unitTable } log ended ∧
      unit.table = ended.table.pop.2 ∧ unit.diagnostics = ended.diagnostics ∧
      (Naming.points log ++ [ended]).Pairwise fun earlier later => ∀ id < earlier.table.entries.size,
        (earlier.table.entry id).kind.isRoutine = false →
          id < later.table.entries.size ∧ (earlier.table.entry id).Keeps (later.table.entry id)) ∧
    (∃ session trace ended, Session.start stream = .ok session ∧ List.IsChain Session.Deed trace ∧
      trace.head? = some { session with table := SymbolTable.unitTable } ∧ trace.getLast? = some ended ∧
      ended.table = unit.table ∧ ended.diagnostics = unit.diagnostics ∧
      trace.Pairwise fun earlier later => ∀ id < earlier.table.entries.size,
        (earlier.table.entry id).kind.isRoutine = false →
          id < later.table.entries.size ∧ (earlier.table.entry id).Keeps (later.table.entry id)) ∧
    ∀ (name : Token) (kind : DefinitionKind) (session later : Session), name.kind = .identifier →
      session.table.lookupLocal name.text ≠ none → Production.Declaring name kind session later →
        Session.DeclaresNothing [Diagnostic.atToken name .identifierRedefined] session later := by
  have hkeeps {earlier later : Session} (h : earlier.Conserves none later) : ∀ id < earlier.table.entries.size,
      (earlier.table.entry id).kind.isRoutine = false →
        id < later.table.entries.size ∧ (earlier.table.entry id).Keeps (later.table.entry id) := fun id hid hkind =>
    ⟨Nat.lt_of_lt_of_le hid h.size_le, h.keeps id hid (by simp) (Entry.routine?_eq_none_of_kind hkind)⟩
  refine ⟨fun hproduction hrun id hid hkind hretypes => ?_, ?_, ?_,
    fun name kind session later hname htaken hdeclaring => ?_⟩
  · exact hproduction.conserves hrun hid hretypes (Entry.routine?_eq_none_of_kind hkind)
  · obtain ⟨session, log, ended, hstart, hlog, htable, hdiagnostics⟩ := compile_log h
    refine ⟨session, log, ended, hstart, hlog, htable, hdiagnostics, ?_⟩
    exact (hlog.trail session.inside_unitTable).1.pairwise.imp hkeeps
  · obtain ⟨session, calls, ended, hstart, hhistory, -, htable, hdiagnostics⟩ := compile_history h
    obtain ⟨trace, hchain, hhead, hlast⟩ := Session.Deeds.exists_trace (hhistory.deeds.tail .pop)
    refine ⟨session, trace, _, hstart, hchain, hhead, hlast, htable.symm, hdiagnostics.symm, ?_⟩
    exact (Session.pairwise_of_isChain hchain).imp hkeeps
  · exact (hdeclaring.declares hname).refused htaken

/-- Variables, constants, types and parameters are declared twice, and so is a name that has been used without a
meaning; a variable of a session that has its name already is refused, and the entry with the name is kept. -/
theorem compile_settled_twice :
    let source :=
      "int a, a; const c = 1, c = 2; typedef int t; typedef int t; void p(int b, int b) \x7b u = 1; int u; \x7d"
    let name : Token := ⟨.identifier, "x", ⟨1, 1⟩, none⟩
    let session : Session :=
      { cursor := { stream := .ofTokens [], current := name }, table := SymbolTable.unitTable.bindNew "x" }
    let id : EntryId := SymbolTable.unitTable.entries.size
    (∃ unit, compileText source = .ok unit ∧
      (unit.diagnostics.map fun report => (report.kind, report.text)) =
        [(.identifierRedefined, "a"), (.identifierRedefined, "c"), (.identifierRedefined, "t"),
          (.identifierRedefined, "b"), (.identifierUndefined, "u"), (.identifierRedefined, "u")] ∧
      ∃ session log ended, Session.start (Scanner.stream (.ofText source)) = .ok session ∧
        Log { session with table := SymbolTable.unitTable } log ended ∧
        unit.table = ended.table.pop.2 ∧ unit.diagnostics = ended.diagnostics ∧
        (Naming.points log ++ [ended]).Pairwise fun earlier later => ∀ id < earlier.table.entries.size,
          (earlier.table.entry id).kind.isRoutine = false →
            id < later.table.entries.size ∧ (earlier.table.entry id).Keeps (later.table.entry id)) ∧
    (∃ unit session trace ended, compileText source = .ok unit ∧
      Session.start (Scanner.stream (.ofText source)) = .ok session ∧ List.IsChain Session.Deed trace ∧
      trace.head? = some { session with table := SymbolTable.unitTable } ∧ trace.getLast? = some ended ∧
      ended.table = unit.table ∧
      trace.Pairwise fun earlier later => ∀ id < earlier.table.entries.size,
        (earlier.table.entry id).kind.isRoutine = false →
          id < later.table.entries.size ∧ (earlier.table.entry id).Keeps (later.table.entry id)) ∧
    ∃ outcome, Production.variableName .int session = .ok outcome ∧
      Session.DeclaresNothing [Diagnostic.atToken name .identifierRedefined] session outcome.2 ∧
      (session.table.entry id).Keeps (outcome.2.table.entry id) := by
  intro source name session id
  have hcompiled : ∃ unit, compileText source = .ok unit ∧
      (unit.diagnostics.map fun report => (report.kind, report.text)) =
        [(.identifierRedefined, "a"), (.identifierRedefined, "c"), (.identifierRedefined, "t"),
          (.identifierRedefined, "b"), (.identifierUndefined, "u"), (.identifierRedefined, "u")] :=
    exists_compiled (by decide +kernel)
  have hread : ∃ outcome, Production.variableName .int session = .ok outcome ∧
      outcome.2.cursor.current.isEnd = true := exists_answer (by decide +kernel)
  have htaken : session.table.lookupLocal name.text ≠ none := by decide +kernel
  have hid : id < session.table.entries.size := by decide +kernel
  have hplain : (session.table.entry id).kind.isRoutine = false := by decide +kernel
  obtain ⟨unit, hunit, hreports⟩ := hcompiled
  obtain ⟨outcome, hrun, -⟩ := hread
  obtain ⟨hkept, hlog, ⟨started, trace, ended, hstart, hchain, hhead, hlast, htable, -, hkeeps⟩, hrefuses⟩ :=
    compile_settled hunit
  have hretypes : ¬ Production.Retypes id (Production.variableName .int) := by
    intro hheader
    have hsingle : Subsingleton (ForInStep Unit) := by
      rw [hheader.answer_eq]
      infer_instance
    exact absurd (hsingle.elim (.done ()) (.yield ())) nofun
  refine ⟨⟨unit, hunit, hreports, hlog⟩,
    ⟨unit, started, trace, ended, hunit, hstart, hchain, hhead, hlast, htable, hkeeps⟩, outcome, hrun,
    hrefuses name .plainVariable session outcome.2 rfl htaken (.plainVariable rfl hrun), ?_⟩
  exact (hkept (.variableName .int) hrun id hid hplain hretypes).2

end FrontEnd
