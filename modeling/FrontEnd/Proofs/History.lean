import FrontEnd.Proofs.Call

/-!
# The history of a compilation

What a unit has compiled at a point between two items is told by its history: the calls of the production
for routines that have been made, in order, each with the sessions before and after it, and between them
what declarations and statements of the program have done (`Session.Goes`).

Every compilation has a history (`compile_history`), so a law that one call obeys, or that one call and all
that lies between two calls keep, holds of all units.  If nothing is asked of the calls, a history is a
sequence of items (`compile_items`).
-/

namespace FrontEnd

open Production

/-- What happens between two calls: what stands in the scope of the program is read, or a statement of the
program is, which is then appended to its body. -/
inductive Session.Goes (program : EntryId) (session : Session) : Session → Prop
  | moves {later : Session} : session.Moves [.plainVariable] program later → Goes program session later
  | appends {stated : Session} (node : Node) : session.Moves [.plainVariable] program stated →
      Goes program session
        { stated with table := stated.table.modifyRoutine program (appendStatement node) }

/-- The calls of the production for routines that lead from one session to another, in order. -/
inductive History (known : Token → Prop) (program : EntryId) (start : Session) :
    List Call → Session → Prop
  | nil : History known program start [] start
  | goes {calls : List Call} {session later : Session} : History known program start calls session →
      session.Lawful known → Item known program session later → session.Goes program later →
      History known program start calls later
  | call {calls : List Call} {call : Call} : History known program start calls call.before →
      call.Made known program → History known program start (calls ++ [call]) call.after

namespace History

variable {known : Token → Prop} {program : EntryId} {start session later : Session}
  {calls more : List Call}

theorem trans (h : History known program start calls session)
    (h' : History known program session more later) :
    History known program start (calls ++ more) later := by
  induction h' with
  | nil =>
      rw [List.append_nil]
      exact h
  | goes _ hlawful hitem hgoes ih => exact .goes ih hlawful hitem hgoes
  | call _ hmade ih =>
      rw [← List.append_assoc]
      exact .call ih hmade

/-- A history is a sequence of items. -/
theorem items (h : History known program start calls session) (himproper : Improper known) :
    Items known program start session := by
  induction h with
  | nil => exact .refl
  | goes _ hlawful hitem _ ih => exact ih.tail ⟨hlawful, hitem⟩
  | call _ hmade ih => exact ih.tail ⟨hmade.lawful, hmade.item himproper⟩

/-- A history can be cut at each of its calls. -/
theorem split (h : History known program start calls session) {before after : List Call} {call : Call}
    (hcalls : calls = before ++ call :: after) :
    History known program start before call.before ∧ call.Made known program ∧
      History known program call.after after session := by
  induction h generalizing after with
  | nil => simp at hcalls
  | goes _ hlawful hitem hgoes ih =>
      obtain ⟨hbefore, hmade, hafter⟩ := ih hcalls
      exact ⟨hbefore, hmade, .goes hafter hlawful hitem hgoes⟩
  | @call calls last hhistory hlast ih =>
      rcases List.eq_nil_or_concat after with rfl | ⟨rest, other, rfl⟩
      · obtain ⟨rfl, hsame⟩ := List.append_inj' hcalls rfl
        obtain rfl : last = call := by simpa using hsame
        exact ⟨hhistory, hlast, .nil⟩
      · rw [List.concat_eq_append, ← List.cons_append, ← List.append_assoc] at hcalls
        obtain ⟨rfl, hsame⟩ := List.append_inj' hcalls rfl
        obtain rfl : last = other := by simpa using hsame
        obtain ⟨hbefore, hmade, hafter⟩ := ih rfl
        rw [List.concat_eq_append]
        exact ⟨hbefore, hmade, .call hafter hlast⟩

/-- Every call of a history is one that it can be cut at. -/
theorem made (h : History known program start calls session) {call : Call} (hmem : call ∈ calls) :
    call.Made known program := by
  obtain ⟨before, after, hcalls⟩ := List.append_of_mem hmem
  exact (h.split hcalls).2.1

end History

/-- Whether some calls lead from one session to another. -/
def Session.Leaves (known : Token → Prop) (program : EntryId) (session later : Session) : Prop :=
  ∃ calls, History known program session calls later

namespace Session.Leaves

variable {known : Token → Prop} {program : EntryId} {first second third : Session}

theorem refl (session : Session) : Leaves known program session session :=
  ⟨[], .nil⟩

theorem trans (h : Leaves known program first second) (h' : Leaves known program second third) :
    Leaves known program first third := by
  obtain ⟨calls, hcalls⟩ := h
  obtain ⟨more, hmore⟩ := h'
  exact ⟨calls ++ more, hcalls.trans hmore⟩

theorem openScopes (h : Leaves known program first second) (himproper : Improper known) :
    second.table.openScopes = first.table.openScopes ∧ second.table.program = first.table.program := by
  obtain ⟨calls, hcalls⟩ := h
  exact (hcalls.items himproper).openScopes

end Session.Leaves

namespace Production

variable {known : Token → Prop} {session : Session} {program : EntryId}

/-! ## The parts of an item -/

/-- What is traced holds of the run. -/
theorem Traced.recorded {α : Type} {place : Place} {production : Production α}
    {post : α → Session → Prop} (h : Traced known place production session post) :
    Traced known place production session fun answer later =>
      production session = .ok (answer, later) ∧ post answer later := by
  unfold Traced Leads at h ⊢
  split
  · next hrun =>
      rw [hrun] at h
      exact ⟨h.1, h.2.1, hrun, h.2.2⟩
  · next hrun =>
      rw [hrun] at h
      exact h

/-- What runs for declarations makes no call. -/
theorem Traced.leaves {α : Type} {production : Production α} {post : α → Session → Prop}
    (program : EntryId) (h : Traced known .declaration production session post)
    (hstays : Stays [.plainVariable] program production) (hlawful : session.Lawful known) :
    Traced known .topLevel production session fun answer later =>
      session.Leaves known program later ∧ post answer later := by
  refine (h.within (.topLevel _)).recorded.mono ?_
  rintro _ later - - ⟨hrun, hsteps, hpost⟩
  exact ⟨⟨[], .goes .nil hlawful (.declares hsteps) (.moves (hstays.of_run hrun))⟩, hpost⟩

theorem leaves_programStatement (himproper : Improper known) (hlawful : session.Lawful known) :
    Traced known .topLevel (programStatement program) session fun _ later =>
      session.Leaves known program later := by
  refine (item_programStatement himproper hlawful).recorded.mono ?_
  rintro _ later - - ⟨hrun, hitem⟩
  refine ⟨[], .goes .nil hlawful hitem ?_⟩
  obtain ⟨node, made, hmake, hrest⟩ := exists_of_bind hrun
  obtain ⟨_, stated, hmatch, hchange⟩ := exists_of_bind hrest
  cases hchange
  have hmade : session.Moves [.plainVariable] program made := (stays_statement program).of_run hmake
  exact .appends node (hmade.trans ((reads_matchToken _).stays.of_run hmatch))

theorem leaves_routine (type : Option DataType)
    (hlawful : session.Lawful known) (hhosts : session.Hosts program)
    (hprogram : session.table.program = some program)
    (hstart : session.cursor.current.kind = .voidWord ∨
      session.cursor.current.kind = .identifier) :
    Traced known .topLevel (routine program type) session fun _ later =>
      session.Leaves known program later := by
  refine (traced_routine program type hlawful hstart).recorded.mono ?_
  rintro _ later - - ⟨hrun, -⟩
  obtain ⟨call, rfl, rfl, hruns⟩ := Call.exists_runs hstart hrun
  exact ⟨[call], .call .nil ⟨hlawful, hhosts, hprogram, hruns⟩⟩

theorem leaves_variablesOrFunction (himproper : Improper known) (hlawful : session.Lawful known)
    (hhosts : session.Hosts program) (hprogram : session.table.program = some program) :
    Traced known .topLevel (variablesOrFunction fun type => routine program (some type)) session
      fun _ later => session.Leaves known program later := by
  unfold variablesOrFunction
  rw [traced_current_bind]
  have hread : Traced known .declaration
      (do
        let type ← requiredType
        return (type, ← startsHeader))
      session fun answer later => session.table.Grows later.table ∧
        (answer.2 = true → later.cursor.current.kind = .identifier) := by
    refine (traced_requiredType hlawful).bind fun type typed htype htyped _ => ?_
    refine (traced_startsHeader htyped).bind fun starts looked _ hlooked hlook => .pure hlooked ?_
    refine ⟨?_, fun hstarts => ?_⟩
    · rw [hlook.1.table]
      exact htype.grows rfl
    · rw [hlook.1.current]
      exact hlook.2 hstarts
  have hstays : Stays [.plainVariable] program (do
      let type ← requiredType
      return (type, ← startsHeader)) :=
    stays_requiredType.bind fun _ => reads_startsHeader.stays.bind fun _ => .pure _
  have hsplit (next : DataType → Bool → Production Unit) :
      (do
        let type ← requiredType
        next type (← startsHeader)) =
      (do
        let type ← requiredType
        return (type, ← startsHeader)) >>= fun answer => next answer.1 answer.2 := by
    simp
  rw [hsplit]
  refine (hread.leaves program hstays hlawful).bind fun answer looked hlook hlooked h => ?_
  obtain ⟨hleaves, hgrows, hheader⟩ := h
  split
  · next hstarts =>
      have hroutine := leaves_routine (some answer.1) hlooked
        (Hosts.later hhosts hlawful hlook hgrows) ((hleaves.openScopes himproper).2.trans hprogram)
        (Or.inr (hheader hstarts))
      exact hroutine.mono fun _ _ _ _ hmore => hleaves.trans hmore
  · have hnames := traced_variableNames answer.1 hlooked hlawful.current
    exact (hnames.leaves program (stays_variableNames _ _) hlooked).mono
      fun _ _ _ _ hmore => hleaves.trans hmore.1

theorem leaves_declaration (himproper : Improper known) (hlawful : session.Lawful known)
    (hhosts : session.Hosts program) (hprogram : session.table.program = some program)
    (hstart : itemStart.contains session.cursor.current.kind = true)
    (hbrace : session.cursor.current.kind ≠ .leftBrace) :
    Traced known .topLevel (declaration program) session fun _ later =>
      session.Leaves known program later := by
  unfold declaration
  rw [traced_currentKind_bind]
  split
  · have hconstants : Traced known .declaration
        (do
          let _ ← nextToken
          constants)
        session fun _ _ => True :=
      (traced_nextToken hlawful).bind fun _ _ _ hmoved _ => traced_constants hmoved
    have hstays : Stays [.plainVariable] program (do
        let _ ← nextToken
        constants) := reads_nextToken.stays.bind fun _ => stays_constants
    exact (hconstants.leaves program hstays hlawful).mono fun _ _ _ _ h => h.1
  · have htypes : Traced known .declaration
        (do
          let _ ← nextToken
          typeDefinition)
        session fun _ _ => True :=
      (traced_nextToken hlawful).bind fun _ _ _ hmoved _ => traced_typeDefinition hmoved
    have hstays : Stays [.plainVariable] program (do
        let _ ← nextToken
        typeDefinition) := reads_nextToken.stays.bind fun _ => stays_typeDefinition
    exact (htypes.leaves program hstays hlawful).mono fun _ _ _ _ h => h.1
  · next hconst htypedef =>
      rw [traced_startsVariables_bind]
      split
      · exact leaves_variablesOrFunction himproper hlawful hhosts hprogram
      · next hvariables =>
          refine leaves_routine none hlawful hhosts hprogram ?_
          cases hkind : session.cursor.current.kind <;>
            simp_all [itemStart, declarationStart, beginsVariables, scalarWords]

theorem leaves_item (himproper : Improper known) (hlawful : session.Lawful known)
    (hhosts : session.Hosts program) (hprogram : session.table.program = some program)
    (hstart : itemStart.contains session.cursor.current.kind = true) :
    Traced known .topLevel (item program) session fun _ later =>
      session.Leaves known program later := by
  have hstays : Stays [.plainVariable] program startsProgramStatement := by
    refine (Relates.read _).bind fun kind => ?_
    split
    · exact .pure true
    · exact reads_peekKind.stays.bind fun _ => .pure _
    · exact .pure false
  unfold item
  refine ((traced_startsProgramStatement hlawful).leaves program hstays hlawful).bind
    fun starts looked _ hlooked h => ?_
  obtain ⟨hleaves, hlook, hother⟩ := h
  split
  · exact (leaves_programStatement himproper hlooked).mono fun _ _ _ _ hmore => hleaves.trans hmore
  · next hdeclaration =>
      have hbrace : looked.cursor.current.kind ≠ .leftBrace := by
        rw [hlook.current]
        exact hother (by simpa using hdeclaration)
      have hmore := leaves_declaration himproper hlooked (hlook.hosts hhosts)
        ((hleaves.openScopes himproper).2.trans hprogram) (by rwa [hlook.current]) hbrace
      exact hmore.mono fun _ _ _ _ hmore => hleaves.trans hmore

/-! ## Whole units -/

/-- A turn of the loop over the items goes on with the history. -/
theorem leaves_nextItem (himproper : Improper known) (hlawful : session.Lawful known)
    (hhosts : session.Hosts program) (hprogram : session.table.program = some program) :
    Traced known .topLevel (nextItem program) session
      (AfterTurn (fun _ later => session.Leaves known program later)
        fun _ later => session.Leaves known program later) := by
  unfold nextItem
  rw [traced_current_bind]
  split
  · exact .pure hlawful (.refl session)
  · rw [traced_position_bind]
    refine ((traced_synchronize _ hlawful).leaves program (reads_synchronize _).stays hlawful).bind
      fun token found hfind hfound h => ?_
    obtain ⟨hleaves, rfl, htable, hstop, -⟩ := h
    split
    · exact .pure hfound hleaves
    · next hstart =>
        have hhosts := Hosts.later hhosts hlawful hfind (by rw [htable])
        refine (leaves_item himproper hfound hhosts ((hleaves.openScopes himproper).2.trans hprogram)
          (hstop.resolve_left hstart)).bind fun _ made _ hmade hitem => ?_
        have hdrop : Traced known .declaration (dropItemUnlessMoved session.cursor.position) made
            fun _ _ => True := by
          unfold dropItemUnlessMoved
          rw [traced_position_bind, traced_current_bind]
          split
          · exact traced_drop hmade
          · exact .pure hmade trivial
        have hstays : Stays [.plainVariable] program (dropItemUnlessMoved session.cursor.position) :=
          (Relates.read _).bind fun _ => (Relates.read _).bind fun _ =>
            .ite ((reads_flag rfl).stays.bind fun _ => reads_nextToken.stays.bind fun _ => .pure _)
              (.pure _)
        exact (hdrop.leaves program hstays hmade).bind fun _ _ _ hfinal hlast =>
          .pure hfinal ((hleaves.trans hitem).trans hlast.1)

/-- The history of a unit is followed by the end of the scope of the program, and nothing else. -/
theorem leaves_items (himproper : Improper known) (hlawful : session.Lawful known)
    (hhosts : session.Hosts SymbolTable.programId)
    (hprogram : session.table.program = some SymbolTable.programId) :
    Traced known .topLevel items session fun program later =>
      program = SymbolTable.programId ∧
        ∃ ended, session.Leaves known SymbolTable.programId ended ∧
          later = { ended with table := ended.table.pop.2 } := by
  unfold items
  have hloop : Traced known .topLevel (loop (fun _ => nextItem SymbolTable.programId) ()) session
      fun _ later => session.Leaves known SymbolTable.programId later := by
    refine .loop (fun _ later => session.Leaves known SymbolTable.programId later ∧
      later.Hosts SymbolTable.programId) hlawful ⟨.refl session, hhosts⟩ ?_
    rintro _ later - hlater ⟨hleaves, hhosts⟩
    refine ((leaves_nextItem himproper hlater hhosts ((hleaves.openScopes himproper).2.trans hprogram)).and
      (traced_nextItem hlater hhosts)).mono ?_
    rintro (_ | _) _ - - ⟨hmore, hnext⟩
    · exact hleaves.trans hmore
    · exact ⟨⟨hleaves.trans hmore, hnext.1⟩, hnext.2⟩
  refine hloop.bind fun _ ended _ hended h => ?_
  refine (Traced.of_step rfl hended (.reshape rfl .pop)).bind ?_
  rintro _ _ - hfinal ⟨-, rfl⟩
  exact .pure hfinal ⟨rfl, ended, h, rfl⟩

end Production

/-- Not every token is proper. -/
theorem improper_any : Improper fun _ => True := by
  refine ⟨⟨.identifier, "int", ⟨1, 1⟩, none⟩, trivial, fun hproper => ?_⟩
  exact absurd (hproper.identifier rfl) (by decide +kernel)

/-- A compilation whose tokens are all known, and which need not be proper, has a history. -/
theorem compile_history_of_known {known : Token → Prop} (himproper : Improper known) {stream : TokenStream}
    {unit : CompilationUnit} (h : compile stream = .ok unit)
    (hknown : ∀ session, Session.start stream = .ok session →
      ∀ token, session.cursor.Answers (.ok token) → known token) :
    ∃ session calls ended, Session.start stream = .ok session ∧
      History known SymbolTable.programId { session with table := SymbolTable.unitTable } calls ended ∧
      unit.program = SymbolTable.programId ∧ unit.table = ended.table.pop.2 ∧
        unit.diagnostics = ended.diagnostics := by
  obtain ⟨session, later, hstart, hunit, htable, hdiagnostics⟩ := compile_cases h
  have hlawful : Session.Lawful known { session with table := SymbolTable.unitTable } :=
    lawful_unitTable (hknown session hstart)
  have hrun := Production.leaves_items himproper hlawful (SymbolTable.hosts_unitTable _) rfl
  rw [Production.unit_eq_items (Session.start_cases hstart).2.1] at hunit
  rw [Production.Traced, Production.leads_of_ok hunit] at hrun
  obtain ⟨-, -, hprogram, ended, ⟨calls, hhistory⟩, rfl⟩ := hrun
  exact ⟨session, calls, ended, hstart, hhistory, hprogram, htable.symm, hdiagnostics.symm⟩

/-- Whatever is compiled has a history, which begins with the table that has the program and nothing else
of its own. -/
theorem compile_history {stream : TokenStream} {unit : CompilationUnit}
    (h : compile stream = .ok unit) :
    ∃ session calls ended, Session.start stream = .ok session ∧
      History (fun _ => True) SymbolTable.programId { session with table := SymbolTable.unitTable } calls
        ended ∧
      unit.program = SymbolTable.programId ∧ unit.table = ended.table.pop.2 ∧
        unit.diagnostics = ended.diagnostics :=
  compile_history_of_known improper_any h fun _ _ _ _ => trivial

/-- Whatever is compiled has been reached by items, from the table that has the program and nothing
else of its own. -/
theorem compile_items {stream : TokenStream} {unit : CompilationUnit} (h : compile stream = .ok unit) :
    ∃ session ended, Session.start stream = .ok session ∧
      Items (fun _ => True) SymbolTable.programId
        { session with table := SymbolTable.unitTable } ended ∧
      unit.program = SymbolTable.programId ∧ unit.table = ended.table.pop.2 ∧
        unit.diagnostics = ended.diagnostics := by
  obtain ⟨session, calls, ended, hstart, hhistory, hunit⟩ := compile_history h
  exact ⟨session, ended, hstart, hhistory.items improper_any, hunit⟩

end FrontEnd
