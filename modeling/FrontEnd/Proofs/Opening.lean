import FrontEnd.Proofs.Routine
import FrontEnd.Proofs.Steady

/-!
# The opening of a routine

Between its name and its header a routine is marked with its kind, gets a scope, and is put in its place:
the program lists it, or begins with it if it is the function `main`.  This is all that ever changes the
lists of the program, so it is stated in full: `Begins` says what each entry and each scope is afterwards,
and `traced_opening` that it holds of the run.
-/

namespace FrontEnd

/-- What is known about a routine whose scope has just been opened: what was known before, but neither
its parameters nor its body. -/
def Routine.opened (routine : Routine) (scope : ScopeId) : Routine :=
  { routine with scope := some scope, body := none, parameters := [] }

/-- What is known about a program in which a routine has been put in its place. -/
def Routine.placing (program : Routine) (id : EntryId) (isMain forwarded : Bool) : Routine :=
  if isMain then { program with mainRoutine := some id }
  else if forwarded then program
  else { program with routines := program.routines ++ [id] }

/-- Whether a routine of a kind is the one with which the program begins. -/
def Entry.beginsProgram (entry : Entry) (kind : DefinitionKind) : Bool :=
  kind == .function && entry.name == Production.mainName

namespace SymbolTable

/-- The later table has the routine `id`, of a kind, opened and put in its place in the program. -/
structure Begins (program id : EntryId) (kind : DefinitionKind) (forwarded : Bool)
    (earlier later : SymbolTable) : Prop where
  size : later.entries.size = earlier.entries.size
  other : ∀ other, other ≠ id → other ≠ program → later.entry other = earlier.entry other
  name : (later.entry id).name = (earlier.entry id).name
  home : (later.entry id).scope = (earlier.entry id).scope
  definition : (later.entry id).definition = .ofRoutine kind
    ((if forwarded then (earlier.entry id).routine?.getD {} else {}).opened earlier.scopes.size)
  program : later.entry program = (earlier.entry program).mapRoutine fun known =>
    known.placing id ((earlier.entry id).beginsProgram kind) forwarded
  programId : later.program = earlier.program
  openScopes : later.openScopes = earlier.scopes.size :: earlier.openScopes
  scopes : later.scopes.size = earlier.scopes.size + 1
  elsewhere : ∀ scope, scope ≠ earlier.scopes.size → later.scope scope = earlier.scope scope
  opened : later.scope earlier.scopes.size =
    if (earlier.entry id).beginsProgram kind then Scope.takeSlot { level := earlier.level + 1 }
    else { level := earlier.level + 1 }

namespace Begins

variable {earlier later : SymbolTable} {program id : EntryId} {kind : DefinitionKind} {forwarded : Bool}

/-- The new scope binds nothing yet. -/
theorem fresh (h : Begins program id kind forwarded earlier later) :
    (later.scope earlier.scopes.size).bindings = [] := by
  rw [h.opened]
  split <;> rfl

/-- The program is changed in what is known about it as a routine only, and other entries are not. -/
theorem view_of_ne {α : Type} {view : Entry → α} (h : Begins program id kind forwarded earlier later)
    (hview : ∀ change entry, view (Entry.mapRoutine change entry) = view entry) {other : EntryId}
    (hne : other ≠ id) : view (later.entry other) = view (earlier.entry other) := by
  by_cases hprogram : other = program
  · rw [hprogram, h.program, hview]
  · rw [h.other other hne hprogram]

theorem view_eq {α : Type} (view : Entry → α) (h : Begins program id kind forwarded earlier later)
    (hview : ∀ change entry, view (Entry.mapRoutine change entry) = view entry)
    (hself : view (later.entry id) = view (earlier.entry id)) (other : EntryId) :
    view (later.entry other) = view (earlier.entry other) := by
  by_cases hid : other = id
  · rw [hid, hself]
  · exact h.view_of_ne hview hid

theorem name_eq (h : Begins program id kind forwarded earlier later) :
    ∀ other, (later.entry other).name = (earlier.entry other).name :=
  h.view_eq Entry.name (fun _ _ => rfl) h.name

theorem scope_eq (h : Begins program id kind forwarded earlier later) :
    ∀ other, (later.entry other).scope = (earlier.entry other).scope :=
  h.view_eq Entry.scope (fun _ _ => rfl) h.home

end Begins

/-! ## The three changes -/

/-- The table in which an entry is marked as that of a routine of a kind. -/
def marked (table : SymbolTable) (id : EntryId) (kind : DefinitionKind) (forwarded : Bool) :
    SymbolTable :=
  let table := table.modifyEntry id (Production.markedEntry kind forwarded)
  if kind == .procedure then table.modifyEntry id fun entry => { entry with type := some .void }
  else table

/-- The table in which a scope is open for a routine. -/
def entered (table : SymbolTable) (id : EntryId) : SymbolTable :=
  table.push.2.modifyRoutine id fun known => known.opened table.push.1

/-- The table in which a routine has been put in its place. -/
def placed (table : SymbolTable) (program id : EntryId) (isMain forwarded : Bool) : SymbolTable :=
  if isMain then
    (table.modifyRoutine program fun known => { known with mainRoutine := some id }).takeSlot.2
  else if !forwarded then
    table.modifyRoutine program fun known => { known with routines := known.routines ++ [id] }
  else table

section

variable {table : SymbolTable} {program id : EntryId} {kind : DefinitionKind} {forwarded isMain : Bool}

theorem entry_marked_ne {other : EntryId} (h : other ≠ id) :
    (table.marked id kind forwarded).entry other = table.entry other := by
  unfold marked
  split <;> simp [entry_modifyEntry_ne h]

theorem entry_marked (kind : DefinitionKind) (forwarded : Bool) (hid : id < table.entries.size) :
    ((table.marked id kind forwarded).entry id).name = (table.entry id).name ∧
      ((table.marked id kind forwarded).entry id).scope = (table.entry id).scope ∧
        ((table.marked id kind forwarded).entry id).definition = .ofRoutine kind
          (if forwarded then (table.entry id).routine?.getD {} else {}) := by
  have hentry : (table.modifyEntry id (Production.markedEntry kind forwarded)).entry id =
      Production.markedEntry kind forwarded (table.entry id) := entry_modifyEntry_self hid _
  have hmarked : (Production.markedEntry kind forwarded (table.entry id)).name = (table.entry id).name ∧
      (Production.markedEntry kind forwarded (table.entry id)).scope = (table.entry id).scope := by
    cases forwarded <;> exact ⟨rfl, rfl⟩
  unfold marked
  split
  · rw [entry_modifyEntry_self (by simpa using hid), hentry]
    exact ⟨hmarked.1, hmarked.2, Production.definition_markedEntry _ _ _⟩
  · rw [hentry]
    exact ⟨hmarked.1, hmarked.2, Production.definition_markedEntry _ _ _⟩

theorem name_marked (table : SymbolTable) (id : EntryId) (kind : DefinitionKind) (forwarded : Bool) :
    ((table.marked id kind forwarded).entry id).name = (table.entry id).name := by
  by_cases hid : id < table.entries.size
  · exact (entry_marked kind forwarded hid).1
  · unfold marked
    split <;> simp [entry_modifyEntry, hid]

theorem size_marked (table : SymbolTable) (id : EntryId) (kind : DefinitionKind) (forwarded : Bool) :
    (table.marked id kind forwarded).entries.size = table.entries.size := by
  unfold marked
  split <;> simp

/-- To mark an entry changes neither the scopes nor which of them are open. -/
theorem scopes_marked (table : SymbolTable) (id : EntryId) (kind : DefinitionKind)
    (forwarded : Bool) :
    (table.marked id kind forwarded).scopes = table.scopes ∧
      (table.marked id kind forwarded).openScopes = table.openScopes ∧
        (table.marked id kind forwarded).program = table.program := by
  unfold marked
  split <;> exact ⟨rfl, rfl, rfl⟩

theorem entry_placed_ne {other : EntryId} (h : other ≠ program) :
    (table.placed program id isMain forwarded).entry other = table.entry other := by
  unfold placed
  split
  · rw [entry_takeSlot]
    exact entry_modifyEntry_ne h _
  · split
    · exact entry_modifyEntry_ne h _
    · rfl

theorem entry_placed (hprogram : program < table.entries.size) :
    (table.placed program id isMain forwarded).entry program =
      (table.entry program).mapRoutine fun known => known.placing id isMain forwarded := by
  have hsame (entry : Entry) : entry = entry.mapRoutine fun known => known := by
    obtain ⟨name, scope, definition, type, lines⟩ := entry
    cases definition <;> rfl
  unfold placed Routine.placing
  cases isMain with
  | true =>
      simp only [if_true, entry_takeSlot]
      exact entry_modifyEntry_self hprogram _
  | false =>
      cases forwarded with
      | true => exact hsame _
      | false => exact entry_modifyEntry_self hprogram _

theorem size_placed :
    (table.placed program id isMain forwarded).entries.size = table.entries.size := by
  unfold placed
  split
  · simp [takeSlot, modifyRoutine]
  · split <;> simp [modifyRoutine]

/-- To put a routine in its place opens no scope and binds no name; at most it takes a slot. -/
theorem scopes_placed (table : SymbolTable) (program id : EntryId) (isMain forwarded : Bool) :
    (table.placed program id isMain forwarded).scopes.size = table.scopes.size ∧
      (table.placed program id isMain forwarded).openScopes = table.openScopes ∧
        (table.placed program id isMain forwarded).program = table.program := by
  unfold placed
  split
  · simp [takeSlot, modifyRoutine, modifyEntry]
  · split <;> exact ⟨rfl, rfl, rfl⟩

/-- The routine with which the program begins takes the first slot of its scope. -/
theorem scope_placed_local (hlocal : table.localScopeId < table.scopes.size) :
    (table.placed program id isMain forwarded).scope table.localScopeId =
      if isMain then (table.scope table.localScopeId).takeSlot else table.scope table.localScopeId := by
  unfold placed
  cases isMain with
  | true =>
      show (table.modifyRoutine program fun known =>
        { known with mainRoutine := some id }).takeSlot.2.scope table.localScopeId = _
      exact scope_takeSlot_local hlocal
  | false => cases forwarded <;> rfl

theorem scope_placed_of_ne {scope : ScopeId} (h : scope ≠ table.localScopeId) :
    (table.placed program id isMain forwarded).scope scope = table.scope scope := by
  unfold placed
  split
  · exact scope_takeSlot_of_ne h
  · split <;> rfl

theorem scope_push (table : SymbolTable) (scope : ScopeId) :
    table.push.2.scope scope =
      if scope = table.scopes.size then { level := table.level + 1 } else table.scope scope := by
  by_cases h : scope = table.scopes.size <;>
    simp [SymbolTable.scope, push, Array.getElem?_push, h]

theorem entry_entered_ne {other : EntryId} (h : other ≠ id) :
    (table.entered id).entry other = table.entry other :=
  entry_modifyEntry_ne h _

theorem entry_entered (hid : id < table.entries.size) :
    (table.entered id).entry id = (table.entry id).mapRoutine fun known => known.opened table.scopes.size :=
  entry_modifyEntry_self (by simpa [push] using hid) _

theorem size_entered (table : SymbolTable) (id : EntryId) :
    (table.entered id).entries.size = table.entries.size := by
  simp [entered, modifyRoutine, push]

/-- To enter a routine opens one scope, which is the innermost one then. -/
theorem scopes_entered (table : SymbolTable) (id : EntryId) :
    (table.entered id).scopes.size = table.scopes.size + 1 ∧
      (table.entered id).openScopes = table.scopes.size :: table.openScopes ∧
        (table.entered id).program = table.program := by
  simp [entered, modifyRoutine, modifyEntry, push]

theorem localScopeId_entered (table : SymbolTable) (id : EntryId) :
    (table.entered id).localScopeId = table.scopes.size := by
  rw [localScopeId, (scopes_entered table id).2.1]
  rfl

theorem scope_entered (table : SymbolTable) (id : EntryId) (scope : ScopeId) :
    (table.entered id).scope scope =
      if scope = table.scopes.size then { level := table.level + 1 } else table.scope scope :=
  scope_push table scope

/-- What the scopes of a table are is not changed by marking an entry. -/
theorem scope_marked (table : SymbolTable) (id : EntryId) (kind : DefinitionKind) (forwarded : Bool)
    (scope : ScopeId) :
    (table.marked id kind forwarded).scope scope = table.scope scope ∧
      (table.marked id kind forwarded).level = table.level := by
  obtain ⟨hscopes, hopen, -⟩ := scopes_marked table id kind forwarded
  exact ⟨by rw [SymbolTable.scope, hscopes, SymbolTable.scope], by rw [level, hopen, level]⟩

/-- A routine is marked, entered and put in its place. -/
theorem begins_placed (kind : DefinitionKind) (forwarded : Bool) (hid : id < table.entries.size)
    (hprogram : program < table.entries.size) (hne : id ≠ program) :
    Begins program id kind forwarded table
      (((table.marked id kind forwarded).entered id).placed program id
        ((table.entry id).beginsProgram kind) forwarded) := by
  obtain ⟨hname, hhome, hdefinition⟩ := entry_marked kind forwarded hid
  obtain ⟨hscopes, hopen, hprogramId⟩ := scopes_marked table id kind forwarded
  obtain ⟨henteredScopes, henteredOpen, henteredProgram⟩ := scopes_entered (table.marked id kind forwarded) id
  obtain ⟨hplacedScopes, hplacedOpen, hplacedProgram⟩ :=
    scopes_placed ((table.marked id kind forwarded).entered id) program id
      ((table.entry id).beginsProgram kind) forwarded
  have hsize : ((table.marked id kind forwarded).entered id).entries.size = table.entries.size := by
    rw [size_entered, size_marked]
  have hentry : ((table.marked id kind forwarded).entered id).entry id =
      ((table.marked id kind forwarded).entry id).mapRoutine fun known => known.opened table.scopes.size := by
    rw [entry_entered (by rwa [size_marked]), hscopes]
  have hentered {other : EntryId} (h : other ≠ id) :
      ((table.marked id kind forwarded).entered id).entry other = table.entry other := by
    rw [entry_entered_ne h, entry_marked_ne h]
  have hlocal : ((table.marked id kind forwarded).entered id).localScopeId = table.scopes.size := by
    rw [localScopeId_entered, hscopes]
  have hscope (scope : ScopeId) : ((table.marked id kind forwarded).entered id).scope scope =
      if scope = table.scopes.size then { level := table.level + 1 } else table.scope scope := by
    obtain ⟨hsame, hlevel⟩ := scope_marked table id kind forwarded scope
    rw [scope_entered, hscopes, hlevel, hsame]
  constructor
  case size => rw [size_placed, hsize]
  case other =>
    intro other hother hotherProgram
    rw [entry_placed_ne hotherProgram, hentered hother]
  case name =>
    rw [entry_placed_ne hne, hentry]
    exact hname
  case home =>
    rw [entry_placed_ne hne, hentry]
    exact hhome
  case definition =>
    rw [entry_placed_ne hne, hentry, Entry.mapRoutine, hdefinition]
    cases kind <;> rfl
  case program => rw [entry_placed (by rwa [hsize]), hentered hne.symm]
  case programId => rw [hplacedProgram, henteredProgram, hprogramId]
  case openScopes => rw [hplacedOpen, henteredOpen, hscopes, hopen]
  case scopes => rw [hplacedScopes, henteredScopes, hscopes]
  case elsewhere =>
    intro scope hscopeNe
    rw [scope_placed_of_ne (by rwa [hlocal]), hscope, if_neg hscopeNe]
  case opened =>
    have hlt : ((table.marked id kind forwarded).entered id).localScopeId <
        ((table.marked id kind forwarded).entered id).scopes.size := by
      rw [hlocal, henteredScopes, hscopes]
      exact Nat.lt_succ_self _
    have hplaced : (((table.marked id kind forwarded).entered id).placed program id
        ((table.entry id).beginsProgram kind) forwarded).scope
          ((table.marked id kind forwarded).entered id).localScopeId = _ := scope_placed_local hlt
    rwa [hlocal, hscope, if_pos rfl] at hplaced

end

end SymbolTable

namespace Production

variable {known : Token → Prop} {session : Session} {program id : EntryId} {kind : DefinitionKind}
  {forwarded : Bool}

theorem run_markRoutine (session : Session) (id : EntryId) (kind : DefinitionKind) (forwarded : Bool) :
    markRoutine id kind forwarded session =
      .ok ((), { session with table := session.table.marked id kind forwarded }) := by
  cases kind <;> rfl

theorem run_openRoutine (hprogram : session.table.program = some program) :
    openRoutine program id kind forwarded session =
      .ok ((), { session with
        table := (session.table.entered id).placed program id
          ((session.table.entry id).beginsProgram kind) forwarded }) := by
  have hbegin (later : Session) (hlater : later.table.program = some program) :
      beginProgram id later = .ok ((), { later with
        table := (later.table.modifyRoutine program fun known =>
          { known with mainRoutine := some id }).takeSlot.2 }) := by
    have htable : table later = .ok (later.table, later) := rfl
    rw [beginProgram, bind_of_ok htable, hlater]
    rfl
  have hopen : openRoutine program id kind forwarded session = (do
      if (session.table.entry id).beginsProgram kind then beginProgram id
      else if !forwarded then
        changeRoutine program fun known => { known with routines := known.routines ++ [id] })
      { session with table := session.table.entered id } := rfl
  rw [hopen]
  cases (session.table.entry id).beginsProgram kind with
  | true => exact hbegin _ hprogram
  | false => cases forwarded <;> rfl

/-- Between its name and its header a routine is marked, opened and put in its place. -/
theorem run_opening (hprogram : session.table.program = some program) :
    (do
      markRoutine id kind forwarded
      openRoutine program id kind forwarded) session =
      .ok ((), { session with
        table := ((session.table.marked id kind forwarded).entered id).placed program id
          ((session.table.entry id).beginsProgram kind) forwarded }) := by
  have hplace : (session.table.marked id kind forwarded).program = some program := by
    rwa [(SymbolTable.scopes_marked _ _ _ _).2.2]
  rw [bind_of_ok (run_markRoutine session id kind forwarded), run_openRoutine hplace]
  simp only [Entry.beginsProgram, SymbolTable.name_marked]

/-- A routine is opened after its name and put in its place, and nothing else changes. -/
theorem traced_opening {earlier : SymbolTable} (hlawful : session.Lawful known)
    (hkind : kind ∈ DefinitionKind.callables)
    (htarget : IsTarget earlier session.table id forwarded)
    (hprogram : session.table.program = some program)
    (hlt : program < session.table.entries.size) (hne : id ≠ program) :
    Traced known .topLevel
      (do
        markRoutine id kind forwarded
        openRoutine program id kind forwarded)
      session fun _ later =>
        SymbolTable.Begins program id kind forwarded session.table later.table ∧
          later.cursor = session.cursor ∧ later.diagnostics = session.diagnostics := by
  have hbegins := SymbolTable.begins_placed kind forwarded htarget.lt hlt hne
  have hopened : Traced known .topLevel
      (do
        markRoutine id kind forwarded
        openRoutine program id kind forwarded)
      session fun _ _ => True := by
    refine (traced_markRoutine hlawful hkind htarget).bind fun _ marked _ hmarked h => ?_
    exact (traced_openRoutine hmarked (h.1.lt_size htarget.lt)).mono fun _ _ _ _ _ => trivial
  refine (hopened.withRun (run_opening hprogram)).mono ?_
  rintro _ _ - - ⟨⟨-, rfl⟩, -⟩
  exact ⟨hbegins, rfl, rfl⟩

end Production

end FrontEnd
