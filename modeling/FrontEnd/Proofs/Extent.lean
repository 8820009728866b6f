import FrontEnd.Proofs.Bodies
import FrontEnd.Proofs.History

/-!
# The extent of a call

How far a call of the production for routines can reach.  The name of the routine is looked up in the
innermost scope, where one entry at most is entered (`SymbolTable.Enters`).  From then on the call works in
a scope of its own: the table is extended there, by parameters at first and by variables later, and what is
known about the routine is changed.  What outlasts these two outlasts the call (`Call.Made.endures`), in
particular all that stands in other scopes and in other entries (`Call.Made.spares`).

Between two calls no scope is opened, so the scopes of a history are counted by its calls
(`History.scopes_size`).
-/

namespace FrontEnd

/-! ## Entering a name -/

namespace SymbolTable

/-- The later table differs from the earlier one at most in the lines of its entries and in the entry `id`:
if that is new, the innermost scope may bind one of some names to it, which it did not bind before. -/
structure Enters (keys : List String) (id : EntryId) (earlier later : SymbolTable) : Prop where
  openScopes : later.openScopes = earlier.openScopes
  scopes : later.scopes.size = earlier.scopes.size
  size : later.entries.size = earlier.entries.size ∨
    id = earlier.entries.size ∧ later.entries.size = earlier.entries.size + 1
  elsewhere : ∀ scope, scope ≠ earlier.localScopeId → later.scope scope = earlier.scope scope
  here : later.localScope = earlier.localScope ∨
    ∃ key ∈ keys, earlier.localScope.get? key = none ∧
      later.localScope = earlier.localScope.bind key id

namespace Enters

variable {table : SymbolTable} {keys : List String}

theorem modifyEntry (keys : List String) (id other : EntryId) (change : Entry → Entry) :
    table.Enters keys id (table.modifyEntry other change) :=
  ⟨rfl, rfl, Or.inl (by simp), fun _ _ => rfl, Or.inl rfl⟩

theorem bindNew (hvalid : table.Valid) {key : String} (hkey : key ∈ keys)
    (hfree : table.localScope.get? key = none) :
    table.Enters keys table.entries.size (table.bindNew key) := by
  have hadds := Adds.bindNew hvalid hfree
  exact ⟨rfl, hadds.scopes, Or.inr ⟨rfl, hadds.size⟩, hadds.elsewhere,
    Or.inr ⟨key, hkey, hfree, localScope_bindNew hvalid key⟩⟩

/-- An invented name is entered unless it is taken, and then no name leads to the entry. -/
theorem enterInvented (hvalid : table.Valid) {name : String} (hkey : Text.lower name ∈ keys) :
    table.Enters keys table.entries.size (table.enterInvented name) := by
  unfold SymbolTable.enterInvented
  cases hlocal : table.lookupLocal name with
  | none => exact .bindNew hvalid hkey hlocal
  | some taken =>
      exact ⟨rfl, rfl, Or.inr ⟨rfl, size_createDetached _ _ _⟩, fun _ _ => rfl, Or.inl rfl⟩

/-- What a scope binds it still binds. -/
theorem bindings {earlier later : SymbolTable} {id : EntryId} (h : earlier.Enters keys id later)
    (scope : ScopeId) : (earlier.scope scope).bindings <+: (later.scope scope).bindings := by
  by_cases hlocal : scope = earlier.localScopeId
  · have hsame : later.scope scope = later.localScope := by
      rw [SymbolTable.localScope, hlocal, SymbolTable.localScopeId, SymbolTable.localScopeId,
        h.openScopes]
    rw [hsame, hlocal]
    rcases h.here with hhere | ⟨key, -, -, hhere⟩
    · exact hhere ▸ List.prefix_rfl
    · exact hhere ▸ List.prefix_append _ _
  · exact h.elsewhere scope hlocal ▸ List.prefix_rfl

end Enters

end SymbolTable

/-- The name of a routine is entered as it stands, or an invented one is. -/
theorem Session.Names.enters {session later : Session} {invented : String} {id : EntryId}
    {forwarded : Bool} (h : session.Names invented (id, forwarded) later)
    (hvalid : session.table.Valid) :
    session.table.Enters [Text.lower session.cursor.current.text, Text.lower invented] id later.table := by
  cases h with
  | reused hkind hlocal hforward hreads =>
      rw [hreads.table_eq]
      exact .modifyEntry _ _ _ _
  | entered hkind hlocal hreads =>
      rw [hreads.table_eq]
      have henters : session.table.Enters
          [Text.lower session.cursor.current.text, Text.lower invented] session.table.entries.size
          (session.table.bindNew (Text.lower session.cursor.current.text)) :=
        .bindNew hvalid (by simp) hlocal
      exact ⟨henters.openScopes, henters.scopes, by simp, henters.elsewhere,
        henters.here⟩
  | taken hkind hlocal hforward hreads =>
      exact .enterInvented hvalid (by simp)
  | missing hkind hreads => exact .enterInvented hvalid (by simp)

/-! ## What a routine does in its own scope -/

/-- Whether a change of an entry keeps its name, its scope and its kind and, of a routine, the scope. -/
structure Entry.Retains (change : Entry → Entry) : Prop where
  name : ∀ entry, (change entry).name = entry.name
  scope : ∀ entry, (change entry).scope = entry.scope
  kind : ∀ entry, (change entry).kind = entry.kind
  frame : ∀ entry, (change entry).frame? = entry.frame?

theorem Entry.Retains.mapRoutine {change : Routine → Routine}
    (hscope : ∀ routine, (change routine).scope = routine.scope) :
    Entry.Retains (Entry.mapRoutine change) where
  name _ := rfl
  scope _ := rfl
  kind entry := entry.kind_mapRoutine change
  frame entry := by
    rw [Entry.frame?, Entry.routine?_mapRoutine, Entry.frame?]
    cases entry.routine? <;> simp [hscope]

/-- Entries that agree still do when what is known about a routine is changed. -/
theorem Entry.Agrees.mapRoutine {first second : Entry} (h : first.Agrees second)
    (change : Routine → Routine) : (first.mapRoutine change).Agrees (second.mapRoutine change) :=
  ⟨h.name, h.scope, congrArg (Definition.mapRoutine change) h.definition, h.type⟩

namespace SymbolTable

/-- Whether a property of tables outlasts all that a routine does to them in its own scope, where variables
and parameters of the kinds `stores` can be entered. -/
structure Endures (stores : List DefinitionKind) (routine : EntryId) (scope : ScopeId)
    (holds : SymbolTable → Prop) : Prop where
  extend {first second : SymbolTable} : holds first → first.Valid →
    first.localScopeId = scope → first.Extends stores routine second → holds second
  reworks {table : SymbolTable} {change : Entry → Entry} : holds table → Entry.Retains change →
    holds (table.modifyEntry routine change)
  pop {table : SymbolTable} : holds table → holds table.pop.2

/-- An extension changes no entry in more than its lines. -/
theorem Extends.steady {stores : List DefinitionKind} {owner : EntryId} {table later : SymbolTable}
    (h : table.Extends stores owner later) (hvalid : table.Valid) : table.Steady later := by
  rcases h.declares.adds_or_retouches hvalid with hadds | hretouches
  · exact .of_adds hadds
  · exact .of_retouches hretouches

/-- The later table differs from the earlier one in one scope and in the entry of one routine only, and the
routine keeps its name, its kind and its scope; other entries may have more lines, and none of those that
are new is a routine. -/
structure Spares (routine : EntryId) (scope : ScopeId) (earlier later : SymbolTable) : Prop where
  lt : routine < earlier.entries.size
  size_le : earlier.entries.size ≤ later.entries.size
  agrees : ∀ id < earlier.entries.size, id ≠ routine → (earlier.entry id).Agrees (later.entry id)
  plain : ∀ id, earlier.entries.size ≤ id → (later.entry id).routine? = none
  name : (later.entry routine).name = (earlier.entry routine).name
  kind : (later.entry routine).kind = (earlier.entry routine).kind
  frame : (later.entry routine).frame? = (earlier.entry routine).frame?
  scopes : later.scopes.size = earlier.scopes.size
  elsewhere : ∀ other, other ≠ scope → later.scope other = earlier.scope other

namespace Spares

variable {table earlier : SymbolTable} {routine : EntryId} {scope : ScopeId}

theorem refl (hlt : routine < table.entries.size) : table.Spares routine scope table :=
  ⟨hlt, Nat.le_refl _, fun _ _ _ => .refl _, fun id hid => by rw [entry_of_size_le hid]; rfl, rfl, rfl,
    rfl, rfl, fun _ _ => rfl⟩

theorem endures (stores : List DefinitionKind) (earlier : SymbolTable) (routine : EntryId)
    (scope : ScopeId) : Endures stores routine scope (earlier.Spares routine scope) where
  extend := by
    intro first second h hvalid hlocal hextends
    have hsteady := hextends.steady hvalid
    have hgrows := hextends.declares.grows
    have hlt : routine < first.entries.size := Nat.lt_of_lt_of_le h.lt h.size_le
    constructor
    case lt => exact h.lt
    case size_le => exact Nat.le_trans h.size_le hgrows.size_le
    case agrees =>
      intro id hid hne
      exact (h.agrees id hid hne).trans (hgrows.agrees id (Nat.lt_of_lt_of_le hid h.size_le))
    case plain =>
      intro id hid
      by_cases hlt : id < first.entries.size
      · rw [(hgrows.agrees id hlt).routine?]
        exact h.plain id hid
      · exact hgrows.plain id (Nat.le_of_not_lt hlt)
    case name => exact (hgrows.agrees routine hlt).name.trans h.name
    case kind => exact (hgrows.agrees routine hlt).kind.trans h.kind
    case frame => exact (hsteady.frame? routine).trans h.frame
    case scopes => exact hsteady.scopes.trans h.scopes
    case elsewhere =>
      intro other hother
      rw [hsteady.elsewhere other (by rwa [hlocal])]
      exact h.elsewhere other hother
  reworks := by
    intro table change h hretains
    have hlt : routine < table.entries.size := Nat.lt_of_lt_of_le h.lt h.size_le
    have hentry : (table.modifyEntry routine change).entry routine = change (table.entry routine) :=
      entry_modifyEntry_self hlt change
    constructor
    case lt => exact h.lt
    case size_le => simpa using h.size_le
    case agrees =>
      intro id hid hne
      rw [entry_modifyEntry_ne hne]
      exact h.agrees id hid hne
    case plain =>
      intro id hid
      rw [entry_modifyEntry_ne (Nat.ne_of_gt (Nat.lt_of_lt_of_le h.lt hid))]
      exact h.plain id hid
    case name => rw [hentry, hretains.name, h.name]
    case kind => rw [hentry, hretains.kind, h.kind]
    case frame => rw [hentry, hretains.frame, h.frame]
    case scopes => exact h.scopes
    case elsewhere => exact h.elsewhere
  pop := by
    intro table h
    constructor
    case lt => exact h.lt
    case size_le => simpa using h.size_le
    case agrees =>
      intro id hid hne
      rw [entry_pop]
      exact h.agrees id hid hne
    case plain =>
      intro id hid
      rw [entry_pop]
      exact h.plain id hid
    case name => rw [entry_pop, h.name]
    case kind => rw [entry_pop, h.kind]
    case frame => rw [entry_pop, h.frame]
    case scopes => rw [scopes_pop, h.scopes]
    case elsewhere =>
      intro other hother
      rw [scope_pop]
      exact h.elsewhere other hother

end Spares

/-! ## What is entered in a scope -/

/-- What an extension adds: at most one entry of the innermost scope, which is bound to its name there or is
the target of a return of the owner. -/
theorem Extends.added {stores : List DefinitionKind} {owner : EntryId} {table later : SymbolTable}
    (h : table.Extends stores owner later) (hvalid : table.Valid) :
    later.entries.size = table.entries.size ∨
      later.entries.size = table.entries.size + 1 ∧
        (later.entry table.entries.size).scope = table.localScopeId ∧
          (((later.entry table.entries.size).name, table.entries.size) ∈
              (later.scope table.localScopeId).bindings ∨
            (later.entry table.entries.size).kind = .plainVariable ∧
              (later.entry table.entries.size).name = Text.lower (table.entry owner).name) := by
  have hbound (key : String) : (key, table.entries.size) ∈ (table.bindNew key).localScope.bindings := by
    rw [localScope_bindNew hvalid]
    simp [Scope.bind]
  cases h with
  | mention id line => exact Or.inl (by simp)
  | declare name definition type hfree hroutine hslot =>
      refine Or.inr ⟨by simp, ?_⟩
      rw [entry_modifyEntry_self (by simp), entry_bindNew, if_pos rfl]
      exact ⟨rfl, Or.inl (hbound _)⟩
  | store name kind type hfree hstores hkind =>
      refine Or.inr ⟨by simp [entries_takeSlot], ?_⟩
      rw [entry_modifyEntry_self (by simp [entries_takeSlot]), entry_takeSlot, entry_bindNew, if_pos rfl]
      refine ⟨rfl, Or.inl ?_⟩
      show _ ∈ ((table.bindNew (Text.lower name)).takeSlot.2.scope table.localScopeId).bindings
      rw [bindings_takeSlot]
      exact hbound _
  | target type =>
      refine Or.inr ⟨by simp, ?_⟩
      rw [entry_createDetached, if_pos rfl]
      exact ⟨rfl, Or.inr ⟨rfl, rfl⟩⟩

/-- Whether all entries from a handle on, but for that of a routine, belong to a scope, and each is bound to
its name there or is the target of a return of the routine. -/
def Confines (first : EntryId) (routine : EntryId) (scope : ScopeId) (table : SymbolTable) : Prop :=
  ∀ id, first ≤ id → id < table.entries.size → id ≠ routine →
    (table.entry id).scope = scope ∧
      (((table.entry id).name, id) ∈ (table.scope scope).bindings ∨
        (table.entry id).kind = .plainVariable ∧
          (table.entry id).name = Text.lower (table.entry routine).name)

theorem endures_confines (stores : List DefinitionKind) {first routine : EntryId} (scope : ScopeId) :
    Endures stores routine scope fun table => routine < table.entries.size ∧
      table.Confines first routine scope where
  extend := by
    rintro before after ⟨hlt, h⟩ hvalid rfl hextends
    have hgrows := hextends.declares.grows
    have hroutine := (hgrows.agrees routine hlt).name
    refine ⟨Nat.lt_of_lt_of_le hlt hgrows.size_le, fun id hfirst hid hne => ?_⟩
    by_cases hold : id < before.entries.size
    · have hagrees := hgrows.agrees id hold
      obtain ⟨hscope, hbound⟩ := h id hfirst hold hne
      rw [hagrees.scope, hagrees.name, hagrees.kind, hroutine]
      exact ⟨hscope, hbound.imp_left fun hmem => ((hextends.steady hvalid).bindings _).subset hmem⟩
    · rcases hextends.added hvalid with hsize | ⟨hsize, hnew⟩
      · exact absurd (hsize ▸ hid) hold
      · rw [hsize] at hid
        obtain rfl : id = before.entries.size :=
          Nat.le_antisymm (Nat.lt_succ_iff.mp hid) (Nat.le_of_not_lt hold)
        rwa [hroutine]
  reworks := by
    rintro table change ⟨hlt, h⟩ hretains
    refine ⟨by simpa using hlt, fun id hfirst hid hne => ?_⟩
    rw [entry_modifyEntry_ne hne, entry_modifyEntry_self hlt, hretains.name]
    exact h id hfirst (by simpa using hid) hne
  pop := by
    rintro table ⟨hlt, h⟩
    refine ⟨by simpa using hlt, fun id hfirst hid hne => ?_⟩
    rw [entry_pop, entry_pop, scope_pop]
    exact h id hfirst (by simpa using hid) hne

end SymbolTable

/-- A routine that agrees with what it was when it had a scope, and neither parameters nor a body yet. -/
def Call.opened (call : Call) : Routine :=
  (if call.forwarded then (call.named.table.entry call.id).routine?.getD {} else {}).opened
    call.before.table.scopes.size

namespace Call

/-- What the header gives to a routine are its parameters, and a type. -/
theorem routine?_typed (call : Call) {table : SymbolTable} (hlt : call.id < table.entries.size) (parameters : List EntryId) :
    ((call.typed table parameters).entry call.id).routine? =
        (table.entry call.id).routine?.map (fun known => { known with parameters }) ∧
      (call.typed table parameters).entries.size = table.entries.size := by
  have hlisted : ((table.modifyRoutine call.id fun known => { known with parameters }).entry call.id).routine? = _ :=
    SymbolTable.routine?_modifyRoutine hlt
  unfold typed
  split
  · rw [SymbolTable.entry_modifyEntry_self (by simpa [SymbolTable.modifyRoutine] using hlt)]
    exact ⟨hlisted, by simp [SymbolTable.modifyRoutine]⟩
  · exact ⟨hlisted, by simp [SymbolTable.modifyRoutine]⟩

variable {known : Token → Prop} {program : EntryId} {call : Call}

namespace Made

/-- What becomes of the name. -/
theorem names (h : call.Made known program) :
    call.started.Names call.invented (call.id, call.forwarded) call.named :=
  (Production.leads_of_ok h.runs.naming).mp (Production.names_routineName call.invented call.started)

theorem enters (h : call.Made known program) :
    call.before.table.Enters [Text.lower call.name.text, Text.lower call.invented] call.id
      call.named.table := by
  obtain ⟨-, hstarted, htable, -⟩ := h.started
  have henters := h.names.enters hstarted.valid
  rwa [htable] at henters

/-- The scope that is open for the routine. -/
theorem localScopeId (h : call.Made known program) :
    (call.begun program).table.localScopeId = call.before.table.scopes.size := by
  rw [SymbolTable.localScopeId, h.opens.begins.openScopes, h.enters.scopes]
  rfl

/-- The parameters of the routine are read. -/
theorem exists_parameters (h : call.Made known program) : ∃ parameters read,
    Production.enclosedParameters (call.checked program) = .ok (parameters, read) := by
  obtain ⟨headed, closed, hparts⟩ := h.parts
  obtain ⟨parameters, read, reported, hread, -⟩ := typed_header hparts.header
  exact ⟨parameters, read, hread⟩

theorem moves_parameters {parameters : List EntryId} {read : Session}
    (hread : Production.enclosedParameters (call.checked program) = .ok (parameters, read)) :
    (call.checked program).Moves [.valueParameter] call.id read :=
  Production.stays_enclosedParameters.of_run hread

/-- What outlasts moves that are made in the scope of the routine. -/
theorem endures_moves {stores : List DefinitionKind} {scope : ScopeId} {holds : SymbolTable → Prop}
    {first second : Session} (hendures : SymbolTable.Endures stores call.id scope holds)
    (hmoves : first.Moves stores call.id second) (hvalid : first.table.Valid)
    (hlocal : first.table.localScopeId = scope) (hholds : holds first.table) : holds second.table :=
  (hmoves.table_of_extends holds hvalid hholds fun _ _ hvalid hsteady hextends hholds =>
    hendures.extend hholds hvalid (hsteady.localScopeId.trans hlocal) hextends).1

/-- What holds when the parameters have been read, and outlasts what the routine does then, holds after the
call. -/
theorem endures_rest (h : call.Made known program) (himproper : Improper known)
    {holds : SymbolTable → Prop} {parameters : List EntryId} {read : Session}
    (hread : Production.enclosedParameters (call.checked program) = .ok (parameters, read))
    (hendures : SymbolTable.Endures [.plainVariable] call.id call.before.table.scopes.size holds)
    (hholds : holds read.table) : holds call.after.table := by
  obtain ⟨headed, closed, hparts⟩ := h.parts
  obtain ⟨hheading, hheaded, -, -⟩ := h.heads himproper hparts
  obtain ⟨listed, read', reported, hread', hreports, hheader⟩ := typed_header hparts.header
  obtain ⟨rfl, rfl⟩ : parameters = listed ∧ read = read' := by simpa using hread.symm.trans hread'
  have htyped : holds (call.typed read.table parameters) := by
    have hlisted : holds (read.table.modifyRoutine call.id fun known => { known with parameters }) :=
      hendures.reworks hholds (.mapRoutine fun _ => rfl)
    unfold typed
    split
    · exact hendures.reworks hlisted ⟨fun _ => rfl, fun _ => rfl, fun _ => rfl, fun _ => rfl⟩
    · exact hlisted
  have htable : headed.table = call.typed read.table parameters := by rw [hheader]
  rw [← htable] at htyped
  have hstaged (stage : RoutineStage) : holds (headed.staged call.id stage).table :=
    hendures.reworks htyped (.mapRoutine fun _ => rfl)
  rw [hparts.after]
  apply hendures.pop
  cases ends_bodyOrForward hparts.body with
  | forward hbrace hreads =>
      rw [hreads.table_eq]
      exact hstaged .forward
  | declared hbrace hcompound =>
      refine hendures.reworks ?_ (.mapRoutine fun _ => rfl)
      refine endures_moves hendures ((Production.stays_compound call.id).of_run hcompound)
        (hheaded.staged call.id .declared).valid ?_ (hstaged .declared)
      exact (hheading.steady h.opens.lawful nofun).localScopeId.trans h.localScopeId

/-- What holds when a routine has been opened, and outlasts what the routine does in its own scope, holds
after the call. -/
theorem endures (h : call.Made known program) (himproper : Improper known) {holds : SymbolTable → Prop}
    (hendures : ∀ stores, SymbolTable.Endures stores call.id call.before.table.scopes.size holds)
    (hbegun : holds (call.begun program).table) : holds call.after.table := by
  obtain ⟨parameters, read, hread⟩ := h.exists_parameters
  refine h.endures_rest himproper hread (hendures _) ?_
  exact endures_moves (hendures _) (moves_parameters hread) h.opens.lawful.valid h.localScopeId hbegun

/-- What is known about the routine after the call: its parameters, how far it has been declared, and its
body, which it has just if it has been declared in full. -/
theorem routine? (h : call.Made known program) {parameters : List EntryId} {read : Session}
    (hread : Production.enclosedParameters (call.checked program) = .ok (parameters, read)) :
    ∃ stage body, (stage = .declared ↔ body.isSome = true) ∧
      (call.after.table.entry call.id).routine? =
        some { call.opened with parameters, stage := some stage, body } := by
  obtain ⟨headed, closed, hparts⟩ := h.parts
  obtain ⟨listed, read', reported, hread', hreports, hheader⟩ := typed_header hparts.header
  obtain ⟨rfl, rfl⟩ : parameters = listed ∧ read = read' := by simpa using hread.symm.trans hread'
  have hbegun : ((call.begun program).table.entry call.id).routine? = some call.opened := by
    rw [h.opens.begins.routine?, Call.opened, h.enters.scopes]
  have hgrows : (call.begun program).table.Grows read.table := (moves_parameters hread).grows
  have hlt : call.id < (call.begun program).table.entries.size := by
    rw [h.opens.begins.size]
    exact h.opens.target.lt
  obtain ⟨htyped, hsize⟩ := call.routine?_typed (Nat.lt_of_lt_of_le hlt hgrows.size_le) parameters
  rw [(hgrows.agrees call.id hlt).routine?, hbegun, Option.map_some] at htyped
  have htable : headed.table = call.typed read.table parameters := by rw [hheader]
  rw [← htable] at htyped hsize
  have hid : call.id < headed.table.entries.size := by
    rw [hsize]
    exact Nat.lt_of_lt_of_le hlt hgrows.size_le
  have hstaged (stage : RoutineStage) : ((headed.staged call.id stage).table.entry call.id).routine? =
      some { call.opened with parameters, stage := some stage } := by
    have hstage : ((headed.staged call.id stage).table.entry call.id).routine? = _ :=
      SymbolTable.routine?_modifyRoutine hid
    rw [hstage, htyped]
    rfl
  rw [hparts.after]
  show ∃ stage body, _ ∧ (closed.table.pop.2.entry call.id).routine? = _
  rw [SymbolTable.entry_pop]
  cases ends_bodyOrForward hparts.body with
  | forward hbrace hreads =>
      refine ⟨.forward, none, by simp, ?_⟩
      rw [hreads.table_eq, hstaged]
      rfl
  | @declared made body hbrace hcompound =>
      have hid' : call.id < (headed.staged call.id .declared).table.entries.size := by
        simpa [Session.staged, SymbolTable.modifyRoutine] using hid
      have hgrows := ((Production.stays_compound call.id).of_run hcompound).grows
      refine ⟨.declared, some body, by simp, ?_⟩
      rw [SymbolTable.routine?_modifyRoutine (Nat.lt_of_lt_of_le hid' hgrows.size_le),
        (hgrows.agrees call.id hid').routine?, hstaged]
      rfl

/-- Beside the scope and the entry of the routine nothing changes once the routine has been opened. -/
theorem spares (h : call.Made known program) (himproper : Improper known) :
    (call.begun program).table.Spares call.id call.before.table.scopes.size call.after.table := by
  refine h.endures himproper (fun stores => SymbolTable.Spares.endures stores _ _ _)
    (.refl ?_)
  rw [h.opens.begins.size]
  exact h.opens.target.lt

/-- The only routine that a call makes is its own. -/
theorem plain (h : call.Made known program) (himproper : Improper known) {id : EntryId}
    (hid : call.before.table.entries.size ≤ id) (hne : id ≠ call.id) :
    (call.after.table.entry id).routine? = none := by
  refine (h.spares himproper).plain id ?_
  rw [h.opens.begins.size]
  rcases h.enters.size with hsame | ⟨hnew, hmore⟩
  · rwa [hsame]
  · rw [hmore, ← hnew]
    exact Nat.lt_of_le_of_ne (hnew ▸ hid) (Ne.symm hne)

/-- All that the header and the body of a routine enter is entered in the scope of the routine. -/
theorem confines (h : call.Made known program) (himproper : Improper known) :
    call.after.table.Confines call.before.table.entries.size call.id
      call.before.table.scopes.size := by
  refine (h.endures himproper (fun stores => SymbolTable.endures_confines stores _)
    ⟨?_, fun id hfirst hid hne => ?_⟩).2
  · rw [h.opens.begins.size]
    exact h.opens.target.lt
  · -- the naming has entered nothing but the routine itself
    rw [h.opens.begins.size] at hid
    rcases h.enters.size with hsize | ⟨hnew, hsize⟩ <;> rw [hsize] at hid
    · exact absurd hid (Nat.not_lt.mpr hfirst)
    · exact absurd (Nat.le_antisymm (Nat.lt_succ_iff.mp hid) hfirst) (hnew ▸ hne)

/-- After the call the same scopes are open, and the program stays the same. -/
theorem openScopes (h : call.Made known program) (himproper : Improper known) :
    call.after.table.openScopes = call.before.table.openScopes ∧
      call.after.table.program = call.before.table.program :=
  (h.item himproper).openScopes h.lawful

theorem localScopeId_eq (h : call.Made known program) (himproper : Improper known) :
    call.after.table.localScopeId = call.before.table.localScopeId := by
  rw [SymbolTable.localScopeId, (h.openScopes himproper).1]
  rfl

/-- A call opens one scope. -/
theorem scopes_size (h : call.Made known program) (himproper : Improper known) :
    call.after.table.scopes.size = call.before.table.scopes.size + 1 := by
  rw [(h.spares himproper).scopes, h.opens.begins.scopes, h.enters.scopes]

/-- The scope that a call opens is that of its routine. -/
theorem frame (h : call.Made known program) (himproper : Improper known) :
    (call.after.table.entry call.id).frame? = some call.before.table.scopes.size := by
  rw [(h.spares himproper).frame, h.opens.begins.frame?, h.enters.scopes]

/-- In the scopes that there were before nothing changes but what the naming does. -/
theorem scope_eq (h : call.Made known program) (himproper : Improper known) {scope : ScopeId}
    (hscope : scope < call.before.table.scopes.size) :
    call.after.table.scope scope = call.named.table.scope scope := by
  have hne : scope ≠ call.before.table.scopes.size := Nat.ne_of_lt hscope
  rw [(h.spares himproper).elsewhere scope hne]
  exact h.opens.begins.elsewhere scope (by rwa [h.enters.scopes])

/-- The entries that there were before agree with what they were, but for those of the routine and of the
program. -/
theorem agrees (h : call.Made known program) (himproper : Improper known) {id : EntryId}
    (hid : id < call.before.table.entries.size) (hne : id ≠ call.id) (hprogram : id ≠ program) :
    (call.before.table.entry id).Agrees (call.after.table.entry id) := by
  have hgrows := h.opens.target.grows
  have hlt : id < (call.begun program).table.entries.size := by
    rw [h.opens.begins.size]
    exact Nat.lt_of_lt_of_le hid hgrows.size_le
  have hafter := (h.spares himproper).agrees id hlt hne
  rw [h.opens.begins.other id hne hprogram] at hafter
  exact (hgrows.agrees id hid).trans hafter

/-- Of the program nothing changes but the place of the routine in it. -/
theorem agrees_program (h : call.Made known program) (himproper : Improper known) :
    ((call.before.table.entry program).mapRoutine fun known =>
      known.placing call.id ((call.named.table.entry call.id).beginsProgram call.kind)
        call.forwarded).Agrees (call.after.table.entry program) := by
  have hgrows := h.opens.target.grows
  have hne : program ≠ call.id := Ne.symm h.opens.apart
  have hlt : program < (call.begun program).table.entries.size := by
    rw [h.opens.begins.size]
    exact Nat.lt_of_lt_of_le h.hosts.lt hgrows.size_le
  have hafter := (h.spares himproper).agrees program hlt hne
  rw [h.opens.begins.program] at hafter
  exact ((hgrows.agrees program h.hosts.lt).mapRoutine _).trans hafter

end Made

end Call

/-! ## Between calls -/

namespace History

variable {known : Token → Prop} {program : EntryId} {start session : Session} {calls : List Call}

/-- Each call opens one scope, and nothing else does. -/
theorem scopes_size (h : History known program start calls session) (himproper : Improper known) :
    session.table.scopes.size = start.table.scopes.size + calls.length := by
  induction h with
  | nil => rfl
  | @goes calls before after _ hlawful _ hgoes ih =>
      rw [← ih]
      cases hgoes with
      | moves hmoves => exact (hmoves.steady hlawful.valid).scopes
      | appends node hmoves => exact (hmoves.steady hlawful.valid).scopes
  | call _ hmade ih =>
      rw [hmade.scopes_size himproper, ih, List.length_append, List.length_singleton, Nat.add_assoc]

/-- Between calls the same scopes are open as at the start, and the program stays the same. -/
theorem openScopes (h : History known program start calls session) (himproper : Improper known) :
    session.table.openScopes = start.table.openScopes ∧
      session.table.program = start.table.program :=
  (h.items himproper).openScopes

theorem localScopeId_eq (h : History known program start calls session) (himproper : Improper known) :
    session.table.localScopeId = start.table.localScopeId :=
  (h.items himproper).localScopeId_eq

end History

/-- The scope of the program, which is opened right after the global one. -/
def SymbolTable.programScope : ScopeId := globalScope + 1

theorem SymbolTable.openScopes_unitTable : unitTable.openScopes = [programScope] := by decide +kernel

theorem SymbolTable.localScopeId_unitTable : unitTable.localScopeId = programScope := by decide +kernel

theorem SymbolTable.scopes_size_unitTable : unitTable.scopes.size = 2 := by decide +kernel

theorem frame_program {stream : TokenStream} {unit : CompilationUnit} (h : compile stream = .ok unit) :
    (unit.table.entry unit.program).frame? = some SymbolTable.programScope := by
  obtain ⟨session, ended, -, hitems, hprogram, htable, -⟩ := compile_items h
  have hhouses := hitems.houses SymbolTable.houses_unitTable
  rw [hprogram, htable, SymbolTable.entry_pop, hhouses.frame, hitems.localScopeId_eq,
    SymbolTable.localScopeId_unitTable]

end FrontEnd
