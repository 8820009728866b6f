import FrontEnd.Proofs.Frame
import FrontEnd.Proofs.Storage

/-!
# The layout of frames

In a unit that has been compiled, with errors or without, every scope but the global one is a frame: its
variables and value parameters have consecutive slots in the order of their declaration
(`SymbolTable.NumberedFrom`).  The parameters of a routine are those of its scope, all of them, and they come
before its variables (`SymbolTable.Heads`), whatever other headers the routine has had (`compile_frames`).

## Strategy

The slots follow from what is known of frames (`History.framed`).  That parameters come first is kept by all
that happens outside of headers, since only variables are stored there, and it need not be known to which
routine a scope belongs.  A header begins with a new scope, which stores nothing, and collects the parameters
in it.
-/

namespace FrontEnd

namespace SymbolTable

/-! ## Slots -/

/-- Whether what a scope stores has consecutive slots from a first one on, in the order of declaration; the
next slot of the scope follows, and the last that has been handed out, which is zero if there is none, is the
one before. -/
structure NumberedFrom (table : SymbolTable) (scope : ScopeId) (first : Nat) : Prop where
  slots : (table.storage scope).map table.slotOf = List.range' first (table.storage scope).length
  next : (table.scope scope).nextSlot = first + (table.storage scope).length
  last : (table.scope scope).maxSlot = (table.scope scope).nextSlot - 1

section

variable {table : SymbolTable} {scope : ScopeId} {level first : Nat}

/-- What is stored are the entries that have slots. -/
theorem slot?_eq_of_kind {entry : Entry} (hkind : entry.kind ≠ .varParameter) :
    entry.definition.slot? = if entry.isStored then some (entry.definition.slot?.getD 0) else none := by
  obtain ⟨name, scope, definition, type, lines⟩ := entry
  cases definition <;>
    simp_all [Entry.isStored, Entry.kind, Definition.kind, Definition.slot?]

theorem slots_eq_map (hkinds : ∀ id, (table.entry id).kind ≠ .varParameter) (scope : ScopeId) :
    table.slots scope = (table.storage scope).map table.slotOf := by
  unfold SymbolTable.slots storage
  induction (table.scope scope).entries with
  | nil => rfl
  | cons id rest ih =>
      rw [List.filterMap_cons, slot?_eq_of_kind (hkinds id), List.filter_cons]
      cases hstored : (table.entry id).isStored with
      | false => simpa using ih
      | true => simpa [SymbolTable.slotOf] using ih

/-- A frame numbers what it stores. -/
theorem Framed.numberedFrom (h : table.Framed scope level first)
    (hkinds : ∀ id, (table.entry id).kind ≠ .varParameter) : table.NumberedFrom scope first := by
  have hslots := slots_eq_map hkinds scope
  have hlength : (table.slots scope).length = (table.storage scope).length := by
    rw [hslots, List.length_map]
  refine ⟨?_, ?_, h.last⟩
  · rw [← hslots, ← hlength]
    exact h.slots
  · rw [← hlength]
    exact h.next

end

/-! ## Parameters -/

/-- Whether what a scope stores are some parameters, and after them variables. -/
def Heads (table : SymbolTable) (scope : ScopeId) (parameters : List EntryId) : Prop :=
  ∃ locals, table.storage scope = parameters ++ locals ∧
    (∀ id ∈ parameters, (table.entry id).kind = .valueParameter) ∧
      ∀ id ∈ locals, (table.entry id).kind = .plainVariable

namespace Heads

variable {table first second : SymbolTable} {scope : ScopeId} {parameters : List EntryId}

/-- The parameters are all that the scope binds, and they come first. -/
theorem parameters_eq (h : table.Heads scope parameters) :
    parameters = (table.scope scope).entries.filter (fun id => (table.entry id).kind == .valueParameter) ∧
      parameters <+: table.storage scope := by
  obtain ⟨locals, hstorage, hparameters, hlocals⟩ := h
  have hparameters' : parameters.filter (fun id => (table.entry id).kind == .valueParameter) = parameters :=
    List.filter_eq_self.mpr fun id hmem => by simp [hparameters id hmem]
  have hlocals' : locals.filter (fun id => (table.entry id).kind == .valueParameter) = [] :=
    List.filter_eq_nil_iff.mpr fun id hmem => by simp [hlocals id hmem]
  have hfilter := congrArg (List.filter fun id => (table.entry id).kind == .valueParameter) hstorage
  rw [List.filter_append, hparameters', hlocals', List.append_nil, storage, List.filter_filter] at hfilter
  refine ⟨?_, locals, hstorage.symm⟩
  rw [← hfilter]
  refine List.filter_congr fun id _ => ?_
  cases hkind : (table.entry id).kind <;> simp [Entry.isStored, hkind]

/-- Parameters still come first if a scope binds nothing more that is stored, and entries keep their kinds
unless they are not stored. -/
theorem of_append (h : first.Heads scope parameters) {added : List EntryId}
    (hentries : (second.scope scope).entries = (first.scope scope).entries ++ added)
    (hadded : ∀ id ∈ added, (second.entry id).isStored = false)
    (hkept : ∀ id ∈ (first.scope scope).entries, (second.entry id).kind = (first.entry id).kind ∨
      (first.entry id).isStored = false ∧ (second.entry id).isStored = false) :
    second.Heads scope parameters := by
  obtain ⟨locals, hstorage, hparameters, hlocals⟩ := h
  have hkind : ∀ id ∈ parameters ++ locals, (second.entry id).kind = (first.entry id).kind := by
    intro id hmem
    rw [← hstorage] at hmem
    refine (hkept id (mem_entries_of_mem_storage hmem)).resolve_right fun hnot => ?_
    simpa [hnot.1] using List.of_mem_filter hmem
  have hsame : second.storage scope = first.storage scope := by
    have hmore := storage_append added hentries fun id hmem => by
      rcases hkept id hmem with hkind | ⟨hfirst, hsecond⟩
      · rw [Entry.isStored, hkind, Entry.isStored]
      · rw [hfirst, hsecond]
    have hnone : added.filter (fun id => (second.entry id).isStored) = [] :=
      List.filter_eq_nil_iff.mpr fun id hmem => by simp [hadded id hmem]
    rwa [hnone, List.append_nil] at hmore
  refine ⟨locals, hsame.trans hstorage, fun id hmem => ?_, fun id hmem => ?_⟩
  · rw [hkind id (List.mem_append_left _ hmem)]
    exact hparameters id hmem
  · rw [hkind id (List.mem_append_right _ hmem)]
    exact hlocals id hmem

/-- A variable is stored after the parameters, in whatever scope it is. -/
theorem extend {owner : EntryId} (h : first.Heads scope parameters) (hvalid : first.Valid)
    (hextends : first.Extends [.plainVariable] owner second) : second.Heads scope parameters := by
  obtain ⟨locals, hstorage, hparameters, hlocals⟩ := h
  have hkind : ∀ id ∈ parameters ++ locals, (second.entry id).kind = (first.entry id).kind := by
    intro id hmem
    rw [← hstorage] at hmem
    have hlt := hvalid.bound_lt id ⟨scope, mem_entries_of_mem_storage hmem⟩
    exact (hextends.declares.grows.agrees id hlt).kind
  have hparameters' : ∀ id ∈ parameters, (second.entry id).kind = .valueParameter := fun id hmem =>
    (hkind id (List.mem_append_left _ hmem)).trans (hparameters id hmem)
  have hlocals' : ∀ id ∈ locals, (second.entry id).kind = .plainVariable := fun id hmem =>
    (hkind id (List.mem_append_right _ hmem)).trans (hlocals id hmem)
  rcases hextends.storage hvalid scope with hsame | ⟨hmore, hnew⟩
  · exact ⟨locals, hsame.trans hstorage, hparameters', hlocals'⟩
  · refine ⟨locals ++ [first.entries.size], ?_, hparameters', fun id hmem => ?_⟩
    · rw [hmore, hstorage, List.append_assoc]
    · rcases List.mem_append.mp hmem with hold | hlast
      · exact hlocals' id hold
      · rw [List.mem_singleton.mp hlast]
        exact List.mem_singleton.mp hnew

/-- Parameters come first whatever is changed of entries that keep their kinds. -/
theorem modifyEntry (h : table.Heads scope parameters) {id : EntryId} {change : Entry → Entry}
    (hkind : (change (table.entry id)).kind = (table.entry id).kind) :
    (table.modifyEntry id change).Heads scope parameters := by
  refine h.of_append (List.append_nil _).symm (by simp) fun other _ => Or.inl ?_
  rw [entry_modifyEntry]
  split
  · next hsame => rw [hsame.1, hkind]
  · rfl

theorem pop (h : table.Heads scope parameters) : table.pop.2.Heads scope parameters := by
  have hentries : (table.pop.2.scope scope).entries = (table.scope scope).entries ++ [] := by
    rw [scope_pop, List.append_nil]
  exact h.of_append hentries (by simp) fun other _ => Or.inl (by rw [entry_pop])

theorem endures (routine : EntryId) (opened : ScopeId) (scope : ScopeId) (parameters : List EntryId) :
    Endures [.plainVariable] routine opened fun table => table.Heads scope parameters where
  extend h hvalid _ hextends := h.extend hvalid hextends
  reworks h hretains := h.modifyEntry (hretains.kind _)
  pop h := h.pop

end Heads

/-- Whether every routine has a scope of its own to which its parameters belong, and there they come
first. -/
def Headed (table : SymbolTable) : Prop :=
  ∀ id routine, (table.entry id).routine? = some routine →
    ∃ scope, routine.scope = some scope ∧ scope ≠ globalScope ∧ scope < table.scopes.size ∧
      table.Heads scope routine.parameters

/-- What lies between two calls leaves the parameters of all routines where they are. -/
theorem headed_extend {first second : SymbolTable} {owner : EntryId} (h : first.Headed)
    (hvalid : first.Valid) (hextends : first.Extends [.plainVariable] owner second) : second.Headed := by
  intro id routine hroutine
  have hgrows := hextends.declares.grows
  by_cases hid : id < first.entries.size
  · rw [(hgrows.agrees id hid).routine?] at hroutine
    obtain ⟨scope, hscope, hglobal, hlt, hheads⟩ := h id routine hroutine
    exact ⟨scope, hscope, hglobal, by rwa [(hextends.steady hvalid).scopes],
      hheads.extend hvalid hextends⟩
  · simp [hgrows.plain id (Nat.le_of_not_lt hid)] at hroutine

theorem headed_modifyRoutine {table : SymbolTable} {id : EntryId} {change : Routine → Routine}
    (h : table.Headed) (hscope : ∀ routine, (change routine).scope = routine.scope)
    (hparameters : ∀ routine, (change routine).parameters = routine.parameters) :
    (table.modifyRoutine id change).Headed := by
  intro other routine hroutine
  have hbefore : ∃ before, (table.entry other).routine? = some before ∧
      routine.scope = before.scope ∧ routine.parameters = before.parameters := by
    rw [SymbolTable.modifyRoutine, entry_modifyEntry] at hroutine
    split at hroutine
    · next hsame =>
        rw [Entry.routine?_mapRoutine] at hroutine
        obtain ⟨before, hbefore, rfl⟩ := Option.map_eq_some_iff.mp hroutine
        exact ⟨before, hsame.1 ▸ hbefore, hscope before, hparameters before⟩
    · exact ⟨routine, hroutine, rfl, rfl⟩
  obtain ⟨before, hsome, hsame, hlisted⟩ := hbefore
  obtain ⟨scope, hscope, hglobal, hlt, hheads⟩ := h other before hsome
  exact ⟨scope, hsame.trans hscope, hglobal, hlt, hlisted ▸ hheads.modifyEntry (Entry.kind_mapRoutine _ _)⟩

end SymbolTable

/-! ## Calls -/

namespace Call.Made

variable {known : Token → Prop} {program : EntryId} {call : Call}

/-- The parameters that a header declares are all that the scope of the routine stores then. -/
theorem collects (h : call.Made known program) {parameters : List EntryId} {read : Session}
    (hread : Production.enclosedParameters (call.checked program) = .ok (parameters, read)) :
    read.Collects call.before.table.scopes.size parameters := by
  refine (Production.leads_of_ok hread).mp (Production.collects_enclosedParameters ?_)
  refine ⟨h.opens.lawful.valid, h.localScopeId, ?_, by simp⟩
  have hfresh := h.opens.begins.fresh
  rw [h.enters.scopes] at hfresh
  show SymbolTable.storage (call.begun program).table _ = []
  rw [SymbolTable.storage, Scope.entries_eq, hfresh]
  rfl

/-- In the scope of the routine the parameters come first. -/
theorem parametersFirst (h : call.Made known program) (himproper : Improper known) {parameters : List EntryId}
    {read : Session}
    (hread : Production.enclosedParameters (call.checked program) = .ok (parameters, read)) :
    call.after.table.Heads call.before.table.scopes.size parameters := by
  have hcollects := h.collects hread
  have hheads : read.table.Heads call.before.table.scopes.size parameters :=
    ⟨[], by rw [hcollects.storage, List.append_nil], hcollects.kind, by simp⟩
  exact h.endures_rest himproper hread (SymbolTable.Heads.endures _ _ _ _) hheads

/-- An entry keeps its kind, unless it stands for a routine before and after the call. -/
theorem kind_or (h : call.Made known program) (himproper : Improper known) {id : EntryId}
    (hid : id < call.before.table.entries.size) :
    (call.after.table.entry id).kind = (call.before.table.entry id).kind ∨
      (call.before.table.entry id).isStored = false ∧
        (call.after.table.entry id).isStored = false := by
  have hstored {entry : Entry} (hroutine : entry.routine?.isSome) : entry.isStored = false :=
    Entry.not_isStored_of_slot? (SymbolTable.slot?_of_routine? hroutine)
  by_cases hself : id = call.id
  · subst hself
    obtain ⟨parameters, read, hread⟩ := h.exists_parameters
    obtain ⟨stage, body, -, hroutine⟩ := h.routine? hread
    refine Or.inr ⟨hstored ?_, hstored (by simp [hroutine])⟩
    cases hforwarded : call.forwarded with
    | true => exact Production.isSome_of_stage (h.opens.target.forward hforwarded)
    | false => exact absurd hid (Nat.not_lt.mpr (h.opens.target.fresh hforwarded).1)
  · by_cases hprogram : id = program
    · rw [hprogram, (h.agrees_program himproper).kind, Entry.kind_mapRoutine]
      exact Or.inl rfl
    · exact Or.inl (h.agrees himproper hid hself hprogram).kind

/-- In another scope the parameters stay where they are: it gets one routine at most. -/
theorem heads_before (h : call.Made known program) (himproper : Improper known) {scope : ScopeId}
    {parameters : List EntryId} (hscope : scope < call.before.table.scopes.size)
    (hheads : call.before.table.Heads scope parameters) : call.after.table.Heads scope parameters := by
  have hkept : ∀ id ∈ (call.before.table.scope scope).entries, _ := fun id hmem =>
    h.kind_or himproper (h.lawful.valid.bound_lt id ⟨scope, hmem⟩)
  have hself : (call.after.table.entry call.id).isStored = false := by
    obtain ⟨parameters, read, hread⟩ := h.exists_parameters
    obtain ⟨stage, body, -, hroutine⟩ := h.routine? hread
    exact Entry.not_isStored_of_slot? (SymbolTable.slot?_of_routine? (by simp [hroutine]))
  have hsame (hscope : call.named.table.scope scope = call.before.table.scope scope)
      (hafter : call.after.table.scope scope = call.named.table.scope scope) :
      call.after.table.Heads scope parameters := by
    have hentries : (call.after.table.scope scope).entries =
        (call.before.table.scope scope).entries ++ [] := by
      rw [hafter, hscope, List.append_nil]
    exact hheads.of_append hentries (by simp) hkept
  have hafter := h.scope_eq himproper hscope
  by_cases hlocal : scope = call.before.table.localScopeId
  · subst hlocal
    have hnamed : call.named.table.scope call.before.table.localScopeId =
        call.named.table.localScope := by
      rw [SymbolTable.localScope, SymbolTable.localScopeId, SymbolTable.localScopeId,
        h.enters.openScopes]
    rcases h.enters.here with hhere | ⟨key, -, -, hhere⟩
    · exact hsame (hnamed.trans hhere) hafter
    · refine hheads.of_append ?_ (fun id hmem => List.mem_singleton.mp hmem ▸ hself) hkept
      rw [hafter, hnamed, hhere]
      rfl
  · exact hsame (h.enters.elsewhere scope hlocal) hafter

/-- The parameters of all routines stay where they are, and those of the routine of the call come first in
its scope. -/
theorem headed (h : call.Made known program) (himproper : Improper known)
    (hheaded : call.before.table.Headed) : call.after.table.Headed := by
  have hlt : call.before.table.scopes.size < call.after.table.scopes.size := by
    rw [h.scopes_size himproper]
    exact Nat.lt_succ_self _
  -- a routine that was there before, with the same scope and the same parameters
  have hold {id : EntryId} {before routine : Routine}
      (hbefore : (call.before.table.entry id).routine? = some before)
      (hscope : routine.scope = before.scope) (hparameters : routine.parameters = before.parameters) :
      ∃ scope, routine.scope = some scope ∧ scope ≠ globalScope ∧ scope < call.after.table.scopes.size ∧
        call.after.table.Heads scope routine.parameters := by
    obtain ⟨scope, hsome, hglobal, hbound, hheads⟩ := hheaded id before hbefore
    refine ⟨scope, hscope.trans hsome, hglobal, Nat.lt_trans hbound hlt, ?_⟩
    rw [hparameters]
    exact h.heads_before himproper hbound hheads
  intro id routine hroutine
  by_cases hself : id = call.id
  · subst hself
    obtain ⟨parameters, read, hread⟩ := h.exists_parameters
    obtain ⟨stage, body, -, hknown⟩ := h.routine? hread
    obtain rfl := Option.some.inj (hroutine.symm.trans hknown)
    refine ⟨call.before.table.scopes.size, rfl, ?_, hlt, h.parametersFirst himproper hread⟩
    exact Nat.ne_of_gt h.lawful.valid.scopes_pos
  · by_cases hprogram : id = program
    · subst hprogram
      rw [(h.agrees_program himproper).routine?, Entry.routine?_mapRoutine] at hroutine
      obtain ⟨before, hbefore, rfl⟩ := Option.map_eq_some_iff.mp hroutine
      refine hold hbefore ?_ ?_ <;>
        · unfold Routine.placing
          split_ifs <;> rfl
    · by_cases hid : id < call.before.table.entries.size
      · rw [(h.agrees himproper hid hself hprogram).routine?] at hroutine
        exact hold hroutine rfl rfl
      · simp [h.plain himproper (Nat.le_of_not_lt hid) hself] at hroutine

end Call.Made

/-! ## Histories -/

theorem Session.Goes.headed {program : EntryId} {session later : Session}
    (h : session.Goes program later) (hvalid : session.table.Valid) (hheaded : session.table.Headed) :
    later.table.Headed := by
  have hmoves {stated : Session} (hmoves : session.Moves [.plainVariable] program stated) :
      stated.table.Headed :=
    (hmoves.table_of_extends SymbolTable.Headed hvalid hheaded fun _ _ hvalid _ hextends hfirst =>
      SymbolTable.headed_extend hfirst hvalid hextends).1
  cases h with
  | moves h => exact hmoves h
  | appends node h =>
      exact SymbolTable.headed_modifyRoutine (hmoves h) (scope_appendStatement node)
        (Production.parameters_appendStatement node)

theorem History.headed {known : Token → Prop} {program : EntryId} {start session : Session}
    {calls : List Call} (h : History known program start calls session) (himproper : Improper known)
    (hheaded : start.table.Headed) : session.table.Headed := by
  induction h with
  | nil => exact hheaded
  | goes _ hlawful _ hgoes ih => exact hgoes.headed hlawful.valid ih
  | call _ hmade ih => exact hmade.headed himproper ih

/-! ## Units -/

/-- At the start there is no routine but the program, which has no parameters. -/
theorem SymbolTable.headed_unitTable : unitTable.Headed := by
  have hall : ∀ entry ∈ unitTable.entries.toList, ∀ routine ∈ entry.routine?,
      routine.scope = some 1 ∧ routine.parameters = [] := by decide +kernel
  have hentry := forall_entry hall nofun
  intro id routine hroutine
  obtain ⟨hscope, hparameters⟩ := hentry id routine hroutine
  refine ⟨1, hscope, by decide, by decide +kernel, [], ?_, by simp [hparameters], by simp⟩
  rw [hparameters]
  decide +kernel

/-- The scopes of a unit, given the calls of the production for routines: there are two and one for each
call, which is numbered by the calls before; all of them but the global one number what they store, from one
on if the call is for the function `main` and else from zero on; and the parameters of each routine are those
that its scope binds, in order, and come first. -/
structure CompilationUnit.HasFrames (unit : CompilationUnit) (calls : List Call) : Prop where
  size : unit.table.scopes.size = 2 + calls.length
  program : unit.table.NumberedFrom 1 0
  routines : ∀ before call after, calls = before ++ call :: after →
    call.before.table.scopes.size = 2 + before.length ∧
      unit.table.NumberedFrom (2 + before.length) call.firstSlot
  parameters : ∀ id routine, (unit.table.entry id).routine? = some routine →
    ∃ scope, routine.scope = some scope ∧ scope ≠ globalScope ∧ scope < unit.table.scopes.size ∧
      routine.parameters = (unit.table.scope scope).entries.filter
        (fun id => (unit.table.entry id).kind == .valueParameter) ∧
      routine.parameters <+: unit.table.storage scope

/-- The frames of a unit, with errors in it or without. -/
theorem compile_frames {stream : TokenStream} {unit : CompilationUnit} (h : compile stream = .ok unit) :
    ∃ session calls ended, Session.start stream = .ok session ∧
      History (fun _ => True) unit.program { session with table := SymbolTable.unitTable } calls ended ∧
        unit.table = ended.table.pop.2 ∧ unit.HasFrames calls := by
  obtain ⟨session, calls, ended, hstart, hhistory, hprogram, htable, -⟩ := compile_history h
  have hvalid := (compile_sound h).1
  have hnumbered {scope : ScopeId} {level first : Nat} (hframed : ended.table.Framed scope level first) :
      unit.table.NumberedFrom scope first := by
    have hclosed := (SymbolTable.lasts_framed unit.program scope level first).pop hframed
    rw [← htable] at hclosed
    exact hclosed.numberedFrom hvalid.kinds
  refine ⟨session, calls, ended, hstart, hprogram ▸ hhistory, htable, ?_, ?_, ?_, ?_⟩
  · rw [htable, SymbolTable.scopes_pop, hhistory.scopes_size_unit improper_any]
  · exact hnumbered (hhistory.framed_outer improper_any).2
  · intro before call after hcalls
    obtain ⟨hnumber, hframed⟩ := hhistory.framed_unit improper_any hcalls
    exact ⟨hnumber, hnumbered hframed⟩
  · intro id routine hroutine
    rw [htable, SymbolTable.entry_pop] at hroutine
    obtain ⟨scope, hscope, hglobal, hlt, hheads⟩ :=
      hhistory.headed improper_any SymbolTable.headed_unitTable id routine hroutine
    refine ⟨scope, hscope, hglobal, by rwa [htable, SymbolTable.scopes_pop], ?_⟩
    rw [htable]
    exact hheads.pop.parameters_eq

/-- A second header of a forwarded function has a frame of its own, with the parameters that it declares and
not with those of the first; the second of them is bound already. -/
theorem compile_frames_forwarded :
    ∃ unit, compileText "int f(int a, int b); int f(int c, int c) \x7b int x; \x7d" = .ok unit ∧
      (unit.table.scope 2).bindings.map Prod.fst = ["a", "b"] ∧
      (unit.table.scope 3).bindings.map Prod.fst = ["c", "x"] ∧
      (unit.table.storage 3).map (fun id => (unit.table.entry id).kind) = [.valueParameter, .plainVariable] ∧
      ∃ session calls ended,
        Session.start (Scanner.stream
          (.ofText "int f(int a, int b); int f(int c, int c) \x7b int x; \x7d")) = .ok session ∧
        History (fun _ => True) unit.program { session with table := SymbolTable.unitTable } calls ended ∧
          unit.table = ended.table.pop.2 ∧ unit.HasFrames calls := by
  have hcompiled : ∃ unit,
      compileText "int f(int a, int b); int f(int c, int c) \x7b int x; \x7d" = .ok unit ∧
        (unit.table.scope 2).bindings.map Prod.fst = ["a", "b"] ∧
          (unit.table.scope 3).bindings.map Prod.fst = ["c", "x"] ∧
            (unit.table.storage 3).map (fun id => (unit.table.entry id).kind) =
              [.valueParameter, .plainVariable] := exists_compiled (by decide +kernel)
  obtain ⟨unit, hunit, hfirst, hsecond, hkinds⟩ := hcompiled
  exact ⟨unit, hunit, hfirst, hsecond, hkinds, compile_frames hunit⟩

end FrontEnd
