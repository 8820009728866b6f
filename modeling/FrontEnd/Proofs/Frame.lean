import FrontEnd.Proofs.Extent
import FrontEnd.Proofs.ReturnSlots

/-!
# Frames

Every scope but the global one is the frame of a routine: of the program, or of the routine whose header
opened it.  Its variables and parameters have consecutive slots in the order of their declaration, from a
first one on that the header decides: the function `main` keeps the first slot of its frame free
(`Call.firstSlot`).

What is said of a frame (`SymbolTable.Framed`) is said of one scope, from when it is opened.  It outlasts
all that items do (`lasts_framed`), whether the scope is open or closed, so it holds of every scope of a
unit (`History.framed`).
-/

namespace FrontEnd

namespace SymbolTable

/-- The slots of the variables and parameters that a scope binds, in the order of their declaration. -/
def slots (table : SymbolTable) (scope : ScopeId) : List Nat :=
  (table.scope scope).entries.filterMap fun id => (table.entry id).definition.slot?

/-- Whether a scope has a level and hands out its slots one after the other, from a first one on. -/
structure Framed (table : SymbolTable) (scope : ScopeId) (level first : Nat) : Prop where
  lt : scope < table.scopes.size
  level : (table.scope scope).level = level
  slots : table.slots scope = List.range' first (table.slots scope).length
  next : (table.scope scope).nextSlot = first + (table.slots scope).length
  last : (table.scope scope).maxSlot = (table.scope scope).nextSlot - 1

section

variable {table earlier later : SymbolTable} {scope : ScopeId} {level first : Nat}

/-- The slots of a scope stay if what it binds does, and no slot is changed. -/
theorem slots_congr (hentries : (later.scope scope).entries = (earlier.scope scope).entries)
    (hslot : ∀ id ∈ (earlier.scope scope).entries,
      (later.entry id).definition.slot? = (earlier.entry id).definition.slot?) :
    later.slots scope = earlier.slots scope := by
  unfold slots
  rw [hentries]
  exact List.filterMap_congr hslot

/-- A new entry that a scope binds adds its slot, if it has one. -/
theorem Adds.slots (h : earlier.Adds later) (hvalid : earlier.Valid) (scope : ScopeId) :
    later.slots scope = earlier.slots scope ∧
        (later.scope scope).nextSlot = (earlier.scope scope).nextSlot ∨
      later.slots scope = earlier.slots scope ++ [(earlier.scope scope).nextSlot] ∧
        (later.scope scope).nextSlot = (earlier.scope scope).nextSlot + 1 := by
  have hslot : ∀ id ∈ (earlier.scope scope).entries,
      (later.entry id).definition.slot? = (earlier.entry id).definition.slot? := by
    intro id hmem
    rw [h.entry id (hvalid.bound_lt id ⟨scope, hmem⟩)]
  rcases h.entries scope with ⟨hsame, hnext⟩ | ⟨hlocal, hmore, hnext⟩
  · exact Or.inl ⟨slots_congr hsame hslot, hnext⟩
  · have hbefore : (earlier.scope scope).entries.filterMap
        (fun id => (later.entry id).definition.slot?) = earlier.slots scope :=
      List.filterMap_congr hslot
    have hslots : later.slots scope = earlier.slots scope ++
        (later.entry earlier.entries.size).definition.slot?.toList := by
      rw [SymbolTable.slots, hmore, List.filterMap_append, hbefore]
      cases hnew : (later.entry earlier.entries.size).definition.slot? <;> simp [hnew]
    cases hnew : (later.entry earlier.entries.size).definition.slot? with
    | none =>
        rw [hnew] at hslots hnext
        exact Or.inl ⟨by simpa using hslots, by simpa using hnext⟩
    | some slot =>
        -- the new entry has been given the next slot
        obtain rfl : slot = (earlier.scope scope).nextSlot := by
          rw [h.slot slot hnew, hlocal]
          rfl
        rw [hnew] at hslots hnext
        exact Or.inr ⟨hslots, by simpa using hnext⟩

namespace Framed

/-- What changes neither a scope nor a slot changes no frame. -/
theorem congr (h : earlier.Framed scope level first) (hlt : scope < later.scopes.size)
    (hscope : later.scope scope = earlier.scope scope)
    (hslot : ∀ id, (later.entry id).definition.slot? = (earlier.entry id).definition.slot?) :
    later.Framed scope level first := by
  have hslots : later.slots scope = earlier.slots scope :=
    slots_congr (by rw [hscope]) fun id _ => hslot id
  refine ⟨hlt, ?_, ?_, ?_, ?_⟩
  · rw [hscope, h.level]
  · rw [hslots]
    exact h.slots
  · rw [hscope, hslots]
    exact h.next
  · rw [hscope]
    exact h.last

theorem of_adds (h : earlier.Framed scope level first) (hadds : earlier.Adds later)
    (hvalid : earlier.Valid) : later.Framed scope level first := by
  have hgrown := hadds.grown scope
  refine ⟨by rw [hadds.scopes]; exact h.lt, hgrown.level.trans h.level, ?_, ?_, hgrown.counted h.last⟩
  · rcases hadds.slots hvalid scope with ⟨hslots, -⟩ | ⟨hslots, -⟩
    · rw [hslots]
      exact h.slots
    · calc later.slots scope
          = earlier.slots scope ++ [first + (earlier.slots scope).length] := by rw [hslots, h.next]
        _ = List.range' first (earlier.slots scope).length ++
              [first + (earlier.slots scope).length] := by rw [← h.slots]
        _ = List.range' first ((earlier.slots scope).length + 1) := List.range'_1_concat.symm
        _ = List.range' first (later.slots scope).length := by rw [hslots]; simp
  · have hbefore := h.next
    rcases hadds.slots hvalid scope with ⟨hslots, hnext⟩ | ⟨hslots, hnext⟩
    · rw [hslots, hnext, hbefore]
    · rw [hslots, hnext, List.length_append, List.length_singleton]
      omega

theorem modifyEntry (h : table.Framed scope level first) {id : EntryId} {change : Entry → Entry}
    (hslot : (change (table.entry id)).definition.slot? = (table.entry id).definition.slot?) :
    (table.modifyEntry id change).Framed scope level first := by
  refine h.congr h.lt rfl fun other => ?_
  rw [entry_modifyEntry]
  split
  · next hsame =>
      rw [hsame.1]
      exact hslot
  · rfl

end Framed

/-- A frame outlasts all that items do. -/
theorem lasts_framed (program : EntryId) (scope : ScopeId) (level first : Nat) :
    Lasts program fun table => table.Framed scope level first where
  adds h hvalid _ hadds := h.of_adds hadds hvalid
  retouches := by
    rintro earlier later h ⟨id, change, rfl, hsteady⟩
    exact h.modifyEntry hsteady.slot?
  amends id h _ := h.modifyEntry (slot?_mapRoutine _ _)
  begins := by
    intro earlier later id kind forwarded h hbegins _ hbefore
    refine h.congr ?_ (hbegins.elsewhere scope (Nat.ne_of_lt h.lt)) (hbegins.slot?_eq hbefore)
    rw [hbegins.scopes]
    exact Nat.lt_succ_of_lt h.lt
  pop h := by
    refine h.congr (by simpa using h.lt) (scope_pop _ _) fun id => ?_
    rw [entry_pop]

/-- The scope of a routine that has just been opened is a frame without variables. -/
theorem Begins.framed {program id : EntryId} {kind : DefinitionKind} {forwarded : Bool}
    (h : Begins program id kind forwarded earlier later) :
    later.Framed earlier.scopes.size (earlier.level + 1)
      (if (earlier.entry id).beginsProgram kind then 1 else 0) := by
  have hslots : later.slots earlier.scopes.size = [] := by
    rw [SymbolTable.slots, Scope.entries_eq, h.fresh]
    rfl
  refine ⟨by rw [h.scopes]; exact Nat.lt_succ_self _, ?_, ?_, ?_, ?_⟩
  · rw [h.opened]
    split <;> rfl
  · rw [hslots]
    rfl
  · rw [hslots, h.opened]
    split <;> rfl
  · rw [h.opened]
    split <;> rfl

end

end SymbolTable

/-! ## Calls -/

namespace Call

variable {known : Token → Prop} {program : EntryId} {call : Call}

/-- The first slot that the frame of a routine hands out: `main` keeps one free. -/
def firstSlot (call : Call) : Nat :=
  if (call.named.table.entry call.id).beginsProgram call.kind then 1 else 0

/-- A call opens one scope, which is the frame of its routine. -/
theorem Made.framed (h : call.Made known program) (himproper : Improper known) :
    call.after.table.Framed call.before.table.scopes.size (call.before.table.level + 1)
      call.firstSlot := by
  have hopens := h.opens
  obtain ⟨headed, closed, hparts⟩ := h.parts
  obtain ⟨hheading, hheaded, -, hfinishes⟩ := h.heads himproper hparts
  have hnaming := hopens.naming.steady h.lawful nofun
  have hlasts := SymbolTable.lasts_framed program call.before.table.scopes.size
    (call.before.table.level + 1) call.firstSlot
  have hlocal : (call.begun program).table.localScopeId ≠ globalScope := by
    rw [SymbolTable.localScopeId, hopens.begins.openScopes]
    exact Nat.ne_of_gt (hopens.naming.lawful h.lawful).valid.scopes_pos
  have hbegun : (call.begun program).table.Framed call.before.table.scopes.size
      (call.before.table.level + 1) call.firstSlot := by
    have hframed := hopens.begins.framed
    rwa [hnaming.scopes, SymbolTable.level, hnaming.openScopes] at hframed
  have hread := hheading.lasts hlasts hopens.lawful nofun hlocal hbegun
  have hlocal' : headed.table.localScopeId ≠ globalScope := by
    rwa [(hheading.steady hopens.lawful nofun).localScopeId]
  rw [hparts.after]
  exact hlasts.pop (hfinishes.lasts hlasts hheaded hlocal' hread)

end Call

/-! ## Histories -/

/-- The scopes with which a unit begins are frames without variables: the global one, and that of the
program. -/
theorem SymbolTable.framed_unitTable :
    unitTable.Framed globalScope 0 0 ∧ unitTable.Framed unitTable.localScopeId 1 0 := by
  constructor <;> refine ⟨?_, ?_, ?_, ?_, ?_⟩ <;> decide +kernel

namespace History

variable {known : Token → Prop} {program : EntryId} {start session : Session} {calls : List Call}

/-- The scopes that were there at the start are the frames that they were. -/
theorem framed_start (h : History known program start calls session) (himproper : Improper known)
    (hlocal : start.table.localScopeId ≠ globalScope) {scope : ScopeId} {level first : Nat}
    (hframed : start.table.Framed scope level first) : session.table.Framed scope level first :=
  (h.items himproper).lasts (SymbolTable.lasts_framed program scope level first) hlocal hframed

/-- The scopes that are opened later are numbered by the calls, and each is the frame of its call. -/
theorem framed (h : History known program start calls session) (himproper : Improper known)
    (hlocal : start.table.localScopeId ≠ globalScope) {before after : List Call} {call : Call}
    (hcalls : calls = before ++ call :: after) :
    call.before.table.scopes.size = start.table.scopes.size + before.length ∧
      session.table.Framed call.before.table.scopes.size (start.table.level + 1) call.firstSlot := by
  obtain ⟨hbefore, hmade, hafter⟩ := h.split hcalls
  have hopen : call.before.table.openScopes = start.table.openScopes :=
    (hbefore.openScopes himproper).1
  refine ⟨hbefore.scopes_size himproper, hafter.framed_start himproper ?_ ?_⟩
  · rwa [hmade.localScopeId_eq himproper, hbefore.localScopeId_eq himproper]
  · have hframed := hmade.framed himproper
    rwa [SymbolTable.level, hopen] at hframed

variable {ended : Session}

/-- A unit has two scopes to begin with, and one more for each call. -/
theorem scopes_size_unit
    (h : History known program { session with table := SymbolTable.unitTable } calls ended)
    (himproper : Improper known) : ended.table.scopes.size = 2 + calls.length := by
  rw [h.scopes_size himproper, SymbolTable.scopes_size_unitTable]

/-- The scopes with which a unit begins stay as they are. -/
theorem framed_outer
    (h : History known program { session with table := SymbolTable.unitTable } calls ended)
    (himproper : Improper known) :
    ended.table.Framed globalScope 0 0 ∧ ended.table.Framed SymbolTable.programScope 1 0 := by
  have hlocal : SymbolTable.unitTable.localScopeId ≠ globalScope := by
    rw [SymbolTable.localScopeId_unitTable]
    decide
  exact ⟨h.framed_start himproper hlocal SymbolTable.framed_unitTable.1,
    h.framed_start himproper hlocal SymbolTable.framed_unitTable.2⟩

/-- Each call in a unit has the scope with its own number, one level below that of the program. -/
theorem framed_unit
    (h : History known program { session with table := SymbolTable.unitTable } calls ended)
    (himproper : Improper known) {before after : List Call} {call : Call}
    (hcalls : calls = before ++ call :: after) :
    call.before.table.scopes.size = 2 + before.length ∧
      ended.table.Framed (2 + before.length) 2 call.firstSlot := by
  have hlocal : SymbolTable.unitTable.localScopeId ≠ globalScope := by
    rw [SymbolTable.localScopeId_unitTable]
    decide
  have hlevel : SymbolTable.unitTable.level = 1 := by
    rw [SymbolTable.level, SymbolTable.openScopes_unitTable]
    rfl
  obtain ⟨hnumber, hframed⟩ := h.framed himproper hlocal hcalls
  rw [SymbolTable.scopes_size_unitTable] at hnumber
  rw [hnumber, hlevel] at hframed
  exact ⟨hnumber, hframed⟩

end History

end FrontEnd
