import FrontEnd.Symbol.Table
import Mathlib.Order.Basic
import Mathlib.Tactic.Common

/-!
# Symbol tables under change

What a handle stands for after each operation on a symbol table, and what all later statements
say of tables.

* `Valid`: every handle that the table holds is one that it gave out.  An entry is `Bound` if a name leads
  to it in some scope, open or closed; detached entries are not.
* `Grows`: a later table has every entry of an earlier one, unchanged but for its lines, and whatever has
  been added is no routine.
-/

namespace FrontEnd

namespace Entry

/-- Two entries that differ at most in their lines. -/
structure Agrees (earlier later : Entry) : Prop where
  name : later.name = earlier.name
  scope : later.scope = earlier.scope
  definition : later.definition = earlier.definition
  type : later.type = earlier.type

namespace Agrees

variable {first second third : Entry}

@[refl] theorem refl (entry : Entry) : entry.Agrees entry := ⟨rfl, rfl, rfl, rfl⟩

theorem trans (h : first.Agrees second) (h' : second.Agrees third) : first.Agrees third :=
  ⟨h'.name.trans h.name, h'.scope.trans h.scope, h'.definition.trans h.definition,
    h'.type.trans h.type⟩

theorem kind (h : first.Agrees second) : second.kind = first.kind := by
  simp [Entry.kind, h.definition]

theorem routine? (h : first.Agrees second) : second.routine? = first.routine? := by
  simp [Entry.routine?, h.definition]

theorem resolvedType (h : first.Agrees second) : second.resolvedType = first.resolvedType := by
  simp [Entry.resolvedType, h.type]

end Agrees

theorem agrees_addLine (entry : Entry) (line : Nat) : entry.Agrees (entry.addLine line) := by
  unfold addLine
  split <;> exact ⟨rfl, rfl, rfl, rfl⟩

variable {entry : Entry}

/-- A change of what is known about a routine leaves the kind of every entry as it is. -/
theorem kind_mapRoutine (change : Routine → Routine) (entry : Entry) :
    (entry.mapRoutine change).kind = entry.kind := by
  simp only [Entry.kind, Entry.mapRoutine]
  cases entry.definition <;> rfl

theorem routine?_mapRoutine (change : Routine → Routine) (entry : Entry) :
    (entry.mapRoutine change).routine? = entry.routine?.map change := by
  simp only [Entry.routine?, Entry.mapRoutine]
  cases entry.definition <;> rfl

/-- An entry for anything but a routine is left as it is. -/
theorem agrees_mapRoutine {change : Routine → Routine} (hplain : entry.routine? = none) :
    entry.Agrees (entry.mapRoutine change) := by
  have hsame : entry.definition.mapRoutine change = entry.definition := by
    simp only [Entry.routine?] at hplain
    cases hdefinition : entry.definition <;>
      simp_all [Definition.routine?, Definition.mapRoutine]
  exact ⟨rfl, rfl, hsame, rfl⟩

theorem kind_addLine (entry : Entry) (line : Nat) : (entry.addLine line).kind = entry.kind :=
  (entry.agrees_addLine line).kind

/-- What is a routine or undefined is no parameter. -/
theorem kind_ne_of_revisable (h : entry.kind = .undefined ∨ entry.routine?.isSome) :
    entry.kind ≠ .valueParameter ∧ entry.kind ≠ .type := by
  rcases h with h | h
  · simp [h]
  · simp only [Entry.routine?, Entry.kind] at h ⊢
    cases hdefinition : entry.definition <;>
      simp_all [Definition.routine?, Definition.kind]

theorem kind_ne_of_routine? {routine : Routine} (h : entry.routine? = some routine) :
    entry.kind ≠ .valueParameter ∧ entry.kind ≠ .varParameter ∧ entry.kind ≠ .type := by
  simp only [Entry.routine?, Entry.kind] at h ⊢
  cases hdefinition : entry.definition <;> simp_all [Definition.routine?, Definition.kind]

end Entry

namespace Definition

theorem kind_ofStorage {kind : DefinitionKind} (slot : Nat)
    (h : kind = .plainVariable ∨ kind = .valueParameter) :
    (ofStorage kind slot).kind = kind := by
  rcases h with rfl | rfl <;> rfl

theorem routine?_ofStorage (kind : DefinitionKind) (slot : Nat) :
    (ofStorage kind slot).routine? = none := by
  cases kind <;> rfl

end Definition

namespace SymbolTable

variable {table : SymbolTable}

/-- Whether some scope, open or closed, binds a name to an entry. -/
def Bound (table : SymbolTable) (id : EntryId) : Prop :=
  ∃ scope, id ∈ (table.scope scope).entries

/-- Whether a scope that is open binds a name to an entry, or the global scope does. -/
def Visible (table : SymbolTable) (id : EntryId) : Prop :=
  ∃ scope ∈ table.openScopes ++ [globalScope], id ∈ (table.scope scope).entries

theorem Visible.bound {id : EntryId} (h : table.Visible id) : table.Bound id := by
  obtain ⟨scope, -, hmem⟩ := h
  exact ⟨scope, hmem⟩

/-! ## Entries and scopes by handle -/

theorem entry_of_size_le {id : EntryId} (h : table.entries.size ≤ id) :
    table.entry id = ⟨"", globalScope, .undefined, none, []⟩ := by
  simp [entry, Array.getElem?_eq_none h]

/-- What holds of the entries that there are and of the undefined entry, which has no name, holds of every
handle. -/
theorem forall_entry {P : Entry → Prop} (h : ∀ entry ∈ table.entries.toList, P entry)
    (hundefined : P ⟨"", globalScope, .undefined, none, []⟩) (id : EntryId) : P (table.entry id) := by
  cases hentry : table.entries[id]? with
  | none => simpa [entry, hentry] using hundefined
  | some found =>
      have hmem : found ∈ table.entries.toList := by simpa using Array.mem_of_getElem? hentry
      simpa [entry, hentry] using h found hmem

/-- What holds of the scopes that there are and of an empty one holds of every handle. -/
theorem forall_scope {P : Scope → Prop} (h : ∀ scope ∈ table.scopes.toList, P scope)
    (hempty : P { level := 0 }) (id : ScopeId) : P (table.scope id) := by
  cases hscope : table.scopes[id]? with
  | none => simpa [SymbolTable.scope, hscope] using hempty
  | some found =>
      have hmem : found ∈ table.scopes.toList := by simpa using Array.mem_of_getElem? hscope
      simpa [SymbolTable.scope, hscope] using h found hmem

/-- What is of some kind other than undefined is an entry of the table. -/
theorem lt_of_kind {id : EntryId} {kind : DefinitionKind}
    (h : (table.entry id).kind = kind) (hkind : kind ≠ .undefined) : id < table.entries.size := by
  by_contra hnot
  rw [entry_of_size_le (Nat.le_of_not_lt hnot)] at h
  exact hkind h.symm

theorem entry_modifyEntry (id other : EntryId) (change : Entry → Entry) :
    (table.modifyEntry id change).entry other =
      if other = id ∧ id < table.entries.size then change (table.entry id)
      else table.entry other := by
  by_cases hother : other = id
  · subst hother
    by_cases hlt : other < table.entries.size <;>
      simp [entry, modifyEntry, Array.getElem_modify, hlt]
  · simp [entry, modifyEntry, Array.getElem?_modify, hother, Ne.symm hother]

theorem entry_modifyEntry_self {id : EntryId} (h : id < table.entries.size)
    (change : Entry → Entry) :
    (table.modifyEntry id change).entry id = change (table.entry id) := by
  simp [entry_modifyEntry, h]

theorem entry_modifyEntry_ne {id other : EntryId} (h : other ≠ id) (change : Entry → Entry) :
    (table.modifyEntry id change).entry other = table.entry other := by
  simp [entry_modifyEntry, h]

@[simp] theorem size_modifyEntry (id : EntryId) (change : Entry → Entry) :
    (table.modifyEntry id change).entries.size = table.entries.size := by
  simp [modifyEntry]

theorem entry_bindNew (key : String) (id : EntryId) :
    (table.bindNew key).entry id =
      if id = table.entries.size then { name := key, scope := table.localScopeId }
      else table.entry id := by
  by_cases h : id = table.entries.size <;> simp [entry, bindNew, Array.getElem?_push, h]

@[simp] theorem size_bindNew (key : String) :
    (table.bindNew key).entries.size = table.entries.size + 1 := by
  simp [bindNew]

theorem scope_bindNew (key : String) (scope : ScopeId) :
    (table.bindNew key).scope scope =
      if scope = table.localScopeId ∧ scope < table.scopes.size then
        (table.scope scope).bind key table.entries.size
      else table.scope scope := by
  by_cases hlocal : scope = table.localScopeId
  · subst hlocal
    by_cases hlt : table.localScopeId < table.scopes.size <;>
      simp [SymbolTable.scope, bindNew, Array.getElem_modify, hlt]
  · simp [SymbolTable.scope, bindNew, Array.getElem?_modify, hlocal, Ne.symm hlocal]

theorem bound_bindNew_of_lt {key : String} {id : EntryId} (h : id < table.entries.size) :
    (table.bindNew key).Bound id ↔ table.Bound id := by
  have hne : id ≠ table.entries.size := Nat.ne_of_lt h
  refine exists_congr fun scope => ?_
  rw [scope_bindNew]
  split <;> simp [Scope.entries, Scope.bind, hne]

/-- What a name leads to after a new entry has been bound is the new entry, or had a name before. -/
theorem bound_or_eq_of_bindNew {key : String} {id : EntryId} (h : (table.bindNew key).Bound id) :
    table.Bound id ∨ id = table.entries.size := by
  obtain ⟨scope, hmem⟩ := h
  rw [scope_bindNew] at hmem
  split at hmem
  · rw [Scope.entries, Scope.bind, List.mem_append] at hmem
    exact hmem.imp (fun hold => ⟨scope, hold⟩) fun hnew => by simpa using hnew
  · exact .inl ⟨scope, hmem⟩

theorem localScopeId_mem (table : SymbolTable) :
    table.localScopeId ∈ table.openScopes ++ [globalScope] := by
  unfold localScopeId
  cases table.openScopes <;> simp

theorem visible_bindNew_size {key : String} (hlocal : table.localScopeId < table.scopes.size) :
    (table.bindNew key).Visible table.entries.size :=
  ⟨table.localScopeId, table.localScopeId_mem,
    by rw [scope_bindNew]; simp [hlocal, Scope.entries, Scope.bind]⟩

theorem entries_takeSlot (table : SymbolTable) : table.takeSlot.2.entries = table.entries := rfl

@[simp] theorem entry_takeSlot (id : EntryId) : table.takeSlot.2.entry id = table.entry id := rfl

theorem bindings_takeSlot (scope : ScopeId) :
    (table.takeSlot.2.scope scope).bindings = (table.scope scope).bindings := by
  by_cases hlocal : scope = table.localScopeId
  · subst hlocal
    cases hscope : table.scopes[table.localScopeId]? <;>
      simp [SymbolTable.scope, takeSlot, Array.getElem?_modify, hscope, Scope.takeSlot]
  · simp [SymbolTable.scope, takeSlot, Array.getElem?_modify, Ne.symm hlocal]

theorem bound_takeSlot {id : EntryId} : table.takeSlot.2.Bound id ↔ table.Bound id := by
  simp only [Bound, Scope.entries_eq, bindings_takeSlot]

/-- A new scope binds nothing. -/
theorem bound_push {id : EntryId} : table.push.2.Bound id ↔ table.Bound id := by
  refine exists_congr fun scope => ?_
  by_cases hscope : scope = table.scopes.size
  · subst hscope
    simp [SymbolTable.scope, SymbolTable.push, Scope.entries]
  · simp [SymbolTable.scope, SymbolTable.push, Array.getElem?_push, hscope]

@[simp] theorem entries_pop (table : SymbolTable) : table.pop.2.entries = table.entries := by
  unfold pop
  split <;> rfl

@[simp] theorem scopes_pop (table : SymbolTable) : table.pop.2.scopes = table.scopes := by
  unfold pop
  split <;> rfl

@[simp] theorem program_pop (table : SymbolTable) : table.pop.2.program = table.program := by
  unfold pop
  split <;> rfl

theorem entry_pop (table : SymbolTable) (id : EntryId) : table.pop.2.entry id = table.entry id := by
  simp only [entry, entries_pop]

theorem scope_pop (table : SymbolTable) (scope : ScopeId) : table.pop.2.scope scope = table.scope scope := by
  simp only [SymbolTable.scope, scopes_pop]

theorem bound_pop {id : EntryId} : table.pop.2.Bound id ↔ table.Bound id := by
  simp only [Bound, scope_pop]

theorem entry_createDetached (name : String) (definition : Definition) (type : DataType)
    (id : EntryId) :
    (table.createDetached name definition type).2.entry id =
      if id = table.entries.size then
        { name := Text.lower name, scope := table.localScopeId, definition, type := some type }
      else table.entry id := by
  by_cases h : id = table.entries.size <;> simp [entry, createDetached, Array.getElem?_push, h]

@[simp] theorem size_createDetached (name : String) (definition : Definition) (type : DataType) :
    (table.createDetached name definition type).2.entries.size = table.entries.size + 1 := by
  simp [createDetached]

/-! ## Names -/

theorem mem_entries_of_get? {scope : Scope} {name : String} {id : EntryId}
    (h : scope.get? name = some id) : id ∈ scope.entries := by
  obtain ⟨before, after, hbindings, -⟩ := List.lookup_eq_some_iff.mp h
  simp [Scope.entries_eq, hbindings]

/-- A name that had no meaning in a scope means what it is bound to. -/
theorem get?_bind_of_none {scope : Scope} {name : String} (h : scope.get? name = none) (id : EntryId) :
    (scope.bind name id).get? name = some id := by
  have hnone : scope.bindings.lookup name = none := h
  simp [Scope.get?, Scope.bind, List.lookup_append, hnone]

/-- What a name means in a scope it still means when the scope binds more names. -/
theorem get?_of_prefix {earlier later : Scope} {name : String} {id : EntryId}
    (h : earlier.bindings <+: later.bindings) (hget : earlier.get? name = some id) :
    later.get? name = some id := by
  obtain ⟨added, hadded⟩ := h
  have hlookup : earlier.bindings.lookup name = some id := hget
  rw [Scope.get?, ← hadded, List.lookup_append, hlookup]
  rfl

/-- A name leads to visible entries only. -/
theorem visible_of_lookup {name : String} {id : EntryId} (h : table.lookup name = some id) :
    table.Visible id := by
  obtain ⟨scope, hscope, hget⟩ := List.exists_of_findSome?_eq_some h
  exact ⟨scope, hscope, mem_entries_of_get? hget⟩

theorem bound_of_lookupLocal {name : String} {id : EntryId} (h : table.lookupLocal name = some id) :
    table.Bound id :=
  ⟨_, mem_entries_of_get? h⟩

/-- A name without a meaning anywhere has none in the innermost scope. -/
theorem lookupLocal_of_lookup_none {name : String} (h : table.lookup name = none) :
    table.lookupLocal name = none :=
  List.findSome?_eq_none_iff.mp h _ table.localScopeId_mem

/-! ## Valid tables -/

/-- Every handle in the table is one that the table gave out. -/
structure Valid (table : SymbolTable) : Prop where
  bound_lt : ∀ id, table.Bound id → id < table.entries.size
  openScopes_lt : ∀ scope ∈ table.openScopes, scope < table.scopes.size
  scopes_pos : 0 < table.scopes.size
  parameters : ∀ id routine, (table.entry id).routine? = some routine →
    ∀ parameter ∈ routine.parameters,
      parameter < table.entries.size ∧ (table.entry parameter).kind = .valueParameter
  kinds : ∀ id, (table.entry id).kind ≠ .varParameter

theorem Valid.localScopeId_lt (h : table.Valid) : table.localScopeId < table.scopes.size := by
  rcases List.mem_append.mp table.localScopeId_mem with hmem | hmem
  · exact h.openScopes_lt _ hmem
  · rw [List.mem_singleton.mp hmem]
    exact h.scopes_pos

/-! ## Growth -/

/-- The later table has all that the earlier one had, and what is new in it is no routine. -/
structure Grows (earlier later : SymbolTable) : Prop where
  size_le : earlier.entries.size ≤ later.entries.size
  agrees : ∀ id < earlier.entries.size, (earlier.entry id).Agrees (later.entry id)
  bound : ∀ id < earlier.entries.size, later.Bound id ↔ earlier.Bound id
  plain : ∀ id, earlier.entries.size ≤ id → (later.entry id).routine? = none

namespace Grows

variable {first second third : SymbolTable}

@[refl] theorem refl (table : SymbolTable) : table.Grows table where
  size_le := Nat.le_refl _
  agrees _ _ := Entry.Agrees.refl _
  bound _ _ := Iff.rfl
  plain id h := by rw [entry_of_size_le h]; rfl

theorem trans (h : first.Grows second) (h' : second.Grows third) : first.Grows third where
  size_le := Nat.le_trans h.size_le h'.size_le
  agrees id hid := (h.agrees id hid).trans (h'.agrees id (Nat.lt_of_lt_of_le hid h.size_le))
  bound id hid := (h'.bound id (Nat.lt_of_lt_of_le hid h.size_le)).trans (h.bound id hid)
  plain id hid := by
    by_cases hlt : id < second.entries.size
    · rw [(h'.agrees id hlt).routine?]
      exact h.plain id hid
    · exact h'.plain id (Nat.le_of_not_lt hlt)

/-- A table grows by one entry at its end that is no routine. -/
theorem of_new (hsize : second.entries.size = first.entries.size + 1)
    (hentry : ∀ id < first.entries.size, second.entry id = first.entry id)
    (hnew : (second.entry first.entries.size).routine? = none)
    (hbound : ∀ id < first.entries.size, second.Bound id ↔ first.Bound id) :
    first.Grows second where
  size_le := by omega
  agrees id hid := by rw [hentry id hid]
  bound := hbound
  plain id hid := by
    rcases Nat.eq_or_lt_of_le hid with rfl | hlt
    · exact hnew
    · rw [entry_of_size_le (by omega)]
      rfl

theorem bindNew {table : SymbolTable} (key : String) : table.Grows (table.bindNew key) :=
  .of_new (by simp) (fun id hid => by rw [entry_bindNew, if_neg (Nat.ne_of_lt hid)])
    (by rw [entry_bindNew, if_pos rfl]; rfl) fun _ hid => bound_bindNew_of_lt hid

theorem pop {table : SymbolTable} : table.Grows table.pop.2 where
  size_le := by simp
  agrees id _ := by rw [entry_pop]
  bound _ _ := bound_pop
  plain id hid := by
    rw [entry_of_size_le (by simpa using hid)]
    rfl

theorem createDetached {table : SymbolTable} {name : String} {definition : Definition}
    {type : DataType} (hplain : definition.routine? = none) :
    table.Grows (table.createDetached name definition type).2 :=
  .of_new (by simp) (fun id hid => by rw [entry_createDetached, if_neg (Nat.ne_of_lt hid)])
    (by rw [entry_createDetached, if_pos rfl]; exact hplain) fun _ _ => Iff.rfl

theorem modifyEntry {table : SymbolTable} {id : EntryId} {change : Entry → Entry}
    (h : (table.entry id).Agrees (change (table.entry id))) :
    table.Grows (table.modifyEntry id change) where
  size_le := by simp
  agrees other _ := by
    by_cases hother : other = id ∧ id < table.entries.size
    · obtain ⟨rfl, hlt⟩ := hother
      rwa [entry_modifyEntry_self hlt]
    · rw [entry_modifyEntry, if_neg hother]
  bound _ _ := Iff.rfl
  plain other hother := by
    rw [entry_of_size_le (by simpa using hother)]
    rfl

end Grows

end SymbolTable

end FrontEnd
