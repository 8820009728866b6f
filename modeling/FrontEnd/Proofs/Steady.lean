import FrontEnd.Proofs.Step

/-!
# What a routine leaves as it is

Below the top level a table changes in two ways only: one entry is added to the innermost scope (`Adds`),
or an entry is changed in what may still change of it (`Entry.Steady`), which are its lines and, if it is
a routine, its parameters and its type.  This is what the changes of `Declares` and `Settles` come down
to (`Declares.adds_or_retouches`, `Settles.adds_or_retouches`).

It follows that all the rest stays: the open scopes and what they bind, the program, and the name, the
kind, the scope and the body of every entry (`Steps.steady`).
-/

namespace FrontEnd

/-- What is known about a routine beside its parameters. -/
def Routine.shell (routine : Routine) : Routine :=
  { routine with parameters := [] }

/-- An entry that keeps all but its lines and, if it is that of a routine, its parameters and its
type. -/
structure Entry.Steady (earlier later : Entry) : Prop where
  name : later.name = earlier.name
  scope : later.scope = earlier.scope
  kind : later.kind = earlier.kind
  shell : later.routine?.map Routine.shell = earlier.routine?.map Routine.shell
  agrees : earlier.routine? = none → earlier.Agrees later

namespace Entry.Steady

variable {first second third : Entry}

@[refl] theorem refl (entry : Entry) : entry.Steady entry :=
  ⟨rfl, rfl, rfl, rfl, fun _ => .refl entry⟩

theorem of_agrees (h : first.Agrees second) : first.Steady second where
  name := h.name
  scope := h.scope
  kind := h.kind
  shell := by rw [h.routine?]
  agrees _ := h

theorem routine?_isSome (h : first.Steady second) :
    second.routine?.isSome = first.routine?.isSome := by
  have hshell := congrArg Option.isSome h.shell
  simpa using hshell

theorem trans (h : first.Steady second) (h' : second.Steady third) : first.Steady third where
  name := h'.name.trans h.name
  scope := h'.scope.trans h.scope
  kind := h'.kind.trans h.kind
  shell := h'.shell.trans h.shell
  agrees hplain := by
    have hagrees := h.agrees hplain
    exact hagrees.trans (h'.agrees (hagrees.routine?.trans hplain))

/-- What depends on the shell of a routine alone stays. -/
theorem map_routine? {α : Type} {view : Routine → α} (h : first.Steady second)
    (hview : ∀ routine, view routine.shell = view routine) :
    second.routine?.map view = first.routine?.map view := by
  have hshell := congrArg (Option.map view) h.shell
  simpa [Option.map_map, Function.comp_def, hview] using hshell

/-- No entry loses its slot, or gets one. -/
theorem slot? (h : first.Steady second) : second.definition.slot? = first.definition.slot? := by
  cases hroutine : first.routine? with
  | none => rw [(h.agrees hroutine).definition]
  | some routine =>
      have hsome : second.routine?.isSome := by rw [h.routine?_isSome, hroutine]; rfl
      have hnone {entry : Entry} (hentry : entry.routine?.isSome) : entry.definition.slot? = none := by
        simp only [Entry.routine?] at hentry
        cases hdefinition : entry.definition <;> simp_all [Definition.routine?, Definition.slot?]
      rw [hnone hsome, hnone (by simp [hroutine])]

end Entry.Steady

/-! ## Scopes that grow -/

/-- Whether the last slot that a scope has handed out is the one before the next. -/
def Scope.Counted (scope : Scope) : Prop :=
  scope.maxSlot = scope.nextSlot - 1

/-- A scope that has grown keeps its level and still counts its slots. -/
structure Scope.Grown (earlier later : Scope) : Prop where
  level : later.level = earlier.level
  counted : earlier.Counted → later.Counted

namespace Scope.Grown

variable {first second third : Scope}

@[refl] theorem refl (scope : Scope) : scope.Grown scope := ⟨rfl, id⟩

theorem trans (h : first.Grown second) (h' : second.Grown third) : first.Grown third :=
  ⟨h'.level.trans h.level, fun hcounted => h'.counted (h.counted hcounted)⟩

theorem bindNew {table : SymbolTable} (key : String) (scope : ScopeId) :
    (table.scope scope).Grown ((table.bindNew key).scope scope) := by
  rw [SymbolTable.scope_bindNew]
  split
  · exact ⟨rfl, id⟩
  · exact .refl _

theorem takeSlot {table : SymbolTable} (scope : ScopeId) :
    (table.scope scope).Grown (table.takeSlot.2.scope scope) := by
  by_cases hlocal : scope = table.localScopeId
  · subst hlocal
    cases hscope : table.scopes[table.localScopeId]? with
    | none => simp [SymbolTable.scope, SymbolTable.takeSlot, Array.getElem?_modify, hscope, refl]
    | some found =>
        simp only [SymbolTable.scope, SymbolTable.takeSlot, Array.getElem?_modify, hscope, if_true,
          Option.map_some, Option.getD_some]
        exact ⟨rfl, fun _ => (Nat.add_sub_cancel _ 1).symm⟩
  · have hsame : table.takeSlot.2.scope scope = table.scope scope := by
      simp [SymbolTable.scope, SymbolTable.takeSlot, Array.getElem?_modify, Ne.symm hlocal]
    rw [hsame]

end Scope.Grown

namespace SymbolTable

/-- The later table has one entry more, in the innermost scope.  The scope may bind the name of the entry
to it, which it did not bind before; then the entry takes the next slot of the scope if it needs one. -/
structure Adds (earlier later : SymbolTable) : Prop where
  size : later.entries.size = earlier.entries.size + 1
  entry : ∀ id < earlier.entries.size, later.entry id = earlier.entry id
  plain : (later.entry earlier.entries.size).routine? = none
  home : (later.entry earlier.entries.size).scope = earlier.localScopeId
  slot : ∀ slot ∈ (later.entry earlier.entries.size).definition.slot?,
    slot = earlier.localScope.nextSlot
  openScopes : later.openScopes = earlier.openScopes
  program : later.program = earlier.program
  scopes : later.scopes.size = earlier.scopes.size
  elsewhere : ∀ scope, scope ≠ earlier.localScopeId → later.scope scope = earlier.scope scope
  grown : ∀ scope, (earlier.scope scope).Grown (later.scope scope)
  here : later.localScope = earlier.localScope ∨
    ∃ key, later.localScope.bindings = earlier.localScope.bindings ++ [(key, earlier.entries.size)] ∧
      later.localScope.nextSlot = earlier.localScope.nextSlot +
        (if (later.entry earlier.entries.size).definition.slot?.isSome then 1 else 0) ∧
      (later.entry earlier.entries.size).name = key ∧ earlier.localScope.get? key = none

theorem localScope_bindNew {table : SymbolTable} (hvalid : table.Valid) (key : String) :
    (table.bindNew key).localScope = table.localScope.bind key table.entries.size :=
  (scope_bindNew key table.localScopeId).trans (if_pos ⟨rfl, hvalid.localScopeId_lt⟩)

theorem scope_takeSlot_local {table : SymbolTable} (hlt : table.localScopeId < table.scopes.size) :
    table.takeSlot.2.scope table.localScopeId = (table.scope table.localScopeId).takeSlot := by
  simp [SymbolTable.scope, SymbolTable.takeSlot, Array.getElem_modify, hlt]

theorem localScope_takeSlot {table : SymbolTable} (hvalid : table.Valid) :
    table.takeSlot.2.localScope = table.localScope.takeSlot :=
  scope_takeSlot_local hvalid.localScopeId_lt

theorem scope_takeSlot_of_ne {table : SymbolTable} {scope : ScopeId} (h : scope ≠ table.localScopeId) :
    table.takeSlot.2.scope scope = table.scope scope := by
  simp [SymbolTable.scope, SymbolTable.takeSlot, Array.getElem?_modify, Ne.symm h]

namespace Adds

variable {table first second : SymbolTable}

theorem localScopeId (h : first.Adds second) : second.localScopeId = first.localScopeId := by
  simp only [SymbolTable.localScopeId, h.openScopes]

theorem bindNew (hvalid : table.Valid) {key : String} (hfree : table.localScope.get? key = none) :
    table.Adds (table.bindNew key) where
  size := by simp
  entry id hid := by rw [entry_bindNew, if_neg (Nat.ne_of_lt hid)]
  plain := by rw [entry_bindNew, if_pos rfl]; rfl
  home := by rw [entry_bindNew, if_pos rfl]
  slot := by rw [entry_bindNew, if_pos rfl]; simp [Definition.slot?]
  openScopes := rfl
  program := rfl
  scopes := by simp [SymbolTable.bindNew]
  elsewhere scope hne := (scope_bindNew key scope).trans (if_neg fun hsame => hne hsame.1)
  grown := .bindNew key
  here := by
    refine Or.inr ⟨key, ?_, ?_, ?_, hfree⟩
    · rw [localScope_bindNew hvalid]
      rfl
    · rw [localScope_bindNew hvalid, entry_bindNew, if_pos rfl]
      rfl
    · rw [entry_bindNew, if_pos rfl]

/-- A new entry is given a definition that takes no slot. -/
theorem define (h : table.Adds second) {change : Entry → Entry}
    (hname : ∀ entry, (change entry).name = entry.name)
    (hscope : ∀ entry, (change entry).scope = entry.scope)
    (hplain : ∀ entry, (change entry).routine? = none)
    (hnone : (second.entry table.entries.size).definition.slot? = none)
    (hslot : ∀ entry, (change entry).definition.slot? = none) :
    table.Adds (second.modifyEntry table.entries.size change) := by
  have hentry : (second.modifyEntry table.entries.size change).entry table.entries.size =
      change (second.entry table.entries.size) := entry_modifyEntry_self (by simp [h.size]) _
  constructor
  case size => simp [h.size]
  case entry =>
    intro id hid
    rw [entry_modifyEntry_ne (Nat.ne_of_lt hid)]
    exact h.entry id hid
  case plain =>
    rw [hentry]
    exact hplain _
  case home =>
    rw [hentry, hscope]
    exact h.home
  case slot => simp [hentry, hslot]
  case openScopes => exact h.openScopes
  case program => exact h.program
  case scopes => exact h.scopes
  case elsewhere => exact h.elsewhere
  case grown => exact h.grown
  case here =>
    refine h.here.imp_right fun ⟨key, hbindings, hnext, hkey, hfree⟩ => ⟨key, hbindings, ?_, ?_, hfree⟩
    · rw [hentry, hslot]
      rwa [hnone] at hnext
    · rw [hentry, hname]
      exact hkey

/-- A new name for a variable or a parameter, which takes the next slot. -/
theorem store (hvalid : table.Valid) {key : String} (hfree : table.localScope.get? key = none)
    (kind : DefinitionKind) (type : DataType) :
    table.Adds ((table.bindNew key).takeSlot.2.modifyEntry table.entries.size fun entry =>
      { entry with
        definition := .ofStorage kind (table.bindNew key).takeSlot.1
        type := some type }) := by
  have hnew := Adds.bindNew hvalid hfree
  have hlocal : (table.bindNew key).takeSlot.2.localScope = _ :=
    localScope_takeSlot (hvalid.bindNew key)
  rw [localScope_bindNew hvalid] at hlocal
  have hentry : ((table.bindNew key).takeSlot.2.modifyEntry table.entries.size fun entry =>
      { entry with
        definition := .ofStorage kind (table.bindNew key).takeSlot.1
        type := some type }).entry table.entries.size =
      { name := key, scope := table.localScopeId, type := some type
        definition := .ofStorage kind (table.bindNew key).takeSlot.1 } := by
    rw [entry_modifyEntry_self (by simp [entries_takeSlot]), entry_takeSlot, entry_bindNew, if_pos rfl]
  have hslot : (Definition.ofStorage kind (table.bindNew key).takeSlot.1).slot? =
      some table.localScope.nextSlot := by
    have hnext : (table.bindNew key).takeSlot.1 = table.localScope.nextSlot := by
      rw [SymbolTable.takeSlot, localScope_bindNew hvalid]
      rfl
    rw [hnext]
    cases kind <;> rfl
  constructor
  case size => simp [entries_takeSlot]
  case entry =>
    intro id hid
    rw [entry_modifyEntry_ne (Nat.ne_of_lt hid), entry_takeSlot]
    exact hnew.entry id hid
  case plain =>
    rw [hentry]
    exact Definition.routine?_ofStorage _ _
  case home => rw [hentry]
  case slot => simp [hentry, hslot]
  case openScopes => rfl
  case program => rfl
  case scopes => simpa [SymbolTable.modifyEntry, SymbolTable.takeSlot] using hnew.scopes
  case elsewhere =>
    intro scope hne
    have htaken : (table.bindNew key).takeSlot.2.scope scope = (table.bindNew key).scope scope :=
      scope_takeSlot_of_ne hne
    exact htaken.trans (hnew.elsewhere scope hne)
  case grown => exact fun scope => (hnew.grown scope).trans (.takeSlot scope)
  case here =>
    refine Or.inr ⟨key, congrArg Scope.bindings hlocal, ?_, ?_, hfree⟩
    · rw [hentry, hslot]
      exact congrArg Scope.nextSlot hlocal
    · rw [hentry]

/-- An entry without a name takes no slot; it can refer to the next one. -/
theorem createDetached (name : String) {definition : Definition} (type : DataType)
    (hplain : definition.routine? = none)
    (hslot : ∀ slot ∈ definition.slot?, slot = table.localScope.nextSlot) :
    table.Adds (table.createDetached name definition type).2 where
  size := by simp
  entry id hid := by rw [entry_createDetached, if_neg (Nat.ne_of_lt hid)]
  plain := by rw [entry_createDetached, if_pos rfl]; exact hplain
  home := by rw [entry_createDetached, if_pos rfl]
  slot := by rw [entry_createDetached, if_pos rfl]; exact hslot
  openScopes := rfl
  program := rfl
  scopes := rfl
  elsewhere _ _ := rfl
  grown _ := .refl _
  here := Or.inl rfl

/-- The names that a scope binds: those that it bound before, and perhaps that of the new entry. -/
theorem bindings (h : first.Adds second) (scope : ScopeId) :
    (second.scope scope).bindings = (first.scope scope).bindings ∨
      (second.scope scope).bindings = (first.scope scope).bindings ++
          [((second.entry first.entries.size).name, first.entries.size)] ∧
        (first.scope scope).get? (second.entry first.entries.size).name = none := by
  by_cases hlocal : scope = first.localScopeId
  · have hscope : second.scope scope = second.localScope := by
      rw [SymbolTable.localScope, h.localScopeId, hlocal]
    rw [hscope, hlocal]
    rcases h.here with hsame | ⟨key, hbindings, -, rfl, hfree⟩
    · exact Or.inl (congrArg Scope.bindings hsame)
    · exact Or.inr ⟨hbindings, hfree⟩
  · exact Or.inl (congrArg Scope.bindings (h.elsewhere scope hlocal))

end Adds

/-! ## What the changes come down to -/

section

variable {known : Token → Prop} {table later : SymbolTable}

/-- Whether an entry is changed in what may still change of it. -/
def Retouches (table later : SymbolTable) : Prop :=
  ∃ id change, later = table.modifyEntry id change ∧
    (table.entry id).Steady (change (table.entry id))

theorem Declares.adds_or_retouches (h : Declares known table later) (hvalid : table.Valid) :
    table.Adds later ∨ table.Retouches later := by
  cases h with
  | mention id hknown =>
      exact Or.inr ⟨id, _, rfl, .of_agrees (Entry.agrees_addLine _ _)⟩
  | @declare name definition type hknown hname hfree hroutine hslot =>
      have hnone : ((table.bindNew (Text.lower name.text)).entry
          table.entries.size).definition.slot? = none := by
        rw [entry_bindNew, if_pos rfl]
        rfl
      exact Or.inl ((Adds.bindNew hvalid hfree).define (fun _ => rfl) (fun _ => rfl)
        (fun _ => hroutine) hnone fun _ => hslot)
  | @store name kind type hknown hname hfree hkind => exact Or.inl (.store hvalid hfree kind type)
  | target routine type =>
      exact Or.inl (.createDetached _ type rfl (by simp [Definition.slot?]))

theorem Settles.adds_or_retouches (h : Settles known table later) (hvalid : table.Valid) :
    table.Adds later ∨ table.Retouches later := by
  cases h with
  | enter henter hfree => exact Or.inl (.bindNew hvalid hfree)
  | detach name => exact Or.inl (.createDetached _ _ rfl (by simp [Definition.slot?]))
  | retype type hroutine =>
      refine Or.inr ⟨_, _, rfl, rfl, rfl, rfl, rfl, fun hplain => ?_⟩
      simp [hplain] at hroutine
  | @parameters id parameters hparameters =>
      refine Or.inr ⟨id, _, rfl, rfl, rfl, Entry.kind_mapRoutine _ _, ?_, Entry.agrees_mapRoutine⟩
      rw [Entry.routine?_mapRoutine]
      cases (table.entry id).routine? <;> rfl

end

/-! ## What stays -/

/-- What the later table keeps of the earlier one, and what it has beside that is no routine. -/
structure Steady (earlier later : SymbolTable) : Prop where
  size_le : earlier.entries.size ≤ later.entries.size
  entry : ∀ id < earlier.entries.size, (earlier.entry id).Steady (later.entry id)
  plain : ∀ id, earlier.entries.size ≤ id → (later.entry id).routine? = none
  openScopes : later.openScopes = earlier.openScopes
  program : later.program = earlier.program
  scopes : later.scopes.size = earlier.scopes.size
  bindings : ∀ scope, (earlier.scope scope).bindings <+: (later.scope scope).bindings
  elsewhere : ∀ scope, scope ≠ earlier.localScopeId → later.scope scope = earlier.scope scope

namespace Steady

variable {first second third : SymbolTable}

@[refl] theorem refl (table : SymbolTable) : table.Steady table where
  size_le := Nat.le_refl _
  entry id _ := .refl _
  plain id hid := by rw [entry_of_size_le hid]; rfl
  openScopes := rfl
  program := rfl
  scopes := rfl
  bindings _ := List.prefix_refl _
  elsewhere _ _ := rfl

theorem localScopeId (h : first.Steady second) : second.localScopeId = first.localScopeId := by
  simp only [SymbolTable.localScopeId, h.openScopes]

theorem trans (h : first.Steady second) (h' : second.Steady third) : first.Steady third where
  size_le := Nat.le_trans h.size_le h'.size_le
  entry id hid := (h.entry id hid).trans (h'.entry id (Nat.lt_of_lt_of_le hid h.size_le))
  plain id hid := by
    by_cases hlt : id < second.entries.size
    · have hsome := (h'.entry id hlt).routine?_isSome
      rw [h.plain id hid] at hsome
      simpa using hsome
    · exact h'.plain id (Nat.le_of_not_lt hlt)
  openScopes := h'.openScopes.trans h.openScopes
  program := h'.program.trans h.program
  scopes := h'.scopes.trans h.scopes
  bindings scope := (h.bindings scope).trans (h'.bindings scope)
  elsewhere scope hne := by
    rw [h'.elsewhere scope (h.localScopeId.symm ▸ hne), h.elsewhere scope hne]

theorem of_adds (h : first.Adds second) : first.Steady second where
  size_le := by have := h.size; omega
  entry id hid := by rw [h.entry id hid]
  plain id hid := by
    rcases Nat.eq_or_lt_of_le hid with rfl | hlt
    · exact h.plain
    · rw [entry_of_size_le (by have := h.size; omega)]
      rfl
  openScopes := h.openScopes
  program := h.program
  scopes := h.scopes
  bindings scope := by
    by_cases hlocal : scope = first.localScopeId
    · have hscope : second.scope scope = second.localScope := by
        rw [SymbolTable.localScope, h.localScopeId, hlocal]
      rw [hscope, hlocal]
      rcases h.here with hsame | ⟨key, hbindings, -⟩
      · rw [hsame]
        exact List.prefix_refl _
      · rw [hbindings]
        exact List.prefix_append _ _
    · simp only [h.elsewhere scope hlocal, List.prefix_rfl]
  elsewhere := h.elsewhere

theorem of_retouches (h : first.Retouches second) : first.Steady second := by
  obtain ⟨id, change, rfl, hsteady⟩ := h
  refine ⟨by simp, fun other hother => ?_, fun other hother => ?_, rfl, rfl, rfl,
    fun _ => List.prefix_refl _, fun _ _ => rfl⟩
  · rw [entry_modifyEntry]
    split
    · next hsame => rwa [hsame.1]
    · exact .refl _
  · rw [entry_of_size_le (by simpa using hother)]
    rfl

/-- What a scope binds, it binds later. -/
theorem mem_entries (h : first.Steady second) {scope : ScopeId} {id : EntryId}
    (hmem : id ∈ (first.scope scope).entries) : id ∈ (second.scope scope).entries := by
  rw [Scope.entries_eq] at hmem ⊢
  exact ((h.bindings scope).map Prod.snd).subset hmem

theorem visible (h : first.Steady second) {id : EntryId} (hvisible : first.Visible id) :
    second.Visible id := by
  obtain ⟨scope, hscope, hmem⟩ := hvisible
  exact ⟨scope, h.openScopes.symm ▸ hscope, h.mem_entries hmem⟩

end Steady

end SymbolTable

section

variable {known : Token → Prop} {place : Place} {session later : Session}

/-- What a step below the top level does to the table, if it does anything to it. -/
theorem Step.adds_or_retouches (h : Step known place session later) (hplace : place ≠ .topLevel)
    (hvalid : session.table.Valid) :
    later.table = session.table ∨ session.table.Adds later.table ∨
      session.table.Retouches later.table := by
  cases h with
  | flag | consume | look | invent => exact Or.inl rfl
  | declare htable => exact Or.inr (htable.adds_or_retouches hvalid)
  | settle hsettles htable => exact Or.inr (htable.adds_or_retouches hvalid)
  | reshape htop => exact absurd htop hplace

theorem Steps.steady (h : Steps known place session later) (hlawful : session.Lawful known)
    (hplace : place ≠ .topLevel) : session.table.Steady later.table := by
  induction h with
  | refl => exact .refl _
  | tail hsteps hstep ih =>
      have hvalid := (Steps.lawful hsteps hlawful).valid
      rcases hstep.adds_or_retouches hplace hvalid with hsame | hadds | hretouches
      · rwa [hsame]
      · exact ih.trans (.of_adds hadds)
      · exact ih.trans (.of_retouches hretouches)

end

end FrontEnd
