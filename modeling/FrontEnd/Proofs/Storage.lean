import FrontEnd.Proofs.Extent
import FrontEnd.Proofs.Layout

/-!
# What scopes store

The variables and value parameters that a scope binds are what it stores (`SymbolTable.storage`).  An
extension of a table stores at most one entry more, at the end and of a kind that the extension allows
(`Extends.storage`).

While a header is read, the parameters that have been accepted are all that the scope of the routine stores,
in order (`Session.Collects`).  A name that is taken, a parameter without a name or of a type that parameters
cannot have is not accepted, and stores nothing (`collects_enclosedParameters`).
-/

namespace FrontEnd

/-- Whether the entry is a variable or a value parameter. -/
def Entry.isStored (entry : Entry) : Bool :=
  [DefinitionKind.plainVariable, .valueParameter].contains entry.kind

theorem Entry.isStored_iff {entry : Entry} :
    entry.isStored = true ↔ entry.kind = .plainVariable ∨ entry.kind = .valueParameter := by
  simp [isStored]

/-- What has no slot is not stored. -/
theorem Entry.not_isStored_of_slot? {entry : Entry} (h : entry.definition.slot? = none) :
    entry.isStored = false := by
  unfold isStored kind
  cases hdefinition : entry.definition <;> simp_all [Definition.slot?, Definition.kind]

theorem Entry.Agrees.isStored {first second : Entry} (h : first.Agrees second) :
    second.isStored = first.isStored := by
  rw [Entry.isStored, h.kind, Entry.isStored]

namespace SymbolTable

/-- The variables and value parameters that a scope binds, in the order of their declaration. -/
def storage (table : SymbolTable) (scope : ScopeId) : List EntryId :=
  (table.scope scope).entries.filter fun id => (table.entry id).isStored

section

variable {first second : SymbolTable} {scope : ScopeId}

/-- A scope that binds a few more entries stores those of them that are variables or parameters. -/
theorem storage_append (added : List EntryId)
    (hentries : (second.scope scope).entries = (first.scope scope).entries ++ added)
    (hkept : ∀ id ∈ (first.scope scope).entries,
      (second.entry id).isStored = (first.entry id).isStored) :
    second.storage scope =
      first.storage scope ++ added.filter fun id => (second.entry id).isStored := by
  unfold storage
  rw [hentries, List.filter_append, List.filter_congr hkept]

theorem storage_congr (hentries : (second.scope scope).entries = (first.scope scope).entries)
    (hkept : ∀ id ∈ (first.scope scope).entries,
      (second.entry id).isStored = (first.entry id).isStored) :
    second.storage scope = first.storage scope := by
  have hsame := storage_append [] (by rwa [List.append_nil]) hkept
  rwa [List.filter_nil, List.append_nil] at hsame

theorem mem_entries_of_mem_storage {id : EntryId} (h : id ∈ first.storage scope) :
    id ∈ (first.scope scope).entries :=
  List.mem_of_mem_filter h

end

section

variable {stores : List DefinitionKind} {owner : EntryId} {table later : SymbolTable}

/-- A new entry of a scope is of a kind that can be stored there, or it is not stored. -/
theorem Extends.kind (h : table.Extends stores owner later)
    (hlocal : (later.scope table.localScopeId).entries ≠ (table.scope table.localScopeId).entries) :
    (later.entry table.entries.size).kind ∈ stores ∨
      (later.entry table.entries.size).isStored = false := by
  cases h with
  | mention id line => exact absurd rfl hlocal
  | declare name definition type hfree hroutine hslot =>
      rw [entry_modifyEntry_self (by simp)]
      exact Or.inr (Entry.not_isStored_of_slot? hslot)
  | store name kind type hfree hstores hkind =>
      rw [entry_modifyEntry_self (by simp [entries_takeSlot]), Entry.kind,
        Definition.kind_ofStorage _ hkind]
      exact Or.inl hstores
  | target type => exact absurd rfl hlocal

/-- An extension stores one entry more at most. -/
theorem Extends.storage (h : table.Extends stores owner later) (hvalid : table.Valid)
    (scope : ScopeId) :
    later.storage scope = table.storage scope ∨
      later.storage scope = table.storage scope ++ [table.entries.size] ∧
        (later.entry table.entries.size).kind ∈ stores := by
  have hkept : ∀ id ∈ (table.scope scope).entries,
      (later.entry id).isStored = (table.entry id).isStored := by
    intro id hmem
    exact (h.declares.grows.agrees id (hvalid.bound_lt id ⟨scope, hmem⟩)).isStored
  rcases h.declares.adds_or_retouches hvalid with hadds | ⟨id, change, rfl, -⟩
  · rcases hadds.entries scope with ⟨hsame, -⟩ | ⟨rfl, hmore, -⟩
    · exact Or.inl (storage_congr hsame hkept)
    · have hstorage := storage_append [table.entries.size] hmore hkept
      have hkind := h.kind (by simp [hmore])
      cases hstored : (later.entry table.entries.size).isStored with
      | false => exact Or.inl (by simpa [hstored] using hstorage)
      | true => exact Or.inr ⟨by simpa [hstored] using hstorage, by simpa [hstored] using hkind⟩
  · exact Or.inl (storage_congr rfl hkept)

end

end SymbolTable

/-! ## Parameters -/

/-- A new parameter is the last that its scope stores. -/
theorem SymbolTable.storage_store {table : SymbolTable} (hvalid : table.Valid) {name : String}
    {kind : DefinitionKind} (type : DataType)
    (hfree : table.lookupLocal name = none) (hkind : kind = .plainVariable ∨ kind = .valueParameter) :
    let later := (table.bindNew (Text.lower name)).takeSlot.2.modifyEntry table.entries.size fun entry =>
      { entry with
        definition := .ofStorage kind (table.bindNew (Text.lower name)).takeSlot.1
        type := some type }
    later.storage table.localScopeId = table.storage table.localScopeId ++ [table.entries.size] ∧
      (later.entry table.entries.size).kind = kind := by
  intro later
  have hadds : table.Adds later := .store hvalid hfree kind type
  have hnew : (later.entry table.entries.size).kind = kind := by
    rw [entry_modifyEntry_self (by simp [entries_takeSlot])]
    exact Definition.kind_ofStorage _ hkind
  have hentries : (later.scope table.localScopeId).entries =
      (table.scope table.localScopeId).entries ++ [table.entries.size] := by
    have hbindings : (later.scope table.localScopeId).bindings =
        ((table.bindNew (Text.lower name)).scope table.localScopeId).bindings := bindings_takeSlot _
    have hbind : (table.bindNew (Text.lower name)).scope table.localScopeId = _ :=
      localScope_bindNew hvalid (Text.lower name)
    rw [Scope.entries_eq, hbindings, hbind]
    simp [Scope.bind, Scope.entries_eq, localScope]
  refine ⟨?_, hnew⟩
  have hstorage := storage_append [table.entries.size] hentries fun id hmem => by
    rw [hadds.entry id (hvalid.bound_lt id ⟨_, hmem⟩)]
  have hstored : (later.entry table.entries.size).isStored = true := by
    rw [Entry.isStored_iff, hnew]
    exact hkind
  simpa [hstored] using hstorage

/-- Whether the parameters that have been read are all that the innermost scope, which is `scope`, stores. -/
structure Session.Collects (scope : ScopeId) (parameters : List EntryId) (session : Session) : Prop where
  valid : session.table.Valid
  opened : session.table.localScopeId = scope
  storage : session.table.storage scope = parameters
  kind : ∀ id ∈ parameters, (session.table.entry id).kind = .valueParameter

namespace Session.Collects

variable {α : Type} {scope : ScopeId} {parameters : List EntryId} {session later : Session}
  {production : Production α}

/-- What is collected stays so while nothing is stored.  A header has no returns, so any routine will do as
their owner. -/
theorem moves (h : session.Collects scope parameters)
    (hmoves : session.Moves [] SymbolTable.programId later) : later.Collects scope parameters := by
  have hsteady := hmoves.steady h.valid
  refine ⟨hmoves.valid h.valid, hsteady.localScopeId.trans h.opened, ?_, fun id hmem => ?_⟩
  · refine (hmoves.table_of_extends (fun table => table.storage scope = parameters) h.valid h.storage
      fun first second hvalid _ hextends hstorage => ?_).1
    rcases hextends.storage hvalid scope with hsame | ⟨-, hkind⟩
    · exact hsame.trans hstorage
    · simp at hkind
  · have hbound : id ∈ (session.table.scope scope).entries :=
      SymbolTable.mem_entries_of_mem_storage (h.storage ▸ hmem)
    rw [(hmoves.grows.agrees id (h.valid.bound_lt id ⟨scope, hbound⟩)).kind]
    exact h.kind id hmem

theorem stays (h : session.Collects scope parameters)
    (hstays : Production.Stays [] SymbolTable.programId production) :
    Production.Leads production session (fun _ => True) fun _ later => later.Collects scope parameters :=
  (hstays.leads session).imp fun _ _ hmoves => h.moves hmoves

theorem reads (h : session.Collects scope parameters)
    (hreads : Production.Relates Reads production) :
    Production.Leads production session (fun _ => True) fun _ later => later.Collects scope parameters :=
  h.stays hreads.stays

/-- A new parameter is collected after the others. -/
theorem store (h : session.Collects scope parameters) {name : String} (type : DataType)
    (hfree : session.table.lookupLocal name = none) :
    Collects scope (parameters ++ [session.table.entries.size]) { session with
      table := (session.table.bindNew (Text.lower name)).takeSlot.2.modifyEntry
        session.table.entries.size fun entry =>
          { entry with
            definition := .ofStorage .valueParameter
              (session.table.bindNew (Text.lower name)).takeSlot.1
            type := some type } } := by
  have hextends : session.table.Extends [.valueParameter] SymbolTable.programId _ :=
    .store name .valueParameter type hfree (by simp) (Or.inr rfl)
  obtain ⟨hstorage, hkind⟩ := SymbolTable.storage_store h.valid type hfree (Or.inr rfl)
  rw [h.opened, h.storage] at hstorage
  refine ⟨hextends.declares.valid h.valid, h.opened, hstorage, fun id hmem => ?_⟩
  rcases List.mem_append.mp hmem with hold | hnew
  · have hbound : id ∈ (session.table.scope scope).entries :=
      SymbolTable.mem_entries_of_mem_storage (h.storage ▸ hold)
    have hagrees := hextends.declares.grows.agrees id (h.valid.bound_lt id ⟨scope, hbound⟩)
    exact hagrees.kind.trans (h.kind id hold)
  · rw [List.mem_singleton.mp hnew]
    exact hkind

end Session.Collects

namespace Production

variable {scope : ScopeId} {parameters : List EntryId} {session : Session}

/-- A parameter is stored unless its name is taken. -/
theorem collects_declareStorage (h : session.Collects scope parameters) (name : Token) (type : DataType) :
    Leads (declareStorage name .valueParameter type) session (fun _ => True) fun declared later =>
      later.Collects scope (parameters ++ declared.toList) := by
  unfold declareStorage
  cases hlocal : session.table.lookupLocal name.text with
  | some taken =>
      simp only [enterLocal, SymbolTable.enterLocal, hlocal, leads_bind, leads_onTable, leads_flagAt,
        leads_pure, Option.toList_none, List.append_nil]
      exact ⟨h.valid, h.opened, h.storage, h.kind⟩
  | none =>
      simp only [enterLocal, SymbolTable.enterLocal, hlocal, leads_bind, leads_onTable,
        leads_changeEntry, leads_pure, Option.toList_some]
      exact (h.store type hlocal).moves (Session.Moves.single (.extend (.mention _ name.line)))

/-- What has been collected before a parameter, and the parameter if it has been accepted. -/
theorem collects_typedParameter (h : session.Collects scope parameters) :
    Leads typedParameter session (fun _ => True) fun declared later =>
      later.Collects scope (parameters ++ declared.toList) := by
  refine (h.stays stays_typeSpecifier).bind fun found typed htyped => ?_
  rw [leads_bind, leads_current]
  split
  · refine (collects_declareStorage htyped _ _).bind fun declared made hmade => ?_
    exact (hmade.reads reads_nextToken).bind
      fun _ later hlater => hlater
  · refine (htyped.reads (reads_flag rfl)).bind fun _ later hlater => ?_
    rw [leads_pure, Option.toList_none, List.append_nil]
    exact hlater

theorem collects_parameterEntry (h : session.Collects scope parameters) :
    Leads parameterEntry session (fun _ => True) fun declared later =>
      later.Collects scope (parameters ++ declared.toList) := by
  unfold parameterEntry
  rw [leads_bind, leads_currentKind]
  split
  case h_4 =>
    refine (h.reads reads_untypedParameter).bind fun _ later hlater => ?_
    rw [leads_pure, Option.toList_none, List.append_nil]
    exact hlater
  all_goals exact collects_typedParameter h

theorem collects_parameter (parameters : List EntryId) (session : Session)
    (h : session.Collects scope parameters) : Leads (parameter parameters) session (fun _ => True)
      (AfterTurn (fun parameters later => later.Collects scope parameters)
        fun parameters later => later.Collects scope parameters) := by
  unfold parameter
  rw [leads_bind]
  show Leads (if parameterStart.contains session.cursor.current.kind then _ else _) session _ _
  split
  · refine (collects_parameterEntry h).bind fun declared made hmade => ?_
    exact (hmade.reads reads_parameterEnd).bind fun _ later hlater => hlater
  · exact h

/-- The parameters of a header are all that its scope stores, in order, if it stored nothing before. -/
theorem collects_enclosedParameters (h : session.Collects scope []) :
    Leads enclosedParameters session (fun _ => True) fun parameters later =>
      later.Collects scope parameters := by
  refine (h.reads (reads_synchronize _)).bind fun token found hfound => ?_
  split
  · refine (hfound.reads reads_nextToken).bind fun _ entered hentered => ?_
    refine (hentered.reads reads_loneVoid).bind fun _ moved hmoved => ?_
    refine (hmoved.reads (reads_synchronize _)).bind fun _ begun hbegun => ?_
    refine (leads_loop collects_parameter hbegun).bind fun parameters ended hended => ?_
    exact (hended.reads (reads_expect _ rfl)).bind fun _ later hlater => hlater
  · exact (hfound.reads (reads_flag rfl)).bind fun _ later hlater => hlater

end Production

end FrontEnd
