import FrontEnd.Compile.Unit
import FrontEnd.Proofs.Table

/-!
# The changes that a compilation makes to its table

A compilation changes its symbol table in few ways, and they are listed here once.

* `Declares`: what the inside of a routine can do.  It adds a line to an entry, binds a new name to a
  constant, a type or an undefined entry, binds a new name to a variable or parameter with the next slot,
  or creates the detached target of a return.
* `Settles`: what the header of a routine can do besides.  It enters the name of the routine, or makes a
  detached entry for it, and settles its type and its parameters.
* `Reshapes`: what a compilation can do at the top level.  It makes an entry a routine, changes what is
  known about one, and opens and closes scopes.

Every one of them leaves a valid table valid, and inside a routine the table only grows.
-/

namespace FrontEnd

/-! ## The changes -/

/-- Whether a name is one of those that are invented for routines. -/
inductive Invented : String → Prop
  | intro {stem : String} (number : Nat) :
      stem ∈ [Production.procedureNameStem, Production.functionNameStem] →
        Invented (stem ++ Text.padZeros 3 number)

/-- Whether a name can be entered: it is that of a known identifier, or invented. -/
inductive Enterable (known : Token → Prop) : String → Prop
  | given {token : Token} : known token → token.kind = .identifier → Enterable known token.text
  | invented {name : String} : Invented name → Enterable known name

namespace SymbolTable

/-- What the inside of a routine does to the table. -/
inductive Declares (known : Token → Prop) (table : SymbolTable) : SymbolTable → Prop
  | mention (id : EntryId) {token : Token} : known token →
      Declares known table (table.modifyEntry id (·.addLine token.line))
  | declare {name : Token} (definition : Definition) (type : DataType) : known name →
      name.kind = .identifier → table.lookupLocal name.text = none →
      definition.routine? = none → definition.slot? = none →
      Declares known table
        ((table.bindNew (Text.lower name.text)).modifyEntry table.entries.size fun entry =>
          { entry with definition, type := some type })
  | store {name : Token} {kind : DefinitionKind} (type : DataType) : known name →
      name.kind = .identifier → table.lookupLocal name.text = none →
      kind = .plainVariable ∨ kind = .valueParameter →
      Declares known table
        ((table.bindNew (Text.lower name.text)).takeSlot.2.modifyEntry table.entries.size fun entry =>
          { entry with
            definition := .ofStorage kind (table.bindNew (Text.lower name.text)).takeSlot.1
            type := some type })
  | target (routine : EntryId) (type : DataType) :
      Declares known table
        (table.createDetached (table.entry routine).name
          (.plainVariable table.localScope.nextSlot) type).2

/-- Whether all of some entries are entries for parameters. -/
def HasParameters (table : SymbolTable) (parameters : List EntryId) : Prop :=
  ∀ parameter ∈ parameters,
    parameter < table.entries.size ∧ (table.entry parameter).kind = .valueParameter

/-- What the header of a routine does to the table, beside what the inside does. -/
inductive Settles (known : Token → Prop) (table : SymbolTable) : SymbolTable → Prop
  | enter {name : String} : Enterable known name → table.lookupLocal name = none →
      Settles known table (table.bindNew (Text.lower name))
  | detach (name : String) :
      Settles known table (table.createDetached name .undefined .undefined).2
  | retype {id : EntryId} (type : DataType) : (table.entry id).routine?.isSome →
      Settles known table (table.modifyEntry id fun entry => { entry with type := some type })
  | parameters {id : EntryId} {parameters : List EntryId} : table.HasParameters parameters →
      Settles known table (table.modifyRoutine id fun known => { known with parameters })

/-- What a compilation does to the table. -/
inductive Reshapes (known : Token → Prop) (table : SymbolTable) : SymbolTable → Prop
  | declares {later : SymbolTable} : Declares known table later → Reshapes known table later
  | settles {later : SymbolTable} : Settles known table later → Reshapes known table later
  | revise {id : EntryId} {change : Entry → Entry} {routine : Routine} :
      (table.entry id).kind = .undefined ∨ (table.entry id).routine?.isSome →
      (change (table.entry id)).routine? = some routine → table.HasParameters routine.parameters →
      Reshapes known table (table.modifyEntry id change)
  | amend {id : EntryId} {change : Routine → Routine} :
      (∀ routine, (table.entry id).routine? = some routine →
        table.HasParameters (change routine).parameters) →
      Reshapes known table (table.modifyRoutine id change)
  | push : Reshapes known table table.push.2
  | pop : Reshapes known table table.pop.2
  | takeSlot : Reshapes known table table.takeSlot.2

/-! ## Valid tables stay valid -/

namespace Valid

variable {table : SymbolTable}

theorem bindNew (h : table.Valid) (key : String) : (table.bindNew key).Valid where
  bound_lt id hbound := by
    rw [size_bindNew]
    rcases bound_or_eq_of_bindNew hbound with hold | rfl
    · exact Nat.lt_succ_of_lt (h.bound_lt id hold)
    · exact Nat.lt_succ_self _
  openScopes_lt scope hmem := by
    simpa [SymbolTable.bindNew] using h.openScopes_lt scope hmem
  scopes_pos := by simpa [SymbolTable.bindNew] using h.scopes_pos
  parameters id routine hroutine parameter hmem := by
    rw [entry_bindNew] at hroutine
    split at hroutine
    · simp [Entry.routine?, Definition.routine?] at hroutine
    · obtain ⟨hlt, hkind⟩ := h.parameters id routine hroutine parameter hmem
      rw [entry_bindNew, if_neg (Nat.ne_of_lt hlt), size_bindNew]
      exact ⟨Nat.lt_succ_of_lt hlt, hkind⟩
  kinds id := by
    rw [entry_bindNew]
    split
    · simp [Entry.kind, Definition.kind]
    · exact h.kinds id

theorem takeSlot (h : table.Valid) : table.takeSlot.2.Valid where
  bound_lt id hbound := h.bound_lt id (bound_takeSlot.mp hbound)
  openScopes_lt scope hmem := by
    simpa [SymbolTable.takeSlot] using h.openScopes_lt scope hmem
  scopes_pos := by simpa [SymbolTable.takeSlot] using h.scopes_pos
  parameters := h.parameters
  kinds := h.kinds

theorem createDetached (h : table.Valid) (name : String) {definition : Definition} (type : DataType)
    (hplain : definition.routine? = none) (hkind : definition.kind ≠ .varParameter) :
    (table.createDetached name definition type).2.Valid where
  bound_lt id hbound := by
    simpa using Nat.lt_succ_of_lt (h.bound_lt id hbound)
  openScopes_lt := h.openScopes_lt
  scopes_pos := h.scopes_pos
  parameters id routine hroutine parameter hmem := by
    rw [entry_createDetached] at hroutine
    split at hroutine
    · simp [Entry.routine?, hplain] at hroutine
    · obtain ⟨hlt, hkind⟩ := h.parameters id routine hroutine parameter hmem
      rw [entry_createDetached, if_neg (Nat.ne_of_lt hlt), size_createDetached]
      exact ⟨Nat.lt_succ_of_lt hlt, hkind⟩
  kinds id := by
    rw [entry_createDetached]
    split
    · exact hkind
    · exact h.kinds id

/-- An entry can be changed if it stays a parameter where it was one, and has only valid parameters. -/
theorem modifyEntry (h : table.Valid) {id : EntryId} {change : Entry → Entry}
    (hstays : (table.entry id).kind = .valueParameter →
      (change (table.entry id)).kind = .valueParameter)
    (hkind : (change (table.entry id)).kind ≠ .varParameter)
    (hroutine : ∀ routine, (change (table.entry id)).routine? = some routine →
      table.HasParameters routine.parameters) :
    (table.modifyEntry id change).Valid where
  bound_lt other hbound := by simpa using h.bound_lt other hbound
  openScopes_lt := h.openScopes_lt
  scopes_pos := h.scopes_pos
  parameters other routine hother parameter hmem := by
    have hvalid : table.HasParameters routine.parameters := by
      by_cases hsame : other = id ∧ id < table.entries.size
      · rw [entry_modifyEntry, if_pos hsame] at hother
        exact hroutine routine hother
      · rw [entry_modifyEntry, if_neg hsame] at hother
        exact h.parameters other routine hother
    obtain ⟨hlt, hparameter⟩ := hvalid parameter hmem
    rw [size_modifyEntry]
    refine ⟨hlt, ?_⟩
    by_cases hsame : parameter = id
    · subst hsame
      rw [entry_modifyEntry_self hlt]
      exact hstays hparameter
    · rwa [entry_modifyEntry_ne hsame]
  kinds other := by
    rw [entry_modifyEntry]
    split
    · exact hkind
    · exact h.kinds other

theorem push (h : table.Valid) : table.push.2.Valid where
  bound_lt id hbound := h.bound_lt id (bound_push.mp hbound)
  openScopes_lt scope hmem := by
    rcases List.mem_cons.mp hmem with rfl | hmem
    · simp [SymbolTable.push]
    · simpa [SymbolTable.push] using Nat.lt_succ_of_lt (h.openScopes_lt scope hmem)
  scopes_pos := by simp [SymbolTable.push]
  parameters := h.parameters
  kinds := h.kinds

theorem pop (h : table.Valid) : table.pop.2.Valid := by
  unfold SymbolTable.pop
  split
  · exact h
  · next hopen =>
      exact { h with openScopes_lt := fun scope hmem =>
                h.openScopes_lt scope (hopen ▸ List.mem_cons_of_mem _ hmem) }

end Valid

section

variable {known : Token → Prop} {table later : SymbolTable}

theorem Declares.valid (h : Declares known table later) (hvalid : table.Valid) : later.Valid := by
  cases h with
  | mention id hknown =>
      refine hvalid.modifyEntry (fun hkind => ?_) ?_ fun routine hroutine => ?_
      · rwa [Entry.kind_addLine]
      · rw [Entry.kind_addLine]
        exact hvalid.kinds id
      · rw [(Entry.agrees_addLine _ _).routine?] at hroutine
        exact hvalid.parameters id routine hroutine
  | declare definition type hknown hname hfree hroutine hslot =>
      refine (hvalid.bindNew _).modifyEntry (fun hkind => ?_) ?_ fun routine hsome => ?_
      · simp [entry_bindNew, Entry.kind, Definition.kind] at hkind
      · intro hkind
        simp only [Entry.kind] at hkind
        cases definition <;> simp_all [Definition.kind, Definition.slot?]
      · simp [Entry.routine?, hroutine] at hsome
  | store type hknown hname hfree hkind =>
      refine (hvalid.bindNew _).takeSlot.modifyEntry (fun hparameter => ?_) ?_
        fun routine hsome => ?_
      · simp [entry_bindNew, Entry.kind, Definition.kind] at hparameter
      · rw [Entry.kind, Definition.kind_ofStorage _ hkind]
        rcases hkind with rfl | rfl <;> simp
      · simp [Entry.routine?, Definition.routine?_ofStorage] at hsome
  | target routine type =>
      exact hvalid.createDetached _ type rfl (by simp [Definition.kind])

theorem Settles.valid (h : Settles known table later) (hvalid : table.Valid) : later.Valid := by
  cases h with
  | enter henter hfree => exact hvalid.bindNew _
  | detach name => exact hvalid.createDetached _ _ rfl (by simp [Definition.kind])
  | retype type hroutine =>
      refine hvalid.modifyEntry (fun hkind => hkind) (hvalid.kinds _) fun routine hsome => ?_
      exact hvalid.parameters _ routine hsome
  | parameters hparameters =>
      refine hvalid.modifyEntry (fun hkind => ?_) ?_ fun routine hroutine => ?_
      · rwa [Entry.kind_mapRoutine]
      · rw [Entry.kind_mapRoutine]
        exact hvalid.kinds _
      · rw [Entry.routine?_mapRoutine] at hroutine
        obtain ⟨before, -, rfl⟩ := Option.map_eq_some_iff.mp hroutine
        exact hparameters

theorem Reshapes.valid (h : Reshapes known table later) (hvalid : table.Valid) : later.Valid := by
  cases h with
  | declares h => exact h.valid hvalid
  | settles h => exact h.valid hvalid
  | revise hbefore hafter hparameters =>
      refine hvalid.modifyEntry (fun hkind => absurd hkind (Entry.kind_ne_of_revisable hbefore).1) ?_
        fun routine hroutine => ?_
      · exact (Entry.kind_ne_of_routine? hafter).2.1
      · rw [hafter, Option.some.injEq] at hroutine
        exact hroutine ▸ hparameters
  | @amend id change hparameters =>
      refine hvalid.modifyEntry (fun hkind => ?_) ?_ fun routine hroutine => ?_
      · rwa [Entry.kind_mapRoutine]
      · rw [Entry.kind_mapRoutine]
        exact hvalid.kinds id
      · rw [Entry.routine?_mapRoutine] at hroutine
        obtain ⟨before, hbefore, rfl⟩ := Option.map_eq_some_iff.mp hroutine
        exact hparameters before hbefore
  | push => exact hvalid.push
  | pop => exact hvalid.pop
  | takeSlot => exact hvalid.takeSlot

/-- Inside a routine the table only grows. -/
theorem Declares.grows (h : Declares known table later) : table.Grows later := by
  cases h with
  | mention id hknown => exact Grows.modifyEntry (Entry.agrees_addLine _ _)
  | declare definition type hknown hname hfree hroutine hslot =>
      refine Grows.of_new (by simp) (fun id hid => ?_) ?_ fun id hid => ?_
      · rw [entry_modifyEntry_ne (Nat.ne_of_lt hid), entry_bindNew, if_neg (Nat.ne_of_lt hid)]
      · rw [entry_modifyEntry_self (by simp)]
        exact hroutine
      · exact bound_bindNew_of_lt hid
  | store type hknown hname hfree hkind =>
      refine Grows.of_new (by simp [entries_takeSlot]) (fun id hid => ?_) ?_ fun id hid => ?_
      · rw [entry_modifyEntry_ne (Nat.ne_of_lt hid), entry_takeSlot, entry_bindNew,
          if_neg (Nat.ne_of_lt hid)]
      · rw [entry_modifyEntry_self (by simp [entries_takeSlot])]
        exact Definition.routine?_ofStorage _ _
      · exact bound_takeSlot.trans (bound_bindNew_of_lt hid)
  | target routine type => exact .createDetached rfl

end

end SymbolTable

end FrontEnd
