import FrontEnd.Proofs.Conserved

/-!
# What a declaration does

Whether a declaration is refused is plain from the innermost scope.  If the scope has the name, nothing is declared:
no entry is made, no slot is taken, and the name is reported once (`Session.DeclaresNothing`).  If it has not, it comes
to bind the name to a new entry of the kind that is declared, and no name is reported (`SymbolTable.ComesToBind`).

Variables, parameters, types and constants are declared by four productions (`Declaring`), each of which reads more
than the name.  What is read on around a declaration changes nothing in this, so the law (`Session.Declares`) is shown
of the two productions that enter names and is carried over to the four (`Declaring.declares`).
-/

namespace FrontEnd

/-! ## Names in a table -/

namespace SymbolTable

/-- What a scope binds a name, given in lower case, to. -/
def bound? (table : SymbolTable) (scope : ScopeId) (key : String) : Option EntryId :=
  (table.scope scope).get? key

/-- Whether all scopes bind the same names, and every entry has kept its name, its scope and, but for one that may
have `changed`, its kind.  Entries to which no name leads can have been added. -/
structure SameBindings (changed : Option EntryId) (table later : SymbolTable) : Prop where
  bound? : later.bound? = table.bound?
  size_le : table.entries.size ≤ later.entries.size
  label : ∀ id < table.entries.size,
    (later.entry id).name = (table.entry id).name ∧ (later.entry id).scope = (table.entry id).scope
  kind : ∀ id < table.entries.size, changed ≠ some id → (later.entry id).kind = (table.entry id).kind

/-- Whether, besides, the same scopes are open. -/
structure SameNames (changed : Option EntryId) (table later : SymbolTable) : Prop extends
    SameBindings changed table later where
  openScopes : later.openScopes = table.openScopes
  scopes_size : later.scopes.size = table.scopes.size

variable {table between later : SymbolTable} {changed : Option EntryId}

namespace SameBindings

theorem of_entries (hbound : later.bound? = table.bound?) (hentries : later.entries = table.entries) :
    table.SameBindings changed later where
  bound? := hbound
  size_le := Nat.le_of_eq (congrArg Array.size hentries.symm)
  label id _ := by simp [entry, hentries]
  kind id _ _ := by rw [entry, hentries, entry]

theorem trans (h : table.SameBindings changed between) (h' : between.SameBindings changed later) :
    table.SameBindings changed later where
  bound? := h'.bound?.trans h.bound?
  size_le := Nat.le_trans h.size_le h'.size_le
  label id hid := by
    obtain ⟨hname, hscope⟩ := h.label id hid
    obtain ⟨hname', hscope'⟩ := h'.label id (Nat.lt_of_lt_of_le hid h.size_le)
    exact ⟨hname'.trans hname, hscope'.trans hscope⟩
  kind id hid hne := (h'.kind id (Nat.lt_of_lt_of_le hid h.size_le) hne).trans (h.kind id hid hne)

/-- A new scope binds nothing. -/
theorem push (table : SymbolTable) : table.SameBindings changed table.push.2 := by
  refine .of_entries ?_ rfl
  funext scope key
  rw [SymbolTable.bound?, scope_push, SymbolTable.bound?]
  split
  · next hnew => simp [hnew, SymbolTable.scope, Scope.get?]
  · rfl

theorem pop (table : SymbolTable) : table.SameBindings changed table.pop.2 := by
  refine .of_entries ?_ table.entries_pop
  funext scope key
  rw [SymbolTable.bound?, scope_pop, SymbolTable.bound?]

end SameBindings

namespace SameNames

theorem of_scopes (hscopes : later.scopes = table.scopes) (hopen : later.openScopes = table.openScopes)
    (hsize : table.entries.size ≤ later.entries.size)
    (hlabel : ∀ id < table.entries.size,
      (later.entry id).name = (table.entry id).name ∧ (later.entry id).scope = (table.entry id).scope)
    (hkind : ∀ id < table.entries.size, changed ≠ some id → (later.entry id).kind = (table.entry id).kind) :
    table.SameNames changed later where
  bound? := by
    funext scope key
    simp only [SymbolTable.bound?, SymbolTable.scope, hscopes]
  size_le := hsize
  label := hlabel
  kind := hkind
  openScopes := hopen
  scopes_size := congrArg Array.size hscopes

@[refl] theorem refl (table : SymbolTable) : table.SameNames changed table :=
  .of_scopes rfl rfl (Nat.le_refl _) (fun _ _ => ⟨rfl, rfl⟩) fun _ _ _ => rfl

theorem trans (h : table.SameNames changed between) (h' : between.SameNames changed later) :
    table.SameNames changed later where
  toSameBindings := h.toSameBindings.trans h'.toSameBindings
  openScopes := h'.openScopes.trans h.openScopes
  scopes_size := h'.scopes_size.trans h.scopes_size

theorem localScopeId (h : table.SameNames changed later) : later.localScopeId = table.localScopeId := by
  rw [SymbolTable.localScopeId, h.openScopes, SymbolTable.localScopeId]

/-- What can change in an entry is its kind only, and only if it is the one that may. -/
theorem modifyEntry {id : EntryId} {change : Entry → Entry}
    (hlabel : ∀ entry, (change entry).name = entry.name ∧ (change entry).scope = entry.scope)
    (hkind : changed ≠ some id → ∀ entry, (change entry).kind = entry.kind) :
    table.SameNames changed (table.modifyEntry id change) := by
  refine .of_scopes rfl rfl (by simp) (fun other _ => ?_) fun other _ hother => ?_
  · rw [entry_modifyEntry]
    split
    · next hsame =>
        rw [hsame.1]
        exact hlabel _
    · exact ⟨rfl, rfl⟩
  · rw [entry_modifyEntry]
    split
    · next hsame =>
        rw [hsame.1]
        exact hkind (hsame.1 ▸ hother) _
    · rfl

/-- The one that may change can be given another definition and another type. -/
theorem define (table : SymbolTable) (id : EntryId) (definition : Definition) (type : DataType) :
    table.SameNames (some id)
      (table.modifyEntry id fun entry => { entry with definition, type := some type }) :=
  .modifyEntry (fun _ => ⟨rfl, rfl⟩) fun hother => absurd rfl hother

theorem addLine (table : SymbolTable) (id : EntryId) (line : Nat) :
    table.SameNames changed (table.modifyEntry id (·.addLine line)) :=
  .modifyEntry (fun entry => ⟨(entry.agrees_addLine line).name, (entry.agrees_addLine line).scope⟩)
    fun _ entry => entry.kind_addLine line

theorem modifyRoutine (table : SymbolTable) (id : EntryId) (change : Routine → Routine) :
    table.SameNames changed (table.modifyRoutine id change) :=
  .modifyEntry (fun _ => ⟨rfl, rfl⟩) fun _ entry => entry.kind_mapRoutine change

/-- What has changed was not there before. -/
theorem settle {id : EntryId} (h : table.SameNames (some id) later) (hid : table.entries.size ≤ id) :
    table.SameNames changed later where
  toSameBindings := ⟨h.bound?, h.size_le, h.label, fun other hother _ =>
    h.kind other hother (by simpa using Ne.symm (Nat.ne_of_lt (Nat.lt_of_lt_of_le hother hid)))⟩
  openScopes := h.openScopes
  scopes_size := h.scopes_size

theorem createDetached (table : SymbolTable) (name : String) (definition : Definition) (type : DataType) :
    table.SameNames changed (table.createDetached name definition type).2 := by
  have hentry : ∀ id < table.entries.size, (table.createDetached name definition type).2.entry id = table.entry id :=
    fun id hid => by rw [entry_createDetached, if_neg (Nat.ne_of_lt hid)]
  exact .of_scopes rfl rfl (by simp) (fun id hid => by simp [hentry id hid]) fun id hid _ => by rw [hentry id hid]

theorem takeSlot (table : SymbolTable) : table.SameNames changed table.takeSlot.2 where
  toSameBindings := by
    refine .of_entries ?_ rfl
    funext scope key
    rw [SymbolTable.bound?, Scope.get?, bindings_takeSlot, SymbolTable.bound?, Scope.get?]
  openScopes := rfl
  scopes_size := by simp [SymbolTable.takeSlot]

theorem marked (table : SymbolTable) (id : EntryId) (kind : DefinitionKind) (forwarded : Bool) :
    table.SameNames (some id) (table.marked id kind forwarded) := by
  have hmarked : table.SameNames (some id) (table.modifyEntry id (Production.markedEntry kind forwarded)) :=
    .modifyEntry (fun _ => by cases forwarded <;> exact ⟨rfl, rfl⟩) fun hother => absurd rfl hother
  unfold SymbolTable.marked
  split
  · exact hmarked.trans (.modifyEntry (fun _ => ⟨rfl, rfl⟩) fun hother => absurd rfl hother)
  · exact hmarked

end SameNames

/-! ## Names that are entered -/

/-- A new entry is what its name is bound to in the innermost scope, unless something else is. -/
theorem bound?_bindNew (hlocal : table.localScopeId < table.scopes.size) {key : String}
    (hfree : table.bound? table.localScopeId key = none) (scope : ScopeId) (name : String) :
    (table.bindNew key).bound? scope name =
      if scope = table.localScopeId ∧ name = key then some table.entries.size else table.bound? scope name := by
  by_cases hscope : scope = table.localScopeId
  · subst hscope
    have hnone : (table.scope table.localScopeId).bindings.lookup key = none := hfree
    rw [SymbolTable.bound?, scope_bindNew, if_pos ⟨rfl, hlocal⟩, Scope.get?, Scope.bind, List.lookup_append,
      List.lookup_cons, List.lookup_nil]
    by_cases hname : name = key
    · simp [hname, hnone]
    · simp [hname, beq_false_of_ne hname, SymbolTable.bound?, Scope.get?]
  · rw [SymbolTable.bound?, scope_bindNew, if_neg fun h => hscope h.1, if_neg fun h => hscope h.1,
      SymbolTable.bound?]

/-- Whether a scope has come to bind a name to an entry of a kind: to a new one, or once more to that of a routine.
Nothing else is bound, and no other entry has changed in its name, its scope or its kind. -/
structure ComesToBind (table : SymbolTable) (scope : ScopeId) (key : String) (kind : DefinitionKind) (id : EntryId)
    (later : SymbolTable) : Prop where
  openScopes : later.openScopes = table.openScopes
  scopes_size : later.scopes.size = table.scopes.size
  bound? : ∀ other name,
    later.bound? other name = if other = scope ∧ name = key then some id else table.bound? other name
  size_le : table.entries.size ≤ later.entries.size
  label : ∀ other < table.entries.size,
    (later.entry other).name = (table.entry other).name ∧ (later.entry other).scope = (table.entry other).scope
  other_kind : ∀ other < table.entries.size, other ≠ id → (later.entry other).kind = (table.entry other).kind
  lt : id < later.entries.size
  new_kind : (later.entry id).kind = kind
  found : table.bound? scope key = none ∧ id = table.entries.size ∧
      (later.entry id).name = key ∧ (later.entry id).scope = scope ∨
    table.bound? scope key = some id ∧ id < table.entries.size ∧
      (table.entry id).kind.isRoutine = true ∧ kind.isRoutine = true

namespace ComesToBind

variable {scope : ScopeId} {key : String} {kind : DefinitionKind} {id : EntryId}

/-- A name that is free is bound to a new entry, which is then given its kind. -/
theorem of_bindNew (hlocal : table.localScopeId < table.scopes.size)
    (hfree : table.bound? table.localScopeId key = none)
    (hsame : (table.bindNew key).SameNames (some table.entries.size) later)
    (hkind : (later.entry table.entries.size).kind = kind) :
    table.ComesToBind table.localScopeId key kind table.entries.size later where
  openScopes := hsame.openScopes
  scopes_size := by rw [hsame.scopes_size]; simp [bindNew]
  bound? other name := by rw [hsame.bound?, bound?_bindNew hlocal hfree]
  size_le := Nat.le_trans (by simp) hsame.size_le
  label other hother := by
    have hlabel := hsame.label other (Nat.lt_of_lt_of_le hother (by simp))
    rwa [entry_bindNew, if_neg (Nat.ne_of_lt hother)] at hlabel
  other_kind other hother hne := by
    rw [hsame.kind other (Nat.lt_of_lt_of_le hother (by simp)) (by simpa using Ne.symm hne), entry_bindNew,
      if_neg hne]
  lt := Nat.lt_of_lt_of_le (by simp) hsame.size_le
  new_kind := hkind
  found := by
    have hlabel := hsame.label table.entries.size (by simp)
    rw [entry_bindNew, if_pos rfl] at hlabel
    exact Or.inl ⟨hfree, rfl, hlabel⟩

/-- A routine is named once more. -/
theorem of_routine (hbound : table.bound? scope key = some id) (hlt : id < table.entries.size)
    (hold : (table.entry id).kind.isRoutine = true) (hnew : kind.isRoutine = true)
    (hsame : table.SameNames (some id) later) (hkind : (later.entry id).kind = kind) :
    table.ComesToBind scope key kind id later where
  openScopes := hsame.openScopes
  scopes_size := hsame.scopes_size
  bound? other name := by
    rw [hsame.bound?]
    split
    · next hother => rw [hother.1, hother.2, hbound]
    · rfl
  size_le := hsame.size_le
  label := hsame.label
  other_kind other hother hne := hsame.kind other hother (by simpa using Ne.symm hne)
  lt := Nat.lt_of_lt_of_le hlt hsame.size_le
  new_kind := hkind
  found := Or.inr ⟨hbound, hlt, hold, hnew⟩

/-- What is done before a name is entered makes no entry. -/
theorem after (hsame : table.SameNames none between) (hsize : between.entries.size = table.entries.size)
    (h : between.ComesToBind scope key kind id later) : table.ComesToBind scope key kind id later where
  openScopes := h.openScopes.trans hsame.openScopes
  scopes_size := h.scopes_size.trans hsame.scopes_size
  bound? other name := by rw [h.bound?, hsame.bound?]
  size_le := Nat.le_trans hsame.size_le h.size_le
  label other hother := by
    obtain ⟨hname, hscope⟩ := hsame.label other hother
    obtain ⟨hname', hscope'⟩ := h.label other (hsize ▸ hother)
    exact ⟨hname'.trans hname, hscope'.trans hscope⟩
  other_kind other hother hne := (h.other_kind other (hsize ▸ hother) hne).trans (hsame.kind other hother (by simp))
  lt := h.lt
  new_kind := h.new_kind
  found := by
    refine h.found.imp (fun ⟨hfree, hid, hlabel⟩ => ⟨?_, hid.trans hsize, hlabel⟩)
      fun ⟨hbound, hlt, hold, hnew⟩ => ⟨?_, hsize ▸ hlt, ?_, hnew⟩
    · rwa [← hsame.bound?]
    · rwa [← hsame.bound?]
    · rwa [← hsame.kind id (hsize ▸ hlt) (by simp)]

/-- What is done after a name has been entered leaves it so. -/
theorem sameNames (h : table.ComesToBind scope key kind id between) (hsame : between.SameNames none later) :
    table.ComesToBind scope key kind id later where
  openScopes := hsame.openScopes.trans h.openScopes
  scopes_size := hsame.scopes_size.trans h.scopes_size
  bound? other name := by rw [hsame.bound?, h.bound?]
  size_le := Nat.le_trans h.size_le hsame.size_le
  label other hother := by
    obtain ⟨hname, hscope⟩ := h.label other hother
    obtain ⟨hname', hscope'⟩ := hsame.label other (Nat.lt_of_lt_of_le hother h.size_le)
    exact ⟨hname'.trans hname, hscope'.trans hscope⟩
  other_kind other hother hne :=
    (hsame.kind other (Nat.lt_of_lt_of_le hother h.size_le) (by simp)).trans (h.other_kind other hother hne)
  lt := Nat.lt_of_lt_of_le h.lt hsame.size_le
  new_kind := (hsame.kind id h.lt (by simp)).trans h.new_kind
  found := by
    obtain ⟨hname, hscope⟩ := hsame.label id h.lt
    exact h.found.imp_left fun ⟨hfree, hid, hlabel⟩ => ⟨hfree, hid, hname.trans hlabel.1, hscope.trans hlabel.2⟩

/-- The scope finds the entry. -/
theorem lookupLocal {name : String} (h : table.ComesToBind table.localScopeId (Text.lower name) kind id later) :
    later.lookupLocal name = some id := by
  have hlocal : later.localScopeId = table.localScopeId := by
    rw [localScopeId, h.openScopes, localScopeId]
  show later.bound? later.localScopeId (Text.lower name) = some id
  rw [hlocal, h.bound?, if_pos ⟨rfl, rfl⟩]

end ComesToBind

end SymbolTable

/-! ## Sessions -/

namespace Session

/-- The reports of names that are declared again. -/
def redefinitions (session : Session) : List Diagnostic :=
  session.diagnostics.filter (·.kind == .identifierRedefined)

/-- Whether the scopes that are open are scopes of the table, and not the global one. -/
def Proper (session : Session) : Prop :=
  ∀ scope ∈ session.table.openScopes, scope ≠ globalScope ∧ scope < session.table.scopes.size

/-- Whether the innermost scope is a scope of the table, and not the global one. -/
structure Inside (session : Session) : Prop where
  nonempty : session.table.openScopes ≠ []
  proper : session.Proper

variable {session between later : Session}

theorem redefinitions_report (session : Session) (token : Token) (kind : ErrorKind) :
    redefinitions { session with diagnostics := session.diagnostics ++ [Diagnostic.atToken token kind] } =
      session.redefinitions ++ if kind = .identifierRedefined then [Diagnostic.atToken token kind] else [] := by
  cases kind <;> simp [redefinitions, Diagnostic.atToken]

theorem Reads.redefinitions_eq (h : session.Reads later) : later.redefinitions = session.redefinitions := by
  cases h with
  | intro cursor added hcursor hadded =>
      have hnone : added.filter (·.kind == .identifierRedefined) = [] :=
        List.filter_eq_nil_iff.mpr fun report hmem => by simpa using (ErrorKind.ne_of_ofNames (hadded report hmem)).1
      rw [redefinitions, List.filter_append, hnone, List.append_nil, redefinitions]

/-- Where nothing but moves are made, the cursor is read on. -/
theorem Moves.readsOn {stores : List DefinitionKind} {owner : EntryId} (h : session.Moves stores owner later) :
    session.cursor.ReadsOn later.cursor := by
  induction h with
  | refl => exact .refl
  | tail _ hmove ih =>
      cases hmove with
      | read hreads => exact ih.trans hreads.readsOn
      | redefined | extend => exact ih

theorem Inside.localScopeId (h : session.Inside) : session.table.localScopeId ≠ globalScope ∧
    session.table.localScopeId < session.table.scopes.size := by
  obtain ⟨scope, outer, hopen⟩ := List.exists_cons_of_ne_nil h.nonempty
  exact h.proper _ (by simp [SymbolTable.localScopeId, hopen])

/-- Whether the session is inside a scope depends on the scopes only. -/
theorem Inside.of_scopes (h : session.Inside) (hopen : later.table.openScopes = session.table.openScopes)
    (hsize : session.table.scopes.size ≤ later.table.scopes.size) : later.Inside where
  nonempty := by rw [hopen]; exact h.nonempty
  proper scope hscope := by
    obtain ⟨hne, hlt⟩ := h.proper scope (hopen ▸ hscope)
    exact ⟨hne, Nat.lt_of_lt_of_le hlt hsize⟩

/-- Whether nothing is declared between two sessions: no entry is made, no name is bound and no slot is taken, and
entries at most get lines.  What is reported of names that are declared again is `refused`. -/
structure DeclaresNothing (refused : List Diagnostic) (session later : Session) : Prop where
  size : later.table.entries.size = session.table.entries.size
  keeps : ∀ id < session.table.entries.size, (session.table.entry id).Keeps (later.table.entry id)
  scopes : later.table.scopes = session.table.scopes
  openScopes : later.table.openScopes = session.table.openScopes
  redefinitions : later.redefinitions = session.redefinitions ++ refused

namespace DeclaresNothing

variable {refused more : List Diagnostic}

theorem of_table (htable : later.table = session.table)
    (hredefinitions : later.redefinitions = session.redefinitions ++ refused) :
    DeclaresNothing refused session later where
  size := by rw [htable]
  keeps id _ := by rw [htable]
  scopes := by rw [htable]
  openScopes := by rw [htable]
  redefinitions := hredefinitions

theorem trans (h : DeclaresNothing refused session between) (h' : DeclaresNothing more between later) :
    DeclaresNothing (refused ++ more) session later where
  size := h'.size.trans h.size
  keeps id hid := (h.keeps id hid).trans (h'.keeps id (h.size ▸ hid))
  scopes := h'.scopes.trans h.scopes
  openScopes := h'.openScopes.trans h.openScopes
  redefinitions := by rw [h'.redefinitions, h.redefinitions, List.append_assoc]

theorem of_reads (h : session.Reads later) : DeclaresNothing [] session later :=
  .of_table h.table_eq (by rw [h.redefinitions_eq, List.append_nil])

/-- The scope that has a name still has it. -/
theorem lookupLocal_eq (h : DeclaresNothing refused session later) (name : String) :
    later.table.lookupLocal name = session.table.lookupLocal name := by
  simp only [SymbolTable.lookupLocal, SymbolTable.localScope, SymbolTable.localScopeId, SymbolTable.scope,
    h.scopes, h.openScopes]

theorem sameNames {changed : Option EntryId} (h : DeclaresNothing refused session later) :
    session.table.SameNames changed later.table :=
  .of_scopes h.scopes h.openScopes (Nat.le_of_eq h.size.symm)
    (fun id hid => ⟨(h.keeps id hid).name, (h.keeps id hid).scope⟩) fun id hid _ => (h.keeps id hid).kind

instance : Std.Refl (DeclaresNothing []) := ⟨fun session => .of_reads (refl session)⟩

instance : IsTrans Session (DeclaresNothing []) := ⟨fun _ _ _ => .trans⟩

end DeclaresNothing

/-- What becomes of a name that is declared.  If the innermost scope has the name, nothing is declared, and the name is
reported; else the scope comes to bind it to a new entry of the kind, and no name is reported. -/
structure Declares (name : Token) (kind : DefinitionKind) (session later : Session) : Prop where
  refused : session.table.lookupLocal name.text ≠ none →
    DeclaresNothing [Diagnostic.atToken name .identifierRedefined] session later
  entered : session.Inside → session.table.lookupLocal name.text = none →
    session.table.ComesToBind session.table.localScopeId (Text.lower name.text) kind session.table.entries.size
        later.table ∧
      later.redefinitions = session.redefinitions

namespace Declares

variable {name : Token} {kind : DefinitionKind}

/-- What is read before the name changes nothing in this. -/
theorem after (hnothing : DeclaresNothing [] session between) (h : Declares name kind between later) :
    Declares name kind session later where
  refused htaken := hnothing.trans (h.refused (by rwa [hnothing.lookupLocal_eq]))
  entered hinside hfree := by
    have hsame : session.table.SameNames none between.table := hnothing.sameNames
    have hbetween := hinside.of_scopes hnothing.openScopes (Nat.le_of_eq hsame.scopes_size.symm)
    obtain ⟨hbinds, hredefinitions⟩ := h.entered hbetween (by rwa [hnothing.lookupLocal_eq])
    rw [hsame.localScopeId, hnothing.size] at hbinds
    exact ⟨hbinds.after hsame hnothing.size,
      hredefinitions.trans (hnothing.redefinitions.trans (List.append_nil _))⟩

/-- Nor does what is read after it. -/
theorem reads (h : Declares name kind session between) (hreads : between.Reads later) :
    Declares name kind session later where
  refused htaken := by simpa using (h.refused htaken).trans (.of_reads hreads)
  entered hinside hfree := by
    obtain ⟨hbinds, hredefinitions⟩ := h.entered hinside hfree
    exact ⟨hbinds.sameNames (DeclaresNothing.of_reads hreads).sameNames, hreads.redefinitions_eq.trans hredefinitions⟩

end Declares

end Session

/-! ## The productions that enter names -/

namespace Production

open Session

variable {α β : Type} {session later : Session} {name : Token} {kind : DefinitionKind}

/-- A name that the scope has is reported, and nothing else is done. -/
theorem declares_of_taken (htaken : session.table.lookupLocal name.text ≠ none) :
    Declares name kind session
      { session with diagnostics := session.diagnostics ++ [Diagnostic.atToken name .identifierRedefined] } where
  refused _ := .of_table rfl (redefinitions_report session name .identifierRedefined)
  entered _ hfree := absurd hfree htaken

theorem declares_declare (name : Token) (definition : Definition) (type : DataType) (session : Session) :
    Leads (declare name definition type) session (fun _ => True) fun _ later =>
      Declares name definition.kind session later := by
  cases hlocal : session.table.lookupLocal name.text with
  | some id =>
      simp only [declare, enterLocal, SymbolTable.enterLocal, leads_bind, leads_onTable, hlocal, leads_flagAt]
      exact declares_of_taken (by simp [hlocal])
  | none =>
      simp only [declare, enterLocal, SymbolTable.enterLocal, leads_bind, leads_onTable, hlocal, leads_changeEntry]
      refine ⟨fun htaken => absurd hlocal htaken, fun hinside _ =>
        ⟨.of_bindNew hinside.localScopeId.2 hlocal ?_ ?_, rfl⟩⟩
      · exact (SymbolTable.SameNames.define _ _ definition type).trans (.addLine _ _ _)
      · rw [SymbolTable.entry_modifyEntry_self (by simp), Entry.kind_addLine,
          SymbolTable.entry_modifyEntry_self (by simp)]
        rfl

theorem declares_declareStorage (name : Token) (hkind : kind = .plainVariable ∨ kind = .valueParameter)
    (type : DataType) (session : Session) : Leads (declareStorage name kind type) session (fun _ => True) fun _ later =>
      Declares name kind session later := by
  cases hlocal : session.table.lookupLocal name.text with
  | some id =>
      simp only [declareStorage, enterLocal, SymbolTable.enterLocal, leads_bind, leads_onTable, hlocal, leads_flagAt,
        leads_pure]
      exact declares_of_taken (by simp [hlocal])
  | none =>
      simp only [declareStorage, enterLocal, SymbolTable.enterLocal, leads_bind, leads_onTable, hlocal,
        leads_changeEntry, leads_pure]
      refine ⟨fun htaken => absurd hlocal htaken, fun hinside _ =>
        ⟨.of_bindNew hinside.localScopeId.2 hlocal ?_ ?_, rfl⟩⟩
      · exact ((SymbolTable.SameNames.takeSlot _).trans (.define _ _ _ type)).trans (.addLine _ _ _)
      · rw [SymbolTable.entry_modifyEntry_self (by simp [SymbolTable.entries_takeSlot]), Entry.kind_addLine,
          SymbolTable.entry_modifyEntry_self (by simp [SymbolTable.entries_takeSlot])]
        exact Definition.kind_ofStorage _ hkind

/-- After a name has been declared it is only read on. -/
theorem leads_declares_bind {production : Production α} {rest : α → Production β}
    (h : Leads production session (fun _ => True) fun _ later => Declares name kind session later)
    (hrest : ∀ answer, Relates Reads (rest answer)) :
    Leads (production >>= rest) session (fun _ => True) fun _ later => Declares name kind session later := by
  refine h.bind fun answer between hbetween => ?_
  exact ((hrest answer).leads between).imp fun _ later hreads => hbetween.reads hreads

/-- Before a name is declared nothing is. -/
theorem leads_bind_declares {production : Production α} {rest : α → Production β}
    (h : Relates (DeclaresNothing []) production)
    (hrest : ∀ answer between,
      Leads (rest answer) between (fun _ => True) fun _ later => Declares name kind between later) :
    Leads (production >>= rest) session (fun _ => True) fun _ later => Declares name kind session later := by
  refine (h.leads session).bind fun answer between hbetween => ?_
  exact (hrest answer between).imp fun _ _ hlater => hlater.after hbetween

/-- A line is added to an entry, and nothing is declared. -/
theorem declaresNothing_addLine (id : EntryId) (line : Nat) :
    Relates (DeclaresNothing []) (changeEntry id (·.addLine line)) := by
  refine ⟨fun session => ⟨by simp, fun other _ => ?_, rfl, rfl, (List.append_nil _).symm⟩⟩
  show (session.table.entry other).Keeps ((session.table.modifyEntry id _).entry other)
  rw [SymbolTable.entry_modifyEntry]
  split
  · next hother =>
      rw [hother.1]
      exact .addLine _ _
  · exact .refl _

/-- The name of a type gets the line on which it is used. -/
theorem declaresNothing_typeSpecifier : Relates (DeclaresNothing []) typeSpecifier := by
  have hnext : Relates (DeclaresNothing []) nextToken := reads_nextToken.mono fun _ _ => .of_reads
  have hnamed : Relates (DeclaresNothing []) namedType := by
    refine (Relates.read _).bind fun token => (Relates.typeNamed token.text).bind fun found => ?_
    cases found with
    | none => exact .pure none
    | some id =>
        refine (declaresNothing_addLine id token.line).bind fun _ => (Relates.read _).bind fun _ => ?_
        exact hnext.bind fun _ => .pure _
  refine (Relates.read _).bind fun kind => ?_
  split
  case h_7 | h_8 =>
    refine hnext.bind fun name => .ite (hnext.bind fun _ => .pure _) ?_
    exact ((reads_flag rfl).mono fun _ _ => .of_reads).bind fun _ => .pure _
  case h_9 => exact .pure none
  all_goals exact hnamed

/-! ## The four declarations -/

/-- A run of what declares a name: as a variable, as a parameter, as a type, or as a constant that has a value. -/
inductive Declaring (name : Token) : DefinitionKind → Session → Session → Prop
  | plainVariable {type : DataType} {session : Session} {answer : ForInStep Unit} {later : Session} :
      session.cursor.current = name → variableName type session = .ok (answer, later) →
      Declaring name .plainVariable session later
  | parameter {type : Option DataType} {session typed : Session} {answer : Option EntryId} {later : Session} :
      typeSpecifier session = .ok (type, typed) → typed.cursor.current = name →
      typedParameter session = .ok (answer, later) → Declaring name .valueParameter session later
  | type {type : DataType} {session later : Session} :
      session.cursor.current = name → typeName type session = .ok ((), later) → Declaring name .type session later
  | constant {declared : Option DataType} {value : ConstantValue} {session valued : Session} {answer : ForInStep Unit}
      {later : Session} : session.cursor.current = name →
      (do
        let _ ← nextToken
        expect .equals .missingEquals
        constantValue) session = .ok (some value, valued) →
      constantDefinition declared session = .ok (answer, later) → Declaring name .constant session later

namespace Declaring

/-- Each of them declares the name as described. -/
theorem declares (h : Declaring name kind session later) (hname : name.kind = .identifier) :
    Declares name kind session later := by
  cases h with
  | plainVariable hcurrent hrun =>
      suffices hleads : Leads (variableName _) session (fun _ => True) fun _ later =>
          Declares name .plainVariable session later from (leads_of_ok hrun).mp hleads
      rw [variableName, leads_bind, leads_current, hcurrent, if_neg (by simp [hname])]
      refine leads_declares_bind (declares_declareStorage name (.inl rfl) _ session) fun _ =>
        reads_nextToken.bind fun _ => ?_
      refine (reads_matchToken _).bind fun _ => .ite (.pure _) ((Relates.read _).bind fun _ => .ite ?_ (.pure _))
      exact (reads_flag rfl).bind fun _ => .pure _
  | @parameter type _ typed answer later htype hcurrent hrun =>
      suffices hleads : Leads typedParameter session (fun _ => True) fun _ later =>
          Declares name .valueParameter session later from (leads_of_ok hrun).mp hleads
      rw [typedParameter, leads_bind]
      refine (leads_of_ok htype).mpr ?_
      rw [leads_bind, leads_current, hcurrent, if_pos (by simp [hname])]
      refine (leads_declares_bind (declares_declareStorage name (.inr rfl) _ typed) fun _ =>
        reads_nextToken.bind fun _ => .pure _).imp fun _ later hlater => ?_
      exact hlater.after (declaresNothing_typeSpecifier.of_run htype)
  | type hcurrent hrun =>
      suffices hleads : Leads (typeName _) session (fun _ => True) fun _ later =>
          Declares name .type session later from (leads_of_ok hrun).mp hleads
      rw [typeName, leads_bind, leads_current, hcurrent, if_pos (by simp [hname])]
      refine leads_bind_declares (reads_nextToken.mono fun _ _ => .of_reads) fun _ read => ?_
      refine leads_bind_declares ((reads_arraySuffix _).mono fun _ _ => .of_reads) fun type suffixed => ?_
      exact declares_declare name .type type suffixed
  | @constant declared value _ valued answer later hcurrent hvalue hrun =>
      suffices hleads : Leads (constantDefinition declared) session (fun _ => True) fun _ later =>
          Declares name .constant session later from (leads_of_ok hrun).mp hleads
      obtain ⟨_, read, hread, hrest⟩ := exists_of_bind hvalue
      obtain ⟨_, ready, hequals, hconstant⟩ := exists_of_bind hrest
      have hreads : session.Reads valued := (reads_nextToken.of_run hread).trans
        (((reads_expect _ rfl).of_run hequals).trans (reads_constantValue.of_run hconstant))
      rw [constantDefinition, leads_bind, leads_current, hcurrent, if_neg (by simp [hname]), leads_bind]
      refine (leads_of_ok hread).mpr ?_
      rw [leads_bind]
      refine (leads_of_ok hequals).mpr ?_
      rw [leads_bind, leads_current, leads_bind]
      refine (leads_of_ok hconstant).mpr ?_
      have hdeclare : Leads (declareConstant name ready.cursor.current declared value) valued (fun _ => True)
          fun _ later => Declares name .constant valued later :=
        leads_bind_declares ((reads_ensure _ _ rfl).mono fun _ _ => .of_reads) fun _ checked =>
          declares_declare name (.constant value) _ checked
      refine (leads_declares_bind hdeclare fun _ => (reads_matchToken _).bind fun _ =>
        .ite (.pure _) (.pure _)).imp fun _ later hlater => ?_
      exact hlater.after (.of_reads hreads)

/-- To declare a name it is only read on. -/
theorem readsOn (h : Declaring name kind session later) : session.cursor.ReadsOn later.cursor := by
  have hmoves {α : Type} {production : Production α} {answer : α} {stores : List DefinitionKind}
      (hstays : Stays stores SymbolTable.programId production) (hrun : production session = .ok (answer, later)) :
      session.cursor.ReadsOn later.cursor := (hstays.of_run hrun).readsOn
  cases h with
  | plainVariable _ hrun => exact hmoves (stays_variableName _) hrun
  | parameter _ _ hrun => exact hmoves stays_typedParameter hrun
  | type _ hrun => exact hmoves (@stays_typeName [] _ _) hrun
  | constant _ _ hrun => exact hmoves (@stays_constantDefinition [] _ _) hrun

end Declaring

end Production

end FrontEnd
