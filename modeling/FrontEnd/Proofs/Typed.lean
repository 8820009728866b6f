import FrontEnd.Proofs.Stays

/-!
# What has a type

While no error has been reported, everything that a program declares has a type: variables, parameters,
constants and names for types (`SymbolTable.Typed`).  Only a function can lack one, if it is *free* to do so.
Which functions are free is left open here: no declaration, no expression, no statement and no list of
parameters makes a function, so all of them keep the types that there are, whatever functions are free
(`Session.Types`).

An error is the other way out.  A production that has no type to give either reports an error, and then
nothing is claimed any more, or it has consumed nothing, and then what comes next reports one.
-/

namespace FrontEnd

/-- The kinds of what is declared with a type. -/
def DefinitionKind.typed : List DefinitionKind := [plainVariable, valueParameter, constant, type]

/-- Whether an entry has a type if it must have one.  A variable must if it is `bound` to a name, since the
targets of returns are not, and have the types of their routines.  A function must unless it is `free`. -/
structure Entry.Typed (bound free : Prop) (entry : Entry) : Prop where
  value : entry.kind ∈ DefinitionKind.typed → (entry.kind = .plainVariable → bound) →
    entry.resolvedType ≠ .undefined
  function : entry.kind = .function → entry.resolvedType = .undefined → free

namespace Entry.Typed

variable {bound bound' free free' : Prop} {entry other : Entry}

theorem mono (h : entry.Typed bound free) (hbound : bound' → bound) (hfree : free → free') :
    entry.Typed bound' free' where
  value hkind hplain := h.value hkind fun hvariable => hbound (hplain hvariable)
  function hkind htype := hfree (h.function hkind htype)

theorem congr (h : entry.Typed bound free) (hkind : other.kind = entry.kind)
    (htype : other.resolvedType = entry.resolvedType) : other.Typed bound free := by
  refine ⟨?_, ?_⟩ <;> rw [hkind, htype]
  · exact h.value
  · exact h.function

theorem of_type (h : entry.resolvedType ≠ .undefined) : entry.Typed bound free where
  value _ _ := h
  function _ htype := absurd htype h

/-- What is declared without a type needs none. -/
theorem of_kind (h : entry.kind ∉ DefinitionKind.typed) (hfunction : entry.kind ≠ .function) :
    entry.Typed bound free where
  value hkind := absurd hkind h
  function hkind := absurd hkind hfunction

end Entry.Typed

/-! ## Tables -/

namespace SymbolTable

/-- Whether all entries of a table have types, except for the functions that are free to have none. -/
structure Typed (free : EntryId → Prop) (table : SymbolTable) : Prop where
  bound_lt : ∀ id, table.Bound id → id < table.entries.size
  entry : ∀ id, (table.entry id).Typed (table.Bound id) (free id)

/-- Whether two tables have the same entries, as far as kinds and types and what is bound are concerned. -/
structure SameTypes (first second : SymbolTable) : Prop where
  size : second.entries.size = first.entries.size
  bound : ∀ id, second.Bound id ↔ first.Bound id
  kind : ∀ id, (second.entry id).kind = (first.entry id).kind
  type : ∀ id, (second.entry id).resolvedType = (first.entry id).resolvedType

namespace SameTypes

variable {first second third : SymbolTable}

theorem refl (table : SymbolTable) : table.SameTypes table :=
  ⟨rfl, fun _ => Iff.rfl, fun _ => rfl, fun _ => rfl⟩

theorem trans (h : first.SameTypes second) (h' : second.SameTypes third) : first.SameTypes third where
  size := h'.size.trans h.size
  bound id := (h'.bound id).trans (h.bound id)
  kind id := (h'.kind id).trans (h.kind id)
  type id := (h'.type id).trans (h.type id)

/-- Scopes are opened and closed, and slots taken, without any effect on entries. -/
theorem of_entries (hentries : second.entries = first.entries)
    (hbound : ∀ id, second.Bound id ↔ first.Bound id) : first.SameTypes second where
  size := by rw [hentries]
  bound := hbound
  kind id := by simp only [SymbolTable.entry, hentries]
  type id := by simp only [SymbolTable.entry, hentries]

theorem modifyEntry {table : SymbolTable} (id : EntryId) {change : Entry → Entry}
    (hkind : ∀ entry, (change entry).kind = entry.kind)
    (htype : ∀ entry, (change entry).resolvedType = entry.resolvedType) :
    table.SameTypes (table.modifyEntry id change) where
  size := by simp
  bound _ := Iff.rfl
  kind other := by
    rw [entry_modifyEntry]
    split
    · next hsame => rw [hsame.1, hkind]
    · rfl
  type other := by
    rw [entry_modifyEntry]
    split
    · next hsame => rw [hsame.1, htype]
    · rfl

theorem addLine (table : SymbolTable) (id : EntryId) (line : Nat) :
    table.SameTypes (table.modifyEntry id (·.addLine line)) :=
  modifyEntry id (fun _ => Entry.kind_addLine _ _) fun _ => (Entry.agrees_addLine _ _).resolvedType

theorem modifyRoutine (table : SymbolTable) (id : EntryId) (change : Routine → Routine) :
    table.SameTypes (table.modifyRoutine id change) :=
  modifyEntry id (fun _ => Entry.kind_mapRoutine _ _) fun _ => rfl

theorem takeSlot (table : SymbolTable) : table.SameTypes table.takeSlot.2 :=
  of_entries rfl fun _ => bound_takeSlot

theorem push (table : SymbolTable) : table.SameTypes table.push.2 :=
  of_entries rfl fun _ => bound_push

theorem pop (table : SymbolTable) : table.SameTypes table.pop.2 :=
  of_entries (entries_pop table) fun _ => bound_pop

end SameTypes

namespace Typed

variable {free free' : EntryId → Prop} {table later : SymbolTable} {id : EntryId}

theorem mono (h : table.Typed free) (hfree : ∀ id, free id → free' id) : table.Typed free' where
  bound_lt := h.bound_lt
  entry id := (h.entry id).mono (fun hbound => hbound) (hfree id)

theorem of_sameTypes (h : table.Typed free) (hsame : table.SameTypes later) : later.Typed free where
  bound_lt id hbound := by
    rw [hsame.size]
    exact h.bound_lt id ((hsame.bound id).mp hbound)
  entry id := ((h.entry id).congr (hsame.kind id) (hsame.type id)).mono (hsame.bound id).mp fun hfree => hfree

/-- A new name stands for nothing yet. -/
theorem bindNew (h : table.Typed free) (key : String) : (table.bindNew key).Typed free where
  bound_lt id hbound := by
    rw [size_bindNew]
    rcases bound_or_eq_of_bindNew hbound with hold | rfl
    · exact Nat.lt_succ_of_lt (h.bound_lt id hold)
    · exact Nat.lt_succ_self _
  entry id := by
    rw [entry_bindNew]
    split
    · exact .of_kind (by simp [Entry.kind, Definition.kind, DefinitionKind.typed])
        (by simp [Entry.kind, Definition.kind])
    · next hne =>
        exact (h.entry id).mono (fun hbound => (bound_or_eq_of_bindNew hbound).resolve_right hne)
          fun hfree => hfree

/-- An entry that no name leads to is a target of returns, or stands for nothing. -/
theorem createDetached (h : table.Typed free) (name : String) {definition : Definition} (type : DataType)
    (hkind : definition.kind = .plainVariable ∨ definition.kind = .undefined) :
    (table.createDetached name definition type).2.Typed free where
  bound_lt id hbound := by
    rw [size_createDetached]
    exact Nat.lt_succ_of_lt (h.bound_lt id hbound)
  entry id := by
    rw [entry_createDetached]
    split
    · next hnew =>
        subst hnew
        rcases hkind with hplain | hundefined
        · refine ⟨fun _ hbound => ?_, fun hfunction => ?_⟩
          · exact absurd (h.bound_lt _ (hbound hplain)) (Nat.lt_irrefl _)
          · simp [Entry.kind, hplain] at hfunction
        · exact .of_kind (by simp [Entry.kind, hundefined, DefinitionKind.typed])
            (by simp [Entry.kind, hundefined])
    · exact h.entry id

/-- Where one entry is changed, the others may be no more free than they were. -/
theorem modifyEntry {free' : EntryId → Prop} (h : table.Typed free)
    (hfree : ∀ other, free other → free' other ∨ other = id) {change : Entry → Entry}
    (hchanged : (change (table.entry id)).Typed (table.Bound id) (free' id)) :
    (table.modifyEntry id change).Typed free' where
  bound_lt other hbound := by
    rw [size_modifyEntry]
    exact h.bound_lt other hbound
  entry other := by
    rw [entry_modifyEntry]
    split
    · next hsame =>
        rw [hsame.1]
        exact hchanged
    · next hother =>
        refine ⟨(h.entry other).value, fun hkind htype => ?_⟩
        refine (hfree other ((h.entry other).function hkind htype)).resolve_right fun hsame => hother ⟨hsame, ?_⟩
        rw [← hsame]
        exact lt_of_kind hkind (by simp)

theorem addLine (h : table.Typed free) (id : EntryId) (line : Nat) :
    (table.modifyEntry id (·.addLine line)).Typed free :=
  h.of_sameTypes (.addLine table id line)

end Typed

end SymbolTable

/-! ## Sessions -/

namespace Session

/-- Whether, if no error has been reported, something is known and the table is typed. -/
def Typed (free : EntryId → Prop) (known : Prop) (session : Session) : Prop :=
  session.diagnostics = [] → known ∧ session.table.Typed free

/-- Whether a session that was typed still is.  Where nothing can be known, this says that the errors that
have been reported stay. -/
def Types (free : EntryId → Prop) (known : Prop) (session later : Session) : Prop :=
  session.Typed free known → later.Typed free known

/-- Whether the entries stay the same, as far as types are concerned, and no error is reported. -/
def SameTypes (session later : Session) : Prop :=
  later.diagnostics = session.diagnostics ∧ session.table.SameTypes later.table

variable {free free' : EntryId → Prop} {known known' : Prop} {session later : Session}

instance : Std.Refl (Types free known) := ⟨fun _ h => h⟩

instance : IsTrans Session (Types free known) := ⟨fun _ _ _ h h' hsession => h' (h hsession)⟩

instance : Std.Refl SameTypes := ⟨fun session => ⟨rfl, .refl session.table⟩⟩

instance : IsTrans Session SameTypes := ⟨fun _ _ _ h h' => ⟨h'.1.trans h.1, h.2.trans h'.2⟩⟩

namespace Typed

theorem imp (h : session.Typed free known) (himp : known → known') : session.Typed free known' :=
  fun hclean => (h hclean).imp_left himp

/-- Where an error has been reported nothing is claimed. -/
theorem of_error (h : session.diagnostics ≠ []) : session.Typed free known :=
  fun hclean => absurd hclean h

theorem reads (h : session.Typed free known) (hreads : session.Reads later) : later.Typed free known := by
  cases hreads with
  | intro cursor added hcursor hadded => exact fun hclean => h (List.append_eq_nil_iff.mp hclean).1

theorem change {table : SymbolTable} (h : session.Typed free known)
    (hchange : known → session.table.Typed free → table.Typed free') :
    Typed free' known { session with table } :=
  fun hclean => ⟨(h hclean).1, hchange (h hclean).1 (h hclean).2⟩

end Typed

theorem SameTypes.types (h : session.SameTypes later) : session.Types free known later := by
  intro htyped hclean
  obtain ⟨hknown, htable⟩ := htyped (h.1.symm.trans hclean)
  exact ⟨hknown, htable.of_sameTypes h.2⟩

end Session

namespace Production

open Session

variable {α β : Type} {free : EntryId → Prop} {known : Prop} {session : Session}

/-! ## Productions -/

theorem Relates.types {production : Production α} (h : Relates Reads production) :
    Relates (Types free known) production :=
  h.mono fun _ _ hreads htyped => htyped.reads hreads

theorem Relates.types_of_sameTypes {production : Production α} (h : Relates SameTypes production) :
    Relates (Types free known) production :=
  h.mono fun _ _ hsame => hsame.types

/-- What a production keeps typed stays so. -/
theorem Relates.typed {production : Production α} (h : Relates (Types free known) production)
    (hsession : session.Typed free known) :
    Leads production session (fun _ => True) fun _ later => later.Typed free known :=
  (h.leads session).imp fun _ _ htypes => htypes hsession

/-- What one production finds out is known to the next. -/
theorem Relates.types_bind {production : Production α} {next : α → Production β} {finds : α → Prop}
    (h : ∀ session, session.Typed free known → Leads production session (fun _ => True)
      fun answer later => later.Typed free (known ∧ finds answer))
    (hnext : ∀ answer, Relates (Types free (known ∧ finds answer)) (next answer)) :
    Relates (Types free known) (production >>= next) := by
  refine ⟨fun session => leads_of_imp fun hsession => ?_⟩
  refine (h session hsession).bind fun answer between hbetween => ?_
  exact ((hnext answer).typed hbetween).imp fun _ _ hlater => hlater.imp And.left

theorem types_flagAt (token : Token) (kind : ErrorKind) : Relates (Types free known) (flagAt token kind) := by
  refine ⟨fun session => (leads_flagAt token kind).mpr fun _ => ?_⟩
  exact .of_error (by simp)

theorem types_ensure (holds : Bool) (token : Token) (kind : ErrorKind) :
    Relates (Types free known) (ensure holds token kind) := by
  cases holds with
  | true => exact .pure ()
  | false => exact types_flagAt token kind

/-! ## Types -/

/-- A name for a type has a type. -/
theorem typed_namedType (h : session.Typed free known) :
    Leads namedType session (fun _ => True) fun found later =>
      later.Typed free (known ∧ found ≠ some .undefined) ∧ (found = none → later = session) := by
  unfold namedType
  rw [leads_bind, leads_current, leads_bind, typeNamed, leads_bind, leads_table, leads_pure]
  split
  · exact ⟨h.imp fun hknown => ⟨hknown, by simp⟩, fun _ => rfl⟩
  · next id hfound =>
      have hkind : (session.table.entry id).kind = .type := by
        simpa using (Option.filter_eq_some_iff.mp hfound).2
      let line := session.cursor.current.line
      let named := session.table.modifyEntry id (·.addLine line)
      have hnamed : Session.Typed free (known ∧ some (named.entry id).resolvedType ≠ some .undefined)
          { session with table := named } := by
        intro hclean
        obtain ⟨hknown, htable⟩ := h hclean
        have hsame := SymbolTable.SameTypes.addLine session.table id line
        refine ⟨⟨hknown, fun hundefined => ?_⟩, htable.of_sameTypes hsame⟩
        refine (htable.entry id).value (by simp [hkind, DefinitionKind.typed]) (by simp [hkind]) ?_
        exact (hsame.type id).symm.trans (Option.some.inj hundefined)
      rw [leads_bind, leads_changeEntry, leads_bind, leads_entry, leads_bind]
      exact (reads_nextToken.types.typed hnamed).imp
        fun _ _ hlater => ⟨hlater, by simp⟩

/-- A type is found, or an error is reported, or nothing is consumed. -/
theorem typed_typeSpecifier (h : session.Typed free known) :
    Leads typeSpecifier session (fun _ => True) fun found later =>
      later.Typed free (known ∧ found ≠ some .undefined) ∧ (found = none → later = session) := by
  unfold typeSpecifier
  rw [leads_bind, leads_currentKind]
  split
  case h_7 | h_8 =>
    refine ((reads_nextToken.types.typed h).bind fun name read hread => ?_)
    split
    · refine ((reads_nextToken.types.typed hread).bind fun _ later hlater => ?_)
      exact ⟨hlater.imp fun hknown => ⟨hknown, by simp⟩, by simp⟩
    · rw [leads_bind, flag, leads_bind, leads_current, leads_flagAt]
      exact ⟨.of_error (by simp), by simp⟩
  case h_9 => exact ⟨h.imp fun hknown => ⟨hknown, by simp⟩, fun _ => rfl⟩
  all_goals exact typed_namedType h

theorem typed_requiredType (h : session.Typed free known) :
    Leads requiredType session (fun _ => True) fun type later =>
      later.Typed free (known ∧ type ≠ .undefined) := by
  refine (typed_typeSpecifier h).bind fun found later hlater => ?_
  cases found with
  | some type => exact hlater.1.imp fun hknown => ⟨hknown.1, fun htype => hknown.2 (congrArg some htype)⟩
  | none =>
      rw [flag, leads_bind, leads_bind, leads_current, leads_flagAt]
      exact .of_error (by simp)

/-! ## Declarations -/

theorem types_declare (name : Token) (definition : Definition) {type : DataType}
    (htype : known → type ≠ .undefined) : Relates (Types free known) (declare name definition type) := by
  refine ⟨fun session => ?_⟩
  unfold declare
  cases hlocal : session.table.lookupLocal name.text with
  | some taken =>
      simp only [enterLocal, SymbolTable.enterLocal, hlocal, leads_bind, leads_onTable, leads_flagAt]
      exact fun _ => .of_error (by simp)
  | none =>
      simp only [enterLocal, SymbolTable.enterLocal, hlocal, leads_bind, leads_onTable, leads_changeEntry]
      refine fun h => h.change fun hknown htable => ?_
      have hbound := htable.bindNew (Text.lower name.text)
      refine .addLine (hbound.modifyEntry (fun _ => .inl) ?_) _ _
      exact .of_type (htype hknown)

theorem types_declareStorage (name : Token) (kind : DefinitionKind) {type : DataType}
    (htype : known → type ≠ .undefined) :
    Relates (Types free known) (declareStorage name kind type) := by
  refine ⟨fun session => ?_⟩
  unfold declareStorage
  cases hlocal : session.table.lookupLocal name.text with
  | some taken =>
      simp only [enterLocal, SymbolTable.enterLocal, hlocal, leads_bind, leads_onTable, leads_flagAt,
        leads_pure]
      exact fun _ => .of_error (by simp)
  | none =>
      simp only [enterLocal, SymbolTable.enterLocal, hlocal, leads_bind, leads_onTable,
        leads_changeEntry, leads_pure]
      refine fun h => h.change fun hknown htable => ?_
      have hstored := (htable.bindNew (Text.lower name.text)).of_sameTypes (.takeSlot _)
      refine .addLine (hstored.modifyEntry (fun _ => .inl) ?_) _ _
      exact .of_type (htype hknown)

theorem types_variableNames (typeToken : Token) {type : DataType} (htype : known → type ≠ .undefined) :
    Relates (Types free known) (variableNames typeToken type) := by
  have hname : Relates (Types free known) (variableName type) := by
    refine (Relates.read _).bind fun name => .ite ((reads_flag rfl).types.bind fun _ => .pure _) ?_
    refine (types_declareStorage name _ htype).bind fun _ => reads_nextToken.types.bind fun _ => ?_
    refine (reads_matchToken _).types.bind fun _ => .ite (.pure _) ?_
    exact (Relates.read _).bind fun _ => .ite ((reads_flag rfl).types.bind fun _ => .pure _) (.pure _)
  refine (Relates.read _).bind fun isName => (types_ensure _ typeToken _).bind fun _ => ?_
  exact (Relates.loop (fun _ => hname) ()).bind fun _ => (reads_expect _ rfl).types

theorem types_variableDeclaration : Relates (Types free known) variableDeclaration :=
  (Relates.read _).bind fun typeToken =>
    .types_bind (fun _ => typed_requiredType) fun _ => types_variableNames typeToken And.right

/-- A constant has the type that is given, or else that of its value. -/
theorem types_constants : Relates (Types free known) constants := by
  have hdefinition (declared : Option DataType) {known : Prop} (htype : known → declared ≠ some .undefined) :
      Relates (Types free known) (constantDefinition declared) := by
    refine (Relates.read _).bind fun name => .ite ((reads_flag rfl).types.bind fun _ => .pure _) ?_
    refine reads_nextToken.types.bind fun _ => (reads_expect _ rfl).types.bind fun _ => ?_
    refine (Relates.read _).bind fun valueToken => reads_constantValue.types.bind fun value => ?_
    refine (Relates.forM (fun value => (types_ensure _ valueToken _).bind fun _ => ?_) value).bind fun _ =>
      (reads_matchToken _).types.bind fun _ => .ite (.pure _) (.pure _)
    refine types_declare name _ fun hknown hundefined => ?_
    cases declared with
    | some type => exact htype hknown (congrArg some hundefined)
    | none => cases value <;> simp [constantType] at hundefined
  have htype {session : Session} (h : session.Typed free known) :
      Leads constantsType session (fun _ => True) fun declared later =>
        later.Typed free (known ∧ declared ≠ some .undefined) := by
    refine (reads_startsVariables.types.typed h).bind fun starts read hread => ?_
    split
    · exact (typed_typeSpecifier hread).imp fun _ _ hlater => hlater.1
    · exact hread.imp fun hknown => ⟨hknown, nofun⟩
  refine .types_bind (fun _ => htype) fun declared => ?_
  exact (Relates.loop (fun _ => hdefinition declared And.right) ()).bind fun _ => (reads_expect _ rfl).types

theorem typed_arraySuffix {type : DataType} (h : session.Typed free known) (htype : known → type ≠ .undefined) :
    Leads (arraySuffix type) session (fun _ => True) fun type later =>
      later.Typed free (known ∧ type ≠ .undefined) := by
  refine ((reads_matchToken _).types.typed h).bind fun bracket read hread => ?_
  split
  · unfold arrayOf
    cases type.scalar? with
    | none =>
        rw [flag, leads_bind, leads_bind, leads_current, leads_flagAt]
        exact .of_error (by simp)
    | some element =>
        refine (reads_arrayCount.types.typed hread).bind fun count counted hcounted => ?_
        refine ((reads_expect _ rfl).types.typed hcounted).bind fun _ later hlater => ?_
        exact hlater.imp fun hknown => ⟨hknown, by simp⟩
  · exact hread.imp fun hknown => ⟨hknown, htype hknown⟩

theorem types_typeDefinition : Relates (Types free known) typeDefinition := by
  refine .types_bind (fun _ => typed_requiredType) fun type => ?_
  have hname : Relates (Types free (known ∧ type ≠ .undefined)) (typeName type) := by
    refine (Relates.read _).bind fun name => .ite (reads_nextToken.types.bind fun _ => ?_) (reads_flag rfl).types
    exact .types_bind (fun _ h => typed_arraySuffix h And.right) fun _ => types_declare name _ And.right
  exact hname.bind fun _ => (reads_expect _ rfl).types

/-! ## Expressions, statements and parameters -/

/-- A name without a meaning is reported. -/
theorem types_identifierEntry (name : Token) : Relates (Types free known) (identifierEntry name) := by
  refine ⟨fun session => ?_⟩
  unfold identifierEntry
  cases hlookup : session.table.lookup name.text with
  | some id =>
      have hentry : Relates (Types free known) (do
          ensure ((← entry id).kind != .undefined) name .identifierUndefined
          return id) :=
        (Relates.read _).bind fun _ => (types_ensure _ name _).bind fun _ => .pure id
      rw [leads_bind, leads_lookup, hlookup]
      exact hentry.leads session
  | none =>
      have hlocal := SymbolTable.lookupLocal_of_lookup_none hlookup
      simp only [leads_bind, leads_lookup, hlookup, leads_flagAt, enterOrDetach,
        SymbolTable.enterLocal, hlocal, leads_onTable, leads_changeEntry, leads_pure]
      exact fun _ => .of_error (by simp)

theorem spansExpressions_types : SpansExpressions (Types free known) := by
  have hline (id : EntryId) (line : Nat) : Relates (Types free known) (changeEntry id (·.addLine line)) :=
    ⟨fun _ h => h.change fun _ htable => htable.addLine id line⟩
  exact .of_reads (fun _ _ hreads htyped => htyped.reads hreads) (.resolveIdentifier types_identifierEntry hline) hline

theorem spansStatements_types (routine : EntryId) : SpansStatements routine (Types free known) where
  toSpansExpressions := spansExpressions_types
  storage := types_variableDeclaration
  constants := types_constants
  target type _ h := h.change fun _ htable => htable.createDetached _ type (.inl rfl)
  braces hnested session _ := (hnested.compoundOf fun _ _ hreads htyped => htyped.reads hreads).leads session

/-- A parameter has a type, since where none is found the word that should name it stands in the place of the
name. -/
theorem typed_typedParameter (h : session.Typed free known)
    (hword : session.cursor.current.kind ≠ .identifier) :
    Leads typedParameter session (fun _ => True) fun _ later => later.Typed free known := by
  refine (typed_typeSpecifier h).bind fun found read ⟨hread, hnone⟩ => ?_
  rw [leads_bind, leads_current]
  split
  · next hname =>
      have htype : known ∧ found ≠ some .undefined → found.getD .undefined ≠ .undefined := by
        rintro ⟨-, hfound⟩ hundefined
        cases found with
        | none =>
            rw [hnone rfl] at hname
            exact hword (beq_iff_eq.mp hname)
        | some type => exact hfound (congrArg some hundefined)
      refine ((types_declareStorage _ .valueParameter htype).typed hread).bind fun id made hmade => ?_
      refine (reads_nextToken.types.typed hmade).bind fun _ later hlater => ?_
      exact hlater.imp And.left
  · rw [flag, leads_bind, leads_bind, leads_current, leads_flagAt]
    exact .of_error (by simp)

theorem types_parameterEntry : Relates (Types free known) parameterEntry := by
  refine ⟨fun session => leads_of_imp fun h => ?_⟩
  unfold parameterEntry
  rw [leads_bind, leads_currentKind]
  split
  case h_4 =>
    refine (reads_untypedParameter.types.typed h).bind fun _ later hlater => ?_
    exact hlater
  all_goals
    next hword => exact typed_typedParameter h (by simp [hword])

theorem types_enclosedParameters : Relates (Types free known) enclosedParameters :=
  spansExpressions_types.enclosedParameters types_parameterEntry

end Production

end FrontEnd
