import FrontEnd.Proofs.ScopeDiscipline

/-!
# Entries that are kept

An entry that stands for no routine keeps its name, its scope, its definition with the slot or the value, and its
type; only its lines grow.  This is so whatever production of the grammar runs, and from any session on, if the
entry is there when the production begins (`Grammatical.conserves`).  A header is the only exception: it gives the
function that it belongs to a type, whatever its entry is.

## Strategy

What is done inside a scope makes entries and changes none but those that it has made, which is known from its
moves.  So what is left are the productions around routines.  They change one entry, that of their routine, and
this has been made by the production or has been that of a routine before (`Session.Names.conserves`).
-/

namespace FrontEnd

/-! ## Entries and tables -/

/-- Whether an entry is what it was, but for lines that have been added. -/
structure Entry.Keeps (earlier later : Entry) : Prop extends earlier.Agrees later where
  lines : earlier.lines <+: later.lines

namespace Entry.Keeps

variable {first second third : Entry}

@[refl] theorem refl (entry : Entry) : entry.Keeps entry :=
  ⟨.refl entry, List.prefix_refl _⟩

theorem trans (h : first.Keeps second) (h' : second.Keeps third) : first.Keeps third :=
  ⟨h.toAgrees.trans h'.toAgrees, h.lines.trans h'.lines⟩

theorem addLine (entry : Entry) (line : Nat) : entry.Keeps (entry.addLine line) where
  toAgrees := entry.agrees_addLine line
  lines := by
    unfold Entry.addLine
    split
    · exact List.prefix_refl _
    · exact List.prefix_append _ _

/-- What is known about routines is of no concern to an entry that stands for none. -/
theorem mapRoutine {entry : Entry} {change : Routine → Routine} (hplain : entry.routine? = none) :
    entry.Keeps (entry.mapRoutine change) :=
  ⟨Entry.agrees_mapRoutine hplain, List.prefix_refl _⟩

end Entry.Keeps

theorem Entry.routine?_eq_none_of_kind {entry : Entry} (h : entry.kind.isRoutine = false) :
    entry.routine? = none := by
  unfold kind at h
  unfold routine?
  cases hdefinition : entry.definition <;> simp_all [Definition.kind, DefinitionKind.isRoutine, Definition.routine?]

theorem Entry.routine?_ne_none_of_kind {entry : Entry} (h : entry.kind.isRoutine = true) : entry.routine? ≠ none := by
  unfold kind at h
  unfold routine?
  cases hdefinition : entry.definition <;> simp_all [Definition.kind, DefinitionKind.isRoutine, Definition.routine?]

/-- Whether every entry that stands for no routine has been kept, except for one that may have `changed`. -/
structure SymbolTable.Conserves (changed : Option EntryId) (earlier later : SymbolTable) : Prop where
  size_le : earlier.entries.size ≤ later.entries.size
  keeps : ∀ id < earlier.entries.size, changed ≠ some id → (earlier.entry id).routine? = none →
    (earlier.entry id).Keeps (later.entry id)

namespace SymbolTable.Conserves

variable {first second third table : SymbolTable} {changed : Option EntryId} {id : EntryId}

theorem of_entries (h : second.entries = first.entries) : first.Conserves changed second where
  size_le := Nat.le_of_eq (congrArg Array.size h.symm)
  keeps id _ _ _ := by
    rw [show second.entry id = first.entry id by rw [entry, entry, h]]

@[refl] theorem refl (table : SymbolTable) : table.Conserves changed table :=
  .of_entries rfl

theorem trans (h : first.Conserves changed second) (h' : second.Conserves changed third) :
    first.Conserves changed third where
  size_le := Nat.le_trans h.size_le h'.size_le
  keeps id hid hother hplain := by
    have hfirst := h.keeps id hid hother hplain
    have hplain' : (second.entry id).routine? = none := by rw [hfirst.routine?, hplain]
    exact hfirst.trans (h'.keeps id (Nat.lt_of_lt_of_le hid h.size_le) hother hplain')

/-- What has changed was not there before, or has been a routine. -/
theorem settle (h : first.Conserves (some id) second)
    (hid : id < first.entries.size → (first.entry id).routine? ≠ none) : first.Conserves changed second where
  size_le := h.size_le
  keeps other hother _ hplain := by
    refine h.keeps other hother (fun hsame => ?_) hplain
    obtain rfl : id = other := Option.some.inj hsame
    exact hid hother hplain

/-- A single entry is changed, and is kept, may be changed or stands for a routine. -/
theorem modifyEntry {change : Entry → Entry}
    (h : changed ≠ some id → (table.entry id).routine? = none → (table.entry id).Keeps (change (table.entry id))) :
    table.Conserves changed (table.modifyEntry id change) where
  size_le := by simp
  keeps other _ hother hplain := by
    by_cases hsame : other = id ∧ id < table.entries.size
    · obtain ⟨rfl, hlt⟩ := hsame
      rw [entry_modifyEntry_self hlt]
      exact h hother hplain
    · rw [entry_modifyEntry, if_neg hsame]

theorem modifyChanged (id : EntryId) (change : Entry → Entry) :
    table.Conserves (some id) (table.modifyEntry id change) :=
  .modifyEntry fun hother => absurd rfl hother

theorem modifyRoutine (id : EntryId) (change : Routine → Routine) :
    table.Conserves changed (table.modifyRoutine id change) :=
  .modifyEntry fun _ hplain => .mapRoutine hplain

theorem marked (id : EntryId) (kind : DefinitionKind) (forwarded : Bool) :
    table.Conserves (some id) (table.marked id kind forwarded) := by
  unfold SymbolTable.marked
  split
  · exact (modifyChanged id _).trans (modifyChanged id _)
  · exact modifyChanged id _

/-- Entries are added, and the others are left as they are. -/
theorem of_new (hsize : first.entries.size ≤ second.entries.size)
    (hsame : ∀ id < first.entries.size, second.entry id = first.entry id) : first.Conserves changed second :=
  ⟨hsize, fun id hid _ _ => by rw [hsame id hid]⟩

theorem bindNew (key : String) : table.Conserves changed (table.bindNew key) :=
  .of_new (by simp) fun id hid => by rw [entry_bindNew, if_neg (Nat.ne_of_lt hid)]

theorem createDetached (name : String) (definition : Definition) (type : DataType) :
    table.Conserves changed (table.createDetached name definition type).2 :=
  .of_new (by simp) fun id hid => by rw [entry_createDetached, if_neg (Nat.ne_of_lt hid)]

theorem enterInvented (name : String) : table.Conserves changed (table.enterInvented name) := by
  unfold SymbolTable.enterInvented
  split
  · exact .bindNew _
  · exact .createDetached _ _ _

/-- An entry that the earlier table does not have yet can be changed in every way. -/
theorem modifyNew (h : first.Conserves changed second) (hid : first.entries.size ≤ id)
    (change : Entry → Entry) : first.Conserves changed (second.modifyEntry id change) where
  size_le := by simpa using h.size_le
  keeps other hother hunchanged hplain := by
    rw [entry_modifyEntry_ne (Nat.ne_of_lt (Nat.lt_of_lt_of_le hother hid))]
    exact h.keeps other hother hunchanged hplain

theorem takeSlot : table.Conserves changed table.takeSlot.2 :=
  .of_entries rfl

theorem push : table.Conserves changed table.push.2 :=
  .of_entries rfl

theorem pop : table.Conserves changed table.pop.2 :=
  .of_entries (by simp)

/-- What extends a table keeps what it has. -/
theorem of_extends {stores : List DefinitionKind} {owner : EntryId} (h : first.Extends stores owner second) :
    first.Conserves changed second := by
  cases h with
  | mention id line => exact .modifyEntry fun _ _ => .addLine _ line
  | declare name definition type => exact (bindNew _).modifyNew (Nat.le_refl _) _
  | store name kind type => exact ((bindNew _).trans takeSlot).modifyNew (Nat.le_refl _) _
  | target type => exact .createDetached _ _ _

/-- The predefined types are new, or are names that the scope has. -/
theorem enterPredefinedTypes (table : SymbolTable) : table.Conserves changed table.enterPredefinedTypes := by
  have hone (table : SymbolTable) (scalar : Scalar) : table.Conserves changed (table.enterPredefined scalar) := by
    unfold SymbolTable.enterPredefined SymbolTable.enterLocal
    cases table.lookupLocal scalar.name with
    | some taken => exact .refl table
    | none => exact (bindNew _).modifyNew (Nat.le_refl _) _
  have hall (scalars : List Scalar) (table : SymbolTable) :
      table.Conserves changed (scalars.foldl SymbolTable.enterPredefined table) := by
    induction scalars generalizing table with
    | nil => exact .refl table
    | cons scalar rest ih => exact (hone table scalar).trans (ih _)
  exact hall _ table

end SymbolTable.Conserves

/-! ## Sessions -/

namespace Session

/-- Whether every entry that stands for no routine has been kept, except for one that may have `changed`. -/
abbrev Conserves (changed : Option EntryId) (session later : Session) : Prop :=
  session.table.Conserves changed later.table

variable {session later : Session} {changed : Option EntryId}

instance : Std.Refl (Conserves changed) := ⟨fun session => .refl session.table⟩

instance : IsTrans Session (Conserves changed) := ⟨fun _ _ _ => .trans⟩

theorem Reads.conserves (h : session.Reads later) : session.Conserves changed later :=
  .of_entries (congrArg SymbolTable.entries h.table_eq)

theorem Move.conserves {stores : List DefinitionKind} {owner : EntryId} (h : session.Move stores owner later) :
    session.Conserves changed later := by
  rcases h.extends with hsame | hextends
  · exact .of_entries (congrArg SymbolTable.entries hsame)
  · exact .of_extends hextends

theorem Moves.conserves {stores : List DefinitionKind} {owner : EntryId} (h : session.Moves stores owner later) :
    session.Conserves changed later := by
  induction h with
  | refl => exact refl session
  | tail _ hmove ih => exact ih.trans hmove.conserves

/-- The entry of a routine that has been named is a new one, or has been that of a routine. -/
theorem Names.conserves {invented : String} {id : EntryId} {forwarded : Bool}
    (h : session.Names invented (id, forwarded) later) :
    session.Conserves changed later ∧
      (id < session.table.entries.size → (session.table.entry id).routine? ≠ none) := by
  cases h with
  | reused hkind hlocal hforward hreads =>
      refine ⟨?_, fun _ hnone => by simp [hnone] at hforward⟩
      rw [Conserves, hreads.table_eq]
      exact .modifyEntry fun _ _ => .addLine _ _
  | entered hkind hfree hreads =>
      refine ⟨?_, fun hlt => absurd hlt (Nat.lt_irrefl _)⟩
      rw [Conserves, hreads.table_eq]
      exact (SymbolTable.Conserves.bindNew _).modifyNew (Nat.le_refl _) _
  | taken | missing => exact ⟨.enterInvented invented, fun hlt => absurd hlt (Nat.lt_irrefl _)⟩

/-- A routine that has been named is marked. -/
theorem Names.conserves_marked {invented : String} {id : EntryId} {forwarded : Bool}
    (h : session.Names invented (id, forwarded) later) (kind : DefinitionKind) :
    session.Conserves changed { later with table := later.table.marked id kind forwarded } := by
  obtain ⟨hnamed, hid⟩ : session.Conserves (some id) later ∧ _ := h.conserves
  exact (hnamed.trans (.marked id kind forwarded)).settle hid

end Session

/-! ## Productions -/

namespace Production

open Session

variable {α : Type} {changed : Option EntryId}

theorem Relates.conserves {stores : List DefinitionKind} {owner : EntryId} {production : Production α}
    (h : Stays stores owner production) : Relates (Conserves changed) production :=
  h.mono fun _ _ hmoves => hmoves.conserves

theorem Relates.conserves_of_reads {production : Production α} (h : Relates Reads production) :
    Relates (Conserves changed) production :=
  h.mono fun _ _ hreads => hreads.conserves

theorem conserves_changeTable {change : SymbolTable → SymbolTable}
    (h : ∀ table : SymbolTable, table.Conserves changed (change table)) :
    Relates (Conserves changed) (changeTable change) :=
  ⟨fun session => h session.table⟩

theorem conserves_onTable {change : SymbolTable → α × SymbolTable}
    (h : ∀ table : SymbolTable, table.Conserves changed (change table).2) :
    Relates (Conserves changed) (onTable change) :=
  ⟨fun session => h session.table⟩

theorem conserves_changeRoutine (id : EntryId) (change : Routine → Routine) :
    Relates (Conserves changed) (changeRoutine id change) :=
  conserves_changeTable fun _ => .modifyRoutine id change

theorem conserves_changeEntry (id : EntryId) (change : Entry → Entry) :
    Relates (Conserves (some id)) (changeEntry id change) :=
  conserves_changeTable fun _ => .modifyChanged id change

theorem conserves_ensure (holds : Bool) (token : Token) (kind : ErrorKind) :
    Relates (Conserves changed) (ensure holds token kind) := by
  cases holds with
  | true => exact .pure ()
  | false => exact ⟨fun _ => .of_entries rfl⟩

theorem spansExpressions_conserves : SpansExpressions (Conserves changed) :=
  .of_reads (fun _ _ hreads => hreads.conserves)
    (Relates.conserves (@stays_resolveIdentifier [] SymbolTable.programId))
    fun _ line => conserves_changeTable fun _ => .modifyEntry fun _ _ => .addLine _ line

theorem spansStatements_conserves (routine : EntryId) : SpansStatements routine (Conserves changed) where
  toSpansExpressions := spansExpressions_conserves
  storage := Relates.conserves (@stays_variableDeclaration routine)
  constants := Relates.conserves (@stays_constants [] routine)
  target _ _ := .createDetached _ _ _
  braces hnested session _ := (hnested.compoundOf fun _ _ hreads => hreads.conserves).leads session

/-! ## Routines -/

theorem conserves_routineKind : Relates (Conserves changed) routineKind := by
  have hinvent (stem : String) : Relates (Conserves changed) (inventName stem) := ⟨fun _ => .of_entries rfl⟩
  refine (Relates.read _).bind fun kind => ?_
  split
  · exact reads_nextToken.conserves_of_reads.bind fun _ => (hinvent _).bind fun _ => .pure _
  · exact (hinvent _).bind fun _ => .pure _
  · exact .pure _

theorem conserves_routineName (invented : String) : Relates (Conserves changed) (routineName invented) :=
  ⟨fun session => (names_routineName invented session).imp fun _ _ hnames =>
    hnames.conserves.1⟩

theorem conserves_header (id : EntryId) (kind : DefinitionKind) (type : Option DataType) :
    Relates (Conserves (some id)) (header id kind type) :=
  spansExpressions_conserves.header (conserves_changeRoutine id) (fun _ => conserves_changeEntry id _)
    (Relates.conserves (@stays_typedParameter id)) kind type

/-- After its name, a routine changes no entry but its own. -/
theorem conserves_named (parent id : EntryId) (kind : DefinitionKind) (forwarded : Bool) (type : Option DataType) :
    Relates (Conserves (some id)) (do
      markRoutine id kind forwarded
      openRoutine parent id kind forwarded
      let token ← current
      ensure (!forwarded || token.kind == .semicolon) token .alreadyForwarded
      header id kind type
      bodyOrForward id
      let _ ← onTable (·.pop)) := by
  refine (Relates.markRoutine (conserves_changeEntry id) kind forwarded).bind fun _ => ?_
  have hopen : Relates (Conserves (some id)) (openRoutine parent id kind forwarded) :=
    .openRoutine conserves_changeRoutine (conserves_onTable fun _ => .push) (conserves_onTable fun _ => .takeSlot)
      parent id kind forwarded
  refine hopen.bind fun _ => (Relates.read _).bind fun token => ?_
  refine (conserves_ensure _ token _).bind fun _ => (conserves_header id kind type).bind fun _ => ?_
  have hbody : Relates (Conserves (some id)) (bodyOrForward id) :=
    (spansStatements_conserves id).bodyOrForward (conserves_changeRoutine id)
  exact hbody.bind fun _ => (conserves_onTable fun _ => .pop).bind fun _ => .pure _

theorem conserves_routine (parent : EntryId) (type : Option DataType) :
    Relates (Conserves changed) (routine parent type) := by
  refine conserves_routineKind.bind fun ⟨kind, invented⟩ => ⟨fun started => ?_⟩
  -- the routine has its entry from here on, and no other entry is changed
  refine (names_routineName invented started).bind ?_
  rintro ⟨id, forwarded⟩ named hnames
  obtain ⟨hnamed, hid⟩ := hnames.conserves
  refine ((conserves_named parent id kind forwarded type).leads named).imp ?_
  intro _ later hlater
  exact (hnamed.trans hlater).settle hid

/-! ## Units -/

theorem spansItems_conserves (program : EntryId) : SpansItems program (Conserves changed) where
  toSpansStatements := spansStatements_conserves program
  global type := Relates.conserves (@stays_variableName program type)
  types := Relates.conserves (@stays_typeDefinition [] program)
  routine := conserves_routine program
  append := conserves_changeRoutine program

/-- The entry of the program is the only one that a unit changes, and it is new. -/
theorem conserves_unit : Relates (Conserves changed) unit := by
  refine (conserves_changeTable fun _ => .enterPredefinedTypes _).bind fun _ => ⟨fun session => ?_⟩
  rw [leads_bind, leads_enterOrDetach]
  have hrest (program : EntryId) : Relates (Conserves (some program)) (do
      changeTable fun table => { table with program := some program }
      let scope ← onTable (·.push)
      changeEntry program fun entry => { entry with definition := .program { scope := some scope } }
      loop (fun _ => nextItem program) ()
      let _ ← onTable (·.pop)
      return program) := by
    have hprogram : Relates (Conserves (some program))
        (changeTable fun table => { table with program := some program }) :=
      conserves_changeTable fun _ => .of_entries rfl
    refine hprogram.bind fun _ => ?_
    refine (conserves_onTable fun _ => .push).bind fun scope => (conserves_changeEntry program _).bind fun _ => ?_
    have hitem : Relates (Conserves (some program)) (nextItem program) :=
      (spansItems_conserves program).nextItem fun _ _ hreads => hreads.conserves
    exact (Relates.loop (fun _ => hitem) ()).bind fun _ => (conserves_onTable fun _ => .pop).bind fun _ => .pure _
  refine ((hrest _).leads _).imp fun _ later hlater => ?_
  have hentered : session.table.Conserves (some session.table.entries.size) _ := .enterInvented programName
  exact (hentered.trans hlater).settle fun hlt => absurd hlt (Nat.lt_irrefl _)

/-! ## The grammar -/

theorem spansGrammar_conserves : SpansGrammar (Conserves none) where
  moves _ _ hmoves := hmoves.conserves
  change := conserves_changeRoutine
  name := conserves_routineName
  items := spansItems_conserves
  unit := conserves_unit

/-- Whatever a production of the grammar does, it changes no entry that stands for no routine; if it is a header, then
none but that which it belongs to. -/
theorem Grammatical.conserves {production : Production α} (h : Grammatical production) {session later : Session}
    {answer : α} (hrun : production session = .ok (answer, later)) {id : EntryId}
    (hid : id < session.table.entries.size) (hretypes : ¬ Retypes id production)
    (hplain : (session.table.entry id).routine? = none) :
    id < later.table.entries.size ∧ (session.table.entry id).Keeps (later.table.entry id) := by
  rcases spansGrammar_conserves.relates h with hconserves | ⟨other, hheader⟩
  · have hkept := hconserves.of_run hrun
    exact ⟨Nat.lt_of_lt_of_le hid hkept.size_le, hkept.keeps id hid (by simp) hplain⟩
  · cases hheader with
    | header kind type =>
        have hkept := (conserves_header other kind type).of_run hrun
        refine ⟨Nat.lt_of_lt_of_le hid hkept.size_le, hkept.keeps id hid (fun hsame => ?_) hplain⟩
        obtain rfl : other = id := Option.some.inj hsame
        exact hretypes (.header kind type)

end Production

end FrontEnd
