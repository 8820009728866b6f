import FrontEnd.Proofs.Call
import FrontEnd.Proofs.Turns
import FrontEnd.Proofs.Typed

/-!
# Functions without a type

In a program without errors a function has the undefined type only if its header gives none, that is, if
the item that it begins begins with its name (`Session.FacesName`).

While a header is read its function is free to have no type yet; then it gets the type that has been read
before the header, which is defined, or the undefined one if there is none (`typed_header`).  A header that
repeats a declaration would replace its type, but it is always reported.
-/

namespace FrontEnd

open Production

namespace Session

/-- Whether the current token is a name that stands for no type. -/
def NamesNoType (session : Session) : Prop :=
  session.cursor.current.kind = .identifier ∧
    beginsVariables session.table session.cursor.current = false

/-- Whether the item that comes next begins with a name that stands for no type. -/
def FacesName (session : Session) : Prop :=
  ∃ token begun, synchronize itemStart session = .ok (token, begun) ∧ begun.NamesNoType

end Session

/-- Whether an entry is the first that is made for an item which begins with a name that stands for no type.
If it is that of a function, its header gives no type. -/
def TokenStream.Untyped (stream : TokenStream) (id : EntryId) : Prop :=
  ∃ session turn later, session.Reached stream ∧
    nextItem SymbolTable.programId session = .ok (turn, later) ∧ session.FacesName ∧
      id = session.table.entries.size ∧ id < later.table.entries.size

/-- Whether a function may have no type after the item that comes next: it had none before, or it is the first
entry that is made for the item. -/
def Session.LeavesUntyped (session : Session) (stream : TokenStream) (id : EntryId) : Prop :=
  stream.Untyped id ∨ session.FacesName ∧ id = session.table.entries.size

namespace SymbolTable.Typed

variable {free : EntryId → Prop} {table : SymbolTable} {id : EntryId}

/-- Only functions are ever free, so what is none is not. -/
theorem settled (h : table.Typed fun other => free other ∨ other = id)
    (hkind : (table.entry id).kind ≠ .function) : table.Typed free where
  bound_lt := h.bound_lt
  entry other := by
    refine ⟨(h.entry other).value, fun hfunction htype => ?_⟩
    refine ((h.entry other).function hfunction htype).resolve_right fun hsame => hkind ?_
    rwa [← hsame]

theorem enterInvented (h : table.Typed free) (name : String) : (table.enterInvented name).Typed free := by
  unfold SymbolTable.enterInvented
  split
  · exact h.bindNew _
  · exact h.createDetached name .undefined (.inr rfl)

end SymbolTable.Typed

namespace Production

open Session

variable {free : EntryId → Prop} {known : Prop} {session : Session} {id : EntryId} {kind : DefinitionKind}

/-! ## Naming and opening a routine -/

/-- What begins with a name is a function. -/
theorem typed_routineKind (h : session.Typed free known) :
    Leads routineKind session (fun _ => True) fun found started =>
      started.Typed free known ∧ started.table = session.table ∧ found.1.isRoutine = true ∧
        (found.1 = .function → session.cursor.current.kind = .identifier) := by
  unfold routineKind
  rw [leads_bind, leads_currentKind]
  split
  · refine (reads_nextToken.leads session).bind fun _ read hread => ?_
    have htyped : read.Typed free known := h.reads hread
    exact ⟨htyped, hread.table_eq, rfl, nofun⟩
  · next hname => exact ⟨h, rfl, rfl, fun _ => hname⟩
  · exact ⟨h, rfl, rfl, nofun⟩

/-- A name leads to an entry declared forward, or to a new one. -/
theorem typed_routineName (invented : String) (h : session.Typed free known) :
    Leads (routineName invented) session (fun _ => True) fun found named =>
      named.Typed free known ∧ (found.2 = false →
        found.1 = session.table.entries.size ∧ found.1 < named.table.entries.size) := by
  refine (names_routineName invented session).imp fun found named hnames => ?_
  cases hnames with
  | reused hkind hlocal hforward hreads =>
      exact ⟨(h.change fun _ htable => htable.addLine _ _).reads hreads, nofun⟩
  | entered hkind hlocal hreads =>
      refine ⟨(h.change fun _ htable => (htable.bindNew _).addLine _ _).reads hreads, fun _ => ⟨rfl, ?_⟩⟩
      simp [hreads.table_eq]
  | taken hkind hlocal hforward hreads =>
      have htaken : Session.Typed free known _ := Typed.reads (.of_error (by simp)) hreads
      refine ⟨htaken.change fun _ htable => ?_, fun _ => ⟨rfl, by simp [SymbolTable.size_enterInvented]⟩⟩
      rw [hreads.table_eq] at htable
      exact htable.enterInvented invented
  | missing hkind hreads =>
      refine ⟨(h.reads hreads).change fun _ htable => ?_,
        fun _ => ⟨rfl, by simp [SymbolTable.size_enterInvented]⟩⟩
      rw [hreads.table_eq] at htable
      exact htable.enterInvented invented

/-- A new entry that is marked as that of a routine has no type yet, unless it is a procedure. -/
theorem typed_markRoutine (h : session.Typed free known) (hid : id < session.table.entries.size)
    (hroutine : kind.isRoutine = true) :
    Leads (markRoutine id kind false) session (fun _ => True) fun _ marked =>
      marked.Typed (fun other => free other ∨ other = id) known ∧
        id < marked.table.entries.size ∧ (marked.table.entry id).kind = kind := by
  let marked := session.table.modifyEntry id (markedEntry kind false)
  have hentry : marked.entry id = markedEntry kind false (session.table.entry id) :=
    SymbolTable.entry_modifyEntry_self hid _
  have hkind : (marked.entry id).kind = kind := by
    rw [hentry]
    exact kind_ofRoutine_of_isRoutine hroutine {}
  have hmarked : Typed (fun other => free other ∨ other = id) known { session with table := marked } := by
    refine h.change fun _ htable => htable.modifyEntry (fun _ hfree => Or.inl (Or.inl hfree)) ?_
    rw [← hentry]
    refine ⟨fun hvalue => ?_, fun _ _ => Or.inr rfl⟩
    rw [hkind] at hvalue
    cases kind <;> simp [DefinitionKind.isRoutine, DefinitionKind.typed] at hroutine hvalue
  have hlt : id < marked.entries.size := by simpa [marked] using hid
  unfold markRoutine
  rw [leads_bind, leads_changeEntry]
  split
  · have hvoid : DataType.void ≠ .undefined := by decide
    rw [leads_changeEntry]
    refine ⟨hmarked.change fun _ htable => htable.modifyEntry (fun _ => .inl) (.of_type hvoid),
      by simpa using hid, ?_⟩
    rwa [SymbolTable.entry_modifyEntry_self hlt]
  · exact ⟨hmarked, hlt, hkind⟩

theorem sameTypes_changeRoutine (id : EntryId) (change : Routine → Routine) :
    Relates SameTypes (changeRoutine id change) := by
  refine ⟨fun session => ?_⟩
  exact ⟨rfl, .modifyRoutine session.table id change⟩

theorem sameTypes_onTable {α : Type} {change : SymbolTable → α × SymbolTable}
    (h : ∀ table, SymbolTable.SameTypes table (change table).2) : Relates SameTypes (onTable change) := by
  refine ⟨fun session => ?_⟩
  exact ⟨rfl, h session.table⟩

/-- To open a routine changes no type. -/
theorem sameTypes_openRoutine (parent id : EntryId) (kind : DefinitionKind) (forwarded : Bool) :
    Relates SameTypes (openRoutine parent id kind forwarded) := by
  have hopen : Relates SameTypes (openScope id) :=
    (sameTypes_onTable SymbolTable.SameTypes.push).bind fun _ => sameTypes_changeRoutine id _
  have hbegin : Relates SameTypes (beginProgram id) :=
    (Relates.read _).bind fun _ => (Relates.forM (fun program => sameTypes_changeRoutine program _) _).bind
      fun _ => (sameTypes_onTable SymbolTable.SameTypes.takeSlot).bind fun _ => .pure _
  refine (Relates.read _).bind fun entry => hopen.bind fun _ => .ite hbegin (.ite ?_ (.pure _))
  exact sameTypes_changeRoutine parent _

/-! ## Headers and bodies -/

/-- A function gets the type that has been read before its header. -/
theorem typed_header {type : Option DataType} (h : session.Typed (fun other => free other ∨ other = id) known)
    (hfree : known → kind = .function → type.getD .undefined = .undefined → free id)
    (hid : id < session.table.entries.size) (hkind : (session.table.entry id).kind = kind) :
    Leads (header id kind type) session (fun _ => True) fun _ later => later.Typed free known := by
  unfold header formalParameters
  refine (leads_bind _ _).mpr <| ((types_enclosedParameters.typed h).and
    ((@stays_enclosedParameters id).leads session)).bind fun parameters listed ⟨hlisted, hmoves⟩ => ?_
  let recorded := listed.table.modifyRoutine id fun known => { known with parameters }
  have hsame : listed.table.SameTypes recorded := .modifyRoutine _ _ _
  have hrecorded : Typed (fun other => free other ∨ other = id) known { listed with table := recorded } :=
    hlisted.change fun _ htable => htable.of_sameTypes hsame
  have hkind : (recorded.entry id).kind = kind := by
    rw [hsame.kind, (hmoves.grows.agrees id hid).kind, hkind]
  show Leads (if kind == .function then _ else _) { listed with table := recorded } _ _
  split
  · next hfunction =>
      obtain rfl : kind = .function := beq_iff_eq.mp hfunction
      rw [functionType, leads_bind, leads_current]
      refine ((reads_ensure _ _ rfl).leads { listed with table := recorded }).bind fun _ later hlater => ?_
      have htable : later.table = recorded := hlater.table_eq
      refine (hrecorded.reads hlater).change fun hknown htyped => htyped.modifyEntry (fun _ hbefore => hbefore) ?_
      rw [htable]
      -- a type that is not defined is that of a function, which is free to have none
      by_cases htype : type.getD .undefined = .undefined
      · refine ⟨fun htyped => ?_, fun _ _ => hfree hknown rfl htype⟩
        have hvalue : (recorded.entry id).kind ∈ DefinitionKind.typed := htyped
        simp [hkind, DefinitionKind.typed] at hvalue
      · exact .of_type htype
  · next hfunction =>
      refine hrecorded.change fun _ htyped => htyped.settled ?_
      rw [hkind]
      simpa using hfunction

/-- A header that repeats a declaration is reported, unless a semicolon comes after its name; but then the
parameters are missing. -/
theorem reported_enclosedParameters (session : Session) :
    Leads (ensure (session.cursor.current.kind == .semicolon) session.cursor.current .alreadyForwarded)
      session (fun _ => True) fun _ noted =>
        Leads enclosedParameters noted (fun _ => True) fun _ later => later.Typed free False := by
  cases hsemicolon : session.cursor.current.kind == .semicolon with
  | false =>
      exact (leads_flagAt _ _).mpr (types_enclosedParameters.typed (.of_error (by simp)))
  | true =>
      have hkind := beq_iff_eq.mp hsemicolon
      show Leads enclosedParameters session _ _
      rw [enclosedParameters, synchronize, leads_bind, leads_bind, leads_current, hkind,
        if_pos (by decide), leads_pure, hkind, if_neg (by decide), leads_bind, flag, leads_bind,
        leads_current, leads_flagAt]
      exact .of_error (by simp)

/-- An error that is reported while the parameters are read stays. -/
theorem reported_header {type : Option DataType}
    (h : Leads enclosedParameters session (fun _ => True) fun _ later => later.Typed free False) :
    Leads (header id kind type) session (fun _ => True) fun _ later => later.Typed free False := by
  have hchange (change : Entry → Entry) : Relates (Types free False) (changeEntry id change) := by
    refine ⟨fun session => ?_⟩
    exact fun herror => herror.change False.elim
  have htype : Relates (Types free False) (functionType id (type.getD .undefined)) :=
    (Relates.read _).bind fun _ => (types_ensure _ _ _).bind fun _ => hchange _
  unfold header formalParameters
  rw [leads_bind, leads_bind]
  refine h.imp fun parameters listed hlisted => ?_
  refine ((hchange _).typed hlisted).imp fun _ recorded hrecorded => ?_
  have hrest : Relates (Types free False)
      (if kind == .function then functionType id (type.getD .undefined) else pure ()) :=
    .ite htype (.pure ())
  exact hrest.typed hrecorded

theorem types_bodyOrForward (id : EntryId) : Relates (Types free known) (bodyOrForward id) := by
  have hstage (stage : RoutineStage) : Relates (Types free known) (setStage id stage) :=
    (sameTypes_changeRoutine id _).types_of_sameTypes
  have hcompound : Relates (Types free known) (compound id) :=
    (spansStatements_types id).statement.compoundOf fun _ _ hreads htyped => htyped.reads hreads
  refine (Relates.read _).bind fun kind => ?_
  split
  · refine (hstage .declared).bind fun _ => hcompound.bind fun body => ?_
    exact (sameTypes_changeRoutine id _).types_of_sameTypes
  · exact (hstage .forward).bind fun _ => reads_nextToken.types.bind fun _ => .pure _
  · exact hstage .forward

/-- What is left of a routine once its header has been read. -/
theorem types_rest (id : EntryId) : Relates (Types free known) (do
    bodyOrForward id
    let _ ← onTable (·.pop)) :=
  (types_bodyOrForward id).bind fun _ =>
    (sameTypes_onTable SymbolTable.SameTypes.pop).types_of_sameTypes.bind fun _ => .pure _

/-- A routine leaves every type in place.  What is new is free to be a function without a type if it begins
with its name and no type has been read before it. -/
theorem typed_routine (parent : EntryId) {type : Option DataType}
    (h : session.Typed free (session.cursor.current.kind = .identifier → type.getD .undefined = .undefined →
      free session.table.entries.size)) :
    Leads (routine parent type) session (fun _ => True) fun _ later => later.Typed free True := by
  unfold routine
  refine (typed_routineKind h).bind fun ⟨kind, invented⟩ started ⟨hstarted, hsame, hroutine, hname⟩ => ?_
  refine (typed_routineName invented hstarted).bind fun ⟨id, forwarded⟩ named ⟨hnamed, hnew⟩ => ?_
  cases forwarded with
  | true =>
      refine (leads_run (markRoutine id kind true) named).bind fun _ marked _ => ?_
      refine (leads_run (openRoutine parent id kind true) marked).bind fun _ begun _ => ?_
      rw [leads_bind, leads_current]
      refine (@reported_enclosedParameters free begun).bind fun _ noted hnoted => ?_
      refine (reported_header hnoted).bind fun _ headed hheaded => ?_
      exact ((types_rest id).typed hheaded).imp fun _ _ hlater =>
        hlater.imp False.elim
  | false =>
      obtain ⟨hid, hlt⟩ := hnew rfl
      refine (typed_markRoutine hnamed hlt hroutine).bind fun _ marked ⟨hmarked, hlt, hkind⟩ => ?_
      refine ((sameTypes_openRoutine parent id kind false).leads marked).bind fun _ begun hbegun => ?_
      rw [leads_bind, leads_current, leads_bind]
      have hfree : (session.cursor.current.kind = .identifier → type.getD .undefined = .undefined →
          free session.table.entries.size) → kind = .function → type.getD .undefined = .undefined → free id := by
        intro hfree hfunction htype
        obtain rfl : id = session.table.entries.size := hid.trans (by rw [hsame])
        exact hfree (hname hfunction) htype
      have hheader := typed_header (hbegun.types hmarked) hfree (by rwa [hbegun.2.size])
        ((hbegun.2.kind id).trans hkind)
      refine hheader.bind fun _ headed hheaded => ?_
      exact ((types_rest id).typed hheaded).imp fun _ _ hlater =>
        hlater.imp fun _ => trivial

/-! ## Items -/

theorem typed_variablesOrFunction (program : EntryId) (h : session.Typed free known) :
    Leads (variablesOrFunction fun type => routine program (some type)) session (fun _ => True)
      fun _ later => later.Typed free True := by
  unfold variablesOrFunction
  rw [leads_bind, leads_current]
  refine (typed_requiredType h).bind fun type typed htyped => ?_
  refine (reads_startsHeader.types.typed htyped).bind fun starts looked hlooked => ?_
  split
  · exact typed_routine program (hlooked.imp fun hknown _ htype => absurd htype hknown.2)
  · exact ((types_variableNames _ And.right).typed hlooked).imp fun _ _ hlater =>
      hlater.imp fun _ => trivial

theorem typed_declaration (program : EntryId)
    (h : session.Typed free (session.NamesNoType → free session.table.entries.size)) :
    Leads (declaration program) session (fun _ => True) fun _ later => later.Typed free True := by
  have hall {α : Type} {production : Production α}
      (hproduction : ∀ {known : Prop}, Relates (Types free known) production) :
      Leads production session (fun _ => True) fun _ later => later.Typed free True :=
    (hproduction.typed h).imp fun _ _ hlater => hlater.imp fun _ => trivial
  unfold declaration
  rw [leads_bind, leads_currentKind]
  split
  · exact hall (reads_nextToken.types.bind fun _ => types_constants)
  · exact hall (reads_nextToken.types.bind fun _ => types_typeDefinition)
  · rw [leads_bind, leads_startsVariables]
    split
    · exact typed_variablesOrFunction program h
    · next hstarts =>
        exact typed_routine program (h.imp fun hfree hname _ => hfree ⟨hname, by simpa using hstarts⟩)

theorem types_programStatement (program : EntryId) :
    Relates (Types free known) (programStatement program) :=
  (spansStatements_types program).statement.bind fun _ => (reads_matchToken _).types.bind fun _ =>
    (sameTypes_changeRoutine program _).types_of_sameTypes

theorem typed_item (program : EntryId)
    (h : session.Typed free (session.NamesNoType → free session.table.entries.size)) :
    Leads (item program) session (fun _ => True) fun _ later => later.Typed free True := by
  have hstarts : Leads startsProgramStatement session (fun _ => True) fun _ looked =>
      session.Reads looked ∧ looked.cursor.current = session.cursor.current := by
    unfold startsProgramStatement
    rw [leads_bind, leads_currentKind]
    split
    · exact ⟨refl session, rfl⟩
    · exact ((reads_peekKind.leads session).and (current_peekKind session)).bind fun _ _ hlooked => hlooked
    · exact ⟨refl session, rfl⟩
  refine hstarts.bind fun starts looked ⟨hreads, hcurrent⟩ => ?_
  have hlooked := h.reads hreads
  rw [← hreads.table_eq] at hlooked
  split
  · exact ((types_programStatement program).typed hlooked).imp fun _ _ hlater =>
      hlater.imp fun _ => trivial
  · refine typed_declaration program (hlooked.imp fun hfree hname => hfree ?_)
    rwa [NamesNoType, hcurrent, hreads.table_eq] at hname

/-- An item leaves every type in place.  What is new is free to be a function without a type if the item
begins with a name that stands for no type. -/
theorem typed_nextItem (program : EntryId)
    (h : session.Typed free (session.FacesName → free session.table.entries.size)) :
    Leads (nextItem program) session (fun _ => True) fun _ later => later.Typed free True := by
  have hdrop (start : Nat) : Relates (Types free True) (dropItemUnlessMoved start) :=
    (Relates.read _).bind fun _ => (Relates.read _).bind fun _ =>
      .ite ((reads_flag rfl).types.bind fun _ => reads_nextToken.types.bind fun _ => .pure _) (.pure _)
  have hfind := (leads_run (synchronize itemStart) session).and ((reads_synchronize itemStart).leads session)
  unfold nextItem
  rw [leads_bind, leads_current]
  split
  · exact h.imp fun _ => trivial
  · rw [leads_bind, leads_position]
    refine hfind.bind fun token begun ⟨hrun, hreads⟩ => ?_
    have hbegun := h.reads hreads
    split
    · exact hbegun.imp fun _ => trivial
    · have hitem : begun.Typed free (begun.NamesNoType → free begun.table.entries.size) := by
        rw [hreads.table_eq]
        exact hbegun.imp fun hfree hname => hfree ⟨token, begun, hrun, hname⟩
      refine (typed_item program hitem).bind fun _ made hmade => ?_
      exact ((hdrop _).typed hmade).bind fun _ later hlater => hlater

end Production

/-! ## Units -/

namespace Production

variable {stream : TokenStream} {session : Session}

/-- The functions without a type after an item are those before it, and its own if it begins with its name. -/
theorem typed_turn (hreached : session.Reached stream) (h : session.Typed stream.Untyped True)
    {turn : ForInStep Unit} {later : Session}
    (hrun : nextItem SymbolTable.programId session = .ok (turn, later)) :
    later.Typed stream.Untyped True := by
  have hfree : session.Typed (session.LeavesUntyped stream)
      (session.FacesName → session.LeavesUntyped stream session.table.entries.size) :=
    fun hclean => ⟨fun hname => .inr ⟨hname, rfl⟩, (h hclean).2.mono fun _ => Or.inl⟩
  have hlater := (leads_of_ok hrun).mp (typed_nextItem SymbolTable.programId hfree)
  refine fun hclean => ⟨trivial, (hlater hclean).2.bound_lt, fun id => ?_⟩
  have hentry := (hlater hclean).2.entry id
  refine ⟨hentry.value, fun hkind htype => (hentry.function hkind htype).elim (fun hold => hold) ?_⟩
  rintro ⟨hname, hid⟩
  exact ⟨session, turn, later, hreached, hrun, hname, hid, SymbolTable.lt_of_kind hkind (by simp)⟩

theorem typed_items (hreached : session.Reached stream) (h : session.Typed stream.Untyped True) :
    Leads items session (fun _ => True) fun _ later => later.Typed stream.Untyped True := by
  have hstep (state : Unit) (session : Session)
      (h : session.Reached stream ∧ session.Typed stream.Untyped True) :
      Leads (nextItem SymbolTable.programId) session (fun _ => True)
        (AfterTurn (fun _ later => later.Typed stream.Untyped True)
          fun _ later => later.Reached stream ∧ later.Typed stream.Untyped True) := by
    refine (leads_run _ session).imp fun turn later hrun => ?_
    have hlater := typed_turn h.1 h.2 hrun
    cases turn with
    | done => exact hlater
    | yield =>
        obtain ⟨cursor, hstart, hturns⟩ := h.1
        exact ⟨⟨cursor, hstart, hturns.tail hrun⟩, hlater⟩
  refine (leads_loop hstep ⟨hreached, h⟩).bind fun _ ended hended => ?_
  exact hended.change fun _ htable => htable.of_sameTypes (.pop _)

end Production

/-- The predefined types have types, and the program needs none. -/
theorem SymbolTable.typed_unitTable (free : EntryId → Prop) : unitTable.Typed free where
  bound_lt := valid_unitTable.bound_lt
  entry id := by
    have hall : ∀ entry ∈ unitTable.entries.toList, entry.resolvedType ≠ .undefined ∨
        entry.kind ∉ DefinitionKind.typed ∧ entry.kind ≠ .function := by decide +kernel
    rcases forall_entry hall (by decide) id with htype | ⟨hkind, hfunction⟩
    · exact .of_type htype
    · exact .of_kind hkind hfunction

/-- In a unit without errors everything that is declared has a type, except for functions whose headers give
none. -/
theorem typed_of_compile {stream : TokenStream} {unit : CompilationUnit} (h : compile stream = .ok unit)
    (hclean : unit.diagnostics = []) : unit.table.Typed stream.Untyped := by
  obtain ⟨cursor, outcome, hstart, hitems, rfl⟩ := exists_outcome h
  have hopened : (Session.opened cursor).Typed stream.Untyped True :=
    fun _ => ⟨trivial, SymbolTable.typed_unitTable _⟩
  have hended := (leads_of_ok hitems).mp (typed_items ⟨cursor, hstart, .refl⟩ hopened)
  exact (hended hclean).2

end FrontEnd
