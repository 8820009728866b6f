import FrontEnd.Proofs.Order.Statement

/-!
# The order of what routines and units record

Every production for a routine, and for an item of a unit, leaves all that is recorded in order, and so a whole
compilation does (`compile_ordered`).

The line of a routine's name is recorded while the name is the current token.  A body has its place when it is given to
its routine; the program is given one statement after the other.
-/

namespace FrontEnd

namespace Entry

variable {table : SymbolTable} {last : Nat} {entry : Entry}

/-- What is changed about a routine is its body, or nothing that has to be in order. -/
theorem Placed.mapRoutine (h : entry.Placed table last) {change : Routine → Routine}
    (hbody : ∀ routine body, entry.routine? = some routine → (change routine).body = some body →
      ∀ node ∈ body.nodes, node.Placed table last) : (entry.mapRoutine change).Placed table last where
  sorted := h.sorted
  bounds := h.bounds
  type := h.type
  constant value hvalue := by
    refine h.constant value ?_
    simp only [Entry.mapRoutine] at hvalue
    cases hdefinition : entry.definition <;> simp_all [Definition.mapRoutine]
  body body hmem := by
    rw [body?, routine?_mapRoutine] at hmem
    cases hroutine : entry.routine? with
    | none => simp [hroutine] at hmem
    | some routine => exact hbody routine body hroutine (by simpa [hroutine] using hmem)

end Entry

namespace Production

open Session

variable {tokens : List Token} {session : Session}

/-- The body that a routine is given has to have its place. -/
theorem orderly_changeRoutine (h : session.Ordered tokens) (id : EntryId) {change : Routine → Routine}
    (hbody : ∀ routine body, (∀ own, routine.body = some own → session.Places own) →
      (change routine).body = some body → session.Places body) :
    Orderly tokens (changeRoutine id change) session fun _ later => later.cursor = session.cursor := by
  refine (orderly_changeEntry h id (List.Subset.refl _) ((h.entries id).mapRoutine ?_)).mono
    fun _ _ _ _ hchanged => by rw [hchanged]
  intro routine body hroutine
  refine hbody routine body fun own hown => (h.entries id).body own ?_
  simpa [Entry.body?, hroutine] using hown

/-- A change of a routine that leaves its body, or takes it away. -/
theorem proceeds_changeRoutine (id : EntryId) {change : Routine → Routine}
    (hbody : ∀ routine, (change routine).body = routine.body ∨ (change routine).body = none) :
    Relates (Proceeds tokens) (changeRoutine id change) := by
  refine proceeds_of_orderly fun session h => orderly_changeRoutine h id fun routine body hown hchanged => ?_
  rcases hbody routine with hsame | hnone
  · exact hown body (hsame ▸ hchanged)
  · simp [hnone] at hchanged

/-! ## Names -/

theorem proceeds_inventName (stem : String) : Relates (Proceeds tokens) (inventName stem) :=
  ⟨fun _ h => ⟨⟨h.scanned, h.unread, h.reports, h.sorted, h.entries⟩, Nat.le_refl _, fun _ => List.Subset.refl _⟩⟩

theorem proceeds_routineKind : Relates (Proceeds tokens) routineKind := by
  refine (Relates.read _).bind fun kind => ?_
  split
  · exact proceeds_nextToken.bind fun _ => (proceeds_inventName _).bind fun _ => .pure _
  · exact (proceeds_inventName _).bind fun _ => .pure _
  · exact .pure _

theorem orderly_namedRoutine (h : session.Ordered tokens) :
    Orderly tokens (namedRoutine session.cursor.current) session fun _ later => later.cursor = session.cursor := by
  unfold namedRoutine
  rw [orderly_table_bind]
  split
  · exact .bind (orderly_enterLocal h _) fun _ _ hlater _ ⟨hcursor, _⟩ => .pure hlater hcursor
  · split
    · exact .pure h rfl
    · exact .bind (orderly_flag h .identifierRedefined) fun _ _ hlater _ ⟨hcursor, _⟩ => .pure hlater hcursor

theorem proceeds_givenName : Relates (Proceeds tokens) givenName := by
  refine proceeds_iff.mpr fun session h => ?_
  unfold givenName
  rw [orderly_current_bind]
  split
  · refine .bind (orderly_namedRoutine h) fun found named hnamed _ hcursor => ?_
    have hline : Orderly tokens (found.forM fun entry => changeEntry entry.1 (·.addLine session.cursor.current.line))
        named fun _ _ => True := by
      cases found with
      | none => exact .pure hnamed trivial
      | some found =>
          rw [← hcursor]
          exact (orderly_addLine hnamed found.1).mono fun _ _ _ _ _ => trivial
    refine .bind hline fun _ used hused _ _ => ?_
    refine .bind (orderly_nextToken hused) fun _ next hnext _ _ => ?_
    exact .bind ((proceeds_synchronize _).orderly hnext) fun _ _ hlater _ _ => .pure hlater trivial
  · exact .bind (orderly_flag h .missingIdentifier) fun _ _ hlater _ _ => .pure hlater trivial

theorem proceeds_enterOrDetach (name : String) : Relates (Proceeds tokens) (enterOrDetach name) :=
  proceeds_of_orderly fun _ h => orderly_enterOrDetach h name

theorem proceeds_routineName (invented : String) : Relates (Proceeds tokens) (routineName invented) := by
  refine proceeds_givenName.bind fun found => ?_
  cases found with
  | some found => exact .pure found
  | none => exact (proceeds_enterOrDetach invented).bind fun _ => .pure _

/-! ## Parameters -/

theorem proceeds_typedParameter : Relates (Proceeds tokens) typedParameter := by
  refine proceeds_iff.mpr fun session h => ?_
  unfold typedParameter
  refine .bind (orderly_typeSpecifier h) fun found read hread _ hfound => ?_
  have htype : (found.getD .undefined).InRange := by
    cases found with
    | none => trivial
    | some type => exact hfound.inRange type rfl
  rw [orderly_current_bind]
  split
  · refine .bind (orderly_declareStorage hread hread.seen .valueParameter htype) fun id declared hdeclared _ _ => ?_
    exact .bind (orderly_nextToken hdeclared) fun _ _ hlater _ _ => .pure hlater trivial
  · exact .bind (orderly_flag hread .missingIdentifier) fun _ _ hlater _ _ => .pure hlater trivial

theorem proceeds_parameterEntry : Relates (Proceeds tokens) parameterEntry := by
  have huntyped : Relates (Proceeds tokens) untypedParameter :=
    (proceeds_flag _).bind fun _ => proceeds_nextToken.bind fun _ => (proceeds_matchToken _).bind fun _ => .pure _
  refine (Relates.read _).bind fun kind => ?_
  split
  case h_4 => exact huntyped.bind fun _ => .pure _
  all_goals exact proceeds_typedParameter

theorem proceeds_parameterEnd : Relates (Proceeds tokens) parameterEnd := by
  refine proceeds_iff.mpr fun session h => ?_
  unfold parameterEnd
  refine .bind (orderly_synchronize _ h) fun token found hfound _ htoken => ?_
  subst htoken
  split
  · exact .bind (orderly_nextToken hfound) fun _ _ hlater _ _ => .pure hlater trivial
  · exact (orderly_ensure_current hfound _ _).mono fun _ _ _ _ _ => trivial

theorem proceeds_enclosedParameters : Relates (Proceeds tokens) enclosedParameters := by
  have hparameter (parameters : List EntryId) : Relates (Proceeds tokens) (parameter parameters) :=
    (Relates.read _).bind fun _ =>
      .ite (proceeds_parameterEntry.bind fun _ => proceeds_parameterEnd.bind fun _ => .pure _) (.pure _)
  have hvoid : Relates (Proceeds tokens) loneVoid :=
    (Relates.read _).bind fun _ =>
      .ite (proceeds_peekKind.bind fun _ => .ite (proceeds_nextToken.bind fun _ => .pure _) (.pure _)) (.pure _)
  have hlist : Relates (Proceeds tokens) parameterList := by
    refine hvoid.bind fun _ => (proceeds_synchronize _).bind fun _ => ?_
    exact (Relates.loop hparameter []).bind fun _ => (proceeds_expect _ _).bind fun _ => .pure _
  exact (proceeds_synchronize _).bind fun _ =>
    .ite (proceeds_nextToken.bind fun _ => hlist) ((proceeds_flag _).bind fun _ => .pure _)

/-! ## Headers and bodies -/

theorem orderly_functionType (routine : EntryId) {type : DataType} (htype : type.InRange)
    (h : session.Ordered tokens) : Orderly tokens (functionType routine type) session fun _ _ => True := by
  unfold functionType
  rw [orderly_current_bind]
  refine .bind (orderly_ensure_current h _ .invalidType) fun _ checked hchecked _ _ => ?_
  refine (orderly_changeEntry hchecked routine (List.Subset.refl _) ?_).mono fun _ _ _ _ _ => trivial
  have hold := hchecked.entries routine
  exact hold.define (by rintro _ ⟨⟩; exact htype) hold.constant hold.body

theorem proceeds_header (routine : EntryId) (kind : DefinitionKind) {type : Option DataType}
    (htype : ∀ given, type = some given → given.InRange) : Relates (Proceeds tokens) (header routine kind type) := by
  have hgiven : (type.getD .undefined).InRange := by
    cases type with
    | none => trivial
    | some given => exact htype given rfl
  have hparameters : Relates (Proceeds tokens) (formalParameters routine) :=
    proceeds_enclosedParameters.bind fun _ => proceeds_changeRoutine routine fun _ => .inl rfl
  exact hparameters.bind fun _ =>
    .ite (proceeds_of_orderly fun _ h => orderly_functionType routine hgiven h) (.pure ())

theorem proceeds_setStage (routine : EntryId) (stage : RoutineStage) :
    Relates (Proceeds tokens) (setStage routine stage) :=
  proceeds_changeRoutine routine fun _ => .inl rfl

theorem proceeds_bodyOrForward (routine : EntryId) : Relates (Proceeds tokens) (bodyOrForward routine) := by
  refine (Relates.read _).bind fun kind => ?_
  split
  · refine (proceeds_setStage routine .declared).bind fun _ => ?_
    refine proceeds_iff.mpr fun session h => ?_
    refine .bind (plants_compound routine session h) fun body read hread _ hbody => ?_
    refine (orderly_changeRoutine hread routine ?_).mono fun _ _ _ _ _ => trivial
    rintro _ _ - ⟨⟩
    exact hbody
  · exact (proceeds_setStage routine .forward).bind fun _ => proceeds_nextToken.bind fun _ => .pure _
  · exact proceeds_setStage routine .forward

/-- An entry that is marked as that of a routine keeps the body that it has, or has none. -/
theorem placed_markedEntry {table : SymbolTable} {last : Nat} {entry : Entry} (h : entry.Placed table last)
    (kind : DefinitionKind) (forwarded : Bool) : (markedEntry kind forwarded entry).Placed table last := by
  have hkinds (routine : Routine) : (Definition.ofRoutine kind routine).routine? = some routine := by
    cases kind <;> rfl
  have hconstants (routine : Routine) (value : ConstantValue) :
      Definition.ofRoutine kind routine ≠ .constant value := by
    cases kind <;> nofun
  unfold markedEntry Entry.setRoutineKind
  split
  · refine h.define h.type (fun value hvalue => absurd hvalue (hconstants _ value)) fun body hbody => ?_
    refine h.body body ?_
    have hbody : (Definition.ofRoutine kind (entry.routine?.getD {})).routine?.bind Routine.body = some body := hbody
    rw [hkinds] at hbody
    cases hroutine : entry.routine? with
    | none => simp [hroutine] at hbody
    | some routine => simpa [Entry.body?, hroutine] using hbody
  · refine h.define h.type (fun value hvalue => absurd hvalue (hconstants _ value)) fun body hbody => ?_
    simp [Entry.body?, Entry.routine?, hkinds] at hbody

theorem proceeds_markRoutine (routine : EntryId) (kind : DefinitionKind) (forwarded : Bool) :
    Relates (Proceeds tokens) (markRoutine routine kind forwarded) := by
  refine Relates.bind (proceeds_of_orderly fun session h => orderly_changeEntry h routine ?_
    (placed_markedEntry (h.entries routine) kind forwarded)) fun _ =>
    .ite (proceeds_of_orderly fun session h => orderly_changeEntry h routine (List.Subset.refl _) ?_) (.pure ())
  · unfold markedEntry Entry.setRoutineKind
    split <;> exact List.Subset.refl _
  · have hold := h.entries routine
    exact hold.define (by rintro _ ⟨⟩; trivial) hold.constant hold.body

theorem proceeds_onTable {α : Type} {change : SymbolTable → α × SymbolTable}
    (hsame : ∀ table id, (change table).2.entry id = table.entry id) : Relates (Proceeds tokens) (onTable change) :=
  proceeds_of_orderly fun session h => orderly_onTable h (hsame session.table)

theorem proceeds_openRoutine (parent routine : EntryId) (kind : DefinitionKind) (forwarded : Bool) :
    Relates (Proceeds tokens) (openRoutine parent routine kind forwarded) := by
  have hopen : Relates (Proceeds tokens) (openScope routine) :=
    (proceeds_onTable fun _ _ => rfl).bind fun _ => proceeds_changeRoutine routine fun _ => .inr rfl
  have hmain (program : EntryId) : Relates (Proceeds tokens)
      (changeRoutine program fun known => { known with mainRoutine := some routine }) :=
    proceeds_changeRoutine program fun _ => .inl rfl
  have hbegin : Relates (Proceeds tokens) (beginProgram routine) :=
    (Relates.read _).bind fun table => (Relates.forM hmain table.program).bind fun _ =>
      (proceeds_onTable fun _ _ => rfl).bind fun _ => .pure _
  refine (Relates.read _).bind fun _ => hopen.bind fun _ => .ite hbegin (.ite ?_ (.pure _))
  exact proceeds_changeRoutine parent fun _ => .inl rfl

theorem proceeds_routine (parent : EntryId) {type : Option DataType}
    (htype : ∀ given, type = some given → given.InRange) : Relates (Proceeds tokens) (routine parent type) := by
  refine proceeds_routineKind.bind fun (kind, invented) => ?_
  refine (proceeds_routineName invented).bind fun (id, forwarded) => ?_
  refine (proceeds_markRoutine id kind forwarded).bind fun _ => ?_
  refine (proceeds_openRoutine parent id kind forwarded).bind fun _ => ?_
  refine proceeds_iff.mpr fun session h => ?_
  rw [orderly_current_bind]
  refine .bind (orderly_ensure_current h _ .alreadyForwarded) fun _ checked hchecked _ _ => ?_
  refine .bind ((proceeds_header id kind htype).orderly hchecked) fun _ headed hheaded _ _ => ?_
  refine .bind ((proceeds_bodyOrForward id).orderly hheaded) fun _ made hmade _ _ => ?_
  exact .bind (orderly_onTable hmade (SymbolTable.entry_pop _)) fun _ _ hlater _ _ => .pure hlater trivial

/-! ## Units -/

/-- The program is given one more statement. -/
theorem proceeds_programStatement (program : EntryId) : Relates (Proceeds tokens) (programStatement program) := by
  refine proceeds_iff.mpr fun session h => ?_
  unfold programStatement
  refine .bind (plants_statement program session h) fun tree read hread _ htree => ?_
  refine .bind ((proceeds_matchToken .semicolon).orderly hread) fun _ ended hended honward _ => ?_
  have htree := honward.places htree
  refine (orderly_changeRoutine hended program fun routine body hown hbody => ?_).mono fun _ _ _ _ _ => trivial
  unfold appendStatement at hbody
  cases hbefore : routine.body with
  | none =>
      rw [hbefore] at hbody
      obtain rfl := Option.some.inj hbody
      exact .node nofun nofun htree.root.line trivial (by simpa using htree)
  | some before =>
      rw [hbefore] at hbody
      obtain rfl : before.addChild tree = body := Option.some.inj hbody
      have hbefore := hown before hbefore
      refine Node.forall_nodes ?_ fun child hchild => ?_
      · exact ⟨hbefore.root.line, hbefore.root.call, hbefore.root.integer, hbefore.root.type⟩
      · rcases List.mem_append.mp hchild with hold | hnew
        · exact hbefore.children child hold
        · exact List.mem_singleton.mp hnew ▸ htree

theorem proceeds_item (program : EntryId) : Relates (Proceeds tokens) (item program) := by
  have hstarts : Relates (Proceeds tokens) startsProgramStatement := by
    refine (Relates.read _).bind fun kind => ?_
    split
    · exact .pure true
    · exact proceeds_peekKind.bind fun _ => .pure _
    · exact .pure false
  have hdeclaration : Relates (Proceeds tokens) (declaration program) := by
    refine (Relates.read _).bind fun kind => ?_
    split
    · exact proceeds_nextToken.bind fun _ => proceeds_constants
    · exact proceeds_nextToken.bind fun _ => proceeds_typeDefinition
    · refine Relates.startsVariables.bind fun _ => .ite (proceeds_variablesOrFunction fun type htype => ?_) ?_
      · exact proceeds_routine program (by rintro _ ⟨⟩; exact htype)
      · exact proceeds_routine program nofun
  exact hstarts.bind fun _ => .ite (proceeds_programStatement program) hdeclaration

theorem proceeds_items : Relates (Proceeds tokens) items := by
  have hdrop (start : Nat) : Relates (Proceeds tokens) (dropItemUnlessMoved start) :=
    (Relates.read _).bind fun _ => (Relates.read _).bind fun _ =>
      .ite ((proceeds_flag _).bind fun _ => proceeds_nextToken.bind fun _ => .pure _) (.pure _)
  have hnext : Relates (Proceeds tokens) (nextItem SymbolTable.programId) := by
    refine (Relates.read _).bind fun _ => .ite (.pure _) ((Relates.read _).bind fun start => ?_)
    refine (proceeds_synchronize _).bind fun _ => .ite (.pure _) ((proceeds_item _).bind fun _ => ?_)
    exact (hdrop start).bind fun _ => .pure _
  exact (Relates.loop (fun _ => hnext) ()).bind fun _ =>
    (proceeds_onTable SymbolTable.entry_pop).bind fun _ => .pure _

end Production

namespace Session

/-- The table with which the items of a unit begin has nothing in it that could be out of order. -/
theorem placed_unitTable {table : SymbolTable} {last : Nat} (id : EntryId) :
    (SymbolTable.unitTable.entry id).Placed table last := by
  -- there are few entries, so they are checked one by one
  have hall : ∀ entry ∈ SymbolTable.unitTable.entries.toList,
      entry.lines = [] ∧ entry.type.all (·.form == .scalar) = true ∧ entry.definition.constant? = none := by
    decide +kernel
  have hbody := (SymbolTable.body?_unitTable id).1
  obtain ⟨hlines, htype, hconstant⟩ := SymbolTable.forall_entry hall (by decide) id
  exact {
    sorted := by simp [hlines]
    bounds := by simp [hlines]
    type := by
      intro type hsome
      rw [hsome] at htype
      cases type with
      | scalar | record => trivial
      | array => cases htype
    constant := fun value hvalue => by simp [hvalue, Definition.constant?] at hconstant
    body := by simp [hbody] }

/-- Where a compilation starts, nothing has been recorded but what is wrong with the first token. -/
theorem ordered_start {feed : LineFeed} {session : Session}
    (h : Session.start (Scanner.stream feed) = .ok session) :
    Ordered (TokenStream.tokensOf ((Scanner.stream feed).answers 0))
      { session with table := SymbolTable.unitTable } := by
  obtain ⟨hcursor, -, hdiagnostics⟩ := Session.start_cases h
  have htokens := Cursor.tokensOf_of_start hcursor
  have hlocated (report : Diagnostic) (hmem : report ∈ session.diagnostics) :
      report.location = session.cursor.current.location ∧ report.text = session.cursor.current.text := by
    rw [hdiagnostics] at hmem
    obtain ⟨reason, -, rfl⟩ := List.mem_map.mp hmem
    exact ⟨rfl, rfl⟩
  exact {
    scanned := Scanner.scanned_stream feed
    unread := htokens ▸ List.suffix_refl _
    reports := by
      intro report hmem
      obtain ⟨hlocation, htext⟩ := hlocated report hmem
      exact ⟨session.cursor.current, htokens ▸ List.mem_cons_self .., hlocation, htext, Nat.le_refl _⟩
    sorted := List.pairwise_of_forall_mem_list fun earlier hearlier later hlater =>
      .inl (Nat.le_of_eq (by rw [(hlocated earlier hearlier).1, (hlocated later hlater).1]))
    entries := placed_unitTable }

end Session

/-- A compilation that comes to its end leaves everything that it has recorded in order. -/
theorem compile_ordered {feed : LineFeed} {unit : CompilationUnit} (h : compile (Scanner.stream feed) = .ok unit) :
    ∃ later : Session, later.Ordered (TokenStream.tokensOf ((Scanner.stream feed).answers 0)) ∧
      unit = { table := later.table, program := unit.program, diagnostics := later.diagnostics,
               lineCount := later.cursor.current.line } := by
  obtain ⟨session, later, hstart, hunit, heq⟩ := compile_run h
  rw [Production.unit_eq_items (Session.start_cases hstart).2.1] at hunit
  exact ⟨later, (Production.proceeds_items.of_run hunit (Session.ordered_start hstart)).1, heq⟩

end FrontEnd
