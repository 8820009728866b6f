import FrontEnd.Proofs.Routine

/-!
# What a unit leaves behind

A unit starts with a table in which the predefined types and the program are entered (`unitTable`), and
takes one item after the other.  Every item leaves the table sound (`traced_item`), and no turn of the
loop over the items leaves the position where it was (`traced_nextItem`).

The program is a routine too.  Its body is a compound statement to which each item that is a statement is
appended, so what is kept of the program is that its body is of this kind, and that it is not declared
forward like other routines (`Hosts`).
-/

namespace FrontEnd

/-- What is kept of the entry of the program while its items are compiled. -/
structure SymbolTable.Hosts (accepted : Prop) (table : SymbolTable) (program : EntryId) : Prop where
  lt : program < table.entries.size
  kind : (table.entry program).kind = .program
  stage : (table.entry program).stage? = none
  body : ∀ body ∈ (table.entry program).body?, body.kind = .compound
  sound : table.Sound accepted

/-- Whether the program of a session is sound, as far as it goes. -/
def Session.Hosts (session : Session) (program : EntryId) : Prop :=
  session.table.Hosts (session.diagnostics = []) program

namespace SymbolTable

variable {accepted accepted' : Prop} {first second : SymbolTable} {program id : EntryId}

theorem Hosts.of_grows (h : first.Hosts accepted program) (hvalid : first.Valid)
    (hgrows : first.Grows second) (haccepted : accepted' → accepted) :
    second.Hosts accepted' program := by
  have hsimilar := Entry.Similar.of_agrees (hgrows.agrees program h.lt)
  exact {
    lt := Nat.lt_of_lt_of_le h.lt hgrows.size_le
    kind := hsimilar.kind.trans h.kind
    stage := hsimilar.stage.trans h.stage
    body := by rw [hsimilar.body]; exact h.body
    sound := h.sound.of_grows hvalid hgrows haccepted }

/-- The only tree for a statement with the kind of a compound statement is a compound statement. -/
theorem compound_of_kind {table : SymbolTable} {owner : EntryId} {node : Node}
    (h : StatementTree accepted table owner node) (hkind : node.kind = .compound) :
    ∃ statements line, node = { kind := .compound, children := statements, line := some line } ∧
      ∀ child ∈ statements, StatementTree accepted table owner child := by
  cases h with
  | compound line hstatements => exact ⟨_, line, rfl, hstatements⟩
  | call _ hcall _ => simp [hkind] at hcall
  | _ => simp at hkind

theorem line_of_statement {table : SymbolTable} {owner : EntryId} {node : Node}
    (h : StatementTree accepted table owner node) : ∃ line, node.line = some line := by
  cases h with
  | call _ _ hline => exact Option.isSome_iff_exists.mp hline
  | _ => exact ⟨_, rfl⟩

end SymbolTable

namespace Production

/-- A statement that is appended to a compound statement, or to nothing, makes a compound statement. -/
theorem body_appendStatement {accepted : Prop} {table : SymbolTable} {owner : EntryId}
    {statement body : Node} {program : Routine} (hstatement : StatementTree accepted table owner statement)
    (hprogram : ∀ body ∈ program.body, body.kind = .compound ∧ StatementTree accepted table owner body)
    (hbody : body ∈ (appendStatement statement program).body) :
    body.kind = .compound ∧ StatementTree accepted table owner body := by
  cases hbefore : program.body with
  | none =>
      obtain ⟨line, hline⟩ := SymbolTable.line_of_statement hstatement
      obtain rfl : _ = body := by simpa [appendStatement, hbefore] using hbody
      refine ⟨rfl, ?_⟩
      rw [hline]
      exact .compound line (by simpa using hstatement)
  | some before =>
      obtain ⟨hkind, htree⟩ := hprogram before hbefore
      obtain rfl : before.addChild statement = body := by
        simpa [appendStatement, hbefore] using hbody
      obtain ⟨statements, line, rfl, hall⟩ := SymbolTable.compound_of_kind htree hkind
      refine ⟨rfl, .compound line fun child hmem => ?_⟩
      rcases List.mem_append.mp hmem with hold | hnew
      · exact hall child hold
      · rwa [List.mem_singleton.mp hnew]

theorem parameters_appendStatement (statement : Node) (routine : Routine) :
    (appendStatement statement routine).parameters = routine.parameters := by
  unfold appendStatement
  split <;> rfl

theorem stage_appendStatement (statement : Node) (routine : Routine) :
    (appendStatement statement routine).stage = routine.stage := by
  unfold appendStatement
  split <;> rfl

/-- The program can be given one more statement. -/
theorem hosts_appendStatement {accepted : Prop} {table : SymbolTable} {program : EntryId} {node : Node}
    (h : table.Hosts accepted program) (hvalid : table.Valid)
    (hnode : StatementTree accepted table program node) :
    (table.modifyRoutine program (appendStatement node)).Hosts accepted program := by
  have hkeeps (count : Nat) : table.Keeps accepted count
      (table.modifyRoutine program (appendStatement node)) :=
    .modifyRoutine (parameters_appendStatement node)
  have hentry : (table.modifyRoutine program (appendStatement node)).entry program =
      (table.entry program).mapRoutine (appendStatement node) :=
    SymbolTable.entry_modifyEntry_self h.lt _
  have hother {id : EntryId} (hne : id ≠ program) :
      (table.modifyRoutine program (appendStatement node)).entry id = table.entry id :=
    SymbolTable.entry_modifyEntry_ne hne _
  -- the new body of the program, over the old table
  have hbodies : ∀ body ∈ ((table.entry program).mapRoutine (appendStatement node)).body?,
      body.kind = .compound ∧ StatementTree accepted table program body := by
    intro body hbody
    rw [Entry.body?, Entry.routine?_mapRoutine] at hbody
    cases hroutine : (table.entry program).routine? with
    | none => simp [hroutine] at hbody
    | some routine =>
        refine body_appendStatement hnode (fun before hbefore => ?_) (by simpa [hroutine] using hbody)
        have hbody? : before ∈ (table.entry program).body? := by
          simpa [Entry.body?, hroutine] using hbefore
        exact ⟨h.body before hbody?, h.sound.bodies program before hbody?⟩
  constructor
  case lt => simpa [SymbolTable.modifyRoutine] using h.lt
  case kind =>
    rw [hentry, Entry.kind_mapRoutine]
    exact h.kind
  case stage =>
    rw [hentry, Entry.stage?, Entry.routine?_mapRoutine]
    have := h.stage
    cases hroutine : (table.entry program).routine? <;>
      simp_all [Entry.stage?, stage_appendStatement]
  case body =>
    rw [hentry]
    exact fun body hbody => (hbodies body hbody).1
  case sound =>
    constructor
    case bodies =>
      intro id body hbody
      by_cases hsame : id = program
      · subst hsame
        rw [hentry] at hbody
        exact (hbodies body hbody).2.mono hvalid h.lt (hkeeps _) fun hyes => hyes
      · rw [hother hsame] at hbody
        have hlt := SymbolTable.lt_of_body? hbody
        exact (h.sound.bodies id body hbody).mono hvalid hlt (hkeeps _) fun hyes => hyes
    case functions =>
      intro hyes id hkind
      by_cases hsame : id = program
      · subst hsame
        rw [hentry, Entry.kind_mapRoutine, h.kind] at hkind
        simp at hkind
      · rw [hother hsame] at hkind ⊢
        exact h.sound.functions hyes id hkind

variable {known : Token → Prop} {session : Session} {program : EntryId}

/-- What runs inside a routine leaves the program as it is. -/
theorem Hosts.later {later : Session} (h : session.Hosts program) (hlawful : session.Lawful known)
    (hsteps : Steps known .topLevel session later) (hgrows : session.table.Grows later.table) :
    later.Hosts program :=
  h.of_grows hlawful.valid hgrows hsteps.clean

theorem traced_programStatement (hlawful : session.Lawful known) (hhosts : session.Hosts program) :
    Traced known .topLevel (programStatement program) session fun _ later => later.Hosts program := by
  unfold programStatement
  refine ((traced_statement hlawful hhosts.lt).atTop rfl).bind fun node made hmake hmade h => ?_
  refine (traced_matchToken (by simp) hmade).bind fun _ ended hend hended hmatched => ?_
  refine (traced_changeRoutine program hended (by
    intro routine hroutine
    rw [parameters_appendStatement]
    exact hended.valid.parameters program routine hroutine)).mono ?_
  rintro _ _ - - rfl
  have hmadeHosts := Hosts.later hhosts hlawful hmake h.1
  have hgrows : made.table.Grows ended.table := by rw [hmatched.1]
  refine hosts_appendStatement (Hosts.later hmadeHosts hmade hend hgrows) hended.valid ?_
  exact h.2.mono hmade.valid hmadeHosts.lt hgrows.keeps hend.clean

/-! ## Items -/

/-- A routine that is an item of the program leaves the program as it is. -/
theorem traced_routineItem (type : Option DataType) (hlawful : session.Lawful known)
    (hhosts : session.Hosts program)
    (hstart : session.cursor.current.kind = .voidWord ∨
      session.cursor.current.kind = .identifier) :
    Traced known .topLevel (routine program type) session fun _ later => later.Hosts program := by
  refine (traced_routine program type hlawful hstart).mono ?_
  rintro _ later - - ⟨hkeeps, hsound, hsimilar⟩
  -- the program is not declared forward, so it is not the routine that has been compiled
  have hprogram := hsimilar program hhosts.lt (by simp [hhosts.stage])
  exact {
    lt := Nat.lt_of_lt_of_le hhosts.lt hkeeps.size_le
    kind := hprogram.kind.trans hhosts.kind
    stage := hprogram.stage.trans hhosts.stage
    body := by rw [hprogram.body]; exact hhosts.body
    sound := hsound hhosts.sound }

/-- A look at the next token, by which nothing changes that matters to a program. -/
structure Looks (session later : Session) : Prop where
  current : later.cursor.current = session.cursor.current
  table : later.table = session.table
  diagnostics : later.diagnostics = session.diagnostics

theorem Looks.hosts {later : Session} (h : Looks session later) (hhosts : session.Hosts program) :
    later.Hosts program := by
  rw [Session.Hosts, h.table, h.diagnostics]
  exact hhosts

theorem traced_startsHeader {place : Place} (hlawful : session.Lawful known) :
    Traced known place startsHeader session fun starts later =>
      Looks session later ∧ (starts = true → session.cursor.current.kind = .identifier) := by
  unfold startsHeader
  rw [traced_check_bind]
  split
  · next hkind =>
      refine (traced_peekKind hlawful).bind fun _ later _ hlater h => .pure hlater ?_
      exact ⟨⟨h.1, h.2.2.1, h.2.2.2⟩, fun _ => by simpa using hkind⟩
  · exact .pure hlawful ⟨⟨rfl, rfl, rfl⟩, by simp⟩

theorem traced_startsProgramStatement {place : Place} (hlawful : session.Lawful known) :
    Traced known place startsProgramStatement session fun starts later =>
      Looks session later ∧ (starts = false → session.cursor.current.kind ≠ .leftBrace) := by
  unfold startsProgramStatement
  rw [traced_currentKind_bind]
  split
  · exact .pure hlawful ⟨⟨rfl, rfl, rfl⟩, by simp⟩
  · next hkind =>
      refine (traced_peekKind hlawful).bind fun _ later _ hlater h => .pure hlater ?_
      exact ⟨⟨h.1, h.2.2.1, h.2.2.2⟩, fun _ => by simp [hkind]⟩
  · next hbrace _ => exact .pure hlawful ⟨⟨rfl, rfl, rfl⟩, fun _ => hbrace⟩

theorem traced_variablesOrFunction (hlawful : session.Lawful known) (hhosts : session.Hosts program) :
    Traced known .topLevel (variablesOrFunction fun type => routine program (some type)) session
      fun _ later => later.Hosts program := by
  unfold variablesOrFunction
  rw [traced_current_bind]
  refine ((traced_requiredType hlawful).atTop rfl).bind fun type typed htype htyped h => ?_
  have hhosts := Hosts.later hhosts hlawful htype h.1
  refine (traced_startsHeader htyped).bind fun starts looked _ hlooked hlook => ?_
  have hhosts := hlook.1.hosts hhosts
  split
  · next hstarts =>
      exact traced_routineItem _ hlooked hhosts (Or.inr (by rw [hlook.1.current]; exact hlook.2 hstarts))
  · exact ((traced_variableNames type hlooked hlawful.current).atTop rfl).mono
      fun _ _ hsteps _ h => Hosts.later hhosts hlooked hsteps h.1

theorem traced_declaration (hlawful : session.Lawful known) (hhosts : session.Hosts program)
    (hstart : itemStart.contains session.cursor.current.kind = true)
    (hbrace : session.cursor.current.kind ≠ .leftBrace) :
    Traced known .topLevel (declaration program) session fun _ later => later.Hosts program := by
  unfold declaration
  rw [traced_currentKind_bind]
  split
  · refine (traced_nextToken hlawful).bind fun _ moved hmove hmoved hnext => ?_
    have hhosts := Hosts.later hhosts hlawful hmove (by rw [hnext.2.1])
    exact ((traced_constants hmoved).atTop rfl).mono
      fun _ _ hsteps _ h => Hosts.later hhosts hmoved hsteps h.1
  · refine (traced_nextToken hlawful).bind fun _ moved hmove hmoved hnext => ?_
    have hhosts := Hosts.later hhosts hlawful hmove (by rw [hnext.2.1])
    exact ((traced_typeDefinition hmoved).atTop rfl).mono
      fun _ _ hsteps _ h => Hosts.later hhosts hmoved hsteps h.1
  · next hconst htypedef =>
      rw [traced_startsVariables_bind]
      split
      · exact traced_variablesOrFunction hlawful hhosts
      · next hvariables =>
          refine traced_routineItem none hlawful hhosts ?_
          cases hkind : session.cursor.current.kind <;>
            simp_all [itemStart, declarationStart, beginsVariables, scalarWords]

theorem traced_item (hlawful : session.Lawful known) (hhosts : session.Hosts program)
    (hstart : itemStart.contains session.cursor.current.kind = true) :
    Traced known .topLevel (item program) session fun _ later => later.Hosts program := by
  unfold item
  refine (traced_startsProgramStatement hlawful).bind fun starts looked _ hlooked hlook => ?_
  have hhosts := hlook.1.hosts hhosts
  split
  · exact traced_programStatement hlooked hhosts
  · next hdeclaration =>
      refine traced_declaration hlooked hhosts (by rwa [hlook.1.current]) ?_
      rw [hlook.1.current]
      exact hlook.2 (by simpa using hdeclaration)

theorem traced_dropItemUnlessMoved {later : Session} (hsteps : Steps known .topLevel session later)
    (hlawful : later.Lawful known) (hhosts : later.Hosts program)
    (hend : session.cursor.current.isEnd = false) :
    Traced known .topLevel (dropItemUnlessMoved session.cursor.position) later fun _ final =>
      final.Hosts program ∧ session.cursor.position < final.cursor.position := by
  unfold dropItemUnlessMoved
  rw [traced_position_bind, traced_current_bind]
  split
  · next hstill =>
      simp only [Bool.and_eq_true, beq_iff_eq, Bool.not_eq_true'] at hstill
      refine (traced_flag _ hlawful rfl).bind fun _ flagged hfirst hflagged hflag => ?_
      refine (traced_nextToken hflagged).bind fun _ final hsecond hfinal hnext => .pure hfinal ?_
      have hmoved := hnext.2.2 (by rw [hflag.1]; exact hstill.2)
      rw [hflag.1, hstill.1] at hmoved
      refine ⟨Hosts.later hhosts hlawful (hfirst.trans hsecond) ?_, hmoved⟩
      rw [hnext.2.1, hflag.2.1]
  · next hmoved =>
      -- the end of the file cannot be reached from before it without consuming a token
      refine .pure hlawful ⟨hhosts, ?_⟩
      have := hsteps.position_le
      rcases Nat.eq_or_lt_of_le this with hsame | hlt
      · have hbefore := hsteps.isEnd_of_still hend hsame.symm
        simp [hsame, hbefore] at hmoved
      · exact hlt

/-- Each turn of the loop over the items consumes a token, and only the end of the file ends it. -/
theorem traced_nextItem_lt (hlawful : session.Lawful known) (hhosts : session.Hosts program) :
    Traced known .topLevel (nextItem program) session
      (AfterTurn
        (fun _ later => later.Hosts program ∧ later.cursor.current.isEnd = true)
        fun _ later => later.Hosts program ∧ session.cursor.position < later.cursor.position) := by
  unfold nextItem
  rw [traced_current_bind]
  split
  · next hend => exact .pure hlawful ⟨hhosts, hend⟩
  · next hgoes =>
      have hend : session.cursor.current.isEnd = false := by simpa using hgoes
      rw [traced_position_bind]
      refine (traced_synchronize _ hlawful).bind fun token found hfirst hfound h => ?_
      obtain ⟨rfl, htable, hstop, -⟩ := h
      have hhosts := Hosts.later hhosts hlawful hfirst (by rw [htable])
      split
      · next hfinal => exact .pure hfound ⟨hhosts, hfinal⟩
      · next hstart =>
          have hstart : itemStart.contains found.cursor.current.kind = true :=
            hstop.resolve_left hstart
          refine (traced_item hfound hhosts hstart).bind fun _ made hsecond hmade hhosts => ?_
          exact (traced_dropItemUnlessMoved (hfirst.trans hsecond) hmade hhosts hend).bind
            fun _ _ _ hfinal h => .pure hfinal h

theorem traced_nextItem (hlawful : session.Lawful known) (hhosts : session.Hosts program) :
    Traced known .topLevel (nextItem program) session
      (AfterTurn
        (fun _ later => later.Hosts program ∧ later.cursor.current.isEnd = true)
        fun _ later => later.Hosts program ∧
          (Improper known ∨ session.cursor.position < later.cursor.position)) := by
  refine (traced_nextItem_lt hlawful hhosts).mono ?_
  rintro (_ | _) later - - hturn
  · exact hturn
  · exact ⟨hturn.1, Or.inr hturn.2⟩

/-! ## The table at the start -/

end Production

namespace SymbolTable

/-- The table in which the predefined types are entered, and nothing else. -/
def predefined : SymbolTable := ({} : SymbolTable).enterPredefinedTypes

/-- The entry of the program. -/
def programId : EntryId := predefined.entries.size

/-- The scope of the program, and the table in which it has been opened. -/
def opened : ScopeId × SymbolTable :=
  { predefined.bindNew (Text.lower Production.programName) with program := some programId }.push

/-- The table with which the items of a unit begin: beside the predefined types it has the program, whose
scope is open. -/
def unitTable : SymbolTable :=
  opened.2.modifyEntry programId fun entry =>
    { entry with definition := .program { scope := some opened.1 } }

theorem lookupLocal_programName : predefined.lookupLocal Production.programName = none := by
  decide +kernel

end SymbolTable

namespace Production

/-- What is left of a unit once its table is set up. -/
def items : Production EntryId := do
  loop (fun _ => nextItem SymbolTable.programId) ()
  let _ ← onTable (·.pop)
  return SymbolTable.programId

/-- A unit sets up its table and goes on with its items. -/
theorem unit_eq_items {session : Session} (hstart : session.table = {}) :
    unit session = items { session with table := SymbolTable.unitTable } := by
  have hlocal := SymbolTable.lookupLocal_programName
  obtain ⟨cursor, table, diagnostics, dummies⟩ := session
  obtain rfl : table = {} := hstart
  simp only [SymbolTable.predefined] at hlocal
  simp only [unit, items, bind, StateT.bind, Except.bind, changeTable, modify, modifyGet,
    MonadStateOf.modifyGet, StateT.modifyGet, enterOrDetach, onTable, changeEntry, pure, Except.pure,
    SymbolTable.enterLocal, hlocal]
  rfl

/-! ## The first table is as it should be -/

end Production

namespace SymbolTable

theorem valid_empty : ({} : SymbolTable).Valid where
  bound_lt id hbound := by
    obtain ⟨scope, hmem⟩ := hbound
    cases scope <;> simp [SymbolTable.scope, Scope.initial, Scope.entries] at hmem
  openScopes_lt scope hmem := by simp at hmem
  scopes_pos := by simp
  parameters id routine hroutine := by
    simp [SymbolTable.entry, Entry.routine?, Definition.routine?] at hroutine
  kinds id := by simp [SymbolTable.entry, Entry.kind, Definition.kind]

theorem Valid.enterPredefined {table : SymbolTable} (h : table.Valid) (scalar : Scalar) :
    (table.enterPredefined scalar).Valid := by
  unfold SymbolTable.enterPredefined SymbolTable.enterLocal
  cases table.lookupLocal scalar.name with
  | some taken => exact h
  | none =>
      refine (h.bindNew _).modifyEntry (fun hkind => ?_) (by simp [Entry.kind, Definition.kind])
        fun routine hroutine => ?_
      · simp [entry_bindNew, Entry.kind, Definition.kind] at hkind
      · simp [Entry.routine?, Definition.routine?] at hroutine

theorem valid_predefined : predefined.Valid := by
  have hfold (scalars : List Scalar) {table : SymbolTable} (h : table.Valid) :
      (scalars.foldl enterPredefined table).Valid := by
    induction scalars generalizing table with
    | nil => exact h
    | cons scalar rest ih => exact ih (h.enterPredefined scalar)
  exact hfold _ valid_empty

theorem namesTypes_predefined : predefined.NamesTypes where
  global word hword := by
    have hall : ∀ word ∈ scalarNames, ((predefined.scope globalScope).get? word).any
        (fun id => (predefined.entry id).kind == .type) = true := by decide +kernel
    have hword := hall word hword
    cases hget : (predefined.scope globalScope).get? word with
    | none => simp [hget] at hword
    | some id => exact ⟨id, rfl, by simpa [hget] using hword⟩
  inner word hword scope hscope := by
    have hsize : predefined.scopes.size = 1 := by decide +kernel
    have hout : predefined.scopes.size ≤ scope := by
      rw [hsize]
      exact Nat.pos_of_ne_zero hscope
    simp [SymbolTable.scope, Array.getElem?_eq_none hout, Scope.get?]

/-- Every entry of the first table is a type or the program without a body. -/
theorem body?_unitTable (id : EntryId) :
    (unitTable.entry id).body? = none ∧ (unitTable.entry id).kind ≠ .function := by
  -- there are few entries, so they are checked one by one
  have hall : ∀ entry ∈ unitTable.entries.toList,
      entry.body?.isNone = true ∧ entry.kind ≠ .function := by decide +kernel
  have hentry := forall_entry hall (by decide) id
  simpa using hentry

theorem entry_programId : opened.2.entry programId =
    { name := Text.lower Production.programName, scope := predefined.localScopeId } := by
  have hentry : (predefined.bindNew (Text.lower Production.programName)).entry programId = _ :=
    entry_bindNew _ _
  rwa [if_pos (show programId = predefined.entries.size from rfl)] at hentry

theorem kind_programId : (opened.2.entry programId).kind = .undefined := by
  rw [entry_programId]
  rfl

theorem valid_unitTable : unitTable.Valid := by
  have hnamed := valid_predefined.bindNew (Text.lower Production.programName)
  have hopened : opened.2.Valid :=
    Valid.push ⟨hnamed.bound_lt, hnamed.openScopes_lt, hnamed.scopes_pos, hnamed.parameters,
      hnamed.kinds⟩
  refine hopened.modifyEntry (fun hkind => ?_) (by simp [Entry.kind, Definition.kind])
    fun routine hroutine => ?_
  · simp [kind_programId] at hkind
  · obtain rfl := Option.some.inj hroutine
    simp [HasParameters]

theorem namesTypes_unitTable : unitTable.NamesTypes := by
  have hname : Text.lower Production.programName ∉ scalarNames := by decide +kernel
  have hnamed := namesTypes_predefined.bindNew hname
  have hopened : opened.2.NamesTypes := NamesTypes.push ⟨hnamed.global, hnamed.inner⟩
  exact hopened.modifyEntry fun hkind => by simp [kind_programId] at hkind

theorem hosts_unitTable (accepted : Prop) : unitTable.Hosts accepted programId where
  lt := by decide +kernel
  kind := by decide +kernel
  stage := by decide +kernel
  body body hbody := by simp [(body?_unitTable programId).1] at hbody
  sound := {
    bodies := fun id body hbody => by simp [(body?_unitTable id).1] at hbody
    functions := fun _ id hkind => absurd hkind (body?_unitTable id).2 }

end SymbolTable

/-! ## Units -/

/-- What can be checked of an answer is so if it has been checked. -/
theorem exists_answer {ε α : Type} {outcome : Except ε α} {holds : α → Prop} [DecidablePred holds]
    (h : outcome.toOption.any (fun answer => decide (holds answer)) = true) :
    ∃ answer, outcome = .ok answer ∧ holds answer := by
  cases outcome with
  | error cause => simp [Except.toOption] at h
  | ok answer => exact ⟨answer, rfl, by simpa [Except.toOption] using h⟩

/-- What can be checked of the answer to a source text is so if it has been checked. -/
theorem exists_compiled {source : String} {holds : CompilationUnit → Prop} [DecidablePred holds]
    (h : (compileText source).toOption.any (fun unit => decide (holds unit)) = true) :
    ∃ unit, compileText source = .ok unit ∧ holds unit :=
  exists_answer h

/-- A compilation starts at the first token, which is reported if it is none, and with an empty table. -/
theorem Session.start_eq {stream : TokenStream} {cursor : Cursor}
    (h : Cursor.start stream = .ok cursor) :
    Session.start stream = .ok { cursor, diagnostics := cursor.current.reports } := by
  have hflag : Production.flagScanError { cursor } =
      .ok ((), { cursor, diagnostics := cursor.current.reports }) := by
    have hcurrent : Production.current { cursor } = .ok (cursor.current, { cursor }) := rfl
    rw [Production.flagScanError, Production.bind_of_ok hcurrent, Token.reports]
    cases cursor.current.scanError? <;> rfl
  rw [Session.start, h]
  exact congrArg (Except.map Prod.snd) hflag

theorem Session.start_cases {stream : TokenStream} {session : Session}
    (h : Session.start stream = .ok session) :
    Cursor.start stream = .ok session.cursor ∧ session.table = {} ∧
      session.diagnostics = session.cursor.current.reports := by
  cases hcursor : Cursor.start stream with
  | error cause => simp [Session.start, hcursor] at h
  | ok cursor =>
      rw [Session.start_eq hcursor] at h
      obtain rfl := Except.ok.inj h
      exact ⟨rfl, rfl, rfl⟩

/-- A session from which the items of a unit can be taken. -/
theorem lawful_unitTable {known : Token → Prop} {session : Session}
    (hknown : ∀ token, session.cursor.Answers (.ok token) → known token) :
    Session.Lawful known { session with table := SymbolTable.unitTable } where
  supplied := hknown
  valid := SymbolTable.valid_unitTable
  names _ := SymbolTable.namesTypes_unitTable

namespace Production

/-- The items of a unit leave a sound table, and are taken up to the end of the file. -/
theorem traced_items {known : Token → Prop} {session : Session} (hlawful : session.Lawful known)
    (hhosts : session.Hosts SymbolTable.programId) :
    Traced known .topLevel items session fun _ later =>
      later.table.Sound (later.diagnostics = []) ∧ later.cursor.current.isEnd = true := by
  unfold items
  have hloop : Traced known .topLevel (loop (fun _ => nextItem SymbolTable.programId) ()) session
      fun _ later => later.Hosts SymbolTable.programId ∧ later.cursor.current.isEnd = true :=
    .loop (fun _ later => later.Hosts SymbolTable.programId) hlawful hhosts
      fun _ _ _ hlater hhosts => traced_nextItem hlater hhosts
  refine hloop.bind fun _ ended _ hended h => ?_
  refine (Traced.of_step rfl hended (.reshape rfl .pop)).bind fun _ final _ hfinal hpop =>
    .pure hfinal ?_
  obtain ⟨-, rfl⟩ := hpop
  exact ⟨h.1.sound.of_grows hended.valid .pop fun hclean => hclean, h.2⟩

end Production

/-- A compilation that comes to its end has started in a session, run the unit, and gives what the session holds
that is left. -/
theorem compile_run {stream : TokenStream} {unit : CompilationUnit} (h : compile stream = .ok unit) :
    ∃ session later, Session.start stream = .ok session ∧
      Production.unit session = .ok (unit.program, later) ∧
        unit = { table := later.table, program := unit.program, diagnostics := later.diagnostics,
                 lineCount := later.cursor.current.line } := by
  unfold compile at h
  cases hstart : Session.start stream with
  | error cause => simp [hstart, bind, Except.bind] at h
  | ok session =>
      cases hunit : Production.unit session with
      | error cause => simp [hstart, hunit, bind, Except.bind] at h
      | ok outcome =>
          obtain ⟨program, later⟩ := outcome
          simp only [hstart, hunit, bind, Except.bind, pure, Except.pure, Except.ok.injEq] at h
          subst h
          exact ⟨session, later, rfl, hunit, rfl⟩

/-- The table and the errors are those of the session that is left. -/
theorem compile_cases {stream : TokenStream} {unit : CompilationUnit}
    (h : compile stream = .ok unit) :
    ∃ session later, Session.start stream = .ok session ∧
      Production.unit session = .ok (unit.program, later) ∧ later.table = unit.table ∧
        later.diagnostics = unit.diagnostics := by
  obtain ⟨session, later, hstart, hunit, heq⟩ := compile_run h
  exact ⟨session, later, hstart, hunit, by rw [heq], by rw [heq]⟩

/-- What is traced of the items of a unit holds of what a compilation that comes to its end gives. -/
theorem compile_traced {known : Token → Prop} {stream : TokenStream} {unit : CompilationUnit}
    {post : EntryId → Session → Prop} (h : compile stream = .ok unit)
    (hitems : ∀ session, Session.start stream = .ok session →
      Production.Traced known .topLevel Production.items
        { session with table := SymbolTable.unitTable } post) :
    ∃ session later, Session.start stream = .ok session ∧
      Steps known .topLevel { session with table := SymbolTable.unitTable } later ∧
        later.Lawful known ∧ post unit.program later ∧ later.table = unit.table ∧
          later.diagnostics = unit.diagnostics := by
  obtain ⟨session, later, hstart, hunit, htable, hdiagnostics⟩ := compile_cases h
  have hrun := hitems session hstart
  rw [Production.unit_eq_items (Session.start_cases hstart).2.1] at hunit
  rw [Production.Traced, Production.leads_of_ok hunit] at hrun
  obtain ⟨hsteps, hlawful, hpost⟩ := hrun
  exact ⟨session, later, hstart, hsteps, hlawful, hpost, htable, hdiagnostics⟩

/-- Whatever is compiled leaves a valid table, and a sound one. -/
theorem compile_sound {stream : TokenStream} {unit : CompilationUnit}
    (h : compile stream = .ok unit) :
    unit.table.Valid ∧ unit.table.Sound (unit.diagnostics = []) := by
  obtain ⟨session, later, -, -, hlawful, hitems, htable, hdiagnostics⟩ :=
    compile_traced h fun session _ => by
      have hlawful : Session.Lawful (fun _ => True)
          { session with table := SymbolTable.unitTable } := lawful_unitTable fun _ _ => trivial
      exact Production.traced_items hlawful (SymbolTable.hosts_unitTable _)
  rw [← htable, ← hdiagnostics]
  exact ⟨hlawful.valid, hitems.1⟩

end FrontEnd
