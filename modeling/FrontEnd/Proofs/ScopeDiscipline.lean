import FrontEnd.Proofs.Frame
import FrontEnd.Proofs.Integrity

/-!
# The discipline of scopes

Scopes are opened and closed in two places: around the whole of a unit and around the header and the body of
a routine, with errors in them or without.  So whatever a production does, the scopes that were open before
are open after it (`Grammatical.sameScopes`).

What the calls of the production for routines do to scopes is said of each (`Call.Disciplined`): a call binds
at most the name of its routine in the scope around it, and all else in a scope of its own.  Since routines do
not nest, the scopes of a unit are the global one, that of the program and one for each call, in order
(`compile_scopes`).

## Strategy

A production that stays in its scope makes moves only, and no move touches the open scopes.  What is left are
the productions around routines, which are taken apart into what enters a scope, what is done inside and what
leaves it.
-/

namespace FrontEnd

namespace Session

/-- Whether the same scopes are open. -/
def SameScopes (session later : Session) : Prop :=
  later.table.openScopes = session.table.openScopes

/-- Whether one scope more is open. -/
def EntersScope (session later : Session) : Prop :=
  ∃ scope, later.table.openScopes = scope :: session.table.openScopes

/-- Whether the innermost scope has been closed, if there was one. -/
def LeavesScope (session later : Session) : Prop :=
  ∀ scope outer, session.table.openScopes = scope :: outer → later.table.openScopes = outer

instance : Std.Refl SameScopes := ⟨fun _ => rfl⟩

instance : IsTrans Session SameScopes := ⟨fun _ _ _ hfirst hsecond => Eq.trans hsecond hfirst⟩

end Session

namespace Production

open Session

variable {α β : Type} {stores : List DefinitionKind} {owner : EntryId}

/-! ## Productions that leave the open scopes alone -/

theorem Relates.sameScopes {production : Production α} (h : Stays stores owner production) :
    Relates SameScopes production :=
  h.mono fun _ _ hmoves => hmoves.openScopes

theorem Relates.sameScopes_of_reads {production : Production α} (h : Relates Reads production) :
    Relates SameScopes production :=
  h.mono fun _ _ hreads => congrArg SymbolTable.openScopes hreads.table_eq

theorem sameScopes_changeTable {change : SymbolTable → SymbolTable}
    (h : ∀ table, (change table).openScopes = table.openScopes) :
    Relates SameScopes (changeTable change) := by
  refine ⟨fun session => ?_⟩
  exact h session.table

theorem sameScopes_changeEntry (id : EntryId) (change : Entry → Entry) :
    Relates SameScopes (changeEntry id change) := by
  refine ⟨fun session => ?_⟩
  rfl

theorem sameScopes_ensure (holds : Bool) (token : Token) (kind : ErrorKind) :
    Relates SameScopes (ensure holds token kind) := by
  cases holds with
  | true => exact .pure ()
  | false =>
      refine ⟨fun session => ?_⟩
      rfl

theorem openScopes_enterInvented (table : SymbolTable) (name : String) :
    (table.enterInvented name).openScopes = table.openScopes := by
  unfold SymbolTable.enterInvented
  split <;> rfl

theorem sameScopes_enterOrDetach (name : String) : Relates SameScopes (enterOrDetach name) := by
  refine ⟨fun session => ?_⟩
  rw [leads_enterOrDetach]
  exact openScopes_enterInvented session.table name

/-- A scope that a production enters is left again. -/
theorem Relates.within_scope {opening : Production α} {inside : α → Production β}
    (h : Relates EntersScope opening) (hinside : ∀ answer, Relates LeavesScope (inside answer)) :
    Relates SameScopes (opening >>= inside) := by
  refine h.comp hinside ?_
  rintro session between later ⟨scope, hentered⟩ hleft
  exact hleft scope session.table.openScopes hentered

/-- The innermost scope is still that which is left later. -/
theorem Relates.then_leaves {production : Production α} {next : α → Production β}
    (h : Relates SameScopes production) (hnext : ∀ answer, Relates LeavesScope (next answer)) :
    Relates LeavesScope (production >>= next) := by
  refine h.comp hnext ?_
  intro session between later hsame hleft scope outer hopen
  exact hleft scope outer (Eq.trans hsame hopen)

theorem leavesScope_pop (answer : α) :
    Relates LeavesScope (do
      let _ ← onTable (·.pop)
      return answer) := by
  refine ⟨fun session scope outer hopen => ?_⟩
  simp [hopen]

theorem spansExpressions_sameScopes : SpansExpressions SameScopes :=
  .of_reads (fun _ _ hreads => congrArg SymbolTable.openScopes hreads.table_eq)
    (Relates.sameScopes (@stays_resolveIdentifier [] SymbolTable.programId))
    fun id _ => sameScopes_changeEntry id _

theorem spansStatements_sameScopes (routine : EntryId) : SpansStatements routine SameScopes where
  toSpansExpressions := spansExpressions_sameScopes
  storage := Relates.sameScopes (@stays_variableDeclaration routine)
  constants := Relates.sameScopes (@stays_constants [] routine)
  target _ _ := rfl
  braces hnested session _ :=
    (hnested.compoundOf fun _ _ hreads => congrArg SymbolTable.openScopes hreads.table_eq).leads session

/-! ## Routines -/

theorem sameScopes_routineKind : Relates SameScopes routineKind := by
  have hinvent (stem : String) : Relates SameScopes (inventName stem) := by
    refine ⟨fun session => ?_⟩
    rfl
  refine (Relates.read _).bind fun kind => ?_
  split
  · exact reads_nextToken.sameScopes_of_reads.bind fun _ => (hinvent _).bind fun _ => .pure _
  · exact (hinvent _).bind fun _ => .pure _
  · exact .pure _

theorem sameScopes_routineName (invented : String) : Relates SameScopes (routineName invented) := by
  refine ⟨fun session => ?_⟩
  refine (names_routineName invented session).imp fun _ later hnames => ?_
  cases hnames with
  | reused hkind hlocal hforward hreads | entered hkind hlocal hreads =>
      rw [SameScopes, hreads.table_eq]
      rfl
  | taken hkind hlocal hforward hreads | missing hkind hreads =>
      rw [SameScopes, openScopes_enterInvented]

/-- To open a routine enters its scope. -/
theorem entersScope_openRoutine (parent id : EntryId) (kind : DefinitionKind) (forwarded : Bool) :
    Relates EntersScope (openRoutine parent id kind forwarded) := by
  have hopen : Relates EntersScope (openScope id) := by
    refine ⟨fun session => ?_⟩
    exact ⟨session.table.scopes.size, rfl⟩
  have hbegin : Relates SameScopes (beginProgram id) := by
    refine (Relates.read _).bind fun table => (Relates.forM (fun program => ?_) _).bind fun _ => ?_
    · exact sameScopes_changeEntry program _
    · refine ⟨fun session => ?_⟩
      rfl
  have hplace (isMain : Bool) : Relates SameScopes (do
      if isMain then beginProgram id
      else if !forwarded then
        changeRoutine parent fun known => { known with routines := known.routines ++ [id] }) :=
    .ite hbegin (.ite (sameScopes_changeEntry parent _) (.pure _))
  have hopened (isMain : Bool) : Relates EntersScope (do
      openScope id
      if isMain then beginProgram id
      else if !forwarded then
        changeRoutine parent fun known => { known with routines := known.routines ++ [id] }) := by
    refine hopen.comp (fun _ => hplace isMain) ?_
    rintro session between later ⟨scope, hentered⟩ hsame
    exact ⟨scope, Eq.trans hsame hentered⟩
  refine ⟨fun session => ?_⟩
  exact (hopened _).leads session

theorem sameScopes_header (id : EntryId) (kind : DefinitionKind) (type : Option DataType) :
    Relates SameScopes (header id kind type) :=
  spansExpressions_sameScopes.header (fun _ => sameScopes_changeEntry id _) (fun _ => sameScopes_changeEntry id _)
    (Relates.sameScopes (@stays_typedParameter id)) kind type

/-- A routine closes the scope that it opens. -/
theorem sameScopes_routine (parent : EntryId) (type : Option DataType) :
    Relates SameScopes (routine parent type) := by
  refine sameScopes_routineKind.bind fun ⟨kind, invented⟩ => ?_
  refine (sameScopes_routineName invented).bind fun ⟨id, forwarded⟩ => ?_
  refine (Relates.markRoutine (sameScopes_changeEntry id) kind forwarded).bind fun _ => ?_
  refine (entersScope_openRoutine parent id kind forwarded).within_scope fun _ => ?_
  have hread : Relates SameScopes current := Relates.read _
  refine hread.then_leaves fun token => ?_
  refine (sameScopes_ensure _ token _).then_leaves fun _ => ?_
  refine (sameScopes_header id kind type).then_leaves fun _ => ?_
  have hbody : Relates SameScopes (bodyOrForward id) :=
    (spansStatements_sameScopes id).bodyOrForward fun _ => sameScopes_changeEntry id _
  exact hbody.then_leaves fun _ => leavesScope_pop ()

/-! ## Units -/

theorem spansItems_sameScopes (program : EntryId) : SpansItems program SameScopes where
  toSpansStatements := spansStatements_sameScopes program
  global type := Relates.sameScopes (@stays_variableName program type)
  types := Relates.sameScopes (@stays_typeDefinition [] program)
  routine := sameScopes_routine program
  append _ := sameScopes_changeEntry program _

theorem sameScopes_nextItem (program : EntryId) : Relates SameScopes (nextItem program) :=
  (spansItems_sameScopes program).nextItem fun _ _ hreads => congrArg SymbolTable.openScopes hreads.table_eq

theorem openScopes_enterPredefinedTypes (table : SymbolTable) :
    table.enterPredefinedTypes.openScopes = table.openScopes := by
  have hone (table : SymbolTable) (scalar : Scalar) :
      (table.enterPredefined scalar).openScopes = table.openScopes := by
    unfold SymbolTable.enterPredefined SymbolTable.enterLocal
    cases table.lookupLocal scalar.name <;> rfl
  simp [SymbolTable.enterPredefinedTypes, hone]

/-- A unit closes the scope of the program. -/
theorem sameScopes_unit : Relates SameScopes unit := by
  have hprogram (program : EntryId) :
      Relates SameScopes (changeTable fun table => { table with program := some program }) :=
    sameScopes_changeTable fun _ => rfl
  have hpush : Relates EntersScope (onTable (·.push)) := by
    refine ⟨fun session => ?_⟩
    exact ⟨session.table.scopes.size, rfl⟩
  refine (sameScopes_changeTable openScopes_enterPredefinedTypes).bind fun _ => ?_
  refine (sameScopes_enterOrDetach programName).bind fun program => ?_
  refine (hprogram program).bind fun _ => hpush.within_scope fun scope => ?_
  refine (sameScopes_changeEntry program _).then_leaves fun _ => ?_
  refine (Relates.loop (fun _ => sameScopes_nextItem program) ()).then_leaves fun _ => ?_
  exact leavesScope_pop program

/-! ## The grammar -/

/-- The productions for what stands inside an expression. -/
inductive InExpression : Production Node → Prop
  | expression : InExpression expression
  | expressionWithin (depth : Nat) : InExpression (expressionWithin depth)

/-- The productions for what stands inside a statement of a routine. -/
inductive InStatement (routine : EntryId) : Production Node → Prop
  | statement : InStatement routine (statement routine)
  | statementWithin (depth : Nat) : InStatement routine (statementWithin routine depth)

/-- The productions of the grammar. -/
inductive Grammatical : {α : Type} → Production α → Prop
  | unit : Grammatical unit
  | nextItem (program : EntryId) : Grammatical (nextItem program)
  | item (program : EntryId) : Grammatical (item program)
  | programStatement (program : EntryId) : Grammatical (programStatement program)
  | declaration (program : EntryId) : Grammatical (declaration program)
  | variablesOrFunction (parent : EntryId) :
      Grammatical (variablesOrFunction fun type => routine parent (some type))
  | routine (parent : EntryId) (type : Option DataType) : Grammatical (routine parent type)
  | routineName (invented : String) : Grammatical (routineName invented)
  | header (routine : EntryId) (kind : DefinitionKind) (type : Option DataType) :
      Grammatical (header routine kind type)
  | formalParameters (routine : EntryId) : Grammatical (formalParameters routine)
  | parameter (parameters : List EntryId) : Grammatical (parameter parameters)
  | bodyOrForward (routine : EntryId) : Grammatical (bodyOrForward routine)
  | typeSpecifier : Grammatical typeSpecifier
  | variableDeclaration : Grammatical variableDeclaration
  | variableName (type : DataType) : Grammatical (variableName type)
  | constants : Grammatical constants
  | constantDefinition (declared : Option DataType) : Grammatical (constantDefinition declared)
  | constantValue : Grammatical constantValue
  | typeDefinition : Grammatical typeDefinition
  | arraySuffix (type : DataType) : Grammatical (arraySuffix type)
  | statement (routine : EntryId) : Grammatical (statement routine)
  | compound (routine : EntryId) : Grammatical (compound routine)
  | identifierStatement : Grammatical identifierStatement
  | assignment : Grammatical assignment
  | condition : Grammatical condition
  | innerStatement {routine : EntryId} {nested : Production Node} : InStatement routine nested →
      Grammatical (innerStatement nested)
  | ifStatement {routine : EntryId} {nested : Production Node} : InStatement routine nested →
      Grammatical (ifStatement nested)
  | whileStatement {routine : EntryId} {nested : Production Node} : InStatement routine nested →
      Grammatical (whileStatement nested)
  | doStatement {routine : EntryId} {nested : Production Node} : InStatement routine nested →
      Grammatical (doStatement nested)
  | returnStatement (routine : EntryId) : Grammatical (returnStatement routine)
  | expression : Grammatical expression
  | operations {nested : Production Node} (levels : List OperatorLevel) : InExpression nested →
      Grammatical (operations (operand nested) levels)
  | operand {nested : Production Node} : InExpression nested → Grammatical (operand nested)
  | factor {nested : Production Node} : InExpression nested → Grammatical (factor nested)
  | identifierFactor {nested : Production Node} : InExpression nested →
      Grammatical (identifierFactor nested)
  | call {nested : Production Node} : InExpression nested → Grammatical (call nested)
  | arguments {nested : Production Node} (formals : List DataType) : InExpression nested →
      Grammatical (arguments nested formals)
  | variableReference : Grammatical variableReference

/-- The entry that a production can give a type without having made it: a header gives one to its function. -/
inductive Retypes (id : EntryId) : {α : Type} → Production α → Prop
  | header (kind : DefinitionKind) (type : Option DataType) : Retypes id (header id kind type)

/-- A header has no answer. -/
theorem Retypes.answer_eq {id : EntryId} {production : Production α} (h : Retypes id production) : α = Unit := by
  cases h
  rfl

/-- Whether a relation holds of whatever a production of the grammar does, unless it is a header: it holds of
moves, of what becomes known about routines, of the naming of a routine, and of items and units. -/
structure SpansGrammar (related : Session → Session → Prop) : Prop where
  moves : ∀ {stores : List DefinitionKind} {owner : EntryId} session later,
    session.Moves stores owner later → related session later
  change : ∀ id change, Relates related (changeRoutine id change)
  name : ∀ invented, Relates related (routineName invented)
  items : ∀ program, SpansItems program related
  unit : Relates related unit

namespace SpansGrammar

variable {related : Session → Session → Prop}

theorem reads (h : SpansGrammar related) (session later : Session) (hreads : session.Reads later) :
    related session later := by
  have hmoves : session.Moves [] SymbolTable.programId later := .single (.read hreads)
  exact h.moves session later hmoves

theorem of_stays (h : SpansGrammar related) {production : Production α} (hstays : Stays stores owner production) :
    Relates related production :=
  hstays.mono h.moves

theorem of_reads (h : SpansGrammar related) {production : Production α} (hreads : Relates Reads production) :
    Relates related production :=
  hreads.mono h.reads

variable [Std.Refl related] [IsTrans Session related]

theorem inExpression (h : SpansGrammar related) {nested : Production Node} (hnested : InExpression nested) :
    Relates related nested := by
  have spans := (h.items SymbolTable.programId).toSpansExpressions
  cases hnested with
  | expression => exact spans.expression
  | expressionWithin depth => exact spans.expressionWithin depth

theorem inStatement (h : SpansGrammar related) {routine : EntryId} {nested : Production Node}
    (hnested : InStatement routine nested) : Relates related nested := by
  have spans := (h.items routine).toSpansStatements
  cases hnested with
  | statement => exact spans.statement
  | statementWithin depth => exact spans.statementWithin depth

/-- Whatever a production of the grammar does, the relation holds of it, unless the production is a header. -/
theorem relates (h : SpansGrammar related) {production : Production α} (hproduction : Grammatical production) :
    Relates related production ∨ ∃ id, Retypes id production := by
  -- inside a scope it does not matter what is stored, or for which routine
  have plain {α : Type} {production : Production α} (hstays : Stays [] SymbolTable.programId production) :
      Relates related production := h.of_stays hstays
  have spans := (h.items SymbolTable.programId).toSpansExpressions
  have unexpected (session : Session) : Leads (flag .unexpectedToken) session (fun _ => True)
      fun _ later => related session later := (h.of_reads (reads_flag rfl)).leads session
  cases hproduction with
  | header routine kind type => exact Or.inr ⟨routine, .header kind type⟩
  | unit => exact Or.inl h.unit
  | nextItem program => exact Or.inl ((h.items program).nextItem h.reads)
  | item program => exact Or.inl (h.items program).item
  | programStatement program => exact Or.inl (h.items program).programStatement
  | declaration program => exact Or.inl (h.items program).declaration
  | variablesOrFunction parent => exact Or.inl (h.items parent).variablesOrFunction
  | routine parent type => exact Or.inl ((h.items parent).routine type)
  | routineName invented => exact Or.inl (h.name invented)
  | formalParameters routine =>
      exact Or.inl ((h.of_stays (@stays_enclosedParameters routine)).bind fun _ => h.change routine _)
  | parameter parameters => exact Or.inl (h.of_stays (@stays_parameter SymbolTable.programId parameters))
  | bodyOrForward routine => exact Or.inl ((h.items routine).bodyOrForward (h.change routine))
  | typeSpecifier => exact Or.inl (plain stays_typeSpecifier)
  | variableDeclaration => exact Or.inl (h.of_stays (@stays_variableDeclaration SymbolTable.programId))
  | variableName type => exact Or.inl (h.of_stays (@stays_variableName SymbolTable.programId type))
  | constants => exact Or.inl (plain stays_constants)
  | constantDefinition declared => exact Or.inl (plain (stays_constantDefinition declared))
  | constantValue => exact Or.inl (h.of_reads reads_constantValue)
  | typeDefinition => exact Or.inl (plain stays_typeDefinition)
  | arraySuffix type => exact Or.inl (plain (stays_arraySuffix type))
  | statement routine => exact Or.inl (h.of_stays (stays_statement routine))
  | compound routine => exact Or.inl (h.of_stays (stays_compound routine))
  | identifierStatement => exact Or.inl ⟨fun session => spans.identifierStatement (unexpected session)⟩
  | assignment => exact Or.inl spans.assignment
  | condition => exact Or.inl spans.condition
  | innerStatement hnested => exact Or.inl (spans.innerStatement (h.inStatement hnested))
  | ifStatement hnested => exact Or.inl (spans.ifStatement (h.inStatement hnested))
  | whileStatement hnested => exact Or.inl (spans.whileStatement (h.inStatement hnested))
  | doStatement hnested => exact Or.inl (spans.doStatement (h.inStatement hnested))
  | returnStatement routine => exact Or.inl (h.items routine).returnStatement
  | expression => exact Or.inl spans.expression
  | operations levels hnested =>
      exact Or.inl (spans.operations (spans.operand (h.inExpression hnested)) levels)
  | operand hnested => exact Or.inl (spans.operand (h.inExpression hnested))
  | factor hnested => exact Or.inl (spans.factor (h.inExpression hnested))
  | identifierFactor hnested =>
      exact Or.inl ⟨fun session => spans.identifierFactor (h.inExpression hnested) (unexpected session)⟩
  | call hnested => exact Or.inl (spans.call (h.inExpression hnested))
  | arguments formals hnested => exact Or.inl (spans.arguments (h.inExpression hnested) formals)
  | variableReference => exact Or.inl spans.variableReference

end SpansGrammar

theorem spansGrammar_sameScopes : SpansGrammar SameScopes where
  moves _ _ hmoves := hmoves.openScopes
  change id _ := sameScopes_changeEntry id _
  name := sameScopes_routineName
  items := spansItems_sameScopes
  unit := sameScopes_unit

/-- Whatever a production of the grammar does, it leaves the open scopes as it finds them. -/
theorem Grammatical.sameScopes {production : Production α} (h : Grammatical production) :
    Relates SameScopes production := by
  rcases spansGrammar_sameScopes.relates h with hrelates | ⟨id, hheader⟩
  · exact hrelates
  · cases hheader with
    | header kind type => exact sameScopes_header id kind type

end Production

/-! ## Calls -/

/-- Whether a call keeps to its scope: it compiles a procedure or a function, never a program; the scope
around it gets at most one binding, of the name of the routine or of one that is invented for it, and other
scopes none; and whatever else is entered is entered in the scope that the call opens for its routine, where
all of it but the targets of returns is bound. -/
structure Call.Disciplined (call : Call) : Prop where
  callable : call.kind ∈ DefinitionKind.callables
  openScopes : call.after.table.openScopes = call.before.table.openScopes
  scopes : call.after.table.scopes.size = call.before.table.scopes.size + 1
  frame : (call.after.table.entry call.id).frame? = some call.before.table.scopes.size
  around : call.after.table.localScope = call.before.table.localScope ∨
    ∃ key ∈ [Text.lower call.name.text, Text.lower call.invented],
      call.before.table.localScope.get? key = none ∧
        call.after.table.localScope = call.before.table.localScope.bind key call.id
  elsewhere : ∀ scope < call.before.table.scopes.size, scope ≠ call.before.table.localScopeId →
    call.after.table.scope scope = call.before.table.scope scope
  inside : call.after.table.Confines call.before.table.entries.size call.id
    call.before.table.scopes.size

theorem Call.Made.disciplined {known : Token → Prop} {program : EntryId} {call : Call}
    (h : call.Made known program) (himproper : Improper known) : call.Disciplined where
  callable := h.opens.callable
  openScopes := (h.openScopes himproper).1
  scopes := h.scopes_size himproper
  frame := h.frame himproper
  around := by
    have henters := h.enters
    have hlocal : call.after.table.localScope = call.named.table.localScope := by
      rw [SymbolTable.localScope, SymbolTable.localScopeId, (h.openScopes himproper).1,
        ← henters.openScopes]
      refine h.scope_eq himproper ?_
      rw [henters.openScopes]
      exact h.lawful.valid.localScopeId_lt
    rw [hlocal]
    exact henters.here
  elsewhere := by
    intro scope hscope hne
    rw [h.scope_eq himproper hscope]
    exact h.enters.elsewhere scope hne
  inside := h.confines himproper

/-! ## Units -/

/-- The levels of the scopes of a table, given the level of each. -/
theorem SymbolTable.levels_eq {table : SymbolTable} {levels : List Nat}
    (hsize : table.scopes.size = levels.length)
    (hlevel : ∀ scope level, levels[scope]? = some level → (table.scope scope).level = level) :
    table.scopes.toList.map Scope.level = levels := by
  apply List.ext_getElem?
  intro scope
  rw [List.getElem?_map, Array.getElem?_toList]
  by_cases hlt : scope < table.scopes.size
  · have hfound := hlevel scope _ (List.getElem?_eq_getElem (hsize ▸ hlt))
    rw [SymbolTable.scope, Array.getElem?_eq_getElem hlt, Option.getD_some] at hfound
    rw [Array.getElem?_eq_getElem hlt, List.getElem?_eq_getElem (hsize ▸ hlt), Option.map_some, hfound]
  · rw [Array.getElem?_eq_none (Nat.le_of_not_lt hlt),
      List.getElem?_eq_none (hsize ▸ Nat.le_of_not_lt hlt)]
    rfl

/-- The scopes of a unit, given the calls of the production for routines: each call has kept to its scope,
and beside the global scope and that of the program, one level below it, there is a scope for each call, in
order and one level below that of the program.  Only the global scope is open, and the program is the only
entry of its kind. -/
structure CompilationUnit.HasScopes (unit : CompilationUnit) (calls : List Call) : Prop where
  disciplined : ∀ before call after, calls = before ++ call :: after →
    call.Disciplined ∧ call.before.table.scopes.size = 2 + before.length
  closed : unit.table.openScopes = []
  levels : unit.table.scopes.toList.map Scope.level = 0 :: 1 :: (calls.map fun _ => 2)
  program : ∀ id, (unit.table.entry id).kind = .program ↔ id = unit.program
  frame : (unit.table.entry unit.program).frame? = some 1

/-- Every production leaves the open scopes as it finds them, and the calls of the production for routines
that lead to a compiled unit have given it its scopes. -/
theorem compile_scopes {stream : TokenStream} {unit : CompilationUnit} (h : compile stream = .ok unit) :
    (∀ {α : Type} {production : Production α} {session later : Session} {answer : α},
      production.Grammatical → production session = .ok (answer, later) →
        later.table.openScopes = session.table.openScopes) ∧
    ∃ session calls ended, Session.start stream = .ok session ∧
      History (fun _ => True) unit.program { session with table := SymbolTable.unitTable } calls ended ∧
        unit.table = ended.table.pop.2 ∧ unit.HasScopes calls := by
  refine ⟨fun hgrammatical hrun => hgrammatical.sameScopes.of_run hrun, ?_⟩
  obtain ⟨session, calls, ended, hstart, hhistory, hprogram, htable, -⟩ := compile_history h
  have hscope (scope : ScopeId) : unit.table.scope scope = ended.table.scope scope := by
    rw [htable, SymbolTable.scope_pop]
  refine ⟨session, calls, ended, hstart, hprogram ▸ hhistory, htable, ?_⟩
  constructor
  case disciplined =>
    intro before call after hcalls
    exact ⟨(hhistory.split hcalls).2.1.disciplined improper_any, (hhistory.framed_unit improper_any hcalls).1⟩
  case closed =>
    rw [htable, SymbolTable.pop, (hhistory.openScopes improper_any).1]
    simp [SymbolTable.openScopes_unitTable]
  case levels =>
    refine SymbolTable.levels_eq ?_ fun scope level hlevel => ?_
    · rw [htable, SymbolTable.scopes_pop, hhistory.scopes_size_unit improper_any]
      simp only [List.length_cons, List.length_map]
      omega
    rw [hscope]
    rcases scope with _ | _ | number
    · obtain rfl := Option.some.inj hlevel
      exact (hhistory.framed_outer improper_any).1.level
    · obtain rfl := Option.some.inj hlevel
      exact (hhistory.framed_outer improper_any).2.level
    · -- a call opens the scope with its own number
      simp only [List.getElem?_cons_succ, List.getElem?_map, Option.map_eq_some_iff] at hlevel
      obtain ⟨call, hcall, rfl⟩ := hlevel
      obtain ⟨hlt, rfl⟩ := List.getElem?_eq_some_iff.mp hcall
      have hcalls : calls = calls.take number ++ calls[number] :: calls.drop (number + 1) := by
        rw [List.getElem_cons_drop, List.take_append_drop]
      have hframed := (hhistory.framed_unit improper_any hcalls).2
      rw [List.length_take, Nat.min_eq_left (Nat.le_of_lt hlt), Nat.add_comm] at hframed
      exact hframed.level
  case program =>
    obtain ⟨home, hkept⟩ := compile_kept h
    exact hkept.roster.sole
  case frame => exact frame_program h

/-- The function `f` is declared twice, so the second header gets an invented name; both leave names
undefined in scopes of their own. -/
theorem compile_scopes_twice :
    ∃ unit, compileText "int f(int a) \x7b return b; \x7d int f() \x7b c = 1; \x7d" = .ok unit ∧
      (unit.table.scope 1).bindings.map Prod.fst = ["f", "dummyfunctionname_002"] ∧
      (unit.table.scope 2).bindings.map Prod.fst = ["a", "b"] ∧
      (unit.table.scope 3).bindings.map Prod.fst = ["c"] ∧
      ∃ session calls ended,
        Session.start (Scanner.stream
          (.ofText "int f(int a) \x7b return b; \x7d int f() \x7b c = 1; \x7d")) = .ok session ∧
        History (fun _ => True) unit.program { session with table := SymbolTable.unitTable } calls ended ∧
          unit.table = ended.table.pop.2 ∧ unit.HasScopes calls := by
  have hcompiled : ∃ unit,
      compileText "int f(int a) \x7b return b; \x7d int f() \x7b c = 1; \x7d" = .ok unit ∧
        (unit.table.scope 1).bindings.map Prod.fst = ["f", "dummyfunctionname_002"] ∧
          (unit.table.scope 2).bindings.map Prod.fst = ["a", "b"] ∧
            (unit.table.scope 3).bindings.map Prod.fst = ["c"] := exists_compiled (by decide +kernel)
  obtain ⟨unit, hunit, hprogram, hfirst, hsecond⟩ := hcompiled
  exact ⟨unit, hunit, hprogram, hfirst, hsecond, (compile_scopes hunit).2⟩

end FrontEnd
