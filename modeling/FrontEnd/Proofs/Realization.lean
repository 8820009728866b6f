import FrontEnd.Proofs.Gathering

/-!
# Routines realize their headers

Where the name of a routine is free in the scope of the program, the production for routines reads just the
tokens of the header and of what stands after it, reports nothing, and enters the name with an entry that
realizes the header (`leads_routine`).

After the name the routine is opened (`SymbolTable.Introduces`).  From there on its own scope gathers the
parameters, and afterwards only the entry of the routine is changed (`Redefines`).  So the entry realizes the
header (`Introduces.realizes`), and the scope of the program gains the routine (`Introduces.gains`).
-/

namespace FrontEnd

open Outline

namespace SymbolTable

/-- Whether the later table has a routine of a kind opened, under a name that is entered in the scope of the
program.  Its own scope is empty, and of `main` the first slot is kept. -/
structure Introduces (earlier : SymbolTable) (name : String) (kind : DefinitionKind) (later : SymbolTable) :
    Prop where
  openScopes : later.openScopes = earlier.scopes.size :: earlier.openScopes
  size : later.entries.size = earlier.entries.size + 1
  scopes : later.scopes.size = earlier.scopes.size + 1
  agrees : ∀ id < earlier.entries.size, id ≠ programId → (earlier.entry id).Agrees (later.entry id)
  here : later.scope programScope =
    (earlier.scope programScope).bind (Text.lower name) earlier.entries.size
  elsewhere : ∀ scope < earlier.scopes.size, scope ≠ programScope →
    later.scope scope = earlier.scope scope
  fresh : (later.scope earlier.scopes.size).bindings = []
  first : (later.scope earlier.scopes.size).nextSlot =
    if kind = .function ∧ Text.lower name = Production.mainName then 1 else 0
  definition : (later.entry earlier.entries.size).definition =
    .ofRoutine kind { scope := some earlier.scopes.size }
  type : kind = .procedure → (later.entry earlier.entries.size).type = some .void

variable {table later : SymbolTable} {name : String} {kind : DefinitionKind}

theorem type_marked_procedure {id : EntryId} (hid : id < table.entries.size) (forwarded : Bool) :
    ((table.marked id .procedure forwarded).entry id).type = some .void := by
  rw [marked, if_pos (by decide), entry_modifyEntry_self (by simpa using hid)]

/-- To open a routine and to put it in its place does not change its type. -/
theorem type_placed {program id : EntryId} {isMain forwarded : Bool} (hne : id ≠ program) :
    (((table.entered id).placed program id isMain forwarded).entry id).type = (table.entry id).type := by
  have hpushed : table.push.2.entry id = table.entry id := rfl
  rw [entry_placed_ne hne, entered, modifyRoutine, entry_modifyEntry, hpushed]
  split <;> rfl

/-- The name of a routine is entered, and the routine is opened. -/
theorem introduces_placed (hvalid : table.Valid) (hlocal : table.localScopeId = programScope)
    (hprogram : programId < table.entries.size) (name : String) {kind : DefinitionKind} (line : Nat)
    {named : SymbolTable} (hnamed : named =
      (table.bindNew (Text.lower name)).modifyEntry table.entries.size (·.addLine line)) :
    table.Introduces name kind
      (((named.marked table.entries.size kind false).entered table.entries.size).placed programId
        table.entries.size ((named.entry table.entries.size).beginsProgram kind) false) := by
  have hsize : named.entries.size = table.entries.size + 1 := by simp [hnamed]
  have hscopes : named.scopes.size = table.scopes.size := by simp [hnamed, bindNew, modifyEntry]
  have hscope (scope : ScopeId) : named.scope scope = (table.bindNew (Text.lower name)).scope scope := by
    rw [hnamed]
    rfl
  have hid : table.entries.size < named.entries.size := by
    rw [hsize]
    exact Nat.lt_succ_self _
  have hne : table.entries.size ≠ programId := Nat.ne_of_gt hprogram
  have hother {other : EntryId} (hlt : other < table.entries.size) :
      named.entry other = table.entry other := by
    rw [hnamed, entry_modifyEntry_ne (Nat.ne_of_lt hlt), entry_bindNew, if_neg (Nat.ne_of_lt hlt)]
  have hname : (named.entry table.entries.size).name = Text.lower name := by
    rw [hnamed, entry_modifyEntry_self (by simp), (Entry.agrees_addLine _ _).name, entry_bindNew, if_pos rfl]
  have hwithin : programScope < table.scopes.size := hlocal ▸ hvalid.localScopeId_lt
  have hbegins := begins_placed kind false hid (Nat.lt_trans hprogram hid) hne
  constructor
  case openScopes =>
    rw [hbegins.openScopes, hscopes, hnamed]
    rfl
  case size => rw [hbegins.size, hsize]
  case scopes => rw [hbegins.scopes, hscopes]
  case agrees =>
    intro other hlt hother'
    rw [hbegins.other other (Nat.ne_of_lt hlt) hother', hother hlt]
  case here =>
    rw [hbegins.elsewhere _ (by rw [hscopes]; exact Nat.ne_of_lt hwithin), hscope, scope_bindNew,
      if_pos ⟨hlocal.symm, hwithin⟩]
  case elsewhere =>
    intro scope hlt hother
    rw [hbegins.elsewhere _ (by rw [hscopes]; exact Nat.ne_of_lt hlt), hscope, scope_bindNew,
      if_neg (by rw [hlocal]; exact fun hsame => hother hsame.1)]
  case fresh =>
    rw [← hscopes]
    exact hbegins.fresh
  case first =>
    rw [← hscopes, hbegins.opened, Entry.beginsProgram, hname]
    by_cases hmain : kind = .function ∧ Text.lower name = Production.mainName
    · rw [if_pos (by simpa using hmain), if_pos hmain]
      rfl
    · rw [if_neg (by simpa using hmain), if_neg hmain]
  case definition =>
    rw [hbegins.definition, hscopes]
    rfl
  case type =>
    rintro rfl
    rw [type_placed hne]
    exact type_marked_procedure hid false

/-- A name for a type is one still, unless it is that of the routine. -/
theorem Introduces.denotes {earlier : SymbolTable} (h : earlier.Introduces name kind later)
    (hopen : earlier.openScopes = [programScope]) (hwithin : programScope < earlier.scopes.size)
    (hprogram : (earlier.entry programId).kind = .program) {token : Token} {type : DataType}
    (hdenotes : earlier.Denotes token type) (hname : Text.lower token.text ≠ Text.lower name) :
    later.Denotes token type := by
  obtain ⟨id, hlookup, hshows⟩ := hdenotes
  refine ⟨id, ?_, hshows.of_agrees (h.agrees id (lt_of_type hshows.type) (hshows.ne_program hprogram))⟩
  have hfresh : (later.scope earlier.scopes.size).get? (Text.lower token.text) = none :=
    get?_eq_none (by simp [h.fresh])
  have hhere : (later.scope programScope).get? (Text.lower token.text) =
      (earlier.scope programScope).get? (Text.lower token.text) := by
    rw [h.here]
    simp [Scope.get?, Scope.bind, List.lookup_append, List.lookup_cons, beq_eq_false_iff_ne.mpr hname]
  have hglobal : later.scope globalScope = earlier.scope globalScope :=
    h.elsewhere _ (Nat.lt_of_le_of_lt (Nat.zero_le _) hwithin) (by decide)
  rw [← hlookup, SymbolTable.lookup, SymbolTable.lookup, h.openScopes, hopen]
  simp only [List.cons_append, List.nil_append, List.findSome?_cons, List.findSome?_nil, hfresh, hhere,
    hglobal]

/-- The later table differs in one entry only, which has a definition and a type. -/
structure Redefines (table : SymbolTable) (id : EntryId) (definition : Definition)
    (type : Option DataType) (later : SymbolTable) : Prop where
  lt : id < table.entries.size
  size : later.entries.size = table.entries.size
  other : ∀ other, other ≠ id → later.entry other = table.entry other
  scopes : later.scopes = table.scopes
  openScopes : later.openScopes = table.openScopes
  definition : (later.entry id).definition = definition
  type : (later.entry id).type = type

namespace Redefines

variable {id : EntryId} {routine : Routine} {type : Option DataType}

theorem refl (hid : id < table.entries.size) :
    table.Redefines id (table.entry id).definition (table.entry id).type table :=
  ⟨hid, rfl, fun _ _ => rfl, rfl, rfl, rfl, rfl⟩

theorem modifyRoutine (h : table.Redefines id (.ofRoutine kind routine) type later)
    (hcallable : kind ∈ DefinitionKind.callables) (change : Routine → Routine) :
    table.Redefines id (.ofRoutine kind (change routine)) type (later.modifyRoutine id change) := by
  have hentry : (later.modifyRoutine id change).entry id = (later.entry id).mapRoutine change :=
    entry_modifyEntry_self (by rw [h.size]; exact h.lt) _
  refine ⟨h.lt, by simpa [SymbolTable.modifyRoutine] using h.size, fun other hne => ?_, h.scopes, h.openScopes, ?_, ?_⟩
  · rw [SymbolTable.modifyRoutine, entry_modifyEntry_ne hne, h.other other hne]
  · simp only [DefinitionKind.callables, List.mem_cons, List.not_mem_nil, or_false] at hcallable
    rw [hentry, Entry.mapRoutine, h.definition]
    rcases hcallable with rfl | rfl <;> rfl
  · rw [hentry]
    exact h.type

theorem retype {definition : Definition} (h : table.Redefines id definition type later) (given : DataType) :
    table.Redefines id definition (some given)
      (later.modifyEntry id fun entry => { entry with type := some given }) := by
  have hlt : id < later.entries.size := by
    rw [h.size]
    exact h.lt
  refine ⟨h.lt, by simpa using h.size, fun other hne => ?_, h.scopes, h.openScopes, ?_, ?_⟩
  · rw [entry_modifyEntry_ne hne, h.other other hne]
  · rw [entry_modifyEntry_self hlt]
    exact h.definition
  · rw [entry_modifyEntry_self hlt]

/-- What is not a routine is what it was before the entry of a routine has changed. -/
theorem shows {definition : Definition} (h : table.Redefines id definition type later)
    (hroutine : (table.entry id).routine?.isSome = true) {other : EntryId} {meaning : Definition × DataType}
    (hshows : table.Shows other meaning) : later.Shows other meaning := by
  have hne : other ≠ id := by
    rintro rfl
    rw [Entry.routine?, hshows.definition, hshows.plain] at hroutine
    cases hroutine
  apply hshows.of_agrees
  rw [h.other other hne]

theorem scope_eq {definition : Definition} (h : table.Redefines id definition type later) (scope : ScopeId) :
    later.scope scope = table.scope scope := by
  rw [SymbolTable.scope, h.scopes, SymbolTable.scope]

end Redefines

namespace Introduces

variable {earlier begun headed : SymbolTable} {header : Header} {body : Option Node}

theorem localScopeId_eq (h : earlier.Introduces name kind later) : later.localScopeId = earlier.scopes.size := by
  rw [localScopeId, h.openScopes]
  rfl

theorem lt_size (h : earlier.Introduces name kind later) : earlier.entries.size < later.entries.size := by
  rw [h.size]
  exact Nat.lt_succ_self _

/-- The scope of the routine lists just what it gathers. -/
theorem lists {names : List (String × Definition × DataType)} (h : earlier.Introduces name kind begun)
    (hgathers : begun.Gathers names headed) : headed.Lists headed.Shows earlier.scopes.size names := by
  obtain ⟨added, hbindings, hadded⟩ := hgathers.here
  rw [localScope, localScope, hgathers.localScopeId, h.localScopeId_eq, h.fresh, List.nil_append] at hbindings
  rwa [Lists, hbindings]

/-- The entry of a routine realizes its header when its scope has gathered the parameters and it is
completed. -/
theorem realizes (h : earlier.Introduces name header.kind begun) (hwithin : programScope < earlier.scopes.size)
    (hcallable : header.kind ∈ DefinitionKind.callables) (hgathers : begun.Gathers header.names headed)
    (hdefines : headed.Redefines earlier.entries.size (.ofRoutine header.kind
      { stage := some (if header.hasBody then .declared else .forward), scope := some earlier.scopes.size, body
        parameters := headed.localScope.entries }) (some header.type) later)
    (hbody : if header.hasBody then ∃ line, body = some { kind := .compound, line := some line }
      else body = none) : later.Realizes earlier.entries.size header where
  callable := hcallable
  type := hdefines.type
  definition := by
    have hroutine : (headed.entry earlier.entries.size).routine?.isSome = true := by
      rw [(hgathers.grows.agrees _ h.lt_size).routine?, Entry.routine?, h.definition,
        (Production.kind_ofRoutine hcallable _).2]
      rfl
    refine ⟨earlier.scopes.size, body, hwithin, ?_, ?_, ?_, hbody⟩
    · rw [hdefines.scopes, hgathers.steady.scopes, h.scopes]
      exact Nat.lt_succ_self _
    · rw [hdefines.definition, hdefines.scope_eq, localScope, hgathers.localScopeId, h.localScopeId_eq]
    · apply (h.lists hgathers).imp (by rw [hdefines.scope_eq])
      exact fun other meaning => hdefines.shows hroutine

/-- And the scope of the program has gained the routine then. -/
theorem gains (h : earlier.Introduces name header.kind begun) (hwithin : programScope < earlier.scopes.size)
    (hgathers : begun.Gathers header.names headed) {definition : Definition} {type : Option DataType}
    (hdefines : headed.Redefines earlier.entries.size definition type later)
    (hrealizes : later.Realizes earlier.entries.size header) :
    earlier.Gains [(Text.lower name, .routine header)] later := by
  have hsteady {scope : ScopeId} (hscope : scope < earlier.scopes.size) : later.scope scope = begun.scope scope := by
    rw [hdefines.scope_eq, hgathers.steady.elsewhere _ (by rw [h.localScopeId_eq]; exact Nat.ne_of_lt hscope)]
  have hprogram : later.scope programScope =
      (earlier.scope programScope).bind (Text.lower name) earlier.entries.size := by
    rw [hsteady hwithin, h.here]
  constructor
  case size_le =>
    rw [hdefines.size]
    exact Nat.le_of_lt (Nat.lt_of_lt_of_le h.lt_size hgathers.grows.size_le)
  case agrees =>
    intro id hlt hne
    rw [hdefines.other id (Nat.ne_of_lt hlt)]
    exact (h.agrees id hlt hne).trans (hgathers.grows.agrees id (Nat.lt_trans hlt h.lt_size))
  case scopes_le =>
    rw [hdefines.scopes, hgathers.steady.scopes, h.scopes]
    exact Nat.le_succ _
  case elsewhere =>
    intro scope hlt hne
    rw [hsteady hlt, h.elsewhere scope hlt hne]
  case here => exact ⟨[(Text.lower name, earlier.entries.size)], by rw [hprogram]; rfl, .cons ⟨rfl, hrealizes⟩ .nil⟩
  case nextSlot =>
    rw [hprogram]
    rfl

end Introduces

end SymbolTable

/-- Whether a session differs from another in the cursor only, which faces some tokens, and in the number of
invented names. -/
structure Session.Stands (start : Session) (tokens : List Token) (last : Cursor) (later : Session) :
    Prop where
  faces : later.cursor.Faces tokens last
  table : later.table = start.table
  diagnostics : later.diagnostics = start.diagnostics

namespace Production

variable {session : Session} {token : Token} {tokens rest : List Token} {last : Cursor}

/-! ## Names -/

/-- A procedure begins with the word `void`. -/
theorem leads_routineKind_of_void (h : session.cursor.Faces (token :: tokens) last)
    (hkind : token.kind = .voidWord) :
    Leads routineKind session (fun _ => False) fun answer later =>
      answer.1 = .procedure ∧ session.Stands tokens last later := by
  rw [routineKind, leads_bind, leads_currentKind, h.current_eq, hkind]
  show Leads (do
    let _ ← nextToken
    return (DefinitionKind.procedure, ← inventName procedureNameStem)) _ _ _
  rw [leads_bind]
  apply leads_nextToken_of_faces h
  intro next hnext
  exact ⟨rfl, hnext, rfl, rfl⟩

/-- A function begins with its name, once its type has been read. -/
theorem leads_routineKind_of_identifier (h : session.cursor.Faces (token :: tokens) last)
    (hkind : token.kind = .identifier) :
    Leads routineKind session (fun _ => False) fun answer later =>
      answer.1 = .function ∧ session.Stands (token :: tokens) last later := by
  rw [routineKind, leads_bind, leads_currentKind, h.current_eq, hkind]
  exact ⟨rfl, h, rfl, rfl⟩

theorem leads_routineName {following : Token} {others : List Token} {name invented : String}
    (h : session.cursor.Faces (token :: following :: others) last) (hspells : token.Spells name)
    (hfollowing : following.Is .leftParen) (hfree : session.table.lookupLocal name = none) :
    Leads (routineName invented) session (fun _ => False) fun answer later =>
      answer = (session.table.entries.size, false) ∧ later.cursor.Faces (following :: others) last ∧
        later.table = (session.table.bindNew (Text.lower name)).modifyEntry session.table.entries.size
          (·.addLine token.line) ∧ later.diagnostics = session.diagnostics := by
  unfold routineName givenName
  rw [leads_bind, leads_bind, leads_current, h.current_eq, hspells.kind, if_pos (by decide)]
  simp only [namedRoutine, leads_bind, leads_table, hspells.text, hfree, enterLocal, leads_onTable,
    SymbolTable.enterLocal, Option.map_some, leads_pure]
  show Leads (changeEntry _ _) _ _ _
  rw [leads_changeEntry]
  refine leads_nextToken_of_faces h ?_
  intro next hnext
  have hset : afterRoutineName.contains next.current.kind = true := by
    rw [hnext.current_eq, hfollowing.kind]
    decide
  rw [leads_synchronize_of_contains hset]
  exact ⟨trivial, hnext, rfl, rfl⟩

/-! ## Bodies -/

/-- An empty body makes an empty compound statement. -/
theorem leads_compound {opening closing : Token} {owner : EntryId}
    (h : session.cursor.Faces (opening :: closing :: rest) last) (hclosing : closing.Is .rightBrace) :
    Leads (compound owner) session (fun _ => False) fun answer later =>
      answer = { kind := .compound, line := some opening.line } ∧ session.Stands rest last later := by
  unfold compound compoundOf
  rw [leads_bind, leads_current, h.current_eq, leads_bind]
  apply leads_nextToken_of_faces h
  intro next hnext
  rw [leads_bind, Production.loop, leads_bind, leads_budget, leads_loopWithin_succ, listedStatement,
    leads_bind, leads_current, hnext.current_eq, hclosing.kind]
  rw [if_pos (by simp), leads_pure]
  dsimp only
  rw [leads_bind]
  apply leads_expect_of_faces hnext hclosing.kind
  intro next hnext
  exact ⟨rfl, hnext, rfl, rfl⟩

/-- Where a body stands, or a semicolon, the stage and the body of a routine are recorded. -/
theorem leads_bodyOrForward {hasBody : Bool} {kind : DefinitionKind} {id : EntryId} {routine : Routine}
    {type : Option DataType} {table : SymbolTable} (h : session.cursor.Faces (tokens ++ rest) last)
    (hrenders : EndRenders hasBody tokens) (hcallable : kind ∈ DefinitionKind.callables)
    (hdefines : table.Redefines id (.ofRoutine kind routine) type session.table)
    (hnone : routine.body = none) :
    Leads (bodyOrForward id) session (fun _ => False) fun _ later =>
      (later.cursor.Faces rest last ∧ later.diagnostics = session.diagnostics) ∧
        ∃ body, table.Redefines id (.ofRoutine kind
          { routine with stage := some (if hasBody then .declared else .forward), body }) type later.table ∧
          if hasBody then ∃ line, body = some { kind := .compound, line := some line } else body = none := by
  unfold bodyOrForward
  cases hrenders with
  | @forward mark hmark =>
      rw [leads_bind, leads_currentKind, h.current_eq, hmark.kind]
      show Leads (do
        setStage id .forward
        let _ ← nextToken) _ _ _
      have hstaged : (session.staged id .forward).cursor.Faces ([mark] ++ rest) last := h
      rw [leads_bind]
      show Leads _ (session.staged id .forward) _ _
      rw [leads_bind]
      apply leads_nextToken_of_faces hstaged
      intro next hnext
      refine ⟨⟨hnext, rfl⟩, none, ?_, rfl⟩
      rw [← hnone]
      exact hdefines.modifyRoutine hcallable fun known => { known with stage := some .forward }
  | @body opening closing hopening hclosing =>
      rw [leads_bind, leads_currentKind, h.current_eq, hopening.kind]
      show Leads (do
        setStage id .declared
        let body ← compound id
        changeRoutine id fun known => { known with body := some body }) _ _ _
      have hstaged : (session.staged id .declared).cursor.Faces (opening :: closing :: rest) last := h
      rw [leads_bind]
      show Leads _ (session.staged id .declared) _ _
      rw [leads_bind]
      apply (leads_compound hstaged hclosing).imp
      rintro _ later ⟨rfl, hlater⟩
      refine ⟨⟨hlater.faces, hlater.diagnostics⟩, _, ?_, ⟨opening.line, rfl⟩⟩
      have hdeclared : table.Redefines id (.ofRoutine kind { routine with stage := some .declared }) type
          (session.staged id .declared).table :=
        hdefines.modifyRoutine hcallable fun known => { known with stage := some .declared }
      rw [← hlater.table] at hdeclared
      exact hdeclared.modifyRoutine hcallable fun known =>
        { known with body := some { kind := .compound, line := some opening.line } }

/-! ## Headers -/

/-- The parameters are recorded with their parentheses read, and a function gets its type. -/
theorem leads_header {earlier : SymbolTable} {name : String} {type : Option DataType} {header : Header}
    {parameters : List Parameter} {opening closing : Token}
    (h : session.cursor.Faces (opening :: (tokens ++ closing :: rest)) last)
    (hopening : opening.Is .leftParen) (hrenders : ParametersRender parameters tokens)
    (hclosing : closing.Is .rightParen) (hvalid : session.table.Valid)
    (hintroduces : earlier.Introduces name header.kind session.table)
    (htyped : parameters.mapM Parameter.typed? = some header.parameters)
    (hapart : Apart (parameters.map fun item => Text.lower item.name))
    (hdenotes : ∀ (word : Token) (scalar : Scalar), word.Words scalar → scalar ∈ numbers →
      session.table.Denotes word (.scalar scalar))
    (hheader : (header.kind = .procedure ∧ header.type = .void ∧ header.first = 0) ∨
      (header.kind = .function ∧ type = some header.type ∧ header.type.form = .scalar ∧
        header.first = if Text.lower name = mainName then 1 else 0)) :
    Leads (Production.header earlier.entries.size header.kind type) session (fun _ => False) fun _ later =>
      (later.cursor.Faces rest last ∧ later.diagnostics = session.diagnostics) ∧
        ∃ headed, session.table.Gathers header.names headed ∧
          headed.Redefines earlier.entries.size (.ofRoutine header.kind
            { scope := some earlier.scopes.size, parameters := headed.localScope.entries })
            (some header.type) later.table := by
  have hlocal := hintroduces.localScopeId_eq
  have hnext : session.table.localScope.nextSlot = header.first := by
    rw [SymbolTable.localScope, hlocal, hintroduces.first]
    rcases hheader with ⟨hkind, -, hfirst⟩ | ⟨hkind, -, -, hfirst⟩ <;> rw [hfirst, hkind] <;> simp
  have hempty : session.table.localScope.bindings = [] := by
    rw [SymbolTable.localScope, hlocal, hintroduces.fresh]
  have hcallable : header.kind ∈ DefinitionKind.callables := by
    rcases hheader with ⟨hkind, -⟩ | ⟨hkind, -⟩ <;> rw [hkind] <;> decide
  have hstart : session.Gathers [] (opening :: (tokens ++ closing :: rest)) last session :=
    ⟨h, .refl hvalid, rfl⟩
  unfold Production.header formalParameters
  rw [leads_bind, leads_bind]
  apply (leads_enclosedParameters hstart hopening hrenders hclosing htyped hempty hapart hdenotes).imp
  rintro _ read ⟨rfl, hread⟩
  have hgathers : session.table.Gathers header.names read.table := by
    rw [Header.names, ← hnext]
    exact hread.gathers
  have hagrees := hgathers.grows.agrees earlier.entries.size (by rw [hintroduces.size]; exact Nat.lt_succ_self _)
  have hlt : earlier.entries.size < read.table.entries.size := by
    apply Nat.lt_of_lt_of_le _ hgathers.grows.size_le
    rw [hintroduces.size]
    exact Nat.lt_succ_self _
  have hdefines := SymbolTable.Redefines.refl hlt
  rw [hagrees.definition, hintroduces.definition] at hdefines
  have hrecorded := hdefines.modifyRoutine hcallable fun known =>
    { known with parameters := read.table.localScope.entries }
  rw [leads_changeRoutine]
  rcases hheader with ⟨hkind, htype, -⟩ | ⟨hkind, rfl, hform, -⟩
  · rw [if_neg (by simp [hkind])]
    refine ⟨⟨hread.faces, hread.diagnostics⟩, read.table, hgathers, ?_⟩
    rw [hagrees.type, hintroduces.type hkind, ← htype] at hrecorded
    exact hrecorded
  · rw [if_pos (by simp [hkind]), functionType, leads_bind, leads_current, leads_bind, ensure,
      Option.getD_some, hform]
    refine ⟨⟨hread.faces, hread.diagnostics⟩, read.table, hgathers, ?_⟩
    exact hrecorded.retype header.type

/-! ## Routines -/

/-- A routine whose name has been entered is opened. -/
theorem exists_introduces {named : Session} {name : String} {line : Nat} {kind : DefinitionKind}
    (hlawful : session.Lawful fun _ => True) (hlocal : session.table.localScopeId = SymbolTable.programScope)
    (hlt : SymbolTable.programId < session.table.entries.size)
    (hplace : session.table.program = some SymbolTable.programId)
    (hcallable : kind ∈ DefinitionKind.callables)
    (hnamed : named.table = (session.table.bindNew (Text.lower name)).modifyEntry session.table.entries.size
      (·.addLine line))
    (hlawfulNamed : named.Lawful fun _ => True)
    (htarget : IsTarget session.table named.table session.table.entries.size false) :
    ∃ begun : Session, (do
        markRoutine session.table.entries.size kind false
        openRoutine SymbolTable.programId session.table.entries.size kind false) named = .ok ((), begun) ∧
      begun.table.Valid ∧ begun.cursor = named.cursor ∧ begun.diagnostics = named.diagnostics ∧
        session.table.Introduces name kind begun.table := by
  have hplaceNamed : named.table.program = some SymbolTable.programId := by
    rw [hnamed]
    exact hplace
  have hltNamed : SymbolTable.programId < named.table.entries.size := by
    rw [hnamed, SymbolTable.size_modifyEntry, SymbolTable.size_bindNew]
    exact Nat.lt_succ_of_lt hlt
  obtain ⟨-, hbegun, -, -, -⟩ := (leads_of_ok (run_opening hplaceNamed)).mp
    (traced_opening hlawfulNamed hcallable htarget hplaceNamed hltNamed (Nat.ne_of_gt hlt))
  exact ⟨_, run_opening hplaceNamed, hbegun.valid, rfl, rfl,
    SymbolTable.introduces_placed hlawful.valid hlocal hlt name line hnamed⟩

/-- A routine whose name is free is read with its header and with what stands after it, and the scope of the
program gains it. -/
theorem leads_routine {known : Meanings} {name : String} {type : Option DataType} {header : Header}
    {parameters : List Parameter} (hlawful : session.Lawful fun _ => True) (hhosts : session.Hosts SymbolTable.programId)
    (hplace : session.table.program = some SymbolTable.programId) (hknows : session.table.Knows known)
    (hstart : session.cursor.current.kind = .voidWord ∨ session.cursor.current.kind = .identifier)
    (hkind : Leads routineKind session (fun _ => False) fun answer later =>
      answer.1 = header.kind ∧ session.Stands (tokens ++ rest) last later)
    (hrenders : HeaderRenders name parameters header.hasBody tokens)
    (hfree : Text.lower name ∉ known.map Prod.fst) (hword : Text.lower name ∉ typeWords)
    (hapart : Apart (parameters.map fun item => Text.lower item.name))
    (hdenotes : ∀ (word : Token) (scalar : Scalar), word.Words scalar → scalar ∈ numbers →
      session.table.Denotes word (.scalar scalar))
    (htyped : parameters.mapM Parameter.typed? = some header.parameters)
    (hheader : (header.kind = .procedure ∧ header.type = .void ∧ header.first = 0) ∨
      (header.kind = .function ∧ type = some header.type ∧ header.type.form = .scalar ∧
        header.first = if Text.lower name = mainName then 1 else 0)) :
    Leads (routine SymbolTable.programId type) session (fun _ => False) fun _ later =>
      session.Gains [(Text.lower name, .routine header)] rest last later := by
  unfold routine
  rw [leads_bind]
  apply (hkind.and (traced_routineKind hlawful hstart)).imp
  rintro ⟨_, invented⟩ started ⟨⟨rfl, hstands⟩, -, hstarted, -, -, hinvented⟩
  cases hrenders with
  | @intro token opening closing inner ending hspells hopening hinner hclosing hending =>
  have hvalid := hlawful.valid
  have hscope : session.table.localScopeId = SymbolTable.programScope := by
    rw [SymbolTable.localScopeId, hknows.openScopes]
    rfl
  have hlocal : session.table.lookupLocal name = none := by
    apply SymbolTable.get?_eq_none
    rwa [SymbolTable.localScope, hscope, hknows.lists.keys_eq]
  have hcallable : header.kind ∈ DefinitionKind.callables := by
    rcases hheader with ⟨hkind, -⟩ | ⟨hkind, -⟩ <;> rw [hkind] <;> decide
  have hfaces := hstands.faces
  rw [List.cons_append, List.cons_append, List.append_assoc, List.cons_append] at hfaces
  rw [leads_bind]
  apply ((leads_routineName hfaces hspells hopening (by rwa [hstands.table])).and
    (traced_routineName hstarted hinvented)).imp
  rintro _ named ⟨⟨rfl, hread, hnamed, hsilent⟩, -, hlawfulNamed, htarget⟩
  rw [hstands.table] at hnamed htarget
  rw [hstands.diagnostics] at hsilent
  simp only [hstands.table] at htarget ⊢
  obtain ⟨begun, hopen, hbegun, hcursor, hdiagnostics, hintroduces⟩ :=
    exists_introduces hlawful hscope hhosts.lt hplace hcallable hnamed hlawfulNamed htarget
  rw [← bind_assoc, leads_bind, leads_of_ok hopen, leads_bind, leads_current, leads_bind, ensure,
    Bool.not_false, Bool.true_or, if_pos rfl, leads_pure, leads_bind]
  rw [← hcursor] at hread
  have hdenotesBegun : ∀ (word : Token) (scalar : Scalar), word.Words scalar → scalar ∈ numbers →
      begun.table.Denotes word (.scalar scalar) := by
    intro word scalar hwords hscalar
    apply hintroduces.denotes hknows.openScopes hknows.within hhosts.kind (hdenotes word scalar hwords hscalar)
    rw [hwords.text]
    rintro hsame
    exact hword (hsame ▸ List.mem_map_of_mem (numbers_subset hscalar))
  apply (leads_header hread hopening hinner hclosing hbegun hintroduces htyped hapart hdenotesBegun
    hheader).imp
  rintro _ headed ⟨⟨hfaces, hquiet⟩, table, hgathers, hdefines⟩
  rw [leads_bind]
  apply (leads_bodyOrForward hfaces hending hcallable hdefines rfl).imp
  rintro _ closed ⟨⟨hfaces, hquiet'⟩, body, hdefines, hbody⟩
  rw [leads_bind, leads_onTable, leads_pure]
  have hrealizes := hintroduces.realizes hknows.within hcallable hgathers hdefines hbody
  refine ⟨hfaces, (hintroduces.gains hknows.within hgathers hdefines hrealizes).pop, ?_,
    by rw [hquiet', hquiet, hdiagnostics, hsilent]⟩
  have hscopes : closed.table.openScopes = session.table.scopes.size :: session.table.openScopes := by
    rw [hdefines.openScopes, hgathers.steady.openScopes, hintroduces.openScopes]
  simp [SymbolTable.pop, hscopes]

end Production

end FrontEnd
