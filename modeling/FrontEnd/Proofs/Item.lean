import FrontEnd.Proofs.Opening
import FrontEnd.Proofs.StatementUses
import FrontEnd.Proofs.Unit

/-!
# The items of a unit

A unit takes one item after the other, and what it leaves depends on how they follow one another: which
names have been declared forward, what the program lists so far, which trees use what.  `Item` says what
one item does to a session, in terms of runs below the top level and of the few changes made between them:

* a declaration, or the recovery from an error, is a run for declarations;
* a statement of the program is a run for statements, after which its tree is appended to the body of the
  program;
* a routine is named, opened (`SymbolTable.Begins`) and given its header; then it is declared forward, or
  its body is compiled and put in its entry (`Finishes`); at the end its scope is closed.

Whatever a unit compiles, its session is reached by items (`compile_items`), so what every item keeps holds
of every unit that has been compiled.
-/

namespace FrontEnd

namespace Session

/-- Whether it has been reported that the header of a routine repeats a declaration, or has no parameters
where a repeated one must have none. -/
def Repeats (session : Session) : Prop :=
  session.Flagged .alreadyForwarded ∨ session.Flagged .missingLeftParen

/-- The session in which it is recorded how far a routine has been declared. -/
def staged (session : Session) (id : EntryId) (stage : RoutineStage) : Session :=
  { session with
    table := session.table.modifyRoutine id fun known => { known with stage := some stage } }

end Session

section

variable {known : Token → Prop} {place : Place} {session later : Session} {id : EntryId}

theorem Session.Lawful.staged (h : session.Lawful known) (id : EntryId) (stage : RoutineStage) :
    (session.staged id stage).Lawful known := by
  have hstep : Step known .topLevel session (session.staged id stage) :=
    .reshape rfl (.amend fun routine hroutine => h.valid.parameters id routine hroutine)
  exact hstep.lawful h

end

/-! ## What an item does -/

/-- How a routine goes on after its header: it is declared forward, or its body is compiled. -/
inductive Finishes (known : Token → Prop) (id : EntryId) (headed : Session) : Session → Prop
  | forward {later : Session} : Steps known .declaration (headed.staged id .forward) later →
      Finishes known id headed later
  | compiled {made : Session} {body : Node} :
      Steps known .statement (headed.staged id .declared) made →
      (headed.staged id .declared).Uses made body.references →
      Finishes known id headed
        { made with table := made.table.modifyRoutine id fun known => { known with body := some body } }

/-- A routine that has been named and opened. -/
structure Opens (known : Token → Prop) (program id : EntryId) (kind : DefinitionKind) (forwarded : Bool)
    (session named begun : Session) : Prop where
  callable : kind ∈ DefinitionKind.callables
  naming : Steps known .header session named
  target : Production.IsTarget session.table named.table id forwarded
  apart : id ≠ program
  place : named.table.program = some program
  begins : SymbolTable.Begins program id kind forwarded named.table begun.table
  diagnostics : begun.diagnostics = named.diagnostics
  lawful : begun.Lawful known

/-- What one item of a program does. -/
inductive Item (known : Token → Prop) (program : EntryId) (session : Session) : Session → Prop
  | declares {later : Session} : Steps known .declaration session later →
      Item known program session later
  | states {stated : Session} {node : Node} : Steps known .statement session stated →
      session.Uses stated node.references →
      Item known program session
        { stated with
          table := stated.table.modifyRoutine program (Production.appendStatement node) }
  | routine {id : EntryId} {kind : DefinitionKind} {forwarded : Bool}
      {named begun headed closed : Session} :
      Opens known program id kind forwarded session named begun →
      Steps known .header begun headed → (forwarded = true → headed.Repeats) →
      Finishes known id headed closed →
      Item known program session { closed with table := closed.table.pop.2 }

/-- Any number of items, each of which begins in a lawful session. -/
def Items (known : Token → Prop) (program : EntryId) : Session → Session → Prop :=
  Relation.ReflTransGen fun session later => session.Lawful known ∧ Item known program session later

theorem Items.single {known : Token → Prop} {program : EntryId} {session later : Session}
    (hlawful : session.Lawful known) (h : Item known program session later) :
    Items known program session later :=
  Relation.ReflTransGen.single ⟨hlawful, h⟩

/-! ## The errors and the open scopes -/

section

variable {known : Token → Prop} {program id : EntryId} {session later : Session}

theorem Finishes.diagnostics_prefix {headed closed : Session} (h : Finishes known id headed closed) :
    headed.diagnostics <+: closed.diagnostics := by
  cases h with
  | forward hsteps =>
      have hkept : (headed.staged id .forward).diagnostics <+: closed.diagnostics :=
        hsteps.diagnostics_prefix
      exact hkept
  | @compiled made body hsteps huses =>
      have hkept : (headed.staged id .declared).diagnostics <+: made.diagnostics :=
        hsteps.diagnostics_prefix
      exact hkept

/-- No error is lost from one item to the next. -/
theorem Item.diagnostics_prefix (h : Item known program session later) :
    session.diagnostics <+: later.diagnostics := by
  cases h with
  | declares hsteps => exact hsteps.diagnostics_prefix
  | states hsteps huses => exact hsteps.diagnostics_prefix
  | routine hopens hheading hrepeats hfinishes =>
      have hnaming := hopens.naming.diagnostics_prefix
      rw [← hopens.diagnostics] at hnaming
      exact (hnaming.trans hheading.diagnostics_prefix).trans hfinishes.diagnostics_prefix

theorem Session.Repeats.of_kept (h : session.Repeats)
    (hkept : session.diagnostics <+: later.diagnostics) : later.Repeats := by
  have hflagged {kind : ErrorKind} (hkind : session.Flagged kind) : later.Flagged kind := by
    obtain ⟨report, hmem, hkind⟩ := hkind
    exact ⟨report, hkept.subset hmem, hkind⟩
  exact h.imp hflagged hflagged

/-- After its header only the stage and the body of a routine change. -/
theorem Finishes.steady {headed closed : Session} (h : Finishes known id headed closed)
    (hlawful : headed.Lawful known) :
    ∃ stage made, (headed.staged id stage).table.Steady made ∧
      (closed.table = made ∨
        ∃ body, closed.table = made.modifyRoutine id fun known => { known with body := some body }) := by
  cases h with
  | forward hsteps => exact ⟨.forward, _, hsteps.steady (hlawful.staged id .forward) nofun, Or.inl rfl⟩
  | compiled hsteps huses =>
      exact ⟨.declared, _, hsteps.steady (hlawful.staged id .declared) nofun, Or.inr ⟨_, rfl⟩⟩

theorem Finishes.openScopes {headed closed : Session} (h : Finishes known id headed closed)
    (hlawful : headed.Lawful known) :
    closed.table.openScopes = headed.table.openScopes ∧ closed.table.program = headed.table.program := by
  obtain ⟨stage, made, hsteady, hclosed | ⟨body, hclosed⟩⟩ := h.steady hlawful <;> rw [hclosed] <;>
    exact ⟨hsteady.openScopes, hsteady.program⟩

/-- Between items the same scopes are open, and the program stays the same. -/
theorem Item.openScopes (h : Item known program session later) (hlawful : session.Lawful known) :
    later.table.openScopes = session.table.openScopes ∧
      later.table.program = session.table.program := by
  cases h with
  | declares hsteps =>
      have hsteady := hsteps.steady hlawful nofun
      exact ⟨hsteady.openScopes, hsteady.program⟩
  | states hsteps huses =>
      have hsteady := hsteps.steady hlawful nofun
      exact ⟨hsteady.openScopes, hsteady.program⟩
  | @routine id kind forwarded named begun headed closed hopens hheading hrepeats hfinishes =>
      have hnaming := hopens.naming.steady hlawful nofun
      have hheaded := hheading.steady hopens.lawful nofun
      obtain ⟨hscopes, hprogram⟩ := hfinishes.openScopes (hheading.lawful hopens.lawful)
      have hopen : closed.table.openScopes = named.table.scopes.size :: session.table.openScopes := by
        rw [hscopes, hheaded.openScopes, hopens.begins.openScopes, hnaming.openScopes]
      refine ⟨?_, ?_⟩
      · simp [SymbolTable.pop, hopen]
      · rw [SymbolTable.program_pop, hprogram, hheaded.program, hopens.begins.programId, hnaming.program]

theorem Items.openScopes (h : Items known program session later) :
    later.table.openScopes = session.table.openScopes ∧
      later.table.program = session.table.program := by
  induction h with
  | refl => exact ⟨rfl, rfl⟩
  | tail _ hitem ih =>
      obtain ⟨hscopes, hprogram⟩ := hitem.2.openScopes hitem.1
      exact ⟨hscopes.trans ih.1, hprogram.trans ih.2⟩

theorem Items.localScopeId_eq (h : Items known program session later) :
    later.table.localScopeId = session.table.localScopeId := by
  rw [SymbolTable.localScopeId, h.openScopes.1]
  rfl

end

/-! ## What items keep -/

/-- Whether a property of tables outlasts all that items do to them while another scope than the global one
is open. -/
structure SymbolTable.Lasts (program : EntryId) (holds : SymbolTable → Prop) : Prop where
  adds {first second : SymbolTable} : holds first → first.Valid → first.localScopeId ≠ globalScope →
    first.Adds second → holds second
  retouches {first second : SymbolTable} : holds first → first.Retouches second → holds second
  amends {table : SymbolTable} {change : Routine → Routine} (id : EntryId) : holds table →
    (∀ routine, (change routine).scope = routine.scope) → holds (table.modifyRoutine id change)
  begins {first second : SymbolTable} {id : EntryId} {kind : DefinitionKind} {forwarded : Bool} :
    holds first → Begins program id kind forwarded first second → id ≠ program →
      (first.entry id).kind = .undefined ∨ (first.entry id).routine?.isSome → holds second
  pop {table : SymbolTable} : holds table → holds table.pop.2

theorem scope_appendStatement (statement : Node) (routine : Routine) :
    (Production.appendStatement statement routine).scope = routine.scope := by
  unfold Production.appendStatement
  split <;> rfl

section

variable {known : Token → Prop} {place : Place} {program id : EntryId} {session later : Session}
  {holds : SymbolTable → Prop}

theorem Steps.lasts (h : Steps known place session later) (hlasts : SymbolTable.Lasts program holds)
    (hlawful : session.Lawful known) (hplace : place ≠ .topLevel)
    (hlocal : session.table.localScopeId ≠ globalScope) (hholds : holds session.table) :
    holds later.table := by
  induction h with
  | refl => exact hholds
  | tail hsteps hstep ih =>
      have hvalid := (Steps.lawful hsteps hlawful).valid
      have hsame := (Steps.steady hsteps hlawful hplace).localScopeId
      rcases hstep.adds_or_retouches hplace hvalid with hsame | hadds | hretouches
      · rwa [hsame]
      · exact hlasts.adds ih hvalid (by rwa [hsame]) hadds
      · exact hlasts.retouches ih hretouches

theorem Finishes.lasts {headed closed : Session} (h : Finishes known id headed closed)
    (hlasts : SymbolTable.Lasts program holds) (hlawful : headed.Lawful known)
    (hlocal : headed.table.localScopeId ≠ globalScope) (hholds : holds headed.table) :
    holds closed.table := by
  have hstaged (stage : RoutineStage) : holds (headed.staged id stage).table :=
    hlasts.amends id hholds (by simp)
  cases h with
  | forward hsteps =>
      exact hsteps.lasts hlasts (hlawful.staged id .forward) nofun hlocal (hstaged .forward)
  | compiled hsteps huses =>
      exact hlasts.amends id
        (hsteps.lasts hlasts (hlawful.staged id .declared) nofun hlocal (hstaged .declared)) (by simp)

/-- What outlasts the runs and the changes of which items are made outlasts an item. -/
theorem Item.lasts (h : Item known program session later) (hlasts : SymbolTable.Lasts program holds)
    (hlawful : session.Lawful known) (hlocal : session.table.localScopeId ≠ globalScope)
    (hholds : holds session.table) : holds later.table := by
  cases h with
  | declares hsteps => exact hsteps.lasts hlasts hlawful nofun hlocal hholds
  | @states stated node hsteps huses =>
      exact hlasts.amends program (hsteps.lasts hlasts hlawful nofun hlocal hholds)
        (scope_appendStatement node)
  | @routine id kind forwarded named begun headed closed hopens hheading hrepeats hfinishes =>
      have hnamed := hopens.naming.lasts hlasts hlawful nofun hlocal hholds
      have hbegun := hlasts.begins hnamed hopens.begins hopens.apart hopens.target.revisable
      -- the scope that has been opened is a new one
      have hopen : begun.table.localScopeId ≠ globalScope := by
        rw [SymbolTable.localScopeId, hopens.begins.openScopes]
        exact Nat.ne_of_gt (hopens.naming.lawful hlawful).valid.scopes_pos
      have hheaded := hheading.lasts hlasts hopens.lawful nofun hopen hbegun
      have hopen : headed.table.localScopeId ≠ globalScope := by
        rwa [(hheading.steady hopens.lawful nofun).localScopeId]
      exact hlasts.pop (hfinishes.lasts hlasts (hheading.lawful hopens.lawful) hopen hheaded)

theorem Items.lasts (h : Items known program session later) (hlasts : SymbolTable.Lasts program holds)
    (hlocal : session.table.localScopeId ≠ globalScope) (hholds : holds session.table) :
    holds later.table := by
  induction h with
  | refl => exact hholds
  | tail hitems hitem ih =>
      refine hitem.2.lasts hlasts hitem.1 ?_ ih
      rwa [Items.localScopeId_eq hitems]

end

namespace Production

variable {known : Token → Prop} {session : Session} {program id : EntryId}

/-! ## Routines -/

theorem run_setStage (session : Session) (id : EntryId) (stage : RoutineStage) :
    setStage id stage session = .ok ((), session.staged id stage) :=
  rfl

theorem finishes_bodyOrForward (himproper : Improper known) (hlawful : session.Lawful known) :
    Traced known .topLevel (bodyOrForward id) session fun _ later =>
      Finishes known id session later := by
  unfold bodyOrForward
  rw [traced_currentKind_bind]
  split
  · refine ((traced_setStage _ hlawful).withRun (run_setStage _ _ _)).bind ?_
    rintro _ _ - hstaged ⟨⟨-, rfl⟩, -⟩
    refine ((accounted_compound himproper _ hstaged).within (.topLevel _)).bind
      fun body made _ hmade h => ?_
    refine (traced_changeRoutine id hmade (by
      intro routine hroutine
      exact hmade.valid.parameters id routine hroutine)).mono ?_
    rintro _ _ - - rfl
    exact .compiled h.1 h.2
  · refine ((traced_setStage _ hlawful).withRun (run_setStage _ _ _)).bind ?_
    rintro _ _ - hstaged ⟨⟨-, rfl⟩, -⟩
    have hnext : Traced known .declaration (do let _ ← nextToken) (session.staged id .forward)
        fun _ _ => True :=
      (traced_nextToken hstaged).bind fun _ _ _ hlater _ => .pure hlater trivial
    exact (hnext.within (.topLevel _)).mono fun _ _ _ _ h => .forward h.1
  · refine ((traced_setStage _ hlawful).withRun (run_setStage _ _ _)).mono ?_
    rintro _ _ - - ⟨⟨-, rfl⟩, -⟩
    exact .forward (.refl _)

/-- The program is neither a new entry nor declared forward. -/
theorem IsTarget.ne_program {accepted : Prop} {earlier later : SymbolTable} {forwarded : Bool}
    (h : IsTarget earlier later id forwarded) (hhosts : earlier.Hosts accepted program) :
    id ≠ program := by
  rintro rfl
  cases forwarded with
  | false => exact Nat.not_le_of_lt hhosts.lt (h.fresh rfl).1
  | true =>
      have hstage := h.forward rfl
      simp [hhosts.stage] at hstage

/-! ## Statements of the program -/

/-- A statement of the program is an item. -/
theorem item_programStatement (himproper : Improper known) (hlawful : session.Lawful known) :
    Traced known .topLevel (programStatement program) session fun _ later =>
      Item known program session later := by
  have hread : Traced known .statement
      (do
        let node ← statement program
        let _ ← matchToken .semicolon
        return node)
      session fun node later => session.Uses later node.references := by
    refine (accounted_statement himproper session hlawful).bind fun node made _ hmade huses => ?_
    refine (traced_matchToken (by simp) hmade).silent.bind
      fun _ ended hend hended hmatched => .pure hended ?_
    exact huses.thenNone hmatched.1 hend hmade nofun
  have hsplit : programStatement program = (do
      let node ← statement program
      let _ ← matchToken .semicolon
      return node) >>= fun node => changeRoutine program (appendStatement node) := by
    simp [programStatement]
  rw [hsplit]
  refine (hread.within (.topLevel _)).bind fun node stated _ hstated h => ?_
  refine (traced_changeRoutine program hstated (by
    intro routine hroutine
    rw [parameters_appendStatement]
    exact hstated.valid.parameters program routine hroutine)).mono ?_
  rintro _ _ - - rfl
  exact .states h.1 h.2

end Production

end FrontEnd
