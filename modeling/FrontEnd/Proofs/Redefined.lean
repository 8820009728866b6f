import FrontEnd.Proofs.Naming
import FrontEnd.Proofs.Unit

/-!
# Names that are declared again

A name is reported as declared again where its scope has come to bind it earlier, and then by a declaration, by a
use without a meaning or because it was invented.  A declaration of a name that the scope has not come to bind yet
makes an entry of its kind, to which the scope then leads (`compile_redefined`).

So a name can be reported although it has not been declared before: where it has been used without a meaning, its
declaration is refused (`compile_redefined_used`).

## Strategy

The namings of a compilation are listed in the order in which it makes them (`Log`).  Between two of them it stays in
its scope and does nothing to names (`Session.Idle`), or it compiles a routine: then the scope of the routine is opened
after its heading and closed at its end, and the namings in between are those of that scope.  A log leads from the
beginning of every production to its end (`Session.Logged`), and this passes from the parts of a production to the
whole.  What is said of the names follows from the trail that goes through a log (`Log.trail`).
-/

namespace FrontEnd

open Production

/-! ## Logs -/

/-- Whether it has been read on without anything being done to names: the same scopes are open, they bind the same
names, every entry has kept its name, its scope and its kind and, if it stands for no routine, all but its lines, and
no name has been reported that is declared again. -/
structure Session.Idle (session later : Session) : Prop where
  readsOn : session.cursor.ReadsOn later.cursor
  names : session.table.SameNames none later.table
  conserves : session.Conserves none later
  redefinitions : later.redefinitions = session.redefinitions

/-- The namings of a compilation from one session to another, in order.  Those of a routine are first those of its
heading, which are made around its scope, and then those that are made inside it. -/
inductive Log : Session → List Naming → Session → Prop
  | nil (session : Session) : Log session [] session
  | idle {start session later : Session} {log : List Naming} : Log start log session → session.Idle later →
      Log start log later
  | naming {start : Session} {log : List Naming} {naming : Naming} : Log start log naming.before → naming.Runs →
      Log start (log ++ [naming]) naming.after
  | routine {start before started named marked opened closed : Session} {log heading inner : List Naming}
      {parent id : EntryId} {type : Option DataType} {kind : DefinitionKind} {invented : String} {forwarded : Bool} :
      Log start log before → routineKind before = .ok ((kind, invented), started) →
      routineName invented started = .ok ((id, forwarded), named) →
      markRoutine id kind forwarded named = .ok ((), marked) → Log before heading marked →
      openScope id marked = .ok ((), opened) → Log opened inner closed →
      routine parent type before = .ok ((), { closed with table := closed.table.pop.2 }) →
      Log start (log ++ heading ++ inner) { closed with table := closed.table.pop.2 }

theorem Log.trans {start session later : Session} {log log' : List Naming} (h : Log start log session)
    (h' : Log session log' later) : Log start (log ++ log') later := by
  induction h' with
  | nil => rwa [List.append_nil]
  | idle _ hidle ih => exact (ih h).idle hidle
  | naming _ hruns ih =>
      rw [← List.append_assoc]
      exact (ih h).naming hruns
  | routine _ hkind hname hmark hheading hopen hinner hrun ih =>
      rw [← List.append_assoc, ← List.append_assoc]
      exact (ih h).routine hkind hname hmark hheading hopen hinner hrun

/-! ## The trail of a log -/

namespace Session

variable {session later : Session}

theorem Idle.keepsNames (h : session.Idle later) : session.KeepsNames later :=
  ⟨h.readsOn, h.names.toSameBindings, h.conserves, h.redefinitions⟩

/-- A scope is opened in which nothing is named yet. -/
theorem openScope_cases {id : EntryId} (hrun : openScope id session = .ok ((), later)) :
    session.KeepsNames later ∧ later.table.openScopes = session.table.scopes.size :: session.table.openScopes ∧
      later.table.scopes.size = session.table.scopes.size + 1 := by
  cases hrun
  have hrouted : session.table.push.2.SameNames none (session.table.push.2.modifyRoutine id fun known =>
      { known with scope := some session.table.push.1, body := none, parameters := [] }) := .modifyRoutine _ _ _
  have hconserves : session.table.Conserves none (session.table.push.2.modifyRoutine id fun known =>
      { known with scope := some session.table.push.1, body := none, parameters := [] }) :=
    SymbolTable.Conserves.push.trans (.modifyRoutine _ _)
  exact ⟨⟨.refl, (SymbolTable.SameBindings.push _).trans hrouted.toSameBindings, hconserves, rfl⟩, rfl,
    by simp [SymbolTable.modifyRoutine, SymbolTable.modifyEntry]⟩

/-- The scope that is opened is a scope of its own. -/
theorem Inside.openScope {id : EntryId} (h : session.Inside)
    (hrun : Production.openScope id session = .ok ((), later)) : later.Inside := by
  obtain ⟨-, hopen, hsize⟩ := openScope_cases hrun
  refine ⟨by simp [hopen], fun scope hscope => ?_⟩
  rw [hopen] at hscope
  rw [hsize]
  rcases List.mem_cons.mp hscope with rfl | hmem
  · exact ⟨Nat.ne_of_gt (Nat.zero_lt_of_lt h.localScopeId.2), Nat.lt_succ_self _⟩
  · obtain ⟨hne, hlt⟩ := h.proper scope hmem
    exact ⟨hne, Nat.lt_succ_of_lt hlt⟩

theorem keepsNames_pop (session : Session) : session.KeepsNames { session with table := session.table.pop.2 } :=
  ⟨.refl, .pop _, .pop, rfl⟩

end Session

/-- The namings of a log lie on a trail, which ends in the scope in which it begins. -/
theorem Log.trail {start later : Session} {log : List Naming} (h : Log start log later) (hinside : start.Inside) :
    Trail start log later ∧ later.Inside ∧ later.table.openScopes = start.table.openScopes := by
  induction h with
  | nil => exact ⟨.nil, hinside, rfl⟩
  | idle _ hidle ih =>
      obtain ⟨htrail, hbefore, hopen⟩ := ih hinside
      exact ⟨htrail.keeps hidle.keepsNames,
        hbefore.of_scopes hidle.names.openScopes (Nat.le_of_eq hidle.names.scopes_size.symm),
        hidle.names.openScopes.trans hopen⟩
  | naming _ hruns ih =>
      obtain ⟨htrail, hbefore, hopen⟩ := ih hinside
      obtain ⟨hafter, hsame⟩ := (hruns.binds hbefore).inside hbefore
      exact ⟨htrail.naming hbefore hruns, hafter, hsame.trans hopen⟩
  | @routine start before started named marked opened closed log heading inner parent id type kind invented forwarded
      _ _ _ _ _ hopening _ _ ih ihHeading ihInner =>
      obtain ⟨htrail, hbefore, hopen⟩ := ih hinside
      obtain ⟨hheading, hmarked, hopenMarked⟩ := ihHeading hbefore
      obtain ⟨hopened, hopenOpened, -⟩ := Session.openScope_cases hopening
      obtain ⟨hinner, hclosed, hopenClosed⟩ := ihInner (hmarked.openScope hopening)
      -- the scope that is closed is the one that was opened, so those around it are open again
      have hpop : closed.table.pop.2.openScopes = start.table.openScopes := by
        have hscopes : closed.table.openScopes = marked.table.scopes.size :: start.table.openScopes := by
          rw [hopenClosed, hopenOpened, hopenMarked, hopen]
        simp [SymbolTable.pop, hscopes]
      refine ⟨((htrail.trans hheading).keeps hopened).trans hinner |>.keeps (closed.keepsNames_pop), ?_, hpop⟩
      refine ⟨fun hnone => hinside.nonempty (hpop.symm.trans hnone), fun scope hscope => ?_⟩
      have hmem : scope ∈ closed.table.openScopes := by
        rw [hopenClosed, hopenOpened, hopenMarked, hopen]
        exact List.mem_cons_of_mem _ (hpop ▸ hscope)
      have hproper := hclosed.proper scope hmem
      rwa [← SymbolTable.scopes_pop] at hproper

/-! ## Logs between sessions -/

namespace Session

/-- Whether a log leads from one session, inside a scope, to the other. -/
def Logged (session later : Session) : Prop :=
  session.Inside → ∃ log, Log session log later

variable {session between later : Session}

theorem Logged.trans (h : session.Logged between) (h' : between.Logged later) : session.Logged later := by
  intro hinside
  obtain ⟨log, hlog⟩ := h hinside
  obtain ⟨more, hmore⟩ := h' (hlog.trail hinside).2.1
  exact ⟨log ++ more, hlog.trans hmore⟩

instance : Std.Refl Logged := ⟨fun session _ => ⟨[], .nil session⟩⟩

instance : IsTrans Session Logged := ⟨fun _ _ _ => .trans⟩

theorem Idle.logged (h : session.Idle later) : session.Logged later :=
  fun _ => ⟨[], .idle (.nil session) h⟩

theorem logged_of_runs {naming : Naming} (h : naming.Runs) : naming.before.Logged naming.after :=
  fun _ => ⟨[naming], .naming (.nil _) h⟩

theorem logged_of_sameNames {table : SymbolTable} (htable : session.table.SameNames none table)
    (hconserves : session.table.Conserves none table) : session.Logged { session with table } :=
  Idle.logged ⟨.refl, htable, hconserves, rfl⟩

theorem Reads.logged (h : session.Reads later) : session.Logged later :=
  Idle.logged ⟨h.readsOn, h.table_eq ▸ .refl _, h.conserves, h.redefinitions_eq⟩

end Session

namespace Production

open Session

variable {α : Type} {session later : Session}

theorem Relates.logged {production : Production α} (h : Relates Reads production) : Relates Logged production :=
  h.mono fun _ _ => Reads.logged

theorem logged_addLine (id : EntryId) (line : Nat) : Relates Logged (changeEntry id (·.addLine line)) :=
  ⟨fun _ => logged_of_sameNames (.addLine _ _ _) (.modifyEntry fun _ _ => .addLine _ line)⟩

theorem logged_changeRoutine (id : EntryId) (change : Routine → Routine) : Relates Logged (changeRoutine id change) :=
  ⟨fun _ => logged_of_sameNames (.modifyRoutine _ _ _) (.modifyRoutine _ _)⟩

theorem logged_takeSlot : Relates Logged (onTable (·.takeSlot)) :=
  ⟨fun _ => logged_of_sameNames (.takeSlot _) .takeSlot⟩

/-! ## Inside a scope -/

theorem logged_resolveIdentifier : Relates Logged resolveIdentifier := by
  refine ⟨fun session => ?_⟩
  cases hmeaning : session.table.lookup session.cursor.current.text with
  | none => exact (leads_run _ session).imp fun _ _ hrun => Session.logged_of_runs (.use hmeaning hrun)
  | some id =>
      have hentry (name : Token) : Relates Logged (do
          ensure ((← entry id).kind != .undefined) name .identifierUndefined
          changeEntry id (·.addLine name.line)
          return id) :=
        (Relates.read _).bind fun _ => (reads_ensure _ name rfl).logged.bind fun _ =>
          (logged_addLine id name.line).bind fun _ => .pure id
      rw [resolveIdentifier, leads_bind, leads_current, leads_bind, identifierEntry, leads_bind, leads_lookup, hmeaning]
      simpa only [leads_bind, leads_pure] using (hentry session.cursor.current).leads session

theorem spansExpressions_logged : SpansExpressions Logged :=
  .of_reads (fun _ _ => Reads.logged) logged_resolveIdentifier logged_addLine

/-- Where a name is missing, nothing is named. -/
theorem logged_missing (answer : α) : Relates Logged (do
    flag .missingIdentifier
    return answer) :=
  (reads_flag rfl).logged.bind fun _ => .pure answer

/-- A variable is declared where its name stands. -/
theorem logged_variableName (type : DataType) : Relates Logged (variableName type) := by
  refine ⟨fun session => ?_⟩
  by_cases hname : session.cursor.current.kind = .identifier
  · exact (leads_run _ session).imp fun _ _ hrun =>
      Session.logged_of_runs (.declaration hname (.plainVariable rfl hrun))
  · rw [variableName, leads_bind, leads_current, if_pos (by simpa using hname)]
    exact (logged_missing _).leads session

/-- A parameter is declared where its name follows its type. -/
theorem logged_typedParameter : Relates Logged typedParameter := by
  refine ⟨fun session => (leads_run _ session).imp fun answer later hrun => ?_⟩
  obtain ⟨type, typed, htype, hrest⟩ := exists_of_bind hrun
  by_cases hname : typed.cursor.current.kind = .identifier
  · exact Session.logged_of_runs (.declaration hname (.parameter htype rfl hrun))
  · obtain ⟨name, read, hread, hrest⟩ := exists_of_bind hrest
    cases hread
    rw [if_neg (by simpa using hname)] at hrest
    exact (spansExpressions_logged.typeSpecifier.of_run htype).trans ((logged_missing _).of_run hrest)

theorem logged_typeName (type : DataType) : Relates Logged (typeName type) := by
  refine ⟨fun session => ?_⟩
  by_cases hname : session.cursor.current.kind = .identifier
  · exact (leads_run _ session).imp fun _ _ hrun => Session.logged_of_runs (.declaration hname (.type rfl hrun))
  · rw [typeName, leads_bind, leads_current, if_neg (by simpa using hname)]
    exact (reads_flag rfl).logged.leads session

/-- A constant is declared where its name stands, if it has a value. -/
theorem logged_constantDefinition (declared : Option DataType) : Relates Logged (constantDefinition declared) := by
  refine ⟨fun session => ?_⟩
  by_cases hname : session.cursor.current.kind = .identifier
  · refine (leads_run _ session).imp fun answer later hrun => ?_
    have hrest := hrun
    rw [constantDefinition] at hrest
    obtain ⟨name, read, hread, hrest⟩ := exists_of_bind hrest
    cases hread
    rw [if_neg (by simp [hname])] at hrest
    obtain ⟨_, moved, hmoved, hrest⟩ := exists_of_bind hrest
    obtain ⟨_, ready, hequals, hrest⟩ := exists_of_bind hrest
    obtain ⟨valueToken, viewed, hview, hrest⟩ := exists_of_bind hrest
    cases hview
    obtain ⟨value, valued, hvalue, hrest⟩ := exists_of_bind hrest
    have hvalued : (do
        let _ ← nextToken
        expect .equals .missingEquals
        constantValue) session = .ok (value, valued) := (bind_of_ok hmoved).trans ((bind_of_ok hequals).trans hvalue)
    cases value with
    | some value => exact Session.logged_of_runs (.declaration hname (.constant rfl hvalued hrun))
    | none =>
        -- without a value there is nothing to declare, and the rest is only read
        have hvalue : Relates Reads (do
            let _ ← nextToken
            expect .equals .missingEquals
            constantValue) :=
          reads_nextToken.bind fun _ => (reads_expect _ rfl).bind fun _ => reads_constantValue
        have hend : Relates Reads (do
            (none : Option ConstantValue).forM (declareConstant session.cursor.current ready.cursor.current declared)
            if ← matchToken .comma then return ForInStep.yield () else return ForInStep.done ()) :=
          (Relates.pure _).bind fun _ => (reads_matchToken _).bind fun _ => .ite (.pure _) (.pure _)
        exact ((hvalue.of_run hvalued).trans (hend.of_run hrest)).logged
  · rw [constantDefinition, leads_bind, leads_current, if_pos (by simpa using hname)]
    exact (logged_missing _).leads session

theorem spansStatements_logged (routine : EntryId) : SpansStatements routine Logged where
  toSpansExpressions := spansExpressions_logged
  storage := spansExpressions_logged.variableDeclaration logged_variableName
  constants := spansExpressions_logged.constants logged_constantDefinition
  target _ _ := logged_of_sameNames (.createDetached _ _ _ _) (.createDetached _ _ _)
  braces hnested session _ := (hnested.compoundOf fun _ _ => Reads.logged).leads session

/-! ## Routines -/

theorem logged_routineKind : Relates Logged routineKind := by
  have hinvent (stem : String) : Relates Logged (inventName stem) :=
    ⟨fun _ => Idle.logged ⟨.refl, .refl _, .refl _, rfl⟩⟩
  refine (Relates.read _).bind fun kind => ?_
  split
  · exact reads_nextToken.logged.bind fun _ => (hinvent _).bind fun _ => .pure _
  · exact (hinvent _).bind fun _ => .pure _
  · exact .pure _

/-- An invented name is named if it is free, and else its entry is one to which no name leads. -/
theorem logged_invention {kind : DefinitionKind} {invented : String} {id : EntryId}
    {start started given named : Session} (hstart : routineKind start = .ok ((kind, invented), started))
    (hgiven : givenName started = .ok (none, given)) (hentered : enterOrDetach invented given = .ok (id, named)) :
    given.Logged { named with table := named.table.marked id kind false } := by
  cases hlocal : given.table.lookupLocal invented with
  | none => exact Session.logged_of_runs (.invention hstart hgiven hlocal hentered (run_markRoutine _ _ _ _))
  | some other =>
      suffices hleads : Leads (enterOrDetach invented) given (fun _ => True) fun id named =>
          given.Logged { named with table := named.table.marked id kind false } from (leads_of_ok hentered).mp hleads
      rw [leads_enterOrDetach, SymbolTable.enterInvented, hlocal]
      have hdetached : given.table.SameNames (some given.table.entries.size)
          (given.table.createDetached invented .undefined .undefined).2 := .createDetached _ _ _ _
      refine logged_of_sameNames ((hdetached.trans (.marked _ _ _ _)).settle (Nat.le_refl _)) ?_
      exact (SymbolTable.Conserves.trans (.createDetached _ _ _) (.marked _ _ _)).settle
        fun hlt => absurd hlt (Nat.lt_irrefl _)

/-- The name of a routine is declared, and one is invented if it is refused or missing. -/
theorem logged_heading {kind : DefinitionKind} {invented : String} {id : EntryId} {forwarded : Bool}
    {before started named marked : Session} (hkind : routineKind before = .ok ((kind, invented), started))
    (hname : routineName invented started = .ok ((id, forwarded), named))
    (hmark : markRoutine id kind forwarded named = .ok ((), marked)) : before.Logged marked := by
  obtain ⟨found, given, hgiven, hrest⟩ := exists_of_bind hname
  have hstarted : before.Logged started := logged_routineKind.of_run hkind
  cases (run_markRoutine named id kind forwarded).symm.trans hmark
  cases (leads_of_ok hgiven).mp (gives_givenName started) with
  | entered hidentifier | reused hidentifier =>
      cases hrest
      exact hstarted.trans (Session.logged_of_runs (.routine hkind hidentifier hgiven (run_markRoutine _ _ _ _)))
  | taken hidentifier =>
      -- two namings: the name that is refused, and the one that is invented in its place
      obtain ⟨entered, later, hentered, hanswer⟩ := exists_of_bind hrest
      cases hanswer
      have hrefused : started.Logged given := Session.logged_of_runs (.routine hkind hidentifier hgiven rfl)
      exact hstarted.trans (hrefused.trans (logged_invention hkind hgiven hentered))
  | missing _ hreads =>
      obtain ⟨entered, later, hentered, hanswer⟩ := exists_of_bind hrest
      cases hanswer
      exact hstarted.trans (hreads.logged.trans (logged_invention hkind hgiven hentered))

/-- The entry that is named is marked as that of a routine. -/
theorem isRoutine_marked {kind : DefinitionKind} {invented : String} {id : EntryId} {forwarded : Bool}
    {before started named marked : Session} (hkind : routineKind before = .ok ((kind, invented), started))
    (hname : routineName invented started = .ok ((id, forwarded), named))
    (hmark : markRoutine id kind forwarded named = .ok ((), marked)) :
    id < marked.table.entries.size ∧ (marked.table.entry id).kind.isRoutine = true := by
  have hnames : started.Names invented (id, forwarded) named :=
    (leads_of_ok hname).mp (names_routineName invented started)
  have hroutine : kind.isRoutine = true := (leads_of_ok hkind).mp (Naming.isRoutine_routineKind before)
  cases (run_markRoutine named id kind forwarded).symm.trans hmark
  refine ⟨by simpa [SymbolTable.size_marked] using hnames.lt, ?_⟩
  rw [Entry.kind, (SymbolTable.entry_marked kind forwarded hnames.lt).2.2, kind_ofRoutine_of_isRoutine hroutine,
    hroutine]

theorem logged_ensure_alreadyForwarded (token : Token) (holds : Bool) :
    Relates Logged (ensure holds token .alreadyForwarded) := by
  cases holds with
  | true => exact .pure ()
  | false =>
      refine ⟨fun session => Idle.logged ⟨.refl, .refl _, .refl _, ?_⟩⟩
      exact (redefinitions_report session token .alreadyForwarded).trans (by simp)

/-- A routine is put into its place after its scope has been opened. -/
theorem logged_place (parent id : EntryId) (isMain forwarded : Bool) : Relates Logged (do
    if isMain then beginProgram id
    else if !forwarded then
      changeRoutine parent fun known => { known with routines := known.routines ++ [id] }) := by
  have hbegin : Relates Logged (beginProgram id) :=
    (Relates.read _).bind fun table =>
      (Relates.forM (fun program => logged_changeRoutine program _) table.program).bind fun _ =>
        logged_takeSlot.bind fun _ => .pure _
  exact .ite hbegin (.ite (logged_changeRoutine parent _) (.pure _))

theorem logged_formalParameters (id : EntryId) : Relates Logged (formalParameters id) :=
  (spansExpressions_logged.enclosedParameters (spansExpressions_logged.parameterEntry logged_typedParameter)).bind
    fun _ => logged_changeRoutine id _

/-- After its parameters a function, whose entry is that of a routine, gets its type. -/
theorem logged_header {id : EntryId} (kind : DefinitionKind) (type : Option DataType)
    (hid : id < session.table.entries.size) (hroutine : (session.table.entry id).kind.isRoutine = true) :
    Leads (header id kind type) session (fun _ => True) fun _ later => session.Logged later := by
  refine ((logged_formalParameters id).leads session).bind fun _ read hread => ?_
  split
  · rw [functionType, leads_bind, leads_current]
    refine ((reads_ensure _ _ rfl).leads read).bind fun _ ensured hensured => ?_
    rw [leads_changeEntry]
    intro hinside
    obtain ⟨log, hlog⟩ := (hread.trans hensured.logged) hinside
    obtain ⟨-, hensuredRoutine⟩ := (hlog.trail hinside).1.isRoutine hid hroutine
    refine ⟨log, hlog.idle ⟨.refl, .modifyEntry (fun _ => ⟨rfl, rfl⟩) fun _ _ => rfl, ?_, rfl⟩⟩
    exact .modifyEntry fun _ hplain => absurd hplain (Entry.routine?_ne_none_of_kind hensuredRoutine)
  · exact hread

/-- The namings of a routine are those of its heading and those inside its scope. -/
theorem logged_routine (parent : EntryId) (type : Option DataType) : Relates Logged (routine parent type) := by
  refine ⟨fun session => (leads_run _ session).imp fun _ later hrun hinside => ?_⟩
  obtain ⟨⟨kind, invented⟩, started, hkind, hrest⟩ := exists_of_bind hrun
  obtain ⟨⟨id, forwarded⟩, named, hname, hrest⟩ := exists_of_bind hrest
  obtain ⟨_, marked, hmark, hrest⟩ := exists_of_bind hrest
  obtain ⟨_, placed, hroutine, hrest⟩ := exists_of_bind hrest
  obtain ⟨entry, viewed, hview, hopening⟩ := exists_of_bind hroutine
  cases hview
  obtain ⟨_, opened, hopen, hplace⟩ := exists_of_bind hopening
  obtain ⟨token, viewed, hview, hrest⟩ := exists_of_bind hrest
  cases hview
  obtain ⟨_, checked, hcheck, hrest⟩ := exists_of_bind hrest
  obtain ⟨_, headed, hheader, hrest⟩ := exists_of_bind hrest
  obtain ⟨_, closed, hbody, hclose⟩ := exists_of_bind hrest
  obtain ⟨heading, hheading⟩ := logged_heading hkind hname hmark hinside
  obtain ⟨-, hmarked, -⟩ := hheading.trail hinside
  have hopened := hmarked.openScope hopen
  -- the entry of the routine is marked, and is still that of a routine where the header begins
  have hplaced : opened.Logged placed := (logged_place parent id _ forwarded).of_run hplace
  have hchecked : placed.Logged checked := (logged_ensure_alreadyForwarded _ _).of_run hcheck
  obtain ⟨log, hlog⟩ := (hplaced.trans hchecked) hopened
  have htrail : Trail marked log checked :=
    (Trail.nil.keeps (openScope_cases hopen).1).trans (hlog.trail hopened).1
  obtain ⟨hmarkedLt, hmarkedRoutine⟩ := isRoutine_marked hkind hname hmark
  obtain ⟨hlt, hcheckedRoutine⟩ := htrail.isRoutine hmarkedLt hmarkedRoutine
  have hheaded : checked.Logged headed := (leads_of_ok hheader).mp (logged_header kind type hlt hcheckedRoutine)
  have hclosed : headed.Logged closed :=
    ((spansStatements_logged id).bodyOrForward (logged_changeRoutine id)).of_run hbody
  obtain ⟨inner, hinner⟩ := (((hplaced.trans hchecked).trans hheaded).trans hclosed) hopened
  cases hclose
  exact ⟨[] ++ heading ++ inner, .routine (.nil session) hkind hname hmark hheading hopen hinner hrun⟩

/-! ## Units -/

theorem spansItems_logged (program : EntryId) : SpansItems program Logged where
  toSpansStatements := spansStatements_logged program
  global := logged_variableName
  types := spansExpressions_logged.typeDefinition logged_typeName
  routine := logged_routine program
  append := logged_changeRoutine program

/-- At the end of the items the scope of the program is closed. -/
theorem logged_items (session : Session) :
    Leads items session (fun _ => True) fun _ later => ∃ ended, session.Logged ended ∧
      later = { ended with table := ended.table.pop.2 } := by
  have hitems : Relates Logged (loop (fun _ => nextItem SymbolTable.programId) ()) :=
    Relates.loop (fun _ => (spansItems_logged SymbolTable.programId).nextItem fun _ _ => Reads.logged) ()
  exact (hitems.leads session).bind fun _ ended hended => ⟨ended, hended, rfl⟩

end Production

/-! ## The beginning of a unit -/

/-- Where the items of a unit begin, the scope of the program is open. -/
theorem Session.inside_unitTable (session : Session) :
    Inside { session with table := SymbolTable.unitTable } where
  nonempty := by
    show SymbolTable.unitTable.openScopes ≠ []
    decide +kernel
  proper := by
    show ∀ scope ∈ SymbolTable.unitTable.openScopes, scope ≠ globalScope ∧ scope < SymbolTable.unitTable.scopes.size
    decide +kernel

namespace SymbolTable

theorem bound?_unitTable {scope : ScopeId} (hscope : scope ≠ globalScope) (name : String) :
    unitTable.bound? scope name = none := by
  rw [bound?, Scope.get?, bindings_unitTable hscope, List.lookup_nil]

/-- What the global scope binds bears the name and belongs to it. -/
theorem labelled_unitTable : unitTable.Labelled := by
  have hglobal : ∀ binding ∈ (unitTable.scope globalScope).bindings, binding.2 < unitTable.entries.size ∧
      (unitTable.entry binding.2).name = binding.1 ∧ (unitTable.entry binding.2).scope = globalScope := by
    decide +kernel
  intro scope name id hbound
  by_cases hscope : scope = globalScope
  · subst hscope
    obtain ⟨earlier, later, hbindings, -⟩ := List.lookup_eq_some_iff.mp hbound
    exact hglobal (name, id) (by simp [hbindings])
  · rw [bound?_unitTable hscope] at hbound
    exact absurd hbound nofun

end SymbolTable

/-! ## Whole units -/

/-- What is known of a naming that comes after others, in view of the table at the end: it is the run of its production,
inside a scope and further on in the text.  Its name is bound if and only if the same name has been named in the same
scope before; so it is refused only then.  A declaration that is not refused makes an entry of its kind, to which its
scope leads from then on. -/
structure Naming.Follows (naming : Naming) (earlier : List Naming) (final : SymbolTable) : Prop where
  runs : naming.Runs
  inside : naming.before.Inside
  order : ∀ other ∈ earlier, other.after.cursor.ReadsOn naming.before.cursor
  taken : naming.before.table.bound? naming.scope naming.key ≠ none ↔
    ∃ other ∈ earlier, other.scope = naming.scope ∧ other.key = naming.key
  refused : naming.refusal ≠ none → ∃ other ∈ earlier, other.scope = naming.scope ∧ other.key = naming.key
  accepted : ∀ name kind, naming.act = .declares name kind → naming.refusal = none →
    ∃ id, naming.after.table.lookupLocal name.text = some id ∧ (naming.after.table.entry id).kind = kind ∧
      final.bound? naming.scope naming.key = some id ∧ (kind.isRoutine = false → (final.entry id).kind = kind)

/-- Whether the namings of a log account for the names of a unit.  The names that are reported as declared again are
those that the log refuses.  The scopes other than the global one bind what has been named in them, and what they bind
is of the kind of a naming that has not been refused. -/
structure CompilationUnit.NamedBy (unit : CompilationUnit) (log : List Naming) : Prop where
  redefinitions : unit.diagnostics.filter (·.kind == .identifierRedefined) = log.filterMap Naming.refusal
  follows : ∀ earlier naming more, log = earlier ++ naming :: more → naming.Follows earlier unit.table
  bound : ∀ scope ≠ globalScope, ∀ name, unit.table.bound? scope name ≠ none ↔
    ∃ naming ∈ log, naming.scope = scope ∧ naming.key = name
  made : ∀ scope ≠ globalScope, ∀ name id, unit.table.bound? scope name = some id →
    ∃ naming ∈ log, naming.refusal = none ∧ naming.scope = scope ∧ naming.key = name ∧
      naming.act.kind = (unit.table.entry id).kind

namespace Trail

variable {start later : Session} {log earlier more : List Naming} {naming : Naming}

/-- What has been named before, further on in the text. -/
theorem order (h : Trail start earlier later) {other : Naming} (hmem : other ∈ earlier) :
    other.after.cursor.ReadsOn later.cursor := by
  obtain ⟨first, rest, hsplit⟩ := List.append_of_mem hmem
  obtain ⟨-, -, -, hafter⟩ := h.split hsplit
  exact hafter.readsOn

/-- Each naming follows those before it, if the scopes bind nothing at first. -/
theorem follows (h : Trail start log later) (hstart : start.table.Labelled)
    (hfree : ∀ scope ≠ globalScope, ∀ name, start.table.bound? scope name = none)
    (hsplit : log = earlier ++ naming :: more) : naming.Follows earlier later.table := by
  obtain ⟨hbefore, hinside, hruns, hafter⟩ := h.split hsplit
  have htaken := hbefore.bound_iff (hfree _ hinside.localScopeId.1 naming.key)
  refine ⟨hruns, hinside, fun other => hbefore.order, htaken, fun hrefusal =>
    htaken.mp (Naming.bound_of_refusal hrefusal), fun name kind hact hrefusal => ?_⟩
  obtain ⟨id, hbinds⟩ := (hruns.binds hinside).entered hrefusal
  have hkey : naming.key = Text.lower name.text := by rw [Naming.key, hact, Act.key]
  have hkind : naming.act.kind = kind := by rw [hact, Act.kind]
  have hbound : naming.after.table.bound? naming.scope naming.key = some id := by
    rw [hbinds.bound?, if_pos ⟨rfl, rfl⟩]
  have hlabelled : naming.after.table.Labelled := (hbefore.labelled hstart).comesToBind hbinds
  obtain ⟨hstays, hkept⟩ := hafter.stays hlabelled hbound
  have hnew := hbinds.new_kind.trans hkind
  refine ⟨id, ?_, hnew, hstays, fun hplain => (hkept (hnew ▸ hplain)).trans hnew⟩
  rw [hkey] at hbinds
  exact hbinds.lookupLocal

end Trail

/-- Every compilation has a log, which begins where its items begin and is followed by the end of the scope of the
program. -/
theorem compile_log {stream : TokenStream} {unit : CompilationUnit} (h : compile stream = .ok unit) :
    ∃ session log ended, Session.start stream = .ok session ∧
      Log { session with table := SymbolTable.unitTable } log ended ∧
        unit.table = ended.table.pop.2 ∧ unit.diagnostics = ended.diagnostics := by
  obtain ⟨session, later, hstart, hunit, htable, hdiagnostics⟩ := compile_cases h
  rw [Production.unit_eq_items (Session.start_cases hstart).2.1] at hunit
  obtain ⟨ended, hended, rfl⟩ := (Production.leads_of_ok hunit).mp (Production.logged_items _)
  obtain ⟨log, hlog⟩ := hended session.inside_unitTable
  exact ⟨session, log, ended, hstart, hlog, htable.symm, hdiagnostics.symm⟩

/-- What is reported before the items begin is a token that is none. -/
theorem Session.redefinitions_start {stream : TokenStream} {session : Session}
    (h : Session.start stream = .ok session) : session.redefinitions = [] := by
  obtain ⟨-, -, hfirst⟩ := Session.start_cases h
  rw [Session.redefinitions, hfirst]
  refine List.filter_eq_nil_iff.mpr fun report hmem => ?_
  obtain ⟨reason, -, rfl⟩ := List.mem_map.mp hmem
  cases reason <;> simp [ErrorKind.ofScanError]

/-- What becomes of names in every unit that is compiled.  Of each production that names, inside a scope of any session:
what is refused is reported once and nothing is declared, and else the scope comes to bind the name to an entry of its
kind.  And the namings of the compilation, in the order in which it makes them, account for the names of the unit. -/
theorem compile_redefined {stream : TokenStream} {unit : CompilationUnit} (h : compile stream = .ok unit) :
    (∀ naming : Naming, naming.Runs → naming.before.Inside → naming.Binds) ∧
    ∃ session log ended, Session.start stream = .ok session ∧
      Log { session with table := SymbolTable.unitTable } log ended ∧
        unit.table = ended.table.pop.2 ∧ unit.diagnostics = ended.diagnostics ∧ unit.NamedBy log := by
  refine ⟨fun naming hruns hinside => hruns.binds hinside, ?_⟩
  obtain ⟨session, log, ended, hstart, hlog, htable, hdiagnostics⟩ := compile_log h
  have htrail := (hlog.trail session.inside_unitTable).1.keeps ended.keepsNames_pop
  have hfree := fun scope (hscope : scope ≠ globalScope) => SymbolTable.bound?_unitTable hscope
  refine ⟨session, log, ended, hstart, hlog, htable, hdiagnostics, ?_, fun earlier naming more hsplit => ?_,
    fun scope hscope name => ?_, fun scope hscope name id hbound => ?_⟩
  · rw [hdiagnostics]
    exact htrail.redefinitions_eq.trans (congrArg (· ++ _) (Session.redefinitions_start hstart))
  · rw [htable]
    exact htrail.follows SymbolTable.labelled_unitTable hfree hsplit
  · rw [htable]
    exact htrail.bound_iff (hfree scope hscope name)
  · rw [htable] at hbound ⊢
    exact htrail.exists_naming SymbolTable.labelled_unitTable (hfree scope hscope name) hbound

/-- A variable is declared twice in a procedure, and the second declaration is refused. -/
theorem compile_redefined_twice :
    ∃ unit, compileText "int b; void p() \x7b int b; float b; \x7d" = .ok unit ∧
      (unit.diagnostics.map fun report => (report.kind, report.text)) = [(.identifierRedefined, "b")] ∧
      (unit.entriesNamed "b").map (fun id => (unit.table.entry id).kind) = [.plainVariable, .plainVariable] ∧
      ∃ session log ended,
        Session.start (Scanner.stream (.ofText "int b; void p() \x7b int b; float b; \x7d")) = .ok session ∧
        Log { session with table := SymbolTable.unitTable } log ended ∧
          unit.table = ended.table.pop.2 ∧ unit.diagnostics = ended.diagnostics ∧ unit.NamedBy log := by
  have hcompiled : ∃ unit, compileText "int b; void p() \x7b int b; float b; \x7d" = .ok unit ∧
      (unit.diagnostics.map fun report => (report.kind, report.text)) = [(.identifierRedefined, "b")] ∧
      (unit.entriesNamed "b").map (fun id => (unit.table.entry id).kind) = [.plainVariable, .plainVariable] :=
    exists_compiled (by decide +kernel)
  obtain ⟨unit, hunit, hreports, hentries⟩ := hcompiled
  exact ⟨unit, hunit, hreports, hentries, (compile_redefined hunit).2⟩

/-- A variable is declared once, after its name has been used, and is reported as declared again.  No entry for a
variable is made. -/
theorem compile_redefined_used :
    ∃ unit, compileText "void p() \x7b x = 1; int x; \x7d" = .ok unit ∧
      (unit.diagnostics.map fun report => (report.kind, report.text)) =
        [(.identifierUndefined, "x"), (.identifierRedefined, "x")] ∧
      (unit.entriesNamed "x").map (fun id => (unit.table.entry id).kind) = [.undefined] :=
  exists_compiled (by decide +kernel)

end FrontEnd
