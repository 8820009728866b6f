import FrontEnd.Proofs.Item
import FrontEnd.Proofs.Stays

/-!
# Calls of the production for routines

A call of the production for routines is taken apart into its runs, from whatever session it begins.

* `Names` says what becomes of the name: the entry of a routine declared forward is used again, a free name
  is entered, and in the place of a name that is taken or missing an invented one is entered.
* Then the routine is opened (`Call.begun`), and it is checked that a repeated header has a semicolon after
  its name (`Call.checked`).
* The parameters are read and recorded, and a function gets its type (`Call.typed`).
* `Ends` says how the call goes on: a body is compiled if one begins, or the routine is left as declared
  forward.

`Call.Runs.parts` puts these together.  Since every part is given by the run of a production, what is known
of the productions applies to the parts.
-/

namespace FrontEnd

open Production

/-! ## Names -/

/-- The table with an entry for an invented name. -/
def SymbolTable.enterInvented (table : SymbolTable) (name : String) : SymbolTable :=
  match table.lookupLocal name with
  | none => table.bindNew (Text.lower name)
  | some _ => (table.createDetached name .undefined .undefined).2

/-- What is found where the name of a routine is expected at the current token: the entry for the name and whether its
routine has been declared forward, or nothing if the name is taken or missing; and the session after it. -/
inductive Session.Gives (session : Session) : Option (EntryId × Bool) → Session → Prop
  | reused {id : EntryId} {later : Session} : session.cursor.current.kind = .identifier →
      session.table.lookupLocal session.cursor.current.text = some id →
      (session.table.entry id).routine?.any Routine.isForward = true →
      Reads { session with
        table := session.table.modifyEntry id (·.addLine session.cursor.current.line) } later →
      Gives session (some (id, true)) later
  | entered {later : Session} : session.cursor.current.kind = .identifier →
      session.table.lookupLocal session.cursor.current.text = none →
      Reads { session with
        table := (session.table.bindNew (Text.lower session.cursor.current.text)).modifyEntry
          session.table.entries.size (·.addLine session.cursor.current.line) } later →
      Gives session (some (session.table.entries.size, false)) later
  | taken {other : EntryId} {later : Session} : session.cursor.current.kind = .identifier →
      session.table.lookupLocal session.cursor.current.text = some other →
      (session.table.entry other).routine?.any Routine.isForward = false →
      Reads { session with
        diagnostics := session.diagnostics ++
          [Diagnostic.atToken session.cursor.current .identifierRedefined] } later →
      Gives session none later
  | missing {later : Session} : session.cursor.current.kind ≠ .identifier → session.Reads later →
      Gives session none later

/-- What becomes of the name of a routine, which is expected at the current token: the entry of the routine,
whether it has been declared forward, and the session after it. -/
inductive Session.Names (session : Session) (invented : String) : EntryId × Bool → Session → Prop
  | reused {id : EntryId} {later : Session} : session.cursor.current.kind = .identifier →
      session.table.lookupLocal session.cursor.current.text = some id →
      (session.table.entry id).routine?.any Routine.isForward = true →
      Reads { session with
        table := session.table.modifyEntry id (·.addLine session.cursor.current.line) } later →
      Names session invented (id, true) later
  | entered {later : Session} : session.cursor.current.kind = .identifier →
      session.table.lookupLocal session.cursor.current.text = none →
      Reads { session with
        table := (session.table.bindNew (Text.lower session.cursor.current.text)).modifyEntry
          session.table.entries.size (·.addLine session.cursor.current.line) } later →
      Names session invented (session.table.entries.size, false) later
  | taken {other : EntryId} {read : Session} : session.cursor.current.kind = .identifier →
      session.table.lookupLocal session.cursor.current.text = some other →
      (session.table.entry other).routine?.any Routine.isForward = false →
      Reads { session with
        diagnostics := session.diagnostics ++
          [Diagnostic.atToken session.cursor.current .identifierRedefined] } read →
      Names session invented (session.table.entries.size, false)
        { read with table := session.table.enterInvented invented }
  | missing {read : Session} : session.cursor.current.kind ≠ .identifier → session.Reads read →
      Names session invented (session.table.entries.size, false)
        { read with table := session.table.enterInvented invented }

theorem SymbolTable.size_enterInvented (table : SymbolTable) (name : String) :
    (table.enterInvented name).entries.size = table.entries.size + 1 := by
  unfold enterInvented
  split <;> simp

/-- The entry that is named is one of the table. -/
theorem Session.Names.lt {session later : Session} {invented : String} {id : EntryId} {forwarded : Bool}
    (h : session.Names invented (id, forwarded) later) : id < later.table.entries.size := by
  cases h with
  | reused hkind hlocal hforward hreads =>
      have hroutine : (session.table.entry id).routine?.isSome := by
        cases hnone : (session.table.entry id).routine? <;> simp [hnone] at hforward ⊢
      simpa [hreads.table_eq] using SymbolTable.lt_of_routine? hroutine
  | entered hkind hlocal hreads => simp [hreads.table_eq]
  | taken | missing => simp [SymbolTable.size_enterInvented]

namespace Production

variable {session : Session} {invented : String}

/-- After the name, a parse reads on to where it can resume. -/
theorem leads_afterName {post : Session → Prop} (h : ∀ later, session.Reads later → post later) :
    Leads nextToken session (fun _ => True) fun _ moved =>
      Leads (synchronize afterRoutineName) moved (fun _ => True) fun _ later => post later := by
  refine (reads_nextToken.leads session).imp fun _ moved hmoved => ?_
  refine ((reads_synchronize afterRoutineName).leads moved).imp fun _ later hlater => ?_
  exact h later (hmoved.trans hlater)

theorem leads_enterOrDetach {post : EntryId → Session → Prop} (name : String) :
    Leads (enterOrDetach name) session (fun _ => True) post ↔
      post session.table.entries.size
        { session with table := session.table.enterInvented name } := by
  unfold enterOrDetach SymbolTable.enterInvented
  cases hlocal : session.table.lookupLocal name <;>
    simp [SymbolTable.enterLocal, SymbolTable.createDetached, hlocal]

/-- What becomes of the name that is expected at the current token. -/
theorem gives_givenName (session : Session) : Leads givenName session (fun _ => True) session.Gives := by
  unfold givenName
  rw [leads_bind, leads_current]
  by_cases hkind : session.cursor.current.kind = .identifier
  · rw [if_pos (beq_iff_eq.mpr hkind)]
    cases hlocal : session.table.lookupLocal session.cursor.current.text with
    | none =>
        simp only [namedRoutine, leads_bind, leads_table, hlocal, enterLocal, leads_onTable,
          SymbolTable.enterLocal, Option.map_some, leads_pure]
        exact leads_afterName fun later hlater => .entered hkind hlocal hlater
    | some other =>
        simp only [namedRoutine, leads_bind, leads_table, hlocal]
        by_cases hforward : (session.table.entry other).routine?.any Routine.isForward = true
        · simp only [hforward, if_true, leads_pure]
          exact leads_afterName fun later hlater => .reused hkind hlocal hforward hlater
        · simp only [hforward, Bool.false_eq_true, if_false, flag, leads_bind, leads_current,
            leads_flagAt, leads_pure]
          exact leads_afterName fun later hlater => .taken hkind hlocal (by simpa using hforward) hlater
  · rw [if_neg (by simpa using hkind)]
    simp only [flag, leads_bind, leads_current, leads_flagAt, leads_pure]
    exact .missing hkind (.flag session session.cursor.current rfl)

/-- In the place of a name that is not given an invented one is entered. -/
theorem names_routineName (invented : String) (session : Session) :
    Leads (routineName invented) session (fun _ => True) (session.Names invented) := by
  refine (gives_givenName session).bind fun found given hgiven => ?_
  cases hgiven with
  | reused hkind hlocal hforward hreads => exact .reused hkind hlocal hforward hreads
  | entered hkind hlocal hreads => exact .entered hkind hlocal hreads
  | taken hkind hlocal hforward hreads =>
      simp only [leads_bind, leads_pure]
      rw [leads_enterOrDetach, hreads.table_eq]
      exact .taken hkind hlocal hforward hreads
  | missing hkind hreads =>
      simp only [leads_bind, leads_pure]
      rw [leads_enterOrDetach, hreads.table_eq]
      exact .missing hkind hreads

end Production

/-! ## Calls -/

/-- A call of the production for routines: what it is given and where it begins, what is found before the
name and from where the name is read, which routine is compiled and whether it has been declared forward,
and where the naming and the whole call end. -/
structure Call where
  type : Option DataType
  before : Session
  kind : DefinitionKind
  invented : String
  started : Session
  id : EntryId
  forwarded : Bool
  named : Session
  after : Session

namespace Call

/-- The token at which the name of the routine is expected. -/
def name (call : Call) : Token := call.started.cursor.current

/-- Whether these are the runs of the production and of its first two parts, where a header can begin. -/
structure Runs (program : EntryId) (call : Call) : Prop where
  start : call.before.cursor.current.kind = .voidWord ∨ call.before.cursor.current.kind = .identifier
  kind : routineKind call.before = .ok ((call.kind, call.invented), call.started)
  naming : routineName call.invented call.started = .ok ((call.id, call.forwarded), call.named)
  whole : routine program call.type call.before = .ok ((), call.after)

/-- Every run of the production is a call. -/
theorem exists_runs {program : EntryId} {type : Option DataType} {before after : Session}
    (hstart : before.cursor.current.kind = .voidWord ∨ before.cursor.current.kind = .identifier)
    (h : routine program type before = .ok ((), after)) :
    ∃ call : Call, call.before = before ∧ call.after = after ∧ call.Runs program := by
  obtain ⟨⟨kind, invented⟩, started, hkind, hrest⟩ := exists_of_bind h
  obtain ⟨⟨id, forwarded⟩, named, hname, -⟩ := exists_of_bind hrest
  exact ⟨⟨type, before, kind, invented, started, id, forwarded, named, after⟩, rfl, rfl,
    hstart, hkind, hname, h⟩

/-- The session in which the routine has been opened and put in its place. -/
def begun (call : Call) (program : EntryId) : Session :=
  { call.named with
    table := ((call.named.table.marked call.id call.kind call.forwarded).entered call.id).placed program
      call.id ((call.named.table.entry call.id).beginsProgram call.kind) call.forwarded }

/-- Whether the header repeats a declaration and goes on after its name. -/
def repeated (call : Call) : Bool :=
  call.forwarded && call.named.cursor.current.kind != .semicolon

/-- The session in which it has been checked whether the header may go on. -/
def checked (call : Call) (program : EntryId) : Session :=
  { call.begun program with
    diagnostics := call.named.diagnostics ++
      if call.repeated then [Diagnostic.atToken call.named.cursor.current .alreadyForwarded] else [] }

/-- The table in which the parameters of the routine have been recorded, and the type of a function. -/
def typed (call : Call) (table : SymbolTable) (parameters : List EntryId) : SymbolTable :=
  let table := table.modifyRoutine call.id fun known => { known with parameters }
  if call.kind == .function then
    table.modifyEntry call.id fun entry => { entry with type := some (call.type.getD .undefined) }
  else table

/-- How a call goes on after its header. -/
inductive Ends (call : Call) (headed : Session) : Session → Prop
  | declared {made : Session} {body : Node} : headed.cursor.current.kind = .leftBrace →
      compound call.id (headed.staged call.id .declared) = .ok (body, made) →
      Ends call headed { made with
        table := made.table.modifyRoutine call.id fun known => { known with body := some body } }
  | forward {later : Session} : headed.cursor.current.kind ≠ .leftBrace →
      (headed.staged call.id .forward).Reads later → Ends call headed later

variable {program : EntryId} {call : Call}

theorem ends_bodyOrForward {headed closed : Session}
    (h : bodyOrForward call.id headed = .ok ((), closed)) : call.Ends headed closed := by
  suffices hleads : Leads (bodyOrForward call.id) headed (fun _ => True) fun _ => call.Ends headed from
    (leads_of_ok h).mp hleads
  unfold bodyOrForward
  rw [leads_bind, leads_currentKind]
  split
  · next hbrace =>
      have hmade := leads_run (compound call.id) (headed.staged call.id .declared)
      rw [leads_bind]
      show Leads _ (headed.staged call.id .declared) _ _
      rw [leads_bind]
      exact hmade.imp fun _ _ hmade => .declared hbrace hmade
  · next hsemicolon =>
      have hread := (reads_nextToken.bind fun _ => Relates.pure ()).leads (headed.staged call.id .forward)
      exact hread.imp fun _ _ hlater => .forward (by simp [hsemicolon]) hlater
  · next hbrace hsemicolon => exact .forward hbrace (refl _)

/-- After the parameters a function gets its type; an error can be recorded. -/
theorem typed_header {checked headed : Session}
    (h : header call.id call.kind call.type checked = .ok ((), headed)) :
    ∃ parameters read reported, enclosedParameters checked = .ok (parameters, read) ∧
      read.Reads reported ∧
        headed = { reported with table := call.typed read.table parameters } := by
  obtain ⟨_, listed, hlist, hrest⟩ := exists_of_bind h
  obtain ⟨parameters, read, hread, hrecord⟩ := exists_of_bind hlist
  cases hrecord
  refine ⟨parameters, read, ?_⟩
  by_cases hfunction : call.kind = .function
  · rw [if_pos (beq_iff_eq.mpr hfunction)] at hrest
    obtain ⟨token, current, hcurrent, hensured⟩ := exists_of_bind hrest
    cases hcurrent
    obtain ⟨_, ensured, hensure, hset⟩ := exists_of_bind hensured
    cases hset
    have hreads := (reads_ensure _ _ rfl).of_run hensure
    cases hreads with
    | intro cursor added hcursor hadded =>
        refine ⟨_, hread, .intro cursor added hcursor hadded, ?_⟩
        simp [typed, hfunction]
  · rw [if_neg (by simpa using hfunction)] at hrest
    cases hrest
    exact ⟨read, hread, refl _, by simp [typed, hfunction]⟩

theorem run_checked (call : Call) (program : EntryId) :
    ensure (!call.forwarded || call.named.cursor.current.kind == .semicolon) call.named.cursor.current
      .alreadyForwarded (call.begun program) = .ok ((), call.checked program) := by
  unfold Call.checked repeated
  cases call.forwarded <;> cases hsemicolon : call.named.cursor.current.kind == .semicolon <;>
    simp [ensure, hsemicolon, bne, flagAt, begun, pure_eq, modify_eq]

/-- The parts of a call after its naming: the header ends in `headed`, and the body, or what stands in its
place, in `closed`. -/
structure Parts (program : EntryId) (call : Call) (headed closed : Session) : Prop where
  header : header call.id call.kind call.type (call.checked program) = .ok ((), headed)
  body : bodyOrForward call.id headed = .ok ((), closed)
  after : call.after = { closed with table := closed.table.pop.2 }

theorem Runs.parts (h : call.Runs program) (hprogram : call.named.table.program = some program) :
    ∃ headed closed, call.Parts program headed closed := by
  have hwhole := h.whole
  rw [routine, bind_of_ok h.kind] at hwhole
  dsimp only at hwhole
  rw [bind_of_ok h.naming] at hwhole
  dsimp only at hwhole
  rw [← bind_assoc, bind_of_ok (run_opening hprogram)] at hwhole
  obtain ⟨token, current, hcurrent, hensures⟩ := exists_of_bind hwhole
  cases hcurrent
  obtain ⟨_, checked, hensure, hheads⟩ := exists_of_bind hensures
  obtain ⟨_, headed, hheader, hbodies⟩ := exists_of_bind hheads
  obtain ⟨_, closed, hbody, hcloses⟩ := exists_of_bind hbodies
  have hchecked : checked = call.checked program :=
    (congrArg Prod.snd (Except.ok.inj ((run_checked call program).symm.trans hensure))).symm
  rw [hchecked] at hheader
  have hclose : (do
      let _ ← onTable (·.pop)) closed = .ok ((), { closed with table := closed.table.pop.2 }) := rfl
  exact ⟨headed, closed, hheader, hbody,
    (congrArg Prod.snd (Except.ok.inj (hclose.symm.trans hcloses))).symm⟩

/-! ## Calls in a lawful session -/

section

variable {known : Token → Prop}

/-- A call that is made where an item of the program can be taken. -/
structure Made (known : Token → Prop) (program : EntryId) (call : Call) : Prop where
  lawful : call.before.Lawful known
  hosts : call.before.Hosts program
  place : call.before.table.program = some program
  runs : call.Runs program

namespace Made

/-- What comes before the name changes nothing in the table. -/
theorem started (h : call.Made known program) :
    Steps known .header call.before call.started ∧ call.started.Lawful known ∧
      call.started.table = call.before.table ∧ call.kind ∈ DefinitionKind.callables ∧
        Invented call.invented :=
  (leads_of_ok h.runs.kind).mp (traced_routineKind h.lawful h.runs.start)

/-- A routine is named and opened in its place. -/
theorem opens (h : call.Made known program) :
    Opens known program call.id call.kind call.forwarded call.before call.named
      (call.begun program) := by
  obtain ⟨hstart, hstarted, htable, hcallable, hinvented⟩ := h.started
  obtain ⟨hname, hnamed, htarget⟩ :=
    (leads_of_ok h.runs.naming).mp (traced_routineName hstarted hinvented)
  rw [htable] at htarget
  have hnaming := hstart.trans hname
  have hsteady := hnaming.steady h.lawful nofun
  have hplace : call.named.table.program = some program := hsteady.program.trans h.place
  have hlt := Nat.lt_of_lt_of_le h.hosts.lt hsteady.size_le
  have hne : call.id ≠ program := htarget.ne_program h.hosts
  obtain ⟨-, hbegun, hbegins, -, hdiagnostics⟩ := (leads_of_ok (run_opening hplace)).mp
    (traced_opening hnamed hcallable htarget hplace hlt hne)
  exact ⟨hcallable, hnaming, htarget, hne, hplace, hbegins, hdiagnostics, hbegun⟩

theorem parts (h : call.Made known program) : ∃ headed closed, call.Parts program headed closed :=
  h.runs.parts h.opens.place

/-- The header of a routine that has been opened, and what follows it. -/
theorem heads (h : call.Made known program) (himproper : Improper known) {headed closed : Session}
    (hparts : call.Parts program headed closed) :
    Steps known .header (call.begun program) headed ∧ headed.Lawful known ∧
      (call.forwarded = true → headed.Repeats) ∧ FrontEnd.Finishes known call.id headed closed := by
  have hopens := h.opens
  obtain ⟨hcheck, hchecked, -, htable, hforward⟩ := (leads_of_ok (run_checked call program)).mp
    (traced_ensureOrFlag _ _ hopens.lawful hopens.lawful.current rfl)
  have hid : call.id < (call.checked program).table.entries.size := by
    rw [htable, hopens.begins.size]
    exact hopens.target.lt
  have hkind : ((call.checked program).table.entry call.id).kind = call.kind := by
    rw [htable, Entry.kind, hopens.begins.definition, (kind_ofRoutine hopens.callable _).1]
  obtain ⟨hheading, hheaded, -, -, hmissing⟩ := (leads_of_ok hparts.header).mp
    (traced_header call.type hchecked hid hkind hopens.callable)
  obtain ⟨-, -, hfinishes⟩ := (leads_of_ok hparts.body).mp (finishes_bodyOrForward himproper hheaded)
  -- where a semicolon was asked for and stands, the parameters are missing
  have hrepeats : call.forwarded = true → headed.Repeats := by
    intro hforwarded
    rcases hforward with hsemicolon | hflagged
    · have hcurrent : call.named.cursor.current.kind = .semicolon := by simpa [hforwarded] using hsemicolon
      exact Or.inr (hmissing hcurrent)
    · exact Or.inl (hheading.flagged hflagged)
  exact ⟨hcheck.trans hheading, hheaded, hrepeats, hfinishes⟩

/-- A call is an item. -/
theorem item (h : call.Made known program) (himproper : Improper known) :
    Item known program call.before call.after := by
  obtain ⟨headed, closed, hparts⟩ := h.parts
  obtain ⟨hheading, -, hrepeats, hfinishes⟩ := h.heads himproper hparts
  rw [hparts.after]
  exact .routine h.opens hheading hrepeats hfinishes

end Made

end

end Call

end FrontEnd
