import FrontEnd.Proofs.Extent
import FrontEnd.Proofs.Integrity

/-!
# The life cycle of routines

A routine is declared forward by any number of headers, until one of them supplies a body; then it is
declared in full, and stays as it is.  A call of the production for routines finds what its name means in
the scope of the program (`Call.found?`), and there are three cases:

* the name is free, and a new routine is entered;
* the name leads to a routine that is declared forward, and the call works on that routine (`Call.Reuses`);
* the name is taken otherwise, in particular by a routine that is declared in full, and the call works on a
  new routine with an invented name (`Call.Replaces`).

What the errors of a call say about names is told by `Call.Reports`.  In a name that is taken there is one
redefinition, and a repeated header is reported once.  A redefinition besides that is one of the parameters
or in the body, and concerns a name that the scope of the routine binds; it can occur in any header
(`lifeCycles_parameters`).

From one call to another the name keeps its meaning, and the routine stays what it is unless a call works on
it, which only happens while it is declared forward (`SymbolTable.Preserves`).  So the cases of a single
call add up to those of a sequence (`compile_lifeCycles`).
-/

namespace FrontEnd

open Production

/-! ## Errors about names -/

theorem Diagnostic.countOf_append (first second : List Diagnostic) (kind : ErrorKind) :
    countOf (first ++ second) kind = countOf first kind + countOf second kind :=
  List.countP_append

theorem Diagnostic.countOf_eq_zero {reports : List Diagnostic} {kind : ErrorKind}
    (h : ∀ report ∈ reports, report.kind ≠ kind) : countOf reports kind = 0 :=
  List.countP_eq_zero.mpr fun report hmem => by simpa using h report hmem

/-- Some errors that say nothing about how names are declared. -/
def Diagnostic.Silent (reports : List Diagnostic) : Prop :=
  ∀ report ∈ reports, report.kind.ofNames = false

theorem Diagnostic.Silent.countOf {reports : List Diagnostic} (h : Silent reports) :
    countOf reports .identifierRedefined = 0 ∧ countOf reports .alreadyForwarded = 0 :=
  ⟨countOf_eq_zero fun report hmem => (ErrorKind.ne_of_ofNames (h report hmem)).1,
    countOf_eq_zero fun report hmem => (ErrorKind.ne_of_ofNames (h report hmem)).2⟩

namespace Session

/-- Whether the errors that have been recorded since say nothing about how names are declared. -/
def Quiet (session later : Session) : Prop :=
  ∃ added, later.diagnostics = session.diagnostics ++ added ∧ Diagnostic.Silent added

theorem Quiet.trans {first second third : Session} (h : first.Quiet second) (h' : second.Quiet third) :
    first.Quiet third := by
  obtain ⟨added, hadded, hsilent⟩ := h
  obtain ⟨more, hmore, hsilent'⟩ := h'
  refine ⟨added ++ more, by rw [hmore, hadded, List.append_assoc], fun report hmem => ?_⟩
  exact (List.mem_append.mp hmem).elim (hsilent report) (hsilent' report)

theorem Quiet.of_diagnostics {session later : Session} (h : later.diagnostics = session.diagnostics) :
    session.Quiet later :=
  ⟨[], by rw [h, List.append_nil], nofun⟩

theorem Reads.quiet {session later : Session} (h : session.Reads later) : session.Quiet later := by
  cases h with
  | intro cursor added hcursor hadded => exact ⟨added, rfl, hadded⟩

instance : Std.Refl Quiet := ⟨fun _ => .of_diagnostics rfl⟩

instance : IsTrans Session Quiet := ⟨fun _ _ _ => .trans⟩

end Session

theorem Production.quiet_routineKind : Relates Session.Quiet routineKind := by
  have hinvent (stem : String) : Relates Session.Quiet (inventName stem) := by
    refine ⟨fun session => ?_⟩
    exact .of_diagnostics rfl
  refine (Relates.read _).bind fun kind => ?_
  split
  · exact (reads_nextToken.mono fun _ _ => Session.Reads.quiet).bind fun _ =>
      (hinvent _).bind fun _ => .pure _
  · exact (hinvent _).bind fun _ => .pure _
  · exact .pure _

/-- Where a semicolon stands in the place of the parameters, it still stands there after the header. -/
theorem Production.cursor_header {session later : Session} {routine : EntryId} {kind : DefinitionKind}
    {type : Option DataType} (hsemicolon : session.cursor.current.kind = .semicolon)
    (hrun : header routine kind type session = .ok ((), later)) : later.cursor = session.cursor := by
  have hstays : beforeParameters.contains .semicolon = true := by decide
  suffices hleads : Leads (header routine kind type) session (fun _ => True) fun _ later =>
      later.cursor = session.cursor from (leads_of_ok hrun).mp hleads
  unfold header formalParameters enclosedParameters synchronize functionType
  simp only [leads_bind, leads_current, hsemicolon, hstays, if_true, leads_pure, flag, leads_flagAt,
    leads_changeRoutine, reduceCtorEq, beq_iff_eq, if_false]
  split
  · cases hscalar : (type.getD .undefined).form == .scalar <;> simp [ensure]
  · rfl

/-! ## What a name means -/

theorem SymbolTable.isForward_iff {table : SymbolTable} {id : EntryId} :
    (table.entry id).routine?.any Routine.isForward = true ↔
      (table.entry id).stage? = some .forward := by
  rw [Entry.stage?]
  cases (table.entry id).routine? <;> simp [Routine.isForward]

/-- What an identifier means in the innermost scope of a table; other tokens mean nothing. -/
def SymbolTable.found? (table : SymbolTable) (name : Token) : Option EntryId :=
  if name.kind == .identifier then table.lookupLocal name.text else none

namespace Session.Names

variable {session later : Session} {invented : String} {id : EntryId} {forwarded : Bool}

/-- The name leads to a routine that is declared forward just if the entry of that is used again. -/
theorem reused_iff (h : session.Names invented (id, forwarded) later) {known : EntryId} :
    session.table.found? session.cursor.current = some known ∧
      (session.table.entry known).stage? = some .forward ↔ id = known ∧ forwarded = true := by
  rw [← SymbolTable.isForward_iff]
  cases h with
  | reused hkind hlocal hforward hreads =>
      simp only [SymbolTable.found?, hkind, hlocal, beq_self_eq_true, if_true, Option.some.injEq, and_true]
      exact ⟨And.left, fun hsame => ⟨hsame, hsame ▸ hforward⟩⟩
  | entered hkind hlocal hreads => simp [SymbolTable.found?, hkind, hlocal]
  | taken hkind hlocal hforward hreads =>
      simp only [SymbolTable.found?, hkind, hlocal, beq_self_eq_true, if_true, Option.some.injEq,
        Bool.false_eq_true, and_false, iff_false]
      rintro ⟨rfl, hforward'⟩
      simp [hforward] at hforward'
  | missing hkind hreads => simp [SymbolTable.found?, hkind]

/-- Where the entry of a routine is used again, no scope changes. -/
theorem scopes_of_forwarded (h : session.Names invented (id, true) later) :
    later.table.scopes = session.table.scopes := by
  cases h with
  | reused hkind hlocal hforward hreads => rw [hreads.table_eq]; rfl

/-- A name that is free is bound to a new entry. -/
theorem bound_of_free (h : session.Names invented (id, forwarded) later) (hvalid : session.table.Valid)
    (hkind : session.cursor.current.kind = .identifier)
    (hfree : session.table.lookupLocal session.cursor.current.text = none) :
    id = session.table.entries.size ∧
      later.table.lookupLocal session.cursor.current.text = some id := by
  cases h with
  | entered hkind' hlocal hreads =>
      refine ⟨rfl, ?_⟩
      rw [hreads.table_eq]
      show ((session.table.bindNew _).localScope).get? _ = _
      rw [SymbolTable.localScope_bindNew hvalid]
      exact SymbolTable.get?_bind_of_none hfree _
  | reused hkind' hlocal => simp [hfree] at hlocal
  | taken hkind' hlocal => simp [hfree] at hlocal
  | missing hkind' => exact absurd hkind hkind'

/-- In the place of a name that is taken, an invented one is entered. -/
theorem name_of_taken (h : session.Names invented (id, false) later)
    (hfound : (session.table.found? session.cursor.current).isSome) :
    id = session.table.entries.size ∧ (later.table.entry id).name = Text.lower invented := by
  have hname (table : SymbolTable) :
      ((table.enterInvented invented).entry table.entries.size).name = Text.lower invented := by
    unfold SymbolTable.enterInvented
    split
    · rw [SymbolTable.entry_bindNew, if_pos rfl]
    · rw [SymbolTable.entry_createDetached, if_pos rfl]
  cases h with
  | entered hkind hlocal => simp [SymbolTable.found?, hkind, hlocal] at hfound
  | missing hkind => simp [SymbolTable.found?, hkind] at hfound
  | taken => exact ⟨rfl, hname session.table⟩

/-- A redefinition is reported of a name that is taken, and nothing else is about how names are declared. -/
theorem reports (h : session.Names invented (id, forwarded) later) :
    ∃ silent, Diagnostic.Silent silent ∧ later.diagnostics = session.diagnostics ++
      ((if (session.table.found? session.cursor.current).isSome && !forwarded then
        [Diagnostic.atToken session.cursor.current .identifierRedefined] else []) ++ silent) := by
  cases h with
  | reused hkind hlocal hforward hreads =>
      obtain ⟨silent, hlater, hsilent⟩ := hreads.quiet
      exact ⟨silent, hsilent, by simpa using hlater⟩
  | entered hkind hlocal hreads =>
      obtain ⟨silent, hlater, hsilent⟩ := hreads.quiet
      exact ⟨silent, hsilent, by simpa [SymbolTable.found?, hkind, hlocal] using hlater⟩
  | taken hkind hlocal hforward hreads =>
      obtain ⟨silent, hlater, hsilent⟩ := hreads.quiet
      exact ⟨silent, hsilent, by simpa [SymbolTable.found?, hkind, hlocal] using hlater⟩
  | missing hkind hreads =>
      obtain ⟨silent, hlater, hsilent⟩ := hreads.quiet
      exact ⟨silent, hsilent, by simpa [SymbolTable.found?, hkind] using hlater⟩

end Session.Names

/-! ## The reports of a call -/

namespace Call

/-- What the name of the routine means before the call. -/
def found? (call : Call) : Option EntryId :=
  call.before.table.found? call.name

/-- Whether the name of the routine is taken, and not by a routine that is declared forward. -/
def taken (call : Call) : Bool :=
  call.found?.isSome && !call.forwarded

/-- The error that the name is taken, if it is. -/
def redefinition (call : Call) : List Diagnostic :=
  if call.taken then [Diagnostic.atToken call.name .identifierRedefined] else []

/-- The error that the header repeats one before it and goes on after the name, if it does. -/
def repetition (call : Call) : List Diagnostic :=
  if call.repeated then [Diagnostic.atToken call.named.cursor.current .alreadyForwarded] else []

/-- Whether an error says nothing about how names are declared, but for a redefinition of a name that the
scope of the routine binds. -/
def Keeps (call : Call) (report : Diagnostic) : Prop :=
  report.kind ≠ .alreadyForwarded ∧ (report.kind = .identifierRedefined →
    (call.after.table.scope call.before.table.scopes.size).get? (Text.lower report.text) ≠ none)

/-- What the errors of a call say about how names are declared: whether the name of the routine is taken,
whether the header repeats one before it, and which names are bound already in the scope of the routine. -/
structure Reports (call : Call) : Prop where
  naming : ∃ first second, Diagnostic.Silent first ∧ Diagnostic.Silent second ∧
    call.named.diagnostics = call.before.diagnostics ++ (first ++ call.redefinition ++ second)
  rest : ∃ added, call.after.diagnostics = call.named.diagnostics ++ (call.repetition ++ added) ∧
    ∀ report ∈ added, call.Keeps report

theorem keeps_of_silent {call : Call} {reports : List Diagnostic} (h : Diagnostic.Silent reports) :
    ∀ report ∈ reports, call.Keeps report := by
  intro report hmem
  obtain ⟨hredefined, hforwarded⟩ := ErrorKind.ne_of_ofNames (h report hmem)
  exact ⟨hforwarded, fun hkind => absurd hkind hredefined⟩

namespace Reports

variable {call : Call}

/-- In the naming, a redefinition is reported just if the name is taken, and then once. -/
theorem countOf_named (h : call.Reports) :
    Diagnostic.countOf call.named.diagnostics .identifierRedefined =
      Diagnostic.countOf call.before.diagnostics .identifierRedefined + if call.taken then 1 else 0 := by
  obtain ⟨first, second, hfirst, hsecond, hnamed⟩ := h.naming
  have hself : Diagnostic.countOf call.redefinition .identifierRedefined = if call.taken then 1 else 0 := by
    unfold redefinition
    split <;> rfl
  rw [hnamed]
  simp only [Diagnostic.countOf_append, hfirst.countOf.1, hsecond.countOf.1, hself]
  omega

/-- A repeated header is reported just if it goes on after its name, and then once. -/
theorem countOf_after (h : call.Reports) :
    Diagnostic.countOf call.after.diagnostics .alreadyForwarded =
      Diagnostic.countOf call.before.diagnostics .alreadyForwarded + if call.repeated then 1 else 0 := by
  obtain ⟨first, second, hfirst, hsecond, hnamed⟩ := h.naming
  obtain ⟨added, hafter, hadded⟩ := h.rest
  have hnone : Diagnostic.countOf added .alreadyForwarded = 0 :=
    Diagnostic.countOf_eq_zero fun report hmem => (hadded report hmem).1
  have hother : Diagnostic.countOf call.redefinition .alreadyForwarded = 0 := by
    unfold redefinition
    split <;> rfl
  have hself : Diagnostic.countOf call.repetition .alreadyForwarded = if call.repeated then 1 else 0 := by
    unfold repetition
    split <;> rfl
  rw [hafter, hnamed]
  simp only [Diagnostic.countOf_append, hfirst.countOf.2, hsecond.countOf.2, hother, hself, hnone]
  omega

end Reports

/-- What a scope binds it still binds whatever a routine does. -/
theorem endures_bound (stores : List DefinitionKind) (routine : EntryId) (opened scope : ScopeId)
    (key : String) :
    SymbolTable.Endures stores routine opened fun table => (table.scope scope).get? key ≠ none where
  extend := by
    intro first second hbound hvalid _ hextends
    obtain ⟨id, hid⟩ := Option.ne_none_iff_exists'.mp hbound
    rw [SymbolTable.get?_of_prefix ((hextends.steady hvalid).bindings scope) hid]
    exact Option.some_ne_none id
  reworks hbound _ := hbound
  pop hbound := by rwa [SymbolTable.scope_pop]

namespace Made

variable {known : Token → Prop} {program : EntryId} {call : Call}

theorem found?_eq (h : call.Made known program) :
    call.started.table.found? call.started.cursor.current = call.found? := by
  rw [h.started.2.2.1]
  rfl

/-- The name leads to a routine that is declared forward just if the call works on that routine. -/
theorem reused_iff (h : call.Made known program) {id : EntryId} :
    call.found? = some id ∧ (call.before.table.entry id).stage? = some .forward ↔
      call.id = id ∧ call.forwarded = true := by
  rw [← h.found?_eq, ← h.started.2.2.1]
  exact h.names.reused_iff

/-- A header reports redefinitions of names only that the scope of the routine binds. -/
theorem keeps_header (h : call.Made known program) (himproper : Improper known) {headed closed : Session}
    (hparts : call.Parts program headed closed) :
    ∃ added, headed.diagnostics = call.named.diagnostics ++ (call.repetition ++ added) ∧
      ∀ report ∈ added, call.Keeps report := by
  obtain ⟨parameters, read, reported, hread, hreports, rfl⟩ := typed_header hparts.header
  have hmoves := moves_parameters hread
  obtain ⟨listed, hlisted, hparameters⟩ := hmoves.reports h.opens.lawful.valid
  obtain ⟨typing, htyping, hsilent⟩ := hreports.quiet
  have hlocal : read.table.localScopeId = call.before.table.scopes.size := by
    rw [SymbolTable.localScopeId, hmoves.openScopes]
    exact h.localScopeId
  refine ⟨listed ++ typing, ?_, fun report hmem => ?_⟩
  · show reported.diagnostics = _
    rw [htyping, hlisted, checked, repetition]
    simp only [List.append_assoc]
  · rcases List.mem_append.mp hmem with hlist | htype
    · -- what is bound when the parameters have been read stays bound
      refine ⟨(hparameters report hlist).1, fun hkind => ?_⟩
      refine h.endures_rest himproper hread (endures_bound _ _ _ _ _) ?_
      have hbound := (hparameters report hlist).2 hkind
      rwa [SymbolTable.localScope, hlocal] at hbound
    · exact keeps_of_silent hsilent report htype

/-- And so does a body. -/
theorem keeps_body (h : call.Made known program) (himproper : Improper known) {headed closed : Session}
    (hparts : call.Parts program headed closed) :
    ∃ added, closed.diagnostics = headed.diagnostics ++ added ∧ ∀ report ∈ added, call.Keeps report := by
  obtain ⟨hheading, hheaded, -, -⟩ := h.heads himproper hparts
  cases ends_bodyOrForward hparts.body with
  | forward hbrace hreads =>
      obtain ⟨added, hadded, hsilent⟩ := hreads.quiet
      exact ⟨added, hadded, keeps_of_silent hsilent⟩
  | @declared made body hbrace hcompound =>
      have hmoves := (Production.stays_compound call.id).of_run hcompound
      have hvalid := (hheaded.staged call.id .declared).valid
      obtain ⟨added, hadded, hall⟩ := hmoves.reports hvalid
      have hlocal : made.table.localScopeId = call.before.table.scopes.size :=
        ((hmoves.steady hvalid).localScopeId.trans
          (hheading.steady h.opens.lawful nofun).localScopeId).trans h.localScopeId
      refine ⟨added, hadded, fun report hmem => ⟨(hall report hmem).1, fun hkind => ?_⟩⟩
      have hbound := (hall report hmem).2 hkind
      rw [SymbolTable.localScope, hlocal] at hbound
      rw [hparts.after]
      show (SymbolTable.scope (SymbolTable.pop _).2 _).get? _ ≠ none
      rw [SymbolTable.scope_pop]
      exact hbound

theorem reports (h : call.Made known program) (himproper : Improper known) : call.Reports := by
  constructor
  · obtain ⟨first, hstarted, hfirst⟩ := Production.quiet_routineKind.of_run h.runs.kind
    obtain ⟨second, hsecond, hnamed⟩ := h.names.reports
    refine ⟨first, second, hfirst, hsecond, ?_⟩
    rw [hnamed, hstarted, h.found?_eq, redefinition, taken, name]
    simp only [List.append_assoc]
  · obtain ⟨headed, closed, hparts⟩ := h.parts
    obtain ⟨listed, hlisted, hheader⟩ := h.keeps_header himproper hparts
    obtain ⟨added, hadded, hbody⟩ := h.keeps_body himproper hparts
    have hclosed : call.after.diagnostics = closed.diagnostics := by rw [hparts.after]
    refine ⟨listed ++ added, by rw [hclosed, hadded, hlisted]; simp only [List.append_assoc], ?_⟩
    intro report hmem
    exact (List.mem_append.mp hmem).elim (hheader report) (hbody report)

end Made

/-! ## The routine of a call -/

/-- A call works on a routine that is declared forward.  Nothing is entered outside of the scope of the
routine, whose place in the program stays the same; no redefinition is reported of the name; and the header
is reported if it goes on after its name, which it does if it supplies a body. -/
structure Reuses (program : EntryId) (call : Call) (id : EntryId) : Prop where
  same : call.id = id
  scopes : ∀ scope < call.before.table.scopes.size,
    call.after.table.scope scope = call.before.table.scope scope
  inside : ∀ other, call.before.table.entries.size ≤ other → other < call.after.table.entries.size →
    (call.after.table.entry other).scope = call.before.table.scopes.size
  listed : (call.after.table.entry program).lists.1 = (call.before.table.entry program).lists.1
  redefined : Diagnostic.countOf call.named.diagnostics .identifierRedefined =
    Diagnostic.countOf call.before.diagnostics .identifierRedefined
  repeated : Diagnostic.countOf call.after.diagnostics .alreadyForwarded =
    Diagnostic.countOf call.before.diagnostics .alreadyForwarded + if call.repeated then 1 else 0
  body : (call.after.table.entry id).stage? = some .declared → call.repeated = true

/-- A call works on a new routine, the only one that it makes, because its name is taken by the routine `id`.
The new one has an invented name and is listed by the program; the other one stays as it is. -/
structure Replaces (program : EntryId) (call : Call) (id : EntryId) : Prop where
  fresh : call.id = call.before.table.entries.size
  callable : (call.after.table.entry call.id).IsCallable
  sole : ∀ other, call.before.table.entries.size ≤ other → other ≠ call.id →
    (call.after.table.entry other).routine? = none
  invented : ∃ name, Invented name ∧ (call.after.table.entry call.id).name = Text.lower name
  listed : (call.after.table.entry program).lists.1 =
    (call.before.table.entry program).lists.1 ++ [call.id]
  redefined : Diagnostic.countOf call.named.diagnostics .identifierRedefined =
    Diagnostic.countOf call.before.diagnostics .identifierRedefined + 1
  repeated : Diagnostic.countOf call.after.diagnostics .alreadyForwarded =
    Diagnostic.countOf call.before.diagnostics .alreadyForwarded
  kept : (call.before.table.entry id).Agrees (call.after.table.entry id)

namespace Made

variable {known : Token → Prop} {program : EntryId} {call : Call}

/-- What the program lists after a call. -/
theorem lists_program (h : call.Made known program) (himproper : Improper known) :
    (call.after.table.entry program).lists =
      if (call.named.table.entry call.id).beginsProgram call.kind then
        ((call.before.table.entry program).lists.1, some call.id)
      else if call.forwarded then (call.before.table.entry program).lists
      else ((call.before.table.entry program).lists.1 ++ [call.id],
        (call.before.table.entry program).lists.2) := by
  have hnamed := h.opens.target.grows.agrees program h.hosts.lt
  have hlt : program < (call.begun program).table.entries.size := by
    rw [h.opens.begins.size]
    exact Nat.lt_of_lt_of_le h.hosts.lt h.opens.target.grows.size_le
  have hafter := (h.spares himproper).agrees program hlt (Ne.symm h.opens.apart)
  have hlists {first second : Entry} (h : first.Agrees second) : second.lists = first.lists := by
    rw [Entry.lists, h.routine?, Entry.lists]
  rw [hlists hafter, h.opens.begins.lists_program, hlists hnamed]
  exact Entry.isSome_of_kind_program (hnamed.kind.trans h.hosts.kind)

/-- The routine of a call has the name that it has got in the naming. -/
theorem name_eq (h : call.Made known program) (himproper : Improper known) :
    (call.after.table.entry call.id).name = (call.named.table.entry call.id).name := by
  rw [(h.spares himproper).name, h.opens.begins.name]

/-- A routine is declared forward where no body begins. -/
theorem stage_of_forward (h : call.Made known program) (himproper : Improper known)
    {headed closed : Session} (hparts : call.Parts program headed closed)
    (hbrace : headed.cursor.current.kind ≠ .leftBrace) :
    (call.after.table.entry call.id).stage? = some .forward := by
  obtain ⟨hheading, -, -, -⟩ := h.heads himproper hparts
  have hsteady := hheading.steady h.opens.lawful nofun
  have hlt : call.id < (call.begun program).table.entries.size := by
    rw [h.opens.begins.size]
    exact h.opens.target.lt
  have hid : call.id < headed.table.entries.size := Nat.lt_of_lt_of_le hlt hsteady.size_le
  have hroutine : (headed.table.entry call.id).routine?.isSome := by
    rw [(hsteady.entry call.id hlt).routine?_isSome, h.opens.begins.routine?]
    rfl
  obtain ⟨routine, hsome⟩ := Option.isSome_iff_exists.mp hroutine
  have hstaged : ((headed.staged call.id .forward).table.entry call.id).stage? = some .forward := by
    show (((headed.table.modifyRoutine call.id _).entry call.id).routine?).bind _ = _
    rw [SymbolTable.routine?_modifyRoutine hid, hsome]
    rfl
  rw [hparts.after]
  show (closed.table.pop.2.entry call.id).stage? = _
  rw [SymbolTable.entry_pop]
  cases ends_bodyOrForward hparts.body with
  | forward _ hreads => rwa [hreads.table_eq]
  | declared hbrace' => exact absurd hbrace' hbrace

/-- A header that repeats one before it and supplies a body goes on after its name. -/
theorem repeated_of_declared (h : call.Made known program) (himproper : Improper known)
    (hforwarded : call.forwarded = true)
    (hdeclared : (call.after.table.entry call.id).stage? = some .declared) : call.repeated = true := by
  by_contra hnot
  have hsemicolon : call.named.cursor.current.kind = .semicolon := by
    simpa [repeated, hforwarded] using hnot
  obtain ⟨headed, closed, hparts⟩ := h.parts
  have hchecked : (call.checked program).cursor.current.kind = .semicolon := hsemicolon
  have hcursor := cursor_header hchecked hparts.header
  have hforward := h.stage_of_forward himproper hparts (by rw [hcursor, hchecked]; decide)
  rw [hforward] at hdeclared
  cases hdeclared

/-- A name that is free leads to the new routine after the call. -/
theorem enters_of_free (h : call.Made known program) (himproper : Improper known)
    (hkind : call.name.kind = .identifier) (hfree : call.found? = none) :
    call.id = call.before.table.entries.size ∧
      call.after.table.lookupLocal call.name.text = some call.id := by
  obtain ⟨-, hstarted, htable, -⟩ := h.started
  have hlookup : call.started.table.lookupLocal call.started.cursor.current.text = none := by
    have hname : call.started.cursor.current.kind = .identifier := hkind
    simpa [SymbolTable.found?, hname] using h.found?_eq.trans hfree
  obtain ⟨hid, hbound⟩ := h.names.bound_of_free hstarted.valid hkind hlookup
  rw [htable] at hid
  refine ⟨hid, ?_⟩
  have hlt : call.after.table.localScopeId < call.before.table.scopes.size := by
    rw [h.localScopeId_eq himproper]
    exact h.lawful.valid.localScopeId_lt
  have hlocal : call.after.table.localScopeId = call.named.table.localScopeId := by
    rw [h.localScopeId_eq himproper, SymbolTable.localScopeId, SymbolTable.localScopeId, h.enters.openScopes]
  rw [SymbolTable.lookupLocal, SymbolTable.localScope, h.scope_eq himproper hlt, hlocal]
  exact hbound

theorem reuses (h : call.Made known program) (himproper : Improper known) {id : EntryId}
    (hfound : call.found? = some id) (hforward : (call.before.table.entry id).stage? = some .forward) :
    call.Reuses program id := by
  obtain ⟨rfl, hforwarded⟩ := h.reused_iff.mp ⟨hfound, hforward⟩
  have hreports := h.reports himproper
  have hlt : call.id < call.before.table.entries.size := Production.lt_of_stage hforward
  have hscopes : call.named.table.scopes = call.before.table.scopes := by
    have hnames := h.names
    rw [hforwarded] at hnames
    rw [hnames.scopes_of_forwarded, h.started.2.2.1]
  constructor
  case same => rfl
  case scopes =>
    intro scope hscope
    rw [h.scope_eq himproper hscope, SymbolTable.scope, hscopes, ← SymbolTable.scope]
  case inside =>
    intro other hother hlt'
    have hne : other ≠ call.id := Nat.ne_of_gt (Nat.lt_of_lt_of_le hlt hother)
    exact (h.confines himproper other hother hlt' hne).1
  case listed =>
    rw [h.lists_program himproper, hforwarded]
    split <;> rfl
  case redefined =>
    rw [hreports.countOf_named, taken, hforwarded]
    simp
  case repeated => exact hreports.countOf_after
  case body => exact h.repeated_of_declared himproper hforwarded

theorem replaces (h : call.Made known program) (himproper : Improper known) {id : EntryId}
    (hfound : call.found? = some id) (hdeclared : (call.before.table.entry id).stage? = some .declared) :
    call.Replaces program id := by
  have hnew : call.forwarded = false := by
    by_contra hforwarded
    have hsame : call.found? = some call.id ∧ (call.before.table.entry call.id).stage? = some .forward :=
      h.reused_iff.mpr ⟨rfl, by simpa using hforwarded⟩
    rw [Option.some.inj (hfound.symm.trans hsame.1), hsame.2] at hdeclared
    cases hdeclared
  have hreports := h.reports himproper
  have htaken : call.taken = true := by simp [taken, hfound, hnew]
  have hnames := h.names
  rw [hnew] at hnames
  obtain ⟨hfresh, hname⟩ := hnames.name_of_taken (by rw [h.found?_eq, hfound]; rfl)
  rw [h.started.2.2.1] at hfresh
  have hinvented : Invented call.invented := h.started.2.2.2.2
  -- an invented name is too long to be that of the routine with which the program begins
  have hmain : (call.named.table.entry call.id).beginsProgram call.kind = false := by
    have hlong := hinvented.length_lower
    rw [← hname] at hlong
    simp only [Entry.beginsProgram, Bool.and_eq_false_iff, beq_eq_false_iff_ne]
    refine Or.inr fun hsame => ?_
    rw [hsame] at hlong
    exact absurd hlong (by decide)
  have hlt : id < call.before.table.entries.size := Production.lt_of_stage hdeclared
  constructor
  case fresh => exact hfresh
  case callable =>
    rw [Entry.IsCallable, (h.spares himproper).kind, Entry.kind, h.opens.begins.definition,
      (Production.kind_ofRoutine h.opens.callable _).1]
    exact h.opens.callable
  case sole =>
    intro other hother hne
    exact h.plain himproper hother hne
  case invented => exact ⟨call.invented, hinvented, (h.name_eq himproper).trans hname⟩
  case listed => rw [h.lists_program himproper, hmain, hnew]; rfl
  case redefined => rw [hreports.countOf_named, htaken]; rfl
  case repeated => rw [hreports.countOf_after, Call.repeated, hnew]; rfl
  case kept =>
    apply h.agrees himproper hlt
    · rw [hfresh]
      exact Nat.ne_of_lt hlt
    · rintro rfl
      rw [h.hosts.stage] at hdeclared
      cases hdeclared

/-- Every scope still binds what it did before. -/
theorem bindings (h : call.Made known program) (himproper : Improper known) {scope : ScopeId}
    (hscope : scope < call.before.table.scopes.size) :
    (call.before.table.scope scope).bindings <+: (call.after.table.scope scope).bindings := by
  rw [h.scope_eq himproper hscope]
  exact h.enters.bindings scope

theorem size_le (h : call.Made known program) (himproper : Improper known) :
    call.before.table.entries.size ≤ call.after.table.entries.size :=
  calc call.before.table.entries.size
    _ ≤ call.named.table.entries.size := h.opens.target.grows.size_le
    _ = (call.begun program).table.entries.size := h.opens.begins.size.symm
    _ ≤ call.after.table.entries.size := (h.spares himproper).size_le

end Made

end Call

/-! ## From one call to another -/

namespace SymbolTable

/-- What some calls leave as it is: scopes go on to bind what they bind, and routines and other entries stay
what they are.  One that is declared forward does so unless a call works on it. -/
structure Preserves (program : EntryId) (calls : List Call) (earlier later : SymbolTable) : Prop where
  bindings : ∀ scope < earlier.scopes.size,
    (earlier.scope scope).bindings <+: (later.scope scope).bindings
  entries : ∀ id < earlier.entries.size, id ≠ program →
    ((earlier.entry id).stage? = some .forward → ∀ call ∈ calls, call.id ≠ id) →
      (earlier.entry id).Agrees (later.entry id)

/-- Whether every routine but the program is declared in full and has a body, or is declared forward and has
none. -/
def Staged (table : SymbolTable) (program : EntryId) : Prop :=
  ∀ id routine, id ≠ program → (table.entry id).routine? = some routine →
    routine.stage = some .declared ∧ routine.body.isSome = true ∨
      routine.stage = some .forward ∧ routine.body = none

variable {table earlier later : SymbolTable} {program : EntryId} {calls : List Call}

/-- So the stage of a routine tells whether it has a body. -/
theorem Staged.stage_iff (h : table.Staged program) {id : EntryId} {routine : Routine} (hne : id ≠ program)
    (hroutine : (table.entry id).routine? = some routine) :
    (routine.stage = some .declared ↔ routine.body.isSome = true) ∧
      (routine.stage = some .forward ↔ routine.body = none) := by
  rcases h id routine hne hroutine with ⟨hstage, hbody⟩ | ⟨hstage, hbody⟩
  · exact ⟨iff_of_true hstage hbody,
      iff_of_false (by simp [hstage]) (Option.isSome_iff_ne_none.mp hbody)⟩
  · exact ⟨iff_of_false (by simp [hstage]) (by simp [hbody]), iff_of_true hstage hbody⟩

theorem Staged.pop (h : table.Staged program) : table.pop.2.Staged program := by
  intro id routine hne hroutine
  rw [entry_pop] at hroutine
  exact h id routine hne hroutine

theorem Preserves.pop (h : earlier.Preserves program calls later) :
    earlier.Preserves program calls later.pop.2 where
  bindings scope hscope := by
    rw [scope_pop]
    exact h.bindings scope hscope
  entries id hid hne hforward := by
    rw [entry_pop]
    exact h.entries id hid hne hforward

end SymbolTable

section

variable {known : Token → Prop} {program : EntryId} {call : Call} {session later : Session}

/-- What happens between two calls changes no entry but that of the program. -/
theorem Session.Goes.agrees (h : session.Goes program later) {id : EntryId}
    (hid : id < session.table.entries.size) (hne : id ≠ program) :
    (session.table.entry id).Agrees (later.table.entry id) := by
  cases h with
  | moves hmoves => exact hmoves.grows.agrees id hid
  | appends node hmoves =>
      show Entry.Agrees _ (SymbolTable.entry (SymbolTable.modifyRoutine _ program _) id)
      rw [SymbolTable.modifyRoutine, SymbolTable.entry_modifyEntry_ne hne]
      exact hmoves.grows.agrees id hid

/-- And it makes no routine. -/
theorem Session.Goes.plain (h : session.Goes program later) {id : EntryId}
    (hid : session.table.entries.size ≤ id) (hne : id ≠ program) :
    (later.table.entry id).routine? = none := by
  cases h with
  | moves hmoves => exact hmoves.grows.plain id hid
  | appends node hmoves =>
      show (SymbolTable.entry (SymbolTable.modifyRoutine _ program _) id).routine? = none
      rw [SymbolTable.modifyRoutine, SymbolTable.entry_modifyEntry_ne hne]
      exact hmoves.grows.plain id hid

theorem Session.Goes.bindings (h : session.Goes program later) (hvalid : session.table.Valid)
    (scope : ScopeId) :
    (session.table.scope scope).bindings <+: (later.table.scope scope).bindings := by
  cases h with
  | moves hmoves => exact (hmoves.steady hvalid).bindings scope
  | appends node hmoves => exact (hmoves.steady hvalid).bindings scope

theorem Session.Goes.size_le (h : session.Goes program later) :
    session.table.entries.size ≤ later.table.entries.size := by
  cases h with
  | moves hmoves => exact hmoves.grows.size_le
  | appends node hmoves => simpa [SymbolTable.modifyRoutine] using hmoves.grows.size_le

theorem Session.Goes.staged (h : session.Goes program later) (hstaged : session.table.Staged program) :
    later.table.Staged program := by
  intro id routine hne hroutine
  by_cases hid : id < session.table.entries.size
  · rw [(h.agrees hid hne).routine?] at hroutine
    exact hstaged id routine hne hroutine
  · rw [h.plain (Nat.le_of_not_lt hid) hne] at hroutine
    cases hroutine

/-- A call leaves its routine declared in full or forward, and the others as they are. -/
theorem Call.Made.staged (h : call.Made known program) (himproper : Improper known)
    (hstaged : call.before.table.Staged program) : call.after.table.Staged program := by
  intro id routine hne hroutine
  by_cases hself : id = call.id
  · obtain ⟨parameters, read, hread⟩ := h.exists_parameters
    obtain ⟨stage, body, hbody, hknown⟩ := h.routine? hread
    rw [hself, hknown] at hroutine
    obtain rfl := Option.some.inj hroutine
    cases stage with
    | declared => exact Or.inl ⟨rfl, hbody.mp rfl⟩
    | forward => exact Or.inr ⟨rfl, by simpa using hbody⟩
  · by_cases hid : id < call.before.table.entries.size
    · rw [(h.agrees himproper hid hself hne).routine?] at hroutine
      exact hstaged id routine hne hroutine
    · rw [h.plain himproper (Nat.le_of_not_lt hid) hself] at hroutine
      cases hroutine

end

namespace History

variable {known : Token → Prop} {program : EntryId} {start session : Session} {calls : List Call}

theorem staged (h : History known program start calls session) (himproper : Improper known)
    (hstaged : start.table.Staged program) : session.table.Staged program := by
  induction h with
  | nil => exact hstaged
  | goes _ _ _ hgoes ih => exact hgoes.staged ih
  | call _ hmade ih => exact hmade.staged himproper ih

theorem size_le (h : History known program start calls session) (himproper : Improper known) :
    start.table.entries.size ≤ session.table.entries.size := by
  induction h with
  | nil => exact Nat.le_refl _
  | goes _ _ _ hgoes ih => exact Nat.le_trans ih hgoes.size_le
  | call _ hmade ih => exact Nat.le_trans ih (hmade.size_le himproper)

theorem bindings (h : History known program start calls session) (himproper : Improper known)
    {scope : ScopeId} (hscope : scope < start.table.scopes.size) :
    (start.table.scope scope).bindings <+: (session.table.scope scope).bindings := by
  induction h with
  | nil => exact List.prefix_rfl
  | goes _ hlawful _ hgoes ih => exact ih.trans (hgoes.bindings hlawful.valid scope)
  | call hhistory hmade ih =>
      refine ih.trans (hmade.bindings himproper ?_)
      rw [hhistory.scopes_size himproper]
      exact Nat.lt_of_lt_of_le hscope (Nat.le_add_right _ _)

/-- An entry stays what it is unless a call works on it, which happens while it is declared forward only. -/
theorem agrees (h : History known program start calls session) (himproper : Improper known) {id : EntryId}
    (hid : id < start.table.entries.size) (hne : id ≠ program)
    (hforward : (start.table.entry id).stage? = some .forward → ∀ call ∈ calls, call.id ≠ id) :
    (start.table.entry id).Agrees (session.table.entry id) := by
  induction h with
  | nil => exact .refl _
  | goes hhistory _ _ hgoes ih =>
      have hlt := Nat.lt_of_lt_of_le hid (hhistory.size_le himproper)
      exact (ih hforward).trans (hgoes.agrees hlt hne)
  | @call calls call hhistory hmade ih =>
      have hbefore := ih fun hstage other hmem => hforward hstage other (List.mem_append_left _ hmem)
      have hlt := Nat.lt_of_lt_of_le hid (hhistory.size_le himproper)
      refine hbefore.trans (hmade.agrees himproper hlt ?_ hne)
      rintro rfl
      cases hforwarded : call.forwarded with
      | false => exact absurd hlt (Nat.not_lt.mpr (hmade.opens.target.fresh hforwarded).1)
      | true =>
          -- the call works on the entry, so it was declared forward from the start
          have hstage := hmade.opens.target.forward hforwarded
          rw [Entry.stage?, hbefore.routine?, ← Entry.stage?] at hstage
          exact hforward hstage call (List.mem_append_right _ (List.mem_singleton_self _)) rfl

theorem preserves (h : History known program start calls session) (himproper : Improper known) :
    start.table.Preserves program calls session.table where
  bindings _ hscope := h.bindings himproper hscope
  entries _ hid hne hforward := h.agrees himproper hid hne hforward

/-- What a name means after a call it still means before a later one. -/
theorem found_again {call later : Call} (h : History known program call.after calls later.before)
    (himproper : Improper known) (hmade : call.Made known program) {id : EntryId}
    (hbound : call.after.table.lookupLocal call.name.text = some id) (hkind : later.name.kind = .identifier)
    (hsame : Text.lower later.name.text = Text.lower call.name.text) : later.found? = some id := by
  have hlt : call.after.table.localScopeId < call.after.table.scopes.size := by
    rw [hmade.localScopeId_eq himproper, hmade.scopes_size himproper]
    exact Nat.lt_succ_of_lt hmade.lawful.valid.localScopeId_lt
  rw [Call.found?, SymbolTable.found?, if_pos (beq_iff_eq.mpr hkind), SymbolTable.lookupLocal, hsame,
    SymbolTable.localScope, h.localScopeId_eq himproper]
  exact SymbolTable.get?_of_prefix (h.bindings himproper hlt) hbound

end History

/-! ## Units -/

/-- The life cycles of the routines of a unit, given the calls of the production for routines: every routine
is declared in full just if it has a body, and is declared forward just if it has none; each call does what
the meaning of its name asks for; and from one call to another, and to the end, the meanings of names and the
routines are preserved, so that a later header of the same name finds what an earlier one has left. -/
structure CompilationUnit.HasLifeCycles (unit : CompilationUnit) (calls : List Call) : Prop where
  stages : ∀ id, (unit.table.entry id).IsCallable → ∃ routine, (unit.table.entry id).routine? = some routine ∧
    (routine.stage = some .declared ↔ routine.body.isSome = true) ∧
      (routine.stage = some .forward ↔ routine.body = none)
  home : ∀ call ∈ calls, call.before.table.localScopeId = 1 ∧ call.after.table.localScopeId = 1
  staged : ∀ call ∈ calls, call.after.table.Staged unit.program
  reports : ∀ call ∈ calls, call.Reports
  enters : ∀ call ∈ calls, call.name.kind = .identifier → call.found? = none →
    call.id = call.before.table.entries.size ∧ call.after.table.lookupLocal call.name.text = some call.id
  reuses : ∀ call ∈ calls, ∀ id, call.found? = some id →
    (call.before.table.entry id).stage? = some .forward → call.Reuses unit.program id
  replaces : ∀ call ∈ calls, ∀ id, call.found? = some id →
    (call.before.table.entry id).stage? = some .declared → call.Replaces unit.program id
  between : ∀ before call middle later after, calls = before ++ call :: (middle ++ later :: after) →
    call.after.table.Preserves unit.program middle later.before.table
  again : ∀ before call middle later after, calls = before ++ call :: (middle ++ later :: after) →
    ∀ id, call.after.table.lookupLocal call.name.text = some id → later.name.kind = .identifier →
      Text.lower later.name.text = Text.lower call.name.text → later.found? = some id
  remaining : ∀ before call after, calls = before ++ call :: after →
    call.after.table.Preserves unit.program after unit.table

/-- At the start there is no routine that could be declared. -/
theorem SymbolTable.staged_unitTable : unitTable.Staged programId := by
  intro id routine hne hroutine
  rw [routine?_unitTable hne] at hroutine
  cases hroutine

/-- The routines of a unit, with errors in it or without, have their life cycles. -/
theorem compile_lifeCycles {stream : TokenStream} {unit : CompilationUnit} (h : compile stream = .ok unit) :
    ∃ session calls ended, Session.start stream = .ok session ∧
      History (fun _ => True) unit.program { session with table := SymbolTable.unitTable } calls ended ∧
        unit.table = ended.table.pop.2 ∧ unit.diagnostics = ended.diagnostics ∧
          unit.HasLifeCycles calls := by
  obtain ⟨session, calls, ended, hstart, hhistory, hprogram, htable, hdiagnostics⟩ := compile_history h
  rw [← hprogram] at hhistory
  have hstaged : SymbolTable.unitTable.Staged unit.program := hprogram ▸ SymbolTable.staged_unitTable
  have hlocal {later : Session} {calls : List Call}
      (hlater : History (fun _ => True) unit.program { session with table := SymbolTable.unitTable } calls
        later) : later.table.localScopeId = 1 :=
    (hlater.localScopeId_eq improper_any).trans SymbolTable.localScopeId_unitTable
  refine ⟨session, calls, ended, hstart, hhistory, htable, hdiagnostics, ?_⟩
  constructor
  case stages =>
    intro id hcallable
    obtain ⟨home, hkept⟩ := compile_kept h
    have hne : id ≠ unit.program := by
      rintro rfl
      rw [Entry.IsCallable, (hkept.roster.sole unit.program).mpr rfl] at hcallable
      exact absurd hcallable (by decide)
    have hended : unit.table.Staged unit.program := by
      rw [htable]
      exact (hhistory.staged improper_any hstaged).pop
    obtain ⟨routine, hroutine⟩ := Option.isSome_iff_exists.mp (Entry.kind_mem_callables hcallable)
    exact ⟨routine, hroutine, hended.stage_iff hne hroutine⟩
  case home =>
    intro call hmem
    obtain ⟨before, after, hcalls⟩ := List.append_of_mem hmem
    obtain ⟨hbefore, hmade, -⟩ := hhistory.split hcalls
    exact ⟨hlocal hbefore, hlocal (.call hbefore hmade)⟩
  case staged =>
    intro call hmem
    obtain ⟨before, after, hcalls⟩ := List.append_of_mem hmem
    obtain ⟨hbefore, hmade, -⟩ := hhistory.split hcalls
    exact hmade.staged improper_any (hbefore.staged improper_any hstaged)
  case reports =>
    intro call hmem
    exact (hhistory.made hmem).reports improper_any
  case enters =>
    intro call hmem hkind hfree
    exact (hhistory.made hmem).enters_of_free improper_any hkind hfree
  case reuses =>
    intro call hmem id hfound hforward
    exact (hhistory.made hmem).reuses improper_any hfound hforward
  case replaces =>
    intro call hmem id hfound hdeclared
    exact (hhistory.made hmem).replaces improper_any hfound hdeclared
  case between =>
    intro before call middle later after hcalls
    obtain ⟨-, -, hafter⟩ := hhistory.split hcalls
    obtain ⟨hmiddle, -, -⟩ := hafter.split rfl
    exact hmiddle.preserves improper_any
  case again =>
    intro before call middle later after hcalls id hbound hkind hsame
    obtain ⟨-, hmade, hafter⟩ := hhistory.split hcalls
    obtain ⟨hmiddle, -, -⟩ := hafter.split rfl
    exact hmiddle.found_again improper_any hmade hbound hkind hsame
  case remaining =>
    intro before call after hcalls
    obtain ⟨-, -, hafter⟩ := hhistory.split hcalls
    rw [htable]
    exact (hafter.preserves improper_any).pop

/-- After a first header, one is reported that repeats it, one completes the routine, and one finds its name
taken. -/
theorem compile_lifeCycles_fourHeaders :
    ∃ unit, compileText "int f(); int f(int a); float F() \x7b \x7d void f() \x7b \x7d" = .ok unit ∧
      (unit.table.scope 1).bindings.map Prod.fst = ["f", "dummyprocedurename_004"] ∧
      unit.diagnostics.map Diagnostic.kind =
        [.alreadyForwarded, .alreadyForwarded, .identifierRedefined] ∧
      ∃ session calls ended,
        Session.start (Scanner.stream
          (.ofText "int f(); int f(int a); float F() \x7b \x7d void f() \x7b \x7d")) = .ok session ∧
        History (fun _ => True) unit.program { session with table := SymbolTable.unitTable } calls ended ∧
          unit.table = ended.table.pop.2 ∧ unit.diagnostics = ended.diagnostics ∧
            unit.HasLifeCycles calls := by
  have hcompiled : ∃ unit,
      compileText "int f(); int f(int a); float F() \x7b \x7d void f() \x7b \x7d" = .ok unit ∧
        (unit.table.scope 1).bindings.map Prod.fst = ["f", "dummyprocedurename_004"] ∧
          unit.diagnostics.map Diagnostic.kind =
            [.alreadyForwarded, .alreadyForwarded, .identifierRedefined] := exists_compiled (by decide +kernel)
  obtain ⟨unit, hunit, hbindings, hkinds⟩ := hcompiled
  exact ⟨unit, hunit, hbindings, hkinds, compile_lifeCycles hunit⟩

/-- A header can be reported for a redefinition while its routine is declared forward, and more than once
when its name is taken: the names of its parameters need not be distinct. -/
theorem lifeCycles_parameters :
    (∃ unit, compileText "int f(); int f(int a, int a);" = .ok unit ∧
      (unit.table.scope 1).bindings.map (fun binding => (unit.table.entry binding.2).stage?) =
        [some .forward] ∧
      unit.diagnostics.map (fun report => (report.kind, report.location.column)) =
        [(.alreadyForwarded, 15), (.identifierRedefined, 27)]) ∧
    ∃ unit, compileText "int f() \x7b \x7d int f(int a, int a);" = .ok unit ∧
      unit.diagnostics.map (fun report => (report.kind, report.location.column)) =
        [(.identifierRedefined, 17), (.identifierRedefined, 30)] :=
  ⟨exists_compiled (by decide +kernel), exists_compiled (by decide +kernel)⟩

end FrontEnd
