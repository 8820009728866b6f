import FrontEnd.Proofs.Parameter
import FrontEnd.Proofs.Sound
import FrontEnd.Proofs.Statement

/-!
# What routines leave behind

The productions for a routine are traced at the top level, and together they rework the entry of the
routine and no other.  When a routine has been compiled, a table that was sound is sound again
(`traced_routine`).

## Strategy

The parts of a routine are taken in their order.  `Continues` says of a part that it keeps what the parts
before it have settled: the kind of the entry, and that it has no body yet.  A header that repeats an
earlier declaration has no parameters that would be accepted, so the program is not accepted
(`traced_formalParameters`), and it does not matter that calls have been checked against other
parameters.
-/

namespace FrontEnd

namespace SymbolTable

/-- The later table differs at most in the entry `id`, which keeps its kind and its body. -/
structure Continues (id : EntryId) (earlier later : SymbolTable) : Prop where
  reworks : earlier.Reworks id later
  kind : (later.entry id).kind = (earlier.entry id).kind
  body : (later.entry id).body? = (earlier.entry id).body?

namespace Continues

variable {id : EntryId} {first second third : SymbolTable}

theorem trans (h : first.Continues id second) (h' : second.Continues id third) :
    first.Continues id third :=
  ⟨h.reworks.trans h'.reworks, h'.kind.trans h.kind, h'.body.trans h.body⟩

theorem of_grows (hid : id < first.entries.size) (h : first.Grows second) :
    first.Continues id second where
  reworks := .of_grows h
  kind := (h.agrees id hid).kind
  body := by rw [Entry.body?, (h.agrees id hid).routine?, Entry.body?]

theorem refl (id : EntryId) (table : SymbolTable) : table.Continues id table :=
  ⟨.of_grows (.refl _), rfl, rfl⟩

/-- A change of the entry itself that leaves its kind and its body. -/
theorem modifyEntry {table : SymbolTable} {change : Entry → Entry}
    (hkind : (change (table.entry id)).kind = (table.entry id).kind)
    (hbody : (change (table.entry id)).body? = (table.entry id).body?) :
    table.Continues id (table.modifyEntry id change) := by
  refine ⟨.modifyEntry change, ?_, ?_⟩
  · rw [entry_modifyEntry]
    split
    · exact hkind
    · rfl
  · rw [entry_modifyEntry]
    split
    · exact hbody
    · rfl

theorem modifyRoutine {table : SymbolTable} {change : Routine → Routine}
    (hbody : ∀ routine, (change routine).body = routine.body) :
    table.Continues id (table.modifyRoutine id change) := by
  refine modifyEntry (Entry.kind_mapRoutine change _) ?_
  rw [Entry.body?, Entry.routine?_mapRoutine, Entry.body?]
  cases (table.entry id).routine? <;> simp [hbody]

/-- Any routine can be changed in all but its parameters, its body and its stage. -/
theorem modifyRoutine_of_similar {table : SymbolTable} {other : EntryId}
    {change : Routine → Routine}
    (hparameters : ∀ routine, (change routine).parameters = routine.parameters)
    (hbody : ∀ routine, (change routine).body = routine.body)
    (hstage : ∀ routine, (change routine).stage = routine.stage) :
    table.Continues id (table.modifyRoutine other change) := by
  have hsimilar : (table.entry id).Similar ((table.modifyRoutine other change).entry id) := by
    rw [SymbolTable.modifyRoutine, entry_modifyEntry]
    split
    · next hsame =>
        rw [hsame.1]
        exact .mapRoutine hparameters hbody hstage
    · exact .of_agrees (.refl _)
  exact ⟨.modifyRoutine hparameters hbody hstage, hsimilar.kind, hsimilar.body⟩

end Continues

/-- What is there stays there under any number of reworks. -/
theorem Reworks.lt_size {id other : EntryId} {first second : SymbolTable}
    (h : first.Reworks id second) (hlt : other < first.entries.size) : other < second.entries.size :=
  Nat.lt_of_lt_of_le hlt h.size_le

end SymbolTable

namespace Production

variable {known : Token → Prop} {session : Session} {id : EntryId}

/-! ## Changes to routines -/

/-- A change of what is known about a routine that gives it no new parameters. -/
theorem traced_changeRoutine {change : Routine → Routine} (id : EntryId)
    (hlawful : session.Lawful known)
    (hparameters : ∀ routine, (session.table.entry id).routine? = some routine →
      session.table.HasParameters (change routine).parameters) :
    Traced known .topLevel (changeRoutine id change) session fun _ later =>
      later = { session with table := session.table.modifyRoutine id change } :=
  (Traced.of_step rfl hlawful (.reshape rfl (.amend hparameters))).mono fun _ _ _ _ h => h.2

/-- A change of an entry that is, or becomes, a routine. -/
theorem traced_reviseEntry {change : Entry → Entry} {routine : Routine}
    (hlawful : session.Lawful known)
    (hbefore : (session.table.entry id).kind = .undefined ∨
      (session.table.entry id).routine?.isSome)
    (hafter : (change (session.table.entry id)).routine? = some routine)
    (hparameters : session.table.HasParameters routine.parameters) :
    Traced known .topLevel (changeEntry id change) session fun _ later =>
      later = { session with table := session.table.modifyEntry id change } :=
  (Traced.of_step rfl hlawful (.reshape rfl (.revise hbefore hafter hparameters))).mono
    fun _ _ _ _ h => h.2

/-! ## Names -/

theorem traced_routineKind (hlawful : session.Lawful known)
    (hstart : session.cursor.current.kind = .voidWord ∨
      session.cursor.current.kind = .identifier) :
    Traced known .header routineKind session fun answer later =>
      later.table = session.table ∧ answer.1 ∈ DefinitionKind.callables ∧
        Invented answer.2 := by
  have hinvent {stem : String} (hstem : stem ∈ [procedureNameStem, functionNameStem])
      {later : Session} (hlater : later.Lawful known) :
      Traced known .header (inventName stem) later fun name final =>
        final.table = later.table ∧ Invented name := by
    refine (Traced.of_step rfl hlater (.invent rfl)).mono ?_
    rintro _ _ - - ⟨rfl, rfl⟩
    exact ⟨rfl, .intro _ hstem⟩
  unfold routineKind
  rw [traced_currentKind_bind]
  rcases hstart with hkind | hkind
  · simp only [hkind]
    refine (traced_nextToken hlawful).bind fun _ moved _ hmoved hnext => ?_
    refine (hinvent (by simp) hmoved).bind fun name final _ hfinal h => .pure hfinal ?_
    exact ⟨h.1.trans hnext.2.1, by simp [DefinitionKind.callables], h.2⟩
  · simp only [hkind]
    refine (hinvent (by simp) hlawful).bind fun name final _ hfinal h => .pure hfinal ?_
    exact ⟨h.1, by simp [DefinitionKind.callables], h.2⟩

/-- A new entry has a name that the innermost scope now leads to, or an invented one. -/
def IsNamed (earlier later : SymbolTable) (id : EntryId) : Prop :=
  earlier.localScope.get? (later.entry id).name = none ∧
      later.localScope.get? (later.entry id).name = some id ∨
    ∃ invented, Invented invented ∧ (later.entry id).name = Text.lower invented

/-- The entry of a routine: a new one, or that of a routine that has been declared forward. -/
structure IsTarget (earlier later : SymbolTable) (id : EntryId) (forwarded : Bool) : Prop where
  grows : earlier.Grows later
  lt : id < later.entries.size
  fresh : forwarded = false → earlier.entries.size ≤ id ∧ (later.entry id).kind = .undefined
  named : forwarded = false → IsNamed earlier later id
  forward : forwarded = true → (earlier.entry id).stage? = some .forward

theorem isSome_of_stage {entry : Entry} {stage : RoutineStage} (h : entry.stage? = some stage) :
    entry.routine?.isSome := by
  obtain ⟨routine, hroutine, -⟩ := Option.bind_eq_some_iff.mp h
  exact Option.isSome_of_mem hroutine

theorem lt_of_stage {table : SymbolTable} {stage : RoutineStage}
    (h : (table.entry id).stage? = some stage) : id < table.entries.size :=
  SymbolTable.lt_of_routine? (isSome_of_stage h)

theorem IsTarget.later {first second third : SymbolTable} {forwarded : Bool}
    (h : IsTarget first second id forwarded) (hgrows : second.Grows third)
    (hlocal : third.localScope = second.localScope) : IsTarget first third id forwarded where
  grows := h.grows.trans hgrows
  lt := Nat.lt_of_lt_of_le h.lt hgrows.size_le
  fresh hfresh := by
    rw [(hgrows.agrees id h.lt).kind]
    exact h.fresh hfresh
  named hfresh := by
    rw [IsNamed, hlocal, (hgrows.agrees id h.lt).name]
    exact h.named hfresh
  forward := h.forward

/-- A new name leads to a new entry, which is the target of what follows. -/
theorem isTarget_bindNew {table : SymbolTable} {key : String}
    (hnamed : IsNamed table (table.bindNew key) table.entries.size) :
    IsTarget table (table.bindNew key) table.entries.size false where
  grows := .bindNew key
  lt := by simp
  fresh _ := ⟨Nat.le_refl _, by rw [SymbolTable.entry_bindNew, if_pos rfl]; rfl⟩
  named _ := hnamed
  forward h := by simp at h

/-- A name that was free leads to the entry that it is bound to. -/
theorem isNamed_bindNew {table : SymbolTable} {key : String} (hvalid : table.Valid)
    (hfree : table.localScope.get? key = none) :
    IsNamed table (table.bindNew key) table.entries.size := by
  have hlocal : (table.bindNew key).localScope = table.localScope.bind key table.entries.size :=
    (SymbolTable.scope_bindNew key table.localScopeId).trans (if_pos ⟨rfl, hvalid.localScopeId_lt⟩)
  refine Or.inl ?_
  rw [SymbolTable.entry_bindNew, if_pos rfl, hlocal]
  exact ⟨hfree, SymbolTable.get?_bind_of_none hfree _⟩

theorem traced_namedRoutine {name : Token} (hlawful : session.Lawful known) (hname : known name)
    (hkind : name.kind = .identifier) :
    Traced known .header (namedRoutine name) session fun found later =>
      session.table.Grows later.table ∧
        ∀ target ∈ found, IsTarget session.table later.table target.1 target.2 := by
  unfold namedRoutine
  rw [traced_table_bind]
  cases hlocal : session.table.lookupLocal name.text with
  | none =>
      have henter : Step known .header session
          { session with table := session.table.bindNew (Text.lower name.text) } :=
        .settle rfl (.enter (.given hname hkind) hlocal)
      simp only [Traced, enterLocal, SymbolTable.enterLocal, hlocal, leads_bind,
        leads_onTable]
      refine ⟨.single henter, henter.lawful hlawful, .bindNew _, ?_⟩
      intro target htarget
      obtain rfl : (session.table.entries.size, false) = target := by simpa using htarget
      exact isTarget_bindNew (isNamed_bindNew hlawful.valid hlocal)
  | some id =>
      dsimp only
      split
      · next hforward =>
          refine .pure hlawful ⟨.refl _, fun target htarget => ?_⟩
          obtain rfl : (id, true) = target := by simpa using htarget
          refine ⟨.refl _, ?_, by simp, by simp, fun _ => ?_⟩
          · exact hlawful.valid.bound_lt id (SymbolTable.bound_of_lookupLocal hlocal)
          · cases hroutine : (session.table.entry id).routine? <;>
              simp_all [Entry.stage?, Routine.isForward]
      · refine (traced_flag _ hlawful rfl).bind fun _ flagged _ hflagged hflag => .pure hflagged ?_
        rw [hflag.2.1]
        exact ⟨.refl _, by simp⟩

theorem traced_givenName (hlawful : session.Lawful known) :
    Traced known .header givenName session fun found later =>
      session.table.Grows later.table ∧
        ∀ target ∈ found, IsTarget session.table later.table target.1 target.2 := by
  unfold givenName
  rw [traced_current_bind]
  split
  · next hname =>
      refine (traced_namedRoutine hlawful hlawful.current (by simpa using hname)).bind
        fun found named _ hnamed h => ?_
      have hmention : Traced known .header
          (found.forM fun target => changeEntry target.1 (·.addLine session.cursor.current.line)) named
          fun _ later => named.table.Grows later.table ∧
            later.table.localScope = named.table.localScope := by
        cases found with
        | none => exact .pure hnamed ⟨.refl _, rfl⟩
        | some target =>
            refine (traced_addLine target.1 hnamed hlawful.current).mono ?_
            rintro _ _ - - rfl
            exact ⟨.modifyEntry (Entry.agrees_addLine _ _), rfl⟩
      refine hmention.bind fun _ mentioned _ hmentioned hmention => ?_
      refine (traced_nextToken hmentioned).bind fun _ moved _ hmoved hnext => ?_
      refine (traced_synchronize _ hmoved).bind fun _ final _ hfinal hfound => .pure hfinal ?_
      rw [hfound.2.1, hnext.2.1]
      exact ⟨h.1.trans hmention.1,
        fun target htarget => (h.2 target htarget).later hmention.1 hmention.2⟩
  · refine (traced_flag _ hlawful rfl).bind fun _ flagged _ hflagged hflag => .pure hflagged ?_
    rw [hflag.2.1]
    exact ⟨.refl _, by simp⟩

theorem traced_enterInvented {name : String} (hlawful : session.Lawful known)
    (hname : Invented name) :
    Traced known .header (enterOrDetach name) session fun id later =>
      IsTarget session.table later.table id false ∧
        (later.table.entry id).name = Text.lower name := by
  cases hlocal : session.table.lookupLocal name with
  | none =>
      have henter : Step known .header session
          { session with table := session.table.bindNew (Text.lower name) } :=
        .settle rfl (.enter (.invented hname) hlocal)
      simp only [Traced, enterOrDetach, SymbolTable.enterLocal, hlocal, leads_onTable]
      have hentry : ((session.table.bindNew (Text.lower name)).entry session.table.entries.size).name =
          Text.lower name := by rw [SymbolTable.entry_bindNew, if_pos rfl]
      exact ⟨.single henter, henter.lawful hlawful,
        isTarget_bindNew (Or.inr ⟨name, hname, hentry⟩), hentry⟩
  | some taken =>
      have hdetach : Step known .header session
          { session with table := (session.table.createDetached name .undefined .undefined).2 } :=
        .settle rfl (.detach name)
      simp only [Traced, enterOrDetach, SymbolTable.enterLocal, hlocal, leads_onTable]
      have hentry : ((session.table.createDetached name .undefined .undefined).2.entry
          session.table.entries.size).name = Text.lower name := by
        rw [SymbolTable.entry_createDetached, if_pos rfl]
      refine ⟨.single hdetach, hdetach.lawful hlawful, ?_, hentry⟩
      exact {
        grows := .createDetached rfl
        lt := by simp [SymbolTable.createDetached]
        fresh := fun _ => ⟨Nat.le_refl _, by
          rw [SymbolTable.entry_createDetached]
          simp [SymbolTable.createDetached, Entry.kind, Definition.kind]⟩
        named := fun _ => Or.inr ⟨name, hname, hentry⟩
        forward := by simp }

theorem traced_routineName {invented : String} (hlawful : session.Lawful known)
    (hinvented : Invented invented) :
    Traced known .header (routineName invented) session fun target later =>
      IsTarget session.table later.table target.1 target.2 := by
  unfold routineName
  refine (traced_givenName hlawful).bind fun found named _ hnamed h => ?_
  cases found with
  | some target => exact .pure hnamed (h.2 target rfl)
  | none =>
      refine (traced_enterInvented hnamed hinvented).bind fun id final _ hfinal htarget =>
        .pure hfinal ?_
      exact {
        grows := h.1.trans htarget.1.grows
        lt := htarget.1.lt
        fresh := fun _ =>
          ⟨Nat.le_trans h.1.size_le (htarget.1.fresh rfl).1, (htarget.1.fresh rfl).2⟩
        named := fun _ => Or.inr ⟨invented, hinvented, htarget.2⟩
        forward := by simp }

/-! ## Opening a routine -/

theorem kind_ofRoutine {kind : DefinitionKind} (hkind : kind ∈ DefinitionKind.callables)
    (routine : Routine) :
    (Definition.ofRoutine kind routine).kind = kind ∧
      (Definition.ofRoutine kind routine).routine? = some routine := by
  simp only [DefinitionKind.callables, List.mem_cons, List.not_mem_nil, or_false] at hkind
  rcases hkind with rfl | rfl <;> exact ⟨rfl, rfl⟩

theorem kind_ofRoutine_of_isRoutine {kind : DefinitionKind} (hkind : kind.isRoutine = true)
    (routine : Routine) : (Definition.ofRoutine kind routine).kind = kind := by
  cases kind <;> simp_all [DefinitionKind.isRoutine, Definition.ofRoutine, Definition.kind]

theorem definition_markedEntry (kind : DefinitionKind) (forwarded : Bool) (entry : Entry) :
    (markedEntry kind forwarded entry).definition =
      .ofRoutine kind (if forwarded then entry.routine?.getD {} else {}) := by
  cases forwarded <;> rfl

theorem IsTarget.revisable {earlier later : SymbolTable} {forwarded : Bool}
    (h : IsTarget earlier later id forwarded) :
    (later.entry id).kind = .undefined ∨ (later.entry id).routine?.isSome := by
  cases forwarded with
  | false => exact Or.inl (h.fresh rfl).2
  | true =>
      have hlt := lt_of_stage (h.forward rfl)
      rw [(h.grows.agrees id hlt).routine?]
      exact Or.inr (isSome_of_stage (h.forward rfl))

theorem traced_markRoutine {kind : DefinitionKind} {forwarded : Bool} {earlier : SymbolTable}
    (hlawful : session.Lawful known) (hkind : kind ∈ DefinitionKind.callables)
    (htarget : IsTarget earlier session.table id forwarded) :
    Traced known .topLevel (markRoutine id kind forwarded) session fun _ later =>
      session.table.Reworks id later.table ∧ (later.table.entry id).kind = kind := by
  -- what is known of the routine from now on: nothing, or what was declared before
  obtain ⟨routine, hdefinition, hparameters⟩ :
      ∃ routine, (markedEntry kind forwarded (session.table.entry id)).definition =
        .ofRoutine kind routine ∧ session.table.HasParameters routine.parameters := by
    refine ⟨_, definition_markedEntry _ _ _, ?_⟩
    cases forwarded with
    | false => simp [SymbolTable.HasParameters]
    | true =>
        cases hroutine : (session.table.entry id).routine? with
        | none => simp [SymbolTable.HasParameters]
        | some routine => exact hlawful.valid.parameters id routine hroutine
  obtain ⟨hmarked, hroutine⟩ := kind_ofRoutine hkind routine
  unfold markRoutine
  refine (traced_reviseEntry hlawful htarget.revisable (by rw [Entry.routine?, hdefinition, hroutine])
    hparameters).bind fun _ marked _ hvalid hmark => ?_
  have hentry : marked.table.entry id = markedEntry kind forwarded (session.table.entry id) := by
    rw [hmark, SymbolTable.entry_modifyEntry_self htarget.lt]
  have hreworks : session.table.Reworks id marked.table := by
    rw [hmark]
    exact .modifyEntry _
  have hsome : (marked.table.entry id).routine? = some routine := by
    rw [hentry, Entry.routine?, hdefinition, hroutine]
  split
  · refine (traced_reviseEntry hvalid (Or.inr (by simp [hsome])) hsome
      (hvalid.valid.parameters id routine hsome)).mono ?_
    rintro _ _ - - rfl
    refine ⟨hreworks.trans (.modifyEntry _), ?_⟩
    rw [SymbolTable.entry_modifyEntry_self (hreworks.lt_size htarget.lt), Entry.kind, hentry,
      hdefinition, hmarked]
  · exact .pure hvalid ⟨hreworks, by rw [Entry.kind, hentry, hdefinition, hmarked]⟩

/-- Most of what is known about a routine can be changed without any effect on trees. -/
theorem traced_changeRoutine_of_similar {change : Routine → Routine} (other : EntryId)
    (hlawful : session.Lawful known)
    (hparameters : ∀ routine, (change routine).parameters = routine.parameters)
    (hbody : ∀ routine, (change routine).body = routine.body)
    (hstage : ∀ routine, (change routine).stage = routine.stage) :
    Traced known .topLevel (changeRoutine other change) session fun _ later =>
      session.table.Continues id later.table := by
  refine (traced_changeRoutine other hlawful fun routine hroutine => ?_).mono ?_
  · rw [hparameters]
    exact hlawful.valid.parameters other routine hroutine
  · rintro _ _ - - rfl
    exact .modifyRoutine_of_similar hparameters hbody hstage

/-- A routine whose scope has been opened has neither parameters nor a body yet. -/
theorem traced_openScope (hlawful : session.Lawful known) (hid : id < session.table.entries.size) :
    Traced known .topLevel (openScope id) session fun _ later =>
      session.table.Reworks id later.table ∧
        (later.table.entry id).kind = (session.table.entry id).kind ∧
          (later.table.entry id).body? = none := by
  unfold openScope
  refine (Traced.of_step rfl hlawful (.reshape rfl .push)).bind fun scope pushed _ hpushed h => ?_
  have htable : pushed.table = session.table.push.2 := by rw [h.2]
  refine (traced_changeRoutine id hpushed (by simp [SymbolTable.HasParameters])).mono ?_
  rintro _ _ - - rfl
  have hentry : (pushed.table.modifyRoutine id fun known =>
      { known with scope := some scope, body := none, parameters := [] }).entry id =
        (pushed.table.entry id).mapRoutine _ :=
    SymbolTable.entry_modifyEntry_self (by rwa [htable]) _
  refine ⟨?_, ?_, ?_⟩
  · rw [htable]
    exact .trans .push (.modifyEntry _)
  · rw [hentry, Entry.kind_mapRoutine, htable]
    rfl
  · rw [hentry, Entry.body?, Entry.routine?_mapRoutine]
    cases (pushed.table.entry id).routine? <;> rfl

theorem traced_beginProgram {main : EntryId} (hlawful : session.Lawful known) :
    Traced known .topLevel (beginProgram main) session fun _ later =>
      session.table.Continues id later.table := by
  have hslot {later : Session} (hlater : later.Lawful known) :
      Traced known .topLevel (onTable (·.takeSlot)) later fun _ final =>
        later.table.Continues id final.table := by
    refine (Traced.of_step rfl hlater (.reshape rfl .takeSlot)).mono ?_
    rintro _ _ - - ⟨-, rfl⟩
    exact ⟨.takeSlot, rfl, rfl⟩
  unfold beginProgram
  rw [traced_table_bind]
  have hmain : Traced known .topLevel
      (session.table.program.forM fun program =>
        changeRoutine program fun known => { known with mainRoutine := some main }) session
      fun _ later => session.table.Continues id later.table := by
    cases session.table.program with
    | none => exact .pure hlawful (.refl _ _)
    | some program =>
        exact traced_changeRoutine_of_similar program hlawful (by simp) (by simp) (by simp)
  refine hmain.bind fun _ placed _ hplaced h => ?_
  exact (hslot hplaced).bind fun _ final _ hfinal h' => .pure hfinal (h.trans h')

theorem traced_openRoutine {parent : EntryId} {kind : DefinitionKind} {forwarded : Bool}
    (hlawful : session.Lawful known) (hid : id < session.table.entries.size) :
    Traced known .topLevel (openRoutine parent id kind forwarded) session fun _ later =>
      session.table.Reworks id later.table ∧
        (later.table.entry id).kind = (session.table.entry id).kind ∧
          (later.table.entry id).body? = none := by
  unfold openRoutine
  rw [traced_entry_bind]
  refine (traced_openScope hlawful hid).bind fun _ opened _ hopened h => ?_
  have hafter {later : SymbolTable} (h' : opened.table.Continues id later) :
      session.table.Reworks id later ∧
        (later.entry id).kind = (session.table.entry id).kind ∧ (later.entry id).body? = none :=
    ⟨h.1.trans h'.reworks, h'.kind.trans h.2.1, h'.body.trans h.2.2⟩
  split
  · exact (traced_beginProgram hopened).mono fun _ _ _ _ h' => hafter h'
  · split
    · exact (traced_changeRoutine_of_similar parent hopened (by simp) (by simp) (by simp)).mono
        fun _ _ _ _ h' => hafter h'
    · exact .pure hopened (hafter (.refl _ _))

/-! ## Headers -/

/-- Where a semicolon stands in the place of the parameters, it is reported that they are missing. -/
theorem traced_formalParameters (hlawful : session.Lawful known)
    (hid : id < session.table.entries.size) :
    Traced known .header (formalParameters id) session fun _ later =>
      session.table.Continues id later.table ∧
        (session.cursor.current.kind = .semicolon → later.Flagged .missingLeftParen) := by
  unfold formalParameters
  refine ((traced_enclosedParameters hlawful).within (.declaration _)).bind
    fun parameters read _ hread h => ?_
  obtain ⟨hsteps, h⟩ := h
  refine (Traced.of_step rfl hread (.settle rfl (.parameters h.1))).mono ?_
  rintro _ _ - - ⟨-, rfl⟩
  exact ⟨(SymbolTable.Continues.of_grows hid (hsteps.grows rfl)).trans (.modifyRoutine fun _ => rfl), h.2⟩

/-- Whether a function has a scalar type, where no error has been recorded. -/
def TypesFunction (session : Session) (id : EntryId) : Prop :=
  session.diagnostics = [] → (session.table.entry id).kind = .function →
    ∃ scalar, (session.table.entry id).type = some (.scalar scalar)

theorem scalar_of_form {type : DataType} (h : type.form = .scalar) :
    ∃ scalar, type = .scalar scalar := by
  cases type <;> simp_all [DataType.form]

theorem traced_functionType (type : DataType) (hlawful : session.Lawful known)
    (hid : id < session.table.entries.size) (hroutine : (session.table.entry id).routine?.isSome) :
    Traced known .header (functionType id type) session fun _ later =>
      session.table.Continues id later.table ∧ TypesFunction later id := by
  unfold functionType
  rw [traced_current_bind]
  refine (traced_ensure _ _ hlawful hlawful.current rfl).bind fun _ checked _ hchecked h => ?_
  obtain ⟨routine, hsome⟩ := Option.isSome_iff_exists.mp hroutine
  rw [← h.2.1] at hsome hid
  refine (Traced.of_step rfl hchecked (.settle rfl (.retype type (by simp [hsome])))).mono ?_
  rintro _ _ - - ⟨-, rfl⟩
  refine ⟨?_, fun hclean hkind => ?_⟩
  · rw [← h.2.1]
    exact .modifyEntry rfl rfl
  · obtain ⟨scalar, rfl⟩ := scalar_of_form (by simpa using h.2.2 hclean)
    exact ⟨scalar, by rw [SymbolTable.entry_modifyEntry_self hid]⟩

theorem traced_header {kind : DefinitionKind} (type : Option DataType)
    (hlawful : session.Lawful known) (hid : id < session.table.entries.size)
    (hkind : (session.table.entry id).kind = kind) (hcallable : kind ∈ DefinitionKind.callables) :
    Traced known .header (header id kind type) session fun _ later =>
      session.table.Continues id later.table ∧ TypesFunction later id ∧
        (session.cursor.current.kind = .semicolon → later.Flagged .missingLeftParen) := by
  unfold header
  refine (traced_formalParameters hlawful hid).bind fun _ read _ hread h => ?_
  have hkind' : (read.table.entry id).kind = kind := h.1.kind.trans hkind
  split
  · refine (traced_functionType _ hread (h.1.reworks.lt_size hid) ?_).mono ?_
    · exact Entry.kind_mem_callables (hkind' ▸ hcallable)
    · intro _ later hsteps _ h'
      exact ⟨h.1.trans h'.1, h'.2, fun hsemicolon => hsteps.flagged (h.2 hsemicolon)⟩
  · next hother =>
      refine .pure hread ⟨h.1, fun _ hfunction => ?_, h.2⟩
      rw [hkind'] at hfunction
      simp [hfunction] at hother

/-! ## Bodies -/

theorem traced_setStage (stage : RoutineStage) (hlawful : session.Lawful known) :
    Traced known .topLevel (setStage id stage) session fun _ later =>
      later = { session with
        table := session.table.modifyRoutine id fun known => { known with stage := some stage } } :=
  traced_changeRoutine id hlawful fun routine hroutine =>
    hlawful.valid.parameters id routine hroutine

/-- What a routine has before its body is compiled: it can be called, and has no body yet. -/
structure Awaits (session : Session) (id : EntryId) : Prop where
  lt : id < session.table.entries.size
  callable : (session.table.entry id).kind ∈ DefinitionKind.callables
  body : (session.table.entry id).body? = none
  function : TypesFunction session id

theorem Awaits.complete (h : Awaits session id) :
    session.table.Complete (session.diagnostics = []) id where
  callable := h.callable
  body body hbody := by simp [h.body] at hbody
  function := h.function

/-- What does not disturb the entry of a routine leaves it waiting for its body. -/
theorem Awaits.later {place : Place} {later : Session} (h : Awaits session id)
    (hsteps : Steps known place session later)
    (hcontinues : session.table.Continues id later.table)
    (htype : (later.table.entry id).type = (session.table.entry id).type) : Awaits later id where
  lt := hcontinues.reworks.lt_size h.lt
  callable := by
    rw [hcontinues.kind]
    exact h.callable
  body := hcontinues.body.trans h.body
  function hclean hkind := by
    rw [htype]
    exact h.function (hsteps.clean hclean) (hcontinues.kind ▸ hkind)

theorem traced_stageOfAwaiting (stage : RoutineStage) (hlawful : session.Lawful known)
    (hawaits : Awaits session id) :
    Traced known .topLevel (setStage id stage) session fun _ later =>
      session.table.Reworks id later.table ∧ Awaits later id ∧ later.cursor = session.cursor := by
  refine (traced_setStage stage hlawful).mono ?_
  rintro _ _ hsteps - rfl
  refine ⟨.modifyEntry _, hawaits.later hsteps (.modifyRoutine fun _ => rfl) ?_, rfl⟩
  rw [SymbolTable.modifyRoutine, SymbolTable.entry_modifyEntry_self hawaits.lt]
  rfl

theorem traced_body (hlawful : session.Lawful known) (hawaits : Awaits session id)
    (hkind : session.cursor.current.kind = .leftBrace) :
    Traced known .topLevel
      (do
        let body ← compound id
        changeRoutine id fun known => { known with body := some body })
      session fun _ later =>
        session.table.Reworks id later.table ∧
          later.table.Complete (later.diagnostics = []) id := by
  refine ((traced_compound hlawful hawaits.lt hkind).atTop rfl).bind fun body made hsteps hmade h => ?_
  refine (traced_changeRoutine id hmade (by
    intro routine hroutine
    exact hmade.valid.parameters id routine hroutine)).mono ?_
  rintro _ _ - - rfl
  obtain ⟨hgrows, htree⟩ := h
  have hid := Nat.lt_of_lt_of_le hawaits.lt hgrows.size_le
  have hafter := hawaits.later hsteps (.of_grows hawaits.lt hgrows) (hgrows.agrees id hawaits.lt).type
  -- only the body of the entry is new
  have hentry : (made.table.modifyRoutine id fun known => { known with body := some body }).entry id =
      (made.table.entry id).mapRoutine _ := SymbolTable.entry_modifyEntry_self hid _
  refine ⟨.trans (.of_grows hgrows) (.modifyEntry _), ?_, ?_, ?_⟩
  · rw [hentry, Entry.kind_mapRoutine]
    exact hafter.callable
  · intro other hother
    rw [hentry, Entry.body?, Entry.routine?_mapRoutine] at hother
    obtain rfl : body = other := by
      cases hroutine : (made.table.entry id).routine? <;> simp_all
    exact StatementTree.mono htree hmade.valid hid (.modifyRoutine fun _ => rfl) fun hclean => hclean
  · intro hclean hfunction
    rw [hentry] at hfunction ⊢
    rw [Entry.kind_mapRoutine] at hfunction
    exact hafter.function hclean hfunction

theorem traced_bodyOrForward (hlawful : session.Lawful known) (hawaits : Awaits session id) :
    Traced known .topLevel (bodyOrForward id) session fun _ later =>
      session.table.Reworks id later.table ∧
        later.table.Complete (later.diagnostics = []) id := by
  unfold bodyOrForward
  rw [traced_currentKind_bind]
  split
  · next hkind =>
      refine (traced_stageOfAwaiting _ hlawful hawaits).bind fun _ staged _ hstaged h => ?_
      refine (traced_body hstaged h.2.1 (by rw [h.2.2]; exact hkind)).mono fun _ _ _ _ h' => ?_
      exact ⟨h.1.trans h'.1, h'.2⟩
  · refine (traced_stageOfAwaiting _ hlawful hawaits).bind fun _ staged _ hstaged h => ?_
    refine (traced_nextToken hstaged).bind fun _ final hsteps hfinal hnext => .pure hfinal ?_
    have hawaits : Awaits final id := by
      refine h.2.1.later hsteps ?_ ?_
      · rw [hnext.2.1]
        exact .refl _ _
      · rw [hnext.2.1]
    exact ⟨by rw [hnext.2.1]; exact h.1, hawaits.complete⟩
  · exact (traced_stageOfAwaiting _ hlawful hawaits).mono fun _ _ _ _ h =>
      ⟨h.1, h.2.1.complete⟩

/-! ## Routines -/

/-- The scope of a routine is closed, and the entry of the routine is left as it is. -/
theorem traced_closeScope (hlawful : session.Lawful known)
    (hcomplete : session.table.Complete (session.diagnostics = []) id) :
    Traced known .topLevel (onTable (·.pop)) session fun _ later =>
      session.table.Reworks id later.table ∧
        later.table.Complete (later.diagnostics = []) id := by
  refine (Traced.of_step rfl hlawful (.reshape rfl .pop)).mono ?_
  rintro _ _ - - ⟨-, rfl⟩
  have hentry := session.table.entry_pop id
  refine ⟨.of_grows .pop, ?_, fun body hbody => ?_, ?_⟩
  · rw [hentry]
    exact hcomplete.callable
  · rw [hentry] at hbody
    have hid := SymbolTable.lt_of_callable hcomplete.callable
    exact (hcomplete.body body hbody).mono hlawful.valid hid (SymbolTable.Grows.pop.keeps)
      fun hclean => hclean
  · rw [hentry]
    exact hcomplete.function

/-- What has happened when a routine has been compiled: only its entry has changed, and it is complete.  That is
a new entry, or that of a routine declared forward, and then an error has been recorded. -/
structure Recompiles (session : Session) (id : EntryId) (forwarded : Bool) (later : Session) : Prop where
  reworks : session.table.Reworks id later.table
  complete : later.table.Complete (later.diagnostics = []) id
  fresh : forwarded = false → session.table.entries.size ≤ id
  forward : forwarded = true → (session.table.entry id).stage? = some .forward
  repeated : forwarded = true → later.diagnostics ≠ []
  clean : later.diagnostics = [] → session.diagnostics = []

namespace Recompiles

variable {forwarded : Bool} {later : Session}

theorem keeps (h : Recompiles session id forwarded later) :
    session.table.Keeps (later.diagnostics = []) session.table.entries.size later.table := by
  refine h.reworks.keeps ?_
  cases hforwarded : forwarded with
  | false => exact Or.inl (h.fresh hforwarded)
  | true =>
      exact Or.inr ⟨h.repeated hforwarded, isSome_of_stage (h.forward hforwarded), h.complete.callable⟩

theorem sound (h : Recompiles session id forwarded later) (hvalid : session.table.Valid)
    (hsound : session.table.Sound (session.diagnostics = [])) :
    later.table.Sound (later.diagnostics = []) :=
  hsound.of_reworks hvalid h.reworks h.keeps h.clean h.complete

/-- A routine that was not declared forward is not the one that has been compiled. -/
theorem similar (h : Recompiles session id forwarded later) {other : EntryId}
    (hother : other < session.table.entries.size)
    (hstage : (session.table.entry other).stage? ≠ some .forward) :
    (session.table.entry other).Similar (later.table.entry other) := by
  refine h.reworks.similar other hother ?_
  rintro rfl
  cases hforwarded : forwarded with
  | false => exact Nat.not_le_of_lt hother (h.fresh hforwarded)
  | true => exact hstage (h.forward hforwarded)

end Recompiles

/-- A routine is compiled part by part, and each part works on its entry. -/
theorem recompiles_routine (parent : EntryId) (type : Option DataType) (hlawful : session.Lawful known)
    (hstart : session.cursor.current.kind = .voidWord ∨
      session.cursor.current.kind = .identifier) :
    Traced known .topLevel (routine parent type) session fun _ later =>
      ∃ id forwarded, Recompiles session id forwarded later := by
  unfold routine
  refine ((traced_routineKind hlawful hstart).within (.topLevel _)).bind
    fun answer started hstarted hlawful₁ hanswer => ?_
  obtain ⟨-, htable, hcallable, hinvented⟩ := hanswer
  refine ((traced_routineName hlawful₁ hinvented).within (.topLevel _)).bind
    fun target named hnamed hlawful₂ htarget => ?_
  obtain ⟨-, htarget⟩ := htarget
  refine (traced_markRoutine hlawful₂ hcallable htarget).bind
    fun _ marked hmarked hlawful₃ hmark => ?_
  have hmarkedId := hmark.1.lt_size htarget.lt
  refine (traced_openRoutine hlawful₃ hmarkedId).bind fun _ opened hopened hlawful₄ hopen => ?_
  rw [traced_current_bind]
  refine (traced_ensure _ _ hlawful₄ hlawful₄.current rfl).bind
    fun _ checked hcheck hlawful₅ hensure => ?_
  have hkind : (checked.table.entry target.1).kind = answer.1 := by
    rw [hensure.2.1, hopen.2.1, hmark.2]
  have hid : target.1 < checked.table.entries.size := by
    rw [hensure.2.1]
    exact hopen.1.lt_size hmarkedId
  refine ((traced_header type hlawful₅ hid hkind hcallable).within (.topLevel _)).bind
    fun _ headed hhead hlawful₆ hheader => ?_
  obtain ⟨-, hheader⟩ := hheader
  have hawaits : Awaits headed target.1 := {
    lt := hheader.1.reworks.lt_size hid
    callable := by rwa [hheader.1.kind, hkind]
    body := by rw [hheader.1.body, hensure.2.1, hopen.2.2]
    function := hheader.2.1 }
  refine (traced_bodyOrForward hlawful₆ hawaits).bind
    fun _ compiled hcompiled hlawful₇ hbody => ?_
  refine (traced_closeScope hlawful₇ hbody.2).bind fun _ final hfinal hlawful₈ hclose =>
    .pure hlawful₈ ⟨target.1, target.2, ?_⟩
  rw [htable] at htarget
  constructor
  case reworks =>
    refine (SymbolTable.Reworks.of_grows htarget.grows).trans (hmark.1.trans (hopen.1.trans ?_))
    rw [← hensure.2.1]
    exact hheader.1.reworks.trans (hbody.1.trans hclose.1)
  case complete => exact hclose.2
  case fresh => exact fun hforwarded => (htarget.fresh hforwarded).1
  case forward => exact htarget.forward
  case repeated =>
    intro hforwarded hclean
    -- the header of a routine declared forward must not be repeated, so a semicolon was asked for
    -- after the name, and where one stands the parameters are missing
    have hheaded : headed.diagnostics = [] := (hcompiled.trans hfinal).clean hclean
    have hsemicolon := hensure.2.2 (hhead.clean hheaded)
    refine (hheader.2.2 ?_).ne_nil hheaded
    rw [hensure.1]
    simpa [hforwarded] using hsemicolon
  case clean =>
    intro hclean
    have hchecked := hhead.clean ((hcompiled.trans hfinal).clean hclean)
    exact (hstarted.trans (hnamed.trans (hmarked.trans (hopened.trans hcheck)))).clean hchecked

/-- A sound table is sound again after a routine has been compiled, and keeps what it had.  A routine that
was not declared forward is not the one that has been compiled. -/
theorem traced_routine (parent : EntryId) (type : Option DataType) (hlawful : session.Lawful known)
    (hstart : session.cursor.current.kind = .voidWord ∨
      session.cursor.current.kind = .identifier) :
    Traced known .topLevel (routine parent type) session fun _ later =>
      session.table.Keeps (later.diagnostics = []) session.table.entries.size later.table ∧
        (session.table.Sound (session.diagnostics = []) →
          later.table.Sound (later.diagnostics = [])) ∧
        ∀ other < session.table.entries.size, (session.table.entry other).stage? ≠ some .forward →
          (session.table.entry other).Similar (later.table.entry other) := by
  refine (recompiles_routine parent type hlawful hstart).mono ?_
  rintro _ later - - ⟨id, forwarded, h⟩
  exact ⟨h.keeps, h.sound hlawful.valid, fun other hother => h.similar hother⟩

end Production

end FrontEnd
