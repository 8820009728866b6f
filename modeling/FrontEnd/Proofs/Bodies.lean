import FrontEnd.Proofs.Item

/-!
# The bodies of a table

The trees of a table outlive the scopes in which they were made.  What they refer to stays in reach: each
entry that the body of a routine refers to lies within the table, and either a name leads to it in a scope
in sight of the routine (`Overlooks`) or, as the target of a return does, it belongs to the scope of the
routine (`HousedAt`).  A routine that is declared forward has no body, so none is lost when its header is
compiled again.

Items keep this of every table (`Item.houses`), as they keep that the program runs in the scope that is
open between them.
-/

namespace FrontEnd

/-- The scope of the routine that an entry stands for. -/
def Entry.frame? (entry : Entry) : Option ScopeId :=
  entry.routine?.bind Routine.scope

/-- Two entries whose routines have the same body, the same stage and the same scope. -/
structure Entry.Alike (earlier later : Entry) : Prop where
  body : later.body? = earlier.body?
  stage : later.stage? = earlier.stage?
  frame : later.frame? = earlier.frame?

namespace Entry.Alike

variable {first second third : Entry}

@[refl] theorem refl (entry : Entry) : entry.Alike entry := ⟨rfl, rfl, rfl⟩

theorem trans (h : first.Alike second) (h' : second.Alike third) : first.Alike third :=
  ⟨h'.body.trans h.body, h'.stage.trans h.stage, h'.frame.trans h.frame⟩

theorem of_steady (h : first.Steady second) : first.Alike second := by
  have hview {α : Type} (view : Routine → Option α) (hview : ∀ routine, view routine.shell = view routine) :
      second.routine?.bind view = first.routine?.bind view := by
    have hmap := congrArg Option.join (h.map_routine? hview)
    cases hfirst : first.routine? <;> cases hsecond : second.routine? <;> simp_all
  exact ⟨hview _ fun _ => rfl, hview _ fun _ => rfl, hview _ fun _ => rfl⟩

/-- A routine can be changed in all but its body, its stage and its scope. -/
theorem mapRoutine {change : Routine → Routine} {entry : Entry}
    (hbody : ∀ routine, (change routine).body = routine.body)
    (hstage : ∀ routine, (change routine).stage = routine.stage)
    (hscope : ∀ routine, (change routine).scope = routine.scope) :
    entry.Alike (entry.mapRoutine change) := by
  have hroutine := Entry.routine?_mapRoutine change entry
  cases hsome : entry.routine? <;> rw [hsome] at hroutine <;>
    exact ⟨by simp [Entry.body?, hroutine, hsome, hbody],
      by simp [Entry.stage?, hroutine, hsome, hstage],
      by simp [Entry.frame?, hroutine, hsome, hscope]⟩

end Entry.Alike

namespace SymbolTable

/-- The scope of the program. -/
def home? (table : SymbolTable) : Option ScopeId :=
  table.program.bind fun program => (table.entry program).frame?

/-- Whether a scope is in sight of a routine: it is its own, that of the program, or the global one. -/
def Overlooks (table : SymbolTable) (routine : EntryId) (scope : ScopeId) : Prop :=
  (table.entry routine).frame? = some scope ∨ table.home? = some scope ∨ scope = globalScope

/-- Whether all scopes that are open are in sight of a routine. -/
def Sees (table : SymbolTable) (routine : EntryId) : Prop :=
  ∀ scope ∈ table.openScopes, table.Overlooks routine scope

/-- Whether the body of a routine can refer to an entry: a scope in sight binds a name to it or, as the
target of a return, it belongs to the scope of the routine. -/
def Reaches (table : SymbolTable) (routine id : EntryId) : Prop :=
  (∃ scope, table.Overlooks routine scope ∧ id ∈ (table.scope scope).entries) ∨
    (table.entry routine).frame? = some (table.entry id).scope

/-- The later table has all entries of the earlier one, in their scopes and with their names, and the
program has the same scope. -/
structure Includes (earlier later : SymbolTable) : Prop where
  size_le : earlier.entries.size ≤ later.entries.size
  scope : ∀ id < earlier.entries.size, (later.entry id).scope = (earlier.entry id).scope
  entries : ∀ scope, (earlier.scope scope).entries ⊆ (later.scope scope).entries
  home : later.home? = earlier.home?

/-- What the body of an entry refers to is in reach, and an entry that is declared forward has no body. -/
structure HousedAt (table : SymbolTable) (id : EntryId) : Prop where
  framed : (table.entry id).body?.isSome → (table.entry id).frame?.isSome
  within : ∀ body ∈ (table.entry id).body?, ∀ reference ∈ body.references,
    reference.id < table.entries.size
  reached : ∀ body ∈ (table.entry id).body?, ∀ reference ∈ body.references,
    table.Reaches id reference.id
  awaiting : (table.entry id).stage? = some .forward → (table.entry id).body? = none

/-- What holds of a table between items: all bodies are housed, and the program, which is not declared
forward, has the scope that is open. -/
structure Houses (table : SymbolTable) (program : EntryId) : Prop where
  housed : ∀ id, table.HousedAt id
  stage : (table.entry program).stage? = none
  frame : (table.entry program).frame? = some table.localScopeId
  place : table.program = some program
  sees : table.Sees program

theorem Houses.lt {table : SymbolTable} {program : EntryId} (h : table.Houses program) :
    program < table.entries.size := by
  obtain ⟨routine, hroutine, -⟩ := Option.bind_eq_some_iff.mp h.frame
  exact lt_of_routine? (Option.isSome_of_mem hroutine)

section

variable {table first second third : SymbolTable} {program id : EntryId}

namespace HousedAt

/-- The variables that a body uses lie within the table. -/
theorem lt (h : table.HousedAt id) (body : Node) (hbody : body ∈ (table.entry id).body?)
    (use : EntryId) (huse : use ∈ body.uses) : use < table.entries.size := by
  rw [Node.uses_eq_references] at huse
  obtain ⟨reference, hreference, rfl⟩ := List.mem_map.mp huse
  exact h.within body hbody reference (List.mem_filter.mp hreference).1

/-- A variable that a body uses is bound to a name, or it belongs to the scope of the routine. -/
theorem owned (h : table.HousedAt id) (body : Node) (hbody : body ∈ (table.entry id).body?)
    (use : EntryId) (huse : use ∈ body.uses) :
    table.Bound use ∨ (table.entry id).frame? = some (table.entry use).scope := by
  rw [Node.uses_eq_references] at huse
  obtain ⟨reference, hreference, rfl⟩ := List.mem_map.mp huse
  refine (h.reached body hbody reference (List.mem_filter.mp hreference).1).imp_left ?_
  rintro ⟨scope, -, hmem⟩
  exact ⟨scope, hmem⟩

end HousedAt

/-! ## Tables that keep what there is -/

theorem Steady.frame? (h : first.Steady second) (id : EntryId) :
    (second.entry id).frame? = (first.entry id).frame? := by
  by_cases hid : id < first.entries.size
  · exact (Entry.Alike.of_steady (h.entry id hid)).frame
  · rw [Entry.frame?, h.plain id (Nat.le_of_not_lt hid), entry_of_size_le (Nat.le_of_not_lt hid)]
    rfl

theorem Steady.home? (h : first.Steady second) : second.home? = first.home? := by
  simp only [SymbolTable.home?, h.program, h.frame?]

/-- What is in sight stays so while the scopes of the routine and of the program stay the same. -/
theorem Overlooks.later {scope : ScopeId} (h : first.Overlooks id scope)
    (hframe : (second.entry id).frame? = (first.entry id).frame?) (hhome : second.home? = first.home?) :
    second.Overlooks id scope := by
  rwa [Overlooks, hframe, hhome]

theorem Sees.of_steady (h : first.Sees id) (hsteady : first.Steady second) : second.Sees id := by
  intro scope hscope
  rw [hsteady.openScopes] at hscope
  exact (h scope hscope).later (hsteady.frame? id) hsteady.home?

theorem Includes.of_steady (h : first.Steady second) : first.Includes second where
  size_le := h.size_le
  scope id hid := (h.entry id hid).scope
  entries _ _ := h.mem_entries
  home := h.home?

theorem routine?_modifyRoutine {change : Routine → Routine} (hid : id < table.entries.size) :
    ((table.modifyRoutine id change).entry id).routine? = (table.entry id).routine?.map change := by
  rw [SymbolTable.modifyRoutine, entry_modifyEntry_self hid, Entry.routine?_mapRoutine]

/-- What a change to a routine does not touch. -/
theorem bind_modifyRoutine {α : Type} {view : Routine → Option α} {change : Routine → Routine}
    (hview : ∀ routine, view (change routine) = view routine) (id other : EntryId) :
    ((table.modifyRoutine id change).entry other).routine?.bind view =
      (table.entry other).routine?.bind view := by
  rw [SymbolTable.modifyRoutine, entry_modifyEntry]
  split
  · next hsame =>
      rw [Entry.routine?_mapRoutine, hsame.1]
      cases (table.entry id).routine? <;> simp [hview]
  · rfl

theorem home?_modifyRoutine {change : Routine → Routine}
    (hscope : ∀ routine, (change routine).scope = routine.scope) (id : EntryId) :
    (table.modifyRoutine id change).home? = table.home? :=
  congrArg table.program.bind (funext fun program => bind_modifyRoutine hscope id program)

/-- A change of what is known about a routine, except for its scope. -/
theorem Includes.modifyRoutine {change : Routine → Routine}
    (hscope : ∀ routine, (change routine).scope = routine.scope) (table : SymbolTable) (id : EntryId) :
    table.Includes (table.modifyRoutine id change) where
  size_le := by simp [SymbolTable.modifyRoutine]
  scope other _ := by
    rw [SymbolTable.modifyRoutine, entry_modifyEntry]
    split
    · next hsame => rw [hsame.1]; rfl
    · rfl
  entries _ _ hmem := hmem
  home := home?_modifyRoutine hscope id

theorem Includes.pop (table : SymbolTable) : table.Includes table.pop.2 where
  size_le := by simp
  scope other _ := by rw [entry_pop]
  entries scope _ hmem := by rwa [scope_pop]
  home := by simp only [SymbolTable.home?, program_pop, entry_pop]

namespace Begins

variable {kind : DefinitionKind} {forwarded : Bool}

/-- What is known about the routine that has been opened. -/
theorem routine? (h : Begins program id kind forwarded first second) :
    (second.entry id).routine? = some ((if forwarded then (first.entry id).routine?.getD {} else
      {}).opened first.scopes.size) := by
  rw [Entry.routine?, h.definition]
  cases kind <;> rfl

theorem body? (h : Begins program id kind forwarded first second) :
    (second.entry id).body? = none := by
  simp [Entry.body?, h.routine?, Routine.opened]

theorem frame? (h : Begins program id kind forwarded first second) :
    (second.entry id).frame? = some first.scopes.size := by
  simp [Entry.frame?, h.routine?, Routine.opened]

/-- Another entry keeps its body, its stage and its scope, and so does that of the program. -/
theorem alike (h : Begins program id kind forwarded first second) {other : EntryId} (hne : other ≠ id) :
    (first.entry other).Alike (second.entry other) := by
  by_cases hprogram : other = program
  · rw [hprogram, h.program]
    refine .mapRoutine ?_ ?_ ?_ <;>
      · intro routine
        unfold Routine.placing
        split_ifs <;> rfl
  · rw [h.other other hne hprogram]

end Begins

theorem Includes.of_begins {kind : DefinitionKind} {forwarded : Bool}
    (h : Begins program id kind forwarded first second) (hplace : first.program = some program)
    (hapart : id ≠ program) : first.Includes second where
  size_le := Nat.le_of_eq h.size.symm
  scope other _ := h.scope_eq other
  entries scope other hmem := by
    by_cases hscope : scope = first.scopes.size
    · subst hscope
      simp [SymbolTable.scope, Scope.entries] at hmem
    · rwa [h.elsewhere scope hscope]
  home := by
    simp only [SymbolTable.home?, h.programId, hplace, Option.bind_some, (h.alike hapart.symm).frame]

/-! ## Bodies that stay housed -/

theorem Reaches.later {other : EntryId} (h : first.Reaches id other) (hincludes : first.Includes second)
    (hframe : (second.entry id).frame? = (first.entry id).frame?) (hother : other < first.entries.size) :
    second.Reaches id other := by
  refine h.imp ?_ fun hscope => ?_
  · rintro ⟨scope, hsight, hmem⟩
    exact ⟨scope, hsight.later hframe hincludes.home, hincludes.entries scope hmem⟩
  · rw [hframe, hincludes.scope other hother, hscope]

/-- A body stays housed in a table that has all that the earlier one had. -/
theorem HousedAt.later (h : first.HousedAt id) (hincludes : first.Includes second)
    (halike : (first.entry id).Alike (second.entry id)) : second.HousedAt id where
  framed := by
    rw [halike.body, halike.frame]
    exact h.framed
  within body hbody reference hreference := by
    rw [halike.body] at hbody
    exact Nat.lt_of_lt_of_le (h.within body hbody reference hreference) hincludes.size_le
  reached body hbody reference hreference := by
    rw [halike.body] at hbody
    exact (h.reached body hbody reference hreference).later hincludes halike.frame
      (h.within body hbody reference hreference)
  awaiting hstage := by
    rw [halike.stage] at hstage
    rw [halike.body]
    exact h.awaiting hstage

/-- An entry without a body houses all of it. -/
theorem HousedAt.of_none (h : (table.entry id).body? = none) : table.HousedAt id where
  framed hbody := by simp [h] at hbody
  within body hbody := by simp [h] at hbody
  reached body hbody := by simp [h] at hbody
  awaiting _ := h

theorem housedAt_of_steady (hall : ∀ id, first.HousedAt id) (h : first.Steady second) (id : EntryId) :
    second.HousedAt id := by
  by_cases hid : id < first.entries.size
  · exact (hall id).later (.of_steady h) (.of_steady (h.entry id hid))
  · exact .of_none (by simp [Entry.body?, h.plain id (Nat.le_of_not_lt hid)])

theorem housedAt_of_begins {kind : DefinitionKind} {forwarded : Bool} (hall : ∀ id, first.HousedAt id)
    (h : Begins program id kind forwarded first second) (hplace : first.program = some program)
    (hapart : id ≠ program) (other : EntryId) : second.HousedAt other := by
  have hincludes : first.Includes second := .of_begins h hplace hapart
  by_cases hid : other = id
  · refine .of_none ?_
    rw [hid, h.body?]
  · refine (hall other).later hincludes ?_
    exact h.alike hid

/-- A routine is given another body, or another stage; the other bodies stay housed. -/
theorem housedAt_modifyRoutine {change : Routine → Routine} (hall : ∀ id, table.HousedAt id)
    (hself : (table.modifyRoutine id change).HousedAt id)
    (hscope : ∀ routine, (change routine).scope = routine.scope) (other : EntryId) :
    (table.modifyRoutine id change).HousedAt other := by
  by_cases hsame : other = id
  · rwa [hsame]
  · refine (hall other).later (.modifyRoutine hscope table id) ?_
    rw [SymbolTable.modifyRoutine, entry_modifyEntry_ne hsame]

/-- A scope is closed, and all entries and bindings stay. -/
theorem housedAt_pop (hall : ∀ id, table.HousedAt id) (id : EntryId) : table.pop.2.HousedAt id :=
  (hall id).later (.pop table) (by rw [entry_pop])

/-- Bodies that are housed later, and a program that keeps its stage and its scope. -/
theorem Houses.later (h : first.Houses program)
    (hhoused : ∀ id, second.HousedAt id)
    (hstage : (second.entry program).stage? = (first.entry program).stage?)
    (hframe : (second.entry program).frame? = (first.entry program).frame?)
    (hopen : second.openScopes = first.openScopes) (hplace : second.program = first.program) :
    second.Houses program where
  housed := hhoused
  stage := hstage.trans h.stage
  frame := by rw [hframe, h.frame, localScopeId, localScopeId, hopen]
  place := hplace.trans h.place
  sees scope hscope := by
    have hhome : second.home? = first.home? := by
      simp only [home?, hplace, h.place, Option.bind_some, hframe]
    exact (h.sees scope (hopen ▸ hscope)).later hframe hhome

theorem Houses.of_steady (h : first.Houses program)
    (hsteady : first.Steady second) : second.Houses program := by
  have halike := Entry.Alike.of_steady (hsteady.entry program h.lt)
  exact h.later (housedAt_of_steady h.housed hsteady) halike.stage halike.frame hsteady.openScopes
    hsteady.program

end

end SymbolTable

/-! ## New bodies -/

theorem Node.references_addChild (node child : Node) :
    (node.addChild child).references = node.references ++ child.references := by
  have hown : (node.addChild child).reference? = node.reference? := rfl
  rw [Node.references_eq, Node.references_eq node, hown]
  simp [Node.addChild]

/-- With a statement more, a program refers to what it did before and to what the statement refers to. -/
theorem references_appendStatement {statement body : Node} {program : Routine}
    (h : body ∈ (Production.appendStatement statement program).body) :
    body.references = program.body.toList.flatMap Node.references ++ statement.references := by
  unfold Production.appendStatement at h
  cases hbefore : program.body with
  | some before =>
      obtain rfl : before.addChild statement = body := by simpa [hbefore] using h
      simp [Node.references_addChild]
  | none =>
      obtain rfl : _ = body := by simpa [hbefore] using h
      simp [Node.references_of_none]

section

variable {known : Token → Prop} {program id : EntryId} {session later : Session}

/-- What has just been referred to can be part of the body of the routine whose scope is open. -/
theorem Session.Uses.housed {references : List Reference} (h : session.Uses later references)
    (hframe : (later.table.entry id).frame? = some later.table.localScopeId) (hsees : later.table.Sees id) :
    ∀ reference ∈ references, reference.id < later.table.entries.size ∧
      later.table.Reaches id reference.id := by
  intro reference hreference
  refine ⟨h.lt reference hreference, (h.owned reference hreference).imp ?_ fun hscope => ?_⟩
  · rintro ⟨scope, hscope, hmem⟩
    refine ⟨scope, ?_, hmem⟩
    rcases List.mem_append.mp hscope with hopen | hglobal
    · exact hsees scope hopen
    · exact Or.inr (Or.inr (List.mem_singleton.mp hglobal))
  · rw [hframe, hscope]

/-- A routine is given another body, all of whose references are in reach. -/
theorem SymbolTable.housedAt_change {table : SymbolTable} {change : Routine → Routine}
    (hid : id < table.entries.size) (hscope : ∀ routine, (change routine).scope = routine.scope)
    (hframed : (table.entry id).frame?.isSome)
    (hstage : ∀ routine ∈ (table.entry id).routine?, (change routine).stage ≠ some .forward)
    (huses : ∀ routine ∈ (table.entry id).routine?, ∀ body ∈ (change routine).body,
      ∀ reference ∈ body.references, reference.id < table.entries.size ∧
        table.Reaches id reference.id) :
    (table.modifyRoutine id change).HousedAt id := by
  have hincludes := Includes.modifyRoutine hscope table id
  have hframe : ((table.modifyRoutine id change).entry id).frame? = (table.entry id).frame? :=
    bind_modifyRoutine hscope id id
  have hroutine : ((table.modifyRoutine id change).entry id).routine? = _ := routine?_modifyRoutine hid
  cases hsome : (table.entry id).routine? with
  | none => exact .of_none (by simp [Entry.body?, hroutine, hsome])
  | some routine =>
      rw [hsome] at hroutine
      have hbody? : ((table.modifyRoutine id change).entry id).body? = (change routine).body := by
        simp [Entry.body?, hroutine]
      refine ⟨fun _ => by rwa [hframe], fun body hbody reference hreference => ?_,
        fun body hbody reference hreference => ?_, fun hforward => ?_⟩
      · rw [hbody?] at hbody
        exact Nat.lt_of_lt_of_le (huses routine hsome body hbody reference hreference).1
          hincludes.size_le
      · rw [hbody?] at hbody
        obtain ⟨hlt, hreaches⟩ := huses routine hsome body hbody reference hreference
        exact hreaches.later hincludes hframe hlt
      · have hstage? : ((table.modifyRoutine id change).entry id).stage? = (change routine).stage := by
          simp [Entry.stage?, hroutine]
        exact absurd (hstage?.symm.trans hforward) (hstage routine hsome)

/-! ## Items -/

/-- A routine that waits for its body: its scope is open, and it sees what else is. -/
structure SymbolTable.Waits (table : SymbolTable) (id : EntryId) : Prop where
  lt : id < table.entries.size
  body : (table.entry id).body? = none
  frame : (table.entry id).frame? = some table.localScopeId
  routine : (table.entry id).routine?.isSome
  sees : table.Sees id

theorem SymbolTable.Waits.steady {first second : SymbolTable} (h : first.Waits id)
    (hsteady : first.Steady second) : second.Waits id := by
  have halike : (first.entry id).Alike (second.entry id) := .of_steady (hsteady.entry id h.lt)
  refine ⟨Nat.lt_of_lt_of_le h.lt hsteady.size_le, halike.body.trans h.body, ?_, ?_,
    h.sees.of_steady hsteady⟩
  · rw [halike.frame, h.frame, hsteady.localScopeId]
  · rw [(hsteady.entry id h.lt).routine?_isSome]
    exact h.routine

/-- The stage of a routine that waits for its body is recorded. -/
theorem SymbolTable.Waits.staged {session : Session} (h : session.table.Waits id) (stage : RoutineStage) :
    (session.staged id stage).table.Waits id ∧
      ((session.staged id stage).table.entry id).stage? = some stage := by
  have hroutine : ((session.staged id stage).table.entry id).routine? = _ := routine?_modifyRoutine h.lt
  obtain ⟨routine, hsome⟩ := Option.isSome_iff_exists.mp h.routine
  rw [hsome] at hroutine
  have hbody := h.body
  have hscope (routine : Routine) : { routine with stage := some stage }.scope = routine.scope := rfl
  have hframe : ((session.staged id stage).table.entry id).frame? = (session.table.entry id).frame? :=
    bind_modifyRoutine hscope id id
  refine ⟨⟨by simpa [Session.staged, modifyRoutine] using h.lt, ?_, hframe.trans h.frame,
    by simp [hroutine], fun scope hopen => ?_⟩, ?_⟩
  · simpa [Entry.body?, hroutine, hsome] using hbody
  · exact (h.sees scope hopen).later hframe (home?_modifyRoutine hscope id)
  · simp [Entry.stage?, hroutine]

theorem SymbolTable.Waits.housedAt_staged {session : Session} (h : session.table.Waits id)
    (hall : ∀ other, session.table.HousedAt other) (stage : RoutineStage) :
    ∀ other, (session.staged id stage).table.HousedAt other :=
  housedAt_modifyRoutine hall (.of_none (h.staged stage).1.body) (by simp)

theorem Finishes.housedAt {headed closed : Session} (h : Finishes known id headed closed)
    (hlawful : headed.Lawful known) (hwaits : headed.table.Waits id)
    (hall : ∀ other, headed.table.HousedAt other) (other : EntryId) : closed.table.HousedAt other := by
  have hstaged := hwaits.housedAt_staged hall
  cases h with
  | forward hsteps =>
      exact SymbolTable.housedAt_of_steady (hstaged .forward)
        (hsteps.steady (hlawful.staged id .forward) nofun) other
  | @compiled made body hsteps huses =>
      obtain ⟨hwaiting, hstage⟩ := hwaits.staged .declared
      have hsteady := hsteps.steady (hlawful.staged id .declared) nofun
      have hmade := hwaiting.steady hsteady
      have hdeclared := (Entry.Alike.of_steady (hsteady.entry id hwaiting.lt)).stage.trans hstage
      refine SymbolTable.housedAt_modifyRoutine
        (SymbolTable.housedAt_of_steady (hstaged .declared) hsteady)
        (SymbolTable.housedAt_change hmade.lt (by simp) (by simp [hmade.frame]) ?_ ?_) (by simp) other
      · intro routine hroutine
        have hsome : routine.stage = some .declared := by
          simpa [Entry.stage?, Option.mem_def.mp hroutine] using hdeclared
        simp [hsome]
      · intro routine _ other hother
        obtain rfl : body = other := by simpa using hother
        exact huses.housed hmade.frame hmade.sees

/-- Other routines are not touched while one is compiled. -/
theorem Finishes.alike {headed closed : Session} (h : Finishes known id headed closed)
    (hlawful : headed.Lawful known) {other : EntryId} (hne : other ≠ id)
    (hother : other < headed.table.entries.size) :
    (headed.table.entry other).Alike (closed.table.entry other) := by
  obtain ⟨stage, made, hsteady, hclosed⟩ := h.steady hlawful
  have hstaged : (headed.staged id stage).table.entry other = headed.table.entry other :=
    SymbolTable.entry_modifyEntry_ne hne _
  have hmade : closed.table.entry other = made.entry other := by
    rcases hclosed with hclosed | ⟨body, hclosed⟩ <;> rw [hclosed]
    exact SymbolTable.entry_modifyEntry_ne hne _
  have hlt : other < (headed.staged id stage).table.entries.size := by
    simpa [Session.staged, SymbolTable.modifyRoutine] using hother
  rw [hmade, ← hstaged]
  exact .of_steady (hsteady.entry other hlt)

/-- A routine that has been opened waits for its body; beside its own scope it sees that of the program. -/
theorem Opens.waits {kind : DefinitionKind} {forwarded : Bool} {named begun : Session}
    (h : Opens known program id kind forwarded session named begun) (hlawful : session.Lawful known)
    (hhouses : session.table.Houses program) : begun.table.Waits id where
  lt := by
    rw [h.begins.size]
    exact h.target.lt
  body := h.begins.body?
  frame := by
    rw [h.begins.frame?, SymbolTable.localScopeId, h.begins.openScopes]
    rfl
  routine := by simp [h.begins.routine?]
  sees scope hscope := by
    rw [h.begins.openScopes] at hscope
    rcases List.mem_cons.mp hscope with rfl | hopen
    · exact Or.inl h.begins.frame?
    · -- what the program sees is its own scope or the global one
      have hsteady := h.naming.steady hlawful (by simp)
      have hhome : begun.table.home? = (named.table.entry program).frame? := by
        rw [(SymbolTable.Includes.of_begins h.begins h.place h.apart).home, SymbolTable.home?, h.place]
        rfl
      have hsight := hhouses.sees.of_steady hsteady scope hopen
      rw [SymbolTable.Overlooks, SymbolTable.home?, h.place, Option.bind_some, ← or_assoc, or_self] at hsight
      exact Or.inr (by rwa [hhome])

/-- Items keep bodies housed. -/
theorem Item.houses (h : Item known program session later) (hlawful : session.Lawful known)
    (hhouses : session.table.Houses program) : later.table.Houses program := by
  have hlt := hhouses.lt
  obtain ⟨hopen, hplace⟩ := h.openScopes hlawful
  cases h with
  | declares hsteps => exact hhouses.of_steady (hsteps.steady hlawful (by simp))
  | @states stated node hsteps huses =>
      have hsteady := hsteps.steady hlawful (by simp)
      have hstated := hhouses.of_steady hsteady
      refine hstated.later (SymbolTable.housedAt_modifyRoutine hstated.housed
        (SymbolTable.housedAt_change hstated.lt (scope_appendStatement node) (by simp [hstated.frame])
          ?_ ?_) (scope_appendStatement node))
        (SymbolTable.bind_modifyRoutine (Production.stage_appendStatement node) _ _)
        (SymbolTable.bind_modifyRoutine (scope_appendStatement node) _ _) rfl rfl
      · intro routine hroutine
        have hnone : routine.stage = none := by
          simpa [Entry.stage?, Option.mem_def.mp hroutine] using hstated.stage
        simp [Production.stage_appendStatement, hnone]
      · intro routine hroutine body hbody reference hreference
        rw [references_appendStatement hbody] at hreference
        rcases List.mem_append.mp hreference with hold | hnew
        · obtain ⟨before, hbefore, hreference⟩ := List.mem_flatMap.mp hold
          have hbefore : before ∈ (stated.table.entry program).body? := by
            simpa [Entry.body?, Option.mem_def.mp hroutine] using hbefore
          exact ⟨(hstated.housed program).within before hbefore reference hreference,
            (hstated.housed program).reached before hbefore reference hreference⟩
        · exact huses.housed hstated.frame hstated.sees reference hnew
  | @routine id kind forwarded named begun headed closed hopens hheading hrepeats hfinishes =>
      have hnaming := hopens.naming.steady hlawful (by simp)
      have hheaded := hheading.steady hopens.lawful (by simp)
      have hnamed := hhouses.of_steady hnaming
      have hbegun :=
        SymbolTable.housedAt_of_begins hnamed.housed hopens.begins hopens.place hopens.apart
      have hall := SymbolTable.housedAt_of_steady hbegun hheaded
      have hwaits := (hopens.waits hlawful hhouses).steady hheaded
      have hlawful' := hheading.lawful hopens.lawful
      have hclosed := hfinishes.housedAt hlawful' hwaits hall
      -- the entry of the program is none of those that are worked on
      have hlt' := Nat.lt_of_lt_of_le (hopens.begins.size ▸ hnamed.lt) hheaded.size_le
      have halike : (session.table.entry program).Alike (closed.table.entry program) :=
        .trans (.of_steady (hnaming.entry program hlt)) <|
          (hopens.begins.alike (Ne.symm hopens.apart)).trans <|
          .trans (.of_steady (hheaded.entry program (hopens.begins.size ▸ hnamed.lt)))
            (hfinishes.alike hlawful' (Ne.symm hopens.apart) hlt')
      refine hhouses.later (SymbolTable.housedAt_pop hclosed) ?_ ?_ hopen hplace
      · rw [SymbolTable.entry_pop, halike.stage]
      · rw [SymbolTable.entry_pop, halike.frame]

theorem Items.houses (h : Items known program session later) (hhouses : session.table.Houses program) :
    later.table.Houses program := by
  induction h with
  | refl => exact hhouses
  | tail _ hitem ih => exact hitem.2.houses hitem.1 ih

end

theorem SymbolTable.houses_unitTable : unitTable.Houses programId where
  housed id := .of_none (body?_unitTable id).1
  stage := (hosts_unitTable True).stage
  frame := by decide +kernel
  place := rfl
  sees scope hscope := by
    have hhome : unitTable.home? = some unitTable.localScopeId := by decide +kernel
    have hopen : unitTable.openScopes = [unitTable.localScopeId] := by decide +kernel
    rw [hopen] at hscope
    exact Or.inr (Or.inl (by rw [hhome, List.mem_singleton.mp hscope]))

end FrontEnd
