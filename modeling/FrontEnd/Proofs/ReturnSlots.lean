import FrontEnd.Proofs.Bodies
import FrontEnd.Proofs.Compilation
import FrontEnd.Proofs.History
import FrontEnd.Proofs.Layout

/-!
# The slots of returns

A return assigns to an entry made for the purpose, which no name leads to and which refers to the slot that
the scope of the routine would hand out next.  The slot is not taken: a variable that is declared later in
the routine gets it too, and a return after that uses another one (`returnSlots_mixed`).

What holds of all returns and of all variables and parameters of a routine follows from the order in which
they are made (`compile_returnSlots`): a return does not touch the slot of anything declared before it, it
shares its slot with at most the first variable declared after it, and two returns use the same slot just if
nothing is declared between them.

## Strategy

All slots of a scope, those of returns included, are given by one number, which counts what has been
declared before (`LaidFrom`).  Runs below the top level keep this (`Steps.laid`), and a scope that is
opened for a routine is empty and begins a layout of its own, whatever its first slot is
(`Laid.of_begins`).
-/

namespace FrontEnd

namespace SymbolTable

section

variable {table first second : SymbolTable} {program id : EntryId} {kind : DefinitionKind}
  {forwarded : Bool}

/-- A routine has no slot. -/
theorem slot?_of_routine? {entry : Entry} (h : entry.routine?.isSome) : entry.definition.slot? = none := by
  simp only [Entry.routine?] at h
  cases hdefinition : entry.definition <;> simp_all [Definition.routine?, Definition.slot?]

/-- What is to become a routine has none either. -/
theorem slot?_of_revisable {entry : Entry} (h : entry.kind = .undefined ∨ entry.routine?.isSome) :
    entry.definition.slot? = none := by
  rcases h with hundefined | hroutine
  · simp only [Entry.kind] at hundefined
    cases hdefinition : entry.definition <;> simp_all [Definition.kind, Definition.slot?]
  · exact slot?_of_routine? hroutine

/-- Nothing that happens to a routine gives it a slot. -/
theorem slot?_mapRoutine (change : Routine → Routine) (entry : Entry) :
    (entry.mapRoutine change).definition.slot? = entry.definition.slot? := by
  simp only [Entry.mapRoutine]
  cases entry.definition <;> rfl

theorem Laid.modifyRoutine (h : table.Laid) (id : EntryId) (change : Routine → Routine) :
    (table.modifyRoutine id change).Laid :=
  h.modifyEntry rfl (slot?_mapRoutine change _)

theorem Laid.pop (h : table.Laid) : table.pop.2.Laid := by
  unfold SymbolTable.pop
  split
  · exact h
  · exact ⟨h.owned, h.home, fun scope => (h.rows scope).imp fun _ hrow => ⟨hrow.next, hrow.slot⟩⟩

theorem Begins.slot?_eq (h : Begins program id kind forwarded first second)
    (hbefore : (first.entry id).kind = .undefined ∨ (first.entry id).routine?.isSome) (other : EntryId) :
    (second.entry other).definition.slot? = (first.entry other).definition.slot? := by
  have hself : (second.entry id).definition.slot? = (first.entry id).definition.slot? := by
    rw [slot?_of_revisable hbefore]
    exact slot?_of_routine? (by simp [h.routine?])
  exact h.view_eq (fun entry => entry.definition.slot?) slot?_mapRoutine hself other

/-- The scope of a routine that has just been opened is laid out like the others. -/
theorem Laid.of_begins (h : first.Laid) (hbegins : Begins program id kind forwarded first second)
    (hbefore : (first.entry id).kind = .undefined ∨ (first.entry id).routine?.isSome) :
    second.Laid := by
  have hslots := hbegins.slot?_eq hbefore
  have hentries : (second.scope first.scopes.size).entries = [] := by
    rw [Scope.entries_eq, hbegins.fresh]
    rfl
  refine ⟨fun other hother => ?_, fun scope other hmem => ?_, fun scope => ?_⟩
  · rw [hbegins.scope_eq, hbegins.scopes]
    rw [hbegins.size] at hother
    exact Nat.lt_succ_of_lt (h.owned other hother)
  · rw [hbegins.scope_eq]
    by_cases hscope : scope = first.scopes.size
    · rw [hscope, hentries] at hmem
      simp at hmem
    · rw [hbegins.elsewhere scope hscope] at hmem
      exact h.home scope other hmem
  · by_cases hscope : scope = first.scopes.size
    · -- no entry belongs to the new scope yet
      subst hscope
      refine ⟨(second.scope first.scopes.size).nextSlot, ?_, fun other slot hother hsome => ?_⟩
      · simp [storedBefore, hentries]
      · rw [hbegins.scope_eq] at hother
        by_cases hlt : other < first.entries.size
        · exact absurd hother (Nat.ne_of_lt (h.owned other hlt))
        · rw [entry_of_size_le (by rw [hbegins.size]; exact Nat.le_of_not_lt hlt)] at hsome
          simp [Definition.slot?] at hsome
    · obtain ⟨start, hrow⟩ := h.rows scope
      have hstored (other : EntryId) : second.storedBefore scope other = first.storedBefore scope other :=
        storedBefore_congr [] (by rw [hbegins.elsewhere scope hscope, List.append_nil]) (by simp)
          fun found _ => hslots found
      refine ⟨start, ?_, fun other slot hother hsome => ?_⟩
      · rw [hbegins.elsewhere scope hscope, hbegins.size, hstored]
        exact hrow.next
      · rw [hbegins.scope_eq] at hother
        rw [hslots] at hsome
        rw [hstored]
        exact hrow.slot other slot hother hsome

end

/-- In the first table, only the global scope binds names. -/
theorem bindings_unitTable {scope : ScopeId} (hscope : scope ≠ globalScope) :
    (unitTable.scope scope).bindings = [] := by
  have hempty : ∀ found ∈ unitTable.scopes.toList.tail, found.bindings = [] := by decide +kernel
  cases scope with
  | zero => exact absurd rfl hscope
  | succ scope =>
      cases hfound : unitTable.scopes[scope + 1]? with
      | none => simp [SymbolTable.scope, hfound]
      | some found =>
          have hmem : found ∈ unitTable.scopes.toList.tail := by
            refine List.mem_of_getElem? (i := scope) ?_
            simpa [List.getElem?_tail] using hfound
          simpa [SymbolTable.scope, hfound] using hempty found hmem

/-- In the first table nothing has a slot. -/
theorem laid_unitTable : unitTable.Laid := by
  have hslots : ∀ entry ∈ unitTable.entries.toList,
      entry.definition.slot? = none ∧ entry.scope = globalScope := by decide +kernel
  have hentry := forall_entry hslots (by decide)
  refine ⟨fun id _ => ?_, fun scope id hmem => ?_, fun scope => ?_⟩
  · rw [(hentry id).2]
    decide +kernel
  · by_cases hscope : scope = globalScope
    · rw [(hentry id).2, hscope]
    · simp [Scope.entries_eq, bindings_unitTable hscope] at hmem
  · refine ⟨(unitTable.scope scope).nextSlot, ?_, fun id slot _ hsome => ?_⟩
    · simp [storedBefore, (hentry _).1]
    · simp [(hentry id).1] at hsome

end SymbolTable

/-! ## Items -/

section

variable {known : Token → Prop} {program id : EntryId} {session later : Session}

theorem Finishes.laid {headed closed : Session} (h : Finishes known id headed closed)
    (hlawful : headed.Lawful known) (hlaid : headed.table.Laid) : closed.table.Laid := by
  have hstaged (stage : RoutineStage) : (headed.staged id stage).table.Laid := hlaid.modifyRoutine id _
  cases h with
  | forward hsteps => exact hsteps.laid (hlawful.staged id .forward) (hstaged .forward) nofun
  | compiled hsteps huses =>
      exact (hsteps.laid (hlawful.staged id .declared) (hstaged .declared) nofun).modifyRoutine id _

/-- Items keep the frames of all scopes laid out. -/
theorem Item.laid (h : Item known program session later) (hlawful : session.Lawful known)
    (hlaid : session.table.Laid) : later.table.Laid := by
  cases h with
  | declares hsteps => exact hsteps.laid hlawful hlaid nofun
  | states hsteps huses => exact (hsteps.laid hlawful hlaid nofun).modifyRoutine program _
  | @routine id kind forwarded named begun headed closed hopens hheading hrepeats hfinishes =>
      have hnamed := hopens.naming.laid hlawful hlaid nofun
      have hbegun := hnamed.of_begins hopens.begins hopens.target.revisable
      have hheaded := hheading.laid hopens.lawful hbegun nofun
      exact (hfinishes.laid (hheading.lawful hopens.lawful) hheaded).pop

theorem Items.laid (h : Items known program session later) (hlaid : session.table.Laid) :
    later.table.Laid := by
  induction h with
  | refl => exact hlaid
  | tail _ hitem ih => exact hitem.2.laid hitem.1 ih

end

/-! ## What trees use -/

section

variable {accepted : Prop} {table : SymbolTable} {owner : EntryId} {node : Node}

/-- What is used in a tree is used by one of its nodes. -/
theorem Node.forall_uses {holds : EntryId → Prop}
    (h : ∀ inner ∈ node.nodes, ∀ use ∈ inner.use?, holds use) : ∀ use ∈ node.uses, holds use := by
  intro use huse
  obtain ⟨inner, hinner, huse⟩ := List.mem_filterMap.mp huse
  exact h inner hinner use huse

/-- Only a use of a variable uses an entry. -/
theorem SymbolTable.holdsOfNodes_uses {holds : EntryId → Prop}
    (h : ∀ id, table.Refers accepted id → holds id) :
    table.HoldsOfNodes accepted fun node => ∀ use ∈ node.use?, holds use where
  plain _ _ huse _ _ := by simp [Node.use?, huse]
  constant {id value} _ := by
    cases value <;> simp [Node.use?, SymbolTable.constantNode, ConstantValue.literal, Literal.node]
  reference {id} hrefers := by simpa [Node.use?, SymbolTable.variableNode] using h id hrefers
  call type line arguments _ := by simp [Node.use?]

/-- What a statement uses is bound to a name, or it is the target of a return. -/
theorem StatementTree.uses_bound (h : StatementTree accepted table owner node) :
    ∀ use ∈ node.uses, table.Bound use ∨ (table.entry use).kind = .plainVariable := by
  refine Node.forall_uses (h.forall_nodes
    (SymbolTable.holdsOfNodes_uses fun _ hrefers => Or.inl hrefers.bound) fun id _ hkind => ?_)
  simpa [Node.use?, SymbolTable.variableNode] using Or.inr hkind

end

/-! ## Slots -/

namespace SymbolTable

/-- The slot that an entry refers to, if it refers to one. -/
def slotOf (table : SymbolTable) (id : EntryId) : Nat :=
  (table.entry id).definition.slot?.getD 0

/-- Whether an entry is a variable or a parameter that a scope binds. -/
def Stores (table : SymbolTable) (scope : ScopeId) (id : EntryId) : Prop :=
  id ∈ (table.scope scope).entries ∧ (table.entry id).definition.slot?.isSome

instance (table : SymbolTable) (scope : ScopeId) (id : EntryId) : Decidable (table.Stores scope id) :=
  inferInstanceAs (Decidable (_ ∧ _))

/-- An entry is bound to a name if one of the scopes of the table binds it. -/
theorem bound_iff {table : SymbolTable} {id : EntryId} :
    (∃ scope ∈ table.scopes.toList, id ∈ scope.entries) ↔ table.Bound id := by
  constructor
  · rintro ⟨scope, hscope, hmem⟩
    obtain ⟨index, hindex⟩ := List.mem_iff_getElem?.mp hscope
    refine ⟨index, ?_⟩
    have hfound : table.scopes[index]? = some scope := by simpa using hindex
    rwa [SymbolTable.scope, hfound, Option.getD_some]
  · rintro ⟨index, hmem⟩
    cases hfound : table.scopes[index]? with
    | none => simp [SymbolTable.scope, hfound, Scope.entries] at hmem
    | some scope =>
        refine ⟨scope, by simpa using Array.mem_of_getElem? hfound, ?_⟩
        simpa [SymbolTable.scope, hfound] using hmem

instance (table : SymbolTable) (id : EntryId) : Decidable (table.Bound id) :=
  decidable_of_iff _ bound_iff

/-- Whether an entry is the target of a return in a body: it is used, and no name leads to it. -/
def Returns (table : SymbolTable) (body : Node) (id : EntryId) : Prop :=
  id ∈ body.uses ∧ ¬ table.Bound id

instance (table : SymbolTable) (body : Node) (id : EntryId) : Decidable (table.Returns body id) :=
  inferInstanceAs (Decidable (_ ∧ _))

/-- How the slots of the returns in a body lie between those of the variables and parameters of a scope,
which are numbered, like the returns, in the order of their creation. -/
structure ReturnsWithin (table : SymbolTable) (scope : ScopeId) (body : Node) : Prop where
  detached : ∀ target, table.Returns body target →
    (table.entry target).scope = scope ∧ ∃ slot, (table.entry target).definition = .plainVariable slot
  before : ∀ target stored, table.Returns body target → table.Stores scope stored → stored < target →
    table.slotOf stored < table.slotOf target
  after : ∀ target stored, table.Returns body target → table.Stores scope stored → target < stored →
    table.slotOf target ≤ table.slotOf stored ∧
      (table.slotOf target = table.slotOf stored ↔
        ∀ other, table.Stores scope other → target < other → stored ≤ other)
  same : ∀ target other, table.Returns body target → table.Returns body other → target ≤ other →
    (table.slotOf target = table.slotOf other ↔
      ∀ stored, table.Stores scope stored → target < stored → other < stored)

section

variable {table : SymbolTable} {scope : ScopeId} {start : Nat} {body : Node} {target later : EntryId}

/-- The slot of each entry of a scope is given by what has been declared before it. -/
theorem LaidFrom.slotOf (h : table.LaidFrom scope start) {id : EntryId}
    (hscope : (table.entry id).scope = scope) (hslot : (table.entry id).definition.slot?.isSome) :
    table.slotOf id = start + table.storedBefore scope id := by
  obtain ⟨slot, hsome⟩ := Option.isSome_iff_exists.mp hslot
  rw [SymbolTable.slotOf, hsome, Option.getD_some]
  exact h.slot id slot hscope hsome

/-- A return counts the same as a later entry just if nothing is declared between them. -/
theorem storedBefore_eq_iff_of_returns (hreturns : table.Returns body target) (h : target ≤ later) :
    table.storedBefore scope target = table.storedBefore scope later ↔
      ∀ other, table.Stores scope other → target < other → later ≤ other := by
  rw [storedBefore_eq_iff h]
  constructor
  · rintro hnone other ⟨hmem, hslot⟩ hafter
    by_contra hbefore
    simp [hnone other hmem (Nat.le_of_lt hafter) (Nat.lt_of_not_le hbefore)] at hslot
  · intro hbeyond other hmem hafter hbefore
    by_contra hslot
    have hstores : table.Stores scope other := ⟨hmem, Option.isSome_iff_ne_none.mpr hslot⟩
    -- what is declared is bound to a name, and so is not the return itself
    have hne : target ≠ other := by
      rintro rfl
      exact hreturns.2 ⟨scope, hmem⟩
    exact Nat.not_lt_of_le (hbeyond other hstores (Nat.lt_of_le_of_ne hafter hne)) hbefore

/-- In a table that is laid out the slots of returns lie as they should. -/
theorem Laid.returnsWithin (hlaid : table.Laid)
    (hdetached : ∀ target, table.Returns body target →
      (table.entry target).scope = scope ∧ ∃ slot, (table.entry target).definition = .plainVariable slot) :
    table.ReturnsWithin scope body := by
  obtain ⟨start, hrow⟩ := hlaid.rows scope
  have hreturn {target : EntryId} (h : table.Returns body target) :
      table.slotOf target = start + table.storedBefore scope target := by
    obtain ⟨hscope, slot, hdefinition⟩ := hdetached target h
    exact hrow.slotOf hscope (by simp [hdefinition, Definition.slot?])
  have hstored {stored : EntryId} (h : table.Stores scope stored) :
      table.slotOf stored = start + table.storedBefore scope stored :=
    hrow.slotOf (hlaid.home scope stored h.1) h.2
  refine ⟨hdetached, fun target stored htarget hstores hlt => ?_,
    fun target stored htarget hstores hlt => ⟨?_, ?_⟩, fun target other htarget hother hle => ?_⟩
  · rw [hreturn htarget, hstored hstores]
    exact Nat.add_lt_add_left (storedBefore_lt hstores.1 hstores.2 hlt) start
  · rw [hreturn htarget, hstored hstores]
    exact Nat.add_le_add_left (storedBefore_mono (Nat.le_of_lt hlt)) start
  · rw [hreturn htarget, hstored hstores, Nat.add_left_cancel_iff]
    exact storedBefore_eq_iff_of_returns htarget (Nat.le_of_lt hlt)
  · rw [hreturn htarget, hreturn hother, Nat.add_left_cancel_iff,
      storedBefore_eq_iff_of_returns htarget hle]
    refine forall₃_congr fun stored hstores _ => ?_
    have hne : other ≠ stored := by
      rintro rfl
      exact hother.2 ⟨scope, hstores.1⟩
    exact ⟨fun hle => Nat.lt_of_le_of_ne hle hne, Nat.le_of_lt⟩

end

end SymbolTable

/-- The returns of every routine assign to slots of its own frame: none that has been handed out before the
return, and two returns to the same one unless something is declared between them. -/
theorem compile_returnSlots {stream : TokenStream} {unit : CompilationUnit}
    (h : compile stream = .ok unit) {id : EntryId} {body : Node}
    (hbody : body ∈ (unit.table.entry id).body?) :
    ∃ scope, (unit.table.entry id).frame? = some scope ∧ unit.table.ReturnsWithin scope body := by
  obtain ⟨session, ended, -, hitems, -, htable, -⟩ := compile_items h
  have hhoused : unit.table.HousedAt id := by
    rw [htable]
    exact SymbolTable.housedAt_pop (hitems.houses SymbolTable.houses_unitTable).housed id
  have hlaid : unit.table.Laid := by
    rw [htable]
    exact (hitems.laid SymbolTable.laid_unitTable).pop
  obtain ⟨scope, hframe⟩ := Option.isSome_iff_exists.mp (hhoused.framed (Option.isSome_of_mem hbody))
  refine ⟨scope, hframe, hlaid.returnsWithin fun target htarget => ⟨?_, ?_⟩⟩
  · have hscope := (hhoused.owned body hbody target htarget.1).resolve_left htarget.2
    exact (Option.some.inj (hframe.symm.trans hscope)).symm
  · have hkind := ((compile_sound h).2.bodies id body hbody).uses_bound target htarget.1
    have hkind := hkind.resolve_left htarget.2
    simp only [Entry.kind] at hkind
    cases hdefinition : (unit.table.entry target).definition <;>
      simp_all [Definition.kind]

/-- Both returns of `f` assign to the slot after that of its variable. -/
theorem compile_returnSlots_twice :
    ∃ unit, compileText "int f() \x7b int x; return x; return 2; \x7d" = .ok unit ∧
      ∃ body ∈ (unit.table.entry 6).body?, unit.table.Returns body 8 ∧ unit.table.Returns body 9 ∧
        ∃ scope, (unit.table.entry 6).frame? = some scope ∧ unit.table.ReturnsWithin scope body := by
  have hcompiled : ∃ unit, compileText "int f() \x7b int x; return x; return 2; \x7d" = .ok unit ∧
      ∃ body ∈ (unit.table.entry 6).body?, unit.table.Returns body 8 ∧ unit.table.Returns body 9 :=
    exists_compiled (by decide +kernel)
  obtain ⟨unit, hunit, body, hbody, hfirst, hsecond⟩ := hcompiled
  exact ⟨unit, hunit, body, hbody, hfirst, hsecond, compile_returnSlots hunit hbody⟩

/-- Between the two returns of `f` a variable is declared: the first return assigns to the slot of the
variable, and the second to another one. -/
theorem returnSlots_mixed :
    ∃ unit, compileText "int f() \x7b return 1; int x; return 2; \x7d" = .ok unit ∧
      ∃ body ∈ (unit.table.entry 6).body?, ∃ scope ∈ (unit.table.entry 6).frame?,
        unit.table.Returns body 7 ∧ unit.table.Stores scope 8 ∧ unit.table.Returns body 9 ∧
          unit.table.slotOf 7 = unit.table.slotOf 8 ∧ unit.table.slotOf 7 ≠ unit.table.slotOf 9 :=
  exists_compiled (by decide +kernel)

end FrontEnd
