import FrontEnd.Proofs.Frame
import FrontEnd.Proofs.LifeCycle

/-!
# The owners of scopes

Every header of a routine opens a scope, which becomes that of the routine.  So the scope of a routine is the one
that its last header has opened (`History.frame?_eq_some_iff`), and those that headers before that have opened are
left without an owner.  There can be a later header only if the one before it has left the routine declared forward
(`History.superseded`).

## Strategy

Between two calls no routine gets another scope, and a call gives one to its own routine only, which is new in the
table.  The scopes of a unit are therefore numbered by the calls that have opened them, and no two routines have the
same one.
-/

namespace FrontEnd

/-! ## Looking for an owner -/

theorem Entry.any_scope_eq (entry : Entry) (scope : ScopeId) :
    entry.routine?.any (fun routine => routine.scope == some scope) = (entry.frame? == some scope) := by
  rw [Entry.frame?]
  cases entry.routine? <;> simp

theorem Entry.Agrees.frame? {first second : Entry} (h : first.Agrees second) : second.frame? = first.frame? := by
  rw [Entry.frame?, h.routine?, Entry.frame?]

namespace SymbolTable

variable {table : SymbolTable} {scope : ScopeId} {id : EntryId}

theorem scopeOwner_eq_none_iff : table.scopeOwner scope = none ↔ ∀ id, (table.entry id).frame? ≠ some scope := by
  rw [scopeOwner, Array.findIdx?_eq_none_iff]
  simp only [Entry.any_scope_eq, beq_eq_false_iff_ne]
  constructor
  · intro hnone
    exact forall_entry (fun entry hentry => hnone entry (Array.mem_toList_iff.mp hentry)) nofun
  · intro hnone entry hentry
    obtain ⟨id, hid, rfl⟩ := Array.getElem_of_mem hentry
    simpa [SymbolTable.entry, hid] using hnone id

theorem frame?_of_scopeOwner (h : table.scopeOwner scope = some id) : (table.entry id).frame? = some scope := by
  obtain ⟨hid, howns, -⟩ := Array.findIdx?_eq_some_iff_getElem.mp h
  rw [Entry.any_scope_eq] at howns
  simpa [SymbolTable.entry, hid] using howns

/-- Whether no two routines have the same scope. -/
def Apart (table : SymbolTable) : Prop :=
  ∀ id other scope, (table.entry id).frame? = some scope → (table.entry other).frame? = some scope → id = other

/-- Where no two routines have the same scope, its owner is the routine that has it. -/
theorem Apart.scopeOwner (h : table.Apart) (hframe : (table.entry id).frame? = some scope) :
    table.scopeOwner scope = some id := by
  cases howner : table.scopeOwner scope with
  | none => exact absurd hframe (scopeOwner_eq_none_iff.mp howner id)
  | some other => rw [h id other scope hframe (frame?_of_scopeOwner howner)]

end SymbolTable

/-! ## The scope of a routine -/

section

variable {known : Token → Prop} {program : EntryId} {session later : Session} {call : Call} {id : EntryId}

/-- Between two calls no routine gets another scope. -/
theorem Session.Goes.frame? (h : session.Goes program later) (hne : id ≠ program) :
    (later.table.entry id).frame? = (session.table.entry id).frame? := by
  by_cases hid : id < session.table.entries.size
  · exact (h.agrees hid hne).frame?
  · have hsize := Nat.le_of_not_lt hid
    rw [Entry.frame?, h.plain hsize hne, SymbolTable.entry_of_size_le hsize]
    rfl

/-- A call gives a scope to its own routine only. -/
theorem Call.Made.frame?_of_ne (h : call.Made known program) (himproper : Improper known) (hne : id ≠ call.id)
    (hprogram : id ≠ program) : (call.after.table.entry id).frame? = (call.before.table.entry id).frame? := by
  by_cases hid : id < call.before.table.entries.size
  · exact (h.agrees himproper hid hne hprogram).frame?
  · have hsize := Nat.le_of_not_lt hid
    rw [Entry.frame?, h.plain himproper hsize hne, SymbolTable.entry_of_size_le hsize]
    rfl

end

/-- Whether a call is the last of some calls that works on its routine. -/
def Call.LastOf (call : Call) (after : List Call) : Prop :=
  ∀ later ∈ after, later.id ≠ call.id

theorem Call.lastOf_nil (call : Call) : call.LastOf [] :=
  List.forall_mem_nil _

/-- Whether a call leaves its routine declared forward, and one of the calls after it works on that routine again. -/
def Call.Superseded (call : Call) (after : List Call) : Prop :=
  (call.after.table.entry call.id).stage? = some .forward ∧
    ∃ later ∈ after, later.id = call.id ∧ later.forwarded = true

theorem Call.Superseded.not_lastOf {call : Call} {after : List Call} (h : call.Superseded after) :
    ¬call.LastOf after := by
  obtain ⟨-, later, hmem, hid, -⟩ := h
  exact fun hlast => hlast later hmem hid

namespace History

variable {known : Token → Prop} {program : EntryId} {start session : Session} {calls : List Call} {id : EntryId}
  {scope : ScopeId}

/-- Where calls that end in some call are cut at one of them, this is the last one or what follows it ends in that. -/
theorem split_concat {before after : List Call} {earlier last : Call}
    (h : calls ++ [last] = before ++ earlier :: after) :
    before = calls ∧ earlier = last ∧ after = [] ∨
      ∃ rest, after = rest ++ [last] ∧ calls = before ++ earlier :: rest := by
  rcases List.eq_nil_or_concat after with rfl | ⟨rest, other, rfl⟩
  · obtain ⟨hcalls, hlast⟩ := List.append_inj' h rfl
    exact .inl ⟨hcalls.symm, (List.singleton_inj.mp hlast).symm, rfl⟩
  · rw [List.concat_eq_append, ← List.cons_append, ← List.append_assoc] at h
    obtain ⟨hcalls, hlast⟩ := List.append_inj' h rfl
    exact .inr ⟨rest, by rw [List.concat_eq_append, hlast], hcalls⟩

/-- The scope of a routine is the one that its last header has opened. -/
theorem frame?_eq_some_iff (h : History known program start calls session) (himproper : Improper known)
    (hstart : (start.table.entry id).frame? = none) (hne : id ≠ program) :
    (session.table.entry id).frame? = some scope ↔
      ∃ before call after, calls = before ++ call :: after ∧ call.id = id ∧ call.LastOf after ∧
        scope = start.table.scopes.size + before.length := by
  induction h with
  | nil => simp [hstart]
  | goes _ _ _ hgoes ih => rw [hgoes.frame? hne, ih]
  | @call calls call hhistory hmade ih =>
      by_cases hself : id = call.id
      · rw [hself, hmade.frame himproper, hhistory.scopes_size himproper, Option.some.injEq]
        constructor
        · rintro rfl
          exact ⟨calls, call, [], rfl, rfl, call.lastOf_nil, rfl⟩
        · rintro ⟨before, earlier, after, hcalls, hid, hlast, rfl⟩
          rcases split_concat hcalls with ⟨rfl, -, -⟩ | ⟨rest, rfl, -⟩
          · rfl
          · exact absurd hid.symm (hlast call (by simp))
      · rw [hmade.frame?_of_ne himproper hself hne, ih]
        constructor
        · rintro ⟨before, earlier, after, rfl, hid, hlast, hscope⟩
          refine ⟨before, earlier, after ++ [call], by simp, hid, fun later hlater => ?_, hscope⟩
          rcases List.mem_append.mp hlater with hmem | hmem
          · exact hlast later hmem
          · obtain rfl := List.mem_singleton.mp hmem
            exact fun hsame => hself (hid.symm.trans hsame.symm)
        · rintro ⟨before, earlier, after, hcalls, hid, hlast, hscope⟩
          rcases split_concat hcalls with ⟨-, rfl, -⟩ | ⟨rest, rfl, hrest⟩
          · exact absurd hid.symm hself
          · exact ⟨before, earlier, rest, hrest, hid, fun later hmem => hlast later (by simp [hmem]), hscope⟩

/-- A call that is not the last to work on its routine has left that declared forward. -/
theorem superseded (h : History known program start calls session) (himproper : Improper known)
    {before after : List Call} {call : Call} (hcalls : calls = before ++ call :: after) (hlast : ¬call.LastOf after) :
    call.Superseded after := by
  simp only [Call.LastOf, not_forall, not_not] at hlast
  obtain ⟨later, hmem, hid⟩ := hlast
  obtain ⟨middle, rest, rfl⟩ := List.append_of_mem hmem
  obtain ⟨-, hmade, hafter⟩ := h.split hcalls
  obtain ⟨hmiddle, hlater, -⟩ := hafter.split rfl
  have hlt : call.id < call.after.table.entries.size :=
    calc call.id
      _ < call.named.table.entries.size := hmade.opens.target.lt
      _ = (call.begun program).table.entries.size := hmade.opens.begins.size.symm
      _ ≤ call.after.table.entries.size := (hmade.spares himproper).size_le
  have hforwarded : later.forwarded = true := by
    by_contra hnew
    have hfresh := (hlater.opens.target.fresh (by simpa using hnew)).1
    rw [hid] at hfresh
    exact absurd (Nat.lt_of_lt_of_le hlt (hmiddle.size_le himproper)) (Nat.not_lt.mpr hfresh)
  refine ⟨?_, later, hmem, hid, hforwarded⟩
  by_contra hstage
  -- a routine that is not declared forward stays what it is, so the later call could not work on it
  have hagrees := hmiddle.agrees himproper hlt hmade.opens.apart fun h => absurd h hstage
  have hforward := hlater.opens.target.forward hforwarded
  rw [hid, Entry.stage?, hagrees.routine?, ← Entry.stage?] at hforward
  exact hstage hforward

end History

/-! ## Units -/

/-- The scopes of a unit and their owners, given the calls of the production for routines: beside the global scope and
that of the program, one level below it, there is one scope for each call, in order and one level below that of the
program, which is the scope of its routine unless the call is superseded, and then of none.  No two routines have the
same scope. -/
structure CompilationUnit.HasOwners (unit : CompilationUnit) (calls : List Call) : Prop where
  size : unit.table.scopes.size = 2 + calls.length
  opens : ∀ before call after, calls = before ++ call :: after → call.before.table.scopes.size = 2 + before.length
  level : (unit.table.scope 1).level = 1
  levels : ∀ before call after, calls = before ++ call :: after → (unit.table.scope (2 + before.length)).level = 2
  apart : unit.table.Apart
  program : unit.table.scopeOwner 1 = some unit.program
  last : ∀ before call after, calls = before ++ call :: after → ¬call.Superseded after →
    unit.table.scopeOwner (2 + before.length) = some call.id
  superseded : ∀ before call after, calls = before ++ call :: after → call.Superseded after →
    unit.table.scopeOwner (2 + before.length) = none

/-- Every scope but the global one is that of the program or has been opened by a call. -/
theorem CompilationUnit.HasOwners.cases {unit : CompilationUnit} {calls : List Call} (h : unit.HasOwners calls)
    {scope : Nat} (hfirst : 1 ≤ scope) (hlast : scope < unit.table.scopes.size) :
    scope = 1 ∨ ∃ before call after, calls = before ++ call :: after ∧ scope = 2 + before.length := by
  rw [h.size] at hlast
  rcases Nat.eq_or_lt_of_le hfirst with hsame | hmore
  · exact .inl hsame.symm
  · have hnumber : scope - 2 < calls.length := by omega
    refine .inr ⟨calls.take (scope - 2), calls[scope - 2], calls.drop (scope - 2 + 1), ?_, ?_⟩
    · rw [List.getElem_cons_drop, List.take_append_drop]
    · rw [List.length_take]
      omega

namespace History

variable {unit : CompilationUnit} {session ended : Session} {calls : List Call}

/-- The frame of a routine in a unit is the scope of the last call that works on it. -/
theorem frame_unit_iff
    (h : History (fun _ => True) unit.program { session with table := SymbolTable.unitTable } calls ended)
    (hprogram : unit.program = SymbolTable.programId) (htable : unit.table = ended.table.pop.2) {id : EntryId}
    {scope : ScopeId} (hne : id ≠ unit.program) :
    (unit.table.entry id).frame? = some scope ↔
      ∃ before call after, calls = before ++ call :: after ∧ call.id = id ∧ call.LastOf after ∧
        scope = 2 + before.length := by
  have hstart : (SymbolTable.unitTable.entry id).frame? = none := by
    rw [Entry.frame?, SymbolTable.routine?_unitTable (hprogram ▸ hne)]
    rfl
  rw [htable, SymbolTable.entry_pop, h.frame?_eq_some_iff improper_any hstart hne]
  simp only [SymbolTable.scopes_size_unitTable]

/-- No two routines of a unit have the same frame. -/
theorem apart_unit
    (h : History (fun _ => True) unit.program { session with table := SymbolTable.unitTable } calls ended)
    (hprogram : unit.program = SymbolTable.programId) (htable : unit.table = ended.table.pop.2)
    (hframe : (unit.table.entry unit.program).frame? = some SymbolTable.programScope) : unit.table.Apart := by
  -- the scope of the program has been opened before those of the calls
  have hhome {id : EntryId} (hid : (unit.table.entry id).frame? = some SymbolTable.programScope) :
      id = unit.program := by
    by_contra hne
    obtain ⟨before, call, after, -, -, -, hnumber⟩ := (h.frame_unit_iff hprogram htable hne).mp hid
    have hnumber : 1 = 2 + before.length := hnumber
    omega
  intro id other scope hid hother
  by_cases hne : id = unit.program
  · rw [hne, hframe] at hid
    rw [hne, hhome (hother.trans hid.symm)]
  by_cases hne' : other = unit.program
  · rw [hne', hframe] at hother
    rw [hne', hhome (hid.trans hother.symm)]
  obtain ⟨before, call, after, hcalls, rfl, -, rfl⟩ := (h.frame_unit_iff hprogram htable hne).mp hid
  obtain ⟨before', call', after', hcalls', rfl, -, hnumber⟩ := (h.frame_unit_iff hprogram htable hne').mp hother
  obtain ⟨-, hrest⟩ := List.append_inj (hcalls.symm.trans hcalls') (Nat.add_left_cancel hnumber)
  rw [(List.cons.inj hrest).1]

theorem hasOwners
    (h : History (fun _ => True) unit.program { session with table := SymbolTable.unitTable } calls ended)
    (hprogram : unit.program = SymbolTable.programId) (htable : unit.table = ended.table.pop.2)
    (hframe : (unit.table.entry unit.program).frame? = some SymbolTable.programScope) : unit.HasOwners calls := by
  have hapart := h.apart_unit hprogram htable hframe
  have hne {call : Call} (hmem : call ∈ calls) : call.id ≠ unit.program := fun hsame =>
    (h.made hmem).opens.apart hsame
  constructor
  case size => rw [htable, SymbolTable.scopes_pop, h.scopes_size_unit improper_any]
  case opens => exact fun before call after hcalls => (h.framed_unit improper_any hcalls).1
  case level =>
    rw [htable, SymbolTable.scope_pop]
    exact (h.framed_outer improper_any).2.level
  case levels =>
    intro before call after hcalls
    rw [htable, SymbolTable.scope_pop]
    exact (h.framed_unit improper_any hcalls).2.level
  case apart => exact hapart
  case program => exact hapart.scopeOwner hframe
  case last =>
    intro before call after hcalls hsuperseded
    have hlast : call.LastOf after := by
      by_contra hnot
      exact hsuperseded (h.superseded improper_any hcalls hnot)
    refine hapart.scopeOwner ((h.frame_unit_iff hprogram htable (hne (by simp [hcalls]))).mpr ?_)
    exact ⟨before, call, after, hcalls, rfl, hlast, rfl⟩
  case superseded =>
    intro before call after hcalls hsuperseded
    refine SymbolTable.scopeOwner_eq_none_iff.mpr fun id hid => ?_
    have hid' : id ≠ unit.program := by
      rintro rfl
      rw [hframe, Option.some.injEq] at hid
      have hnumber : 1 = 2 + before.length := hid
      omega
    obtain ⟨before', call', after', hcalls', -, hlast, hnumber⟩ := (h.frame_unit_iff hprogram htable hid').mp hid
    obtain ⟨-, hrest⟩ := List.append_inj (hcalls.symm.trans hcalls') (Nat.add_left_cancel hnumber)
    obtain ⟨rfl, rfl⟩ := List.cons.inj hrest
    exact hsuperseded.not_lastOf hlast

end History

end FrontEnd
