import FrontEnd.Proofs.Change
import FrontEnd.Proofs.Tree

/-!
# Sound tables

A table is sound if the body of every routine is a tree for a statement of the routine and, where the
program is accepted, every function has a scalar type.

## Strategy

While a routine is compiled its own entry is not settled: its parameters, its type and its body come one
after the other.  `Reworks id` says that a table has changed at most in the entry `id` and in what does not
matter to trees, and holds of every change that a routine makes.  When the routine is complete, the table
is sound again if it was before and the new entry is (`Sound.of_reworks`).

The trees of other routines are not disturbed, since they refer to entries that were there before: the
routine is a new entry, or it had been declared forward and the program is not accepted
(`Reworks.keeps`).
-/

namespace FrontEnd

/-- The body of the routine that an entry stands for. -/
def Entry.body? (entry : Entry) : Option Node :=
  entry.routine?.bind Routine.body

/-- How far the routine that an entry stands for has been declared. -/
def Entry.stage? (entry : Entry) : Option RoutineStage :=
  entry.routine?.bind Routine.stage

theorem SymbolTable.lt_of_routine? {table : SymbolTable} {id : EntryId}
    (h : (table.entry id).routine?.isSome) : id < table.entries.size := by
  by_contra hnot
  rw [SymbolTable.entry_of_size_le (Nat.le_of_not_lt hnot)] at h
  simp [Entry.routine?, Definition.routine?] at h

theorem SymbolTable.lt_of_body? {table : SymbolTable} {id : EntryId} {body : Node}
    (h : body ∈ (table.entry id).body?) : id < table.entries.size := by
  obtain ⟨routine, hroutine, -⟩ := Option.bind_eq_some_iff.mp h
  exact lt_of_routine? (Option.isSome_of_mem hroutine)

/-- Two entries that are the same for any tree that refers to them, and have the same body and stage. -/
structure Entry.Similar (earlier later : Entry) : Prop where
  kind : later.kind = earlier.kind
  type : later.type = earlier.type
  parameters : later.routine?.map Routine.parameters = earlier.routine?.map Routine.parameters
  body : later.body? = earlier.body?
  stage : later.stage? = earlier.stage?
  agrees : earlier.routine? = none → earlier.Agrees later

namespace Entry.Similar

variable {first second third : Entry}

theorem of_agrees (h : first.Agrees second) : first.Similar second where
  kind := h.kind
  type := h.type
  parameters := by rw [h.routine?]
  body := by rw [Entry.body?, h.routine?, Entry.body?]
  stage := by rw [Entry.stage?, h.routine?, Entry.stage?]
  agrees _ := h

theorem trans (h : first.Similar second) (h' : second.Similar third) : first.Similar third where
  kind := h'.kind.trans h.kind
  type := h'.type.trans h.type
  parameters := h'.parameters.trans h.parameters
  body := h'.body.trans h.body
  stage := h'.stage.trans h.stage
  agrees hplain := by
    have hagrees := h.agrees hplain
    exact hagrees.trans (h'.agrees (hagrees.routine?.trans hplain))

/-- A routine can be changed in all but its parameters, its body and its stage. -/
theorem mapRoutine {change : Routine → Routine} {entry : Entry}
    (hparameters : ∀ routine, (change routine).parameters = routine.parameters)
    (hbody : ∀ routine, (change routine).body = routine.body)
    (hstage : ∀ routine, (change routine).stage = routine.stage) :
    entry.Similar (entry.mapRoutine change) where
  kind := Entry.kind_mapRoutine change entry
  type := rfl
  parameters := by
    rw [Entry.routine?_mapRoutine]
    cases entry.routine? <;> simp [hparameters]
  body := by
    rw [Entry.body?, Entry.routine?_mapRoutine, Entry.body?]
    cases entry.routine? <;> simp [hbody]
  stage := by
    rw [Entry.stage?, Entry.routine?_mapRoutine, Entry.stage?]
    cases entry.routine? <;> simp [hstage]
  agrees := Entry.agrees_mapRoutine

end Entry.Similar

namespace SymbolTable

/-- The later table differs from the earlier one at most in the entry `id`, in entries that are no
routines and are new, and in what does not matter to trees. -/
structure Reworks (id : EntryId) (earlier later : SymbolTable) : Prop where
  size_le : earlier.entries.size ≤ later.entries.size
  similar : ∀ other < earlier.entries.size, other ≠ id →
    (earlier.entry other).Similar (later.entry other)
  bound : ∀ other < earlier.entries.size, later.Bound other ↔ earlier.Bound other
  plain : ∀ other, earlier.entries.size ≤ other → other ≠ id → (later.entry other).routine? = none

namespace Reworks

variable {id : EntryId} {first second third : SymbolTable}

theorem of_grows (h : first.Grows second) : first.Reworks id second where
  size_le := h.size_le
  similar other hother _ := .of_agrees (h.agrees other hother)
  bound := h.bound
  plain other hother _ := h.plain other hother

theorem trans (h : first.Reworks id second) (h' : second.Reworks id third) :
    first.Reworks id third where
  size_le := Nat.le_trans h.size_le h'.size_le
  similar other hother hne :=
    (h.similar other hother hne).trans
      (h'.similar other (Nat.lt_of_lt_of_le hother h.size_le) hne)
  bound other hother :=
    (h'.bound other (Nat.lt_of_lt_of_le hother h.size_le)).trans (h.bound other hother)
  plain other hother hne := by
    by_cases hlt : other < second.entries.size
    · have hplain := h.plain other hother hne
      rw [((h'.similar other hlt hne).agrees hplain).routine?]
      exact hplain
    · exact h'.plain other (Nat.le_of_not_lt hlt) hne

/-- Scopes are opened and closed, and slots taken, without any effect on entries. -/
theorem of_entries (hentries : second.entries = first.entries)
    (hbound : ∀ other, second.Bound other ↔ first.Bound other) : first.Reworks id second where
  size_le := Nat.le_of_eq (by rw [hentries])
  similar other _ _ := .of_agrees (by simp only [entry, hentries]; exact .refl _)
  bound other _ := hbound other
  plain other hother _ := by
    rw [entry_of_size_le (by rwa [hentries])]
    rfl

theorem push {table : SymbolTable} : table.Reworks id table.push.2 :=
  of_entries rfl fun _ => bound_push

theorem takeSlot {table : SymbolTable} : table.Reworks id table.takeSlot.2 :=
  of_entries rfl fun _ => bound_takeSlot

theorem modifyEntry {table : SymbolTable} (change : Entry → Entry) :
    table.Reworks id (table.modifyEntry id change) where
  size_le := by simp
  similar other _ hne := by
    rw [entry_modifyEntry_ne hne]
    exact .of_agrees (.refl _)
  bound _ _ := Iff.rfl
  plain other hother _ := by
    rw [entry_of_size_le (by simpa using hother)]
    rfl

/-- Another routine can be changed in all but its parameters, its body and its stage. -/
theorem modifyRoutine {table : SymbolTable} {other : EntryId} {change : Routine → Routine}
    (hparameters : ∀ routine, (change routine).parameters = routine.parameters)
    (hbody : ∀ routine, (change routine).body = routine.body)
    (hstage : ∀ routine, (change routine).stage = routine.stage) :
    table.Reworks id (table.modifyRoutine other change) where
  size_le := by simp [SymbolTable.modifyRoutine]
  similar one hone _ := by
    rw [SymbolTable.modifyRoutine, entry_modifyEntry]
    split
    · next hsame =>
        rw [hsame.1]
        exact .mapRoutine hparameters hbody hstage
    · exact .of_agrees (.refl _)
  bound _ _ := Iff.rfl
  plain one hone _ := by
    rw [entry_of_size_le (by simpa [SymbolTable.modifyRoutine] using hone)]
    rfl

/-- What was there is kept if the reworked entry is new, or if the program is not accepted and what could
be called still can. -/
theorem keeps {accepted : Prop} (h : first.Reworks id second)
    (hid : first.entries.size ≤ id ∨ ¬ accepted ∧ (first.entry id).routine?.isSome ∧
      (second.entry id).kind ∈ DefinitionKind.callables) :
    first.Keeps accepted first.entries.size second where
  size_le := h.size_le
  agrees other hother hplain := by
    by_cases hsame : other = id
    · rcases hid with hnew | ⟨-, hroutine, -⟩
      · omega
      · rw [hsame] at hplain
        simp [hplain] at hroutine
    · exact (h.similar other hother hsame).agrees hplain
  callable other hother hcallable := by
    by_cases hsame : other = id
    · rcases hid with hnew | ⟨-, -, hcallable'⟩
      · omega
      · rwa [hsame]
    · rwa [(h.similar other hother hsame).kind]
  signature haccepted other hother := by
    -- in an accepted program the reworked entry is new
    have hne : other ≠ id := by
      rintro rfl
      rcases hid with hnew | ⟨hrejected, -⟩
      · omega
      · exact hrejected haccepted
    have hsimilar := h.similar other hother hne
    exact ⟨hsimilar.kind, hsimilar.type, hsimilar.parameters⟩
  bound := h.bound

end Reworks

/-- The body of every routine is a tree for a statement of it, and every function of an accepted program
has a scalar type. -/
structure Sound (accepted : Prop) (table : SymbolTable) : Prop where
  bodies : ∀ id, ∀ body ∈ (table.entry id).body?,
    StatementTree accepted table id body
  functions : accepted → ∀ id, (table.entry id).kind = .function →
    ∃ scalar, (table.entry id).type = some (.scalar scalar)

/-- What is known about the routine that is being compiled: it can be called, its body is a tree, and its
type is a scalar if it is a function of an accepted program. -/
structure Complete (accepted : Prop) (table : SymbolTable) (id : EntryId) : Prop where
  callable : (table.entry id).kind ∈ DefinitionKind.callables
  body : ∀ body ∈ (table.entry id).body?,
    StatementTree accepted table id body
  function : accepted → (table.entry id).kind = .function →
    ∃ scalar, (table.entry id).type = some (.scalar scalar)

/-- What was sound before is sound again if each entry is similar to what it was, or no routine, or
complete. -/
theorem Sound.of_entries {accepted accepted' : Prop} {first second : SymbolTable}
    (h : first.Sound accepted) (hvalid : first.Valid)
    (hkeeps : first.Keeps accepted' first.entries.size second) (haccepted : accepted' → accepted)
    (hentries : ∀ id, id < first.entries.size ∧ (first.entry id).Similar (second.entry id) ∨
      (second.entry id).routine? = none ∨ second.Complete accepted' id) :
    second.Sound accepted' where
  bodies id body hbody := by
    rcases hentries id with ⟨hlt, hsimilar⟩ | hplain | hcomplete
    · rw [hsimilar.body] at hbody
      exact (h.bodies id body hbody).mono hvalid hlt hkeeps haccepted
    · simp [Entry.body?, hplain] at hbody
    · exact hcomplete.body body hbody
  functions hyes id hkind := by
    rcases hentries id with ⟨hlt, hsimilar⟩ | hplain | hcomplete
    · rw [hsimilar.type]
      exact h.functions (haccepted hyes) id (hsimilar.kind ▸ hkind)
    · have hcallable : (second.entry id).kind ∈ DefinitionKind.callables := by
        simp [hkind, DefinitionKind.callables]
      have hroutine := Entry.kind_mem_callables hcallable
      simp [hplain] at hroutine
    · exact hcomplete.function hyes hkind

/-- A table that only grows has no new bodies. -/
theorem Sound.of_grows {accepted accepted' : Prop} {first second : SymbolTable}
    (h : first.Sound accepted) (hvalid : first.Valid) (hgrows : first.Grows second)
    (haccepted : accepted' → accepted) : second.Sound accepted' := by
  refine h.of_entries hvalid hgrows.keeps haccepted fun id => ?_
  by_cases hlt : id < first.entries.size
  · exact Or.inl ⟨hlt, .of_agrees (hgrows.agrees id hlt)⟩
  · exact Or.inr (Or.inl (hgrows.plain id (Nat.le_of_not_lt hlt)))

/-- Once the reworked entry is complete, a table that was sound before is sound again. -/
theorem Sound.of_reworks {accepted accepted' : Prop} {id : EntryId} {first second : SymbolTable}
    (h : first.Sound accepted) (hvalid : first.Valid) (hreworks : first.Reworks id second)
    (hkeeps : first.Keeps accepted' first.entries.size second) (haccepted : accepted' → accepted)
    (hcomplete : second.Complete accepted' id) :
    second.Sound accepted' := by
  refine h.of_entries hvalid hkeeps haccepted fun other => ?_
  by_cases hsame : other = id
  · subst hsame
    exact Or.inr (Or.inr hcomplete)
  by_cases hlt : other < first.entries.size
  · exact Or.inl ⟨hlt, hreworks.similar other hlt hsame⟩
  · exact Or.inr (Or.inl (hreworks.plain other (Nat.le_of_not_lt hlt) hsame))

end SymbolTable

end FrontEnd
