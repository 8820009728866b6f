import FrontEnd.Code.Listing
import FrontEnd.Proofs.Bodies
import FrontEnd.Proofs.History
import Mathlib.Data.List.Nodup

/-!
# The routines of a program

The program lists its routines, and it begins with the function `main`.  Together the list and `main` name
every procedure and every function (`Enrols.complete`), and nothing is listed twice (`Enrols.nodup`).

The routine with which the program begins is named `main`, but it can be listed too, and it need not be a
function: a header that completes a forward declaration settles the kind of the routine anew, and its place
is the one that it was given at first (`roster_mainTwice`).  Such a header is always reported, so in a unit
without these reports every routine is named once and the program begins with a function (`compile_roster`).

## Strategy

What becomes a routine is a new entry that is listed nowhere, or it has been declared forward and has its
place.  Two routines named `main` are the same entry, since both are what the name leads to in the scope of
the program (`Roster.unique`); so when the program gets a routine to begin with, none is forgotten.
-/

namespace FrontEnd

/-- The routines that a routine lists, and the one with which it begins. -/
def Routine.lists (routine : Routine) : List EntryId × Option EntryId :=
  (routine.routines, routine.mainRoutine)

/-- What the routine that an entry stands for lists; anything else lists nothing. -/
def Entry.lists (entry : Entry) : List EntryId × Option EntryId :=
  (entry.routine?.map Routine.lists).getD ([], none)

/-- Whether an entry is that of a procedure or a function. -/
def Entry.IsCallable (entry : Entry) : Prop :=
  entry.kind ∈ DefinitionKind.callables

namespace SymbolTable

/-- Whether every routine that the program lists is named once, and it begins with a function. -/
structure Distinct (table : SymbolTable) (program : EntryId) : Prop where
  nodup : ((table.entry program).lists.1 ++ (table.entry program).lists.2.toList).Nodup
  function : ∀ main, (table.entry program).lists.2 = some main → (table.entry main).kind = .function

/-- The list of the program and the routine with which it begins name every procedure and every function,
and nothing else; the list names each of them once. -/
structure Enrols (table : SymbolTable) (program : EntryId) : Prop where
  nodup : (table.entry program).lists.1.Nodup
  complete : ∀ id, (table.entry id).IsCallable ↔
    id ∈ (table.entry program).lists.1 ∨ (table.entry program).lists.2 = some id
  named : ∀ main, (table.entry program).lists.2 = some main →
    (table.entry main).name = Production.mainName

/-- What holds of the routines while the scope of the program is `home`; `repeated` says whether the header
of a routine may have been repeated. -/
structure Roster (repeated : Prop) (table : SymbolTable) (program : EntryId) (home : ScopeId) : Prop
    extends table.Enrols program where
  unique : ∀ id, (table.entry id).IsCallable → (table.entry id).name = Production.mainName →
    (table.scope home).get? Production.mainName = some id
  sole : ∀ id, (table.entry id).kind = .program ↔ id = program
  alone : ∀ id, id ≠ program → (table.entry id).lists = ([], none)
  distinct : ¬ repeated → table.Distinct program

end SymbolTable

/-! ## Entries -/

namespace Entry

variable {entry : Entry}

theorem lists_of_none (h : entry.routine? = none) : entry.lists = ([], none) := by
  simp [lists, h]

theorem not_isCallable_of_none (h : entry.routine? = none) : ¬ entry.IsCallable := by
  intro hcallable
  have hroutine := Entry.kind_mem_callables hcallable
  simp [h] at hroutine

theorem kind_ne_program_of_none (h : entry.routine? = none) : entry.kind ≠ .program := by
  simp only [Entry.routine?, Entry.kind] at h ⊢
  cases hdefinition : entry.definition <;> simp_all [Definition.routine?, Definition.kind]

theorem isSome_of_kind_program (h : entry.kind = .program) : entry.routine?.isSome :=
  Option.isSome_iff_ne_none.mpr fun hnone => kind_ne_program_of_none hnone h

/-- What stands for a routine is the program or can be called. -/
theorem isCallable_of_routine? (h : entry.routine?.isSome) (hkind : entry.kind ≠ .program) :
    entry.IsCallable := by
  simp only [Entry.routine?, Entry.kind, IsCallable, DefinitionKind.callables] at h hkind ⊢
  cases hdefinition : entry.definition <;> simp_all [Definition.routine?, Definition.kind]

theorem lists_mapRoutine {change : Routine → Routine}
    (h : ∀ routine, (change routine).lists = routine.lists) :
    (entry.mapRoutine change).lists = entry.lists := by
  rw [lists, routine?_mapRoutine, lists]
  cases entry.routine? <;> simp [h]

end Entry

/-- Two entries of the same name and kind whose routines list the same. -/
structure Entry.Peer (earlier later : Entry) : Prop where
  name : later.name = earlier.name
  kind : later.kind = earlier.kind
  lists : later.lists = earlier.lists

namespace Entry.Peer

variable {first second third : Entry}

@[refl] theorem refl (entry : Entry) : entry.Peer entry := ⟨rfl, rfl, rfl⟩

theorem isCallable (h : first.Peer second) : second.IsCallable ↔ first.IsCallable := by
  rw [Entry.IsCallable, h.kind, Entry.IsCallable]

theorem of_steady (h : first.Steady second) : first.Peer second :=
  ⟨h.name, h.kind, congrArg (Option.getD · _) (h.map_routine? fun _ => rfl)⟩

theorem mapRoutine {change : Routine → Routine} {entry : Entry}
    (h : ∀ routine, (change routine).lists = routine.lists) : entry.Peer (entry.mapRoutine change) :=
  ⟨rfl, Entry.kind_mapRoutine change entry, Entry.lists_mapRoutine h⟩

end Entry.Peer

namespace SymbolTable

/-- The later table has the same routines: the entries of the earlier one are peers, what is new is no
routine, and the names in one scope keep their meaning. -/
structure Musters (home : ScopeId) (earlier later : SymbolTable) : Prop where
  peer : ∀ id < earlier.entries.size, (earlier.entry id).Peer (later.entry id)
  plain : ∀ id, earlier.entries.size ≤ id → (later.entry id).routine? = none
  names : ∀ name id, (earlier.scope home).get? name = some id → (later.scope home).get? name = some id

section

variable {repeated repeated' : Prop} {table first second : SymbolTable} {program id : EntryId}
  {home : ScopeId}

theorem Musters.of_steady (h : first.Steady second) : first.Musters home second where
  peer id hid := .of_steady (h.entry id hid)
  plain := h.plain
  names _ _ := get?_of_prefix (h.bindings home)

theorem Musters.modifyRoutine (table : SymbolTable) (id : EntryId) {change : Routine → Routine}
    (h : ∀ routine, (change routine).lists = routine.lists) :
    table.Musters home (table.modifyRoutine id change) where
  peer other _ := by
    rw [SymbolTable.modifyRoutine, entry_modifyEntry]
    split
    · next hsame =>
        rw [hsame.1]
        exact .mapRoutine h
    · exact .refl _
  plain other hother := by
    rw [entry_of_size_le (by simpa [SymbolTable.modifyRoutine] using hother)]
    rfl
  names _ _ hget := hget

theorem Musters.pop (table : SymbolTable) : table.Musters home table.pop.2 where
  peer id _ := by rw [entry_pop]
  plain id hid := by
    rw [entry_of_size_le (by simpa using hid)]
    rfl
  names name id hget := by rwa [scope_pop]

theorem Musters.isCallable (h : first.Musters home second) :
    (second.entry id).IsCallable ↔ (first.entry id).IsCallable := by
  by_cases hid : id < first.entries.size
  · exact (h.peer id hid).isCallable
  · refine iff_of_false (Entry.not_isCallable_of_none (h.plain id (Nat.le_of_not_lt hid))) ?_
    refine Entry.not_isCallable_of_none ?_
    rw [entry_of_size_le (Nat.le_of_not_lt hid)]
    rfl

theorem Roster.lt (h : table.Roster repeated program home) : program < table.entries.size :=
  lt_of_kind ((h.sole program).mpr rfl) (by simp)

theorem Roster.imp (h : table.Roster repeated program home) (hrepeated : repeated → repeated') :
    table.Roster repeated' program home where
  toEnrols := h.toEnrols
  unique := h.unique
  sole := h.sole
  alone := h.alone
  distinct hnot := h.distinct fun hyes => hnot (hrepeated hyes)

/-- A table with the same routines has the same roster. -/
theorem Roster.later (h : first.Roster repeated program home) (hmusters : first.Musters home second) :
    second.Roster repeated program home := by
  have hlists := (hmusters.peer program h.lt).lists
  have hlt {id : EntryId} (hcallable : (second.entry id).IsCallable) : id < first.entries.size :=
    lt_of_callable (hmusters.isCallable.mp hcallable)
  have hmain {main : EntryId} (hmain : (second.entry program).lists.2 = some main) :
      (first.entry program).lists.2 = some main ∧ (first.entry main).Peer (second.entry main) := by
    rw [hlists] at hmain
    have hcallable := (h.complete main).mpr (Or.inr hmain)
    exact ⟨hmain, hmusters.peer main (lt_of_callable hcallable)⟩
  have henrols : second.Enrols program := by
    refine ⟨by rw [hlists]; exact h.nodup, fun id => ?_, fun main hsome => ?_⟩
    · rw [hlists, hmusters.isCallable]
      exact h.complete id
    · rw [(hmain hsome).2.name]
      exact h.named main (hmain hsome).1
  refine { henrols with unique := ?unique, sole := ?sole, alone := ?alone, distinct := ?distinct }
  case unique =>
    intro id hcallable hname
    rw [(hmusters.peer id (hlt hcallable)).name] at hname
    exact hmusters.names _ _ (h.unique id (hmusters.isCallable.mp hcallable) hname)
  case sole =>
    intro id
    by_cases hid : id < first.entries.size
    · rw [(hmusters.peer id hid).kind]
      exact h.sole id
    · have hplain := hmusters.plain id (Nat.le_of_not_lt hid)
      exact iff_of_false (Entry.kind_ne_program_of_none hplain) fun hsame => hid (hsame ▸ h.lt)
  case alone =>
    intro id hid
    by_cases hlt : id < first.entries.size
    · rw [(hmusters.peer id hlt).lists]
      exact h.alone id hid
    · exact Entry.lists_of_none (hmusters.plain id (Nat.le_of_not_lt hlt))
  case distinct =>
    intro hnot
    have hdistinct := h.distinct hnot
    refine ⟨by rw [hlists]; exact hdistinct.nodup, fun main hsome => ?_⟩
    rw [(hmain hsome).2.kind]
    exact hdistinct.function main (hmain hsome).1

/-- The program lists routines. -/
theorem Roster.isSome (h : table.Roster repeated program home) :
    (table.entry program).routine?.isSome :=
  Entry.isSome_of_kind_program ((h.sole program).mpr rfl)

/-- Only one routine can be the one named `main`. -/
theorem Roster.main_eq (h : table.Roster repeated program home)
    (hget : (table.scope home).get? Production.mainName = some id) {main : EntryId}
    (hmain : (table.entry program).lists.2 = some main) : main = id := by
  have hcallable := (h.complete main).mpr (Or.inr hmain)
  exact Option.some.inj ((h.unique main hcallable (h.named main hmain)).symm.trans hget)

/-! ## The opening of a routine -/

namespace Begins

variable {kind : DefinitionKind} {forwarded : Bool}

/-- The lists of the program once a routine has been put in its place. -/
theorem lists_program (h : Begins program id kind forwarded first second)
    (hprogram : (first.entry program).routine?.isSome) :
    (second.entry program).lists =
      if (first.entry id).beginsProgram kind then ((first.entry program).lists.1, some id)
      else if forwarded then (first.entry program).lists
      else ((first.entry program).lists.1 ++ [id], (first.entry program).lists.2) := by
  obtain ⟨routine, hsome⟩ := Option.isSome_iff_exists.mp hprogram
  rw [h.program, Entry.lists, Entry.routine?_mapRoutine, Entry.lists, hsome]
  simp only [Option.map_some, Option.getD_some, Routine.placing, Routine.lists]
  split_ifs <;> rfl

/-- A routine that has been opened lists what it did before. -/
theorem lists_self (h : Begins program id kind forwarded first second)
    (halone : (first.entry id).lists = ([], none)) : (second.entry id).lists = ([], none) := by
  rw [Entry.lists, h.routine?]
  cases forwarded with
  | false => rfl
  | true =>
      rw [← halone, Entry.lists]
      cases (first.entry id).routine? <;> rfl

/-- A routine that has been opened is of its kind, and what else there is keeps its own. -/
theorem kind_eq (h : Begins program id kind forwarded first second)
    (hkind : kind ∈ DefinitionKind.callables) (other : EntryId) :
    (second.entry other).kind = if other = id then kind else (first.entry other).kind := by
  split
  · next hid => rw [hid, Entry.kind, h.definition, (Production.kind_ofRoutine hkind _).1]
  · next hid => exact h.view_of_ne (Entry.kind_mapRoutine) hid

theorem isCallable (h : Begins program id kind forwarded first second)
    (hkind : kind ∈ DefinitionKind.callables) (other : EntryId) :
    (second.entry other).IsCallable ↔ other = id ∨ (first.entry other).IsCallable := by
  rw [Entry.IsCallable, h.kind_eq hkind]
  by_cases hid : other = id <;> simp [hid, hkind, Entry.IsCallable]

end Begins

/-- What is opened as a routine can be listed: it has been listed before if it has been declared forward,
and is new otherwise; if its name is `main`, the scope of the program leads to it. -/
structure Joins (program id : EntryId) (home : ScopeId) (forwarded : Bool) (table : SymbolTable) :
    Prop where
  apart : id ≠ program
  known : (table.entry id).IsCallable ↔ forwarded = true
  bound : (table.entry id).name = Production.mainName →
    (table.scope home).get? Production.mainName = some id
  open_lt : home < table.scopes.size

section

variable {kind : DefinitionKind} {forwarded : Bool}

/-- What has been opened anew has not been listed. -/
theorem Joins.not_listed (h : Joins program id home forwarded table)
    (hroster : table.Roster repeated program home) (hforwarded : forwarded = false) :
    id ∉ (table.entry program).lists.1 ∧ (table.entry program).lists.2 ≠ some id := by
  have hnew : ¬ (table.entry id).IsCallable := fun hcallable => by
    simp [h.known.mp hcallable] at hforwarded
  exact not_or.mp fun hlisted => hnew ((hroster.complete id).mpr hlisted)

/-- With one more routine the program still lists all of them. -/
theorem Roster.enrols (h : first.Roster repeated program home)
    (hjoins : Joins program id home forwarded first)
    (hbegins : Begins program id kind forwarded first second)
    (hkind : kind ∈ DefinitionKind.callables) : second.Enrols program := by
  have hlists := hbegins.lists_program h.isSome
  by_cases hmain : (first.entry id).beginsProgram kind = true
  · rw [if_pos hmain] at hlists
    have hname : (first.entry id).name = Production.mainName := by
      simp only [Entry.beginsProgram, Bool.and_eq_true, beq_iff_eq] at hmain
      exact hmain.2
    refine ⟨by rw [hlists]; exact h.nodup, fun other => ?_, fun main hsome => ?_⟩
    · rw [hbegins.isCallable hkind, h.complete, hlists]
      constructor
      · rintro (rfl | hlisted | hbefore)
        · exact Or.inr rfl
        · exact Or.inl hlisted
        · exact Or.inr (congrArg some (h.main_eq (hjoins.bound hname) hbefore).symm)
      · rintro (hlisted | hsame)
        · exact Or.inr (Or.inl hlisted)
        · exact Or.inl (Option.some.inj hsame).symm
    · rw [hlists] at hsome
      rw [hbegins.name_eq, ← Option.some.inj hsome]
      exact hname
  · rw [if_neg hmain] at hlists
    have hnamed (main : EntryId) (hsome : (first.entry program).lists.2 = some main) :
        (second.entry main).name = Production.mainName := by
      rw [hbegins.name_eq]
      exact h.named main hsome
    cases hforwarded : forwarded with
    | true =>
        rw [if_pos hforwarded] at hlists
        refine ⟨by rw [hlists]; exact h.nodup, fun other => ?_, fun main hsome => ?_⟩
        · rw [hbegins.isCallable hkind, hlists, ← h.complete]
          exact or_iff_right_of_imp fun hsame => hsame ▸ hjoins.known.mpr hforwarded
        · exact hnamed main (hlists ▸ hsome)
    | false =>
        rw [if_neg (by simp [hforwarded])] at hlists
        have hnew := (hjoins.not_listed h hforwarded).1
        refine ⟨?_, fun other => ?_, fun main hsome => ?_⟩
        · rw [hlists]
          simpa using h.nodup.concat hnew
        · rw [hbegins.isCallable hkind, h.complete, hlists]
          simp only [List.mem_append, List.mem_singleton]
          tauto
        · exact hnamed main (by rwa [hlists] at hsome)

/-- A routine that is opened for the first time is listed in one place. -/
theorem Roster.distinct_of_new (h : first.Roster repeated program home)
    (hjoins : Joins program id home false first)
    (hbegins : Begins program id kind false first second)
    (hkind : kind ∈ DefinitionKind.callables) (hdistinct : first.Distinct program) :
    second.Distinct program := by
  have hlists := hbegins.lists_program h.isSome
  obtain ⟨hlisted, hbefore⟩ := hjoins.not_listed h rfl
  by_cases hmain : (first.entry id).beginsProgram kind = true
  · rw [if_pos hmain] at hlists
    refine ⟨?_, fun main hsome => ?_⟩
    · rw [hlists]
      simpa using h.nodup.concat hlisted
    · rw [hlists] at hsome
      simp only [Entry.beginsProgram, Bool.and_eq_true, beq_iff_eq] at hmain
      rw [hbegins.kind_eq hkind, if_pos (Option.some.inj hsome).symm]
      exact hmain.1
  · rw [if_neg hmain, if_neg (by simp)] at hlists
    refine ⟨?_, fun main hsome => ?_⟩
    · have hnew : id ∉ (first.entry program).lists.1 ++ (first.entry program).lists.2.toList := by
        simp [hlisted, hbefore]
      rw [hlists, List.append_assoc]
      exact List.nodup_middle.mpr (List.nodup_cons.mpr ⟨hnew, hdistinct.nodup⟩)
    · rw [hlists] at hsome
      have hne : main ≠ id := by
        rintro rfl
        exact hbefore hsome
      rw [hbegins.kind_eq hkind, if_neg hne]
      exact hdistinct.function main hsome

/-- To open a routine keeps the roster, unless it is opened again. -/
theorem Roster.begins (h : first.Roster repeated program home)
    (hjoins : Joins program id home forwarded first)
    (hbegins : Begins program id kind forwarded first second)
    (hkind : kind ∈ DefinitionKind.callables) (hforward : forwarded = true → repeated) :
    second.Roster repeated program home where
  toEnrols := h.enrols hjoins hbegins hkind
  unique other hcallable hname := by
    rw [hbegins.name_eq] at hname
    rw [hbegins.elsewhere home (Nat.ne_of_lt hjoins.open_lt)]
    rcases (hbegins.isCallable hkind other).mp hcallable with rfl | hbefore
    · exact hjoins.bound hname
    · exact h.unique other hbefore hname
  sole other := by
    rw [hbegins.kind_eq hkind]
    split
    · next hsame =>
        refine iff_of_false (fun hprogram => ?_) (hsame ▸ hjoins.apart)
        simp [hprogram, DefinitionKind.callables] at hkind
    · exact h.sole other
  alone other hne := by
    by_cases hsame : other = id
    · rw [hsame]
      exact hbegins.lists_self (h.alone id hjoins.apart)
    · rw [hbegins.other other hsame hne]
      exact h.alone other hne
  distinct hnot := by
    cases forwarded with
    | true => exact absurd (hforward rfl) hnot
    | false => exact h.distinct_of_new hjoins hbegins hkind (h.distinct hnot)

end

end

end SymbolTable

/-! ## Items -/

section

variable {known : Token → Prop} {program id : EntryId} {home : ScopeId} {session later : Session}
  {repeated : Prop}

/-- What has been named can be listed. -/
theorem Opens.joins {kind : DefinitionKind} {forwarded : Bool} {named begun : Session}
    (h : Opens known program id kind forwarded session named begun) (hlawful : session.Lawful known)
    (hlocal : session.table.localScopeId = home)
    (hroster : session.table.Roster repeated program home) :
    named.table.Joins program id home forwarded := by
  have hsteady := h.naming.steady hlawful nofun
  have hmusters : session.table.Musters home named.table := .of_steady hsteady
  have hknown : (named.table.entry id).IsCallable ↔ forwarded = true := by
    cases forwarded with
    | false =>
        refine iff_of_false (fun hcallable => ?_) (by simp)
        simp [Entry.IsCallable, (h.target.fresh rfl).2, DefinitionKind.callables] at hcallable
    | true =>
        refine iff_of_true (hmusters.isCallable.mpr ?_) rfl
        refine Entry.isCallable_of_routine? (Production.isSome_of_stage (h.target.forward rfl)) ?_
        exact fun hkind => h.apart ((hroster.sole id).mp hkind)
  have hhome : named.table.localScope = named.table.scope home := by
    rw [SymbolTable.localScope, SymbolTable.localScopeId, hsteady.openScopes, ← hlocal]
    rfl
  refine ⟨h.apart, hknown, fun hname => ?_, ?_⟩
  · cases forwarded with
    | true =>
        exact (hroster.later hmusters).unique id (hknown.mpr rfl) hname
    | false =>
        rcases h.target.named rfl with hbound | ⟨invented, hinvented, hsame⟩
        · rw [← hhome, ← hname]
          exact hbound.2
        · -- an invented name is too long
          have hlong := hinvented.length_lower
          rw [← hsame, hname] at hlong
          exact absurd hlong (by decide)
  · rw [hsteady.scopes, ← hlocal]
    exact hlawful.valid.localScopeId_lt

theorem Finishes.roster {headed closed : Session} (h : Finishes known id headed closed)
    (hlawful : headed.Lawful known) (hroster : headed.table.Roster repeated program home) :
    closed.table.Roster repeated program home := by
  obtain ⟨stage, made, hsteady, hclosed⟩ := h.steady hlawful
  have hstaged : (headed.staged id stage).table.Roster repeated program home :=
    hroster.later (.modifyRoutine _ _ fun _ => rfl)
  have hmade := hstaged.later (.of_steady hsteady)
  rcases hclosed with hclosed | ⟨body, hclosed⟩ <;> rw [hclosed]
  · exact hmade
  · exact hmade.later (.modifyRoutine _ _ fun _ => rfl)

theorem lists_appendStatement (statement : Node) (routine : Routine) :
    (Production.appendStatement statement routine).lists = routine.lists := by
  unfold Production.appendStatement
  split <;> rfl

/-- Items keep the roster, and where it could be spoilt a repeated header has been reported. -/
theorem Item.roster (h : Item known program session later) (hlawful : session.Lawful known)
    (hlocal : session.table.localScopeId = home)
    (hroster : session.table.Roster session.Repeats program home) :
    later.table.Roster later.Repeats program home := by
  have hkeeps (hrepeats : session.Repeats) : later.Repeats := hrepeats.of_kept h.diagnostics_prefix
  cases h with
  | declares hsteps => exact (hroster.later (.of_steady (hsteps.steady hlawful nofun))).imp hkeeps
  | @states stated node hsteps huses =>
      have hstated := hroster.later (.of_steady (hsteps.steady hlawful nofun))
      exact (hstated.later (.modifyRoutine _ _ (lists_appendStatement node))).imp hkeeps
  | @routine id kind forwarded named begun headed closed hopens hheading hrepeats hfinishes =>
      have hnamed := (hroster.later (.of_steady (hopens.naming.steady hlawful nofun))).imp hkeeps
      have hforward (hforwarded : forwarded = true) : closed.Repeats :=
        (hrepeats hforwarded).of_kept hfinishes.diagnostics_prefix
      have hbegun : begun.table.Roster closed.Repeats program home :=
        hnamed.begins (hopens.joins hlawful hlocal hroster) hopens.begins hopens.callable hforward
      have hheaded := hbegun.later (.of_steady (hheading.steady hopens.lawful nofun))
      have hclosed := hfinishes.roster (hheading.lawful hopens.lawful) hheaded
      exact hclosed.later (.pop _)

theorem Items.roster (h : Items known program session later)
    (hlocal : session.table.localScopeId = home)
    (hroster : session.table.Roster session.Repeats program home) :
    later.table.Roster later.Repeats program home := by
  induction h with
  | refl => exact hroster
  | tail hitems hitem ih =>
      refine hitem.2.roster hitem.1 ?_ ih
      rw [Items.localScopeId_eq hitems, hlocal]

end

/-! ## The listing -/

namespace Code

/-- The lines for a routine alone: one header, and its body or a line that says that there is none. -/
def routineBlock (table : SymbolTable) (id : EntryId) : List String :=
  match (table.entry id).routine? with
  | none => []
  | some routine =>
    ("===== " ++ (table.entry id).kind.name ++ " " ++ (table.entry id).name ++ " =====") ::
      match routine.body with
      | some root => listing table root
      | none => ["(no intermediate code)"]

/-- The lines for a routine are its own, and after them those for what it lists. -/
theorem routineLines_succ (table : SymbolTable) (depth : Nat) (id : EntryId) :
    routineLines table (depth + 1) id = routineBlock table id ++
      ((table.entry id).lists.1 ++ (table.entry id).lists.2.toList).flatMap
        (routineLines table depth) := by
  rw [routineLines, routineBlock, Entry.lists]
  cases (table.entry id).routine? <;> rfl

/-- The listing has the lines of the program, and then those of every routine that it lists. -/
theorem programLines_eq {table : SymbolTable} {program : EntryId} (hprogram : table.program = some program)
    (hlt : program < table.entries.size)
    (halone : ∀ id, id ≠ program → (table.entry id).lists = ([], none))
    (hapart : program ∉ (table.entry program).lists.1 ++ (table.entry program).lists.2.toList) :
    programLines table =
      (program :: ((table.entry program).lists.1 ++ (table.entry program).lists.2.toList)).flatMap
        (routineBlock table) := by
  obtain ⟨depth, hdepth⟩ := Nat.exists_eq_add_of_lt hlt
  have hline {id : EntryId} (hne : id ≠ program) (depth : Nat) :
      routineLines table (depth + 1) id = routineBlock table id := by
    simp [routineLines_succ, halone id hne]
  rw [programLines, hprogram, List.flatMap_cons]
  dsimp only
  rw [routineLines_succ, hdepth]
  congr 1
  refine List.flatMap_congr fun id hmem => hline ?_ _
  rintro rfl
  exact hapart hmem

end Code

/-! ## Units -/

theorem Session.Flagged.countOf_ne_zero {session : Session} {kind : ErrorKind}
    (h : session.Flagged kind) : Diagnostic.countOf session.diagnostics kind ≠ 0 := by
  obtain ⟨report, hmem, hkind⟩ := h
  have hpos : 0 < Diagnostic.countOf session.diagnostics kind :=
    List.countP_pos_iff.mpr ⟨report, hmem, by simp [hkind]⟩
  exact Nat.ne_of_gt hpos

/-- At the start there is no routine but the program. -/
theorem SymbolTable.routine?_unitTable {id : EntryId} (hne : id ≠ programId) :
    (unitTable.entry id).routine? = none := by
  have hfew : ∀ id < unitTable.entries.size,
      id ≠ programId → (unitTable.entry id).routine?.isNone = true := by decide +kernel
  by_cases hid : id < unitTable.entries.size
  · simpa using hfew id hid hne
  · rw [entry_of_size_le (Nat.le_of_not_lt hid)]
    rfl

/-- At the start the program lists nothing. -/
theorem SymbolTable.roster_unitTable (repeated : Prop) :
    unitTable.Roster repeated programId unitTable.localScopeId := by
  have hkind : (unitTable.entry programId).kind = .program := by decide +kernel
  have hlists : (unitTable.entry programId).lists = ([], none) := by decide +kernel
  have hcallable (id : EntryId) : ¬ (unitTable.entry id).IsCallable := by
    by_cases hid : id = programId
    · simp [Entry.IsCallable, hid, hkind, DefinitionKind.callables]
    · exact Entry.not_isCallable_of_none (routine?_unitTable hid)
  exact {
    nodup := by simp [hlists]
    complete := fun id => by simp [hlists, hcallable id]
    named := by simp [hlists]
    unique := fun id hid => absurd hid (hcallable id)
    sole := fun id => ⟨fun hid => by_contra fun hne => Entry.kind_ne_program_of_none (routine?_unitTable hne) hid,
      fun hid => hid ▸ hkind⟩
    alone := fun id hne => Entry.lists_of_none (routine?_unitTable hne)
    distinct := fun _ => ⟨by simp [hlists], by simp [hlists]⟩ }

/-- The program and the routines that it lists are all that there is: every procedure and every function
is in the list of the program or begins the program, nothing is twice in the list, and what begins the
program is named `main`.  If no header repeats that of a routine declared forward, no routine is named
twice and what begins the program is a function.  The listing has a header and a body each time that a
routine is named. -/
theorem compile_roster {stream : TokenStream} {unit : CompilationUnit} (h : compile stream = .ok unit) :
    unit.table.Enrols unit.program ∧
      (Diagnostic.countOf unit.diagnostics .alreadyForwarded = 0 →
        Diagnostic.countOf unit.diagnostics .missingLeftParen = 0 →
          unit.table.Distinct unit.program) ∧
      Code.programLines unit.table =
        (unit.program :: ((unit.table.entry unit.program).lists.1 ++
          (unit.table.entry unit.program).lists.2.toList)).flatMap (Code.routineBlock unit.table) := by
  obtain ⟨session, ended, hstart, hitems, hprogram, htable, hdiagnostics⟩ := compile_items h
  have hroster := (hitems.roster rfl (SymbolTable.roster_unitTable _)).later (.pop _)
  rw [← htable, ← hprogram] at hroster
  refine ⟨hroster.toEnrols, fun hforwarded hparen => hroster.distinct ?_, ?_⟩
  · rw [hdiagnostics] at hforwarded hparen
    rintro (hflagged | hflagged)
    · exact hflagged.countOf_ne_zero hforwarded
    · exact hflagged.countOf_ne_zero hparen
  · refine Code.programLines_eq ?_ hroster.lt hroster.alone fun hmem => ?_
    · rw [htable, SymbolTable.program_pop, hitems.openScopes.2, hprogram]
      rfl
    · have hlisted : (unit.table.entry unit.program).IsCallable := by
        simpa [hroster.complete] using hmem
      simp [Entry.IsCallable, (hroster.sole _).mpr rfl, DefinitionKind.callables] at hlisted

/-- The routine `f` is declared forward and `g` compiled; both are listed, and `main` begins the program. -/
theorem compile_roster_forward :
    ∃ unit, compileText "void f(); int g() \x7b \x7d int main() \x7b \x7d" = .ok unit ∧
      (unit.table.entry unit.program).lists = ([6, 7], some 8) ∧
      unit.table.Enrols unit.program ∧
      Diagnostic.countOf unit.diagnostics .alreadyForwarded = 0 ∧
      Diagnostic.countOf unit.diagnostics .missingLeftParen = 0 ∧
      unit.table.Distinct unit.program ∧
      Code.programLines unit.table =
        (unit.program :: ((unit.table.entry unit.program).lists.1 ++
          (unit.table.entry unit.program).lists.2.toList)).flatMap (Code.routineBlock unit.table) := by
  have hcompiled : ∃ unit, compileText "void f(); int g() \x7b \x7d int main() \x7b \x7d" = .ok unit ∧
      (unit.table.entry unit.program).lists = ([6, 7], some 8) ∧
        Diagnostic.countOf unit.diagnostics .alreadyForwarded = 0 ∧
          Diagnostic.countOf unit.diagnostics .missingLeftParen = 0 :=
    exists_compiled (by decide +kernel)
  obtain ⟨unit, hunit, hlists, hforwarded, hparen⟩ := hcompiled
  obtain ⟨henrols, hdistinct, hlines⟩ := compile_roster hunit
  exact ⟨unit, hunit, hlists, henrols, hforwarded, hparen, hdistinct hforwarded hparen, hlines⟩

/-- A header that completes a forward declaration of `main` with another kind leaves it where it was: a
procedure that becomes a function is named twice, and a function that becomes a procedure still begins the
program. -/
theorem roster_mainTwice :
    (∃ unit, compileText "void main(); int main() \x7b int x; \x7d" = .ok unit ∧
      (unit.table.entry unit.program).lists = ([6], some 6)) ∧
    ∃ unit, compileText "int main(); void main() \x7b \x7d" = .ok unit ∧
      (unit.table.entry unit.program).lists = ([], some 6) ∧
      (unit.table.entry 6).kind = .procedure :=
  ⟨exists_compiled (by decide +kernel), exists_compiled (by decide +kernel)⟩

end FrontEnd
