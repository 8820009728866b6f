import FrontEnd.Proofs.Bodies
import FrontEnd.Proofs.History
import FrontEnd.Proofs.Reports
import Mathlib.Algebra.BigOperators.Group.Finset.Basic

/-!
# Undefined names

An undefined name is reported once for each of its uses, and for nothing else: the reports are as many as
the uses of undefined entries in the trees of the program and of all routines (`compile_undefined`).

## Strategy

While a tree is made its uses and the reports keep in step (`Session.Uses`), and so do the uses of all
bodies and all reports, from one item to the next (`Item.balanced`).  No tree is lost on the way: a routine
whose header is compiled again has no body yet (`HousedAt.awaiting`).  And no entry that a tree uses changes
its kind: what becomes a routine was a routine before, or is a new entry that no tree uses.
-/

namespace FrontEnd

namespace SymbolTable

/-- How often the body of a routine uses an undefined entry as a variable. -/
def undefinedUses (table : SymbolTable) (id : EntryId) : Nat :=
  ((table.entry id).body?.toList.flatMap Node.uses).countP table.isUndefined

/-- How often the bodies of all routines use an undefined entry as a variable. -/
def allUndefinedUses (table : SymbolTable) : Nat :=
  ∑ id ∈ Finset.range table.entries.size, table.undefinedUses id

section

variable {table first second : SymbolTable} {program id : EntryId}

/-- What is counted are the references that an undefined entry answers for. -/
theorem undefinedUses_eq (table : SymbolTable) (id : EntryId) :
    table.undefinedUses id =
      ((table.entry id).body?.toList.flatMap Node.references).countP table.lacks := by
  unfold undefinedUses
  cases (table.entry id).body? with
  | none => rfl
  | some body =>
      have hlacks (reference : Reference) : ((table.isUndefined ∘ Reference.id) reference &&
          reference.asVariable) = table.lacks reference := Bool.and_comm _ _
      simp only [Option.toList_some, List.flatMap_singleton, Node.uses_eq_references, List.countP_map,
        List.countP_filter, hlacks]

theorem undefinedUses_of_none (h : (table.entry id).body? = none) : table.undefinedUses id = 0 := by
  simp [undefinedUses, h]

theorem undefinedUses_congr (hbody : (second.entry id).body? = (first.entry id).body?)
    (hkind : ∀ body ∈ (first.entry id).body?, ∀ use ∈ body.uses,
      second.isUndefined use = first.isUndefined use) :
    second.undefinedUses id = first.undefinedUses id := by
  unfold undefinedUses
  rw [hbody]
  refine List.countP_congr fun use huse => ?_
  obtain ⟨body, hmem, huse⟩ := List.mem_flatMap.mp huse
  rw [hkind body (by simpa using hmem) use huse]

/-- New entries without bodies use nothing. -/
theorem allUndefinedUses_congr (hsize : first.entries.size ≤ second.entries.size)
    (hsame : ∀ id < first.entries.size, second.undefinedUses id = first.undefinedUses id)
    (hnew : ∀ id, first.entries.size ≤ id → second.undefinedUses id = 0) :
    second.allUndefinedUses = first.allUndefinedUses := by
  have hsubset : Finset.range first.entries.size ⊆ Finset.range second.entries.size :=
    Finset.range_subset_range.mpr hsize
  unfold allUndefinedUses
  rw [← Finset.sum_subset hsubset fun id _ hid => hnew id (by simpa using hid)]
  exact Finset.sum_congr rfl fun id hid => hsame id (Finset.mem_range.mp hid)

/-- What one body uses more, all of them use more. -/
theorem allUndefinedUses_add {count : Nat} (hid : id < first.entries.size)
    (hsize : second.entries.size = first.entries.size)
    (hsame : ∀ other, other ≠ id → second.undefinedUses other = first.undefinedUses other)
    (hself : second.undefinedUses id = first.undefinedUses id + count) :
    second.allUndefinedUses = first.allUndefinedUses + count := by
  have hmem : id ∈ Finset.range first.entries.size := Finset.mem_range.mpr hid
  have hothers : ∑ other ∈ (Finset.range first.entries.size).erase id, second.undefinedUses other =
      ∑ other ∈ (Finset.range first.entries.size).erase id, first.undefinedUses other :=
    Finset.sum_congr rfl fun other hother => hsame other (Finset.ne_of_mem_erase hother)
  unfold allUndefinedUses
  rw [hsize, ← Finset.add_sum_erase _ _ hmem, ← Finset.add_sum_erase _ first.undefinedUses hmem,
    hothers, hself]
  exact Nat.add_right_comm _ _ _

/-- Below the top level the uses of all bodies stay the same. -/
theorem allUndefinedUses_of_steady (h : first.Steady second) (hall : ∀ id, first.HousedAt id) :
    second.allUndefinedUses = first.allUndefinedUses := by
  refine allUndefinedUses_congr h.size_le (fun id hid => ?_) fun id hid => ?_
  · refine undefinedUses_congr (Entry.Alike.of_steady (h.entry id hid)).body fun body hbody use huse => ?_
    exact h.isUndefined ((hall id).lt body hbody use huse)
  · exact undefinedUses_of_none (by simp [Entry.body?, h.plain id hid])

theorem isUndefined_modifyRoutine (id other : EntryId) (change : Routine → Routine) :
    (table.modifyRoutine id change).isUndefined other = table.isUndefined other := by
  unfold isUndefined
  rw [SymbolTable.modifyRoutine, entry_modifyEntry]
  split
  · next hsame => rw [Entry.kind_mapRoutine, hsame.1]
  · rfl

/-- A change to a routine that leaves its body. -/
theorem allUndefinedUses_modifyRoutine {change : Routine → Routine} (id : EntryId)
    (hbody : ∀ routine, (change routine).body = routine.body) :
    (table.modifyRoutine id change).allUndefinedUses = table.allUndefinedUses := by
  have hsize : (table.modifyRoutine id change).entries.size = table.entries.size := by
    simp [SymbolTable.modifyRoutine]
  unfold allUndefinedUses
  rw [hsize]
  refine Finset.sum_congr rfl fun other _ => ?_
  exact undefinedUses_congr (bind_modifyRoutine hbody id other) fun _ _ use _ =>
    isUndefined_modifyRoutine id use change

theorem undefinedUses_modifyRoutine_ne {change : Routine → Routine} {other : EntryId} (hne : other ≠ id) :
    (table.modifyRoutine id change).undefinedUses other = table.undefinedUses other := by
  refine undefinedUses_congr ?_ fun _ _ use _ => isUndefined_modifyRoutine id use change
  rw [SymbolTable.modifyRoutine, entry_modifyEntry_ne hne]

theorem allUndefinedUses_pop (table : SymbolTable) :
    table.pop.2.allUndefinedUses = table.allUndefinedUses := by
  refine allUndefinedUses_congr (by simp) (fun id _ => ?_) fun id hid => ?_
  · refine undefinedUses_congr (by rw [entry_pop]) fun _ _ use _ => ?_
    rw [isUndefined, entry_pop, isUndefined]
  · refine undefinedUses_of_none ?_
    rw [entry_pop, entry_of_size_le hid]
    rfl

end

end SymbolTable

/-! ## Items -/

/-- Whether the undefined names that have been reported are just those that the bodies use. -/
def Session.Balanced (session : Session) : Prop :=
  session.misses = session.table.allUndefinedUses

section

variable {known : Token → Prop} {place : Place} {program id : EntryId} {session later : Session}

/-- Where no names are referred to, the balance stays. -/
theorem Session.Balanced.of_steps (h : session.Balanced) (hsteps : Steps known place session later)
    (hlawful : session.Lawful known) (hall : ∀ id, session.table.HousedAt id)
    (hrefers : place.refers = false) (hplace : place ≠ .topLevel) :
    later.Balanced := by
  rw [Session.Balanced, hsteps.misses hrefers, h,
    SymbolTable.allUndefinedUses_of_steady (hsteps.steady hlawful hplace) hall]

/-- What has been used since is in the balance as soon as it is part of a body. -/
theorem Session.Balanced.of_uses {references : List Reference} {change : Routine → Routine}
    (h : session.Balanced) (huses : session.Uses later references)
    (hsteps : Steps known .statement session later) (hlawful : session.Lawful known)
    (hall : ∀ id, session.table.HousedAt id) (hid : id < later.table.entries.size)
    (hbody : ∀ routine ∈ (later.table.entry id).routine?, ∃ body, (change routine).body = some body ∧
      body.references = routine.body.toList.flatMap Node.references ++ references)
    (hroutine : (later.table.entry id).routine?.isSome) :
    Session.Balanced { later with table := later.table.modifyRoutine id change } := by
  have hsame := SymbolTable.allUndefinedUses_of_steady (hsteps.steady hlawful nofun) hall
  obtain ⟨routine, hsome⟩ := Option.isSome_iff_exists.mp hroutine
  obtain ⟨body, hnew, hsplit⟩ := hbody routine hsome
  -- the new body refers to what the old one did, and to what has been used since
  have hself : (later.table.modifyRoutine id change).undefinedUses id =
      later.table.undefinedUses id + references.countP later.table.lacks := by
    have hlacks : (later.table.modifyRoutine id change).lacks = later.table.lacks :=
      funext fun reference => by
        simp only [SymbolTable.lacks, SymbolTable.isUndefined_modifyRoutine]
    have hafter : ((later.table.modifyRoutine id change).entry id).body? = some body := by
      rw [Entry.body?, SymbolTable.routine?_modifyRoutine hid, hsome]
      exact hnew
    have hbefore : (later.table.entry id).body? = routine.body := by simp [Entry.body?, hsome]
    rw [SymbolTable.undefinedUses_eq, SymbolTable.undefinedUses_eq, hafter, hbefore, hlacks,
      ← List.countP_append, ← hsplit]
    simp
  have hadd := SymbolTable.allUndefinedUses_add hid (by simp [SymbolTable.modifyRoutine])
    (fun other hne => SymbolTable.undefinedUses_modifyRoutine_ne hne) hself
  have hcount := huses.count
  rw [Session.Balanced] at h
  change later.misses = (later.table.modifyRoutine id change).allUndefinedUses
  omega

namespace Opens

variable {kind : DefinitionKind} {forwarded : Bool} {named begun : Session}

/-- What becomes a routine was one before, or is new. -/
theorem isUndefined (h : Opens known program id kind forwarded session named begun)
    (hlawful : session.Lawful known) {use : EntryId} (huse : use < session.table.entries.size) :
    begun.table.isUndefined use = session.table.isUndefined use := by
  have hsteady := h.naming.steady hlawful nofun
  rw [← hsteady.isUndefined huse]
  by_cases hid : use = id
  · subst hid
    have hforwarded : forwarded = true := by
      by_contra hfresh
      exact Nat.not_le_of_lt huse (h.target.fresh (by simpa using hfresh)).1
    have hbefore : (named.table.entry use).routine?.isSome := by
      rw [(hsteady.entry use huse).routine?_isSome]
      exact Production.isSome_of_stage (h.target.forward hforwarded)
    have hdefined {entry : Entry} (hroutine : entry.routine?.isSome) : (entry.kind == .undefined) = false := by
      simp only [Entry.routine?, Entry.kind] at hroutine ⊢
      cases hdefinition : entry.definition <;> simp_all [Definition.routine?, Definition.kind]
    rw [SymbolTable.isUndefined, SymbolTable.isUndefined, hdefined hbefore,
      hdefined (by simp [h.begins.routine?])]
  · by_cases hprogram : use = program
    · rw [SymbolTable.isUndefined, SymbolTable.isUndefined, hprogram, h.begins.program,
        Entry.kind_mapRoutine]
    · rw [SymbolTable.isUndefined, SymbolTable.isUndefined, h.begins.other use hid hprogram]

/-- To name and open a routine changes no body and no kind of what a body uses. -/
theorem balanced (h : Opens known program id kind forwarded session named begun)
    (hlawful : session.Lawful known) (hall : ∀ id, session.table.HousedAt id)
    (hbalanced : session.Balanced) : begun.Balanced := by
  have hsteady := h.naming.steady hlawful nofun
  have hmisses : begun.misses = session.misses := by
    rw [Session.misses, h.diagnostics]
    exact h.naming.misses rfl
  rw [Session.Balanced, hmisses, hbalanced]
  refine (SymbolTable.allUndefinedUses_congr ?_ (fun other hother => ?_) fun other hother => ?_).symm
  · rw [h.begins.size]
    exact hsteady.size_le
  · by_cases hid : other = id
    · -- a routine that is compiled again has been declared forward, and has no body
      subst hid
      have hforwarded : forwarded = true := by
        by_contra hfresh
        exact Nat.not_le_of_lt hother (h.target.fresh (by simpa using hfresh)).1
      rw [SymbolTable.undefinedUses_of_none h.begins.body?, SymbolTable.undefinedUses_of_none
        ((hall other).awaiting (h.target.forward hforwarded))]
    · have halike := (Entry.Alike.of_steady (hsteady.entry other hother)).trans (h.begins.alike hid)
      exact SymbolTable.undefinedUses_congr halike.body fun body hbody use huse =>
        h.isUndefined hlawful ((hall other).lt body hbody use huse)
  · refine SymbolTable.undefinedUses_of_none ?_
    by_cases hid : other = id
    · rw [hid, h.begins.body?]
    · rw [(h.begins.alike hid).body, Entry.body?, hsteady.plain other hother]
      rfl

end Opens

/-- The body that is compiled is accounted for. -/
theorem Finishes.balanced {headed closed : Session} (h : Finishes known id headed closed)
    (hlawful : headed.Lawful known) (hwaits : headed.table.Waits id)
    (hall : ∀ other, headed.table.HousedAt other) (hbalanced : headed.Balanced) : closed.Balanced := by
  have hstaged (stage : RoutineStage) : (headed.staged id stage).Balanced := by
    have hmisses : (headed.staged id stage).misses = headed.misses := rfl
    have hsame : (headed.staged id stage).table.allUndefinedUses = headed.table.allUndefinedUses :=
      SymbolTable.allUndefinedUses_modifyRoutine id fun _ => rfl
    rw [Session.Balanced, hmisses, hbalanced, hsame]
  have hhoused (stage : RoutineStage) := hwaits.housedAt_staged hall stage
  cases h with
  | forward hsteps =>
      exact (hstaged .forward).of_steps hsteps (hlawful.staged id .forward) (hhoused .forward) rfl nofun
  | @compiled made body hsteps huses =>
      have hsteady := hsteps.steady (hlawful.staged id .declared) nofun
      have hmade := (hwaits.staged .declared).1.steady hsteady
      refine (hstaged .declared).of_uses huses hsteps (hlawful.staged id .declared)
        (hhoused .declared) hmade.lt (fun routine hroutine => ⟨body, rfl, ?_⟩) hmade.routine
      have hnone : routine.body = none := by
        simpa [Entry.body?, Option.mem_def.mp hroutine] using hmade.body
      simp [hnone]

/-- Items keep the balance. -/
theorem Item.balanced (h : Item known program session later) (hlawful : session.Lawful known)
    (hhouses : session.table.Houses program) (hbalanced : session.Balanced) : later.Balanced := by
  cases h with
  | declares hsteps => exact hbalanced.of_steps hsteps hlawful hhouses.housed rfl nofun
  | @states stated node hsteps huses =>
      have hsteady := hsteps.steady hlawful nofun
      have hlt := Nat.lt_of_lt_of_le hhouses.lt hsteady.size_le
      refine hbalanced.of_uses huses hsteps hlawful hhouses.housed hlt (fun routine _ => ?_) ?_
      · obtain ⟨body, hbody⟩ : ∃ body, (Production.appendStatement node routine).body = some body := by
          unfold Production.appendStatement
          split <;> exact ⟨_, rfl⟩
        exact ⟨body, hbody, references_appendStatement hbody⟩
      · rw [(hsteady.entry program hhouses.lt).routine?_isSome]
        obtain ⟨routine, hroutine, -⟩ := Option.bind_eq_some_iff.mp hhouses.frame
        exact Option.isSome_of_mem hroutine
  | @routine id kind forwarded named begun headed closed hopens hheading hrepeats hfinishes =>
      have hnamed := SymbolTable.housedAt_of_steady hhouses.housed (hopens.naming.steady hlawful nofun)
      have hbegun := SymbolTable.housedAt_of_begins hnamed hopens.begins hopens.place hopens.apart
      have hheaded := hheading.steady hopens.lawful nofun
      have hbalanced := (hopens.balanced hlawful hhouses.housed hbalanced).of_steps hheading
        hopens.lawful hbegun rfl nofun
      have hclosed := hfinishes.balanced (hheading.lawful hopens.lawful)
        ((hopens.waits hlawful hhouses).steady hheaded) (SymbolTable.housedAt_of_steady hbegun hheaded) hbalanced
      rw [Session.Balanced] at hclosed ⊢
      rw [SymbolTable.allUndefinedUses_pop]
      exact hclosed

theorem Items.balanced (h : Items known program session later) (hhouses : session.table.Houses program)
    (hbalanced : session.Balanced) : later.Balanced := by
  induction h with
  | refl => exact hbalanced
  | tail hitems hitem ih => exact hitem.2.balanced hitem.1 (Items.houses hitems hhouses) ih

end

/-! ## Units -/

/-- At the start nothing is used and no name has been reported. -/
theorem Session.balanced_of_start {stream : TokenStream} {session : Session}
    (h : Session.start stream = .ok session) :
    Session.Balanced { session with table := SymbolTable.unitTable } := by
  have hmisses : session.misses = 0 := by
    rw [Session.misses, Diagnostic.countOf, (Session.start_cases h).2.2, List.countP_eq_zero]
    intro report hmem
    have hscan := Token.fromScan_reports _ report hmem
    cases hkind : report.kind <;> simp_all [ErrorKind.fromScan]
  have huses : SymbolTable.unitTable.allUndefinedUses = 0 :=
    Finset.sum_eq_zero fun id _ =>
      SymbolTable.undefinedUses_of_none (SymbolTable.body?_unitTable id).1
  exact hmisses.trans huses.symm

/-- The reports of undefined names are as many as the uses of undefined entries as variables, in the trees
of the program and of all routines. -/
theorem compile_undefined {stream : TokenStream} {unit : CompilationUnit}
    (h : compile stream = .ok unit) :
    Diagnostic.countOf unit.diagnostics .identifierUndefined =
      ∑ id ∈ Finset.range unit.table.entries.size,
        ((unit.table.entry id).body?.toList.flatMap Node.uses).countP unit.table.isUndefined := by
  obtain ⟨session, ended, hstart, hitems, -, htable, hdiagnostics⟩ := compile_items h
  have hended := hitems.balanced SymbolTable.houses_unitTable (Session.balanced_of_start hstart)
  rw [Session.Balanced, Session.misses, ← hdiagnostics, ← SymbolTable.allUndefinedUses_pop, ← htable]
    at hended
  exact hended

/-- The name `x` has a meaning neither in `f`, where it is used twice, nor in `g`. -/
theorem compile_undefined_thrice :
    ∃ unit, compileText "void f() \x7b x = x; \x7d void g() \x7b x = 1; \x7d" = .ok unit ∧
      Diagnostic.countOf unit.diagnostics .identifierUndefined = 3 ∧
      Diagnostic.countOf unit.diagnostics .identifierUndefined =
        ∑ id ∈ Finset.range unit.table.entries.size,
          ((unit.table.entry id).body?.toList.flatMap Node.uses).countP unit.table.isUndefined := by
  have hcompiled :
      ∃ unit, compileText "void f() \x7b x = x; \x7d void g() \x7b x = 1; \x7d" = .ok unit ∧
        Diagnostic.countOf unit.diagnostics .identifierUndefined = 3 :=
    exists_compiled (by decide +kernel)
  obtain ⟨unit, hunit, hcount⟩ := hcompiled
  exact ⟨unit, hunit, hcount, compile_undefined hunit⟩

end FrontEnd
