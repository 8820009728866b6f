import FrontEnd.Proofs.Steady

/-!
# The layout of frames

The variables and parameters of a scope take its slots one after the other: the slot of each is the first
slot that the scope uses plus the number of those declared before (`LaidFrom`).  The target of a return
refers to the slot that would be taken next and does not take it, so it obeys the same rule.

Entries are numbered in the order in which they are created, so one number that grows by one with each
variable and parameter describes the whole scope (`storedBefore`).  Below the top level a table that is
laid out in this way stays so (`Steps.laid`).
-/

namespace FrontEnd

namespace SymbolTable

/-- How many variables and parameters a scope binds to entries before a given one. -/
def storedBefore (table : SymbolTable) (scope : ScopeId) (id : EntryId) : Nat :=
  (table.scope scope).entries.countP fun other =>
    decide (other < id) && (table.entry other).definition.slot?.isSome

/-- Whether the slots of a scope are used in the order of declaration, from a first one on. -/
structure LaidFrom (table : SymbolTable) (scope : ScopeId) (first : Nat) : Prop where
  next : (table.scope scope).nextSlot = first + table.storedBefore scope table.entries.size
  slot : ∀ id slot, (table.entry id).scope = scope → (table.entry id).definition.slot? = some slot →
    slot = first + table.storedBefore scope id

/-- Whether all scopes are laid out, and each binds names to its own entries. -/
structure Laid (table : SymbolTable) : Prop where
  owned : ∀ id < table.entries.size, (table.entry id).scope < table.scopes.size
  home : ∀ scope, ∀ id ∈ (table.scope scope).entries, (table.entry id).scope = scope
  rows : ∀ scope, ∃ first, table.LaidFrom scope first

section

variable {table first second : SymbolTable} {scope : ScopeId}

/-! ## Counting -/

/-- What is bound to later entries does not count, and neither does what gets or loses no slot. -/
theorem storedBefore_congr {id : EntryId} (added : List EntryId)
    (hentries : (second.scope scope).entries = (first.scope scope).entries ++ added)
    (hadded : ∀ other ∈ added, id ≤ other)
    (hslot : ∀ other ∈ (first.scope scope).entries,
      (second.entry other).definition.slot? = (first.entry other).definition.slot?) :
    second.storedBefore scope id = first.storedBefore scope id := by
  have hnone : added.countP (fun other =>
      decide (other < id) && (second.entry other).definition.slot?.isSome) = 0 := by
    refine List.countP_eq_zero.mpr fun other hmem => ?_
    simp [Nat.not_lt.mpr (hadded other hmem)]
  unfold storedBefore
  rw [hentries, List.countP_append, hnone, Nat.add_zero]
  refine List.countP_congr fun other hmem => ?_
  rw [hslot other hmem]

/-- What is declared from one entry up to another makes the difference between them. -/
theorem storedBefore_eq_add {id later : EntryId} (h : id ≤ later) :
    table.storedBefore scope later = table.storedBefore scope id +
      (table.scope scope).entries.countP fun other =>
        decide (id ≤ other ∧ other < later) && (table.entry other).definition.slot?.isSome := by
  unfold storedBefore
  induction (table.scope scope).entries with
  | nil => rfl
  | cons other rest ih =>
      have hlater : decide (other < later) =
          (decide (other < id) || decide (id ≤ other ∧ other < later)) := by
        rw [← Bool.decide_or, decide_eq_decide]
        exact ⟨fun hlt => (Nat.lt_or_ge other id).imp_right fun hge => ⟨hge, hlt⟩,
          fun hor => hor.elim (fun hlt => Nat.lt_of_lt_of_le hlt h) And.right⟩
      -- an entry that is declared before the later one lies before the first or from it on, not both
      by_cases hid : other < id
      · have hnot : ¬ (id ≤ other ∧ other < later) := fun hboth => Nat.not_lt.mpr hboth.1 hid
        simp only [List.countP_cons, ih, hlater, hid, hnot, decide_true, decide_false, Bool.true_or,
          Bool.true_and, Bool.false_and, Bool.false_eq_true, if_false]
        omega
      · simp only [List.countP_cons, ih, hlater, hid, decide_false, Bool.false_or, Bool.false_and,
          Bool.false_eq_true, if_false]
        omega

theorem storedBefore_mono {id later : EntryId} (h : id ≤ later) :
    table.storedBefore scope id ≤ table.storedBefore scope later := by
  rw [storedBefore_eq_add h]
  exact Nat.le_add_right _ _

/-- Two numbers are the same just if nothing is declared from the one entry up to the other. -/
theorem storedBefore_eq_iff {id later : EntryId} (h : id ≤ later) :
    table.storedBefore scope id = table.storedBefore scope later ↔
      ∀ other ∈ (table.scope scope).entries, id ≤ other → other < later →
        (table.entry other).definition.slot? = none := by
  have hzero : table.storedBefore scope id = table.storedBefore scope later ↔
      (table.scope scope).entries.countP (fun other =>
        decide (id ≤ other ∧ other < later) &&
          (table.entry other).definition.slot?.isSome) = 0 := by
    have : table.storedBefore scope later = table.storedBefore scope id + _ := storedBefore_eq_add h
    omega
  rw [hzero, List.countP_eq_zero]
  refine forall₂_congr fun other _ => ?_
  simp

/-- Each variable and parameter counts. -/
theorem storedBefore_lt {id later : EntryId} (hbound : id ∈ (table.scope scope).entries)
    (hslot : (table.entry id).definition.slot?.isSome) (h : id < later) :
    table.storedBefore scope id < table.storedBefore scope later := by
  refine Nat.lt_of_le_of_ne (storedBefore_mono (Nat.le_of_lt h)) fun hsame => ?_
  have hnone := (storedBefore_eq_iff (Nat.le_of_lt h)).mp hsame id hbound (Nat.le_refl _) h
  simp [hnone] at hslot

/-! ## Growing tables -/

/-- What the scope of a new entry binds: what it did before, and perhaps the entry. -/
theorem Adds.entries (h : first.Adds second) (scope : ScopeId) :
    (second.scope scope).entries = (first.scope scope).entries ∧
        (second.scope scope).nextSlot = (first.scope scope).nextSlot ∨
      scope = first.localScopeId ∧
        (second.scope scope).entries = (first.scope scope).entries ++ [first.entries.size] ∧
        (second.scope scope).nextSlot = (first.scope scope).nextSlot +
          if (second.entry first.entries.size).definition.slot?.isSome then 1 else 0 := by
  by_cases hlocal : scope = first.localScopeId
  · have hscope : second.scope scope = second.localScope := by
      rw [SymbolTable.localScope, h.localScopeId, hlocal]
    rw [hscope, hlocal]
    rcases h.here with hsame | ⟨key, hbindings, hnext, -⟩
    · exact Or.inl ⟨congrArg Scope.entries hsame, congrArg Scope.nextSlot hsame⟩
    · refine Or.inr ⟨rfl, ?_, hnext⟩
      rw [Scope.entries_eq, hbindings]
      simp [Scope.entries_eq, SymbolTable.localScope]
  · rw [h.elsewhere scope hlocal]
    exact Or.inl ⟨rfl, rfl⟩

/-- Up to the new entry nothing changes. -/
theorem Adds.storedBefore (h : first.Adds second) (hvalid : first.Valid) (scope : ScopeId)
    {id : EntryId} (hid : id ≤ first.entries.size) :
    second.storedBefore scope id = first.storedBefore scope id := by
  have hslot : ∀ other ∈ (first.scope scope).entries,
      (second.entry other).definition.slot? = (first.entry other).definition.slot? := by
    intro other hmem
    rw [h.entry other (hvalid.bound_lt other ⟨scope, hmem⟩)]
  rcases h.entries scope with ⟨hsame, -⟩ | ⟨-, hmore, -⟩
  · exact storedBefore_congr [] (by rw [hsame, List.append_nil]) (by simp) hslot
  · exact storedBefore_congr [first.entries.size] hmore (by simpa using hid) hslot

/-- The next slot moves on with the number of variables and parameters. -/
theorem Adds.next (h : first.Adds second) (hvalid : first.Valid) (scope : ScopeId) :
    (second.scope scope).nextSlot + first.storedBefore scope first.entries.size =
      (first.scope scope).nextSlot + second.storedBefore scope second.entries.size := by
  have hlt : ∀ other ∈ (first.scope scope).entries, other < first.entries.size :=
    fun other hmem => hvalid.bound_lt other ⟨scope, hmem⟩
  have hsize := h.size
  have hadd : second.storedBefore scope second.entries.size = _ :=
    storedBefore_eq_add (show first.entries.size ≤ second.entries.size by omega)
  rw [h.storedBefore hvalid scope (Nat.le_refl _)] at hadd
  have hnone : (first.scope scope).entries.countP (fun other =>
      decide (first.entries.size ≤ other ∧ other < second.entries.size) &&
        (second.entry other).definition.slot?.isSome) = 0 := by
    refine List.countP_eq_zero.mpr fun other hmem => ?_
    simp [Nat.not_le.mpr (hlt other hmem)]
  rcases h.entries scope with ⟨hsame, hnext⟩ | ⟨-, hmore, hnext⟩
  · rw [hsame, hnone] at hadd
    omega
  · rw [hmore, List.countP_append, hnone] at hadd
    simp only [List.countP_singleton, Nat.le_refl, hsize, Nat.lt_succ_self, and_self, decide_true,
      Bool.true_and] at hadd
    rw [hsize]
    omega

theorem Laid.of_adds (hlaid : first.Laid) (h : first.Adds second) (hvalid : first.Valid) :
    second.Laid where
  owned id hid := by
    rw [h.scopes]
    by_cases hold : id < first.entries.size
    · rw [h.entry id hold]
      exact hlaid.owned id hold
    · rw [h.size] at hid
      obtain rfl : id = first.entries.size :=
        Nat.le_antisymm (Nat.lt_succ_iff.mp hid) (Nat.le_of_not_lt hold)
      rw [h.home]
      exact hvalid.localScopeId_lt
  home scope id hmem := by
    rcases h.entries scope with ⟨hsame, -⟩ | ⟨hlocal, hmore, -⟩
    · rw [hsame] at hmem
      rw [h.entry id (hvalid.bound_lt id ⟨scope, hmem⟩)]
      exact hlaid.home scope id hmem
    · rw [hmore] at hmem
      rcases List.mem_append.mp hmem with hold | hnew
      · rw [h.entry id (hvalid.bound_lt id ⟨scope, hold⟩)]
        exact hlaid.home scope id hold
      · rw [List.mem_singleton.mp hnew, h.home, hlocal]
  rows scope := by
    obtain ⟨start, hrow⟩ := hlaid.rows scope
    refine ⟨start, ?_, fun id slot hscope hslot => ?_⟩
    · have := h.next hvalid scope
      have := hrow.next
      omega
    · by_cases hold : id < first.entries.size
      · rw [h.entry id hold] at hscope hslot
        rw [h.storedBefore hvalid scope (Nat.le_of_lt hold)]
        exact hrow.slot id slot hscope hslot
      · by_cases hnew : id = first.entries.size
        · -- the new entry is given the next slot
          subst hnew
          rw [h.storedBefore hvalid scope (Nat.le_refl _), h.slot slot hslot, ← hrow.next, ← hscope,
            h.home]
          rfl
        · have hout : second.entries.size ≤ id := by
            rw [h.size]
            exact Nat.lt_of_le_of_ne (Nat.le_of_not_lt hold) (Ne.symm hnew)
          rw [entry_of_size_le hout] at hslot
          simp [Definition.slot?] at hslot

/-- Entries can be changed if they keep their scopes and their slots. -/
theorem Laid.modifyEntry (hlaid : table.Laid) {id : EntryId} {change : Entry → Entry}
    (hscope : (change (table.entry id)).scope = (table.entry id).scope)
    (hslot : (change (table.entry id)).definition.slot? = (table.entry id).definition.slot?) :
    (table.modifyEntry id change).Laid := by
  have hentry (other : EntryId) :
      ((table.modifyEntry id change).entry other).scope = (table.entry other).scope ∧
        ((table.modifyEntry id change).entry other).definition.slot? =
          (table.entry other).definition.slot? := by
    rw [entry_modifyEntry]
    split
    · next hsame =>
        rw [hsame.1]
        exact ⟨hscope, hslot⟩
    · exact ⟨rfl, rfl⟩
  have hstored (scope : ScopeId) (other : EntryId) :
      (table.modifyEntry id change).storedBefore scope other = table.storedBefore scope other :=
    storedBefore_congr [] (List.append_nil _).symm (by simp) fun found _ => (hentry found).2
  refine ⟨fun other hother => ?_, fun scope other hmem => ?_, fun scope => ?_⟩
  · rw [(hentry other).1]
    exact hlaid.owned other (by simpa using hother)
  · rw [(hentry other).1]
    exact hlaid.home scope other hmem
  · obtain ⟨start, hrow⟩ := hlaid.rows scope
    refine ⟨start, ?_, fun other slot hother hslot => ?_⟩
    · rw [size_modifyEntry, hstored]
      exact hrow.next
    · rw [hstored]
      rw [(hentry other).1] at hother
      rw [(hentry other).2] at hslot
      exact hrow.slot other slot hother hslot

theorem Laid.of_retouches (hlaid : first.Laid) (h : first.Retouches second) : second.Laid := by
  obtain ⟨id, change, rfl, hsteady⟩ := h
  exact hlaid.modifyEntry hsteady.scope hsteady.slot?

end

end SymbolTable

variable {known : Token → Prop} {place : Place} {session later : Session}

/-- Below the top level frames stay laid out. -/
theorem Steps.laid (h : Steps known place session later) (hlawful : session.Lawful known)
    (hlaid : session.table.Laid) (hplace : place ≠ .topLevel) : later.table.Laid := by
  induction h with
  | refl => exact hlaid
  | tail hsteps hstep ih =>
      have hvalid := (Steps.lawful hsteps hlawful).valid
      rcases hstep.adds_or_retouches hplace hvalid with hsame | hadds | hretouches
      · rwa [hsame]
      · exact ih.of_adds hadds hvalid
      · exact ih.of_retouches hretouches

end FrontEnd
