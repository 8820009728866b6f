import FrontEnd.Proofs.Extent
import FrontEnd.Proofs.Outline
import Mathlib.Data.List.Forall2

/-!
# What the names of a table mean

`Means` says that an entry is what a name of an outline means, and `Lists` that a scope binds just the names
of a list, in order, to entries that are what the list says.  A routine is known by its header: its own scope
lists its parameters and nothing else.

While declarations of variables, parameters, constants and types are read, a scope *gathers* their names
(`Gathers`): it binds them after those that it had, and nothing else changes but lines.  So what was listed
before is listed still, and followed by what has been gathered (`Lists.gathers`).
-/

namespace FrontEnd

/-! ## Lists of pairs -/

section

variable {β γ : Type} {related : β → γ → Prop} {first : List (String × β)} {second : List (String × γ)}

/-- Where lists have the same keys, a key leads to related values. -/
theorem exists_lookup_of_forall₂
    (h : List.Forall₂ (fun one other => one.1 = other.1 ∧ related one.2 other.2) first second)
    {key : String} {value : γ} (hlookup : second.lookup key = some value) :
    ∃ found, first.lookup key = some found ∧ related found value := by
  induction h with
  | nil => simp at hlookup
  | @cons one other rest others hhead _ ih =>
      rw [List.lookup_cons] at hlookup ⊢
      rw [hhead.1]
      cases hkey : key == other.1 with
      | true =>
          rw [hkey] at hlookup
          obtain rfl := Option.some.inj hlookup
          exact ⟨one.2, rfl, hhead.2⟩
      | false =>
          rw [hkey] at hlookup
          exact ih hlookup

theorem map_fst_of_forall₂
    (h : List.Forall₂ (fun one other => one.1 = other.1 ∧ related one.2 other.2) first second) :
    first.map Prod.fst = second.map Prod.fst := by
  induction h with
  | nil => rfl
  | cons hhead _ ih => rw [List.map_cons, List.map_cons, ih, hhead.1]

end

namespace SymbolTable

/-! ## Meanings -/

/-- Whether an entry has a definition, which is not that of a routine, and a type. -/
structure Shows (table : SymbolTable) (id : EntryId) (meaning : Definition × DataType) : Prop where
  plain : meaning.1.routine? = none
  definition : (table.entry id).definition = meaning.1
  type : (table.entry id).type = some meaning.2

/-- Whether a scope binds just the names of a list, in order, to entries of which something holds. -/
def Lists {α : Type} (table : SymbolTable) (holds : EntryId → α → Prop) (scope : ScopeId)
    (names : List (String × α)) : Prop :=
  List.Forall₂ (fun binding name => binding.1 = name.1 ∧ holds binding.2 name.2)
    (table.scope scope).bindings names

/-- Whether an entry is that of a routine with a header.  The parameters are all that the scope of the
routine binds, and a body is empty. -/
structure Realizes (table : SymbolTable) (id : EntryId) (header : Header) : Prop where
  callable : header.kind ∈ DefinitionKind.callables
  type : (table.entry id).type = some header.type
  definition : ∃ scope body, programScope < scope ∧ scope < table.scopes.size ∧
    (table.entry id).definition = .ofRoutine header.kind
      { stage := some (if header.hasBody then .declared else .forward), scope := some scope, body
        parameters := (table.scope scope).entries } ∧
    table.Lists table.Shows scope header.names ∧
    if header.hasBody then ∃ line, body = some { kind := .compound, line := some line } else body = none

/-- Whether an entry is what a name of an outline means. -/
def Means (table : SymbolTable) (id : EntryId) : Meaning → Prop
  | .plain definition type => table.Shows id (definition, type)
  | .routine header => table.Realizes id header

section

variable {α : Type} {table earlier later : SymbolTable} {holds : EntryId → α → Prop} {scope : ScopeId}
  {names : List (String × α)} {id : EntryId}

theorem lt_of_type {type : DataType} (h : (table.entry id).type = some type) :
    id < table.entries.size := by
  by_contra hnot
  rw [entry_of_size_le (Nat.le_of_not_lt hnot)] at h
  cases h

theorem Shows.of_agrees {meaning : Definition × DataType} (h : earlier.Shows id meaning)
    (hagrees : (earlier.entry id).Agrees (later.entry id)) : later.Shows id meaning :=
  ⟨h.plain, hagrees.definition.trans h.definition, hagrees.type.trans h.type⟩

theorem Shows.ne_program {meaning : Definition × DataType} (h : table.Shows id meaning)
    (hprogram : (table.entry programId).kind = .program) : id ≠ programId := by
  rintro rfl
  have hplain := h.plain
  rw [Entry.kind, h.definition] at hprogram
  cases hmeaning : meaning.1 <;> simp [hmeaning, Definition.kind, Definition.routine?] at hplain hprogram

/-- The program is not what a name of an outline means. -/
theorem Means.ne_program {meaning : Meaning} (h : table.Means id meaning)
    (hprogram : (table.entry programId).kind = .program) : id ≠ programId := by
  cases meaning with
  | plain definition type => exact Shows.ne_program h hprogram
  | routine header =>
      rintro rfl
      obtain ⟨scope, body, -, -, hdefinition, -⟩ := h.definition
      rw [Entry.kind, hdefinition, (Production.kind_ofRoutine h.callable _).1] at hprogram
      exact absurd (hprogram ▸ h.callable) (by decide)

theorem Means.lt {meaning : Meaning} (h : table.Means id meaning) : id < table.entries.size := by
  cases meaning with
  | plain definition type => exact lt_of_type h.type
  | routine header => exact lt_of_type h.type

theorem Lists.exists_get? (h : table.Lists holds scope names) {key : String} {value : α}
    (hlookup : names.lookup key = some value) :
    ∃ id, (table.scope scope).get? key = some id ∧ holds id value :=
  exists_lookup_of_forall₂ h hlookup

theorem Lists.keys_eq (h : table.Lists holds scope names) :
    (table.scope scope).bindings.map Prod.fst = names.map Prod.fst :=
  map_fst_of_forall₂ h

theorem get?_eq_none {scope : Scope} {key : String} (h : key ∉ scope.bindings.map Prod.fst) :
    scope.get? key = none := by
  rw [Scope.get?, List.lookup_eq_none_iff]
  intro binding hmem
  simp only [bne_iff_ne, ne_eq]
  rintro rfl
  exact h (List.mem_map_of_mem hmem)

/-- What a scope lists it still lists if it binds the same and its entries are still what they are. -/
theorem Lists.imp (h : earlier.Lists holds scope names) {holds' : EntryId → α → Prop}
    (hsame : (later.scope scope).bindings = (earlier.scope scope).bindings)
    (himp : ∀ id value, holds id value → holds' id value) : later.Lists holds' scope names := by
  unfold Lists at h ⊢
  rw [hsame]
  exact h.imp fun binding name hboth => ⟨hboth.1, himp _ _ hboth.2⟩

/-- A name in lower case that the innermost scope does not bind means what it means outside. -/
theorem lookup_congr {name : String} (hopen : later.openScopes = earlier.openScopes)
    (hget : ∀ scope, (later.scope scope).get? (Text.lower name) =
      (earlier.scope scope).get? (Text.lower name)) : later.lookup name = earlier.lookup name := by
  simp only [SymbolTable.lookup, hopen, hget]

end

/-! ## Gathering names -/

/-- Whether the innermost scope has bound some more names, to entries that are what the names mean, and
nothing else has changed but lines.  The scope has handed out a slot for each of the names that has one. -/
structure Gathers (start : SymbolTable) (names : List (String × Definition × DataType))
    (later : SymbolTable) : Prop where
  valid : later.Valid
  steady : start.Steady later
  grows : start.Grows later
  here : ∃ added, later.localScope.bindings = start.localScope.bindings ++ added ∧
    List.Forall₂ (fun binding name => binding.1 = name.1 ∧ later.Shows binding.2 name.2) added names
  nextSlot : later.localScope.nextSlot =
    start.localScope.nextSlot + names.countP fun name => name.2.1.slot?.isSome

namespace Gathers

variable {start table later : SymbolTable} {names : List (String × Definition × DataType)}

theorem refl (hvalid : table.Valid) : table.Gathers [] table :=
  ⟨hvalid, .refl _, .refl _, ⟨[], (List.append_nil _).symm, .nil⟩, rfl⟩

theorem localScopeId (h : start.Gathers names later) : later.localScopeId = start.localScopeId :=
  h.steady.localScopeId

/-- What the innermost scope binds now. -/
theorem keys_eq (h : start.Gathers names later) :
    later.localScope.bindings.map Prod.fst =
      start.localScope.bindings.map Prod.fst ++ names.map Prod.fst := by
  obtain ⟨added, hbindings, hadded⟩ := h.here
  rw [hbindings, List.map_append, map_fst_of_forall₂ hadded]

/-- A name that is neither among those that the scope had nor among those that it has gathered is free. -/
theorem lookupLocal_eq_none (h : start.Gathers names later) {name : String}
    (hstart : Text.lower name ∉ start.localScope.bindings.map Prod.fst)
    (hnames : Text.lower name ∉ names.map Prod.fst) : later.lookupLocal name = none := by
  apply get?_eq_none
  rw [h.keys_eq, List.mem_append]
  exact not_or.mpr ⟨hstart, hnames⟩

/-- A name that has not been gathered means what it meant. -/
theorem lookup_eq (h : start.Gathers names later) {name : String}
    (hname : Text.lower name ∉ names.map Prod.fst) : later.lookup name = start.lookup name := by
  apply lookup_congr h.steady.openScopes
  intro scope
  by_cases hlocal : scope = start.localScopeId
  · obtain ⟨added, hbindings, hadded⟩ := h.here
    have hlater : later.scope scope = later.localScope := by
      rw [SymbolTable.localScope, h.localScopeId, hlocal]
    have hnone : added.lookup (Text.lower name) = none := by
      rw [List.lookup_eq_none_iff]
      intro binding hmem
      simp only [bne_iff_ne, ne_eq]
      intro hsame
      apply hname
      rw [← map_fst_of_forall₂ hadded, hsame]
      exact List.mem_map_of_mem hmem
    rw [hlater, Scope.get?, hbindings, List.lookup_append, hnone, Option.or_none, hlocal]
    rfl
  · rw [h.steady.elsewhere scope hlocal]

/-- What entries show, they show still. -/
theorem shows (h : start.Gathers names later) {id : EntryId} {meaning : Definition × DataType}
    (hshows : start.Shows id meaning) : later.Shows id meaning :=
  hshows.of_agrees (h.grows.agrees id (lt_of_type hshows.type))

theorem bindings_eq (h : start.Gathers [] later) : later.localScope.bindings = start.localScope.bindings := by
  obtain ⟨added, hbindings, hadded⟩ := h.here
  cases hadded
  rw [hbindings, List.append_nil]

/-- What is done in the innermost scope after it has gathered some names. -/
theorem extend {more : List (String × Definition × DataType)} (h : start.Gathers names table)
    {stores : List DefinitionKind} {owner : EntryId} (hextends : table.Extends stores owner later)
    (hmore : ∃ added, later.localScope.bindings = table.localScope.bindings ++ added ∧
      List.Forall₂ (fun binding name => binding.1 = name.1 ∧ later.Shows binding.2 name.2) added more)
    (hslots : later.localScope.nextSlot =
      table.localScope.nextSlot + more.countP fun name => name.2.1.slot?.isSome) :
    start.Gathers (names ++ more) later where
  valid := hextends.declares.valid h.valid
  steady := h.steady.trans (hextends.steady h.valid)
  grows := h.grows.trans hextends.declares.grows
  here := by
    obtain ⟨added, hbindings, hadded⟩ := h.here
    obtain ⟨added', hbindings', hadded'⟩ := hmore
    refine ⟨added ++ added', by rw [hbindings', hbindings, List.append_assoc], ?_⟩
    apply List.rel_append _ hadded'
    apply hadded.imp
    intro binding name hboth
    exact ⟨hboth.1, hboth.2.of_agrees (hextends.declares.grows.agrees _ (lt_of_type hboth.2.type))⟩
  nextSlot := by
    rw [hslots, h.nextSlot, List.countP_append, Nat.add_assoc]

/-- The use of a name is recorded. -/
theorem mention (h : start.Gathers names table) (id : EntryId) (line : Nat) :
    start.Gathers names (table.modifyEntry id (·.addLine line)) := by
  have hextends : table.Extends [] id (table.modifyEntry id (·.addLine line)) := .mention id line
  have hnone := h.extend hextends ⟨[], (List.append_nil _).symm, .nil⟩ rfl
  rwa [List.append_nil] at hnone

/-- A name is declared that takes no slot. -/
theorem declare (h : start.Gathers names table) {name : String} {definition : Definition}
    (type : DataType) (hfree : table.lookupLocal name = none) (hroutine : definition.routine? = none)
    (hslot : definition.slot? = none) :
    start.Gathers (names ++ [(Text.lower name, definition, type)])
      ((table.bindNew (Text.lower name)).modifyEntry table.entries.size fun entry =>
        { entry with definition, type := some type }) := by
  have hextends : table.Extends [] start.entries.size _ :=
    .declare name definition type hfree hroutine hslot
  have hlocal := localScope_bindNew h.valid (Text.lower name)
  apply h.extend hextends
  · refine ⟨[(Text.lower name, table.entries.size)], congrArg Scope.bindings hlocal, ?_⟩
    apply List.Forall₂.cons _ .nil
    refine ⟨rfl, hroutine, ?_, ?_⟩ <;> rw [entry_modifyEntry_self (by simp)]
  · show (table.bindNew (Text.lower name)).localScope.nextSlot = _
    rw [hlocal]
    simp [Scope.bind, hslot]

/-- A variable or a parameter is declared, with the next slot. -/
theorem store (h : start.Gathers names table) {name : String} {kind : DefinitionKind} (type : DataType)
    (hfree : table.lookupLocal name = none) (hkind : kind = .plainVariable ∨ kind = .valueParameter) :
    start.Gathers
      (names ++ [(Text.lower name, .ofStorage kind (start.localScope.nextSlot +
        names.countP fun name => name.2.1.slot?.isSome), type)])
      ((table.bindNew (Text.lower name)).takeSlot.2.modifyEntry table.entries.size fun entry =>
        { entry with
          definition := .ofStorage kind (table.bindNew (Text.lower name)).takeSlot.1
          type := some type }) := by
  have hextends : table.Extends [kind] start.entries.size _ :=
    .store name kind type hfree (List.mem_singleton_self kind) hkind
  have hnamed := localScope_bindNew h.valid (Text.lower name)
  have hlocal : (table.bindNew (Text.lower name)).takeSlot.2.localScope = _ :=
    localScope_takeSlot (h.valid.bindNew (Text.lower name))
  rw [hnamed] at hlocal
  have hslot : (table.bindNew (Text.lower name)).takeSlot.1 =
      start.localScope.nextSlot + names.countP fun name => name.2.1.slot?.isSome := by
    rw [← h.nextSlot, SymbolTable.takeSlot, hnamed]
    rfl
  rw [hslot] at hextends ⊢
  apply h.extend hextends
  · refine ⟨[(Text.lower name, table.entries.size)], congrArg Scope.bindings hlocal, ?_⟩
    apply List.Forall₂.cons _ .nil
    refine ⟨rfl, Definition.routine?_ofStorage kind _, ?_, ?_⟩ <;>
      rw [entry_modifyEntry_self (by simp [entries_takeSlot])]
  · have hsome (slot : Nat) : (Definition.ofStorage kind slot).slot?.isSome = true := by
      rcases hkind with rfl | rfl <;> rfl
    show (table.bindNew (Text.lower name)).takeSlot.2.localScope.nextSlot = _
    rw [hlocal]
    simp [Scope.takeSlot, Scope.bind, hsome]

end Gathers

/-! ## What the scope of the program lists -/

/-- Whether the scope of the program has bound some more names, to entries that are what the names mean.
Other scopes are as they were, and so are the entries, but for the program and for lines. -/
structure Gains (earlier : SymbolTable) (more : Meanings) (later : SymbolTable) : Prop where
  size_le : earlier.entries.size ≤ later.entries.size
  agrees : ∀ id < earlier.entries.size, id ≠ programId → (earlier.entry id).Agrees (later.entry id)
  scopes_le : earlier.scopes.size ≤ later.scopes.size
  elsewhere : ∀ scope < earlier.scopes.size, scope ≠ programScope →
    later.scope scope = earlier.scope scope
  here : ∃ added, (later.scope programScope).bindings = (earlier.scope programScope).bindings ++ added ∧
    List.Forall₂ (fun binding name => binding.1 = name.1 ∧ later.Means binding.2 name.2) added more
  nextSlot : (later.scope programScope).nextSlot =
    (earlier.scope programScope).nextSlot + Outline.slotCount more

/-- Whether all that a program has declared so far is what some names mean, and its scope is open. -/
structure Knows (table : SymbolTable) (known : Meanings) : Prop where
  openScopes : table.openScopes = [programScope]
  within : programScope < table.scopes.size
  predefined : table.scope globalScope = unitTable.scope globalScope
  types : ∀ id < programId, (unitTable.entry id).Agrees (table.entry id)
  lists : table.Lists table.Means programScope known
  nextSlot : (table.scope programScope).nextSlot = Outline.slotCount known

/-- Whether a token is a name for a type. -/
def Denotes (table : SymbolTable) (token : Token) (type : DataType) : Prop :=
  ∃ id, table.lookup token.text = some id ∧ table.Shows id (.type, type)

section

variable {table earlier later : SymbolTable} {known more : Meanings} {id : EntryId}

theorem Gathers.gains {names : List (String × Definition × DataType)} (h : earlier.Gathers names later)
    (hlocal : earlier.localScopeId = programScope) : earlier.Gains (Outline.plainMeanings names) later := by
  have hearlier : earlier.localScope = earlier.scope programScope := by rw [localScope, hlocal]
  have hlater : later.localScope = later.scope programScope := by rw [localScope, h.localScopeId, hlocal]
  refine ⟨h.grows.size_le, fun id hid _ => h.grows.agrees id hid, Nat.le_of_eq h.steady.scopes.symm, ?_, ?_, ?_⟩
  · intro scope _ hne
    exact h.steady.elsewhere scope (by rwa [hlocal])
  · obtain ⟨added, hbindings, hadded⟩ := h.here
    rw [hlater, hearlier] at hbindings
    refine ⟨added, hbindings, ?_⟩
    rw [Outline.plainMeanings, List.forall₂_map_right_iff]
    exact hadded
  · rw [← hlater, ← hearlier, h.nextSlot, Outline.plainMeanings, Outline.slotCount, List.countP_map]
    rfl

theorem Gathers.denotes {names : List (String × Definition × DataType)} (h : earlier.Gathers names later)
    {token : Token} {type : DataType} (hdenotes : earlier.Denotes token type)
    (hname : Text.lower token.text ∉ names.map Prod.fst) : later.Denotes token type := by
  obtain ⟨id, hlookup, hshows⟩ := hdenotes
  exact ⟨id, (h.lookup_eq hname).trans hlookup, h.shows hshows⟩

/-- A routine realizes its header as long as its own scope stays and what this lists. -/
theorem Realizes.of_shows {header : Header} (h : earlier.Realizes id header)
    (hagrees : (earlier.entry id).Agrees (later.entry id)) (hsize : earlier.scopes.size ≤ later.scopes.size)
    (hsame : ∀ scope < earlier.scopes.size, scope ≠ programScope → later.scope scope = earlier.scope scope)
    (hshows : ∀ id meaning, earlier.Shows id meaning → later.Shows id meaning) : later.Realizes id header := by
  obtain ⟨scope, body, hscope, hlt, hdefinition, hnames, hbody⟩ := h.definition
  have hsame := hsame scope hlt (Nat.ne_of_gt hscope)
  refine ⟨h.callable, hagrees.type.trans h.type, scope, body, hscope, Nat.lt_of_lt_of_le hlt hsize, ?_, ?_, hbody⟩
  · rw [hagrees.definition, hdefinition, hsame]
  · exact hnames.imp (congrArg Scope.bindings hsame) hshows

/-- What an entry was known to be it is still. -/
theorem Gains.means {meaning : Meaning} (h : earlier.Gains more later)
    (hprogram : (earlier.entry programId).kind = .program) (hmeans : earlier.Means id meaning) :
    later.Means id meaning := by
  have hshows (id : EntryId) (meaning : Definition × DataType) (hid : earlier.Shows id meaning) :
      later.Shows id meaning :=
    hid.of_agrees (h.agrees id (lt_of_type hid.type) (hid.ne_program hprogram))
  cases meaning with
  | plain definition type => exact hshows id _ hmeans
  | routine header =>
      have hagrees := h.agrees id hmeans.lt (hmeans.ne_program hprogram)
      exact Realizes.of_shows hmeans hagrees h.scopes_le h.elsewhere hshows

/-- Which scopes are open does not matter for what an entry means. -/
theorem Means.pop {meaning : Meaning} (h : earlier.Means id meaning) : earlier.pop.2.Means id meaning := by
  have hagrees (id : EntryId) : (earlier.entry id).Agrees (earlier.pop.2.entry id) := by
    rw [entry_pop]
  cases meaning with
  | plain definition type => exact Shows.of_agrees h (hagrees id)
  | routine header =>
      apply Realizes.of_shows h (hagrees id) (Nat.le_of_eq (by rw [scopes_pop])) fun scope _ _ => scope_pop _ _
      exact fun id _ hshows => hshows.of_agrees (hagrees id)

theorem Gains.pop (h : earlier.Gains more later) : earlier.Gains more later.pop.2 where
  size_le := by
    rw [entries_pop]
    exact h.size_le
  agrees id hlt hne := by
    rw [entry_pop]
    exact h.agrees id hlt hne
  scopes_le := by
    rw [scopes_pop]
    exact h.scopes_le
  elsewhere scope hlt hne := by
    rw [scope_pop]
    exact h.elsewhere scope hlt hne
  here := by
    obtain ⟨added, hbindings, hadded⟩ := h.here
    refine ⟨added, by rw [scope_pop, hbindings], hadded.imp ?_⟩
    exact fun binding name hboth => ⟨hboth.1, hboth.2.pop⟩
  nextSlot := by
    rw [scope_pop]
    exact h.nextSlot

theorem Gains.trans {middle : SymbolTable} {names : Meanings} (h : earlier.Gains names middle)
    (h' : middle.Gains more later) (hprogram : (middle.entry programId).kind = .program) :
    earlier.Gains (names ++ more) later where
  size_le := Nat.le_trans h.size_le h'.size_le
  agrees id hlt hne := (h.agrees id hlt hne).trans (h'.agrees id (Nat.lt_of_lt_of_le hlt h.size_le) hne)
  scopes_le := Nat.le_trans h.scopes_le h'.scopes_le
  elsewhere scope hlt hne :=
    (h'.elsewhere scope (Nat.lt_of_lt_of_le hlt h.scopes_le) hne).trans (h.elsewhere scope hlt hne)
  here := by
    obtain ⟨added, hbindings, hadded⟩ := h.here
    obtain ⟨added', hbindings', hadded'⟩ := h'.here
    refine ⟨added ++ added', by rw [hbindings', hbindings, List.append_assoc], ?_⟩
    apply List.rel_append _ hadded'
    apply hadded.imp
    intro binding name hboth
    exact ⟨hboth.1, h'.means hprogram hboth.2⟩
  nextSlot := by
    rw [h'.nextSlot, h.nextSlot, Nat.add_assoc]
    exact congrArg _ List.countP_append.symm

theorem Knows.gains (h : earlier.Knows known) (hgains : earlier.Gains more later)
    (hprogram : (earlier.entry programId).kind = .program)
    (hopen : later.openScopes = earlier.openScopes) : later.Knows (known ++ more) where
  openScopes := hopen.trans h.openScopes
  within := Nat.lt_of_lt_of_le h.within hgains.scopes_le
  predefined := by
    rw [hgains.elsewhere globalScope (Nat.lt_of_le_of_lt (Nat.zero_le _) h.within) (by decide)]
    exact h.predefined
  types id hid := by
    have hlt : id < earlier.entries.size := Nat.lt_trans hid (lt_of_kind hprogram (by decide))
    exact (h.types id hid).trans (hgains.agrees id hlt (Nat.ne_of_lt hid))
  lists := by
    obtain ⟨added, hbindings, hadded⟩ := hgains.here
    rw [Lists, hbindings]
    apply List.rel_append _ hadded
    have hlists := h.lists
    rw [Lists] at hlists
    apply hlists.imp
    intro binding name hboth
    exact ⟨hboth.1, hgains.means hprogram hboth.2⟩
  nextSlot := by
    rw [hgains.nextSlot, h.nextSlot, Outline.slotCount, Outline.slotCount, Outline.slotCount,
      List.countP_append]

/-- At the start a program has declared nothing. -/
theorem knows_unitTable : unitTable.Knows [] where
  openScopes := openScopes_unitTable
  within := by decide +kernel
  predefined := rfl
  types _ _ := .refl _
  lists := by
    have hnone : (unitTable.scope programScope).bindings = [] := by decide +kernel
    rw [Lists, hnone]
    exact .nil
  nextSlot := by decide +kernel

/-- A name means what the program has declared it to be, or else what is predefined. -/
theorem Knows.lookup_eq (h : table.Knows known) (name : String) :
    table.lookup name = ((table.scope programScope).get? (Text.lower name)).or
      ((unitTable.scope globalScope).get? (Text.lower name)) := by
  rw [SymbolTable.lookup, h.openScopes, ← h.predefined]
  cases hget : (table.scope programScope).get? (Text.lower name) <;>
    cases houter : (table.scope globalScope).get? (Text.lower name) <;>
      simp [hget, houter]

/-- Each word for a predefined type is bound to it at the start. -/
theorem exists_predefined {scalar : Scalar} (h : scalar ∈ Outline.scalars) :
    ∃ id < programId, (unitTable.scope globalScope).get? scalar.name = some id ∧
      unitTable.Shows id (.type, .scalar scalar) := by
  have hall : ∀ scalar ∈ Outline.scalars, ((unitTable.scope globalScope).get? scalar.name).any
      (fun id => decide (id < programId ∧ (unitTable.entry id).kind = .type ∧
        (unitTable.entry id).type = some (.scalar scalar))) = true := by decide +kernel
  have hscalar := hall scalar h
  cases hget : (unitTable.scope globalScope).get? scalar.name with
  | none => simp [hget] at hscalar
  | some id =>
      simp only [hget, Option.any_some, decide_eq_true_eq] at hscalar
      obtain ⟨hlt, hkind, htype⟩ := hscalar
      refine ⟨id, hlt, rfl, rfl, ?_, htype⟩
      rw [Entry.kind] at hkind
      cases hdefinition : (unitTable.entry id).definition <;> simp [hdefinition, Definition.kind] at hkind ⊢

/-- A word for a type, or a name that has been declared as one, is a name for the type. -/
theorem Knows.denotes (h : table.Knows known) (hapart : Outline.Apart (known.map Prod.fst))
    {word : Outline.TypeName} {token : Token} {type : DataType} (hrenders : word.Renders token)
    (hdenotes : word.denotes? known = some type) : table.Denotes token type := by
  cases hrenders with
  | @word scalar token hwords =>
      simp only [Outline.TypeName.denotes?, Option.ite_none_right_eq_some, Option.some.injEq] at hdenotes
      obtain ⟨hscalar, rfl⟩ := hdenotes
      obtain ⟨id, hlt, hget, hshows⟩ := exists_predefined hscalar
      have hnone : (table.scope programScope).get? scalar.name = none := by
        apply get?_eq_none
        rw [h.lists.keys_eq]
        intro hmem
        exact hapart.2 _ hmem (List.mem_map_of_mem hscalar)
      refine ⟨id, ?_, hshows.of_agrees (h.types id hlt)⟩
      rw [h.lookup_eq, hwords.text, hnone, hget]
      rfl
  | @named name token hspells =>
      simp only [Outline.TypeName.denotes?] at hdenotes
      split at hdenotes
      · next hlookup =>
          obtain ⟨id, hget, hshows⟩ := h.lists.exists_get? hlookup
          obtain rfl := Option.some.inj hdenotes
          refine ⟨id, ?_, hshows⟩
          rw [h.lookup_eq, hspells.text, hget]
          rfl
      · cases hdenotes

/-- A name that has not been declared is none for a type. -/
theorem Knows.kind_ne_type (h : table.Knows known) (hprogram : (table.entry programId).kind = .program)
    {name : String} (hfree : Text.lower name ∉ known.map Prod.fst)
    (hword : Text.lower name ∉ Outline.typeWords) (hlookup : table.lookup name = some id) :
    (table.entry id).kind ≠ .type := by
  have hall : ∀ binding ∈ (unitTable.scope globalScope).bindings,
      binding.1 ∈ Outline.typeWords ∨ binding.2 = programId := by decide +kernel
  rw [h.lookup_eq, get?_eq_none (by rwa [h.lists.keys_eq]), Option.none_or] at hlookup
  have hmem : (Text.lower name, id) ∈ (unitTable.scope globalScope).bindings := by
    obtain ⟨before, after, hbindings, -⟩ := List.lookup_eq_some_iff.mp hlookup
    simp [hbindings]
  rcases hall _ hmem with hin | rfl
  · exact absurd hin hword
  · rw [hprogram]
    decide

end

end SymbolTable

end FrontEnd
