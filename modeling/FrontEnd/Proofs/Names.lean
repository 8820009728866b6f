import FrontEnd.Proofs.Change

/-!
# Names for types

The words for numeric types are looked up like any other name, and a parameter is read only if they still
stand for types.  No scope hides them if the names that a program declares are proper: `NamesTypes` is
preserved by every change to the table (`Reshapes.namesTypes`), since an invented name is too long to be
one of these words (`Enterable.notMem`).
-/

namespace FrontEnd

/-! ## Proper names -/

/-- The words for the types that parameters can have. -/
def scalarNames : List String := ["int", "float", "double"]

/-- Whether a token is what its kind says: a reserved word has its own text, and an identifier is none of
the words for numeric types, in whatever case. -/
structure Token.Proper (token : Token) : Prop where
  reserved : token.kind ∈ TokenKind.reservedWords → token.text = token.kind.text
  identifier : token.kind = .identifier → Text.lower token.text ∉ scalarNames

instance (token : Token) : Decidable token.Proper :=
  decidable_of_iff
    ((token.kind ∈ TokenKind.reservedWords → token.text = token.kind.text) ∧
      (token.kind = .identifier → Text.lower token.text ∉ scalarNames))
    ⟨fun h => ⟨h.1, h.2⟩, fun h => ⟨h.reserved, h.identifier⟩⟩

theorem length_le_lowerFrom (passed rest : List Char) :
    rest.length ≤ (Text.lowerFrom passed rest).length := by
  induction rest generalizing passed with
  | nil => exact Nat.zero_le _
  | cons c rest ih =>
      have := ih (c :: passed)
      simp only [Text.lowerFrom, List.length_append, List.length_cons]
      split_ifs <;> simp only [List.length_cons, List.length_nil] <;> omega

/-- No name gets shorter in lower case. -/
theorem length_le_lower (text : String) : text.length ≤ (Text.lower text).length := by
  have := length_le_lowerFrom [] text.toList
  rwa [String.length_toList, ← String.length_ofList] at this

/-- Invented names are long. -/
theorem Invented.length_lower {name : String} (h : Invented name) : 17 ≤ (Text.lower name).length := by
  cases h with
  | @intro stem number hstem =>
      have hlong : ∀ stem ∈ [Production.procedureNameStem, Production.functionNameStem],
          17 ≤ stem.length := by decide
      have := hlong _ hstem
      have := length_le_lower (stem ++ Text.padZeros 3 number)
      simp only [String.length_append] at this
      omega

/-- What can be entered is no word for a numeric type. -/
theorem Enterable.notMem {known : Token → Prop} {name : String} (h : Enterable known name)
    (hproper : ∀ token, known token → token.Proper) : Text.lower name ∉ scalarNames := by
  cases h with
  | given hknown hidentifier => exact (hproper _ hknown).identifier hidentifier
  | invented hinvented =>
      intro hmem
      -- an invented name is too long to be such a word
      have hshort : ∀ word ∈ scalarNames, word.length ≤ 6 := by decide
      have := hshort _ hmem
      have := hinvented.length_lower
      omega

namespace SymbolTable

/-! ## Tables in which the words stand for types -/

/-- Whether the words for numeric types are bound in the global scope alone, and to types. -/
structure NamesTypes (table : SymbolTable) : Prop where
  global : ∀ word ∈ scalarNames, ∃ id,
    (table.scope globalScope).get? word = some id ∧ (table.entry id).kind = .type
  inner : ∀ word ∈ scalarNames, ∀ scope, scope ≠ globalScope → (table.scope scope).get? word = none

section

variable {known : Token → Prop} {table later : SymbolTable}

/-- The words keep their meaning from every scope. -/
theorem NamesTypes.lookup (h : table.NamesTypes) {name : String}
    (hname : Text.lower name ∈ scalarNames) :
    ∃ id, table.lookup name = some id ∧ (table.entry id).kind = .type := by
  obtain ⟨id, hget, hkind⟩ := h.global _ hname
  refine ⟨id, ?_, hkind⟩
  unfold SymbolTable.lookup
  induction table.openScopes with
  | nil => simp [hget]
  | cons scope outer ih =>
      rw [List.cons_append, List.findSome?_cons]
      by_cases hscope : scope = globalScope
      · rw [hscope, hget]
      · rw [h.inner _ hname scope hscope]
        exact ih

/-- The words keep their meaning if types stay types and no scope binds one of them anew. -/
theorem NamesTypes.of_get? (h : table.NamesTypes)
    (hkind : ∀ id, (table.entry id).kind = .type → (later.entry id).kind = .type)
    (hget : ∀ scope, ∀ word ∈ scalarNames, (later.scope scope).get? word = (table.scope scope).get? word) :
    later.NamesTypes where
  global word hword := by
    obtain ⟨id, hbound, htype⟩ := h.global word hword
    exact ⟨id, (hget _ word hword).trans hbound, hkind id htype⟩
  inner word hword scope hscope := (hget scope word hword).trans (h.inner word hword scope hscope)

theorem NamesTypes.modifyEntry (h : table.NamesTypes) {id : EntryId} {change : Entry → Entry}
    (hkind : (table.entry id).kind = .type → (change (table.entry id)).kind = .type) :
    (table.modifyEntry id change).NamesTypes :=
  h.of_get? (fun other hother => by
    rw [entry_modifyEntry]
    split
    · next hsame => exact hkind (hsame.1 ▸ hother)
    · exact hother) fun _ _ _ => rfl

theorem NamesTypes.bindNew (h : table.NamesTypes) {key : String} (hkey : key ∉ scalarNames) :
    (table.bindNew key).NamesTypes := by
  refine h.of_get? (fun id hid => ?_) fun scope word hword => ?_
  · have hlt : id ≠ table.entries.size := by
      rintro rfl
      simp [entry_of_size_le (Nat.le_refl _), Entry.kind, Definition.kind] at hid
    rwa [entry_bindNew, if_neg hlt]
  · have hne : (word == key) = false := by
      rw [beq_eq_false_iff_ne]
      rintro rfl
      exact hkey hword
    rw [scope_bindNew]
    split
    · simp [Scope.get?, Scope.bind, List.lookup_append, List.lookup_cons, hne]
    · rfl

theorem NamesTypes.takeSlot (h : table.NamesTypes) : table.takeSlot.2.NamesTypes :=
  h.of_get? (fun _ hid => hid) fun scope word _ => by simp only [Scope.get?, bindings_takeSlot]

theorem NamesTypes.createDetached (h : table.NamesTypes) (name : String) (definition : Definition)
    (type : DataType) : (table.createDetached name definition type).2.NamesTypes := by
  refine h.of_get? (fun id hid => ?_) fun _ _ _ => rfl
  have hlt : id ≠ table.entries.size := by
    rintro rfl
    simp [entry_of_size_le (Nat.le_refl _), Entry.kind, Definition.kind] at hid
  rwa [entry_createDetached, if_neg hlt]

theorem NamesTypes.push (h : table.NamesTypes) : table.push.2.NamesTypes := by
  refine h.of_get? (fun _ hid => hid) fun scope word hword => ?_
  by_cases hscope : scope = table.scopes.size
  · subst hscope
    simp [SymbolTable.scope, SymbolTable.push, Scope.get?]
  · simp [SymbolTable.scope, SymbolTable.push, Array.getElem?_push, hscope]

theorem NamesTypes.pop (h : table.NamesTypes) : table.pop.2.NamesTypes := by
  unfold SymbolTable.pop
  split
  · exact h
  · exact ⟨h.global, h.inner⟩

theorem Declares.namesTypes (h : Declares known table later)
    (hproper : ∀ token, known token → token.Proper) (hnames : table.NamesTypes) :
    later.NamesTypes := by
  cases h with
  | mention id hknown => exact hnames.modifyEntry fun hkind => by rwa [Entry.kind_addLine]
  | declare definition type hknown hname hfree hroutine hslot =>
      refine (hnames.bindNew ((hproper _ hknown).identifier hname)).modifyEntry fun hkind => ?_
      simp [entry_bindNew, Entry.kind, Definition.kind] at hkind
  | store type hknown hname hfree hkind =>
      refine (hnames.bindNew ((hproper _ hknown).identifier hname)).takeSlot.modifyEntry
        fun hkind => ?_
      simp [entry_bindNew, Entry.kind, Definition.kind] at hkind
  | target routine type => exact hnames.createDetached _ _ _

theorem Settles.namesTypes (h : Settles known table later)
    (hproper : ∀ token, known token → token.Proper) (hnames : table.NamesTypes) :
    later.NamesTypes := by
  cases h with
  | enter henter hfree => exact hnames.bindNew (henter.notMem hproper)
  | detach => exact hnames.createDetached _ _ _
  | retype type hroutine => exact hnames.modifyEntry fun hkind => hkind
  | parameters hparameters => exact hnames.modifyEntry fun hkind => by rwa [Entry.kind_mapRoutine]

/-- No change to the table hides the words for numeric types, if the names declared are proper. -/
theorem Reshapes.namesTypes (h : Reshapes known table later)
    (hproper : ∀ token, known token → token.Proper) (hnames : table.NamesTypes) :
    later.NamesTypes := by
  cases h with
  | declares h => exact h.namesTypes hproper hnames
  | settles h => exact h.namesTypes hproper hnames
  | revise hbefore hafter hparameters =>
      exact hnames.modifyEntry fun hkind =>
        absurd hkind (Entry.kind_ne_of_revisable hbefore).2
  | amend hparameters => exact hnames.modifyEntry fun hkind => by rwa [Entry.kind_mapRoutine]
  | push => exact hnames.push
  | pop => exact hnames.pop
  | takeSlot => exact hnames.takeSlot

end

end SymbolTable

end FrontEnd
