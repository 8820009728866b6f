import FrontEnd.Proofs.Trace

/-!
# What declarations leave behind

The productions for declarations are traced inside a routine, so the table only grows while they run.  Two
of them have more to say: a word for a numeric type is consumed as a type while it still names one
(`traced_typeSpecifier`), and storage that is declared is a new entry of its kind
(`traced_declareStorage`).
-/

namespace FrontEnd.Production

variable {known : Token → Prop} {session : Session}

/-- If no known token is improper, all are proper. -/
theorem proper_of_not_improper (h : ¬ Improper known) : ∀ token, known token → token.Proper :=
  fun token hknown => not_not.mp fun himproper => h ⟨token, hknown, himproper⟩

/-! ## Types -/

@[simp] theorem traced_typeNamed_bind {α : Type} {place : Place} {post : α → Session → Prop}
    (name : String) (next : Option EntryId → Production α) :
    Traced known place (typeNamed name >>= next) session post ↔
      Traced known place
        (next ((session.table.lookup name).filter fun id =>
          (session.table.entry id).kind == .type)) session post :=
  Iff.rfl

/-- Whether a token begins the declaration of a variable, as the table has it. -/
def beginsVariables (table : SymbolTable) (token : Token) : Bool :=
  scalarWords.contains token.kind || token.kind == .identifier &&
    ((table.lookup token.text).filter fun id => (table.entry id).kind == .type).isSome

theorem leads_startsVariables {stop : Interruption → Prop} {post : Bool → Session → Prop} :
    Leads startsVariables session stop post ↔
      post (beginsVariables session.table session.cursor.current) session := by
  unfold startsVariables beginsVariables
  rw [leads_bind, leads_current]
  cases scalarWords.contains session.cursor.current.kind with
  | true => exact Iff.rfl
  | false =>
      cases session.cursor.current.kind == .identifier <;> exact Iff.rfl

@[simp] theorem traced_startsVariables_bind {α : Type} {place : Place}
    {post : α → Session → Prop} (next : Bool → Production α) :
    Traced known place (startsVariables >>= next) session post ↔
      Traced known place (next (beginsVariables session.table session.cursor.current))
        session post := by
  unfold startsVariables beginsVariables
  simp only [bind_assoc, traced_current_bind]
  split
  · next h => simp [h]
  · next h =>
      split
      · next hname => simp [h, hname]
      · next hname => simp [h, hname]

/-- The words with which a parameter begins. -/
def numericWords : List TokenKind := [.intWord, .floatWord, .doubleWord]

/-- A word for a numeric type names a type, if names are proper. -/
theorem names_of_numericWord (hlawful : session.Lawful known) (hproper : ¬ Improper known)
    (hkind : session.cursor.current.kind ∈ numericWords) :
    ∃ id, session.table.lookup session.cursor.current.text = some id ∧
      (session.table.entry id).kind = .type := by
  have hall := proper_of_not_improper hproper
  have hwords : ∀ kind ∈ numericWords, kind ∈ TokenKind.reservedWords ∧
      Text.lower kind.text ∈ scalarNames := by decide
  -- a reserved word has its own text, and names keep the meaning of that
  obtain ⟨hreserved, hscalar⟩ := hwords _ hkind
  refine (hlawful.names hall).lookup ?_
  rwa [(hall _ hlawful.current).reserved hreserved]

theorem traced_namedType (hlawful : session.Lawful known)
    (hend : session.cursor.current.isEnd = false) :
    Traced known .declaration namedType session fun _ later =>
      ¬ Improper known → session.cursor.current.kind ∈ numericWords →
        session.cursor.position < later.cursor.position := by
  unfold namedType
  rw [traced_current_bind, traced_typeNamed_bind]
  split
  · next hnone =>
      refine .pure hlawful fun hproper hkind => ?_
      obtain ⟨id, hlookup, htype⟩ := names_of_numericWord hlawful hproper hkind
      simp [hlookup, htype] at hnone
  · next id hsome =>
      refine (traced_addLine id hlawful hlawful.current).bind fun _ later _ hlater hline => ?_
      subst hline
      rw [traced_entry_bind]
      exact (traced_nextToken hlater).bind fun _ final _ hfinal hnext =>
        .pure hfinal fun _ _ => hnext.2.2 hend

theorem traced_typeSpecifier (hlawful : session.Lawful known) :
    Traced known .declaration typeSpecifier session fun _ later =>
      ¬ Improper known → session.cursor.current.kind ∈ numericWords →
        session.cursor.position < later.cursor.position := by
  unfold typeSpecifier
  rw [traced_currentKind_bind]
  split
  case h_1 hkind | h_2 hkind | h_3 hkind | h_4 hkind | h_5 hkind | h_6 hkind =>
    exact traced_namedType hlawful (isEnd_of_kind hkind (by simp))
  case h_7 hkind | h_8 hkind =>
    refine (traced_nextToken hlawful).bind fun name later _ hlater hnext => ?_
    have hmoved := hnext.2.2 (isEnd_of_kind hkind (by simp))
    split
    · refine (traced_nextToken hlater).bind fun _ final hsteps hfinal _ => .pure hfinal fun _ _ => ?_
      exact Nat.lt_of_lt_of_le hmoved hsteps.position_le
    · refine (traced_flag _ hlater rfl).bind fun _ final hsteps hfinal _ => .pure hfinal fun _ _ => ?_
      exact Nat.lt_of_lt_of_le hmoved hsteps.position_le
  case h_9 hnone hother =>
    refine .pure hlawful fun _ hkind => ?_
    simp only [numericWords, List.mem_cons, List.not_mem_nil, or_false] at hkind
    rcases hkind with hkind | hkind | hkind <;> simp_all

theorem traced_requiredType (hlawful : session.Lawful known) :
    Traced known .declaration requiredType session fun _ _ => True := by
  unfold requiredType
  refine (traced_typeSpecifier hlawful).bind fun found later _ hlater _ => ?_
  cases found with
  | some type => exact .pure hlater trivial
  | none => exact (traced_flag _ hlater rfl).bind fun _ _ _ hfinal _ => .pure hfinal trivial

/-! ## Names -/

theorem traced_declare {name : Token} {definition : Definition} (type : DataType)
    (hlawful : session.Lawful known) (hname : known name) (hkind : name.kind = .identifier)
    (hroutine : definition.routine? = none) (hslot : definition.slot? = none) :
    Traced known .declaration (declare name definition type) session fun _ _ => True := by
  unfold declare
  cases hlocal : session.table.lookupLocal name.text with
  | some taken =>
      rw [traced_enterLocal_bind_of_taken hlocal]
      exact (traced_flagAt _ hlawful hname rfl).mono fun _ _ _ _ _ => trivial
  | none =>
      simp only [Traced, enterLocal, SymbolTable.enterLocal, hlocal, leads_bind,
        leads_onTable, leads_changeEntry]
      have hsteps : Steps known .declaration session _ :=
        .declares (.declare definition type hname hkind hlocal hroutine hslot)
          (.mention session.table.entries.size hname)
      exact ⟨hsteps, hsteps.lawful hlawful, trivial⟩

/-! ## Variables -/

/-- Storage that is declared is a new entry of its kind. -/
theorem traced_declareStorage {name : Token} {kind : DefinitionKind} (type : DataType)
    (hlawful : session.Lawful known) (hname : known name) (hidentifier : name.kind = .identifier)
    (hkind : kind = .plainVariable ∨ kind = .valueParameter) :
    Traced known .declaration (declareStorage name kind type) session fun declared later =>
      later.cursor = session.cursor ∧
        ∀ id ∈ declared, session.table.entries.size ≤ id ∧ (later.table.entry id).kind = kind := by
  unfold declareStorage
  cases hlocal : session.table.lookupLocal name.text with
  | some taken =>
      rw [traced_enterLocal_bind_of_taken hlocal]
      exact (traced_flagAt _ hlawful hname rfl).bind fun _ _ _ hlater h =>
        .pure hlater ⟨h.1, by simp⟩
  | none =>
      simp only [Traced, enterLocal, SymbolTable.enterLocal, hlocal, leads_bind,
        leads_onTable, leads_changeEntry, leads_pure]
      -- the storage is declared, and its first line recorded
      have hsteps : Steps known .declaration session _ :=
        .declares (.store type hname hidentifier hlocal hkind)
          (.mention session.table.entries.size hname)
      refine ⟨hsteps, hsteps.lawful hlawful, trivial, fun id hid => ?_⟩
      obtain rfl : session.table.entries.size = id := by simpa using hid
      refine ⟨Nat.le_refl _, ?_⟩
      rw [SymbolTable.entry_modifyEntry_self (by simp [SymbolTable.entries_takeSlot]),
        SymbolTable.entry_modifyEntry_self (by simp [SymbolTable.entries_takeSlot]),
        Entry.kind_addLine]
      exact Definition.kind_ofStorage _ hkind

theorem traced_variableName (type : DataType) (hlawful : session.Lawful known) :
    Traced known .declaration (variableName type) session
      (AfterTurn (fun _ _ => True) fun _ later => True ∧
        (Improper known ∨ session.cursor.position < later.cursor.position)) := by
  unfold variableName
  rw [traced_current_bind]
  split
  · exact (traced_flag _ hlawful rfl).bind fun _ _ _ hlater _ => .pure hlater trivial
  · next hname =>
      have hkind : session.cursor.current.kind = .identifier := by simpa using hname
      refine (traced_declareStorage type hlawful hlawful.current hkind (Or.inl rfl)).bind
        fun _ declared _ hdeclared hstored => ?_
      refine (traced_nextToken hdeclared).bind fun _ named _ hnamed hnext => ?_
      have hmoved : session.cursor.position < named.cursor.position := by
        have := hnext.2.2 (by rw [hstored.1]; exact isEnd_of_kind hkind (by simp))
        rwa [hstored.1] at this
      refine (traced_matchToken (by simp) hnamed).bind fun matched later hsteps hlater _ => ?_
      have hprogress := Nat.lt_of_lt_of_le hmoved hsteps.position_le
      split
      · exact .pure hlater ⟨trivial, Or.inr hprogress⟩
      · rw [traced_check_bind]
        split
        · refine (traced_flag _ hlater rfl).bind fun _ final hlast hfinal _ => .pure hfinal ?_
          exact ⟨trivial, Or.inr (Nat.lt_of_lt_of_le hprogress hlast.position_le)⟩
        · exact .pure hlater trivial

theorem traced_variableNames {typeToken : Token} (type : DataType) (hlawful : session.Lawful known)
    (htoken : known typeToken) :
    Traced known .declaration (variableNames typeToken type) session fun _ _ => True := by
  unfold variableNames
  rw [traced_check_bind]
  refine (traced_ensure _ _ hlawful htoken rfl).bind fun _ checked _ hchecked _ => ?_
  have hloop : Traced known .declaration (loop (fun _ => variableName type) ()) checked fun _ _ => True :=
    .loop (fun _ _ => True) hchecked trivial fun _ _ _ hlater _ => traced_variableName type hlater
  refine hloop.bind fun _ named _ hnamed _ => ?_
  exact (traced_expect (by simp) _ hnamed rfl).mono fun _ _ _ _ _ => trivial

theorem traced_variableDeclaration (hlawful : session.Lawful known) :
    Traced known .declaration variableDeclaration session fun _ _ => True := by
  unfold variableDeclaration
  rw [traced_current_bind]
  refine (traced_requiredType hlawful).bind fun type later _ hlater _ => ?_
  exact traced_variableNames type hlater hlawful.current

/-! ## Constants -/

theorem traced_constantValue (hlawful : session.Lawful known) :
    Traced known .declaration constantValue session fun _ _ => True := by
  have hsign : Traced known .declaration optionalSign session fun _ _ => True := by
    unfold optionalSign
    rw [traced_currentKind_bind]
    refine (traced_matchAny _ hlawful).bind fun matched _ _ hlater _ => ?_
    cases matched <;> exact .pure hlater trivial
  unfold constantValue
  refine hsign.bind fun sign signed _ hsigned _ => ?_
  rw [traced_current_bind]
  refine (traced_ensure _ _ hsigned hsigned.current rfl).bind fun _ checked _ hchecked _ => ?_
  exact (traced_matchAny _ hchecked).bind fun _ _ _ hlater _ => .pure hlater trivial

theorem traced_declareConstant {name valueToken : Token} (declared : Option DataType)
    (value : ConstantValue) (hlawful : session.Lawful known) (hname : known name)
    (hkind : name.kind = .identifier) (hvalue : known valueToken) :
    Traced known .declaration (declareConstant name valueToken declared value) session
      fun _ _ => True := by
  unfold declareConstant
  refine (traced_ensure _ _ hlawful hvalue rfl).bind fun _ checked _ hchecked _ => ?_
  exact traced_declare _ hchecked hname hkind rfl rfl

theorem traced_constantDefinition (declared : Option DataType) (hlawful : session.Lawful known) :
    Traced known .declaration (constantDefinition declared) session
      (AfterTurn (fun _ _ => True) fun _ later => True ∧
        (Improper known ∨ session.cursor.position < later.cursor.position)) := by
  unfold constantDefinition
  rw [traced_current_bind]
  split
  · exact (traced_flag _ hlawful rfl).bind fun _ _ _ hlater _ => .pure hlater trivial
  · next hname =>
      have hkind : session.cursor.current.kind = .identifier := by simpa using hname
      refine (traced_nextToken hlawful).bind fun _ named _ hnamed hnext => ?_
      have hmoved := hnext.2.2 (isEnd_of_kind hkind (by simp))
      refine (traced_expect (by simp) _ hnamed rfl).bind fun _ equals hfirst hequals _ => ?_
      rw [traced_current_bind]
      refine (traced_constantValue hequals).bind fun value valued hsecond hvalued _ => ?_
      have hdeclare : Traced known .declaration
          (value.forM (declareConstant session.cursor.current equals.cursor.current declared)) valued
          fun _ _ => True := by
        cases value with
        | none => exact .pure hvalued trivial
        | some value =>
            exact traced_declareConstant declared value hvalued hlawful.current hkind hequals.current
      refine hdeclare.bind fun _ stored hthird hstored _ => ?_
      refine (traced_matchToken (by simp) hstored).bind fun matched later hfourth hlater _ => ?_
      have hrest := hfirst.trans (hsecond.trans (hthird.trans hfourth))
      split
      · exact .pure hlater ⟨trivial, Or.inr (Nat.lt_of_lt_of_le hmoved hrest.position_le)⟩
      · exact .pure hlater trivial

theorem traced_constants (hlawful : session.Lawful known) :
    Traced known .declaration constants session fun _ _ => True := by
  have htype : Traced known .declaration constantsType session fun _ _ => True := by
    unfold constantsType
    rw [traced_startsVariables_bind]
    split
    · exact (traced_typeSpecifier hlawful).mono fun _ _ _ _ _ => trivial
    · exact .pure hlawful trivial
  unfold constants
  refine htype.bind fun declared typed _ htyped _ => ?_
  have hloop : Traced known .declaration (loop (fun _ => constantDefinition declared) ()) typed
      fun _ _ => True :=
    .loop (fun _ _ => True) htyped trivial fun _ _ _ hlater _ =>
      traced_constantDefinition declared hlater
  refine hloop.bind fun _ defined _ hdefined _ => ?_
  exact (traced_expect (by simp) _ hdefined rfl).mono fun _ _ _ _ _ => trivial

/-! ## Names for types -/

theorem traced_arrayCount (hlawful : session.Lawful known) :
    Traced known .declaration arrayCount session fun _ _ => True := by
  unfold arrayCount
  rw [traced_current_bind]
  split
  · exact (traced_nextToken hlawful).bind fun _ _ _ hlater _ => .pure hlater trivial
  · exact (traced_flag _ hlawful rfl).bind fun _ _ _ hlater _ => .pure hlater trivial

theorem traced_arraySuffix (type : DataType) (hlawful : session.Lawful known) :
    Traced known .declaration (arraySuffix type) session fun _ _ => True := by
  unfold arraySuffix
  refine (traced_matchToken (by simp) hlawful).bind fun matched opened _ hopened _ => ?_
  split
  · unfold arrayOf
    split
    · exact (traced_flag _ hopened rfl).bind fun _ _ _ hlater _ => .pure hlater trivial
    · refine (traced_arrayCount hopened).bind fun count counted _ hcounted _ => ?_
      exact (traced_expect (by simp) _ hcounted rfl).bind fun _ _ _ hlater _ => .pure hlater trivial
  · exact .pure hopened trivial

theorem traced_typeName (type : DataType) (hlawful : session.Lawful known) :
    Traced known .declaration (typeName type) session fun _ _ => True := by
  unfold typeName
  rw [traced_current_bind]
  split
  · next hname =>
      refine (traced_nextToken hlawful).bind fun _ named _ hnamed _ => ?_
      refine (traced_arraySuffix type hnamed).bind fun type later _ hlater _ => ?_
      exact traced_declare type hlater hlawful.current (by simpa using hname) rfl rfl
  · exact (traced_flag _ hlawful rfl).mono fun _ _ _ _ _ => trivial

theorem traced_typeDefinition (hlawful : session.Lawful known) :
    Traced known .declaration typeDefinition session fun _ _ => True := by
  unfold typeDefinition
  refine (traced_requiredType hlawful).bind fun type typed _ htyped _ => ?_
  refine (traced_typeName type htyped).bind fun _ named _ hnamed _ => ?_
  exact (traced_expect (by simp) _ hnamed rfl).mono fun _ _ _ _ _ => trivial

end FrontEnd.Production
