import FrontEnd.Proofs.Order

/-!
# The order of what declarations record

Every production for a declaration leaves all that is recorded in order, and no type that it reads is out of range,
nor any constant.

That a type cannot be that of a variable is found at the type, after the token that follows it has been read.  It is
found nevertheless before anything is found to be wrong after the type: the only such type is `void`, which is one
token, and an identifier follows it (`TypeRead.void`).
-/

namespace FrontEnd

/-- What can be a token is not reported by itself. -/
theorem Token.Fits.reports_eq_nil {token : Token} (h : token.Fits) (hkind : token.kind ≠ .error) :
    token.reports = [] := by
  have hreason : token.scanError? = none := by
    simpa using fun hsome => hkind (h.explained.mpr hsome)
  simp [Token.reports, hreason]

namespace Production

open Session

variable {tokens : List Token} {session : Session}

/-! ## Types -/

theorem orderly_typeNamed_bind {α : Type} (name : String) (next : Option EntryId → Production α)
    {post : α → Session → Prop} :
    Orderly tokens (typeNamed name >>= next) session post ↔
      Orderly tokens
        (next ((session.table.lookup name).filter fun id => (session.table.entry id).kind == .type)) session post :=
  Iff.rfl

/-- What is known about a type that has been read: it is not out of range, and if it is `void` and a name follows,
nothing has been found to be wrong. -/
structure TypeRead (session : Session) (found : Option DataType) (later : Session) : Prop where
  inRange : ∀ type, found = some type → type.InRange
  void : found = some .void → later.cursor.current.kind = .identifier →
    later.diagnostics = session.diagnostics

theorem orderly_namedType (h : session.Ordered tokens) :
    Orderly tokens namedType session (TypeRead session) := by
  unfold namedType
  rw [orderly_current_bind, orderly_typeNamed_bind]
  split
  · exact .pure h ⟨nofun, nofun⟩
  · next id _ =>
      refine .bind (orderly_addLine h id) fun _ used hused _ hchanged => ?_
      rw [orderly_entry_bind]
      refine .bind (orderly_nextToken hused) fun token next hnext _ ⟨hcurrent, _, hdiagnostics⟩ => ?_
      refine .pure hnext ⟨?_, fun _ hname => ?_⟩
      · rintro _ ⟨⟩
        exact (hused.entries id).resolvedType
      · have hfits : token.Fits := hnext.scanned.fits token (hcurrent ▸ hnext.current_mem)
        have hreports := hfits.reports_eq_nil (by simp [← hcurrent, hname])
        rw [hdiagnostics, hreports, List.append_nil, hchanged]

theorem orderly_typeSpecifier (h : session.Ordered tokens) :
    Orderly tokens typeSpecifier session (TypeRead session) := by
  unfold typeSpecifier
  rw [orderly_currentKind_bind]
  split
  case h_7 | h_8 =>
    refine .bind (orderly_nextToken h) fun name next hnext _ _ => ?_
    split
    · refine .bind (orderly_nextToken hnext) fun _ after hafter _ _ => .pure hafter ⟨?_, nofun⟩
      rintro _ ⟨⟩
      trivial
    · refine .bind (orderly_flag hnext .missingIdentifier) fun _ noted hnoted _ _ => .pure hnoted ⟨?_, nofun⟩
      rintro _ ⟨⟩
      trivial
  case h_9 => exact .pure h ⟨nofun, nofun⟩
  all_goals exact orderly_namedType h

theorem orderly_requiredType (h : session.Ordered tokens) :
    Orderly tokens requiredType session fun type => TypeRead session (some type) := by
  unfold requiredType
  refine .bind (orderly_typeSpecifier h) fun found read hread _ hfound => ?_
  cases found with
  | some type => exact .pure hread hfound
  | none =>
      refine .bind (orderly_flag hread .invalidType) fun _ noted hnoted _ _ => .pure hnoted ⟨?_, nofun⟩
      rintro _ ⟨⟩
      trivial

/-! ## New entries -/

/-- A name that is entered has no lines yet. -/
theorem orderly_enterLocal (h : session.Ordered tokens) (name : String) :
    Orderly tokens (enterLocal name) session fun found later =>
      later.cursor = session.cursor ∧ ∀ id, found = some id → (later.table.entry id).lines = [] := by
  unfold enterLocal
  refine (leads_onTable _).mpr ?_
  unfold SymbolTable.enterLocal
  cases session.table.lookupLocal name with
  | some found => exact ⟨h, .refl session, rfl, nofun⟩
  | none =>
      obtain ⟨hlater, honward⟩ := h.enlarge (.new _ _) (SymbolTable.entry_bindNew (Text.lower name))
      refine ⟨hlater, honward, rfl, ?_⟩
      rintro _ ⟨⟩
      simp [SymbolTable.entry_bindNew]

/-- What has just been entered is declared as something that is no routine. -/
theorem orderly_define (h : session.Ordered tokens) {id : EntryId} (hnew : (session.table.entry id).lines = [])
    {definition : Definition} (hroutine : definition.routine? = none)
    (hconstant : ∀ value, definition = .constant value → value.InRange) {type : DataType} (htype : type.InRange) :
    Orderly tokens (changeEntry id fun entry => { entry with definition, type := some type }) session fun _ later =>
      session.cursor = later.cursor ∧ (later.table.entry id).lines = [] := by
  have hplaced := (h.entries id).declare definition type hroutine hconstant htype
  refine (orderly_changeEntry h id (List.Subset.refl _) hplaced).mono fun _ later _ _ hchanged => ?_
  subst hchanged
  refine ⟨rfl, ?_⟩
  rw [SymbolTable.entry_modifyEntry]
  split <;> exact hnew

/-- The first line of an entry can be any that has been reached. -/
theorem orderly_addFirstLine (h : session.Ordered tokens) {id : EntryId}
    (hnew : (session.table.entry id).lines = []) {name : Token} (hname : session.Seen tokens name) :
    Orderly tokens (changeEntry id (·.addLine name.line)) session fun _ _ => True :=
  (orderly_changeEntry h id (Entry.lines_addLine _ _)
    ((h.entries id).addLine (h.line_of_seen hname) (by simp [hnew]))).mono fun _ _ _ _ _ => trivial

theorem orderly_declare (h : session.Ordered tokens) {name : Token} (hname : session.Seen tokens name)
    {definition : Definition} (hroutine : definition.routine? = none)
    (hconstant : ∀ value, definition = .constant value → value.InRange) {type : DataType} (htype : type.InRange) :
    Orderly tokens (declare name definition type) session fun _ _ => True := by
  unfold declare
  refine .bind (orderly_enterLocal h name.text) fun found entered hentered honward ⟨_, hnew⟩ => ?_
  cases found with
  | some id =>
      refine .bind (orderly_define hentered (hnew id rfl) hroutine hconstant htype)
        fun _ defined hdefined honward' ⟨_, hnew⟩ => ?_
      exact orderly_addFirstLine hdefined hnew ((honward.trans honward').seen hname)
  | none =>
      exact (orderly_flagAt hentered (honward.seen hname) (.inl (by decide))).mono
        fun _ _ _ _ _ => trivial

theorem orderly_declareStorage (h : session.Ordered tokens) {name : Token} (hname : session.Seen tokens name)
    (kind : DefinitionKind) {type : DataType} (htype : type.InRange) :
    Orderly tokens (declareStorage name kind type) session fun _ _ => True := by
  unfold declareStorage
  refine .bind (orderly_enterLocal h name.text) fun found entered hentered honward ⟨_, hnew⟩ => ?_
  cases found with
  | none =>
      exact .bind (orderly_flagAt hentered (honward.seen hname) (.inl (by decide)))
        fun _ _ hlater _ _ => .pure hlater trivial
  | some id =>
      refine .bind (orderly_onTable hentered fun _ => rfl) fun slot taken htaken honward' ⟨_, hsame⟩ => ?_
      have hconstant (value : ConstantValue) : Definition.ofStorage kind slot = .constant value → value.InRange := by
        cases kind <;> nofun
      refine .bind (orderly_define htaken (by rw [hsame, hnew id rfl]) (Definition.routine?_ofStorage kind slot)
        hconstant htype) fun _ defined hdefined honward'' ⟨_, hnew⟩ => ?_
      refine .bind (orderly_addFirstLine hdefined hnew ?_) fun _ _ hlater _ _ => .pure hlater trivial
      exact (honward.trans (honward'.trans honward'')).seen hname

/-! ## Variables -/

theorem proceeds_variableName {type : DataType} (htype : type.InRange) :
    Relates (Proceeds tokens) (variableName type) := by
  refine proceeds_iff.mpr fun session h => ?_
  unfold variableName
  rw [orderly_current_bind]
  split
  · exact .bind (orderly_flag h .missingIdentifier) fun _ _ hlater _ _ => .pure hlater trivial
  · refine .bind (orderly_declareStorage h h.seen .plainVariable htype) fun _ declared hdeclared _ _ => ?_
    refine .bind (orderly_nextToken hdeclared) fun _ next hnext _ _ => ?_
    refine .bind ((proceeds_matchToken .comma).orderly hnext) fun matched after hafter _ _ => ?_
    split
    · exact .pure hafter trivial
    · rw [orderly_check_bind]
      split
      · exact .bind (orderly_flag hafter .missingComma) fun _ _ hlater _ _ => .pure hlater trivial
      · exact .pure hafter trivial

theorem orderly_variableNames (h : session.Ordered tokens) {typeToken : Token}
    (htypeToken : session.Seen tokens typeToken) {type : DataType} (htype : type.InRange)
    (hvoid : type = .void → session.cursor.current.kind = .identifier →
      ∀ report ∈ session.diagnostics, report.location.line ≤ typeToken.line) :
    Orderly tokens (variableNames typeToken type) session fun _ _ => True := by
  unfold variableNames
  rw [orderly_check_bind]
  refine .bind (orderly_ensure h _ htypeToken (.inr fun hholds => ?_)) fun _ checked hchecked _ _ => ?_
  · obtain ⟨hname, hsame⟩ : session.cursor.current.kind = .identifier ∧ type = .void := by
      simpa using hholds
    exact hvoid hsame hname
  · refine .bind ((Relates.loop (fun _ => proceeds_variableName htype) ()).orderly hchecked)
      fun _ listed hlisted _ _ => ?_
    exact (proceeds_expect .semicolon .missingSemicolon).orderly hlisted

/-- What is found to be wrong with `void` before a name is found before anything else after the type. -/
theorem TypeRead.before {later : Session} {type : DataType} (htype : TypeRead session (some type) later)
    (h : session.Ordered tokens) (hvoid : type = .void) (hname : later.cursor.current.kind = .identifier) :
    ∀ report ∈ later.diagnostics, report.location.line ≤ session.cursor.current.line := by
  rw [htype.void (congrArg some hvoid) hname]
  exact fun _ hmem => h.line_of_report hmem

theorem proceeds_variableDeclaration : Relates (Proceeds tokens) variableDeclaration := by
  refine proceeds_iff.mpr fun session h => ?_
  unfold variableDeclaration
  rw [orderly_current_bind]
  refine .bind (orderly_requiredType h) fun type read hread honward htype => ?_
  exact orderly_variableNames hread (honward.seen h.seen) (htype.inRange type rfl) (htype.before h)

/-- To look whether a header begins changes nothing but what has been looked at. -/
theorem orderly_startsHeader (h : session.Ordered tokens) :
    Orderly tokens startsHeader session fun _ looked =>
      looked.cursor.current = session.cursor.current ∧ looked.diagnostics = session.diagnostics := by
  unfold startsHeader
  rw [orderly_check_bind]
  split
  · exact .bind (orderly_peekKind h) fun _ looked hlooked _ ⟨hcurrent, _, hdiagnostics⟩ =>
      .pure hlooked ⟨hcurrent, hdiagnostics⟩
  · exact .pure h ⟨rfl, rfl⟩

theorem proceeds_variablesOrFunction {routine : DataType → Production Unit}
    (hroutine : ∀ type, type.InRange → Relates (Proceeds tokens) (routine type)) :
    Relates (Proceeds tokens) (variablesOrFunction routine) := by
  refine proceeds_iff.mpr fun session h => ?_
  unfold variablesOrFunction
  rw [orderly_current_bind]
  refine .bind (orderly_requiredType h) fun type read hread honward htype => ?_
  refine .bind (orderly_startsHeader hread) fun starts looked hlooked honward' ⟨hcurrent, hdiagnostics⟩ => ?_
  split
  · exact (hroutine type (htype.inRange type rfl)).orderly hlooked
  · refine orderly_variableNames hlooked ((honward.trans honward').seen h.seen) (htype.inRange type rfl) ?_
    rw [hcurrent, hdiagnostics]
    exact htype.before h

/-! ## Constants -/

theorem inRange_constantType (value : ConstantValue) : (constantType value).InRange := by
  cases value <;> trivial

/-- A sign does not take an integer out of range. -/
theorem inRange_signedConstant? {sign : Option TokenKind} {value : Option TokenValue}
    (hvalue : ∀ number, value = some (.integer number) → InRange number) {constant : ConstantValue}
    (h : signedConstant? sign value = some constant) : constant.InRange := by
  unfold signedConstant? at h
  split at h
  case h_1 => exact Option.some.inj h ▸ (hvalue _ rfl).neg
  case h_3 => exact Option.some.inj h ▸ hvalue _ rfl
  case h_2 | h_4 | h_5 => exact Option.some.inj h ▸ trivial
  case h_6 => cases h

theorem proceeds_optionalSign : Relates (Proceeds tokens) optionalSign :=
  (Relates.read _).bind fun _ => (proceeds_matchAny _).bind fun _ => .ite (.pure _) (.pure none)

theorem orderly_constantValue (h : session.Ordered tokens) :
    Orderly tokens constantValue session fun found _ => ∀ value, found = some value → value.InRange := by
  unfold constantValue
  refine .bind (proceeds_optionalSign.orderly h) fun sign signed hsigned _ _ => ?_
  rw [orderly_current_bind]
  refine .bind (orderly_ensure_current hsigned _ .invalidConstant) fun _ checked hchecked _ _ => ?_
  refine .bind ((proceeds_matchAny literalKinds).orderly hchecked) fun _ later hlater _ _ => .pure hlater ?_
  have hnumber (number : Int) (hvalue : signed.cursor.current.value = some (.integer number)) : InRange number :=
    (hsigned.scanned.integer _ hsigned.current_mem number hvalue).2
  exact fun value => inRange_signedConstant? hnumber

theorem proceeds_constantDefinition {declared : Option DataType}
    (hdeclared : ∀ type, declared = some type → type.InRange) :
    Relates (Proceeds tokens) (constantDefinition declared) := by
  have htype (value : ConstantValue) : (declared.getD (constantType value)).InRange := by
    cases declared with
    | none => exact inRange_constantType value
    | some type => exact hdeclared type rfl
  refine proceeds_iff.mpr fun session h => ?_
  unfold constantDefinition
  rw [orderly_current_bind]
  split
  · exact .bind (orderly_flag h .missingIdentifier) fun _ _ hlater _ _ => .pure hlater trivial
  · refine .bind (orderly_nextToken h) fun _ next hnext honward _ => ?_
    refine .bind ((proceeds_expect .equals .missingEquals).orderly hnext) fun _ given hgiven honward' _ => ?_
    rw [orderly_current_bind]
    refine .bind (orderly_constantValue hgiven) fun value read hread honward'' hvalue => ?_
    have hname := (honward.trans (honward'.trans honward'')).seen h.seen
    have hdeclare : Orderly tokens (value.forM (declareConstant session.cursor.current given.cursor.current declared))
        read fun _ _ => True := by
      cases value with
      | none => exact .pure hread trivial
      | some value =>
          refine .bind (orderly_ensure hread _ (honward''.seen hgiven.seen) (.inl (by decide)))
            fun _ checked hchecked honward _ => ?_
          refine orderly_declare hchecked (honward.seen hname) rfl ?_ (htype value)
          rintro _ ⟨⟩
          exact hvalue value rfl
    refine .bind hdeclare fun _ entered hentered _ _ => ?_
    refine .bind ((proceeds_matchToken .comma).orderly hentered) fun _ _ hlater _ _ => ?_
    split <;> exact .pure hlater trivial

theorem proceeds_constants : Relates (Proceeds tokens) constants := by
  have htype {session : Session} (h : session.Ordered tokens) :
      Orderly tokens constantsType session fun found _ => ∀ type, found = some type → type.InRange := by
    unfold constantsType
    refine .bind (Relates.startsVariables.orderly h) fun starts looked hlooked _ _ => ?_
    split
    · exact (orderly_typeSpecifier hlooked).mono fun _ _ _ _ hfound => hfound.inRange
    · exact .pure hlooked nofun
  refine proceeds_iff.mpr fun session h => ?_
  unfold constants
  refine .bind (htype h) fun declared read hread _ hdeclared => ?_
  refine .bind ((Relates.loop (fun _ => proceeds_constantDefinition hdeclared) ()).orderly hread)
    fun _ listed hlisted _ _ => ?_
  exact (proceeds_expect .semicolon .missingSemicolon).orderly hlisted

/-! ## Names for types -/

/-- The number of elements is an integer that was scanned. -/
theorem orderly_arrayCount (h : session.Ordered tokens) :
    Orderly tokens arrayCount session fun count _ => count ≤ Lexeme.largestInteger := by
  unfold arrayCount
  rw [orderly_current_bind]
  split
  · next count hvalue =>
      refine .bind (orderly_nextToken h) fun _ _ hlater _ _ => .pure hlater ?_
      exact (h.scanned.integer _ h.current_mem _ hvalue).2
  · exact .bind (orderly_flag h .invalidConstant) fun _ _ hlater _ _ => .pure hlater (Nat.zero_le _)

theorem orderly_arrayOf (h : session.Ordered tokens) (element : DataType) :
    Orderly tokens (arrayOf element) session fun type _ => type.InRange := by
  unfold arrayOf
  cases element.scalar? with
  | none => exact .bind (orderly_flag h .invalidType) fun _ _ hlater _ _ => .pure hlater trivial
  | some element =>
      refine .bind (orderly_arrayCount h) fun count counted hcounted _ hcount => ?_
      exact .bind ((proceeds_expect .rightBracket .unexpectedToken).orderly hcounted)
        fun _ _ hlater _ _ => .pure hlater hcount

theorem proceeds_typeDefinition : Relates (Proceeds tokens) typeDefinition := by
  have harray {session : Session} (h : session.Ordered tokens) {type : DataType} (htype : type.InRange) :
      Orderly tokens (arraySuffix type) session fun type _ => type.InRange := by
    unfold arraySuffix
    refine .bind ((proceeds_matchToken .leftBracket).orderly h) fun matched opened hopened _ _ => ?_
    split
    · exact orderly_arrayOf hopened type
    · exact .pure hopened htype
  have hname {session : Session} (h : session.Ordered tokens) {type : DataType} (htype : type.InRange) :
      Orderly tokens (typeName type) session fun _ _ => True := by
    unfold typeName
    rw [orderly_current_bind]
    split
    · refine .bind (orderly_nextToken h) fun _ next hnext honward _ => ?_
      refine .bind (harray hnext htype) fun type read hread honward' htype => ?_
      exact orderly_declare hread ((honward.trans honward').seen h.seen) rfl (by rintro _ ⟨⟩) htype
    · exact (orderly_flag h .missingIdentifier).mono fun _ _ _ _ _ => trivial
  refine proceeds_iff.mpr fun session h => ?_
  unfold typeDefinition
  refine .bind (orderly_requiredType h) fun type read hread _ htype => ?_
  refine .bind (hname hread (htype.inRange type rfl)) fun _ named hnamed _ _ => ?_
  exact (proceeds_expect .semicolon .missingSemicolon).orderly hnamed

end Production

end FrontEnd
