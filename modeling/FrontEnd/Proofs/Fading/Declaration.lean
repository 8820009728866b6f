import FrontEnd.Compile.Declaration
import FrontEnd.Proofs.Fading

/-!
# Types that fade in declarations

A declaration of variables or constants does the same in two runs from tables that differ in faded types.  The types
that it gives are those of words for types or of names for them, and such a name keeps its type.
-/

namespace FrontEnd.Production

open Coupling

variable {calm : Prop}

/-! ## Types -/

/-- A name stands for a type just if it does in the other table, and then for the same one. -/
theorem typeNamed_fades {table table' : SymbolTable} (h : table.Fades table') (name : String) :
    (table'.lookup name).filter (fun id => (table'.entry id).kind == .type) =
      (table.lookup name).filter fun id => (table.entry id).kind == .type := by
  have hkind (id : EntryId) : (table'.entry id).kind = (table.entry id).kind := (h.entry id).kind_eq
  simp only [h.lookup_eq, hkind]

theorem fading_typeNamed (name : String) : Fading calm Eq (typeNamed name) (typeNamed name) :=
  fading_table.bind fun _ _ htable => .pure (typeNamed_fades htable name).symm

theorem fading_startsVariables : Fading calm Eq startsVariables startsVariables :=
  fading_current.bind_eq fun token => .ite (fun _ => .pure rfl) fun _ =>
    .ite (fun _ => (fading_typeNamed token.text).bind_eq fun _ => .pure rfl) fun _ => .pure rfl

/-- The type that a name stands for is the one that it had before its use was recorded. -/
theorem namedType_eq : namedType = (do
    let token ← current
    let table ← table
    match (table.lookup token.text).filter fun id => (table.entry id).kind == .type with
    | none => return none
    | some id =>
      changeEntry id (·.addLine token.line)
      let _ ← nextToken
      return some (table.entry id).resolvedType) := by
  funext session
  have hkept (id : EntryId) :
      ((session.table.modifyEntry id (·.addLine session.cursor.current.line)).entry id).resolvedType =
        (session.table.entry id).resolvedType := by
    rw [SymbolTable.entry_modifyEntry]
    split
    · exact (Entry.agrees_addLine _ _).resolvedType
    · rfl
  show (match (session.table.lookup session.cursor.current.text).filter
        fun id => (session.table.entry id).kind == .type with
    | none => _
    | some id => _ : Production (Option DataType)) session =
    (match (session.table.lookup session.cursor.current.text).filter
        fun id => (session.table.entry id).kind == .type with
    | none => _
    | some id => _ : Production (Option DataType)) session
  cases (session.table.lookup session.cursor.current.text).filter
    fun id => (session.table.entry id).kind == .type with
  | none => rfl
  | some id =>
      dsimp only
      rw [← hkept id]
      rfl

theorem fading_namedType : Fading calm Eq namedType namedType := by
  rw [namedType_eq]
  refine fading_current.bind_eq fun token => fading_table.bind fun table table' htable => ?_
  rw [typeNamed_fades htable]
  cases hfound : (table.lookup token.text).filter fun id => (table.entry id).kind == .type with
  | none => exact .pure rfl
  | some id =>
      have hkind : (table.entry id).kind = .type := by simpa using (Option.filter_eq_some_iff.mp hfound).2
      have htype : (table'.entry id).resolvedType = (table.entry id).resolvedType :=
        (htable.entry id).resolvedType_eq (by simp [hkind])
      refine (fading_addLine id token.line).bind_eq fun _ => fading_nextToken.bind_eq fun _ => .pure ?_
      rw [htype]

theorem fading_typeSpecifier : Fading calm Eq typeSpecifier typeSpecifier := by
  refine fading_currentKind.bind_eq fun kind => ?_
  split
  case h_7 | h_8 =>
    refine fading_nextToken.bind_eq fun name => .ite (fun _ => ?_) fun _ => ?_
    · exact fading_nextToken.bind_eq fun _ => .pure rfl
    · exact (fading_flag _).bind_eq fun _ => .pure rfl
  case h_9 => exact .pure rfl
  all_goals exact fading_namedType

theorem fading_requiredType : Fading calm Eq requiredType requiredType := by
  refine fading_typeSpecifier.bind_eq fun found => ?_
  cases found with
  | some type => exact .pure rfl
  | none => exact (fading_flag _).bind_eq fun _ => .pure rfl

theorem fading_declare (name : Token) (definition : Definition) (type : DataType) :
    Fading calm Eq (declare name definition type) (declare name definition type) := by
  refine (fading_enterLocal name.text).bind_eq fun entered => ?_
  cases entered with
  | some id =>
      exact (fading_define id definition (some type)).bind_eq fun _ => fading_addLine id name.line
  | none => exact fading_flagAt name _

/-! ## Variables -/

theorem fading_declareStorage (name : Token) (kind : DefinitionKind) (type : DataType) :
    Fading calm Eq (declareStorage name kind type) (declareStorage name kind type) := by
  refine (fading_enterLocal name.text).bind_eq fun entered => ?_
  cases entered with
  | none => exact (fading_flagAt name _).bind_eq fun _ => .pure rfl
  | some id =>
      refine fading_takeSlot.bind_eq fun slot => ?_
      refine (fading_define id (.ofStorage kind slot) (some type)).bind_eq fun _ => ?_
      exact (fading_addLine id name.line).bind_eq fun _ => .pure rfl

theorem fading_variableName (type : DataType) :
    Fading calm (Turned Eq) (variableName type) (variableName type) := by
  refine fading_current.bind_eq fun name => .ite (fun _ => ?_) fun _ => ?_
  · exact (fading_flag _).bind_eq fun _ => .pure (.done rfl)
  · refine (fading_declareStorage name .plainVariable type).bind_eq fun _ => ?_
    refine fading_nextToken.bind_eq fun _ => ?_
    refine (fading_matchToken _).bind_eq fun _ => .ite (fun _ => .pure (.yield rfl)) fun _ => ?_
    refine (fading_check _).bind_eq fun _ => .ite (fun _ => ?_) fun _ => .pure (.done rfl)
    exact (fading_flag _).bind_eq fun _ => .pure (.yield rfl)

theorem fading_variableNames (typeToken : Token) (type : DataType) :
    Fading calm Eq (variableNames typeToken type) (variableNames typeToken type) := by
  refine (fading_check _).bind_eq fun isName => (fading_ensure _ typeToken _).bind_eq fun _ => ?_
  exact (fading_loop (fun _ _ _ => fading_variableName type) rfl).bind_eq fun _ => fading_expect _ _

theorem fading_variableDeclaration : Fading calm Eq variableDeclaration variableDeclaration :=
  fading_current.bind_eq fun typeToken => fading_requiredType.bind_eq fun type =>
    fading_variableNames typeToken type

/-! ## Constants -/

theorem fading_optionalSign : Fading calm Eq optionalSign optionalSign :=
  fading_currentKind.bind_eq fun _ => (fading_matchAny _).bind_eq fun _ =>
    .ite (fun _ => .pure rfl) fun _ => .pure rfl

theorem fading_constantValue : Fading calm Eq constantValue constantValue :=
  fading_optionalSign.bind_eq fun _ => fading_current.bind_eq fun token =>
    (fading_ensure _ token _).bind_eq fun _ => (fading_matchAny _).bind_eq fun _ => .pure rfl

theorem fading_declareConstant (name valueToken : Token) (declared : Option DataType) (value : ConstantValue) :
    Fading calm Eq (declareConstant name valueToken declared value)
      (declareConstant name valueToken declared value) :=
  (fading_ensure _ valueToken _).bind_eq fun _ => fading_declare name _ _

theorem fading_constantDefinition (declared : Option DataType) :
    Fading calm (Turned Eq) (constantDefinition declared) (constantDefinition declared) := by
  refine fading_current.bind_eq fun name => .ite (fun _ => ?_) fun _ => ?_
  · exact (fading_flag _).bind_eq fun _ => .pure (.done rfl)
  · refine fading_nextToken.bind_eq fun _ => (fading_expect _ _).bind_eq fun _ => ?_
    refine fading_current.bind_eq fun valueToken => fading_constantValue.bind_eq fun value => ?_
    have hdeclares : Fading calm Eq (value.forM (declareConstant name valueToken declared))
        (value.forM (declareConstant name valueToken declared)) := by
      cases value with
      | none => exact .pure rfl
      | some value => exact fading_declareConstant name valueToken declared value
    refine hdeclares.bind_eq fun _ => (fading_matchToken _).bind_eq fun _ => ?_
    exact .ite (fun _ => .pure (.yield rfl)) fun _ => .pure (.done rfl)

theorem fading_constantsType : Fading calm Eq constantsType constantsType :=
  fading_startsVariables.bind_eq fun _ => .ite (fun _ => fading_typeSpecifier) fun _ => .pure rfl

theorem fading_constants : Fading calm Eq constants constants := by
  refine fading_constantsType.bind_eq fun declared => ?_
  refine (fading_loop (fun _ _ _ => fading_constantDefinition declared) rfl).bind_eq fun _ => ?_
  exact fading_expect _ _

end FrontEnd.Production
