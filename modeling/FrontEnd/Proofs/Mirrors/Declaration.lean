import FrontEnd.Compile.Declaration
import FrontEnd.Proofs.Mirrors

/-!
# Declarations side by side

Every production for declarations of types, variables and constants is mirrored.  A declaration reads of a
token its kind, its value and its text in lower case, and nothing else; the record type that a name stands
for has that name in lower case too.
-/

namespace FrontEnd.Production

open Coupling

variable {c : Coupling}

/-! ## Types -/

theorem mirrors_typeNamed {name name' : String} (hname : Text.lower name = Text.lower name') :
    c.Mirrors Eq (typeNamed name) (typeNamed name') := by
  refine mirrors_table.bind fun table table' htable => .pure ?_
  have hkind (id : EntryId) : (table.entry id).kind = (table'.entry id).kind :=
    (htable.entry id).kind_eq
  simp only [htable.lookup_eq hname, hkind]

theorem mirrors_startsVariables : c.Mirrors Eq startsVariables startsVariables := by
  refine mirrors_current.bind fun token token' htoken => ?_
  rw [c.kind_eq htoken]
  refine .ite (fun _ => .pure rfl) fun _ => .ite (fun _ => ?_) fun _ => .pure rfl
  exact (mirrors_typeNamed (c.lower_eq htoken)).bind_eq fun _ => .pure rfl

theorem mirrors_namedType : c.Mirrors Eq namedType namedType := by
  refine mirrors_current.bind fun token token' htoken => ?_
  refine (mirrors_typeNamed (c.lower_eq htoken)).bind_eq fun found => ?_
  cases found with
  | none => exact .pure rfl
  | some id =>
      refine (mirrors_addLine id htoken).bind_eq fun _ => ?_
      refine (mirrors_entry id).bind fun entry entry' hentry => ?_
      rw [hentry.resolvedType_eq]
      exact mirrors_nextToken.bind fun _ _ _ => .pure rfl

theorem mirrors_typeSpecifier : c.Mirrors Eq typeSpecifier typeSpecifier := by
  refine mirrors_currentKind.bind_eq fun kind => ?_
  split
  case h_7 | h_8 =>
    refine mirrors_nextToken.bind fun name name' hname => ?_
    rw [c.kind_eq hname, c.lower_eq hname]
    exact .ite (fun _ => mirrors_nextToken.bind fun _ _ _ => .pure rfl)
      fun _ => (mirrors_flag _).bind_eq fun _ => .pure rfl
  case h_9 => exact .pure rfl
  all_goals exact mirrors_namedType

theorem mirrors_requiredType : c.Mirrors Eq requiredType requiredType := by
  refine mirrors_typeSpecifier.bind_eq fun found => ?_
  cases found with
  | some type => exact .pure rfl
  | none => exact (mirrors_flag _).bind_eq fun _ => .pure rfl

theorem mirrors_declare {name name' : Token} (hname : c.token name name') (definition : Definition)
    (type : DataType) : c.Mirrors Eq (declare name definition type) (declare name' definition type) := by
  refine (mirrors_enterLocal (c.lower_eq hname)).bind_eq fun entered => ?_
  cases entered with
  | some id => exact (mirrors_define id definition _).bind_eq fun _ => mirrors_addLine id hname
  | none => exact mirrors_flagAt hname _

/-! ## Variables -/

theorem mirrors_takeSlot : c.Mirrors Eq (onTable (·.takeSlot)) (onTable (·.takeSlot)) :=
  mirrors_onTable fun _ _ h => ⟨h.takeSlot_eq, h.takeSlot⟩

theorem mirrors_declareStorage {name name' : Token} (hname : c.token name name') (kind : DefinitionKind)
    (type : DataType) :
    c.Mirrors Eq (declareStorage name kind type) (declareStorage name' kind type) := by
  refine (mirrors_enterLocal (c.lower_eq hname)).bind_eq fun entered => ?_
  cases entered with
  | none => exact (mirrors_flagAt hname _).bind_eq fun _ => .pure rfl
  | some id =>
      refine mirrors_takeSlot.bind_eq fun slot => ?_
      refine (mirrors_define id _ _).bind_eq fun _ => ?_
      exact (mirrors_addLine id hname).bind_eq fun _ => .pure rfl

theorem mirrors_variableName (type : DataType) :
    c.Mirrors (Turned Eq) (variableName type) (variableName type) := by
  refine mirrors_current.bind fun name name' hname => ?_
  rw [c.kind_eq hname]
  refine .ite (fun _ => (mirrors_flag _).bind_eq fun _ => .pure (.done rfl)) fun _ => ?_
  refine (mirrors_declareStorage hname _ type).bind_eq fun _ => ?_
  refine mirrors_nextToken.bind fun _ _ _ => ?_
  refine (mirrors_matchToken _).bind_eq fun _ => .ite (fun _ => .pure (.yield rfl)) fun _ => ?_
  refine (mirrors_check _).bind_eq fun _ => .ite (fun _ => ?_) fun _ => .pure (.done rfl)
  exact (mirrors_flag _).bind_eq fun _ => .pure (.yield rfl)

theorem mirrors_variableNames {typeToken typeToken' : Token} (htoken : c.token typeToken typeToken')
    (type : DataType) : c.Mirrors Eq (variableNames typeToken type) (variableNames typeToken' type) := by
  refine (mirrors_check _).bind_eq fun isName => ?_
  refine (mirrors_ensure rfl htoken _).bind_eq fun _ => ?_
  refine (mirrors_loop (fun _ _ _ => mirrors_variableName type) rfl).bind_eq fun _ => ?_
  exact mirrors_expect _ _

theorem mirrors_variableDeclaration : c.Mirrors Eq variableDeclaration variableDeclaration :=
  mirrors_current.bind fun _ _ htoken => mirrors_requiredType.bind_eq fun type =>
    mirrors_variableNames htoken type

theorem mirrors_startsHeader : c.Mirrors Eq startsHeader startsHeader := by
  have hlook : startsHeader = currentKind >>= fun kind =>
      if kind == .identifier then do return (← peekKind) == .leftParen else pure false := rfl
  rw [hlook]
  refine mirrors_currentKind_bind fun kind => ?_
  by_cases hkind : kind = .identifier
  · subst hkind
    exact .inr ⟨by simp, _, rfl, fun _ => .pure rfl⟩
  · exact .inl (.ite (fun hsame => absurd (beq_iff_eq.mp hsame) hkind) fun _ => .pure rfl)

theorem mirrors_variablesOrFunction {routine : DataType → Production Unit}
    (hroutine : ∀ type, c.Mirrors Eq (routine type) (routine type)) :
    c.Mirrors Eq (variablesOrFunction routine) (variablesOrFunction routine) := by
  refine mirrors_current.bind fun typeToken typeToken' htoken => ?_
  refine mirrors_requiredType.bind_eq fun type => ?_
  exact mirrors_startsHeader.bind_eq fun _ => .ite (fun _ => hroutine type)
    fun _ => mirrors_variableNames htoken type

/-! ## Constants -/

theorem mirrors_optionalSign : c.Mirrors Eq optionalSign optionalSign :=
  mirrors_currentKind.bind_eq fun _ => (mirrors_matchAny _).bind_eq fun _ =>
    .ite (fun _ => .pure rfl) fun _ => .pure rfl

theorem mirrors_constantValue : c.Mirrors Eq constantValue constantValue := by
  refine mirrors_optionalSign.bind_eq fun sign => ?_
  refine mirrors_current.bind fun token token' htoken => ?_
  rw [c.value_eq htoken]
  refine (mirrors_ensure rfl htoken _).bind_eq fun _ => ?_
  exact (mirrors_matchAny _).bind_eq fun _ => .pure rfl

theorem mirrors_declareConstant {name name' valueToken valueToken' : Token} (hname : c.token name name')
    (hvalue : c.token valueToken valueToken') (declared : Option DataType) (value : ConstantValue) :
    c.Mirrors Eq (declareConstant name valueToken declared value)
      (declareConstant name' valueToken' declared value) :=
  (mirrors_ensure rfl hvalue _).bind_eq fun _ => mirrors_declare hname _ _

theorem mirrors_constantDefinition (declared : Option DataType) :
    c.Mirrors (Turned Eq) (constantDefinition declared) (constantDefinition declared) := by
  refine mirrors_current.bind fun name name' hname => ?_
  rw [c.kind_eq hname]
  refine .ite (fun _ => (mirrors_flag _).bind_eq fun _ => .pure (.done rfl)) fun _ => ?_
  refine mirrors_nextToken.bind fun _ _ _ => ?_
  refine (mirrors_expect _ _).bind_eq fun _ => ?_
  refine mirrors_current.bind fun valueToken valueToken' hvalue => ?_
  refine mirrors_constantValue.bind_eq fun value => ?_
  have hdeclares : c.Mirrors Eq (value.forM (declareConstant name valueToken declared))
      (value.forM (declareConstant name' valueToken' declared)) := by
    cases value with
    | none => exact .pure rfl
    | some value => exact mirrors_declareConstant hname hvalue declared value
  refine hdeclares.bind_eq fun _ => (mirrors_matchToken _).bind_eq fun _ => ?_
  exact .ite (fun _ => .pure (.yield rfl)) fun _ => .pure (.done rfl)

theorem mirrors_constantsType : c.Mirrors Eq constantsType constantsType :=
  mirrors_startsVariables.bind_eq fun _ => .ite (fun _ => mirrors_typeSpecifier) fun _ => .pure rfl

theorem mirrors_constants : c.Mirrors Eq constants constants := by
  refine mirrors_constantsType.bind_eq fun declared => ?_
  refine (mirrors_loop (fun _ _ _ => mirrors_constantDefinition declared) rfl).bind_eq fun _ => ?_
  exact mirrors_expect _ _

/-! ## Names for types -/

theorem mirrors_arrayCount : c.Mirrors Eq arrayCount arrayCount := by
  refine mirrors_current.bind fun token token' htoken => ?_
  rw [c.value_eq htoken]
  split
  · exact mirrors_nextToken.bind fun _ _ _ => .pure rfl
  · exact (mirrors_flag _).bind_eq fun _ => .pure rfl

theorem mirrors_arrayOf (element : DataType) : c.Mirrors Eq (arrayOf element) (arrayOf element) := by
  unfold arrayOf
  cases element.scalar? with
  | none => exact (mirrors_flag _).bind_eq fun _ => .pure rfl
  | some scalar =>
      refine mirrors_arrayCount.bind_eq fun count => ?_
      exact (mirrors_expect _ _).bind_eq fun _ => .pure rfl

theorem mirrors_arraySuffix (type : DataType) : c.Mirrors Eq (arraySuffix type) (arraySuffix type) :=
  (mirrors_matchToken _).bind_eq fun _ => .ite (fun _ => mirrors_arrayOf type) fun _ => .pure rfl

theorem mirrors_typeName (type : DataType) : c.Mirrors Eq (typeName type) (typeName type) := by
  refine mirrors_current.bind fun name name' hname => ?_
  rw [c.kind_eq hname]
  refine .ite (fun _ => ?_) fun _ => mirrors_flag _
  refine mirrors_nextToken.bind fun _ _ _ => ?_
  exact (mirrors_arraySuffix type).bind_eq fun type => mirrors_declare hname _ type

theorem mirrors_typeDefinition : c.Mirrors Eq typeDefinition typeDefinition :=
  mirrors_requiredType.bind_eq fun type => (mirrors_typeName type).bind_eq fun _ =>
    mirrors_expect _ _

end FrontEnd.Production
