import FrontEnd.Proofs.Nesting

/-!
# Programs without errors are balanced

Of a source in which no error is found, all parentheses, brackets and braces are nested (`compile_nested`).

## Strategy

Every production for a whole construct leaves the same delimiters open (`Level`), and those for the inside of
a pair close what was opened before them (`Nests`).  This section goes through the grammar.  Where a token is
consumed whatever it is, its kind has been looked at before, an error has been reported, or, for the number of
elements of an array, it has a value.  So the productions that begin with a token of a known kind are said to
be level where that token is current, and all others wherever they begin.

At the end of the file nothing is left to be read, and so nothing is left open.
-/

namespace FrontEnd.Production

open Session

variable {α : Type} {session : Session}

/-! ## Productions that read nothing -/

theorem rests_onTable (change : SymbolTable → α × SymbolTable) : Relates Rests (onTable change) := by
  refine ⟨fun session => ?_⟩
  exact ⟨rfl, List.prefix_refl _⟩

theorem rests_changeEntry (id : EntryId) (change : Entry → Entry) :
    Relates Rests (changeEntry id change) := by
  refine ⟨fun session => ?_⟩
  exact ⟨rfl, List.prefix_refl _⟩

theorem rests_typeNamed (name : String) : Relates Rests (typeNamed name) :=
  Relates.read _

theorem rests_startsVariables : Relates Rests startsVariables :=
  (Relates.read _).bind fun token =>
    .ite (.pure _) (.ite ((rests_typeNamed token.text).bind fun _ => .pure _) (.pure _))

theorem rests_declare (name : Token) (definition : Definition) (type : DataType) :
    Relates Rests (declare name definition type) := by
  refine (rests_onTable _).bind fun found => ?_
  cases found with
  | some id => exact (rests_changeEntry id _).bind fun _ => rests_changeEntry id _
  | none => exact rests_flagAt name _

theorem rests_declareStorage (name : Token) (kind : DefinitionKind) (type : DataType) :
    Relates Rests (declareStorage name kind type) := by
  refine (rests_onTable _).bind fun found => ?_
  cases found with
  | some id =>
      refine (rests_onTable _).bind fun slot => (rests_changeEntry id _).bind fun _ => ?_
      exact (rests_changeEntry id _).bind fun _ => .pure _
  | none => exact (rests_flagAt name _).bind fun _ => .pure _

theorem rests_declareConstant (name valueToken : Token) (declared : Option DataType)
    (value : ConstantValue) : Relates Rests (declareConstant name valueToken declared value) :=
  (rests_ensure _ valueToken _).bind fun _ => rests_declare name _ _

theorem rests_binaryNode (operator : NodeKind) (line : Nat) (left right : Node) :
    Relates Rests (binaryNode operator line left right) := by
  unfold binaryNode
  cases Operator.resultType? operator left.type right.type with
  | some type => exact .pure _
  | none => exact (rests_flag _).bind fun _ => .pure _

theorem rests_signed (sign : Token) (operand : Node) : Relates Rests (signed sign operand) :=
  (rests_ensure _ sign _).bind fun _ => .ite (.pure _) (.pure _)

theorem rests_negated (mark : Token) (operand : Node) : Relates Rests (negated mark operand) :=
  (rests_ensure _ mark _).bind fun _ => .pure _

theorem rests_resolveIdentifier : Relates Rests resolveIdentifier := by
  have hentry (name : Token) : Relates Rests (identifierEntry name) := by
    refine (Relates.read _).bind fun found => ?_
    cases found with
    | some id => exact (Relates.read _).bind fun _ => (rests_ensure _ name _).bind fun _ => .pure id
    | none =>
        refine (rests_flagAt name _).bind fun _ => (rests_onTable _).bind fun id => ?_
        exact (rests_changeEntry id _).bind fun _ => .pure id
  exact (Relates.read _).bind fun name => (hentry name).bind fun id =>
    (rests_changeEntry id _).bind fun _ => .pure id

/-! ## Types -/

theorem level_namedType (hkind : session.cursor.current.kind.isPlain = true) :
    Leads namedType session (fun _ => True) fun _ later => session.Level later := by
  rw [namedType, leads_bind, leads_current]
  refine Leads.rests (rests_typeNamed _) fun found between hbetween => ?_
  cases found with
  | none => exact refl between
  | some id =>
      refine Leads.rests (rests_changeEntry id _) fun _ changed hchanged => ?_
      rw [leads_bind, leads_entry]
      refine (level_nextToken fun _ _ => ?_).bind fun _ later hlater => hlater
      rwa [hchanged, hbetween]

theorem level_typeSpecifier : Relates Level typeSpecifier := by
  refine ⟨fun session => ?_⟩
  rw [typeSpecifier, leads_bind, leads_currentKind]
  split
  case h_1 hkind | h_2 hkind | h_3 hkind | h_4 hkind | h_5 hkind | h_6 hkind =>
    exact level_namedType (by rw [hkind]; rfl)
  case h_7 hkind | h_8 hkind =>
    refine (level_nextToken_of_kind hkind rfl).nests_of_current (current_nextToken session) ?_
    intro name between hname
    split
    · next hidentifier =>
        have hstill : between.cursor.current.kind = .identifier := hname ▸ eq_of_beq hidentifier
        exact (level_nextToken_of_kind hstill rfl).bind fun _ later hlater => hlater
    · exact (nests_of_flag _ (.pure _)).leads between
  case h_9 => exact refl session

theorem level_requiredType : Relates Level requiredType := by
  refine level_typeSpecifier.bind fun found => ?_
  cases found with
  | some type => exact .pure type
  | none => exact (rests_flag _).level.bind fun _ => .pure _

/-! ## Declarations -/

theorem level_variableName (type : DataType) : Relates Level (variableName type) := by
  refine ⟨fun session => ?_⟩
  rw [variableName, leads_bind, leads_current]
  split
  · exact ((rests_flag _).level.bind fun _ => .pure _).leads session
  · next hkind =>
      refine Leads.rests (rests_declareStorage _ _ type) fun _ between hbetween => ?_
      have hstill : between.cursor.current.kind = .identifier := by simpa [hbetween] using hkind
      refine (level_nextToken_of_kind hstill rfl).nests fun _ => ?_
      refine (level_matchToken .comma rfl).bind fun _ => .ite (.pure _) ?_
      exact (Relates.read _).bind fun _ => .ite ((rests_flag _).level.bind fun _ => .pure _) (.pure _)

theorem level_variableNames (typeToken : Token) (type : DataType) :
    Relates Level (variableNames typeToken type) :=
  (Relates.read _).bind fun _ => (rests_ensure _ typeToken _).level.bind fun _ =>
    (Relates.loop (fun _ => level_variableName type) ()).bind fun _ => level_expect .semicolon rfl _

theorem level_variableDeclaration : Relates Level variableDeclaration :=
  (Relates.read _).bind fun typeToken => level_requiredType.bind fun type =>
    level_variableNames typeToken type

theorem level_constantValue : Relates Level constantValue := by
  have hsign : Relates Level optionalSign :=
    (Relates.read _).bind fun _ => (level_matchAny (by decide)).bind fun _ => .ite (.pure _) (.pure _)
  refine hsign.bind fun _ => (Relates.read _).bind fun token => ?_
  exact (rests_ensure _ token _).level.bind fun _ => (level_matchAny (by decide)).bind fun _ => .pure _

theorem level_constantDefinition (declared : Option DataType) :
    Relates Level (constantDefinition declared) := by
  refine ⟨fun session => ?_⟩
  rw [constantDefinition, leads_bind, leads_current]
  split
  · exact ((rests_flag _).level.bind fun _ => .pure _).leads session
  · next hkind =>
      have hname : session.cursor.current.kind = .identifier := by simpa using hkind
      refine (level_nextToken_of_kind hname rfl).nests fun _ => ?_
      refine (level_expect .equals rfl _).bind fun _ => (Relates.read _).bind fun valueToken => ?_
      refine level_constantValue.bind fun value => ?_
      refine (Relates.forM (fun value => rests_declareConstant _ valueToken declared value) value).level.bind ?_
      exact fun _ => (level_matchToken .comma rfl).bind fun _ => .ite (.pure _) (.pure _)

theorem level_constants : Relates Level constants := by
  have htype : Relates Level constantsType :=
    rests_startsVariables.level.bind fun _ => .ite level_typeSpecifier (.pure _)
  refine htype.bind fun declared => ?_
  exact (Relates.loop (fun _ => level_constantDefinition declared) ()).bind fun _ => level_expect .semicolon rfl _

/-- A token with a value is no delimiter. -/
theorem level_arrayCount : Relates Level arrayCount := by
  refine ⟨fun session => ?_⟩
  rw [arrayCount, leads_bind, leads_current]
  split
  · next hvalue =>
      refine (level_nextToken fun hcandid _ => ?_).bind fun _ later hlater => hlater
      have hvalued := hcandid.valued _ session.cursor.answers_current
      exact TokenKind.isPlain_of_valued (hvalued (by simp [hvalue]))
  · exact ((rests_flag _).level.bind fun _ => .pure _).leads session

/-- The bound of an array closes the bracket before it. -/
theorem nests_arrayOf (element : DataType) : Relates (Nests [.bracket] []) (arrayOf element) := by
  unfold arrayOf
  cases element.scalar? with
  | none => exact nests_of_flag _ (.pure _)
  | some scalar =>
      exact level_arrayCount.inside.nests fun _ => (nests_close .bracket _).nests fun _ => .pure _

theorem level_arraySuffix (type : DataType) : Relates Level (arraySuffix type) := by
  have hnone : Relates Level (pure type) := .pure type
  exact nests_of_matchToken .leftBracket (nests_arrayOf type) hnone

theorem level_typeDefinition : Relates Level typeDefinition := by
  have hname (type : DataType) : Relates Level (typeName type) := by
    refine ⟨fun session => ?_⟩
    rw [typeName, leads_bind, leads_current]
    split
    · next hkind =>
        refine (level_nextToken_of_kind (eq_of_beq hkind) rfl).nests fun _ => ?_
        exact (level_arraySuffix type).bind fun _ => (rests_declare _ _ _).level
    · exact (rests_flag _).level.leads session
  exact level_requiredType.bind fun type => (hname type).bind fun _ => level_expect .semicolon rfl _

/-! ## Expressions -/

/-- No operator is a delimiter. -/
theorem isPlain_of_lookup {level : OperatorLevel} (hlevel : level ∈ Operator.levels) {kind : TokenKind}
    {operator : NodeKind} (h : level.lookup kind = some operator) : kind.isPlain = true := by
  have hall : ∀ level ∈ Operator.levels, ∀ kind ∈ TokenKind.all, (level.lookup kind).isSome = true →
      kind.isPlain = true := by decide
  exact hall level hlevel kind (TokenKind.mem_all kind) (by simp [h])

theorem level_operations {operand : Production Node} (h : Relates Level operand)
    {levels : List OperatorLevel} (hlevels : ∀ level ∈ levels, level ∈ Operator.levels) :
    Relates Level (operations operand levels) := by
  induction levels with
  | nil => exact h
  | cons level tighter ih =>
      have hlevel := hlevels level (List.mem_cons_self ..)
      have htighter := ih fun other hmem => hlevels other (List.mem_cons_of_mem _ hmem)
      refine htighter.bind fun left => .loop (fun left => ⟨fun session => ?_⟩) left
      rw [operation, leads_bind, leads_current]
      split
      · exact refl session
      · next operator hlookup =>
          have hplain := isPlain_of_lookup hlevel hlookup
          refine (level_nextToken fun _ _ => hplain).nests fun _ => ?_
          exact htighter.bind fun right => (rests_binaryNode operator _ left right).level.bind fun _ => .pure _

theorem level_operandWithin {factor : Production Node} (h : Relates Level factor) (depth : Nat) :
    Relates Level (operandWithin factor depth) := by
  induction depth with
  | zero => exact .throw .unfinished
  | succ depth ih =>
      refine ⟨fun session => ?_⟩
      rw [operandWithin, leads_bind, leads_current]
      split
      case h_1 hkind | h_2 hkind =>
        refine (level_nextToken_of_kind hkind rfl).nests fun _ => ?_
        exact ih.bind fun operand => (rests_signed _ operand).level
      case h_3 hkind =>
        refine (level_nextToken_of_kind hkind rfl).nests fun _ => ?_
        exact ih.bind fun operand => (rests_negated _ operand).level
      case h_4 => exact h.leads session

theorem level_variableReference (hkind : session.cursor.current.kind = .identifier) :
    Leads variableReference session (fun _ => True) fun _ later => session.Level later := by
  refine Leads.rests rests_resolveIdentifier fun id between hbetween => ?_
  rw [leads_bind, leads_entry]
  have hstill : between.cursor.current.kind = .identifier := by rw [hbetween, hkind]
  exact (level_nextToken_of_kind hstill rfl).bind fun _ later hlater => hlater

theorem level_namedConstant (hkind : session.cursor.current.kind = .identifier) (id : EntryId)
    (value : ConstantValue) :
    Leads (namedConstant id value) session (fun _ => True) fun _ later => session.Level later := by
  rw [namedConstant, leads_bind, leads_current]
  refine Leads.rests (rests_changeEntry id _) fun _ between hbetween => ?_
  rw [leads_bind, leads_entry]
  have hstill : between.cursor.current.kind = .identifier := by rw [hbetween, hkind]
  exact (level_nextToken_of_kind hstill rfl).bind fun _ later hlater => hlater

theorem level_arguments {nested : Production Node} (h : Relates Level nested) (formals : List DataType) :
    Relates Level (arguments nested formals) := by
  refine (Relates.read _).bind fun _ => .ite (.pure _) (.loop (fun arguments => ?_) _)
  refine (Relates.read _).bind fun token => h.bind fun value => ?_
  refine (rests_ensure _ token _).level.bind fun _ => ?_
  exact (level_matchToken .comma rfl).bind fun _ => .ite (.pure _) (.pure _)

theorem level_call {nested : Production Node} (h : Relates Level nested)
    (hkind : session.cursor.current.kind = .identifier) :
    Leads (call nested) session (fun _ => True) fun _ later => session.Level later := by
  rw [call, leads_bind, leads_current]
  refine Leads.rests rests_resolveIdentifier fun id between hbetween => ?_
  have hstill : between.cursor.current.kind = .identifier := by rw [hbetween, hkind]
  refine (level_nextToken_of_kind hstill rfl).nests fun _ => ?_
  refine (Relates.read _).bind fun table => nests_of_matchToken .leftParen ?_ ?_
  · refine (level_arguments h _).inside.nests fun _ => (nests_close .paren _).nests fun _ => ?_
    exact (rests_ensure _ _ _).level.bind fun _ => .pure _
  · exact nests_of_flag _ (.pure _)

theorem level_identifierFactor {nested : Production Node} (h : Relates Level nested)
    (hkind : session.cursor.current.kind = .identifier) :
    Leads (identifierFactor nested) session (fun _ => True) fun _ later => session.Level later := by
  rw [identifierFactor, leads_bind, leads_current, leads_bind, leads_lookup]
  split
  · exact level_variableReference hkind
  · next id hid =>
      rw [leads_bind, leads_entry]
      split
      · exact level_namedConstant hkind id _
      case h_2 | h_3 => exact level_call h hkind
      case h_4 | h_5 => exact (nests_of_flag _ (keeps_nextToken.bind fun _ => .pure _)).leads session
      · exact level_variableReference hkind

theorem isPlain_of_literalNode? {token : Token} {node : Node} (h : literalNode? token = some node) :
    token.kind.isPlain = true := by
  unfold literalNode? at h
  split at h
  case h_1 hkind _ | h_2 hkind _ | h_3 hkind _ | h_4 hkind _ => rw [hkind]; rfl
  case h_5 => simp at h

theorem level_factor {nested : Production Node} (h : Relates Level nested) :
    Relates Level (factor nested) := by
  refine ⟨fun session => ?_⟩
  rw [factor, leads_bind, leads_current]
  split
  · next node hliteral =>
      have hplain := isPlain_of_literalNode? hliteral
      exact (level_nextToken fun _ _ => hplain).bind fun _ later hlater => hlater
  · split
    · next hkind => exact level_identifierFactor h hkind
    · next hkind =>
        refine (nests_nextToken_of_kind hkind).nests fun _ => ?_
        exact h.inside.nests fun _ => (nests_close .paren _).nests fun _ => .pure _
    · exact ((rests_flag _).level.bind fun _ => .pure _).leads session

theorem level_expressionWithin (depth : Nat) : Relates Level (expressionWithin depth) := by
  induction depth with
  | zero => exact .throw .unfinished
  | succ depth ih =>
      refine level_operations ?_ fun _ hlevel => hlevel
      exact (Relates.read _).bind fun budget => level_operandWithin (level_factor ih) budget

theorem level_expression : Relates Level expression :=
  (Relates.read _).bind fun depth => level_expressionWithin depth

/-! ## Statements -/

theorem level_assignment (hkind : session.cursor.current.kind = .identifier) :
    Leads assignment session (fun _ => True) fun _ later => session.Level later := by
  refine (level_variableReference hkind).nests fun target => ?_
  refine (level_expect .equals rfl _).bind fun _ => (Relates.read _).bind fun token => ?_
  refine level_expression.bind fun _ => (rests_ensure _ token _).level.bind fun _ => ?_
  exact (level_require .semicolon _).bind fun _ => .pure _

theorem level_identifierStatement (hkind : session.cursor.current.kind = .identifier) :
    Leads identifierStatement session (fun _ => True) fun _ later => session.Level later := by
  have hmeaning (name : String) : Relates Rests (kindOf name) := by
    refine (Relates.read _).bind fun found => ?_
    cases found with
    | some id => exact (Relates.read _).bind fun _ => .pure _
    | none => exact .pure _
  rw [identifierStatement, leads_bind, leads_current]
  refine Leads.rests (hmeaning _) fun meaning between hbetween => ?_
  have hstill : between.cursor.current.kind = .identifier := by rw [hbetween, hkind]
  cases meaning with
  | plainVariable | valueParameter | varParameter | undefined => exact level_assignment hstill
  | function | procedure =>
      exact (level_call level_expression hstill).nests fun _ => (level_require .semicolon _).bind fun _ => .pure _
  | program | constant | type =>
      exact (nests_of_flag _ (keeps_nextToken.bind fun _ => .pure _)).leads between

theorem level_returnStatement (routine : EntryId) (hkind : session.cursor.current.kind = .returnWord) :
    Leads (returnStatement routine) session (fun _ => True) fun _ later => session.Level later := by
  have hvalue (kind : DefinitionKind) (type : DataType) : Relates Level (returnedValue kind type) := by
    refine (Relates.read _).bind fun token => .ite (level_expression.bind fun _ => ?_) ?_
    · exact (rests_ensure _ token _).level.bind fun _ => (rests_ensure _ token _).level.bind fun _ => .pure _
    · exact (rests_ensure _ token _).level.bind fun _ => .pure _
  refine (level_nextToken_of_kind hkind rfl).nests fun _ => ?_
  refine (Relates.read _).bind fun entry => (rests_onTable _).level.bind fun target => ?_
  exact (hvalue _ _).bind fun _ => (level_require .semicolon _).bind fun _ => .pure _

theorem level_innerStatement {nested : Production Node} (h : Relates Level nested) :
    Relates Level (innerStatement nested) :=
  h.bind fun _ => (level_matchToken .semicolon rfl).bind fun _ => .pure _

theorem level_condition : Relates Level condition := by
  refine (nests_expect .leftParen _).nests fun _ => ?_
  refine (Relates.read _ : Relates Level current).inside.nests fun token => ?_
  refine level_expression.inside.nests fun _ => ?_
  refine (rests_ensure _ token _).level.inside.nests fun _ => ?_
  exact (nests_close .paren _).nests fun _ => .pure _

theorem level_ifStatement {nested : Production Node} (h : Relates Level nested)
    (hkind : session.cursor.current.kind = .ifWord) :
    Leads (ifStatement nested) session (fun _ => True) fun _ later => session.Level later := by
  refine (level_nextToken_of_kind hkind rfl).nests fun _ => ?_
  refine level_condition.bind fun _ => (level_innerStatement h).bind fun _ => ?_
  refine (level_matchToken .elseWord rfl).bind fun _ => ?_
  exact .ite ((level_innerStatement h).bind fun _ => .pure _) (.pure _)

theorem level_whileStatement {nested : Production Node} (h : Relates Level nested)
    (hkind : session.cursor.current.kind = .whileWord) :
    Leads (whileStatement nested) session (fun _ => True) fun _ later => session.Level later := by
  refine (level_nextToken_of_kind hkind rfl).nests fun _ => ?_
  exact level_condition.bind fun _ => (level_innerStatement h).bind fun _ => .pure _

theorem level_doStatement {nested : Production Node} (h : Relates Level nested)
    (hkind : session.cursor.current.kind = .doWord) :
    Leads (doStatement nested) session (fun _ => True) fun _ later => session.Level later := by
  refine (level_nextToken_of_kind hkind rfl).nests fun _ => ?_
  refine (level_innerStatement h).bind fun _ => (level_matchToken .whileWord rfl).bind fun _ => .ite ?_ ?_
  · exact level_condition.bind fun _ => .pure _
  · exact (rests_flag _).level.bind fun _ => .pure _

/-- A token is dropped only if it is reported. -/
theorem level_dropUnlessMoved (start : Nat) : Relates Level (dropUnlessMoved start) :=
  (Relates.read _).bind fun _ => .ite (nests_of_flag _ (keeps_nextToken.bind fun _ => .pure _)) (.pure _)

theorem level_listedStatement {nested : Production Node} (h : Relates Level nested)
    (statements : List Node) : Relates Level (listedStatement nested statements) := by
  refine (Relates.read _).bind fun token => .ite (.pure _) ?_
  refine (Relates.read _).bind fun start => h.bind fun _ => (level_matchToken .semicolon rfl).bind fun _ => ?_
  exact (level_dropUnlessMoved start).bind fun _ => (level_synchronize _).bind fun _ => .pure _

theorem level_compoundOf {nested : Production Node} (h : Relates Level nested)
    (hkind : session.cursor.current.kind = .leftBrace) :
    Leads (compoundOf nested) session (fun _ => True) fun _ later => session.Level later := by
  rw [compoundOf, leads_bind, leads_current]
  refine (nests_nextToken_of_kind hkind).nests fun _ => ?_
  refine (Relates.loop (level_listedStatement h) _).inside.nests fun _ => ?_
  exact (nests_close .brace _).nests fun _ => .pure _

theorem level_statementNode (routine : EntryId) {nested : Production Node} (h : Relates Level nested) :
    Relates Level (statementNode routine nested) := by
  refine ⟨fun session => ?_⟩
  rw [statementNode, leads_bind, leads_currentKind]
  split
  · next hkind => exact level_compoundOf h hkind
  · next hkind => exact level_identifierStatement hkind
  case h_3 | h_4 | h_5 | h_6 => exact (level_variableDeclaration.bind fun _ => .pure _).leads session
  · next hkind =>
      refine (level_nextToken_of_kind hkind rfl).nests fun _ => ?_
      exact level_constants.bind fun _ => .pure _
  · next hkind => exact level_doStatement h hkind
  · next hkind => exact level_whileStatement h hkind
  · next hkind => exact level_ifStatement h hkind
  · next hkind => exact level_returnStatement routine hkind
  · exact refl session

theorem level_statement (routine : EntryId) : Relates Level (statement routine) := by
  have hwithin (depth : Nat) : Relates Level (statementWithin routine depth) := by
    induction depth with
    | zero => exact .throw .unfinished
    | succ depth ih =>
        exact (Relates.read _).bind fun token => (level_statementNode routine ih).bind fun _ => .pure _
  exact (Relates.read _).bind hwithin

/-! ## Parameters -/

theorem level_parameterEntry : Relates Level parameterEntry := by
  have htyped : Relates Level typedParameter := by
    refine level_typeSpecifier.bind fun found => ⟨fun session => ?_⟩
    rw [leads_bind, leads_current]
    split
    · next hkind =>
        refine Leads.rests (rests_declareStorage _ _ _) fun id between hbetween => ?_
        have hstill : between.cursor.current.kind = .identifier := hbetween ▸ eq_of_beq hkind
        exact (level_nextToken_of_kind hstill rfl).bind fun _ later hlater => hlater
    · exact ((rests_flag _).level.bind fun _ => .pure _).leads session
  have huntyped : Relates Level untypedParameter :=
    nests_of_flag _ (keeps_nextToken.bind fun _ =>
      ((level_matchToken .identifier rfl).mono fun _ _ h => h.toKeeps).bind fun _ => .pure _)
  refine (Relates.read _).bind fun kind => ?_
  split
  case h_4 => exact huntyped.bind fun _ => .pure _
  all_goals exact htyped

theorem level_parameterEnd : Relates Level parameterEnd := by
  refine ⟨fun session => ((level_synchronize _).leads session).nests_of_current (current_synchronize _ session) ?_⟩
  intro token between htoken
  split
  · next hkind =>
      have hcomma : between.cursor.current.kind = .comma := htoken ▸ eq_of_beq hkind
      exact (level_nextToken_of_kind hcomma rfl).bind fun _ later hlater => hlater
  · exact (rests_ensure _ token _).level.leads between

theorem level_parameter (parameters : List EntryId) : Relates Level (parameter parameters) :=
  (Relates.read _).bind fun _ =>
    .ite (level_parameterEntry.bind fun _ => level_parameterEnd.bind fun _ => .pure _) (.pure _)

theorem level_loneVoid : Relates Level loneVoid := by
  refine ⟨fun session => ?_⟩
  rw [loneVoid, leads_bind, leads_check]
  split
  · next hvoid =>
      refine ((level_peekKind.leads session).and (current_peekKind session)).bind ?_
      intro _ looked ⟨hlevel, hcurrent⟩
      split
      · have hstill : looked.cursor.current.kind = .voidWord := hcurrent ▸ eq_of_beq hvoid
        exact (level_nextToken_of_kind hstill rfl).bind fun _ later hlater => hlevel.trans hlater
      · exact hlevel
  · exact refl session

/-- The parameters close the parenthesis before them. -/
theorem nests_parameterList : Relates (Nests [.paren] []) parameterList := by
  refine level_loneVoid.inside.nests fun _ => (level_synchronize _).inside.nests fun _ => ?_
  refine (Relates.loop level_parameter []).inside.nests fun _ => ?_
  exact (nests_close .paren _).nests fun _ => .pure _

theorem level_enclosedParameters : Relates Level enclosedParameters := by
  refine ⟨fun session => ((level_synchronize _).leads session).nests_of_current (current_synchronize _ session) ?_⟩
  intro token between htoken
  split
  · next hkind =>
      have hparen : between.cursor.current.kind = .leftParen := htoken ▸ eq_of_beq hkind
      exact (nests_nextToken_of_kind hparen).nests fun _ => nests_parameterList
  · exact ((rests_flag _).level.bind fun _ => .pure _).leads between

/-! ## Routines -/

theorem level_routineKind : Relates Level routineKind := by
  have hinvent (stem : String) : Relates Level (inventName stem) := by
    refine ⟨fun session => ?_⟩
    exact Rests.level ⟨rfl, List.prefix_refl _⟩
  refine ⟨fun session => ?_⟩
  rw [routineKind, leads_bind, leads_currentKind]
  split
  · next hkind =>
      refine (level_nextToken_of_kind hkind rfl).nests fun _ => ?_
      exact (hinvent _).bind fun _ => .pure _
  · exact ((hinvent _).bind fun _ => .pure _).leads session
  · exact refl session

theorem level_routineName (invented : String) : Relates Level (routineName invented) := by
  have hnamed (name : Token) : Relates Rests (namedRoutine name) := by
    refine (Relates.read _).bind fun table => ?_
    cases table.lookupLocal name.text with
    | none => exact (rests_onTable _).bind fun _ => .pure _
    | some id => exact .ite (.pure _) ((rests_flag _).bind fun _ => .pure _)
  have hgiven : Relates Level givenName := by
    refine ⟨fun session => ?_⟩
    rw [givenName, leads_bind, leads_current]
    split
    · next hkind =>
        refine Leads.rests (hnamed _) fun found named hfound => ?_
        refine Leads.rests (Relates.forM (fun _ => rests_changeEntry _ _) found) fun _ noted hnoted => ?_
        have hstill : noted.cursor.current.kind = .identifier := by
          rw [hnoted, hfound]
          exact eq_of_beq hkind
        refine (level_nextToken_of_kind hstill rfl).nests fun _ => ?_
        exact (level_synchronize _).bind fun _ => .pure found
    · exact ((rests_flag _).level.bind fun _ => .pure _).leads session
  refine hgiven.bind fun found => ?_
  cases found with
  | some found => exact .pure found
  | none => exact (rests_onTable _).level.bind fun _ => .pure _

theorem level_header (id : EntryId) (kind : DefinitionKind) (type : Option DataType) :
    Relates Level (header id kind type) := by
  have hparameters : Relates Level (formalParameters id) :=
    level_enclosedParameters.bind fun _ => (rests_changeEntry id _).level
  have htype : Relates Rests (functionType id (type.getD .undefined)) :=
    (Relates.read _).bind fun token => (rests_ensure _ token _).bind fun _ => rests_changeEntry id _
  exact hparameters.bind fun _ => .ite htype.level (.pure _)

theorem level_bodyOrForward (id : EntryId) : Relates Level (bodyOrForward id) := by
  have hstage (stage : RoutineStage) : Relates Rests (setStage id stage) := rests_changeEntry id _
  refine ⟨fun session => ?_⟩
  rw [bodyOrForward, leads_bind, leads_currentKind]
  split
  · next hkind =>
      refine Leads.rests (hstage .declared) fun _ between hbetween => ?_
      have hstill : between.cursor.current.kind = .leftBrace := by rw [hbetween, hkind]
      exact (level_compoundOf (level_statement id) hstill).nests fun _ => (rests_changeEntry id _).level
  · next hkind =>
      refine Leads.rests (hstage .forward) fun _ between hbetween => ?_
      have hstill : between.cursor.current.kind = .semicolon := by rw [hbetween, hkind]
      exact (level_nextToken_of_kind hstill rfl).bind fun _ later hlater => hlater
  · exact (hstage .forward).level.leads session

theorem level_routine (parent : EntryId) (type : Option DataType) :
    Relates Level (routine parent type) := by
  refine level_routineKind.bind fun ⟨kind, invented⟩ => ?_
  refine (level_routineName invented).bind fun ⟨id, forwarded⟩ => ?_
  have hopen : Relates Rests (openRoutine parent id kind forwarded) :=
    Relates.openRoutine (fun id _ => rests_changeEntry id _) (rests_onTable _) (rests_onTable _) parent id kind
      forwarded
  refine (Relates.markRoutine (rests_changeEntry id) kind forwarded).level.bind fun _ => hopen.level.bind fun _ => ?_
  refine (Relates.read _).bind fun token => (rests_ensure _ token _).level.bind fun _ => ?_
  refine (level_header id kind type).bind fun _ => (level_bodyOrForward id).bind fun _ => ?_
  exact (rests_onTable _).level.bind fun _ => .pure _

/-! ## Units -/

theorem level_startsHeader : Relates Level startsHeader :=
  (Relates.read _).bind fun _ => .ite (level_peekKind.bind fun _ => .pure _) (.pure _)

theorem level_declaration (program : EntryId) : Relates Level (declaration program) := by
  have htyped : Relates Level (variablesOrFunction fun type => routine program (some type)) :=
    (Relates.read _).bind fun typeToken => level_requiredType.bind fun type =>
      level_startsHeader.bind fun _ =>
        .ite (level_routine program (some type)) (level_variableNames typeToken type)
  refine ⟨fun session => ?_⟩
  rw [declaration, leads_bind, leads_currentKind]
  split
  · next hkind => exact (level_nextToken_of_kind hkind rfl).nests fun _ => level_constants
  · next hkind => exact (level_nextToken_of_kind hkind rfl).nests fun _ => level_typeDefinition
  · exact (rests_startsVariables.level.bind fun _ =>
      .ite htyped (level_routine program none)).leads session

theorem level_item (program : EntryId) : Relates Level (item program) := by
  have hstarts : Relates Level startsProgramStatement := by
    refine (Relates.read _).bind fun kind => ?_
    split
    · exact .pure _
    · exact level_peekKind.bind fun _ => .pure _
    · exact .pure _
  have hstatement : Relates Level (programStatement program) :=
    (level_statement program).bind fun _ => (level_matchToken .semicolon rfl).bind fun _ =>
      (rests_changeEntry program _).level
  exact hstarts.bind fun _ => .ite hstatement (level_declaration program)

theorem level_nextItem (program : EntryId) : Relates Level (nextItem program) := by
  have hdrop (start : Nat) : Relates Level (dropItemUnlessMoved start) :=
    (Relates.read _).bind fun _ => (Relates.read _).bind fun _ =>
      .ite (nests_of_flag _ (keeps_nextToken.bind fun _ => .pure _)) (.pure _)
  refine (Relates.read _).bind fun _ => .ite (.pure _) ?_
  refine (Relates.read _).bind fun start => (level_synchronize _).bind fun _ => ?_
  exact .ite (.pure _) ((level_item program).bind fun _ => (hdrop start).bind fun _ => .pure _)

theorem level_items : Relates Level items :=
  (Relates.loop (fun _ => level_nextItem SymbolTable.programId) ()).bind fun _ =>
    (rests_onTable _).level.bind fun _ => .pure _

end FrontEnd.Production

namespace FrontEnd

open TokenStream (tokensOf)

/-- Where a source is first read, its tokens are as the scanner makes them, and the first has been reported
if it is no token. -/
theorem Session.candid_of_start {feed : LineFeed} {session : Session}
    (h : Session.start (Scanner.stream feed) = .ok session) : session.Candid := by
  obtain ⟨hcursor, -, hdiagnostics⟩ := Session.start_cases h
  refine ⟨fun token htoken => ?_, fun token htoken => ?_, fun hclean => ?_⟩
  · exact Cursor.holds_of_scanned Token.explained_endOfFile (fun _ hlexeme => hlexeme.explained) hcursor htoken
  · exact Cursor.holds_of_scanned Token.valued_endOfFile (fun _ hlexeme => hlexeme.valued) hcursor htoken
  · rw [hdiagnostics] at hclean
    simpa [Token.reports] using hclean

/-- In every source that is compiled without an error, each parenthesis, bracket and brace that closes
closes the innermost one that is open, and none is left open. -/
theorem compile_nested {feed : LineFeed} {unit : CompilationUnit}
    (h : compile (Scanner.stream feed) = .ok unit) (hclean : unit.diagnostics = []) :
    Delimiter.nested [] (tokensOf ((Scanner.stream feed).answers 0)) = true := by
  obtain ⟨session, later, hstart, hunit, -, hdiagnostics⟩ := compile_cases h
  obtain ⟨hcursor, htable, -⟩ := Session.start_cases hstart
  rw [Production.unit_eq_items htable] at hunit
  -- setting up the table reads nothing
  have hopened : session.Level { session with table := SymbolTable.unitTable } :=
    Session.Rests.level ⟨rfl, List.prefix_refl _⟩
  have hlevel := hopened.trans (Production.level_items.of_run hunit)
  have hend : later.cursor.current.isEnd = true := by
    have hlawful : Session.Lawful (fun _ => True) { session with table := SymbolTable.unitTable } :=
      lawful_unitTable fun _ _ => trivial
    have hrun := Production.traced_items hlawful (SymbolTable.hosts_unitTable _)
    rw [Production.Traced, Production.leads_of_ok hunit] at hrun
    exact hrun.2.2.2
  calc Delimiter.nested [] (tokensOf ((Scanner.stream feed).answers 0))
      = Delimiter.nested [] session.cursor.unread := by
        rw [Cursor.tokensOf_of_start hcursor, Cursor.unread]
    _ = Delimiter.nested [] later.cursor.unread :=
        hlevel.nested (Session.candid_of_start hstart) (hdiagnostics.trans hclean) []
    _ = true := by
        have hkind : later.cursor.current.kind = .endOfFile := by simpa [Token.isEnd] using hend
        simp [Cursor.unread, Cursor.upcoming_of_isEnd hend, Delimiter.nested, hkind, TokenKind.opens,
          TokenKind.closes]

/-- Delimiters of all three sorts, one inside the other. -/
theorem compile_nested_array :
    ∃ unit, compileText "typedef int row[3]; int f(int a) \x7b if ((a)) \x7b return f((a)); \x7d \x7d" = .ok unit ∧
      unit.diagnostics = [] ∧
        Delimiter.nested [] (tokensOf ((Scanner.stream (.ofText
          "typedef int row[3]; int f(int a) \x7b if ((a)) \x7b return f((a)); \x7d \x7d")).answers 0)) = true := by
  have hcompiled : ∃ unit, compileText
      "typedef int row[3]; int f(int a) \x7b if ((a)) \x7b return f((a)); \x7d \x7d" = .ok unit ∧
        unit.diagnostics = [] :=
    exists_compiled (by decide +kernel)
  obtain ⟨unit, hunit, hclean⟩ := hcompiled
  exact ⟨unit, hunit, hclean, compile_nested hunit hclean⟩

end FrontEnd
