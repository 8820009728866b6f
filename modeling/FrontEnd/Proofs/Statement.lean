import FrontEnd.Proofs.Declaration
import FrontEnd.Proofs.Expression

/-!
# What statements leave behind

Every production for a statement is traced, and its answer is a tree for a statement of the routine.

## Strategy

As for expressions, what is shown is bounded by the number of tokens ahead: a statement consumes a token
before it asks for one inside it (`Makes`), and induction on the depth gives `traced_statement`.

The production for a statement may consume nothing, but a compound statement drops the token at which
that happens (`traced_dropUnlessMoved`), so each turn of its loop consumes one
(`traced_listedStatement`).
-/

namespace FrontEnd

/-- Whether a tree is one for a statement of a routine, as things stand in a session. -/
def Session.IsStatement (session : Session) (owner : EntryId) (node : Node) : Prop :=
  StatementTree (session.diagnostics = []) session.table owner node

theorem Session.IsStatement.later {known : Token → Prop} {session later : Session} {owner : EntryId}
    {node : Node} (h : session.IsStatement owner node) (howner : owner < session.table.entries.size)
    (hsteps : Steps known .statement session later) (hlawful : session.Lawful known) :
    later.IsStatement owner node :=
  h.mono hlawful.valid howner (hsteps.grows rfl).keeps hsteps.clean

theorem Steps.lt_size {known : Token → Prop} {session later : Session} {id : EntryId}
    (h : Steps known .statement session later) (hid : id < session.table.entries.size) :
    id < later.table.entries.size :=
  Nat.lt_of_lt_of_le hid (h.grows rfl).size_le

namespace Production

variable {known : Token → Prop} {session : Session} {owner : EntryId}

/-- Whether a node becomes a tree for a statement when it is given its line. -/
def IsStatementNode (session : Session) (owner : EntryId) (node : Node) : Prop :=
  ∀ line : Nat, session.IsStatement owner { node with line := some line }

/-! ## Assignments, calls and returns -/

theorem traced_assignment (hlawful : session.Lawful known)
    (hkind : session.cursor.current.kind = .identifier)
    (hname : ReadsAsVariable session.table session.cursor.current.text) :
    Traced known .statement assignment session fun node later => IsStatementNode later owner node := by
  unfold assignment
  refine (traced_variableReference hlawful hkind hname).bind fun target named _ hnamed htarget => ?_
  obtain ⟨id, rfl, hrefers⟩ := htarget
  refine (traced_expect (by simp) _ hnamed rfl).bind fun _ equals hfirst hequals _ => ?_
  rw [traced_current_bind]
  refine (traced_expression hequals).bind fun value read hsecond hread hvalue => ?_
  refine (traced_ensure _ _ hread hequals.current rfl).bind fun _ checked hthird hchecked hfits => ?_
  refine (traced_require _ _ hchecked rfl).bind fun _ final hfourth hfinal _ => .pure hfinal ?_
  -- the target keeps its type while the value is read
  have hall := hfirst.trans (hsecond.trans (hthird.trans hfourth))
  obtain ⟨hlater, hnode⟩ := hrefers.mono hnamed.valid (hall.grows rfl).keeps hall.clean
  intro line
  rw [← hnode] at hfits ⊢
  exact .assign line hlater (hvalue.later (hthird.trans hfourth) hread)
    fun hclean => hfits.2.2 (hfourth.clean hclean)

/-- What a name was declared as, in a table. -/
def kindNamed (table : SymbolTable) (name : String) : DefinitionKind :=
  match table.lookup name with
  | some id => (table.entry id).kind
  | none => .undefined

@[simp] theorem traced_kindOf_bind {α : Type} {place : Place} {post : α → Session → Prop}
    (name : String) (next : DefinitionKind → Production α) :
    Traced known place (kindOf name >>= next) session post ↔
      Traced known place (next (kindNamed session.table name)) session post := by
  unfold kindOf kindNamed
  simp only [bind_assoc, traced_lookup_bind]
  cases session.table.lookup name <;> exact Iff.rfl

theorem lookup_of_kindNamed {table : SymbolTable} {name : String} {kind : DefinitionKind}
    (h : kindNamed table name = kind) (hkind : kind ≠ .undefined) :
    ∃ id, table.lookup name = some id ∧ (table.entry id).kind = kind := by
  unfold kindNamed at h
  cases hlookup : table.lookup name with
  | some id => exact ⟨id, rfl, by simpa [hlookup] using h⟩
  | none => exact absurd (by simpa [hlookup] using h.symm) hkind

theorem traced_callStatement {kind : DefinitionKind} (hlawful : session.Lawful known)
    (hkind : session.cursor.current.kind = .identifier)
    (hname : kindNamed session.table session.cursor.current.text = kind)
    (hcallable : kind ∈ DefinitionKind.callables) :
    Traced known .statement
      (do
        let node ← call expression
        require .semicolon .missingSemicolon
        return node)
      session fun node later => IsStatementNode later owner node := by
  obtain ⟨id, hlookup, hentry⟩ := lookup_of_kindNamed hname fun hundefined => by
    simp [hundefined, DefinitionKind.callables] at hcallable
  refine (traced_call (yields_expression _) hlawful (Nat.lt_succ_self _) hkind hlookup
    (hentry ▸ hcallable)).bind fun node called _ hcalled hnode => ?_
  obtain ⟨type, given, callee, arguments, rfl, hvalue⟩ := hnode
  refine (traced_require _ _ hcalled rfl).bind fun _ final hsteps hfinal _ => .pure hfinal ?_
  exact fun line => .call ((hvalue line).later hsteps hcalled) rfl rfl

theorem readsAsVariable_of_kindNamed {table : SymbolTable} {name : String}
    (h : kindNamed table name ∈ DefinitionKind.referable) : ReadsAsVariable table name := by
  intro id hlookup
  simpa [kindNamed, hlookup] using h

theorem traced_identifierStatement (hlawful : session.Lawful known)
    (hkind : session.cursor.current.kind = .identifier) :
    Traced known .statement identifierStatement session fun node later =>
      IsStatementNode later owner node := by
  unfold identifierStatement
  rw [traced_current_bind, traced_kindOf_bind]
  have hvariable (hname : kindNamed session.table session.cursor.current.text ∈
      DefinitionKind.referable) :
      Traced known .statement assignment session fun node later => IsStatementNode later owner node :=
    traced_assignment hlawful hkind (readsAsVariable_of_kindNamed hname)
  have hdropped : Traced known .statement
      (do
        flag .unexpectedToken
        let _ ← nextToken
        return { kind := .noOp })
      session fun node later => IsStatementNode later owner node := by
    refine (traced_flag _ hlawful rfl).bind fun _ flagged _ hflagged _ => ?_
    exact (traced_nextToken hflagged).bind fun _ final _ hfinal _ =>
      .pure hfinal fun line => .nothing line
  cases hname : kindNamed session.table session.cursor.current.text with
  | plainVariable | valueParameter | undefined =>
      exact hvariable (by simp [hname, DefinitionKind.referable])
  | varParameter =>
      obtain ⟨id, -, hentry⟩ := lookup_of_kindNamed hname (by simp)
      exact absurd hentry (hlawful.valid.kinds id)
  | function | procedure =>
      exact traced_callStatement hlawful hkind hname (by simp [DefinitionKind.callables])
  | program | constant | type => exact hdropped

/-- A value is returned from a function and none from a procedure, where no error is recorded. -/
theorem traced_returnedValue (kind : DefinitionKind) (type : DataType)
    (hlawful : session.Lawful known) :
    Traced known .statement (returnedValue kind type) session fun values later =>
      ∃ value : Option Node, values = value.toList ∧ (∀ node ∈ value, later.IsValue node) ∧
        (later.diagnostics = [] → (∀ node ∈ value, type.accepts node.type) ∧
          (kind = .function → value.isSome) ∧ (kind = .procedure → value = none)) := by
  unfold returnedValue
  rw [traced_current_bind]
  split
  · refine (traced_expression hlawful).bind fun value read hfirst hread hvalue => ?_
    refine (traced_ensure _ _ hread hlawful.current rfl).bind
      fun _ placed hsecond hplaced hallowed => ?_
    refine (traced_ensure _ _ hplaced hlawful.current rfl).bind
      fun _ final hthird hfinal hfits => .pure hfinal ⟨some value, rfl, ?_, fun hclean => ?_⟩
    · simpa using hvalue.later (hsecond.trans hthird) hread
    · have hkind : kind ≠ .procedure := by simpa using hallowed.2.2 (hthird.clean hclean)
      have haccepts := hfits.2.2 hclean
      exact ⟨by simpa [hkind] using haccepts, fun _ => rfl, fun h => absurd h hkind⟩
  · refine (traced_ensure _ _ hlawful hlawful.current rfl).bind
      fun _ final _ hfinal hallowed => .pure hfinal ⟨none, rfl, by simp, fun hclean => ?_⟩
    have hkind : kind ≠ .function := by simpa using hallowed.2.2 hclean
    exact ⟨by simp, fun h => absurd h hkind, fun _ => rfl⟩

/-- The target of a return is a variable that no name leads to. -/
theorem traced_returnTarget (type : DataType) (hlawful : session.Lawful known) :
    Traced known .statement
      (onTable fun table =>
        table.createDetached (session.table.entry owner).name
          (.plainVariable table.localScope.nextSlot) type)
      session fun target later =>
        ¬ later.table.Bound target ∧ (later.table.entry target).kind = .plainVariable ∧
          (later.table.entry target).resolvedType = type := by
  refine (Traced.of_step rfl hlawful (.declare (.target owner type))).mono ?_
  rintro _ _ - - ⟨rfl, rfl⟩
  refine ⟨fun hbound => Nat.lt_irrefl _ (hlawful.valid.bound_lt _ hbound), ?_, ?_⟩
  · simp [SymbolTable.createDetached, SymbolTable.entry, Entry.kind, Definition.kind]
  · simp [SymbolTable.createDetached, SymbolTable.entry, Entry.resolvedType]

theorem traced_returnStatement (hlawful : session.Lawful known)
    (howner : owner < session.table.entries.size) :
    Traced known .statement (returnStatement owner) session fun node later =>
      IsStatementNode later owner node := by
  unfold returnStatement
  refine (traced_nextToken hlawful).bind fun _ moved hmove hmoved _ => ?_
  rw [traced_entry_bind]
  dsimp only
  refine (traced_returnTarget _ hmoved).bind fun target made hmake hmade htarget => ?_
  refine (traced_returnedValue _ _ hmade).bind fun values read hread hreadable hvalues => ?_
  obtain ⟨value, rfl, hvalue, hreturned⟩ := hvalues
  refine (traced_require _ _ hreadable rfl).bind fun _ final hend hfinal _ => .pure hfinal ?_
  -- neither the target nor the owner changes while the value is read
  obtain ⟨hdetached, hkind, htype⟩ := htarget
  have hmore := hread.trans hend
  have hlt := SymbolTable.lt_of_kind hkind (by simp)
  have hagrees := (hmore.grows rfl).agrees target hlt
  have htype' := hagrees.resolvedType.trans htype
  have howner' : (final.table.entry owner).kind = (moved.table.entry owner).kind :=
    (((hmake.trans hmore).grows rfl).agrees owner (hmove.lt_size howner)).kind
  intro line
  have htree : StatementTree (final.diagnostics = []) final.table owner _ :=
    .returned value line (fun hbound => hdetached (((hmore.grows rfl).bound target hlt).mp hbound))
      (hagrees.kind.trans hkind) (fun node hmem => (hvalue node hmem).later hend hreadable)
      fun hclean => by
        rw [htype', howner']
        exact hreturned (hend.clean hclean)
  rwa [SymbolTable.variableNode, htype'] at htree

/-! ## Control flow -/

/-- Whether a production makes trees for statements of a routine wherever fewer than `bound` tokens are
ahead. -/
def Makes (known : Token → Prop) (owner : EntryId) (bound : Nat) (production : Production Node) : Prop :=
  ∀ session : Session, session.Lawful known → owner < session.table.entries.size →
    session.cursor.ahead < bound →
      Traced known .statement production session fun node later => later.IsStatement owner node

theorem traced_innerStatement {bound : Nat} {nested : Production Node}
    (h : Makes known owner bound nested) (hlawful : session.Lawful known)
    (howner : owner < session.table.entries.size) (hahead : session.cursor.ahead < bound) :
    Traced known .statement (innerStatement nested) session fun node later =>
      later.IsStatement owner node := by
  unfold innerStatement
  refine (h session hlawful howner hahead).bind fun node made hmake hmade hnode => ?_
  refine (traced_matchToken (by simp) hmade).bind fun _ final hsteps hfinal _ => .pure hfinal ?_
  exact hnode.later (hmake.lt_size howner) hsteps hmade

theorem traced_condition (hlawful : session.Lawful known) :
    Traced known .statement condition session fun node later =>
      later.IsValue node ∧ (later.diagnostics = [] → node.type.isCondition) := by
  unfold condition
  refine (traced_expect (by simp) _ hlawful rfl).bind fun _ opened _ hopened _ => ?_
  rw [traced_current_bind]
  refine (traced_expression hopened).bind fun node read hread hreadable hnode => ?_
  refine (traced_ensure _ _ hreadable hopened.current rfl).bind fun _ checked hcheck hchecked hfits => ?_
  refine (traced_expect (by simp) _ hchecked rfl).bind fun _ final hsteps hfinal _ => .pure hfinal ?_
  exact ⟨hnode.later (hcheck.trans hsteps) hreadable,
    fun hclean => hfits.2.2 (hsteps.clean hclean)⟩

theorem traced_ifStatement {bound : Nat} {nested : Production Node}
    (h : Makes known owner bound nested) (hlawful : session.Lawful known)
    (howner : owner < session.table.entries.size) (hahead : session.cursor.ahead < bound + 1)
    (hkind : session.cursor.current.kind = .ifWord) :
    Traced known .statement (ifStatement nested) session fun node later =>
      IsStatementNode later owner node := by
  unfold ifStatement
  refine (traced_consume hkind (by simp) hlawful).bind fun _ moved hmove hmoved hnext => ?_
  have hbelow : moved.cursor.ahead < bound := Nat.lt_of_lt_of_le hnext.2 (Nat.le_of_lt_succ hahead)
  have howner := hmove.lt_size howner
  refine (traced_condition hmoved).bind fun condition read hread hreadable hcondition => ?_
  have howner := hread.lt_size howner
  refine (traced_innerStatement h hreadable howner
    (Nat.lt_of_le_of_lt hread.ahead_le hbelow)).bind fun consequent first hfirst hdone hconsequent => ?_
  refine (traced_matchToken (by simp) hdone).bind fun matched choice hchoice hchosen _ => ?_
  have hbefore := hfirst.trans hchoice
  have howner' := hbefore.lt_size howner
  have hconsequent := hconsequent.later (hfirst.lt_size howner) hchoice hdone
  split
  · refine (traced_innerStatement h hchosen howner'
      (Nat.lt_of_le_of_lt (hread.trans hbefore).ahead_le hbelow)).bind
      fun alternative final hlast hfinal halternative => .pure hfinal fun line => ?_
    have hconsequent := hconsequent.later howner' hlast hchosen
    have hvalue := hcondition.1.later (hbefore.trans hlast) hreadable
    exact .branch (some alternative) line hvalue
      (fun hclean => hcondition.2 ((hbefore.trans hlast).clean hclean)) hconsequent
      (by simpa [Session.IsStatement] using halternative)
  · refine .pure hchosen fun line => ?_
    exact .branch none line (hcondition.1.later hbefore hreadable)
      (fun hclean => hcondition.2 (hbefore.clean hclean)) hconsequent (by simp)

theorem traced_whileStatement {bound : Nat} {nested : Production Node}
    (h : Makes known owner bound nested) (hlawful : session.Lawful known)
    (howner : owner < session.table.entries.size) (hahead : session.cursor.ahead < bound + 1)
    (hkind : session.cursor.current.kind = .whileWord) :
    Traced known .statement (whileStatement nested) session fun node later =>
      IsStatementNode later owner node := by
  unfold whileStatement
  refine (traced_consume hkind (by simp) hlawful).bind fun _ moved hmove hmoved hnext => ?_
  have hbelow : moved.cursor.ahead < bound := Nat.lt_of_lt_of_le hnext.2 (Nat.le_of_lt_succ hahead)
  refine (traced_condition hmoved).bind fun condition read hread hreadable hcondition => ?_
  refine (traced_innerStatement h hreadable ((hmove.trans hread).lt_size howner)
    (Nat.lt_of_le_of_lt hread.ahead_le hbelow)).bind
    fun body final hlast hfinal hbody => .pure hfinal fun line => ?_
  exact .whileLoop line (hcondition.1.later hlast hreadable)
    (fun hclean => hcondition.2 (hlast.clean hclean)) hbody

theorem traced_doStatement {bound : Nat} {nested : Production Node}
    (h : Makes known owner bound nested) (hlawful : session.Lawful known)
    (howner : owner < session.table.entries.size) (hahead : session.cursor.ahead < bound + 1)
    (hkind : session.cursor.current.kind = .doWord) :
    Traced known .statement (doStatement nested) session fun node later =>
      IsStatementNode later owner node := by
  unfold doStatement
  refine (traced_consume hkind (by simp) hlawful).bind fun _ moved hmove hmoved hnext => ?_
  have hbelow : moved.cursor.ahead < bound := Nat.lt_of_lt_of_le hnext.2 (Nat.le_of_lt_succ hahead)
  have howner := hmove.lt_size howner
  refine (traced_innerStatement h hmoved howner hbelow).bind fun body made hmake hmade hbody => ?_
  have howner := hmake.lt_size howner
  refine (traced_matchToken (by simp) hmade).bind fun matched choice hchoice hchosen _ => ?_
  split
  · refine (traced_condition hchosen).bind fun condition final hlast hfinal hcondition =>
      .pure hfinal fun line => ?_
    exact .doWhileLoop (some condition) line
      (hbody.later howner (hchoice.trans hlast) hmade) (by simpa [Session.IsValue] using hcondition.1)
      (by simpa using hcondition.2)
  · refine (traced_flag _ hchosen rfl).bind fun _ final hlast hfinal hflagged =>
      .pure hfinal fun line => ?_
    exact .doWhileLoop none line (hbody.later howner (hchoice.trans hlast) hmade)
      (by simp) fun hclean => absurd hclean hflagged.2.2.ne_nil

/-! ## Compound statements -/

/-- Between a place before the end of the file and the next statement a token is consumed: if none has
been, the current one is dropped. -/
theorem traced_dropUnlessMoved {later : Session} (hsteps : Steps known .statement session later)
    (hlawful : later.Lawful known) (hend : session.cursor.current.isEnd = false) :
    Traced known .statement (dropUnlessMoved session.cursor.position) later fun _ final =>
      session.cursor.position < final.cursor.position := by
  unfold dropUnlessMoved
  rw [traced_position_bind]
  split
  · next hstill =>
      have hstill : later.cursor.position = session.cursor.position := by simpa using hstill
      -- nothing has been consumed, so the token that is dropped is not the end of the file
      have hbefore := hsteps.isEnd_of_still hend hstill
      refine (traced_flag _ hlawful rfl).bind fun _ flagged _ hflagged hflag => ?_
      refine (traced_nextToken hflagged).bind fun _ final _ hfinal hnext => .pure hfinal ?_
      have := hnext.2.2 (by rwa [hflag.1])
      rw [hflag.1] at this
      omega
  · next hmoved =>
      have := hsteps.position_le
      have hmoved : later.cursor.position ≠ session.cursor.position := by simpa using hmoved
      exact .pure hlawful (by omega)

/-- Whether nodes are trees for statements of a routine, as things stand in a session. -/
def AreStatements (owner : EntryId) (statements : List Node) (session : Session) : Prop :=
  ∀ node ∈ statements, session.IsStatement owner node

theorem AreStatements.later {later : Session} {statements : List Node}
    (h : AreStatements owner statements session) (howner : owner < session.table.entries.size)
    (hsteps : Steps known .statement session later) (hlawful : session.Lawful known) :
    AreStatements owner statements later :=
  fun node hmem => (h node hmem).later howner hsteps hlawful

/-- Each turn of a compound statement adds a tree for a statement and consumes a token; only the closing
brace and the end of the file end the loop. -/
theorem traced_listedStatement {bound : Nat} {nested : Production Node} (statements : List Node)
    (h : Makes known owner bound nested) (hlawful : session.Lawful known)
    (howner : owner < session.table.entries.size) (hahead : session.cursor.ahead < bound) :
    Traced known .statement (listedStatement nested statements) session
      (AfterTurn
        (fun listed later => listed = statements ∧ later = session ∧
          (later.cursor.current.isEnd = true ∨ later.cursor.current.kind = .rightBrace))
        fun listed later =>
          (∃ node, listed = statements ++ [node] ∧ later.IsStatement owner node) ∧
            session.cursor.position < later.cursor.position) := by
  unfold listedStatement
  rw [traced_current_bind]
  split
  · next hstop => exact .pure hlawful ⟨rfl, rfl, by simpa using hstop⟩
  · next hgoes =>
      have hend : session.cursor.current.isEnd = false := by
        simp only [Bool.or_eq_true, not_or, Bool.not_eq_true] at hgoes
        exact hgoes.1
      rw [traced_position_bind]
      refine (h session hlawful howner hahead).bind fun node made hmake hmade hnode => ?_
      refine (traced_matchToken (by simp) hmade).bind fun _ ended hend' hended _ => ?_
      refine (traced_dropUnlessMoved (hmake.trans hend') hended hend).bind
        fun _ dropped hdrop hdropped hmoved => ?_
      refine (traced_synchronize _ hdropped).bind
        fun _ final hlast hfinal _ => .pure hfinal ⟨⟨node, rfl, ?_⟩, ?_⟩
      · exact hnode.later (hmake.lt_size howner) (hend'.trans (hdrop.trans hlast)) hmade
      · exact Nat.lt_of_lt_of_le hmoved hlast.position_le

/-- The statements of a compound statement make trees for statements. -/
theorem traced_statements {bound : Nat} {nested : Production Node}
    (h : Makes known owner bound nested) (hlawful : session.Lawful known)
    (howner : owner < session.table.entries.size) (hahead : session.cursor.ahead < bound) :
    Traced known .statement (loop (listedStatement nested) []) session (AreStatements owner) := by
  refine .loop (AreStatements owner) hlawful (by simp [AreStatements])
    fun statements later hsteps hlater hstatements => ?_
  have howner := hsteps.lt_size howner
  have hbelow := Nat.lt_of_le_of_lt hsteps.ahead_le hahead
  refine (traced_listedStatement statements h hlater howner hbelow).mono
    fun next final hmore _ hnext => ?_
  cases next with
  | done listed =>
      obtain ⟨rfl, rfl, -⟩ := hnext
      exact hstatements
  | yield listed =>
      obtain ⟨⟨node, rfl, hnode⟩, hmoved⟩ := hnext
      refine ⟨fun other hmem => ?_, Or.inr hmoved⟩
      rcases List.mem_append.mp hmem with hold | hnew
      · exact (hstatements other hold).later howner hmore hlater
      · rwa [List.mem_singleton.mp hnew]

theorem traced_compoundOf {bound : Nat} {nested : Production Node}
    (h : Makes known owner bound nested) (hlawful : session.Lawful known)
    (howner : owner < session.table.entries.size) (hahead : session.cursor.ahead < bound + 1)
    (hkind : session.cursor.current.kind = .leftBrace) :
    Traced known .statement (compoundOf nested) session fun node later =>
      ∃ statements line, node = { kind := .compound, children := statements, line := some line } ∧
        AreStatements owner statements later := by
  unfold compoundOf
  rw [traced_current_bind]
  refine (traced_consume hkind (by simp) hlawful).bind fun _ moved hmove hmoved hnext => ?_
  have hbelow : moved.cursor.ahead < bound := Nat.lt_of_lt_of_le hnext.2 (Nat.le_of_lt_succ hahead)
  have howner := hmove.lt_size howner
  refine (traced_statements h hmoved howner hbelow).bind
    fun statements listed hlist hlisted hstatements => ?_
  refine (traced_expect (by simp) _ hlisted rfl).bind fun _ final hlast hfinal _ => .pure hfinal ?_
  exact ⟨statements, _, rfl, hstatements.later (hlist.lt_size howner) hlast hlisted⟩

/-! ## Statements -/

theorem traced_statementNode {bound : Nat} {nested : Production Node}
    (h : Makes known owner bound nested) (hlawful : session.Lawful known)
    (howner : owner < session.table.entries.size) (hahead : session.cursor.ahead < bound + 1) :
    Traced known .statement (statementNode owner nested) session fun node later =>
      IsStatementNode later owner node := by
  have hvariables : Traced known .statement
      (do
        variableDeclaration
        return { kind := .noOp })
      session fun node later => IsStatementNode later owner node :=
    ((traced_variableDeclaration hlawful).within (.declaration _)).bind fun _ _ _ hfinal _ =>
      .pure hfinal fun line => .nothing line
  unfold statementNode
  rw [traced_currentKind_bind]
  split
  case h_1 hkind =>
    refine (traced_compoundOf h hlawful howner hahead hkind).mono fun node later _ _ hnode => ?_
    obtain ⟨statements, given, rfl, hstatements⟩ := hnode
    exact fun line => .compound line hstatements
  case h_2 hkind => exact traced_identifierStatement hlawful hkind
  case h_3 | h_4 | h_5 | h_6 => exact hvariables
  case h_7 =>
    refine (traced_nextToken hlawful).bind fun _ moved _ hmoved _ => ?_
    exact ((traced_constants hmoved).within (.declaration _)).bind fun _ _ _ hfinal _ =>
      .pure hfinal fun line => .nothing line
  case h_8 hkind => exact traced_doStatement h hlawful howner hahead hkind
  case h_9 hkind => exact traced_whileStatement h hlawful howner hahead hkind
  case h_10 hkind => exact traced_ifStatement h hlawful howner hahead hkind
  case h_11 => exact traced_returnStatement hlawful howner
  case h_12 => exact .pure hlawful fun line => .nothing line

theorem makes_statementWithin : ∀ depth, Makes known owner depth (statementWithin owner depth)
  | 0 => fun _ _ _ hahead => absurd hahead (Nat.not_lt_zero _)
  | depth + 1 => by
      intro session hlawful howner hahead
      unfold statementWithin statementOf
      rw [traced_current_bind]
      exact (traced_statementNode (makes_statementWithin depth) hlawful howner hahead).bind
        fun node final _ hfinal hnode => .pure hfinal (hnode _)

/-- A statement makes a tree for a statement, whatever tokens it is made of. -/
theorem traced_statement (hlawful : session.Lawful known)
    (howner : owner < session.table.entries.size) :
    Traced known .statement (statement owner) session fun node later =>
      later.IsStatement owner node := by
  have := session.cursor.ahead_le_remaining
  unfold statement
  rw [traced_budget_bind]
  exact makes_statementWithin _ session hlawful howner (by omega)

theorem traced_compound (hlawful : session.Lawful known)
    (howner : owner < session.table.entries.size)
    (hkind : session.cursor.current.kind = .leftBrace) :
    Traced known .statement (compound owner) session fun node later =>
      later.IsStatement owner node := by
  have hmakes : Makes known owner session.cursor.ahead (statement owner) :=
    fun _ hlater hlt _ => traced_statement hlater hlt
  refine (traced_compoundOf hmakes hlawful howner (Nat.lt_succ_self _) hkind).mono ?_
  rintro _ later - - ⟨statements, line, rfl, hstatements⟩
  exact .compound line hstatements

end Production

end FrontEnd
