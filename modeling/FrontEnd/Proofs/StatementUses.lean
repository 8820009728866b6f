import FrontEnd.Proofs.Statement
import FrontEnd.Proofs.Uses

/-!
# The uses of names in statements

Every production for a statement answers for the references of the tree that it makes, as the productions
for expressions do.  The target of a return is used too; it is the one entry among them that no name leads
to, and it is made for the innermost scope.
-/

namespace FrontEnd.Production

variable {known : Token → Prop} {session : Session} {owner : EntryId}

/-! ## Assignments, calls and returns -/

theorem uses_assignment (himproper : Improper known) (hlawful : session.Lawful known)
    (hkind : session.cursor.current.kind = .identifier) :
    Traced known .statement assignment session fun node later => session.Uses later node.references := by
  unfold assignment
  refine (uses_variableReference hlawful hkind).bind fun target named _ hnamed htarget => ?_
  refine (traced_expect (by simp) _ hnamed rfl).silent.bind fun _ equals hexpect hequals hfirst => ?_
  rw [traced_current_bind]
  refine (accounted_expression himproper equals hequals).bind fun value read hread hreadable hvalue => ?_
  refine (traced_ensure _ _ hreadable hequals.current rfl).silent.bind
    fun _ checked hcheck hchecked hfits => ?_
  refine (traced_require _ _ hchecked rfl).silent.bind
    fun _ final hrequire hfinal hlast => .pure hfinal ?_
  have huses := (htarget.thenNone hfirst.1 hexpect hnamed nofun).trans hvalue hread hequals nofun
  have huses := (huses.thenNone hfits.1 hcheck hreadable nofun).thenNone hlast.1 hrequire hchecked nofun
  rw [Node.references_of_none rfl]
  simpa using huses

theorem uses_callStatement (himproper : Improper known) {kind : DefinitionKind}
    (hlawful : session.Lawful known) (hkind : session.cursor.current.kind = .identifier)
    (hname : kindNamed session.table session.cursor.current.text = kind)
    (hcallable : kind ∈ DefinitionKind.callables) :
    Traced known .statement
      (do
        let node ← call expression
        require .semicolon .missingSemicolon
        return node)
      session fun node later => session.Uses later node.references := by
  obtain ⟨id, hlookup, hentry⟩ := lookup_of_kindNamed hname fun hundefined => by
    simp [hundefined, DefinitionKind.callables] at hcallable
  refine (uses_call himproper (accounted_expression himproper) hlawful hkind hlookup
    (hentry ▸ hcallable)).bind fun node called _ hcalled hnode => ?_
  refine (traced_require _ _ hcalled rfl).silent.bind
    fun _ final hrequire hfinal hlast => .pure hfinal ?_
  exact hnode.thenNone hlast.1 hrequire hcalled (by simp)

theorem uses_identifierStatement (himproper : Improper known) (hlawful : session.Lawful known)
    (hkind : session.cursor.current.kind = .identifier) :
    Traced known .statement identifierStatement session fun node later =>
      session.Uses later node.references := by
  unfold identifierStatement
  rw [traced_current_bind, traced_kindOf_bind]
  cases hname : kindNamed session.table session.cursor.current.text with
  | plainVariable | valueParameter | varParameter | undefined =>
      exact uses_assignment himproper hlawful hkind
  | function | procedure =>
      exact uses_callStatement himproper hlawful hkind hname (by simp [DefinitionKind.callables])
  | program | constant | type => simpa using uses_noOp (traced_drop hlawful)

theorem uses_returnedValue (himproper : Improper known) (kind : DefinitionKind) (type : DataType)
    (hlawful : session.Lawful known) :
    Traced known .statement (returnedValue kind type) session fun values later =>
      session.Uses later (values.flatMap Node.references) := by
  unfold returnedValue
  rw [traced_current_bind]
  split
  · refine (accounted_expression himproper session hlawful).bind
      fun value read _ hreadable hvalue => ?_
    refine (traced_ensure _ _ hreadable hlawful.current rfl).silent.bind
      fun _ placed hplace hplaced hallowed => ?_
    refine (traced_ensure _ _ hplaced hlawful.current rfl).silent.bind
      fun _ final hcheck hfinal hfits => .pure hfinal ?_
    have huses := (hvalue.thenNone hallowed.1 hplace hreadable nofun).thenNone hfits.1 hcheck hplaced nofun
    simpa using huses
  · exact (traced_ensure _ _ hlawful hlawful.current rfl).silent.bind
      fun _ _ _ hfinal hallowed => .pure hfinal hallowed.1

/-- The target of a return is made for the innermost scope. -/
theorem uses_returnTarget (name : String) (type : DataType) (hlawful : session.Lawful known)
    (hname : name = (session.table.entry owner).name) :
    Traced known .statement
      (onTable fun table =>
        table.createDetached name (.plainVariable table.localScope.nextSlot) type)
      session fun target later => session.Uses later [⟨target, true⟩] := by
  subst hname
  refine (Traced.of_step rfl hlawful (.declare (.target owner type))).mono ?_
  rintro _ _ - - ⟨rfl, rfl⟩
  have hentry : (session.table.createDetached (session.table.entry owner).name
      (.plainVariable session.table.localScope.nextSlot) type).2.entry session.table.entries.size = _ :=
    SymbolTable.entry_createDetached _ _ _ _
  rw [if_pos rfl] at hentry
  refine ⟨?_, ?_, ?_⟩
  · simp [SymbolTable.createDetached]
  · intro reference hreference
    rw [List.mem_singleton.mp hreference]
    exact Or.inr (congrArg Entry.scope hentry)
  · have hdefined : SymbolTable.isUndefined (session.table.createDetached
        (session.table.entry owner).name (.plainVariable session.table.localScope.nextSlot) type).2
        session.table.entries.size = false := by
      rw [SymbolTable.isUndefined, hentry]
      rfl
    have hcount : [⟨session.table.entries.size, true⟩].countP (SymbolTable.lacks
        (session.table.createDetached (session.table.entry owner).name
          (.plainVariable session.table.localScope.nextSlot) type).2) = 0 := by
      simp [SymbolTable.lacks, hdefined]
    exact hcount ▸ rfl

theorem uses_returnStatement (himproper : Improper known) (hlawful : session.Lawful known) :
    Traced known .statement (returnStatement owner) session fun node later =>
      session.Uses later node.references := by
  unfold returnStatement
  refine (traced_nextToken hlawful).silent.bind fun _ moved _ hmoved hmove => ?_
  rw [traced_entry_bind]
  dsimp only
  refine (uses_returnTarget _ _ hmoved rfl).bind fun target made hmake hmade htarget => ?_
  refine (uses_returnedValue himproper _ _ hmade).bind fun values read hread hreadable hvalues => ?_
  refine (traced_require _ _ hreadable rfl).silent.bind
    fun _ final hrequire hfinal hlast => .pure hfinal ?_
  have huses := (hmove.1.trans htarget hmake hmoved nofun).trans hvalues hread hmade nofun
  have huses := huses.thenNone hlast.1 hrequire hreadable nofun
  rw [Node.references_of_none rfl, List.flatMap_cons]
  exact huses

/-! ## Control flow -/

theorem accounted_innerStatement {nested : Production Node} (h : Accounted known nested) :
    Accounted known (innerStatement nested) := by
  intro session hlawful
  unfold innerStatement
  refine (h session hlawful).bind fun node made _ hmade hnode => ?_
  refine (traced_matchToken (by simp) hmade).silent.bind
    fun _ final hmatch hfinal hmatched => .pure hfinal ?_
  exact hnode.thenNone hmatched.1 hmatch hmade nofun

theorem accounted_condition (himproper : Improper known) : Accounted known condition := by
  intro session hlawful
  unfold condition
  refine (traced_expect (by simp) _ hlawful rfl).silent.bind fun _ opened _ hopened hopen => ?_
  rw [traced_current_bind]
  refine (accounted_expression himproper opened hopened).bind
    fun node read hread hreadable hnode => ?_
  refine (traced_ensure _ _ hreadable hopened.current rfl).silent.bind
    fun _ checked hcheck hchecked hfits => ?_
  refine (traced_expect (by simp) _ hchecked rfl).silent.bind
    fun _ final hclose hfinal hlast => .pure hfinal ?_
  have huses := (hopen.1.trans hnode hread hopened nofun).thenNone hfits.1 hcheck hreadable nofun
  exact huses.thenNone hlast.1 hclose hchecked nofun

theorem uses_ifStatement (himproper : Improper known) {nested : Production Node}
    (h : Accounted known nested) (hlawful : session.Lawful known) :
    Traced known .statement (ifStatement nested) session fun node later =>
      session.Uses later node.references := by
  unfold ifStatement
  refine (traced_nextToken hlawful).silent.bind fun _ moved _ hmoved hmove => ?_
  refine (accounted_condition himproper moved hmoved).bind
    fun condition read hread hreadable hcondition => ?_
  refine (accounted_innerStatement h read hreadable).bind
    fun consequent first hfirst hdone hconsequent => ?_
  refine (traced_matchToken (by simp) hdone).silent.bind
    fun matched chosen hchoice hchosen hmatched => ?_
  have huses := (hmove.1.trans hcondition hread hmoved nofun).trans hconsequent hfirst hreadable nofun
  have huses := huses.thenNone hmatched.1 hchoice hdone nofun
  split
  · refine (accounted_innerStatement h chosen hchosen).bind
      fun alternative final hlast hfinal halternative => .pure hfinal ?_
    rw [Node.references_of_none rfl]
    simpa using huses.trans halternative hlast hchosen nofun
  · refine .pure hchosen ?_
    rw [Node.references_of_none rfl]
    simpa using huses

theorem uses_whileStatement (himproper : Improper known) {nested : Production Node}
    (h : Accounted known nested) (hlawful : session.Lawful known) :
    Traced known .statement (whileStatement nested) session fun node later =>
      session.Uses later node.references := by
  unfold whileStatement
  refine (traced_nextToken hlawful).silent.bind fun _ moved _ hmoved hmove => ?_
  refine (accounted_condition himproper moved hmoved).bind
    fun condition read hread hreadable hcondition => ?_
  refine (accounted_innerStatement h read hreadable).bind
    fun body final hlast hfinal hbody => .pure hfinal ?_
  rw [Node.references_of_none rfl]
  simpa using (hmove.1.trans hcondition hread hmoved nofun).trans hbody hlast hreadable nofun

theorem uses_doStatement (himproper : Improper known) {nested : Production Node}
    (h : Accounted known nested) (hlawful : session.Lawful known) :
    Traced known .statement (doStatement nested) session fun node later =>
      session.Uses later node.references := by
  unfold doStatement
  refine (traced_nextToken hlawful).silent.bind fun _ moved _ hmoved hmove => ?_
  refine (accounted_innerStatement h moved hmoved).bind fun body made hmake hmade hbody => ?_
  refine (traced_matchToken (by simp) hmade).silent.bind
    fun matched chosen hchoice hchosen hmatched => ?_
  have huses := (hmove.1.trans hbody hmake hmoved nofun).thenNone hmatched.1 hchoice hmade nofun
  split
  · refine (accounted_condition himproper chosen hchosen).bind
      fun condition final hlast hfinal hcondition => .pure hfinal ?_
    rw [Node.references_of_none rfl]
    simpa using huses.trans hcondition hlast hchosen nofun
  · refine (traced_flag _ hchosen rfl).silent.bind fun _ final hlast hfinal hflag => .pure hfinal ?_
    rw [Node.references_of_none rfl]
    simpa using huses.thenNone hflag.1 hlast hchosen nofun

/-! ## Compound statements -/

theorem traced_dropUnlessMoved_of_improper {place : Place} (start : Nat)
    (hlawful : session.Lawful known) :
    Traced known place (dropUnlessMoved start) session fun _ _ => True := by
  unfold dropUnlessMoved
  rw [traced_position_bind]
  split
  · exact traced_drop hlawful
  · exact .pure hlawful trivial

theorem uses_statements (himproper : Improper known) {nested : Production Node}
    (h : Accounted known nested) (hlawful : session.Lawful known) :
    Traced known .statement (loop (listedStatement nested) []) session fun statements later =>
      session.Uses later (statements.flatMap Node.references) := by
  refine .loop (fun statements later => session.Uses later (statements.flatMap Node.references)) hlawful
    (.refl _) fun statements later _ hlater hstatements => ?_
  unfold listedStatement
  rw [traced_current_bind]
  split
  · exact .pure hlater hstatements
  · rw [traced_position_bind]
    refine (h later hlater).bind fun node made hmake hmade hnode => ?_
    refine (traced_matchToken (by simp) hmade).silent.bind
      fun _ ended hend hended hmatched => ?_
    refine (traced_dropUnlessMoved_of_improper _ hended).silent.bind
      fun _ dropped hdrop hdropped hdropping => ?_
    refine (traced_synchronize _ hdropped).silent.bind
      fun _ final hlast hfinal hfound => .pure hfinal ⟨?_, Or.inl himproper⟩
    have huses := (hstatements.trans hnode hmake hlater nofun).thenNone hmatched.1 hend hmade nofun
    have huses := (huses.thenNone hdropping.1 hdrop hended nofun).thenNone hfound.1 hlast hdropped nofun
    simpa using huses

theorem uses_compoundOf (himproper : Improper known) {nested : Production Node}
    (h : Accounted known nested) (hlawful : session.Lawful known) :
    Traced known .statement (compoundOf nested) session fun node later =>
      session.Uses later node.references := by
  unfold compoundOf
  rw [traced_current_bind]
  refine (traced_nextToken hlawful).silent.bind fun _ moved _ hmoved hmove => ?_
  refine (uses_statements himproper h hmoved).bind
    fun statements listed hlist hlisted hstatements => ?_
  refine (traced_expect (by simp) _ hlisted rfl).silent.bind
    fun _ final hclose hfinal hlast => .pure hfinal ?_
  rw [Node.references_of_none rfl]
  exact (hmove.1.trans hstatements hlist hmoved nofun).thenNone hlast.1 hclose hlisted nofun

/-! ## Statements -/

theorem uses_statementNode (himproper : Improper known) {nested : Production Node}
    (h : Accounted known nested) (hlawful : session.Lawful known) :
    Traced known .statement (statementNode owner nested) session fun node later =>
      session.Uses later node.references := by
  have hconstants : Traced known .declaration
      (do
        let _ ← nextToken
        constants)
      session fun _ _ => True :=
    (traced_nextToken hlawful).bind fun _ _ _ hmoved _ => traced_constants hmoved
  unfold statementNode
  rw [traced_currentKind_bind]
  split
  case h_1 => exact uses_compoundOf himproper h hlawful
  case h_2 hkind => exact uses_identifierStatement himproper hlawful hkind
  case h_3 | h_4 | h_5 | h_6 => exact uses_noOp (traced_variableDeclaration hlawful)
  case h_7 => simpa using uses_noOp hconstants
  case h_8 => exact uses_doStatement himproper h hlawful
  case h_9 => exact uses_whileStatement himproper h hlawful
  case h_10 => exact uses_ifStatement himproper h hlawful
  case h_11 => exact uses_returnStatement himproper hlawful
  case h_12 =>
    refine .pure hlawful ?_
    rw [Node.references_of_none rfl]
    exact .refl _

theorem accounted_statementWithin (himproper : Improper known) :
    ∀ depth, Accounted known (statementWithin owner depth)
  | 0 => fun _ _ => .unfinished himproper
  | depth + 1 => by
      intro session hlawful
      unfold statementWithin statementOf
      rw [traced_current_bind]
      refine (uses_statementNode himproper (accounted_statementWithin himproper depth) hlawful).bind
        fun node final _ hfinal hnode => .pure hfinal ?_
      rwa [Node.references_withLine]

/-- A statement answers for its uses, whatever tokens it is made of. -/
theorem accounted_statement (himproper : Improper known) : Accounted known (statement owner) := by
  intro session hlawful
  unfold statement
  rw [traced_budget_bind]
  exact accounted_statementWithin himproper _ session hlawful

theorem accounted_compound (himproper : Improper known) : Accounted known (compound owner) :=
  fun _ hlawful => uses_compoundOf himproper (accounted_statement himproper) hlawful

end FrontEnd.Production
