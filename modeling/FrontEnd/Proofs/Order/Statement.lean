import FrontEnd.Proofs.Order.Declaration
import FrontEnd.Proofs.Order.Expression

/-!
# The order of what statements record

Every production for a statement leaves all that is recorded in order and makes a tree whose nodes have their places
(`plants_statement`).

Every statement is given the line of its first token.  For a call that is the line it has already, since the name of
the routine is that token.
-/

namespace FrontEnd

namespace Session

variable {session : Session}

/-- Whether all nodes of a tree have their places, and the tree has a line itself if it is a call. -/
structure PlacesAt (session : Session) (line : Nat) (tree : Node) : Prop where
  places : session.Places tree
  call : tree.kind = .call → tree.line = some line

/-- Such a tree can be given the line. -/
theorem PlacesAt.withLine {tree : Node} {line : Nat} (h : session.PlacesAt line tree)
    (hline : 1 ≤ line ∧ line ≤ session.cursor.current.line) : session.Places { tree with line := some line } := by
  have hroot := h.places.root
  refine Node.forall_nodes ⟨?_, fun hcall => ?_, hroot.integer, hroot.type⟩ h.places.children
  · rintro _ ⟨⟩
    exact hline
  · obtain ⟨id, own, hentry, hown, hmem⟩ := hroot.call hcall
    exact ⟨id, own, hentry, (h.call hcall).symm.trans hown, hmem⟩

/-- A statement that is made of others, or of conditions, has its place if they have theirs. -/
theorem PlacesAt.composed {kind : NodeKind} (hkind : kind ≠ .call ∧ kind ≠ .integerConstant)
    {children : List Node} (hchildren : ∀ child ∈ children, session.Places child) (line : Nat) :
    session.PlacesAt line { kind, children } :=
  ⟨.node hkind.1 hkind.2 nofun trivial hchildren, fun h => absurd h hkind.1⟩

end Session

namespace Production

open Session

variable {tokens : List Token} {session : Session}

/-! ## Assignments, calls and returns -/

theorem orderly_assignment (h : session.Ordered tokens) (line : Nat) :
    Orderly tokens assignment session fun tree later => later.PlacesAt line tree := by
  unfold assignment
  refine .bind (orderly_variableReference h) fun target named hnamed _ ⟨htarget, htype⟩ => ?_
  refine .bind ((proceeds_expect .equals .missingEquals).orderly hnamed) fun _ given hgiven honward _ => ?_
  rw [orderly_current_bind]
  refine .bind (plants_expression given hgiven) fun value read hread honward' hvalue => ?_
  refine .bind (orderly_ensure hread _ (honward'.seen hgiven.seen) (.inl (by decide)))
    fun _ checked hchecked honward'' _ => ?_
  refine .bind ((proceeds_require .semicolon .missingSemicolon).orderly hchecked)
    fun _ later hlater hlast _ => .pure hlater ⟨.node nofun nofun nofun htype ?_, nofun⟩
  have htarget' := (honward.trans (honward'.trans (honward''.trans hlast))).places htarget
  simpa using ⟨htarget', (honward''.trans hlast).places hvalue⟩

/-- To ask what a name was declared as changes nothing. -/
theorem orderly_kindOf (h : session.Ordered tokens) (name : String) :
    Orderly tokens (kindOf name) session fun kind later =>
      later = session ∧ (kind = .undefined ∨
        ∃ id, session.table.lookup name = some id ∧ (session.table.entry id).kind = kind) := by
  unfold kindOf
  rw [orderly_lookup_bind]
  cases session.table.lookup name with
  | none => exact .pure h ⟨rfl, .inl rfl⟩
  | some id => exact ⟨h, .refl session, rfl, .inr ⟨id, rfl, rfl⟩⟩

/-- A call has the line of the name with which it begins. -/
theorem orderly_identifierStatement (h : session.Ordered tokens) :
    Orderly tokens identifierStatement session fun tree later =>
      later.PlacesAt session.cursor.current.line tree := by
  unfold identifierStatement
  rw [orderly_current_bind]
  refine .bind (orderly_kindOf h _) fun kind looked hlooked _ ⟨hsame, hkind⟩ => ?_
  subst hsame
  have hcall (hcallable : kind ∈ DefinitionKind.callables) :
      Orderly tokens (do
        let node ← call expression
        require .semicolon .missingSemicolon
        return node) looked fun tree later => later.PlacesAt looked.cursor.current.line tree := by
    obtain rfl | ⟨id, hlookup, rfl⟩ := hkind
    · exact absurd hcallable (by decide)
    · refine .bind (orderly_call plants_expression h hlookup hcallable) fun tree called hcalled _ ⟨htree, hline⟩ => ?_
      exact .bind ((proceeds_require .semicolon .missingSemicolon).orderly hcalled)
        fun _ later hlater honward _ => .pure hlater ⟨honward.places htree, fun _ => hline⟩
  cases kind with
  | plainVariable | valueParameter | varParameter | undefined => exact orderly_assignment h _
  | function | procedure => exact hcall (by decide)
  | program | constant | type =>
      refine .bind (orderly_flag h .unexpectedToken) fun _ noted hnoted _ _ => ?_
      exact .bind (orderly_nextToken hnoted) fun _ next hnext _ _ =>
        .pure hnext (.composed (by decide) (by simp) _)

/-- What a return answers with is found to be wrong after it has been read. -/
theorem orderly_returnedValue (h : session.Ordered tokens) (kind : DefinitionKind) (type : DataType) :
    Orderly tokens (returnedValue kind type) session fun trees later => ∀ tree ∈ trees, later.Places tree := by
  unfold returnedValue
  rw [orderly_current_bind]
  split
  · refine .bind (plants_expression session h) fun value read hread honward hvalue => ?_
    have htoken := honward.seen h.seen
    refine .bind (orderly_ensure hread _ htoken (.inl (by decide)))
      fun _ checked hchecked honward' _ => ?_
    refine .bind (orderly_ensure hchecked _ (honward'.seen htoken) (.inl (by decide)))
      fun _ later hlater honward'' _ => .pure hlater ?_
    simpa using (honward'.trans honward'').places hvalue
  · exact .bind (orderly_ensure_current h _ .missingExpression) fun _ _ hlater _ _ => .pure hlater (by simp)

theorem orderly_returnStatement (routine : EntryId) (h : session.Ordered tokens) (line : Nat) :
    Orderly tokens (returnStatement routine) session fun tree later => later.PlacesAt line tree := by
  unfold returnStatement
  refine .bind (orderly_nextToken h) fun _ next hnext _ _ => ?_
  rw [orderly_entry_bind]
  dsimp only
  have htype : (if (next.table.entry routine).kind == .procedure then DataType.void
      else (next.table.entry routine).resolvedType).InRange := by
    split
    · trivial
    · exact (hnext.entries routine).resolvedType
  generalize (if (next.table.entry routine).kind == .procedure then DataType.void
    else (next.table.entry routine).resolvedType) = type at htype ⊢
  have htarget : Orderly tokens (onTable fun table => table.createDetached (next.table.entry routine).name
      (.plainVariable table.localScope.nextSlot) type) next fun _ _ => True := by
    obtain ⟨hlater, honward⟩ := hnext.createDetached (next.table.entry routine).name
      (.plainVariable next.table.localScope.nextSlot) rfl nofun htype
    exact ⟨hlater, honward, trivial⟩
  refine .bind htarget fun target made hmade _ _ => ?_
  refine .bind (orderly_returnedValue hmade _ _) fun value read hread _ hvalue => ?_
  refine .bind ((proceeds_require .semicolon .missingSemicolon).orderly hread)
    fun _ later hlater honward _ => .pure hlater ⟨.node nofun nofun nofun htype ?_, nofun⟩
  refine List.forall_mem_cons.mpr ⟨.node nofun nofun nofun htype (by simp), fun tree hmem => ?_⟩
  exact honward.places (hvalue tree hmem)

/-! ## Control flow -/

theorem plants_innerStatement {nested : Production Node} (hnested : Plants tokens nested) :
    Plants tokens (innerStatement nested) := by
  intro session hsession
  unfold innerStatement
  refine .bind (hnested session hsession) fun tree read hread _ htree => ?_
  exact .bind ((proceeds_matchToken .semicolon).orderly hread) fun _ _ hlater honward _ =>
    .pure hlater (honward.places htree)

theorem plants_condition : Plants tokens condition := by
  intro session hsession
  unfold condition
  refine .bind ((proceeds_expect .leftParen .missingLeftParen).orderly hsession) fun _ opened hopened _ _ => ?_
  rw [orderly_current_bind]
  refine .bind (plants_expression opened hopened) fun tree read hread honward htree => ?_
  refine .bind (orderly_ensure hread _ (honward.seen hopened.seen) (.inl (by decide)))
    fun _ checked hchecked honward' _ => ?_
  exact .bind ((proceeds_expect .rightParen .missingRightParen).orderly hchecked) fun _ _ hlater honward'' _ =>
    .pure hlater ((honward'.trans honward'').places htree)

section

variable {nested : Production Node}

theorem orderly_ifStatement (hnested : Plants tokens nested) (h : session.Ordered tokens) (line : Nat) :
    Orderly tokens (ifStatement nested) session fun tree later => later.PlacesAt line tree := by
  unfold ifStatement
  refine .bind (orderly_nextToken h) fun _ next hnext _ _ => ?_
  refine .bind (plants_condition next hnext) fun condition read hread _ hcondition => ?_
  refine .bind (plants_innerStatement hnested read hread) fun consequent chosen hchosen honward hconsequent => ?_
  refine .bind ((proceeds_matchToken .elseWord).orderly hchosen) fun matched after hafter honward' _ => ?_
  have hfirst := (honward.trans honward').places hcondition
  have hsecond := honward'.places hconsequent
  split
  · refine .bind (plants_innerStatement hnested after hafter) fun alternative later hlater hlast halternative => ?_
    refine .pure hlater (.composed (by decide) ?_ line)
    simpa using ⟨hlast.places hfirst, hlast.places hsecond, halternative⟩
  · exact .pure hafter (.composed (by decide) (by simpa using ⟨hfirst, hsecond⟩) line)

theorem orderly_whileStatement (hnested : Plants tokens nested) (h : session.Ordered tokens) (line : Nat) :
    Orderly tokens (whileStatement nested) session fun tree later => later.PlacesAt line tree := by
  unfold whileStatement
  refine .bind (orderly_nextToken h) fun _ next hnext _ _ => ?_
  refine .bind (plants_condition next hnext) fun condition read hread _ hcondition => ?_
  refine .bind (plants_innerStatement hnested read hread) fun body later hlater honward hbody => ?_
  exact .pure hlater (.composed (by decide) (by simpa using ⟨honward.places hcondition, hbody⟩) line)

theorem orderly_doStatement (hnested : Plants tokens nested) (h : session.Ordered tokens) (line : Nat) :
    Orderly tokens (doStatement nested) session fun tree later => later.PlacesAt line tree := by
  unfold doStatement
  refine .bind (orderly_nextToken h) fun _ next hnext _ _ => ?_
  refine .bind (plants_innerStatement hnested next hnext) fun body read hread _ hbody => ?_
  refine .bind ((proceeds_matchToken .whileWord).orderly hread) fun matched after hafter honward _ => ?_
  split
  · refine .bind (plants_condition after hafter) fun condition later hlater hlast hcondition => ?_
    exact .pure hlater (.composed (by decide) (by simpa using ⟨(honward.trans hlast).places hbody, hcondition⟩) line)
  · refine .bind (orderly_flag hafter .missingWhile) fun _ later hlater hlast _ => ?_
    exact .pure hlater (.composed (by decide) (by simpa using (honward.trans hlast).places hbody) line)

/-! ## Compound statements -/

theorem proceeds_dropUnlessMoved (start : Nat) : Relates (Proceeds tokens) (dropUnlessMoved start) :=
  (Relates.read _).bind fun _ =>
    .ite ((proceeds_flag .unexpectedToken).bind fun _ => proceeds_nextToken.bind fun _ => .pure _) (.pure _)

/-- One turn of the loop over the statements of a list. -/
theorem orderly_listedStatement (hnested : Plants tokens nested) {trees : List Node} (h : session.Ordered tokens)
    (htrees : ∀ tree ∈ trees, session.Places tree) :
    Orderly tokens (listedStatement nested trees) session
      (AfterTurn (fun trees later => ∀ tree ∈ trees, later.Places tree)
        fun trees later => ∀ tree ∈ trees, later.Places tree) := by
  unfold listedStatement
  rw [orderly_current_bind]
  split
  · exact .pure h htrees
  · rw [orderly_position_bind]
    refine .bind (hnested session h) fun tree read hread honward htree => ?_
    refine .bind ((proceeds_matchToken .semicolon).orderly hread) fun _ ended hended honward' _ => ?_
    refine .bind ((proceeds_dropUnlessMoved _).orderly hended) fun _ moved hmoved honward'' _ => ?_
    refine .bind ((proceeds_synchronize afterStatement).orderly hmoved)
      fun _ later hlater hlast _ => .pure hlater fun other hmem => ?_
    have hrest := honward'.trans (honward''.trans hlast)
    rcases List.mem_append.mp hmem with hold | hnew
    · exact (honward.trans hrest).places (htrees other hold)
    · exact hrest.places (List.mem_singleton.mp hnew ▸ htree)

theorem orderly_compoundOf (hnested : Plants tokens nested) (h : session.Ordered tokens) (line : Nat) :
    Orderly tokens (compoundOf nested) session fun tree later => later.PlacesAt line tree := by
  unfold compoundOf
  rw [orderly_current_bind]
  refine .bind (orderly_nextToken h) fun _ next hnext honward _ => ?_
  have hlist : Orderly tokens (loop (listedStatement nested) []) next fun trees later =>
      ∀ tree ∈ trees, later.Places tree :=
    .loop _ (fun _ _ hturn _ htrees => orderly_listedStatement hnested hturn htrees) hnext (by simp)
  refine .bind hlist fun trees listed hlisted honward' htrees => ?_
  refine .bind ((proceeds_expect .rightBrace .missingRightBrace).orderly hlisted)
    fun _ later hlater hlast _ => .pure hlater ⟨.node nofun nofun ?_ trivial fun tree hmem => ?_, nofun⟩
  · rintro _ ⟨⟩
    exact hlater.line_of_seen ((honward.trans (honward'.trans hlast)).seen h.seen)
  · exact hlast.places (htrees tree hmem)

/-! ## Statements -/

theorem orderly_statementNode (routine : EntryId) (hnested : Plants tokens nested) (h : session.Ordered tokens) :
    Orderly tokens (statementNode routine nested) session fun tree later =>
      later.PlacesAt session.cursor.current.line tree := by
  have hnothing {later : Session} : later.PlacesAt session.cursor.current.line { kind := .noOp } :=
    .composed (by decide) (by simp) _
  unfold statementNode
  rw [orderly_currentKind_bind]
  split
  · exact orderly_compoundOf hnested h _
  · exact orderly_identifierStatement h
  · exact .bind (proceeds_variableDeclaration.orderly h) fun _ _ hlater _ _ => .pure hlater hnothing
  · exact .bind (proceeds_variableDeclaration.orderly h) fun _ _ hlater _ _ => .pure hlater hnothing
  · exact .bind (proceeds_variableDeclaration.orderly h) fun _ _ hlater _ _ => .pure hlater hnothing
  · exact .bind (proceeds_variableDeclaration.orderly h) fun _ _ hlater _ _ => .pure hlater hnothing
  · refine .bind (orderly_nextToken h) fun _ next hnext _ _ => ?_
    exact .bind (proceeds_constants.orderly hnext) fun _ _ hlater _ _ => .pure hlater hnothing
  · exact orderly_doStatement hnested h _
  · exact orderly_whileStatement hnested h _
  · exact orderly_ifStatement hnested h _
  · exact orderly_returnStatement routine h _
  · exact .pure h hnothing

theorem plants_statementWithin (routine : EntryId) (depth : Nat) :
    Plants tokens (statementWithin routine depth) := by
  induction depth with
  | zero => exact fun _ _ => trivial
  | succ depth ih =>
      intro session hsession
      unfold statementWithin statementOf
      rw [orderly_current_bind]
      refine .bind (orderly_statementNode routine ih hsession) fun tree later hlater honward htree => ?_
      exact .pure hlater (htree.withLine (hlater.line_of_seen (honward.seen hsession.seen)))

end

theorem plants_statement (routine : EntryId) : Plants tokens (statement routine) := by
  intro session hsession
  unfold statement
  rw [orderly_budget_bind]
  exact plants_statementWithin routine _ session hsession

theorem plants_compound (routine : EntryId) : Plants tokens (compound routine) :=
  fun session h => (orderly_compoundOf (plants_statement routine) h session.cursor.current.line).mono
    fun _ _ _ _ htree => htree.places

end Production

end FrontEnd
