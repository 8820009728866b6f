import FrontEnd.Proofs.Spelling

/-!
# Statements that are read are sentences

A statement that is read without a report is a sentence of the grammar, with the semicolon after it if one has to
follow (`statement_of_silent`).

The grammar is that of what is accepted.  It differs from the one that is meant in this: the statement that a
condition decides about may be missing where the next token begins none, as in `if (1) }`
(`statement_branchless`).  The body of a `do` cannot be missing, since the word `while` has to follow it and begins
a statement.
-/

namespace FrontEnd

namespace Session

/-- What has been read where a statement is sought: nothing, or a statement but for the semicolon after it. -/
inductive States (session : Session) : Session → Prop
  | none : session.cursor.current.kind = .semicolon ∨
      Production.statementStart.contains session.cursor.current.kind = false → States session session
  | complete {later : Session} : session.Spells (.part .complete) later → States session later
  | simple {later : Session} : session.Spells (.part .simple) later →
      later.cursor.current.kind = .semicolon → States session later

/-- Whether the tokens that lie between the current tokens of two sessions are a sentence of a grammar, with the
semicolon after them if there is one. -/
def ReadsSentence (rules : Construct → Form) (session later : Session) : Prop :=
  ∃ read ended after, session.cursor.unread = read ++ later.cursor.unread ∧
    ended ∈ [[], [TokenKind.semicolon]] ∧ later.kinds = ended ++ after ∧
      (Form.part .statement).Matches rules session.kinds after

variable {session between later : Session}

theorem kinds_eq (session : Session) :
    session.kinds = session.cursor.current.kind :: session.cursor.upcoming.map Token.kind :=
  rfl

/-- Where the session has moved on, a statement has been read. -/
theorem Spells.of_inner (h : session.Spells .inner later)
    (hmoved : later.cursor.position ≠ session.cursor.position) : session.Spells (.part .statement) later := by
  refine ⟨h.passes, h.current, h.spelled.of_inner.resolve_right fun ⟨hsame, _⟩ => hmoved ?_⟩
  obtain ⟨read, hpasses⟩ := h.passes
  have hlength := congrArg List.length hsame
  simp only [kinds, hpasses.unread, List.map_append, List.length_append, List.length_map] at hlength
  have hposition := hpasses.position
  omega

namespace States

theorem fit (h : session.States later) (hfit : session.Fit) : later.Fit := by
  cases h with
  | none => exact hfit
  | complete hspells | simple hspells _ => exact hspells.fit hfit

/-- A statement with the semicolon after it. -/
theorem closed (h : session.States between) (hsemicolon : between.Spells (.word [.semicolon]) later) :
    session.Spells (.part .statement) later := by
  cases h with
  | none => exact hsemicolon.mono fun _ _ hmatches => .part (.choice (by simp) hmatches)
  | complete hspells =>
      refine (hspells.cons (hsemicolon.mono fun _ _ hmatches => .single (.present hmatches))).mono ?_
      exact fun _ _ hmatches => .part (.choice (by simp) hmatches)
  | simple hspells _ =>
      refine (hspells.cons (hsemicolon.mono fun _ _ hmatches => .single hmatches)).mono ?_
      exact fun _ _ hmatches => .part (.choice (by simp) hmatches)

/-- A statement after which there is no semicolon, if it is not missing. -/
theorem unclosed (h : session.States later) (hkind : later.cursor.current.kind ≠ .semicolon)
    (hfit : session.Fit) : session.Spells .inner later := by
  cases h with
  | none hstart =>
      refine .still hfit (.choice (List.mem_cons_of_mem _ (List.mem_cons_self ..)) (.notBefore ?_))
      simpa [kinds_eq] using hstart.resolve_left hkind
  | complete hspells =>
      have hended : later.Spells (.sequence [.optional (.word [.semicolon])]) later :=
        .still (hspells.fit hfit) (.single .absent)
      have hstatement : session.Spells (.part .statement) later :=
        (hspells.cons hended).mono fun _ _ hmatches => .part (.choice (List.mem_cons_self ..) hmatches)
      exact hstatement.mono fun _ _ hmatches => .choice (List.mem_cons_self ..) hmatches
  | simple _ hsemicolon => exact absurd hsemicolon hkind

/-- Where the session has moved on, a sentence has been read. -/
theorem readsSentence (h : session.States later)
    (hmoved : later.cursor.position ≠ session.cursor.position) : session.ReadsSentence accepted later := by
  cases h with
  | none => exact absurd rfl hmoved
  | complete hspells =>
      obtain ⟨read, hpasses⟩ := hspells.passes
      refine ⟨read, [], later.kinds, hpasses.unread, List.mem_cons_self .., rfl, ?_⟩
      exact .part (.choice (List.mem_cons_self ..) (.cons hspells.spelled (.single .absent)))
  | simple hspells hsemicolon =>
      obtain ⟨read, hpasses⟩ := hspells.passes
      have hnext : later.kinds = .semicolon :: later.cursor.upcoming.map Token.kind := hsemicolon ▸ kinds_eq later
      have hended : (Form.sequence [.word [.semicolon]]).Matches accepted later.kinds
          (later.cursor.upcoming.map Token.kind) := by
        rw [hnext]
        exact .single (.word (List.mem_cons_self ..))
      refine ⟨read, [.semicolon], _, hpasses.unread, by simp, hnext, .part (.choice ?_ (.cons hspells.spelled hended))⟩
      exact List.mem_cons_of_mem _ (List.mem_cons_self ..)

end States

end Session

namespace Production

open Session

variable {α : Type} {session : Session}

/-- Whether a production reads a statement, or nothing, where it reports nothing. -/
def Stated (production : Production α) (session : Session) : Prop :=
  Cleanly production session fun _ later => session.Fit → session.States later

/-- A token is not dropped if something has been read before it. -/
theorem cleanly_dropUnlessMoved (start : Nat) (session : Session) :
    Cleanly (dropUnlessMoved start) session fun _ later => later = session ∧ session.cursor.position ≠ start := by
  rw [dropUnlessMoved, Cleanly, leads_bind, leads_position]
  split
  · exact Cleanly.of_flag _ (reads_nextToken.prolongs.bind fun _ => .pure _)
  · next hmoved => exact Cleanly.pure ⟨rfl, by simpa using hmoved⟩

section

variable {nested : Production Node} (hnested : ∀ session, Stated nested session)

include hnested

/-- With the semicolon after it a statement is read to its end. -/
theorem spelled_innerStatement (session : Session) : Spelled .inner (innerStatement nested) session := by
  refine Cleanly.bind (hnested session) fun node stated => ?_
  by_cases hkind : stated.cursor.current.kind = .semicolon
  · have hread : Spelled (.word [.semicolon]) nextToken stated := spelled_nextToken (by simp [hkind]) (by decide)
    rw [matchToken, bind_assoc, Cleanly, leads_bind, leads_check, beq_iff_eq.mpr hkind, if_pos rfl, bind_assoc]
    refine Cleanly.bind hread fun _ later => Cleanly.pure fun hsemicolon hstates hfit => ?_
    have hclosed := (hstates hfit).closed (hsemicolon ((hstates hfit).fit hfit))
    exact hclosed.mono fun _ _ hmatches => .choice (List.mem_cons_self ..) hmatches
  · rw [Cleanly, leads_bind, leads_matchToken_of_ne hkind]
    exact Cleanly.pure fun hstates hfit => (hstates hfit).unclosed hkind hfit

theorem cleanly_listedStatement (statements : List Node) (session : Session) :
    Cleanly (listedStatement nested statements) session
      (AfterTurn (fun _ later => session.Fit → session.Spells (.sequence []) later)
        fun _ later => session.Fit → session.Spells (.part .statement) later) := by
  rw [listedStatement, Cleanly, leads_bind, leads_current]
  split
  · exact Cleanly.pure fun hfit => .still hfit .nil
  · rw [leads_bind, leads_position]
    have hturn : Cleanly (do
        let node ← innerStatement nested
        dropUnlessMoved session.cursor.position
        let _ ← synchronize afterStatement
        return ForInStep.yield (statements ++ [node])) session (AfterTurn
          (fun _ later => session.Fit → session.Spells (.sequence []) later)
          fun _ later => session.Fit → session.Spells (.part .statement) later) := by
      refine Cleanly.bind (spelled_innerStatement hnested session) fun node stated => ?_
      refine Cleanly.bind (cleanly_dropUnlessMoved _ stated) fun _ kept => ?_
      refine Cleanly.bind (cleanly_synchronize afterStatement kept) fun _ later => Cleanly.pure ?_
      rintro hresumed ⟨rfl, hmoved⟩ hinner hfit
      obtain ⟨-, rfl, -⟩ := hresumed (hinner hfit).current
      exact (hinner hfit).of_inner hmoved
    simp only [innerStatement, bind_assoc, pure_bind] at hturn
    exact hturn

theorem spelled_compoundOf (hkind : session.cursor.current.kind = .leftBrace) :
    Spelled (.part .compound) (compoundOf nested) session := by
  refine Spelled.mono ?_ fun _ _ hmatches => .part hmatches
  refine Spelled.current (spelled_word (by simp [hkind]) (by decide) fun _ entered => ?_)
  refine (Spelled.loop (cleanly_listedStatement hnested) [] entered).bind fun statements listed => ?_
  exact (spelled_expect (by decide) _ listed).bind fun _ _ => .pure _

omit hnested in
theorem spelled_condition (session : Session) : Spelled (.part .condition) condition session := by
  refine Spelled.mono ?_ fun _ _ hmatches => .part hmatches
  refine (spelled_expect (by decide) _ session).bind fun _ opened => Spelled.current ?_
  refine (spelled_expression opened).bind fun node read => .skip (rests_ensure _ _ _) fun _ checked _ => ?_
  exact (spelled_expect (by decide) _ checked).bind fun _ _ => .pure _

theorem spelled_ifStatement (hkind : session.cursor.current.kind = .ifWord) :
    Spelled (.part .ifStatement) (ifStatement nested) session := by
  refine Spelled.mono ?_ fun _ _ hmatches => .part hmatches
  refine spelled_word (by simp [hkind]) (by decide) fun _ begun => ?_
  refine (spelled_condition begun).bind fun _ decided => ?_
  refine (spelled_innerStatement hnested decided).bind fun _ branched => Spelled.last ?_
  refine spelled_matchToken (by decide) (fun _ _ => .present) (fun middle => ?_) fun _ => ?_
  · exact (spelled_innerStatement hnested middle).bind fun _ _ => .pure _
  · exact Cleanly.pure fun hfit => .still hfit .absent

theorem spelled_whileStatement (hkind : session.cursor.current.kind = .whileWord) :
    Spelled (.part .whileStatement) (whileStatement nested) session := by
  refine Spelled.mono ?_ fun _ _ hmatches => .part hmatches
  refine spelled_word (by simp [hkind]) (by decide) fun _ begun => ?_
  refine (spelled_condition begun).bind fun _ decided => ?_
  exact (spelled_innerStatement hnested decided).bind fun _ _ => .pure _

/-- The word `while` is there after the body of a `do`, and it begins a statement, so the body is not missing. -/
theorem spelled_doStatement (hkind : session.cursor.current.kind = .doWord) :
    Spelled (.part .doStatement) (doStatement nested) session := by
  refine Spelled.mono ?_ fun _ _ hmatches => .part hmatches
  refine spelled_word (by simp [hkind]) (by decide) fun _ begun => ?_
  refine Cleanly.bind (spelled_innerStatement hnested begun) fun body read => ?_
  have hwhile : Spelled (.sequence [.word [.whileWord], .part .condition]) (do
      if ← matchToken .whileWord then
        let condition ← condition
        return { kind := .doWhileLoop, children := [body, condition] }
      else
        flag .missingWhile
        return { kind := .doWhileLoop, children := [body] } : Production Node) read := by
    refine spelled_matchToken (by decide) (fun _ _ hmatches => hmatches) (fun middle => ?_) fun _ => ?_
    · exact (spelled_condition middle).bind fun _ _ => .pure _
    · exact Cleanly.of_flag _ (.pure _)
  refine Cleanly.mono hwhile fun _ later hwhile hinner hfit => ?_
  have hrest := hwhile ((hinner hfit).fit hfit)
  refine Spells.cons ⟨(hinner hfit).passes, (hinner hfit).current, ?_⟩ hrest
  refine (hinner hfit).spelled.of_inner.resolve_right fun ⟨hsame, hstart⟩ => ?_
  obtain ⟨kind, hhead, hmem⟩ := hrest.spelled.exists_head
  have hnot := hstart kind (hsame ▸ hhead)
  rw [List.mem_singleton.mp hmem] at hnot
  exact absurd hnot (by decide)

end

/-! ## Assignments, calls and returns -/

/-- A simple statement is read if a semicolon comes after it. -/
theorem stated_of_simple {construct : Construct} {production : Production Node}
    (hmem : Form.part construct ∈ [Form.part .assignment, .part .call, .part .returnStatement])
    (h : Spelled (.part construct) production session) :
    Stated (do
      let node ← production
      require .semicolon .missingSemicolon
      return node) session := by
  refine Cleanly.bind h fun node read => ?_
  rw [require, bind_assoc, Cleanly, leads_bind, leads_current]
  by_cases hkind : read.cursor.current.kind = .semicolon
  · rw [beq_iff_eq.mpr hkind]
    refine Cleanly.pure fun hspells hfit => .simple ((hspells hfit).mono ?_) hkind
    exact fun _ _ hmatches => .part (.choice hmem hmatches)
  · rw [beq_false_of_ne hkind]
    exact Cleanly.of_flagged _ _ (.pure _)

theorem stated_assignment (hkind : session.cursor.current.kind = .identifier) : Stated assignment session := by
  have hread : Spelled (.part .assignment) (do
      let target ← variableReference
      expect .equals .missingEquals
      let valueToken ← current
      let value ← expression
      ensure (target.type.accepts value.type) valueToken .incompatibleTypes
      return ({ kind := .assign, children := [target, value], type := target.type } : Node)) session := by
    refine Spelled.mono ?_ fun _ _ hmatches => .part hmatches
    have htarget : Spelled (.word [.identifier]) variableReference session :=
      (spelled_variableReference hkind).mono fun _ _ => Form.Matches.of_single
    refine htarget.bind fun target named => (spelled_expect (by decide) _ named).bind fun _ assigned => ?_
    refine Spelled.current ((spelled_expression assigned).bind fun value _ => .rest ?_)
    exact (rests_ensure _ _ _).bind fun _ => .pure _
  have hstated := stated_of_simple (by simp) hread
  simp only [bind_assoc, pure_bind] at hstated
  exact hstated

theorem stated_identifierStatement (hkind : session.cursor.current.kind = .identifier) :
    Stated identifierStatement session := by
  have hof (name : String) : Leads (kindOf name) session (fun _ => True) fun _ later => later = session := by
    rw [kindOf, leads_bind, leads_lookup]
    split <;> rfl
  rw [identifierStatement, Stated, Cleanly, leads_bind, leads_current]
  refine Leads.bind (hof _) fun kind later hsame => ?_
  subst hsame
  split
  case h_1 | h_2 | h_3 | h_4 => exact stated_assignment hkind
  case h_5 | h_6 => exact stated_of_simple (by simp) (spelled_call spelled_expression hkind)
  case h_7 | h_8 | h_9 => exact Cleanly.of_flag _ (reads_nextToken.prolongs.bind fun _ => .pure _)

theorem spelled_returnedValue (kind : DefinitionKind) (type : DataType) (session : Session) :
    Spelled (.optional (.part .expression)) (returnedValue kind type) session := by
  refine Spelled.current ?_
  split
  · refine ((spelled_expression session).before fun _ => ?_).mono fun _ _ => .present
    exact (rests_ensure _ _ _).bind fun _ => (rests_ensure _ _ _).bind fun _ => .pure _
  · refine (Spelled.rest ((rests_ensure _ _ _).bind fun _ => .pure _)).mono fun _ _ hnil => ?_
    cases hnil
    exact .absent

theorem stated_returnStatement (routine : EntryId) (hkind : session.cursor.current.kind = .returnWord) :
    Stated (returnStatement routine) session := by
  have hread : Spelled (.part .returnStatement) (do
      let _ ← nextToken
      let entry ← entry routine
      let type := if entry.kind == .procedure then .void else entry.resolvedType
      let target ← onTable fun table =>
        table.createDetached entry.name (.plainVariable table.localScope.nextSlot) type
      let value ← returnedValue entry.kind type
      return ({ kind := .assign, type,
                children := { kind := .variableUse, type, entry := some target } :: value } : Node)) session := by
    refine Spelled.mono ?_ fun _ _ hmatches => .part hmatches
    refine spelled_word (by simp [hkind]) (by decide) fun _ begun => .skip (Relates.read _) fun entry looked _ => ?_
    refine .skip (rests_onTable _) fun target stored _ => ?_
    exact (spelled_returnedValue _ _ stored).bind fun value _ => .pure _
  have hstated := stated_of_simple (by simp) hread
  simp only [bind_assoc, pure_bind] at hstated
  exact hstated

/-! ## Statements -/

theorem stated_statementWithin (routine : EntryId) (depth : Nat) (session : Session) :
    Stated (statementWithin routine depth) session := by
  induction depth generalizing session with
  | zero => trivial
  | succ depth ih =>
      have hcomplete {construct : Construct} {production : Production Node}
          (hmem : Form.part construct ∈ [Form.part .compound, .part .ifStatement, .part .whileStatement,
            .part .doStatement, .part .declaration, .part .constants])
          (h : Spelled (.part construct) production session) : Stated production session :=
        Cleanly.mono h fun _ _ hspells hfit =>
          .complete ((hspells hfit).mono fun _ _ hmatches => .part (.choice hmem hmatches))
      have hnode : Stated (statementNode routine (statementWithin routine depth)) session := by
        rw [statementNode, Stated, Cleanly, leads_bind, leads_currentKind]
        split
        case h_1 hkind => exact hcomplete (by simp) (spelled_compoundOf ih hkind)
        case h_2 hkind => exact stated_identifierStatement hkind
        case h_3 hkind | h_4 hkind | h_5 hkind | h_6 hkind =>
          refine hcomplete (by simp) ((spelled_variableDeclaration ?_).before fun _ => .pure _)
          simp [typeWords, hkind]
        case h_7 hkind => exact hcomplete (by simp) (spelled_constants (fun _ => .pure _) hkind)
        case h_8 hkind => exact hcomplete (by simp) (spelled_doStatement ih hkind)
        case h_9 hkind => exact hcomplete (by simp) (spelled_whileStatement ih hkind)
        case h_10 hkind => exact hcomplete (by simp) (spelled_ifStatement ih hkind)
        case h_11 hkind => exact stated_returnStatement routine hkind
        case h_12 =>
          refine Cleanly.pure fun _ => .none ?_
          by_cases hsemicolon : session.cursor.current.kind = .semicolon
          · exact Or.inl hsemicolon
          · right
            simp_all [statementStart]
      rw [statementWithin, statementOf, Stated, Cleanly, leads_bind, leads_current]
      exact Cleanly.bind hnode fun node later => .pure fun hstates => hstates

/-! ## What is read -/

/-- What is no token is left where it is. -/
theorem statement_of_error (routine : EntryId) (hkind : session.cursor.current.kind = .error) :
    Leads (statement routine) session (fun _ => True) fun _ later => later = session := by
  rw [statement, leads_bind, leads_budget, statementWithin, statementOf, leads_bind, leads_current, leads_bind,
    statementNode, leads_bind, leads_currentKind, hkind]
  rfl

/-- A statement that is read without a report is a sentence of the grammar of what is accepted, if anything is
read. -/
theorem statement_of_silent {routine : EntryId} {node : Node} {later : Session}
    (hfits : ∀ token ∈ session.cursor.unread, token.Fits) (hrun : statement routine session = .ok (node, later))
    (hsilent : later.diagnostics = session.diagnostics)
    (hmoved : later.cursor.position ≠ session.cursor.position) : session.ReadsSentence accepted later := by
  have hcurrent : session.cursor.current.kind ≠ .error := fun hkind =>
    hmoved (((leads_of_ok hrun).mp (statement_of_error routine hkind)) ▸ rfl)
  have hstated : Stated (statement routine) session := by
    rw [statement, Stated, Cleanly, leads_bind, leads_budget]
    exact stated_statementWithin routine _ session
  exact (((leads_of_ok hrun).mp hstated).2 hsilent ⟨hfits, hcurrent⟩).readsSentence hmoved

/-- A session before `if (1) }`. -/
def branchless : Session :=
  let word (kind : TokenKind) : Token := ⟨kind, kind.text, ⟨1, 1⟩, none⟩
  let one : Token := ⟨.integer, "1", ⟨1, 1⟩, some (.integer 1)⟩
  { cursor := { stream := .ofTokens [word .leftParen, one, word .rightParen, word .rightBrace]
                current := word .ifWord }
    table := SymbolTable.unitTable }

/-- The branch is missing from `if (1) }`, and nothing is reported. -/
theorem statement_branchless :
    ∃ node later, statement SymbolTable.programId branchless = .ok (node, later) ∧
      later.diagnostics = branchless.diagnostics ∧ later.cursor.position ≠ branchless.cursor.position ∧
        ¬ branchless.ReadsSentence documented later := by
  have hread : ∃ outcome, statement SymbolTable.programId branchless = .ok outcome ∧
      outcome.2.diagnostics = branchless.diagnostics ∧
        outcome.2.cursor.position ≠ branchless.cursor.position ∧
          outcome.2.kinds = [.rightBrace, .endOfFile] := exists_answer (by decide +kernel)
  obtain ⟨⟨node, later⟩, hrun, hsilent, hmoved, hkinds⟩ := hread
  refine ⟨node, later, hrun, hsilent, hmoved, ?_⟩
  rintro ⟨read, ended, after, -, hended, hafter, hmatches⟩
  -- no semicolon follows
  obtain rfl : after = [.rightBrace, .endOfFile] := by
    simp only [List.mem_cons, List.not_mem_nil, or_false] at hended
    rcases hended with rfl | rfl
    · exact (hkinds.symm.trans hafter).symm
    · simp [hkinds] at hafter
  exact absurd hmatches.countP_endsStatements (by decide +kernel)

/-- The branch that is missing from `if (1) }` may be. -/
theorem statement_of_silent_branchless :
    ∃ node later, statement SymbolTable.programId branchless = .ok (node, later) ∧
      branchless.ReadsSentence accepted later := by
  have hread : ∃ outcome, statement SymbolTable.programId branchless = .ok outcome ∧
      outcome.2.diagnostics = branchless.diagnostics ∧
        outcome.2.cursor.position ≠ branchless.cursor.position := exists_answer (by decide +kernel)
  obtain ⟨⟨node, later⟩, hrun, hsilent, hmoved⟩ := hread
  exact ⟨node, later, hrun, statement_of_silent (by decide +kernel) hrun hsilent hmoved⟩

end Production

end FrontEnd
