import FrontEnd.Compile.Statement
import FrontEnd.Proofs.Fading.Declaration
import FrontEnd.Proofs.Fading.Expression
import FrontEnd.Proofs.Unit

/-!
# Types that fade in statements

What has become undefined passes wherever it passed before (`accepted_of_fades`): if an expression or a statement is
read with no error about types, then with faded types in the table there is none either.  The same tokens are
consumed, the other errors are the same, and so are the trees but for types that have faded.

The variable that a return assigns to is made with the type of the routine, so it fades with it.
-/

namespace FrontEnd.Production

open Coupling

variable {calm : Prop}

/-! ## Assignments, calls and returns -/

theorem fading_assignment : Fading calm (Node.FadesIn calm) assignment assignment := by
  refine fading_variableReference.bind fun target target' htarget => ?_
  refine (fading_expect _ _).bind_eq fun _ => fading_current.bind_eq fun valueToken => ?_
  refine fading_expression.bind fun value value' hvalue => ?_
  refine (fading_obeys valueToken fun hcalm => (htarget hcalm).type.accepts (hvalue hcalm).type).bind_eq fun _ => ?_
  refine (fading_require _ _).bind_eq fun _ => .pure ?_
  exact .mk (fun hcalm => (htarget hcalm).type) (.cons htarget (.cons hvalue .nil))

theorem fading_kindOf (name : String) : Fading calm Eq (kindOf name) (kindOf name) := by
  refine (fading_lookup name).bind_eq fun found => ?_
  cases found with
  | some id => exact (fading_entry id).bind fun _ _ hentry => .pure hentry.kind_eq.symm
  | none => exact .pure rfl

theorem fading_identifierStatement : Fading calm (Node.FadesIn calm) identifierStatement identifierStatement := by
  refine fading_current.bind_eq fun token => (fading_kindOf token.text).bind_eq fun kind => ?_
  have hcall : Fading calm (Node.FadesIn calm)
      (do let node ← call expression; require .semicolon .missingSemicolon; return node)
      (do let node ← call expression; require .semicolon .missingSemicolon; return node) :=
    (fading_call fading_expression).bind fun _ _ hnode => (fading_require _ _).bind_eq fun _ => .pure hnode
  have hmisused : Fading calm (Node.FadesIn calm)
      (do flag .unexpectedToken; let _ ← nextToken; return { kind := .noOp })
      (do flag .unexpectedToken; let _ ← nextToken; return { kind := .noOp }) :=
    (fading_flag _).bind_eq fun _ => fading_nextToken.bind_eq fun _ => .pure (refl _)
  cases kind with
  | plainVariable | valueParameter | varParameter | undefined => exact fading_assignment
  | function | procedure => exact hcall
  | program | constant | type => exact hmisused

theorem fading_returnedValue (kind : DefinitionKind) {type type' : DataType} (htype : type.Fades type') :
    Fading calm (List.Forall₂ (Node.FadesIn calm)) (returnedValue kind type) (returnedValue kind type') := by
  refine fading_current.bind_eq fun token => .ite (fun _ => ?_) fun _ => ?_
  · refine fading_expression.bind fun value value' hvalue => (fading_ensure _ token _).bind_eq fun _ => ?_
    have hobeys (hcalm : calm) (hfirst : (kind == .procedure || type.accepts value.type) = true) :
        (kind == .procedure || type'.accepts value'.type) = true := by
      rw [Bool.or_eq_true] at hfirst ⊢
      exact hfirst.imp_right (htype.accepts (hvalue hcalm).type)
    exact (fading_obeys token hobeys).bind_eq fun _ => .pure (.cons hvalue .nil)
  · exact (fading_ensure _ token _).bind_eq fun _ => .pure .nil

theorem fading_returnStatement (routine : EntryId) :
    Fading calm (Node.FadesIn calm) (returnStatement routine) (returnStatement routine) := by
  refine fading_nextToken.bind_eq fun _ => (fading_entry routine).bind fun entry entry' hentry => ?_
  have htype : DataType.Fades (if entry.kind == .procedure then .void else entry.resolvedType)
      (if entry'.kind == .procedure then .void else entry'.resolvedType) := by
    rw [hentry.kind_eq]
    split
    · exact .refl .void
    · exact hentry.resolvedType
  -- the type may have faded, and all that is read of the routine besides is the same
  generalize (if entry.kind == .procedure then .void else entry.resolvedType : DataType) = type at htype ⊢
  generalize (if entry'.kind == .procedure then .void else entry'.resolvedType : DataType) = type' at htype ⊢
  rw [hentry.kind_eq, hentry.name_eq]
  refine (fading_onTable fun table table' h => ?_).bind_eq fun target => ?_
  · rw [h.localScope_eq]
    exact ⟨h.size.symm, h.createDetached _ _ (htype.imp_right fun hfaded => ⟨by simp [Definition.kind], hfaded⟩)⟩
  · refine (fading_returnedValue entry.kind htype).bind fun value value' hvalue => ?_
    refine (fading_require _ _).bind_eq fun _ => .pure ?_
    exact .mk (fun _ => htype) (.cons (.mk (fun _ => htype) .nil) hvalue)

/-! ## Control flow -/

theorem fading_condition : Fading calm (Node.FadesIn calm) condition condition := by
  refine (fading_expect _ _).bind_eq fun _ => fading_current.bind_eq fun token => ?_
  refine fading_expression.bind fun node node' hnode => ?_
  refine (fading_obeys token fun hcalm => (hnode hcalm).type.isCondition).bind_eq fun _ => ?_
  exact (fading_expect _ _).bind_eq fun _ => .pure hnode

section

variable {nested nested' : Production Node} (hnested : Fading calm (Node.FadesIn calm) nested nested')

include hnested

theorem fading_innerStatement : Fading calm (Node.FadesIn calm) (innerStatement nested) (innerStatement nested') :=
  hnested.bind fun _ _ hnode => (fading_matchToken _).bind_eq fun _ => .pure hnode

theorem fading_ifStatement : Fading calm (Node.FadesIn calm) (ifStatement nested) (ifStatement nested') := by
  refine fading_nextToken.bind_eq fun _ => fading_condition.bind fun _ _ hcondition => ?_
  refine (fading_innerStatement hnested).bind fun _ _ hconsequent => ?_
  refine (fading_matchToken _).bind_eq fun _ => .ite (fun _ => ?_) fun _ => .pure ?_
  · refine (fading_innerStatement hnested).bind fun _ _ halternative => .pure ?_
    exact .mk (fun _ => .refl _) (.cons hcondition (.cons hconsequent (.cons halternative .nil)))
  · exact .mk (fun _ => .refl _) (.cons hcondition (.cons hconsequent .nil))

theorem fading_whileStatement :
    Fading calm (Node.FadesIn calm) (whileStatement nested) (whileStatement nested') := by
  refine fading_nextToken.bind_eq fun _ => fading_condition.bind fun _ _ hcondition => ?_
  refine (fading_innerStatement hnested).bind fun _ _ hbody => .pure ?_
  exact .mk (fun _ => .refl _) (.cons hcondition (.cons hbody .nil))

theorem fading_doStatement : Fading calm (Node.FadesIn calm) (doStatement nested) (doStatement nested') := by
  refine fading_nextToken.bind_eq fun _ => (fading_innerStatement hnested).bind fun _ _ hbody => ?_
  refine (fading_matchToken _).bind_eq fun _ => .ite (fun _ => ?_) fun _ => ?_
  · refine fading_condition.bind fun _ _ hcondition => .pure ?_
    exact .mk (fun _ => .refl _) (.cons hbody (.cons hcondition .nil))
  · exact (fading_flag _).bind_eq fun _ => .pure (.mk (fun _ => .refl _) (.cons hbody .nil))

/-! ## Compound statements -/

omit hnested in
theorem fading_dropUnlessMoved (start : Nat) :
    Fading calm Eq (dropUnlessMoved start) (dropUnlessMoved start) :=
  fading_position.bind_eq fun _ => .ite
    (fun _ => (fading_flag _).bind_eq fun _ => fading_nextToken.bind_eq fun _ => .pure rfl)
    fun _ => .pure rfl

theorem fading_listedStatement {statements statements' : List Node}
    (h : List.Forall₂ (Node.FadesIn calm) statements statements') :
    Fading calm (Turned (List.Forall₂ (Node.FadesIn calm))) (listedStatement nested statements)
      (listedStatement nested' statements') := by
  refine fading_current.bind_eq fun token => .ite (fun _ => .pure (.done h)) fun _ => ?_
  refine fading_position.bind_eq fun start => hnested.bind fun node node' hnode => ?_
  refine (fading_matchToken _).bind_eq fun _ => (fading_dropUnlessMoved start).bind_eq fun _ => ?_
  refine (fading_synchronize _).bind_eq fun _ => .pure (.yield ?_)
  exact List.rel_append h (.cons hnode .nil)

theorem fading_compoundOf : Fading calm (Node.FadesIn calm) (compoundOf nested) (compoundOf nested') := by
  refine fading_current.bind_eq fun token => fading_nextToken.bind_eq fun _ => ?_
  refine (fading_loop (fun _ _ h => fading_listedStatement hnested h) .nil).bind
    fun statements statements' hstatements => ?_
  exact (fading_expect _ _).bind_eq fun _ => .pure (.mk (fun _ => .refl _) hstatements)

/-! ## Statements -/

theorem fading_statementNode (routine : EntryId) :
    Fading calm (Node.FadesIn calm) (statementNode routine nested) (statementNode routine nested') := by
  have hvariables : Fading calm (Node.FadesIn calm) (do variableDeclaration; return { kind := .noOp })
      (do variableDeclaration; return { kind := .noOp }) :=
    fading_variableDeclaration.bind_eq fun _ => .pure (refl _)
  refine fading_currentKind.bind_eq fun kind => ?_
  split
  case h_1 => exact fading_compoundOf hnested
  case h_2 => exact fading_identifierStatement
  case h_7 => exact fading_nextToken.bind_eq fun _ => fading_constants.bind_eq fun _ => .pure (refl _)
  case h_8 => exact fading_doStatement hnested
  case h_9 => exact fading_whileStatement hnested
  case h_10 => exact fading_ifStatement hnested
  case h_11 => exact fading_returnStatement routine
  case h_12 => exact .pure (refl _)
  all_goals exact hvariables

theorem fading_statementOf (routine : EntryId) :
    Fading calm (Node.FadesIn calm) (statementOf routine nested) (statementOf routine nested') :=
  fading_current.bind_eq fun _ => (fading_statementNode hnested routine).bind fun _ _ hnode =>
    .pure fun hcalm => (hnode hcalm).withLine _

end

theorem fading_statementWithin (routine : EntryId) (depth : Nat) :
    Fading calm (Node.FadesIn calm) (statementWithin routine depth) (statementWithin routine depth) := by
  induction depth with
  | zero => exact .interrupted .unfinished
  | succ depth ih => exact fading_statementOf ih routine

theorem fading_statement (routine : EntryId) :
    Fading calm (Node.FadesIn calm) (statement routine) (statement routine) :=
  fading_budget.bind_eq fun depth => fading_statementWithin routine depth

/-! ## Errors do not cascade -/

/-- An expression or a statement is read from two tables that differ in faded types.  Either no run comes to its end,
for the same reason, or both consume the same tokens and record the same errors that are not about types.  If the
first records none about types then neither does the second, and the types in its tree are those of the first or have
faded. -/
theorem accepted_of_fades {production : Production Node}
    (hproduction : production = expression ∨ ∃ routine, production = statement routine) (session : Session)
    {table : SymbolTable} (htable : session.table.Fades table) :
    match production session, production { session with table } with
    | .error cause, .error cause' => cause' = cause
    | .ok (node, later), .ok (node', later') =>
      later'.cursor = later.cursor ∧ later.table.Fades later'.table ∧
        ∃ added added', later.diagnostics = session.diagnostics ++ added ∧
          later'.diagnostics = session.diagnostics ++ added' ∧
          added'.filter (·.kind != .incompatibleTypes) = added.filter (·.kind != .incompatibleTypes) ∧
          ((∀ report ∈ added, report.kind ≠ .incompatibleTypes) → added' = added ∧ node.Fades node')
    | _, _ => False := by
  have hfading : Fading (production.Calm session) (Node.FadesIn (production.Calm session)) production production := by
    rcases hproduction with rfl | ⟨routine, rfl⟩
    · exact fading_expression
    · exact fading_statement routine
  have hsessions : session.Fades (production.Calm session) { session with table } :=
    { cursor := rfl, table := htable, dummies := rfl, others := rfl, diagnostics := fun _ => rfl }
  have halike := hfading.alike hsessions id
  cases hfirst : production session <;> cases hsecond : production { session with table } <;>
    rw [hfirst, hsecond] at halike
  case error.error => exact halike
  case ok.ok first second =>
    obtain ⟨hnodes, hlater⟩ := halike
    obtain ⟨added, hadded⟩ := hfading.prolongs.of_run hfirst
    obtain ⟨added', hadded'⟩ := hfading.prolongs.of_run hsecond
    refine ⟨hlater.cursor, hlater.table, added, added', hadded.symm, hadded'.symm, ?_, fun hnone => ?_⟩
    · have hothers := hlater.others
      rw [Session.others, Session.others, ← hadded, ← hadded', List.filter_append, List.filter_append] at hothers
      exact List.append_cancel_left hothers
    · -- what is said of calm runs is claimed only now that the first is known to be one
      have hcalm : production.Calm session := by
        refine ⟨first.1, first.2, hfirst, ?_⟩
        rw [Session.clashes, Session.clashes, ← hadded, List.countP_append, Nat.add_eq_left, List.countP_eq_zero]
        simpa using hnone
      have hsame := hlater.diagnostics hcalm
      rw [← hadded, ← hadded'] at hsame
      exact ⟨List.append_cancel_left hsame, hnodes hcalm⟩
  all_goals exact halike

/-- A variable is assigned a sum with itself, and is then of no known type. -/
theorem accepted_of_fades_sum :
    let name : Token := ⟨.identifier, "x", ⟨1, 1⟩, none⟩
    let rest : List Token := [⟨.equals, "=", ⟨1, 3⟩, none⟩, ⟨.identifier, "x", ⟨1, 5⟩, none⟩,
      ⟨.plus, "+", ⟨1, 7⟩, none⟩, ⟨.integer, "1", ⟨1, 9⟩, some (.integer 1)⟩, ⟨.semicolon, ";", ⟨1, 10⟩, none⟩]
    let known : SymbolTable := (({} : SymbolTable).bindNew "x").modifyEntry 0
      fun entry => { entry with definition := .plainVariable 0, type := some .double }
    let table := known.modifyEntry 0 fun entry => { entry with type := some .undefined }
    let session : Session := { cursor := { stream := .ofTokens rest, current := name }, table := known }
    known.Fades table ∧ ∃ node node' later later', statement 0 session = .ok (node, later) ∧
      statement 0 { session with table } = .ok (node', later') ∧ later.diagnostics = [] ∧
        later'.diagnostics = [] ∧ node.type = .double ∧ node'.type = .undefined ∧ node.Fades node' := by
  intro name rest known table session
  have hfades : known.Fades table := .of_undefined known (by decide +kernel)
  have hread : ∃ outcome, statement 0 session = .ok outcome ∧
      outcome.1.type = .double ∧ outcome.2.diagnostics = [] := exists_answer (by decide +kernel)
  have hread' : ∃ outcome, statement 0 { session with table } = .ok outcome ∧
      outcome.1.type = .undefined ∧ outcome.2.diagnostics = [] := exists_answer (by decide +kernel)
  obtain ⟨⟨node, later⟩, hrun, htype, hsilent⟩ := hread
  obtain ⟨⟨node', later'⟩, hrun', htype', hsilent'⟩ := hread'
  have halike := accepted_of_fades (Or.inr ⟨0, rfl⟩) session hfades
  rw [hrun, hrun'] at halike
  obtain ⟨-, -, added, added', hadded, -, -, hcalm⟩ := halike
  have hnone : added = [] := (List.append_eq_nil_iff.mp (hadded.symm.trans hsilent)).2
  subst hnone
  exact ⟨hfades, node, node', later, later', hrun, hrun', hsilent, hsilent', htype, htype', (hcalm nofun).2⟩

end FrontEnd.Production
