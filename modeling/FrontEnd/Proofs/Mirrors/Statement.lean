import FrontEnd.Compile.Statement
import FrontEnd.Proofs.Mirrors.Declaration
import FrontEnd.Proofs.Mirrors.Expression

/-!
# Statements side by side

Every production for statements is mirrored.
-/

namespace FrontEnd.Production

open Coupling

variable {c : Coupling}

/-! ## Assignments, calls and returns -/

theorem mirrors_assignment : c.Mirrors c.Nodes assignment assignment := by
  refine mirrors_variableReference.bind fun target target' htarget => ?_
  refine (mirrors_expect _ _).bind_eq fun _ => ?_
  refine mirrors_current.bind fun valueToken valueToken' htoken => ?_
  refine mirrors_expression.bind fun value value' hvalue => ?_
  rw [htarget.type_eq, hvalue.type_eq]
  refine (mirrors_ensure rfl htoken _).bind_eq fun _ => ?_
  exact (mirrors_require _ _).bind_eq fun _ => .pure (.mk (.pair htarget hvalue) (.refl _))

theorem mirrors_kindOf {name name' : String} (hname : Text.lower name = Text.lower name') :
    c.Mirrors Eq (kindOf name) (kindOf name') := by
  refine (mirrors_lookup hname).bind_eq fun found => ?_
  cases found with
  | some id => exact (mirrors_entry id).bind fun _ _ hentry => .pure hentry.kind_eq
  | none => exact .pure rfl

theorem mirrors_identifierStatement : c.Mirrors c.Nodes identifierStatement identifierStatement := by
  refine mirrors_current.bind fun token token' htoken => ?_
  refine (mirrors_kindOf (c.lower_eq htoken)).bind_eq fun kind => ?_
  have hcall : c.Mirrors c.Nodes
      (do let node ← call expression; require .semicolon .missingSemicolon; return node)
      (do let node ← call expression; require .semicolon .missingSemicolon; return node) :=
    (mirrors_call mirrors_expression).bind fun _ _ hnode =>
      (mirrors_require _ _).bind_eq fun _ => .pure hnode
  have hmisused : c.Mirrors c.Nodes
      (do flag .unexpectedToken; let _ ← nextToken; return { kind := .noOp })
      (do flag .unexpectedToken; let _ ← nextToken; return { kind := .noOp }) :=
    (mirrors_flag _).bind_eq fun _ => mirrors_nextToken.bind fun _ _ _ => .pure (.refl _)
  cases kind with
  | plainVariable | valueParameter | varParameter | undefined => exact mirrors_assignment
  | function | procedure => exact hcall
  | program | constant | type => exact hmisused

theorem mirrors_returnedValue (kind : DefinitionKind) (type : DataType) :
    c.Mirrors c.Trees (returnedValue kind type) (returnedValue kind type) := by
  refine mirrors_current.bind fun token token' htoken => ?_
  rw [c.kind_eq htoken]
  refine .ite (fun _ => ?_) fun _ => (mirrors_ensure rfl htoken _).bind_eq fun _ => .pure (.refl _)
  refine mirrors_expression.bind fun value value' hvalue => ?_
  rw [hvalue.type_eq]
  refine (mirrors_ensure rfl htoken _).bind_eq fun _ => ?_
  exact (mirrors_ensure rfl htoken _).bind_eq fun _ => .pure (.single hvalue)

theorem mirrors_returnStatement (routine : EntryId) :
    c.Mirrors c.Nodes (returnStatement routine) (returnStatement routine) := by
  refine mirrors_nextToken.bind fun _ _ _ => ?_
  refine (mirrors_entry routine).bind fun entry entry' hentry => ?_
  rw [hentry.kind_eq, hentry.resolvedType_eq, hentry.name_eq]
  refine (mirrors_onTable fun table table' h => ?_).bind_eq fun target => ?_
  · rw [h.localScope_eq]
    exact ⟨h.size_eq, h.createDetached rfl _ _⟩
  · refine (mirrors_returnedValue _ _).bind fun value value' hvalue => ?_
    exact (mirrors_require _ _).bind_eq fun _ => .pure (.mk (.cons (.refl _) hvalue) (.refl _))

/-! ## Control flow -/

section

variable {nested nested' : Production Node} (hnested : c.Mirrors c.Nodes nested nested')

include hnested

theorem mirrors_innerStatement : c.Mirrors c.Nodes (innerStatement nested) (innerStatement nested') :=
  hnested.bind fun _ _ hnode => (mirrors_matchToken _).bind_eq fun _ => .pure hnode

omit hnested in
theorem mirrors_condition : c.Mirrors c.Nodes condition condition := by
  refine (mirrors_expect _ _).bind_eq fun _ => ?_
  refine mirrors_current.bind fun token token' htoken => ?_
  refine mirrors_expression.bind fun node node' hnode => ?_
  rw [hnode.type_eq]
  refine (mirrors_ensure rfl htoken _).bind_eq fun _ => ?_
  exact (mirrors_expect _ _).bind_eq fun _ => .pure hnode

theorem mirrors_ifStatement : c.Mirrors c.Nodes (ifStatement nested) (ifStatement nested') := by
  refine mirrors_nextToken.bind fun _ _ _ => ?_
  refine mirrors_condition.bind fun _ _ hcondition => ?_
  refine (mirrors_innerStatement hnested).bind fun _ _ hconsequent => ?_
  refine (mirrors_matchToken _).bind_eq fun _ => .ite (fun _ => ?_) fun _ => .pure ?_
  · refine (mirrors_innerStatement hnested).bind fun _ _ halternative => .pure ?_
    exact .mk (.cons hcondition (.pair hconsequent halternative)) (.refl _)
  · exact .mk (.pair hcondition hconsequent) (.refl _)

theorem mirrors_whileStatement :
    c.Mirrors c.Nodes (whileStatement nested) (whileStatement nested') := by
  refine mirrors_nextToken.bind fun _ _ _ => ?_
  refine mirrors_condition.bind fun _ _ hcondition => ?_
  exact (mirrors_innerStatement hnested).bind fun _ _ hbody =>
    .pure (.mk (.pair hcondition hbody) (.refl _))

theorem mirrors_doStatement : c.Mirrors c.Nodes (doStatement nested) (doStatement nested') := by
  refine mirrors_nextToken.bind fun _ _ _ => ?_
  refine (mirrors_innerStatement hnested).bind fun _ _ hbody => ?_
  refine (mirrors_matchToken _).bind_eq fun _ => .ite (fun _ => ?_) fun _ => ?_
  · exact mirrors_condition.bind fun _ _ hcondition =>
      .pure (.mk (.pair hbody hcondition) (.refl _))
  · exact (mirrors_flag _).bind_eq fun _ => .pure (.mk (.single hbody) (.refl _))

/-! ## Compound statements -/

omit hnested in
theorem mirrors_dropUnlessMoved (start : Nat) :
    c.Mirrors Eq (dropUnlessMoved start) (dropUnlessMoved start) :=
  mirrors_position.bind_eq fun _ => .ite
    (fun _ => (mirrors_flag _).bind_eq fun _ => mirrors_nextToken.bind fun _ _ _ => .pure rfl)
    fun _ => .pure rfl

theorem mirrors_listedStatement {statements statements' : List Node}
    (h : c.Trees statements statements') :
    c.Mirrors (Turned c.Trees) (listedStatement nested statements)
      (listedStatement nested' statements') := by
  refine mirrors_current.bind fun token token' htoken => ?_
  rw [isEnd_eq htoken, c.kind_eq htoken]
  refine .ite (fun _ => .pure (.done h)) fun _ => ?_
  refine mirrors_position.bind_eq fun start => ?_
  refine hnested.bind fun node node' hnode => ?_
  refine (mirrors_matchToken _).bind_eq fun _ => ?_
  refine (mirrors_dropUnlessMoved start).bind_eq fun _ => ?_
  exact (mirrors_synchronize _).bind fun _ _ _ => .pure (.yield (h.snoc hnode))

theorem mirrors_compoundOf : c.Mirrors c.Nodes (compoundOf nested) (compoundOf nested') := by
  refine mirrors_current.bind fun token token' htoken => ?_
  refine mirrors_nextToken.bind fun _ _ _ => ?_
  refine (mirrors_loop (fun _ _ h => mirrors_listedStatement hnested h) (.refl [])).bind
    fun statements statements' hstatements => ?_
  refine (mirrors_expect _ _).bind_eq fun _ => .pure ?_
  exact .mk hstatements (.some fun haligned => c.line_eq haligned htoken)

/-! ## Statements -/

theorem mirrors_statementNode (routine : EntryId) :
    c.Mirrors c.Nodes (statementNode routine nested) (statementNode routine nested') := by
  have hvariables : c.Mirrors c.Nodes (do variableDeclaration; return { kind := .noOp })
      (do variableDeclaration; return { kind := .noOp }) :=
    mirrors_variableDeclaration.bind_eq fun _ => .pure (.refl _)
  refine mirrors_currentKind.bind_eq fun kind => ?_
  split
  case h_1 => exact mirrors_compoundOf hnested
  case h_2 => exact mirrors_identifierStatement
  case h_7 =>
    exact mirrors_nextToken.bind fun _ _ _ => mirrors_constants.bind_eq fun _ => .pure (.refl _)
  case h_8 => exact mirrors_doStatement hnested
  case h_9 => exact mirrors_whileStatement hnested
  case h_10 => exact mirrors_ifStatement hnested
  case h_11 => exact mirrors_returnStatement routine
  case h_12 => exact .pure (.refl _)
  all_goals exact hvariables

theorem mirrors_statementOf (routine : EntryId) :
    c.Mirrors c.Nodes (statementOf routine nested) (statementOf routine nested') := by
  refine mirrors_current.bind fun token token' htoken => ?_
  refine (mirrors_statementNode hnested routine).bind fun node node' hnode => .pure ?_
  exact hnode.withLine (.some fun haligned => c.line_eq haligned htoken)

end

theorem mirrors_statementWithin (routine : EntryId) {depth depth' : Nat}
    (hdepth : c.Depths depth depth') :
    c.Mirrors c.Nodes (statementWithin routine depth) (statementWithin routine depth') := by
  induction depth generalizing depth' with
  | zero => exact .spent hdepth (statementWithin routine) rfl
  | succ depth ih =>
      obtain ⟨fewer, rfl, hfewer⟩ := hdepth.exists_succ
      exact mirrors_statementOf (ih hfewer) routine

theorem mirrors_statement (routine : EntryId) :
    c.Mirrors c.Nodes (statement routine) (statement routine) :=
  mirrors_budget.bind fun _ _ hdepth => mirrors_statementWithin routine hdepth

theorem mirrors_compound (routine : EntryId) :
    c.Mirrors c.Nodes (compound routine) (compound routine) :=
  mirrors_compoundOf (mirrors_statement routine)

end FrontEnd.Production
