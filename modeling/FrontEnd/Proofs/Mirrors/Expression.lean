import FrontEnd.Compile.Expression
import FrontEnd.Proofs.Mirrors

/-!
# Expressions side by side

Every production for expressions is mirrored.  The trees that two runs make are the same but for lines,
which nothing that follows reads: types are checked, and symbols are looked up, by what `unlined` keeps.
-/

namespace FrontEnd.Production

open Coupling

variable {c : Coupling}

/-! ## Operators -/

theorem mirrors_binaryNode (operator : NodeKind) {line line' : Nat} (hline : c.aligned → line = line')
    {left left' right right' : Node} (hleft : c.Nodes left left') (hright : c.Nodes right right') :
    c.Mirrors c.Nodes (binaryNode operator line left right)
      (binaryNode operator line' left' right') := by
  have hchildren := Trees.pair hleft hright
  unfold binaryNode
  rw [hleft.type_eq, hright.type_eq]
  cases Operator.resultType? operator left'.type right'.type with
  | some type => exact .pure (.mk hchildren (.some hline))
  | none => exact (mirrors_flag _).bind_eq fun _ => .pure (.mk hchildren (.some hline))

theorem mirrors_operation (level : OperatorLevel) {operand operand' : Production Node}
    (hoperand : c.Mirrors c.Nodes operand operand') {left left' : Node} (hleft : c.Nodes left left') :
    c.Mirrors (Turned c.Nodes) (operation level operand left) (operation level operand' left') := by
  refine mirrors_current.bind fun token token' htoken => ?_
  rw [c.kind_eq htoken]
  cases level.lookup token'.kind with
  | none => exact .pure (.done hleft)
  | some operator =>
      refine mirrors_nextToken.bind fun _ _ _ => ?_
      refine hoperand.bind fun right right' hright => ?_
      refine (mirrors_binaryNode operator (fun h => c.line_eq h htoken) hleft hright).bind
        fun _ _ hnode => ?_
      exact .pure (.yield hnode)

theorem mirrors_operations {operand operand' : Production Node}
    (hoperand : c.Mirrors c.Nodes operand operand') (levels : List OperatorLevel) :
    c.Mirrors c.Nodes (operations operand levels) (operations operand' levels) := by
  induction levels with
  | nil => exact hoperand
  | cons level tighter ih =>
      exact ih.bind fun _ _ hleft => mirrors_loop (fun _ _ h => mirrors_operation level ih h) hleft

theorem mirrors_signed {sign sign' : Token} (hsign : c.token sign sign') {operand operand' : Node}
    (hoperand : c.Nodes operand operand') :
    c.Mirrors c.Nodes (signed sign operand) (signed sign' operand') := by
  unfold signed
  rw [hoperand.type_eq, c.kind_eq hsign]
  refine (mirrors_ensure rfl hsign _).bind_eq fun _ => ?_
  refine .ite (fun _ => .pure hoperand) fun _ => .pure ?_
  exact .mk (.single hoperand) (.some fun h => c.line_eq h hsign)

theorem mirrors_negated {mark mark' : Token} (hmark : c.token mark mark') {operand operand' : Node}
    (hoperand : c.Nodes operand operand') :
    c.Mirrors c.Nodes (negated mark operand) (negated mark' operand') := by
  unfold negated
  rw [hoperand.type_eq]
  refine (mirrors_ensure rfl hmark _).bind_eq fun _ => .pure ?_
  exact .mk (.single hoperand) (.some fun h => c.line_eq h hmark)

theorem mirrors_operandWithin {factor factor' : Production Node}
    (hfactor : c.Mirrors c.Nodes factor factor') {depth depth' : Nat} (hdepth : c.Depths depth depth') :
    c.Mirrors c.Nodes (operandWithin factor depth) (operandWithin factor' depth') := by
  induction depth generalizing depth' with
  | zero => exact .spent hdepth (operandWithin factor') rfl
  | succ depth ih =>
      obtain ⟨fewer, rfl, hfewer⟩ := hdepth.exists_succ
      refine mirrors_current.bind fun token token' htoken => ?_
      rw [c.kind_eq htoken]
      split
      · refine mirrors_nextToken.bind fun _ _ _ => ?_
        exact (ih hfewer).bind fun _ _ hnode => mirrors_signed htoken hnode
      · refine mirrors_nextToken.bind fun _ _ _ => ?_
        exact (ih hfewer).bind fun _ _ hnode => mirrors_signed htoken hnode
      · refine mirrors_nextToken.bind fun _ _ _ => ?_
        exact (ih hfewer).bind fun _ _ hnode => mirrors_negated htoken hnode
      · exact hfactor

/-! ## Names -/

theorem mirrors_identifierEntry {name name' : Token} (hname : c.token name name') :
    c.Mirrors Eq (identifierEntry name) (identifierEntry name') := by
  refine (mirrors_lookup (c.lower_eq hname)).bind_eq fun found => ?_
  cases found with
  | some id =>
      refine (mirrors_entry id).bind fun entry entry' hentry => ?_
      rw [hentry.kind_eq]
      exact (mirrors_ensure rfl hname _).bind_eq fun _ => .pure rfl
  | none =>
      refine (mirrors_flagAt hname _).bind_eq fun _ => ?_
      refine (mirrors_enterOrDetach (c.lower_eq hname)).bind_eq fun id => ?_
      exact (mirrors_define id .undefined (some .undefined)).bind_eq fun _ => .pure rfl

theorem mirrors_resolveIdentifier : c.Mirrors Eq resolveIdentifier resolveIdentifier := by
  refine mirrors_current.bind fun name name' hname => ?_
  refine (mirrors_identifierEntry hname).bind_eq fun id => ?_
  exact (mirrors_addLine id hname).bind_eq fun _ => .pure rfl

theorem mirrors_variableReference : c.Mirrors c.Nodes variableReference variableReference := by
  refine mirrors_resolveIdentifier.bind_eq fun id => ?_
  refine (mirrors_entry id).bind fun entry entry' hentry => ?_
  rw [hentry.resolvedType_eq]
  exact mirrors_nextToken.bind fun _ _ _ => .pure (.refl _)

theorem mirrors_namedConstant (id : EntryId) (value : ConstantValue) :
    c.Mirrors c.Nodes (namedConstant id value) (namedConstant id value) := by
  refine mirrors_current.bind fun token token' htoken => ?_
  refine (mirrors_addLine id htoken).bind_eq fun _ => ?_
  refine (mirrors_entry id).bind fun entry entry' hentry => ?_
  rw [hentry.resolvedType_eq]
  exact mirrors_nextToken.bind fun _ _ _ => .pure (.refl _)

/-! ## Calls -/

theorem mirrors_argument {nested nested' : Production Node} (hnested : c.Mirrors c.Nodes nested nested')
    (formals : List DataType) {arguments arguments' : List Node} (h : c.Trees arguments arguments') :
    c.Mirrors (Turned c.Trees) (argument nested formals arguments)
      (argument nested' formals arguments') := by
  refine mirrors_current.bind fun token token' htoken => ?_
  refine hnested.bind fun value value' hvalue => ?_
  rw [h.length_eq, hvalue.type_eq]
  refine (mirrors_ensure rfl htoken _).bind_eq fun _ => ?_
  refine (mirrors_matchToken _).bind_eq fun _ => ?_
  exact .ite (fun _ => .pure (.yield (h.snoc hvalue))) fun _ => .pure (.done (h.snoc hvalue))

theorem mirrors_arguments {nested nested' : Production Node} (hnested : c.Mirrors c.Nodes nested nested')
    (formals : List DataType) :
    c.Mirrors c.Trees (arguments nested formals) (arguments nested' formals) :=
  (mirrors_check _).bind_eq fun _ => .ite (fun _ => .pure (.refl _)) fun _ =>
    mirrors_loop (fun _ _ h => mirrors_argument hnested formals h) (.refl _)

theorem signature_eq {table table' : SymbolTable} (h : c.Tables table table') (id : EntryId) :
    signature table id = signature table' id := by
  have htypes (parameter : EntryId) :
      (table.entry parameter).resolvedType = (table'.entry parameter).resolvedType :=
    (h.entry parameter).resolvedType_eq
  have hparameters := (h.entry id).routine?_eq Routine.parameters fun _ => rfl
  simp only [signature, (h.entry id).kind_eq, (h.entry id).resolvedType_eq, hparameters, htypes]

theorem nodes_callNode {arguments arguments' : List Node} (h : c.Trees arguments arguments')
    (type : DataType) (id : EntryId) {line line' : Nat} (hline : c.aligned → line = line') :
    c.Nodes (callNode type line id arguments) (callNode type line' id arguments') := by
  have hempty : arguments.isEmpty = arguments'.isEmpty :=
    h.read List.isEmpty fun nodes => by cases nodes <;> rfl
  unfold callNode
  rw [hempty]
  split
  · exact .mk (.refl _) (.some hline)
  · exact .mk (.single (.mk h (.refl _))) (.some hline)

theorem mirrors_call {nested nested' : Production Node} (hnested : c.Mirrors c.Nodes nested nested') :
    c.Mirrors c.Nodes (call nested) (call nested') := by
  refine mirrors_current.bind fun name name' hname => ?_
  refine mirrors_resolveIdentifier.bind_eq fun id => ?_
  refine mirrors_nextToken.bind fun _ _ _ => ?_
  refine mirrors_table.bind fun table table' htable => ?_
  rw [signature_eq htable]
  have hline (haligned : c.aligned) : name.line = name'.line := c.line_eq haligned hname
  refine (mirrors_matchToken _).bind_eq fun _ => .ite (fun _ => ?_) fun _ => ?_
  · refine (mirrors_arguments hnested _).bind fun arguments arguments' harguments => ?_
    refine (mirrors_expect _ _).bind_eq fun _ => ?_
    rw [harguments.length_eq]
    refine (mirrors_ensure rfl hname _).bind_eq fun _ => .pure ?_
    exact nodes_callNode harguments _ id hline
  · exact (mirrors_flag _).bind_eq fun _ => .pure (nodes_callNode (.refl _) _ id hline)

/-! ## Factors -/

theorem literalNode?_eq {token token' : Token} (h : c.token token token') :
    literalNode? token = literalNode? token' := by
  unfold literalNode?
  rw [c.kind_eq h, c.value_eq h]

theorem mirrors_identifierFactor {nested nested' : Production Node}
    (hnested : c.Mirrors c.Nodes nested nested') :
    c.Mirrors c.Nodes (identifierFactor nested) (identifierFactor nested') := by
  refine mirrors_current.bind fun token token' htoken => ?_
  refine (mirrors_lookup (c.lower_eq htoken)).bind_eq fun found => ?_
  cases found with
  | none => exact mirrors_variableReference
  | some id =>
      refine (mirrors_entry id).bind fun entry entry' hentry => ?_
      have hdefinition := hentry.definition_eq
      have hmisused : c.Mirrors c.Nodes
          (do flag .unexpectedToken; let _ ← nextToken; return { kind := .noOp })
          (do flag .unexpectedToken; let _ ← nextToken; return { kind := .noOp }) :=
        (mirrors_flag _).bind_eq fun _ => mirrors_nextToken.bind fun _ _ _ => .pure (.refl _)
      -- the bodies of two routines may differ in lines, but which production is next is the same
      cases hfirst : entry.definition <;> cases hsecond : entry'.definition <;>
        simp only [hfirst, hsecond, Definition.unlined, Definition.mapRoutine, reduceCtorEq,
          Definition.constant.injEq] at hdefinition
      case constant.constant => exact hdefinition ▸ mirrors_namedConstant id _
      case function.function => exact mirrors_call hnested
      case procedure.procedure => exact mirrors_call hnested
      case type.type => exact hmisused
      case program.program => exact hmisused
      all_goals exact mirrors_variableReference

theorem mirrors_factor {nested nested' : Production Node} (hnested : c.Mirrors c.Nodes nested nested') :
    c.Mirrors c.Nodes (factor nested) (factor nested') := by
  refine mirrors_current.bind fun token token' htoken => ?_
  rw [literalNode?_eq htoken, c.kind_eq htoken]
  cases literalNode? token' with
  | some node => exact mirrors_nextToken.bind fun _ _ _ => .pure (.refl _)
  | none =>
      dsimp only
      split
      · exact mirrors_identifierFactor hnested
      · refine mirrors_nextToken.bind fun _ _ _ => ?_
        refine hnested.bind fun _ _ hnode => ?_
        exact (mirrors_expect _ _).bind_eq fun _ => .pure hnode
      · exact (mirrors_flag _).bind_eq fun _ => .pure (.refl _)

/-! ## Expressions -/

theorem mirrors_operand {nested nested' : Production Node} (hnested : c.Mirrors c.Nodes nested nested') :
    c.Mirrors c.Nodes (operand nested) (operand nested') :=
  mirrors_budget.bind fun _ _ hdepth => mirrors_operandWithin (mirrors_factor hnested) hdepth

theorem mirrors_expressionWithin {depth depth' : Nat} (hdepth : c.Depths depth depth') :
    c.Mirrors c.Nodes (expressionWithin depth) (expressionWithin depth') := by
  induction depth generalizing depth' with
  | zero => exact .spent hdepth expressionWithin rfl
  | succ depth ih =>
      obtain ⟨fewer, rfl, hfewer⟩ := hdepth.exists_succ
      exact mirrors_operations (mirrors_operand (ih hfewer)) _

theorem mirrors_expression : c.Mirrors c.Nodes expression expression :=
  mirrors_budget.bind fun _ _ hdepth => mirrors_expressionWithin hdepth

end FrontEnd.Production
