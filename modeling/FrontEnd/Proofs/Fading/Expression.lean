import FrontEnd.Compile.Expression
import FrontEnd.Proofs.Fading

/-!
# Types that fade in expressions

Two runs of an expression, from tables that differ in faded types, make trees of the same shape.  A node gets its
type by a rule or from an entry: a rule that accepted the operands accepts them when they have faded, and the type
of an entry has faded already.  The number of arguments of a call is that of the children, so that it is right in
both runs or in neither.
-/

namespace FrontEnd.Production

open Coupling

variable {calm : Prop}

/-! ## Operators -/

/-- The operands are checked at the current token, and the node has the type that the check gives. -/
theorem binaryNode_eq (operator : NodeKind) (line : Nat) (left right : Node) :
    binaryNode operator line left right = (do
      let token ← current
      ensure (Operator.resultType? operator left.type right.type).isSome token .incompatibleTypes
      return { kind := operator, children := [left, right], line := some line,
               type := (Operator.resultType? operator left.type right.type).getD .undefined }) := by
  unfold binaryNode
  cases Operator.resultType? operator left.type right.type <;> rfl

section

variable {left left' right right' operand operand' : Node}

theorem fading_binaryNode (operator : NodeKind) (line : Nat) (hleft : Node.FadesIn calm left left')
    (hright : Node.FadesIn calm right right') :
    Fading calm (Node.FadesIn calm) (binaryNode operator line left right)
      (binaryNode operator line left' right') := by
  rw [binaryNode_eq, binaryNode_eq]
  refine fading_current.bind_eq fun token => fading_obeyed Node.Fades token fun hcalm haccepted => ?_
  obtain ⟨type, htype⟩ := Option.isSome_iff_exists.mp haccepted
  obtain ⟨type', htype', hfades⟩ := (hleft hcalm).type.resultType? (hright hcalm).type htype
  rw [htype, htype']
  exact ⟨rfl, .mk rfl hfades rfl rfl rfl (.cons (hleft hcalm) (.cons (hright hcalm) .nil))⟩

theorem fading_signed (sign : Token) (hoperand : Node.FadesIn calm operand operand') :
    Fading calm (Node.FadesIn calm) (signed sign operand) (signed sign operand') := by
  unfold signed
  cases sign.kind == TokenKind.plus with
  | true =>
      refine fading_obeyed Node.Fades sign fun hcalm haccepted => ?_
      obtain ⟨type, htype⟩ := Option.isSome_iff_exists.mp haccepted
      obtain ⟨type', htype', -⟩ := (hoperand hcalm).type.negationResult? htype
      exact ⟨by rw [htype']; rfl, hoperand hcalm⟩
  | false =>
      refine fading_obeyed Node.Fades sign fun hcalm haccepted => ?_
      obtain ⟨type, htype⟩ := Option.isSome_iff_exists.mp haccepted
      obtain ⟨type', htype', hfades⟩ := (hoperand hcalm).type.negationResult? htype
      rw [htype, htype']
      exact ⟨rfl, .mk rfl hfades rfl rfl rfl (.cons (hoperand hcalm) .nil)⟩

theorem fading_negated (mark : Token) (hoperand : Node.FadesIn calm operand operand') :
    Fading calm (Node.FadesIn calm) (negated mark operand) (negated mark operand') := by
  refine (fading_obeys mark fun hcalm => (hoperand hcalm).type.isCondition).bind_eq fun _ => .pure ?_
  exact .mk (fun _ => .refl .int) (.cons hoperand .nil)

end

section

variable {nested nested' : Production Node} (hnested : Fading calm (Node.FadesIn calm) nested nested')

include hnested

theorem fading_operation (level : OperatorLevel) {left left' : Node} (hleft : Node.FadesIn calm left left') :
    Fading calm (Turned (Node.FadesIn calm)) (operation level nested left) (operation level nested' left') := by
  refine fading_current.bind_eq fun token => ?_
  cases level.lookup token.kind with
  | none => exact .pure (.done hleft)
  | some operator =>
      refine fading_nextToken.bind_eq fun _ => hnested.bind fun right right' hright => ?_
      exact (fading_binaryNode operator token.line hleft hright).bind fun _ _ hnode => .pure (.yield hnode)

theorem fading_operations (levels : List OperatorLevel) :
    Fading calm (Node.FadesIn calm) (operations nested levels) (operations nested' levels) := by
  induction levels with
  | nil => exact hnested
  | cons level tighter ih =>
      exact ih.bind fun _ _ hleft => fading_loop (fun _ _ h => fading_operation ih level h) hleft

theorem fading_operandWithin (depth : Nat) :
    Fading calm (Node.FadesIn calm) (operandWithin nested depth) (operandWithin nested' depth) := by
  induction depth with
  | zero => exact .interrupted .unfinished
  | succ depth ih =>
      refine fading_current.bind_eq fun token => ?_
      split
      · exact fading_nextToken.bind_eq fun _ => ih.bind fun _ _ hnode => fading_signed token hnode
      · exact fading_nextToken.bind_eq fun _ => ih.bind fun _ _ hnode => fading_signed token hnode
      · exact fading_nextToken.bind_eq fun _ => ih.bind fun _ _ hnode => fading_negated token hnode
      · exact hnested

end

/-! ## Names -/

theorem fading_identifierEntry (name : Token) :
    Fading calm Eq (identifierEntry name) (identifierEntry name) := by
  refine (fading_lookup name.text).bind_eq fun found => ?_
  cases found with
  | some id =>
      refine (fading_entry id).bind fun entry entry' hentry => ?_
      rw [hentry.kind_eq]
      exact (fading_ensure _ name _).bind_eq fun _ => .pure rfl
  | none =>
      refine (fading_flagAt name _).bind_eq fun _ => (fading_enterOrDetach name.text).bind_eq fun id => ?_
      exact (fading_define id .undefined (some .undefined)).bind_eq fun _ => .pure rfl

theorem fading_resolveIdentifier : Fading calm Eq resolveIdentifier resolveIdentifier :=
  fading_current.bind_eq fun name => (fading_identifierEntry name).bind_eq fun id =>
    (fading_addLine id name.line).bind_eq fun _ => .pure rfl

theorem fading_variableReference : Fading calm (Node.FadesIn calm) variableReference variableReference := by
  refine fading_resolveIdentifier.bind_eq fun id => (fading_entry id).bind fun entry entry' hentry => ?_
  exact fading_nextToken.bind_eq fun _ => .pure (.mk (fun _ => hentry.resolvedType) .nil)

theorem fading_namedConstant (id : EntryId) (value : ConstantValue) :
    Fading calm (Node.FadesIn calm) (namedConstant id value) (namedConstant id value) := by
  refine fading_current.bind_eq fun token => (fading_addLine id token.line).bind_eq fun _ => ?_
  refine (fading_entry id).bind fun entry entry' hentry => ?_
  exact fading_nextToken.bind_eq fun _ => .pure (.mk (fun _ => hentry.resolvedType) (refl _))

/-! ## Calls -/

/-- The parameter in a place takes what it took. -/
theorem accepts_of_fades {formals formals' : List DataType} (hformals : List.Forall₂ DataType.Fades formals formals')
    {type type' : DataType} (htype : type.Fades type') {place : Nat}
    (h : formals[place]?.all (·.accepts type) = true) : formals'[place]?.all (·.accepts type') = true := by
  induction hformals generalizing place with
  | nil => rfl
  | cons hfirst _ ih =>
      cases place with
      | zero => exact hfirst.accepts htype h
      | succ place => exact ih h

/-- The type of a call and those of the parameters are those of entries, so they fade with these. -/
theorem signature_fades {table table' : SymbolTable} (h : table.Fades table') (id : EntryId) :
    (signature table id).1.Fades (signature table' id).1 ∧
      List.Forall₂ DataType.Fades (signature table id).2 (signature table' id).2 := by
  have hentry := h.entry id
  simp only [signature, hentry.kind_eq, hentry.routine?_eq]
  constructor
  · split
    · exact .refl .void
    · exact hentry.resolvedType
  · simp only [List.forall₂_map_left_iff, List.forall₂_map_right_iff]
    exact List.forall₂_same.mpr fun parameter _ => (h.entry parameter).resolvedType

theorem fades_callNode {arguments arguments' : List Node} (h : List.Forall₂ (Node.FadesIn calm) arguments arguments')
    {type type' : DataType} (htype : type.Fades type') (line : Nat) (id : EntryId) :
    Node.FadesIn calm (callNode type line id arguments) (callNode type' line id arguments') := by
  cases h with
  | nil => exact .mk (fun _ => htype) .nil
  | cons hfirst hrest =>
      exact .mk (fun _ => htype) (.cons (.mk (fun _ => .refl .undefined) (.cons hfirst hrest)) .nil)

section

variable {nested nested' : Production Node} (hnested : Fading calm (Node.FadesIn calm) nested nested')

include hnested

theorem fading_argument {formals formals' : List DataType} (hformals : List.Forall₂ DataType.Fades formals formals')
    {arguments arguments' : List Node} (h : List.Forall₂ (Node.FadesIn calm) arguments arguments') :
    Fading calm (Turned (List.Forall₂ (Node.FadesIn calm))) (argument nested formals arguments)
      (argument nested' formals' arguments') := by
  refine fading_current.bind_eq fun token => hnested.bind fun value value' hvalue => ?_
  rw [← h.length_eq]
  refine (fading_obeys token fun hcalm => accepts_of_fades hformals (hvalue hcalm).type).bind_eq fun _ => ?_
  have hmore : List.Forall₂ (Node.FadesIn calm) (arguments ++ [value]) (arguments' ++ [value']) :=
    List.rel_append h (.cons hvalue .nil)
  exact (fading_matchToken _).bind_eq fun _ =>
    .ite (fun _ => .pure (.yield hmore)) fun _ => .pure (.done hmore)

theorem fading_arguments {formals formals' : List DataType}
    (hformals : List.Forall₂ DataType.Fades formals formals') :
    Fading calm (List.Forall₂ (Node.FadesIn calm)) (arguments nested formals) (arguments nested' formals') :=
  (fading_check _).bind_eq fun _ => .ite (fun _ => .pure .nil) fun _ =>
    fading_loop (fun _ _ h => fading_argument hnested hformals h) .nil

theorem fading_call : Fading calm (Node.FadesIn calm) (call nested) (call nested') := by
  refine fading_current.bind_eq fun name => fading_resolveIdentifier.bind_eq fun id => ?_
  refine fading_nextToken.bind_eq fun _ => fading_table.bind fun table table' htable => ?_
  obtain ⟨htype, hformals⟩ := signature_fades htable id
  -- only the types of the signatures differ, and only by what has faded
  generalize signature table id = known at htype hformals ⊢
  generalize signature table' id = known' at htype hformals ⊢
  refine (fading_matchToken _).bind_eq fun _ => .ite (fun _ => ?_) fun _ => ?_
  · refine (fading_arguments hnested hformals).bind fun arguments arguments' harguments => ?_
    refine (fading_expect _ _).bind_eq fun _ => ?_
    rw [← harguments.length_eq, ← hformals.length_eq]
    exact (fading_ensure _ name _).bind_eq fun _ => .pure (fades_callNode harguments htype name.line id)
  · exact (fading_flag _).bind_eq fun _ => .pure (fades_callNode .nil htype name.line id)

/-! ## Factors -/

/-- Which production is next depends on the definition of a name, which does not fade. -/
theorem fading_identifierFactor :
    Fading calm (Node.FadesIn calm) (identifierFactor nested) (identifierFactor nested') := by
  refine fading_current.bind_eq fun token => (fading_lookup token.text).bind_eq fun found => ?_
  cases found with
  | none => exact fading_variableReference
  | some id =>
      refine (fading_entry id).bind fun entry entry' hentry => ?_
      rw [hentry.definition_eq]
      have hmisused : Fading calm (Node.FadesIn calm)
          (do flag .unexpectedToken; let _ ← nextToken; return { kind := .noOp })
          (do flag .unexpectedToken; let _ ← nextToken; return { kind := .noOp }) :=
        (fading_flag _).bind_eq fun _ => fading_nextToken.bind_eq fun _ => .pure (refl _)
      cases entry.definition with
      | constant value => exact fading_namedConstant id value
      | function | procedure => exact fading_call hnested
      | type | program => exact hmisused
      | _ => exact fading_variableReference

theorem fading_factor : Fading calm (Node.FadesIn calm) (factor nested) (factor nested') := by
  refine fading_current.bind_eq fun token => ?_
  cases literalNode? token with
  | some node => exact fading_nextToken.bind_eq fun _ => .pure (refl node)
  | none =>
      dsimp only
      split
      · exact fading_identifierFactor hnested
      · refine fading_nextToken.bind_eq fun _ => hnested.bind fun _ _ hnode => ?_
        exact (fading_expect _ _).bind_eq fun _ => .pure hnode
      · exact (fading_flag _).bind_eq fun _ => .pure (refl _)

/-! ## Expressions -/

theorem fading_operand : Fading calm (Node.FadesIn calm) (operand nested) (operand nested') :=
  fading_budget.bind_eq fun depth => fading_operandWithin (fading_factor hnested) depth

end

theorem fading_expressionWithin (depth : Nat) :
    Fading calm (Node.FadesIn calm) (expressionWithin depth) (expressionWithin depth) := by
  induction depth with
  | zero => exact .interrupted .unfinished
  | succ depth ih => exact fading_operations (fading_operand ih) Operator.levels

theorem fading_expression : Fading calm (Node.FadesIn calm) expression expression :=
  fading_budget.bind_eq fun depth => fading_expressionWithin depth

end FrontEnd.Production
