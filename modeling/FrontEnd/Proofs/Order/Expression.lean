import FrontEnd.Proofs.Expression
import FrontEnd.Proofs.Order

/-!
# The order of what expressions record

Every production for an expression leaves all that is recorded in order and makes a tree whose nodes have their
places (`plants_expression`).  A sign, a negation, an argument and the name of a called routine are tokens that were
read before what follows them, and so the errors that are found at them are late.

A call has the line on which its routine is named, and that is the line recorded for it: the name is looked up once
to see that it is that of a routine and once more to record the line, and both times it leads to the same entry
(`leads_resolveIdentifier`).
-/

namespace FrontEnd

namespace DataType

/-- An operation has no array for its result. -/
theorem inRange_of_resultType? {operator : NodeKind} {left right type : DataType}
    (h : Operator.resultType? operator left right = some type) : type.InRange := by
  have harithmetic (h : left.arithmeticResult? right = some type) : type.InRange := by
    unfold arithmeticResult? at h
    split_ifs at h <;> exact Option.some.inj h ▸ trivial
  have hmodulo (h : left.moduloResult? right = some type) : type.InRange := by
    unfold moduloResult? at h
    split_ifs at h <;> exact Option.some.inj h ▸ trivial
  have hcomparison (h : left.comparisonResult? right = some type) : type.InRange := by
    unfold comparisonResult? at h
    split_ifs at h <;> exact Option.some.inj h ▸ trivial
  have hlogical (h : left.logicalResult? right = some type) : type.InRange := by
    unfold logicalResult? at h
    split_ifs at h
    exact Option.some.inj h ▸ trivial
  unfold Operator.resultType? at h
  split at h
  case h_1 | h_2 | h_3 | h_4 => exact harithmetic h
  case h_5 => exact hmodulo h
  case h_6 | h_7 => exact hlogical h
  case h_8 => exact hcomparison h

theorem inRange_negationResult? (operand : DataType) : (operand.negationResult?.getD undefined).InRange := by
  unfold negationResult?
  split
  · trivial
  · trivial
  · split
    · next hnumeric => cases operand with
        | scalar => trivial
        | array | record => simp [isNumeric] at hnumeric
    · trivial

end DataType

namespace Session

variable {tokens : List Token} {session : Session}

/-- A literal has its place, since no integer that is scanned is out of range. -/
theorem Ordered.places_literal (h : session.Ordered tokens) {token : Token} (htoken : token ∈ tokens) {node : Node}
    (hnode : Production.literalNode? token = some node) : session.Places node := by
  unfold Production.literalNode? at hnode
  split at hnode
  · next value _ hvalue =>
      obtain rfl := Option.some.inj hnode
      refine Node.forall_nodes ⟨nofun, nofun, fun _ => ⟨value, rfl, ?_⟩, fun _ => trivial⟩ (by simp)
      exact (h.scanned.integer token htoken value hvalue).2
  · obtain rfl := Option.some.inj hnode
    exact .node nofun nofun nofun trivial (by simp)
  · obtain rfl := Option.some.inj hnode
    exact .node nofun nofun nofun trivial (by simp)
  · obtain rfl := Option.some.inj hnode
    exact Node.forall_nodes ⟨nofun, nofun, nofun, fun h => absurd rfl h⟩ (by simp)
  · simp at hnode

/-- What stands for nothing has its place. -/
theorem places_noOp (session : Session) : session.Places { kind := .noOp } :=
  .node nofun nofun nofun trivial (by simp)

end Session

namespace Production

open Session

variable {tokens : List Token} {session : Session}

/-- Whether a production makes a tree whose nodes have their places, wherever everything is in order. -/
def Plants (tokens : List Token) (production : Production Node) : Prop :=
  ∀ session, session.Ordered tokens → Orderly tokens production session fun tree later => later.Places tree

/-! ## Operators -/

theorem orderly_binaryNode (h : session.Ordered tokens) {operator : NodeKind} (hoperator : operator ∈ NodeKind.binary)
    {line : Nat} (hline : 1 ≤ line ∧ line ≤ session.cursor.current.line) {left right : Node}
    (hleft : session.Places left) (hright : session.Places right) :
    Orderly tokens (binaryNode operator line left right) session fun tree later => later.Places tree := by
  have hplaces {type : DataType} (htype : type.InRange) (later : Session) (honward : session.Onward later) :
      later.Places { kind := operator, children := [left, right], line := some line, type } := by
    refine .node ?_ ?_ ?_ htype ?_
    · rintro rfl
      simp [NodeKind.binary] at hoperator
    · rintro rfl
      simp [NodeKind.binary] at hoperator
    · rintro _ ⟨⟩
      exact ⟨hline.1, Nat.le_trans hline.2 honward.line⟩
    · simpa using ⟨honward.places hleft, honward.places hright⟩
  unfold binaryNode
  dsimp only
  cases htype : Operator.resultType? operator left.type right.type with
  | some type => exact .pure h (hplaces (DataType.inRange_of_resultType? htype) session (.refl session))
  | none =>
      have hundefined : DataType.undefined.InRange := trivial
      exact .bind (orderly_flag h .incompatibleTypes) fun _ later hlater honward _ =>
        .pure hlater (hplaces hundefined later honward)

theorem plants_operations {operand : Production Node} (h : Plants tokens operand) :
    ∀ levels : List OperatorLevel, levels ⊆ Operator.levels → Plants tokens (operations operand levels)
  | [], _ => h
  | level :: tighter, hlevels => by
      have htighter := plants_operations h tighter fun _ hmem => hlevels (List.mem_cons_of_mem _ hmem)
      intro session hsession
      unfold operations
      refine .bind (htighter session hsession) fun left begun hbegun _ hleft => ?_
      -- the loop keeps a tree to the left of the next operator
      refine .loop (fun left later => later.Places left) (fun left turn hturn _ hleft => ?_) hbegun hleft
      unfold operation
      rw [orderly_current_bind]
      cases hlookup : level.lookup turn.cursor.current.kind with
      | none => exact .pure hturn hleft
      | some operator =>
          have hoperator := (binary_of_lookup (hlevels (List.mem_cons_self ..)) hlookup).1
          refine .bind (orderly_nextToken hturn) fun _ next hnext honward _ => ?_
          refine .bind (htighter next hnext) fun right read hread honward' hright => ?_
          have hmark := (honward.trans honward').seen hturn.seen
          refine .bind (orderly_binaryNode hread hoperator (hread.line_of_seen hmark)
            ((honward.trans honward').places hleft) hright) fun tree made hmade _ htree => ?_
          exact .pure hmade htree

theorem orderly_signed (h : session.Ordered tokens) {sign : Token} (hsign : session.Seen tokens sign) {operand : Node}
    (hoperand : session.Places operand) :
    Orderly tokens (signed sign operand) session fun tree later => later.Places tree := by
  unfold signed
  refine .bind (orderly_ensure h _ hsign (.inl (by decide))) fun _ later hlater honward _ => ?_
  have hoperand' := honward.places hoperand
  split
  · exact .pure hlater hoperand'
  · refine .pure hlater (.node nofun nofun ?_ (DataType.inRange_negationResult? _) (by simpa using hoperand'))
    rintro _ ⟨⟩
    exact hlater.line_of_seen (honward.seen hsign)

theorem orderly_negated (h : session.Ordered tokens) {mark : Token} (hmark : session.Seen tokens mark) {operand : Node}
    (hoperand : session.Places operand) :
    Orderly tokens (negated mark operand) session fun tree later => later.Places tree := by
  unfold negated
  refine .bind (orderly_ensure h _ hmark (.inl (by decide))) fun _ later hlater honward _ => ?_
  refine .pure hlater (.node nofun nofun ?_ trivial (by simpa using honward.places hoperand))
  rintro _ ⟨⟩
  exact hlater.line_of_seen (honward.seen hmark)

theorem plants_operandWithin {factor : Production Node} (h : Plants tokens factor) (depth : Nat) :
    Plants tokens (operandWithin factor depth) := by
  induction depth with
  | zero => exact fun _ _ => trivial
  | succ depth ih =>
      intro session hsession
      unfold operandWithin
      rw [orderly_current_bind]
      split
      case h_1 | h_2 =>
        refine .bind (orderly_nextToken hsession) fun _ next hnext honward _ => ?_
        refine .bind (ih next hnext) fun operand read hread honward' hoperand => ?_
        exact orderly_signed hread ((honward.trans honward').seen hsession.seen) hoperand
      case h_3 =>
        refine .bind (orderly_nextToken hsession) fun _ next hnext honward _ => ?_
        refine .bind (ih next hnext) fun operand read hread honward' hoperand => ?_
        exact orderly_negated hread ((honward.trans honward').seen hsession.seen) hoperand
      case h_4 => exact h session hsession

/-! ## Names -/

/-- An identifier has an entry afterwards, which is a new one if it had none. -/
theorem orderly_identifierEntry (h : session.Ordered tokens) :
    Orderly tokens (identifierEntry session.cursor.current) session fun _ later =>
      later.cursor = session.cursor := by
  unfold identifierEntry
  rw [orderly_lookup_bind]
  cases session.table.lookup session.cursor.current.text with
  | some id =>
      dsimp only
      rw [orderly_entry_bind]
      exact .bind (orderly_ensure_current h _ _) fun _ _ hlater _ ⟨hcursor, _⟩ => .pure hlater hcursor
  | none =>
      refine .bind (orderly_flagAt h h.seen (.inr fun _ hmem => h.line_of_report hmem))
        fun _ noted hnoted _ ⟨hcursor, _⟩ => ?_
      refine .bind (orderly_enterOrDetach hnoted _) fun id entered hentered _ hcursor' => ?_
      refine .bind (orderly_changeEntry hentered id (List.Subset.refl _)
        ((hentered.entries id).declare .undefined .undefined rfl nofun trivial)) fun _ _ hlater _ hchanged => ?_
      exact .pure hlater (by rw [hchanged, hcursor', hcursor])

theorem orderly_resolveIdentifier (h : session.Ordered tokens) :
    Orderly tokens resolveIdentifier session fun _ later => later.cursor = session.cursor := by
  unfold resolveIdentifier
  rw [orderly_current_bind]
  refine .bind (orderly_identifierEntry h) fun id found hfound _ hcursor => ?_
  rw [← hcursor]
  exact .bind (orderly_addLine hfound id) fun _ _ hlater _ hchanged => .pure hlater (by rw [hchanged])

theorem orderly_variableReference (h : session.Ordered tokens) :
    Orderly tokens variableReference session fun tree later => later.Places tree ∧ tree.type.InRange := by
  unfold variableReference
  refine .bind (orderly_resolveIdentifier h) fun id found hfound _ _ => ?_
  rw [orderly_entry_bind]
  have htype := (hfound.entries id).resolvedType
  exact .bind (orderly_nextToken hfound) fun _ next hnext _ _ =>
    .pure hnext ⟨.node nofun nofun nofun htype (by simp), htype⟩

theorem plants_variableReference : Plants tokens variableReference :=
  fun _ h => (orderly_variableReference h).mono fun _ _ _ _ htree => htree.1

theorem orderly_namedConstant (h : session.Ordered tokens) {id : EntryId} {value : ConstantValue}
    (hvalue : (session.table.entry id).definition = .constant value) :
    Orderly tokens (namedConstant id value) session fun tree later => later.Places tree := by
  have hrange : value.InRange := (h.entries id).constant value hvalue
  unfold namedConstant
  rw [orderly_current_bind]
  refine .bind (orderly_addLine h id) fun _ used hused _ _ => ?_
  rw [orderly_entry_bind]
  refine .bind (orderly_nextToken hused) fun _ next hnext _ _ => .pure hnext ?_
  have htype := (hused.entries id).resolvedType
  cases value with
  | integer value =>
      exact Node.forall_nodes ⟨nofun, nofun, fun _ => ⟨value, rfl, hrange⟩, fun _ => htype⟩ (List.forall_mem_nil _)
  | real | character => exact .node nofun nofun nofun htype (List.forall_mem_nil _)

/-! ## Calls -/

theorem orderly_arguments {nested : Production Node} (hnested : Plants tokens nested) (formals : List DataType)
    (h : session.Ordered tokens) :
    Orderly tokens (arguments nested formals) session fun trees later =>
      ∀ tree ∈ trees, later.Places tree := by
  unfold arguments
  rw [orderly_check_bind]
  split
  · exact .pure h (by simp)
  · refine .loop (fun trees later => ∀ tree ∈ trees, later.Places tree)
      (fun trees turn hturn _ htrees => ?_) h (by simp)
    unfold argument
    rw [orderly_current_bind]
    refine .bind (hnested turn hturn) fun value read hread honward hvalue => ?_
    refine .bind (orderly_ensure hread _ (honward.seen hturn.seen) (.inl (by decide)))
      fun _ checked hchecked honward' _ => ?_
    refine .bind ((proceeds_matchToken .comma).orderly hchecked) fun _ later hlater honward'' _ => ?_
    have hall : ∀ tree ∈ trees ++ [value], later.Places tree := by
      intro tree hmem
      rcases List.mem_append.mp hmem with hold | hnew
      · exact (honward.trans (honward'.trans honward'')).places (htrees tree hold)
      · exact (honward'.trans honward'').places (List.mem_singleton.mp hnew ▸ hvalue)
    split <;> exact .pure hlater hall

/-- A call has its place if its line is recorded for its routine. -/
theorem places_callNode (h : session.Ordered tokens) {type : DataType} (htype : type.InRange) {id : EntryId}
    {line : Nat} (hline : line ∈ (session.table.entry id).lines) {arguments : List Node}
    (harguments : ∀ argument ∈ arguments, session.Places argument) :
    session.Places (callNode type line id arguments) := by
  refine Node.forall_nodes ⟨?_, fun _ => ⟨id, line, rfl, rfl, hline⟩, nofun, fun _ => htype⟩ ?_
  · rintro _ ⟨⟩
    exact (h.entries id).bounds line hline
  · intro child hchild
    unfold callNode at hchild
    dsimp only at hchild
    split at hchild
    · simp at hchild
    · obtain rfl := List.mem_singleton.mp hchild
      exact Places.node nofun nofun nofun trivial harguments

theorem orderly_call {nested : Production Node} (hnested : Plants tokens nested) (h : session.Ordered tokens)
    {id : EntryId} (hlookup : session.table.lookup session.cursor.current.text = some id)
    (hcallable : (session.table.entry id).kind ∈ DefinitionKind.callables) :
    Orderly tokens (call nested) session fun tree later =>
      later.Places tree ∧ tree.line = some session.cursor.current.line := by
  have hused := SymbolTable.entry_modifyEntry_self (SymbolTable.lt_of_callable hcallable)
    (·.addLine session.cursor.current.line)
  have hresolve : Orderly tokens resolveIdentifier session fun found later =>
      found = id ∧ later.cursor = session.cursor ∧
        session.cursor.current.line ∈ (later.table.entry found).lines := by
    have hdefined : (session.table.entry id).kind ≠ .undefined := ne_of_mem_of_not_mem hcallable (by decide)
    refine (leads_resolveIdentifier hlookup hdefined).mpr ?_
    obtain ⟨hlater, honward, -⟩ := orderly_addLine h id
    exact ⟨hlater, honward, rfl, rfl, hused ▸ Entry.mem_lines_addLine _ _⟩
  unfold call
  rw [orderly_current_bind]
  refine .bind hresolve fun found named hnamed honward ⟨hfound, hcursor, hline⟩ => ?_
  refine .bind (orderly_nextToken hnamed) fun _ next hnext honward' _ => ?_
  rw [orderly_table_bind]
  have htype : (signature next.table found).1.InRange := by
    simp only [signature]
    split
    · trivial
    · exact (hnext.entries found).resolvedType
  -- whatever follows, the line of the name stays recorded
  have hplaces {later : Session} (hlater : later.Ordered tokens) (honward'' : next.Onward later) {trees : List Node}
      (htrees : ∀ tree ∈ trees, later.Places tree) :
      later.Places (callNode (signature next.table found).1 session.cursor.current.line found trees) :=
    places_callNode hlater htype (honward''.lines found (honward'.lines found hline)) htrees
  refine .bind ((proceeds_matchToken .leftParen).orderly hnext) fun matched opened hopened hopen _ => ?_
  cases matched with
  | true =>
      refine .bind (orderly_arguments hnested _ hopened) fun trees read hread hreading htrees => ?_
      refine .bind ((proceeds_expect .rightParen .missingRightParen).orderly hread)
        fun _ closed hclosed hclosing _ => ?_
      have hname := (honward.trans (honward'.trans (hopen.trans (hreading.trans hclosing)))).seen h.seen
      refine .bind (orderly_ensure hclosed _ hname (.inl (by decide)))
        fun _ checked hchecked hchecking _ => .pure hchecked ⟨?_, rfl⟩
      exact hplaces hchecked (hopen.trans (hreading.trans (hclosing.trans hchecking)))
        fun tree hmem => (hclosing.trans hchecking).places (htrees tree hmem)
  | false =>
      exact .bind (orderly_flag hopened .missingLeftParen) fun _ later hlater hflagging _ =>
        .pure hlater ⟨hplaces hlater (hopen.trans hflagging) (by simp), rfl⟩

/-! ## Factors -/

/-- A name that cannot stand here is dropped, and stands for nothing. -/
theorem plants_dropped : Plants tokens (do
    flag .unexpectedToken
    let _ ← nextToken
    return { kind := .noOp }) := by
  intro session hsession
  refine .bind (orderly_flag hsession .unexpectedToken) fun _ noted hnoted _ _ => ?_
  exact .bind (orderly_nextToken hnoted) fun _ next hnext _ _ => .pure hnext (places_noOp next)

theorem plants_identifierFactor {nested : Production Node} (hnested : Plants tokens nested) :
    Plants tokens (identifierFactor nested) := by
  intro session hsession
  unfold identifierFactor
  rw [orderly_current_bind, orderly_lookup_bind]
  cases hlookup : session.table.lookup session.cursor.current.text with
  | none => exact plants_variableReference session hsession
  | some id =>
      dsimp only
      rw [orderly_entry_bind]
      cases hdefinition : (session.table.entry id).definition with
      | constant value => exact orderly_namedConstant hsession hdefinition
      | function | procedure =>
          refine (orderly_call hnested hsession hlookup ?_).mono fun _ _ _ _ hcall => hcall.1
          simp [Entry.kind, hdefinition, Definition.kind, DefinitionKind.callables]
      | type | program => exact plants_dropped session hsession
      | plainVariable | valueParameter | varParameter | undefined =>
          exact plants_variableReference session hsession

theorem plants_factor {nested : Production Node} (hnested : Plants tokens nested) :
    Plants tokens (factor nested) := by
  intro session hsession
  unfold factor
  rw [orderly_current_bind]
  cases hliteral : literalNode? session.cursor.current with
  | some node =>
      refine .bind (orderly_nextToken hsession) fun _ next hnext honward _ => .pure hnext ?_
      exact honward.places (hsession.places_literal hsession.current_mem hliteral)
  | none =>
      dsimp only
      split
      · exact plants_identifierFactor hnested session hsession
      · refine .bind (orderly_nextToken hsession) fun _ next hnext _ _ => ?_
        refine .bind (hnested next hnext) fun tree read hread _ htree => ?_
        exact .bind ((proceeds_expect .rightParen .missingRightParen).orderly hread)
          fun _ later hlater honward _ => .pure hlater (honward.places htree)
      · exact .bind (orderly_flag hsession .missingExpression) fun _ later hlater _ _ =>
          .pure hlater (places_noOp later)

/-! ## Expressions -/

theorem plants_operand {nested : Production Node} (hnested : Plants tokens nested) :
    Plants tokens (operand nested) := by
  intro session hsession
  unfold operand
  rw [orderly_budget_bind]
  exact plants_operandWithin (plants_factor hnested) _ session hsession

theorem plants_expressionWithin (depth : Nat) : Plants tokens (expressionWithin depth) := by
  induction depth with
  | zero => exact fun _ _ => trivial
  | succ depth ih => exact plants_operations (plants_operand ih) Operator.levels (List.Subset.refl _)

theorem plants_expression : Plants tokens expression := by
  intro session hsession
  unfold expression
  rw [orderly_budget_bind]
  exact plants_expressionWithin _ session hsession

end Production

end FrontEnd
