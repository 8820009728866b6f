import FrontEnd.Proofs.Expression
import FrontEnd.Proofs.Rendering

/-!
# Expressions read back what a rendering writes

`expression` makes from every rendering of a formula the tree of the formula, consumes just the tokens of
the rendering, and reports nothing but operands and arguments that do not fit
(`expression_of_renders`).

## Strategy

`Recovers` says of a production that it reads back what a rendering writes.  It is bounded by the number of
tokens ahead, since the productions nest, and it asks for a suitable token after the rendering: one that
does not go on with what is being read (`Ends`).

The levels of precedence are climbed in two ways.  What is read at some level is read at all looser ones
(`ReadsWhole.loosen`).  An operation cannot be read at its own level by reading its left operand there,
since operations of one level group to the left: the operand is read as the first of several, and the loop
over the operators goes on from it (`ReadsLeft`, `Parsed.binary_left`).  `Parsed` collects both for the
induction over renderings (`parsed_of_renders`).
-/

namespace FrontEnd

/-! ## What may change on the way -/

/-- A table with the same names, whose entries differ at most in their lines. -/
structure SymbolTable.Relined (first second : SymbolTable) : Prop where
  size : second.entries.size = first.entries.size
  lookup : ∀ name, second.lookup name = first.lookup name
  agrees : ∀ id, (first.entry id).Agrees (second.entry id)

theorem SymbolTable.Relined.addLine {first second : SymbolTable} (h : first.Relined second)
    (id : EntryId) (line : Nat) : first.Relined (second.modifyEntry id (·.addLine line)) where
  size := by rw [size_modifyEntry, h.size]
  lookup name := h.lookup name
  agrees other := by
    rw [SymbolTable.entry_modifyEntry]
    split
    · next hsame =>
        rw [hsame.1]
        exact (h.agrees id).trans (Entry.agrees_addLine _ _)
    · exact h.agrees other

/-- The kinds of errors that say that operands or arguments do not fit. -/
def ErrorKind.misfits : List ErrorKind := [.incompatibleTypes, .wrongParameterCount]

/-- Whether the later errors are the earlier ones and then only such as say that something does not
fit. -/
def Tolerates (earlier later : List Diagnostic) : Prop :=
  ∃ more, later = earlier ++ more ∧ ∀ diagnostic ∈ more, diagnostic.kind ∈ ErrorKind.misfits

namespace Tolerates

variable {first second third : List Diagnostic}

@[refl] theorem refl (diagnostics : List Diagnostic) : Tolerates diagnostics diagnostics :=
  ⟨[], by simp, by simp⟩

theorem trans (h : Tolerates first second) (h' : Tolerates second third) :
    Tolerates first third := by
  obtain ⟨more, rfl, hmore⟩ := h
  obtain ⟨more', rfl, hmore'⟩ := h'
  refine ⟨more ++ more', List.append_assoc .., fun diagnostic hmem => ?_⟩
  exact (List.mem_append.mp hmem).elim (hmore diagnostic) (hmore' diagnostic)

theorem flag {kind : ErrorKind} (diagnostics : List Diagnostic) (token : Token)
    (hkind : kind ∈ ErrorKind.misfits) :
    Tolerates diagnostics (diagnostics ++ [Diagnostic.atToken token kind]) :=
  ⟨_, rfl, by simpa [Diagnostic.atToken] using hkind⟩

end Tolerates

/-- Whether a session stands before the tokens of a rendering, after which the cursor will be `last`, and
names mean what they mean in `table`. -/
structure Session.Before (table : SymbolTable) (tokens : List Token) (last : Cursor)
    (session : Session) : Prop where
  reads : session.cursor.Reads tokens last
  clean : ∀ token ∈ tokens, token.scanError? = none
  next : last.current.scanError? = none
  relined : table.Relined session.table

/-- Whether a session is what is left after a rendering: the cursor has come to `last`, and only lines and
misfits have been added. -/
structure Session.After (table : SymbolTable) (diagnostics : List Diagnostic) (last : Cursor)
    (later : Session) : Prop where
  cursor : later.cursor = last
  relined : table.Relined later.table
  tolerates : Tolerates diagnostics later.diagnostics

namespace Session.Before

variable {table : SymbolTable} {session : Session} {tokens : List Token} {token : Token} {last : Cursor}

theorem current_eq (h : session.Before table (token :: tokens) last) :
    session.cursor.current = token :=
  h.reads.current_eq

theorem ahead_le (h : session.Before table tokens last) : last.ahead ≤ session.cursor.ahead := by
  have := h.reads.ahead_add_length
  omega

/-- The first token is consumed without an error. -/
theorem consume (h : session.Before table (token :: tokens) last) :
    ∃ next, Session.Before table tokens last { session with cursor := next } ∧
      next.ahead < session.cursor.ahead ∧
        ∀ {stop : Interruption → Prop} {post : Token → Session → Prop},
          Production.Leads Production.nextToken session stop post ↔
            post next.current { session with cursor := next } := by
  have hclean := h.clean
  have hreads := h.reads
  generalize hcursor : session.cursor = cursor at hreads
  cases hreads with
  | @cons _ next _ _ hend hadvance hrest =>
      have hafter : next.current.scanError? = none := by
        cases hrest with
        | nil => exact h.next
        | cons _ _ _ => exact hclean _ (by simp)
      refine ⟨next, ⟨hrest, fun _ hmem => hclean _ (List.mem_cons_of_mem _ hmem), h.next, h.relined⟩,
        ?_, ?_⟩
      · have := Cursor.advance_ahead hadvance hend
        omega
      · intro stop post
        rw [Production.leads_nextToken (hcursor ▸ hadvance)]
        simp [Token.reports, hafter]

theorem cursor_eq (h : session.Before table [] last) : session.cursor = last :=
  h.reads.eq_last

/-- Where no tokens are left to be read, all of them have been. -/
theorem after {diagnostics : List Diagnostic} (h : session.Before table [] last)
    (htolerates : Tolerates diagnostics session.diagnostics) :
    session.After table diagnostics last :=
  ⟨h.cursor_eq, h.relined, htolerates⟩

theorem lookup_eq {id : EntryId} (h : session.Before table (token :: tokens) last)
    (hname : token.Names table id) :
    session.table.lookup session.cursor.current.text = some id := by
  rw [h.current_eq, h.relined.lookup]
  exact hname.lookup

/-- The use of a name is recorded on the way. -/
theorem addLine (h : session.Before table tokens last) (id : EntryId) (line : Nat) :
    Session.Before table tokens last
      { session with table := session.table.modifyEntry id (·.addLine line) } :=
  ⟨h.reads, h.clean, h.next, h.relined.addLine id line⟩

/-- A token of the kind that is asked for is consumed. -/
theorem matches_kind {kind : TokenKind} (h : session.Before table (token :: tokens) last)
    (hkind : token.kind = kind) :
    ∃ next, Session.Before table tokens last { session with cursor := next } ∧
      next.ahead < session.cursor.ahead ∧
        ∀ {stop : Interruption → Prop} {post : Bool → Session → Prop},
          Production.Leads (Production.matchToken kind) session stop post ↔
            post true { session with cursor := next } := by
  obtain ⟨next, hnext, hahead, hconsume⟩ := h.consume
  refine ⟨next, hnext, hahead, fun {stop post} => ?_⟩
  simp only [Production.matchToken, Production.leads_bind, Production.leads_check, h.current_eq,
    hkind, beq_self_eq_true, if_true]
  rw [hconsume]
  exact Iff.rfl

/-- Two lists of tokens are read one after the other. -/
theorem split {before after : List Token} (h : session.Before table (before ++ after) last) :
    ∃ middle, session.Before table before middle ∧
      ∀ later : Session, later.cursor = middle → table.Relined later.table →
        later.Before table after last := by
  obtain ⟨middle, hbefore, hafter⟩ := h.reads.append_inv
  refine ⟨middle, ⟨hbefore, fun _ hmem => h.clean _ (List.mem_append_left _ hmem), ?_, h.relined⟩,
    fun later hcursor hrelined =>
      ⟨hcursor ▸ hafter, fun _ hmem => h.clean _ (List.mem_append_right _ hmem), h.next, hrelined⟩⟩
  cases hafter with
  | nil => exact h.next
  | cons _ _ _ => exact h.clean _ (by simp)

end Session.Before

namespace Production

variable {table : SymbolTable} {session : Session} {last : Cursor}
  {stop : Interruption → Prop} {nested : Production Node}

/-- Whether a production makes the tree of a formula from tokens that write it, wherever fewer than
`bound` tokens are ahead and a token of a suitable kind comes after them. -/
def Recovers (table : SymbolTable) (production : Production Node) (formula : Formula)
    (tokens : List Token) (suitable : TokenKind → Prop) (bound : Nat) : Prop :=
  ∀ session last, Session.Before table tokens last session → session.cursor.ahead < bound →
    suitable last.current.kind →
    Leads production session (fun _ => False)
      fun node later => node.bare = formula.tree ∧ later.After table session.diagnostics last

/-- Whether a token of a kind ends what is read at a level: none of the operators there, or at a tighter
level, is written with it. -/
def Ends (level : Nat) (kind : TokenKind) : Prop :=
  ∀ operators ∈ Operator.levels.drop level, operators.lookup kind = none

instance (level : Nat) (kind : TokenKind) : Decidable (Ends level kind) :=
  inferInstanceAs (Decidable (∀ operators ∈ Operator.levels.drop level, _))

/-! ## Errors that are tolerated -/

theorem leads_ensure {holds : Bool} {token : Token} {kind : ErrorKind}
    {post : Unit → Session → Prop} (hkind : kind ∈ ErrorKind.misfits)
    (h : ∀ diagnostics, Tolerates session.diagnostics diagnostics →
      post () { session with diagnostics }) :
    Leads (ensure holds token kind) session stop post := by
  cases holds with
  | true => exact h _ (.refl _)
  | false => exact h _ (.flag _ token hkind)

theorem leads_binaryNode {operator : NodeKind} {line : Nat} {left right : Node}
    {post : Node → Session → Prop}
    (h : ∀ node diagnostics, Tolerates session.diagnostics diagnostics →
      node.bare = { kind := operator, children := [left.bare, right.bare] } →
      post node { session with diagnostics }) :
    Leads (binaryNode operator line left right) session stop post := by
  unfold binaryNode
  cases Operator.resultType? operator left.type right.type with
  | some type => exact h _ _ (.refl _) (by simp [Node.bare_eq])
  | none => exact h _ _ (.flag _ _ (by decide)) (by simp [Node.bare_eq])

theorem leads_signed {sign : Token} {operand : Node} {post : Node → Session → Prop}
    (h : ∀ node diagnostics, Tolerates session.diagnostics diagnostics →
      node.bare = (if sign.kind = .plus then operand.bare
        else { kind := .negate, children := [operand.bare] }) →
      post node { session with diagnostics }) :
    Leads (signed sign operand) session stop post := by
  simp only [signed, leads_bind]
  refine leads_ensure (by decide) fun diagnostics htolerates => ?_
  by_cases hplus : sign.kind = .plus
  · simp only [hplus, beq_self_eq_true, if_true, leads_pure]
    exact h _ _ htolerates (by simp [hplus])
  · simp only [beq_eq_false_iff_ne.mpr hplus, Bool.false_eq_true, if_false, leads_pure]
    exact h _ _ htolerates (by simp [hplus, Node.bare_eq])

theorem leads_negated {mark : Token} {operand : Node} {post : Node → Session → Prop}
    (h : ∀ node diagnostics, Tolerates session.diagnostics diagnostics →
      node.bare = { kind := .not, children := [operand.bare] } →
      post node { session with diagnostics }) :
    Leads (negated mark operand) session stop post := by
  simp only [negated, leads_bind]
  refine leads_ensure (by decide) fun diagnostics htolerates => ?_
  exact h _ _ htolerates (by simp [Node.bare_eq])

/-! ## Names -/

theorem leads_factor_identifier {post : Node → Session → Prop}
    (hkind : session.cursor.current.kind = .identifier) :
    Leads (factor nested) session stop post ↔ Leads (identifierFactor nested) session stop post := by
  simp only [factor, leads_bind, leads_current, literalNode?, hkind]

theorem leads_variableReference {name : Token} {id : EntryId} {diagnostics : List Diagnostic}
    (h : session.Before table [name] last) (hname : name.Names table id)
    (hkind : (table.entry id).kind ≠ .undefined)
    (hdiagnostics : Tolerates diagnostics session.diagnostics) :
    Leads variableReference session (fun _ => False)
      fun node later =>
        node.bare = (Formula.reference id).tree ∧ later.After table diagnostics last := by
  have hlookup := h.lookup_eq hname
  have hdefined : (session.table.entry id).kind ≠ .undefined := by
    rwa [(h.relined.agrees id).kind]
  simp only [variableReference, leads_bind]
  rw [leads_resolveIdentifier hlookup hdefined]
  obtain ⟨next, hnext, -, hconsume⟩ := (h.addLine id session.cursor.current.line).consume
  simp only [leads_entry]
  rw [hconsume]
  exact ⟨by simp [Node.bare_eq, Formula.tree], hnext.after hdiagnostics⟩

/-- A name that leads to a variable or a parameter. -/
theorem recovers_reference {name : Token} {id : EntryId} {bound : Nat} (hname : name.Names table id)
    (hkind : (table.entry id).kind ∈ [.plainVariable, .valueParameter, .varParameter]) :
    Recovers table (factor nested) (.reference id) [name] (fun _ => True) bound := by
  intro session last h _ _
  have hlookup := h.lookup_eq hname
  have hkind' : (session.table.entry id).kind ∈ [.plainVariable, .valueParameter, .varParameter] := by
    rwa [(h.relined.agrees id).kind]
  have hreference := leads_variableReference h hname (by rintro hnone; simp [hnone] at hkind)
    (.refl _)
  rw [leads_factor_identifier (by rw [h.current_eq]; exact hname.kind)]
  simp only [identifierFactor, leads_bind, leads_current, leads_lookup, hlookup, leads_entry]
  cases hdefinition : (session.table.entry id).definition <;>
    first
    | exact hreference
    | simp [Entry.kind, hdefinition, Definition.kind] at hkind'

/-- A name that leads to a constant. -/
theorem recovers_constant {name : Token} {id : EntryId} {value : ConstantValue} {bound : Nat}
    (hname : name.Names table id) (hvalue : (table.entry id).definition = .constant value) :
    Recovers table (factor nested) (.constant id value) [name] (fun _ => True) bound := by
  intro session last h _ _
  have hlookup := h.lookup_eq hname
  have hdefinition : (session.table.entry id).definition = .constant value :=
    (h.relined.agrees id).definition.trans hvalue
  rw [leads_factor_identifier (by rw [h.current_eq]; exact hname.kind)]
  obtain ⟨next, hnext, -, hconsume⟩ := (h.addLine id session.cursor.current.line).consume
  simp only [identifierFactor, leads_bind, leads_current, leads_lookup, hlookup, leads_entry,
    hdefinition, namedConstant, leads_changeEntry]
  rw [hconsume]
  refine ⟨?_, hnext.after (.refl _)⟩
  cases value <;> simp [Node.bare_eq, Formula.tree, constantNode, ConstantValue.literal, Literal.node]

theorem literalNode?_eq_some {token : Token} {value : Literal} (hkind : token.kind = value.tokenKind)
    (hvalue : token.value = some value.tokenValue) : literalNode? token = some value.node := by
  cases value <;> simp [literalNode?, hkind, hvalue, Literal.tokenKind, Literal.tokenValue,
    Literal.node]

theorem recovers_literal {token : Token} {value : Literal} {bound : Nat}
    (hkind : token.kind = value.tokenKind) (hvalue : token.value = some value.tokenValue) :
    Recovers table (factor nested) (.literal value) [token] (fun _ => True) bound := by
  intro session last h _ _
  obtain ⟨next, hnext, -, hconsume⟩ := h.consume
  simp only [factor, leads_bind, leads_current, h.current_eq, literalNode?_eq_some hkind hvalue]
  rw [hconsume]
  refine ⟨?_, hnext.after (.refl _)⟩
  cases value <;> simp [Node.bare_eq, Formula.tree, Literal.node]

/-! ## Calls -/

/-- The loop over the arguments reads those that are left, up to the closing parenthesis. -/
theorem leads_argumentLoop {formals : List DataType} {bound : Nat} {diagnostics : List Diagnostic}
    (hlast : last.current.kind = .rightParen) {arguments : List Formula.Argument}
    (hne : arguments ≠ []) (hcommas : ∀ argument ∈ arguments, argument.comma.Is .comma)
    (hnested : ∀ argument ∈ arguments,
      Recovers table nested argument.formula argument.tokens (Ends 0) bound)
    {session : Session} {budget : Nat} {listed : List Node}
    (h : session.Before table (Formula.Argument.join arguments) last)
    (hbound : session.cursor.ahead < bound) (hbudget : session.cursor.ahead < budget)
    (htolerates : Tolerates diagnostics session.diagnostics) :
    Leads (loopWithin (argument nested formals) budget listed) session (fun _ => False)
      fun nodes later =>
        nodes.map Node.bare =
            listed.map Node.bare ++ arguments.map (fun argument => argument.formula.tree) ∧
          later.After table diagnostics last := by
  induction arguments generalizing session budget listed with
  | nil => exact absurd rfl hne
  | cons first rest ih =>
      obtain ⟨budget, rfl⟩ := Nat.exists_eq_succ_of_ne_zero (Nat.ne_of_gt (Nat.zero_lt_of_lt hbudget))
      rw [leads_loopWithin_succ]
      simp only [argument, leads_bind, leads_current]
      cases rest with
      | nil =>
          have hread := hnested first (by simp) session last h hbound (by rw [hlast]; decide)
          refine hread.imp fun node read hnode => ?_
          refine leads_ensure (by decide) fun diagnostics' htolerates' => ?_
          refine (leads_matchToken_of_ne (by simp [hnode.2.cursor, hlast])).mpr ?_
          refine ⟨by simp [hnode.1], hnode.2.cursor, hnode.2.relined, ?_⟩
          exact htolerates.trans (hnode.2.tolerates.trans htolerates')
      | cons next rest =>
          obtain ⟨middle, hfirst, hmore⟩ := h.split
          have hcomma := hcommas first (by simp)
          -- the first argument ends at the comma after it
          have hmiddle : middle.current = first.comma := (hmore { session with cursor := middle } rfl
            h.relined).current_eq
          have hread := hnested first (by simp) session middle hfirst hbound
            (by rw [hmiddle, hcomma.kind]; decide)
          refine hread.imp fun node read hnode => ?_
          refine leads_ensure (by decide) fun diagnostics' htolerates' => ?_
          have hbefore := hmore { read with diagnostics := diagnostics' } hnode.2.cursor
            hnode.2.relined
          obtain ⟨cursor, hbefore, hahead, hmatch⟩ := hbefore.matches_kind hcomma.kind
          -- the comma pays for the next turn
          have hlt : cursor.ahead < session.cursor.ahead := by
            refine Nat.lt_of_lt_of_le hahead ?_
            simp only [hnode.2.cursor]
            exact hfirst.ahead_le
          rw [hmatch]
          refine (ih (by simp) (fun argument hmem => hcommas argument (List.mem_cons_of_mem _ hmem))
            (fun argument hmem => hnested argument (List.mem_cons_of_mem _ hmem)) hbefore
            (Nat.lt_trans hlt hbound) (Nat.lt_of_lt_of_le hlt (Nat.le_of_lt_succ hbudget))
            (htolerates.trans (hnode.2.tolerates.trans htolerates'))).imp ?_
          rintro nodes later ⟨hnodes, hafter⟩
          exact ⟨by rw [hnodes]; simp [hnode.1], hafter⟩

theorem bare_callNode {type : DataType} {line : Nat} {id : EntryId} {nodes : List Node}
    {formulas : List Formula} (h : nodes.map Node.bare = formulas.map Formula.tree) :
    (callNode type line id nodes).bare = (Formula.call id formulas).tree := by
  have hempty : nodes.isEmpty = formulas.isEmpty := by
    rw [← List.isEmpty_map (f := Node.bare), h, List.isEmpty_map]
  rw [Node.bare_eq, Formula.tree, Formula.trees_eq_map, ← h, ← hempty]
  unfold callNode
  cases nodes.isEmpty <;> simp [Node.bare_eq]

/-- The arguments between the parentheses are read, whether there are any or not. -/
theorem leads_arguments {formals : List DataType} {bound : Nat}
    (hlast : last.current.kind = .rightParen) {arguments : List Formula.Argument}
    (hcommas : ∀ argument ∈ arguments, argument.comma.Is .comma)
    (hrenders : ∀ argument ∈ arguments, Renders table 0 argument.formula argument.tokens)
    (hnested : ∀ argument ∈ arguments,
      Recovers table nested argument.formula argument.tokens (Ends 0) bound)
    (h : session.Before table (Formula.Argument.join arguments) last)
    (hbound : session.cursor.ahead < bound) :
    Leads (Production.arguments nested formals) session (fun _ => False) fun nodes later =>
      nodes.map Node.bare = arguments.map (fun argument => argument.formula.tree) ∧
        later.After table session.diagnostics last := by
  unfold Production.arguments
  simp only [leads_bind, leads_check]
  -- a parenthesis that closes at once means that there are no arguments, as no expression begins with it
  cases arguments with
  | nil =>
      have hclosing : session.cursor.current.kind = .rightParen := by rw [h.cursor_eq, hlast]
      simp only [hclosing, beq_self_eq_true, if_true, leads_pure]
      exact ⟨rfl, h.after (.refl _)⟩
  | cons first rest =>
      have hopening : session.cursor.current.kind ≠ .rightParen := by
        obtain ⟨more, hjoin⟩ := Formula.Argument.join_cons first rest
        obtain ⟨token, tokens, htokens, hstart⟩ := (hrenders first (by simp)).begins
        rw [hjoin, htokens] at h
        intro hclosing
        rw [← h.current_eq, hclosing] at hstart
        exact absurd hstart (by decide)
      have := session.cursor.ahead_le_remaining
      simp only [beq_eq_false_iff_ne.mpr hopening, Bool.false_eq_true, if_false, loop, leads_bind,
        leads_budget]
      exact leads_argumentLoop hlast (List.cons_ne_nil _ _) hcommas hnested h hbound (by omega)
        (.refl _)

theorem leads_call {name opening closing : Token} {id : EntryId}
    {arguments : List Formula.Argument} {bound : Nat} (hname : name.Names table id)
    (hcallable : (table.entry id).kind ∈ DefinitionKind.callables)
    (hopening : opening.Is .leftParen) (hclosing : closing.Is .rightParen)
    (hcommas : ∀ argument ∈ arguments, argument.comma.Is .comma)
    (hrenders : ∀ argument ∈ arguments, Renders table 0 argument.formula argument.tokens)
    (hnested : ∀ argument ∈ arguments,
      Recovers table nested argument.formula argument.tokens (Ends 0) bound)
    (h : session.Before table
      (name :: opening :: (Formula.Argument.join arguments ++ [closing])) last)
    (hbound : session.cursor.ahead < bound + 1) :
    Leads (call nested) session (fun _ => False) fun node later =>
      node.bare = (Formula.call id (arguments.map Formula.Argument.formula)).tree ∧
        later.After table session.diagnostics last := by
  have hdefined : (session.table.entry id).kind ≠ .undefined := by
    rw [(h.relined.agrees id).kind]
    rintro hundefined
    simp [hundefined, DefinitionKind.callables] at hcallable
  simp only [call, leads_bind, leads_current]
  rw [leads_resolveIdentifier (h.lookup_eq hname) hdefined]
  obtain ⟨_, hnamed, hnamed_lt, hconsume⟩ := (h.addLine id session.cursor.current.line).consume
  rw [hconsume, leads_table]
  obtain ⟨_, hopened, hopened_lt, hmatch⟩ := hnamed.matches_kind hopening.kind
  rw [hmatch]
  simp only [if_true]
  obtain ⟨middle, hlist, hrest⟩ := hopened.split
  have hmiddle : middle.current = closing :=
    (hrest { session with cursor := middle } rfl h.relined).current_eq
  refine (leads_bind _ _).mpr ((leads_arguments (by rw [hmiddle, hclosing.kind]) hcommas hrenders
    hnested hlist (by simp only at hnamed_lt hopened_lt ⊢; omega)).imp
      fun nodes read hnodes => ?_)
  obtain ⟨_, hclosed, -, hmatch⟩ := (hrest read hnodes.2.cursor hnodes.2.relined).matches_kind
    hclosing.kind
  simp only [expect, leads_bind]
  rw [hmatch]
  refine leads_ensure (by decide) fun diagnostics htolerates => ?_
  refine ⟨bare_callNode (by rw [List.map_map]; exact hnodes.1), hclosed.cursor_eq, hclosed.relined, ?_⟩
  exact hnodes.2.tolerates.trans htolerates

/-- A call of a routine that has been declared. -/
theorem recovers_call {name opening closing : Token} {id : EntryId}
    {arguments : List Formula.Argument} {bound : Nat} (hname : name.Names table id)
    (hcallable : (table.entry id).kind ∈ DefinitionKind.callables)
    (hopening : opening.Is .leftParen) (hclosing : closing.Is .rightParen)
    (hcommas : ∀ argument ∈ arguments, argument.comma.Is .comma)
    (hrenders : ∀ argument ∈ arguments, Renders table 0 argument.formula argument.tokens)
    (hnested : ∀ argument ∈ arguments,
      Recovers table nested argument.formula argument.tokens (Ends 0) bound) :
    Recovers table (factor nested) (.call id (arguments.map Formula.Argument.formula))
      (name :: opening :: (Formula.Argument.join arguments ++ [closing])) (fun _ => True)
      (bound + 1) := by
  intro session last h hbound _
  have hlookup := h.lookup_eq hname
  have hkind : (session.table.entry id).kind ∈ DefinitionKind.callables := by
    rwa [(h.relined.agrees id).kind]
  have hcall := leads_call hname hcallable hopening hclosing hcommas hrenders hnested h hbound
  rw [leads_factor_identifier (by rw [h.current_eq]; exact hname.kind)]
  simp only [identifierFactor, leads_bind, leads_current, leads_lookup, hlookup, leads_entry]
  cases hdefinition : (session.table.entry id).definition <;>
    first
    | exact hcall
    | simp [Entry.kind, hdefinition, Definition.kind, DefinitionKind.callables] at hkind

/-- A formula in parentheses. -/
theorem recovers_parentheses {formula : Formula} {tokens : List Token} {opening closing : Token}
    {bound : Nat} (hopening : opening.Is .leftParen) (hclosing : closing.Is .rightParen)
    (hnested : Recovers table nested formula tokens (Ends 0) bound) :
    Recovers table (factor nested) formula (opening :: (tokens ++ [closing])) (fun _ => True)
      (bound + 1) := by
  intro session last h hbound _
  have hkind : session.cursor.current.kind = .leftParen := by rw [h.current_eq]; exact hopening.kind
  simp only [factor, leads_bind, leads_current, literalNode?, hkind]
  obtain ⟨_, hopened, hopened_lt, hconsume⟩ := h.consume
  rw [hconsume]
  obtain ⟨middle, hinner, hrest⟩ := hopened.split
  have hmiddle : middle.current = closing :=
    (hrest { session with cursor := middle } rfl h.relined).current_eq
  have hread := hnested _ _ hinner (by simp only; omega) (by rw [hmiddle, hclosing.kind]; decide)
  refine hread.imp fun node read hnode => ?_
  obtain ⟨_, hclosed, -, hmatch⟩ := (hrest read hnode.2.cursor hnode.2.relined).matches_kind
    hclosing.kind
  simp only [expect, leads_bind]
  rw [hmatch]
  exact ⟨hnode.1, hclosed.after hnode.2.tolerates⟩

/-! ## Operands -/

/-- Whether a formula is read as an operand, with any number of signs before it, wherever the expressions
inside it and the signs do not nest deeper than there are tokens. -/
def ReadsAsOperand (table : SymbolTable) (formula : Formula) (tokens : List Token) : Prop :=
  ∀ depth fuel, Recovers table (operandWithin (factor (expressionWithin depth)) fuel) formula tokens
    (fun _ => True) (min fuel (depth + 1))

/-- What is read as a factor, and does not begin like a sign, is read as an operand. -/
theorem ReadsAsOperand.of_factor {formula : Formula} {first : Token} {rest : List Token}
    (hfirst : first.kind ∉ [.minus, .plus, .not])
    (h : ∀ depth, Recovers table (factor (expressionWithin depth)) formula (first :: rest)
      (fun _ => True) (depth + 1)) :
    ReadsAsOperand table formula (first :: rest) := by
  intro depth fuel session last hbefore hbound _
  cases fuel with
  | zero => simp at hbound
  | succ fuel =>
      have hread := h depth session last hbefore (by omega) trivial
      have hkind := hbefore.current_eq ▸ hfirst
      simp only [operandWithin, leads_bind, leads_current]
      split
      · next hminus => simp [hminus] at hkind
      · next hplus => simp [hplus] at hkind
      · next hnot => simp [hnot] at hkind
      · exact hread

/-- An operand after a sign. -/
theorem ReadsAsOperand.sign {formula operand : Formula} {sign : Token} {tokens : List Token}
    (h : ReadsAsOperand table operand tokens) (hsign : sign.kind = .plus ∨ sign.kind = .minus)
    (htree : formula.tree = if sign.kind = .plus then operand.tree
      else { kind := .negate, children := [operand.tree] }) :
    ReadsAsOperand table formula (sign :: tokens) := by
  intro depth fuel session last hbefore hbound _
  cases fuel with
  | zero => simp at hbound
  | succ fuel =>
      obtain ⟨_, hmoved, hmoved_lt, hconsume⟩ := hbefore.consume
      have hread := h depth fuel _ _ hmoved (by simp only; omega) trivial
      have hsigned : Leads
          (do
            let _ ← nextToken
            signed sign (← operandWithin (factor (expressionWithin depth)) fuel))
          session (fun _ => False)
          fun node later => node.bare = formula.tree ∧ later.After table session.diagnostics last := by
        simp only [leads_bind]
        rw [hconsume]
        refine hread.imp fun node read hnode => ?_
        refine leads_signed fun signed diagnostics htolerates hbare => ?_
        rw [hbare, hnode.1, htree]
        exact ⟨rfl, hnode.2.cursor, hnode.2.relined, hnode.2.tolerates.trans htolerates⟩
      unfold operandWithin
      rw [leads_bind, leads_current, hbefore.current_eq]
      rcases hsign with hsign | hsign <;> rw [hsign] <;> exact hsigned

/-- An operand after the mark of a negation. -/
theorem ReadsAsOperand.not {operand : Formula} {mark : Token} {tokens : List Token}
    (h : ReadsAsOperand table operand tokens) (hmark : mark.kind = .not) :
    ReadsAsOperand table (.not operand) (mark :: tokens) := by
  intro depth fuel session last hbefore hbound _
  cases fuel with
  | zero => simp at hbound
  | succ fuel =>
      obtain ⟨_, hmoved, hmoved_lt, hconsume⟩ := hbefore.consume
      have hread := h depth fuel _ _ hmoved (by simp only; omega) trivial
      simp only [operandWithin, leads_bind, leads_current, hbefore.current_eq, hmark]
      rw [hconsume]
      refine hread.imp fun node read hnode => ?_
      refine leads_negated fun negated diagnostics htolerates hbare => ?_
      rw [hbare, hnode.1]
      exact ⟨rfl, hnode.2.cursor, hnode.2.relined, hnode.2.tolerates.trans htolerates⟩

/-! ## Levels of precedence -/

/-- The expressions of a level, and of those that bind tighter. -/
abbrev levelled (depth level : Nat) : Production Node :=
  operations (operand (expressionWithin depth)) (Operator.levels.drop level)

/-- Whether a formula is read at a level, up to a token that ends it there. -/
def ReadsWhole (table : SymbolTable) (level : Nat) (formula : Formula) (tokens : List Token) : Prop :=
  ∀ depth, Recovers table (levelled depth level) formula tokens (Ends level) (depth + 1)

/-- Whether a formula is read at a level as the first of several operands: the loop over the operators of
the level comes to the formula as what stands to the left of the next operator. -/
def ReadsLeft (table : SymbolTable) (level : Nat) (formula : Formula) (tokens : List Token) : Prop :=
  ∀ ⦃operators : OperatorLevel⦄, Operator.levels[level]? = some operators →
    ∀ ⦃depth : Nat⦄ ⦃session : Session⦄ ⦃last : Cursor⦄ ⦃post : Node → Session → Prop⦄,
      session.Before table tokens last → session.cursor.ahead < depth + 1 →
      Ends (level + 1) last.current.kind →
      (∀ budget node later, node.bare = formula.tree →
        later.After table session.diagnostics last → last.ahead < budget →
        Leads (loopWithin (operation operators (levelled depth (level + 1))) budget node) later
          (fun _ => False) post) →
      Leads (levelled depth level) session (fun _ => False) post

theorem ends_iff {level : Nat} {operators : OperatorLevel} {kind : TokenKind}
    (h : Operator.levels[level]? = some operators) :
    Ends level kind ↔ operators.lookup kind = none ∧ Ends (level + 1) kind := by
  obtain ⟨hlt, rfl⟩ := List.getElem?_eq_some_iff.mp h
  rw [Ends, List.drop_eq_getElem_cons hlt, List.forall_mem_cons]
  exact Iff.rfl

theorem levelled_eq {depth level : Nat} {operators : OperatorLevel}
    (h : Operator.levels[level]? = some operators) :
    levelled depth level = (do
      let left ← levelled depth (level + 1)
      loop (operation operators (levelled depth (level + 1))) left) := by
  obtain ⟨hlt, rfl⟩ := List.getElem?_eq_some_iff.mp h
  rw [levelled, List.drop_eq_getElem_cons hlt, operations]

section

variable {formula : Formula} {tokens : List Token} {level : Nat}

/-- What is read at the next level is the first operand of this one. -/
theorem ReadsWhole.left (h : ReadsWhole table (level + 1) formula tokens) :
    ReadsLeft table level formula tokens := by
  intro operators hoperators depth session last post hbefore hbound hends hloop
  rw [levelled_eq hoperators, leads_bind]
  refine (h depth session last hbefore hbound hends).imp ?_
  rintro node read ⟨hbare, hafter⟩
  have hremaining := read.cursor.ahead_le_remaining
  rw [hafter.cursor] at hremaining
  rw [loop, leads_bind, leads_budget, hafter.cursor]
  exact hloop _ node read hbare hafter (by omega)

/-- An operand that no operator of the level follows is all there is to read. -/
theorem ReadsLeft.whole (h : ReadsLeft table level formula tokens)
    (hlevel : level < Operator.levels.length) : ReadsWhole table level formula tokens := by
  have hoperators := List.getElem?_eq_getElem hlevel
  intro depth session last hbefore hbound hends
  obtain ⟨hnone, hends⟩ := (ends_iff hoperators).mp hends
  refine h hoperators hbefore hbound hends fun budget node later hbare hafter hbudget => ?_
  obtain ⟨budget, rfl⟩ := Nat.exists_eq_succ_of_ne_zero (Nat.ne_of_gt (Nat.zero_lt_of_lt hbudget))
  rw [leads_loopWithin_succ, operation, leads_bind, leads_current, hafter.cursor, hnone]
  exact ⟨hbare, hafter⟩

/-- What is read at some level is read at all that bind less tightly. -/
theorem ReadsWhole.loosen {tight : Nat} (h : ReadsWhole table tight formula tokens)
    (htight : tight ≤ Operator.levels.length) (hlevel : level ≤ tight) :
    ReadsWhole table level formula tokens := by
  obtain ⟨distance, rfl⟩ := Nat.exists_eq_add_of_le hlevel
  induction distance with
  | zero => exact h
  | succ distance ih =>
      rw [← Nat.add_assoc] at h htight
      exact ih (h.left.whole htight) (Nat.le_of_succ_le htight) (Nat.le_add_right _ _)

end

/-- An operator is found at the level of its precedence, and at none that binds tighter. -/
theorem lookup_symbol (operator : BinaryOperator) :
    ∃ operators, Operator.levels[operator.precedence]? = some operators ∧
      operators.lookup operator.symbol = some operator.node ∧
        Ends (operator.precedence + 1) operator.symbol := by
  cases operator <;> exact ⟨_, rfl, rfl, by decide⟩

theorem precedence_lt (operator : BinaryOperator) :
    operator.precedence < Operator.levels.length := by
  cases operator <;> decide

/-- What the parse of a formula comes to where an operand of a level is expected. -/
structure Parsed (table : SymbolTable) (level : Nat) (formula : Formula) (tokens : List Token) :
    Prop where
  operand : 6 ≤ level → ReadsAsOperand table formula tokens
  whole : ∀ looser ≤ level, looser ≤ 6 → ReadsWhole table looser formula tokens
  left : ∀ looser ≤ level, looser < 6 → ReadsLeft table looser formula tokens

/-- An operand can stand at any level. -/
theorem Parsed.of_operand {formula : Formula} {tokens : List Token} {level : Nat}
    (h : ReadsAsOperand table formula tokens) : Parsed table level formula tokens := by
  have htightest : ReadsWhole table 6 formula tokens := by
    intro depth session last hbefore hbound _
    have := session.cursor.ahead_le_remaining
    change Leads (Production.operand (expressionWithin depth)) session _ _
    rw [Production.operand, leads_bind, leads_budget]
    exact h depth _ session last hbefore (by omega) trivial
  exact {
    operand := fun _ => h
    whole := fun looser _ hlooser => htightest.loosen (by decide) hlooser
    left := fun looser _ hlooser =>
      have htighter : ReadsWhole table (looser + 1) formula tokens :=
        htightest.loosen (by decide) hlooser
      htighter.left }

/-- An operation is read at the level of its operator as the first of several operands: the loop goes on
from its left operand with the operator, and then has the whole operation to its left. -/
theorem Parsed.binary_left {operator : BinaryOperator} {left right : Formula} {symbol : Token}
    {before after : List Token} (hsymbol : symbol.Is operator.symbol)
    (hleft : Parsed table operator.precedence left before)
    (hright : Parsed table (operator.precedence + 1) right after) :
    ReadsLeft table operator.precedence (.binary operator left right) (before ++ symbol :: after) := by
  obtain ⟨operators, hoperators, hlookup, hends⟩ := lookup_symbol operator
  have hprecedence : operator.precedence < 6 := precedence_lt operator
  intro operators' hoperators' depth session last post hbefore hbound hlast hloop
  obtain rfl : operators = operators' := Option.some.inj (hoperators.symm.trans hoperators')
  obtain ⟨middle, hfirst, hrest⟩ := hbefore.split
  have hmiddle : middle.current = symbol :=
    (hrest { session with cursor := middle } rfl hbefore.relined).current_eq
  refine hleft.left _ (Nat.le_refl _) hprecedence hoperators hfirst hbound
    (by rwa [hmiddle, hsymbol.kind]) fun budget node read hnode hread hbudget => ?_
  -- the loop has the left operand, and stands before the operator
  obtain ⟨budget, rfl⟩ := Nat.exists_eq_succ_of_ne_zero (Nat.ne_of_gt (Nat.zero_lt_of_lt hbudget))
  obtain ⟨cursor, hmoved, hmoved_lt, hconsume⟩ := (hrest read hread.cursor hread.relined).consume
  have hcursor : cursor.ahead < middle.ahead := by rwa [hread.cursor] at hmoved_lt
  have := hfirst.ahead_le
  rw [leads_loopWithin_succ, operation, leads_bind, leads_current, hread.cursor, hmiddle,
    hsymbol.kind, hlookup]
  simp only [leads_bind]
  rw [hconsume]
  refine (hright.whole _ (Nat.le_refl _) hprecedence depth _ last hmoved (by simp only; omega)
    hlast).imp ?_
  rintro other final ⟨hother, hfinal⟩
  refine leads_binaryNode fun whole diagnostics htolerates hwhole => ?_
  -- and goes on with the whole operation to its left
  refine hloop budget whole _ (by rw [hwhole, hnode, hother]; rfl) ?_ ?_
  · exact ⟨hfinal.cursor, hfinal.relined, hread.tolerates.trans (hfinal.tolerates.trans htolerates)⟩
  · have := hmoved.ahead_le
    simp only at this
    omega

theorem Parsed.binary {operator : BinaryOperator} {left right : Formula} {symbol : Token}
    {before after : List Token} {level : Nat} (hlevel : level ≤ operator.precedence)
    (hsymbol : symbol.Is operator.symbol) (hleft : Parsed table operator.precedence left before)
    (hright : Parsed table (operator.precedence + 1) right after) :
    Parsed table level (.binary operator left right) (before ++ symbol :: after) := by
  -- at looser levels the operation is an operand; at its own, one that others may follow
  have hprecedence := precedence_lt operator
  have hown := Parsed.binary_left hsymbol hleft hright
  have hwhole := hown.whole hprecedence
  have hlength : Operator.levels.length = 6 := rfl
  refine ⟨by omega, fun looser hlooser _ => ?_, fun looser hlooser _ => ?_⟩
  · exact hwhole.loosen (by omega) (by omega)
  · rcases Nat.eq_or_lt_of_le (Nat.le_trans hlooser hlevel) with rfl | hlt
    · exact hown
    · exact (hwhole.loosen (by omega) hlt).left

/-! ## Renderings -/

/-- What can stand for a whole expression can stand inside another. -/
theorem Parsed.recovers {formula : Formula} {tokens : List Token} (h : Parsed table 0 formula tokens)
    (depth : Nat) : Recovers table (expressionWithin depth) formula tokens (Ends 0) depth := by
  cases depth with
  | zero => exact fun _ _ _ hbound => absurd hbound (Nat.not_lt_zero _)
  | succ depth => exact h.whole 0 (Nat.le_refl 0) (Nat.zero_le 6) depth

/-- Every rendering is parsed as the formula that it writes. -/
theorem parsed_of_renders {level : Nat} {formula : Formula} {tokens : List Token}
    (h : Renders table level formula tokens) : Parsed table level formula tokens := by
  induction h with
  | @literal _ value token hkind hvalue =>
      refine .of_operand (.of_factor ?_ fun depth => recovers_literal hkind hvalue)
      rw [hkind]
      cases value <;> simp [Literal.tokenKind]
  | reference hname hkind =>
      exact .of_operand (.of_factor (by simp [hname.kind]) fun depth => recovers_reference hname hkind)
  | constant hname hvalue =>
      exact .of_operand (.of_factor (by simp [hname.kind]) fun depth => recovers_constant hname hvalue)
  | call hname hcallable hopening hclosing hcommas hrenders ih =>
      refine .of_operand (.of_factor (by simp [hname.kind]) fun depth => ?_)
      exact recovers_call hname hcallable hopening hclosing hcommas hrenders
        fun argument hmem => (ih argument hmem).recovers depth
  | parentheses hopening hclosing _ ih =>
      refine .of_operand (.of_factor (by simp [hopening.kind]) fun depth => ?_)
      exact recovers_parentheses hopening hclosing (ih.recovers depth)
  | plusSign _ hsign _ ih =>
      exact .of_operand ((ih.operand (Nat.le_refl 6)).sign (Or.inl hsign.kind) (by simp [hsign.kind]))
  | negate _ hsign _ ih =>
      exact .of_operand ((ih.operand (Nat.le_refl 6)).sign (Or.inr hsign.kind)
        (by simp [hsign.kind, Formula.tree]))
  | not _ hmark _ ih => exact .of_operand ((ih.operand (Nat.le_refl 6)).not hmark.kind)
  | binary hlevel hsymbol _ _ ihleft ihright => exact .binary hlevel hsymbol ihleft ihright

/-- A token that is no binary operator ends a whole expression. -/
theorem ends_zero {kind : TokenKind} (h : ∀ operator : BinaryOperator, kind ≠ operator.symbol) :
    Ends 0 kind := by
  intro operators hoperators
  have hsymbols : ∀ operators ∈ Operator.levels, ∀ entry ∈ operators,
      ∃ operator ∈ BinaryOperator.all, entry.1 = operator.symbol := by decide
  cases hlookup : operators.lookup kind with
  | none => rfl
  | some node =>
      obtain ⟨before, after, rfl, -⟩ := List.lookup_eq_some_iff.mp hlookup
      obtain ⟨operator, -, hoperator⟩ := hsymbols _ hoperators (kind, node) (by simp)
      exact absurd hoperator (h operator)

end Production

open Production in
/-- An expression reads back what a rendering of a formula writes.  In every session in which the names
mean what they do in the rendering, up to a token that is no binary operator, it consumes just the tokens
of the rendering, makes the tree of the formula, and reports nothing but operands and arguments that do
not fit. -/
theorem expression_of_renders {session : Session} {formula : Formula} {tokens : List Token}
    {last : Cursor} (h : Renders session.table 0 formula tokens)
    (hreads : session.cursor.Reads tokens last) (hclean : last.current.scanError? = none)
    (hlast : ∀ operator : BinaryOperator, last.current.kind ≠ operator.symbol) :
    ∃ node later, expression session = .ok (node, later) ∧ node.bare = formula.tree ∧
      later.cursor = last ∧ Tolerates session.diagnostics later.diagnostics := by
  have hbefore : session.Before session.table tokens last :=
    ⟨hreads, h.clean, hclean, ⟨rfl, fun _ => rfl, fun _ => .refl _⟩⟩
  have := session.cursor.ahead_le_remaining
  have hexpression : Leads expression session (fun _ => False) fun node later =>
      node.bare = formula.tree ∧ later.After session.table session.diagnostics last := by
    rw [expression, leads_bind, leads_budget]
    exact (parsed_of_renders h).recovers _ session last hbefore (by omega) (ends_zero hlast)
  obtain ⟨node, later, hrun, hbare, hafter⟩ := hexpression.exists_ok
  exact ⟨node, later, hrun, hbare, hafter.cursor, hafter.tolerates⟩

/-- The formula that is written `f(-x) - 1 - x`, where `f` is a function and `x` a variable. -/
theorem expression_of_renders_difference :
    let table : SymbolTable :=
      { entries := #[⟨"x", 0, .plainVariable 0, some .int, []⟩, ⟨"f", 0, .function {}, some .int, []⟩]
        scopes := #[{ level := 0, bindings := [("x", 0), ("f", 1)] }] }
    let token (kind : TokenKind) : Token := ⟨kind, kind.text, ⟨1, 1⟩, none⟩
    let name (text : String) : Token := ⟨.identifier, text, ⟨1, 1⟩, none⟩
    let one : Token := ⟨.integer, "1", ⟨1, 1⟩, some (.integer 1)⟩
    let rest : List Token :=
      [token .leftParen, token .minus, name "x", token .rightParen, token .minus, one, token .minus,
       name "x"]
    let stream : TokenStream :=
      { events := rest.map .ok ++ [.ok (token .semicolon)], ending := .ok ⟨1, 1⟩ }
    ∃ node later, Production.expression { cursor := { stream, current := name "f" }, table } =
        .ok (node, later) ∧
      node.bare = (Formula.binary .subtract
        (.binary .subtract (.call 1 [.negate (.reference 0)]) (.literal (.integer 1)))
        (.reference 0)).tree ∧
      later.cursor.current = token .semicolon := by
  intro table token name one rest stream
  have hx (level : Nat) : Renders table level (.reference 0) [name "x"] :=
    .reference ⟨⟨rfl, rfl⟩, by decide +kernel⟩ (by decide)
  have hnegate : Renders table 0 (.negate (.reference 0)) [token .minus, name "x"] :=
    .negate (Nat.zero_le 6) ⟨rfl, rfl⟩ (hx 6)
  have hcall : Renders table 4 (.call 1 [.negate (.reference 0)])
      [name "f", token .leftParen, token .minus, name "x", token .rightParen] :=
    @Renders.call table 4 1 _ _ _ [⟨_, _, token .comma⟩] ⟨⟨rfl, rfl⟩, by decide +kernel⟩ (by decide)
      ⟨rfl, rfl⟩ ⟨rfl, rfl⟩ (List.forall_mem_singleton.mpr ⟨rfl, rfl⟩)
      (List.forall_mem_singleton.mpr hnegate)
  have hone : Renders table 5 (.literal (.integer 1)) [one] := .literal rfl rfl
  have hminus : (token .minus).Is BinaryOperator.subtract.symbol := ⟨rfl, rfl⟩
  have hrenders := Renders.binary (Nat.zero_le 4) hminus
    (Renders.binary (Nat.le_refl _) hminus hcall hone) (hx 5)
  have hlast (operator : BinaryOperator) : (token .semicolon).kind ≠ operator.symbol := by
    cases operator <;> decide
  obtain ⟨node, later, hrun, hbare, hcursor, -⟩ :=
    @expression_of_renders { cursor := { stream, current := name "f" }, table } _ (name "f" :: rest) _
      hrenders (.of_events (by decide)) rfl hlast
  exact ⟨node, later, hrun, hbare, by rw [hcursor]⟩

end FrontEnd
