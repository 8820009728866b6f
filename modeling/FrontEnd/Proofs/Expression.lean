import FrontEnd.Proofs.Trace
import FrontEnd.Proofs.Tree
import Mathlib.Data.List.Forall2

/-!
# What expressions leave behind

Every production for an expression, or for a part of one, is traced, and its answer is a tree for a value.

## Strategy

The productions nest, so what is shown of them is bounded by the number of tokens ahead: `Yields` says of a
production that it makes a tree from every lawful session with fewer tokens ahead than a bound.  A factor
consumes a token before it asks for the expression inside it, so if that yields trees below a bound, the
factor does so below the next (`yields_factor`).  Induction on the depth then gives `traced_expression`.
-/

namespace FrontEnd

/-- Whether a tree is one for a value, as things stand in a session. -/
def Session.IsValue (session : Session) (node : Node) : Prop :=
  ValueTree (session.diagnostics = []) session.table node

theorem Session.IsValue.later {known : Token → Prop} {session later : Session} {node : Node}
    (h : session.IsValue node) (hsteps : Steps known .statement session later)
    (hlawful : session.Lawful known) : later.IsValue node :=
  h.mono hlawful.valid (hsteps.grows rfl).keeps hsteps.clean

namespace Production

variable {known : Token → Prop} {place : Place} {session : Session}

/-! ## Operators -/

theorem traced_binaryNode {operator : NodeKind} {left right : Node} (line : Nat)
    (hoperator : operator ∈ NodeKind.binary) (hlawful : session.Lawful known)
    (hleft : session.IsValue left) (hright : session.IsValue right) :
    Traced known .statement (binaryNode operator line left right) session fun node later =>
      later.IsValue node := by
  unfold binaryNode
  cases htype : Operator.resultType? operator left.type right.type with
  | some type =>
      refine .pure hlawful ?_
      have := ValueTree.binary line hoperator hleft hright fun _ => by simp [htype]
      simpa [Session.IsValue, htype] using this
  | none =>
      refine (traced_flag _ hlawful rfl).bind fun _ later hsteps hlater hflagged => .pure hlater ?_
      have := ValueTree.binary line hoperator (hleft.later hsteps hlawful)
        (hright.later hsteps hlawful) fun hclean => absurd hclean hflagged.2.2.ne_nil
      simpa [Session.IsValue, htype] using this

/-- Whether a production makes trees for values wherever fewer than `bound` tokens are ahead. -/
def Yields (known : Token → Prop) (bound : Nat) (production : Production Node) : Prop :=
  ∀ session : Session, session.Lawful known → session.cursor.ahead < bound →
    Traced known .statement production session fun node later => later.IsValue node

theorem binary_of_lookup {level : OperatorLevel} (hlevel : level ∈ Operator.levels)
    {token : TokenKind} {operator : NodeKind} (h : level.lookup token = some operator) :
    operator ∈ NodeKind.binary ∧ token ≠ .endOfFile := by
  obtain ⟨before, after, rfl, -⟩ := List.lookup_eq_some_iff.mp h
  have hall : ∀ level ∈ Operator.levels, ∀ entry ∈ level,
      entry.2 ∈ NodeKind.binary ∧ entry.1 ≠ .endOfFile := by decide
  exact hall _ hlevel (token, operator) (by simp)

theorem yields_operations {bound : Nat} {operand : Production Node} (h : Yields known bound operand) :
    ∀ levels : List OperatorLevel, levels ⊆ Operator.levels →
      Yields known bound (operations operand levels)
  | [], _ => h
  | level :: tighter, hlevels => by
      have htighter := yields_operations h tighter fun _ hmem =>
        hlevels (List.mem_cons_of_mem _ hmem)
      intro session hlawful hahead
      unfold operations
      refine (htighter session hlawful hahead).bind fun left later hsteps hlater hleft => ?_
      -- the loop keeps a tree for a value to the left of the next operator
      refine .loop (fun left later => later.IsValue left) hlater hleft
        fun left current hmore hcurrent hleft => ?_
      have hbelow : current.cursor.ahead < bound :=
        Nat.lt_of_le_of_lt (hsteps.trans hmore).ahead_le hahead
      unfold operation
      rw [traced_current_bind]
      cases hlookup : level.lookup current.cursor.current.kind with
      | none => exact .pure hcurrent hleft
      | some operator =>
          obtain ⟨hbinary, hend⟩ := binary_of_lookup (hlevels (List.mem_cons_self ..)) hlookup
          refine (traced_nextToken hcurrent).bind fun _ next hstep hnext hmoved => ?_
          refine (htighter next hnext (Nat.lt_of_le_of_lt hstep.ahead_le hbelow)).bind
            fun right after hsteps' hafter hright => ?_
          have hleft' := hleft.later (hstep.trans hsteps') hcurrent
          refine (traced_binaryNode _ hbinary hafter hleft' hright).bind
            fun node final hlast hfinal hnode => .pure hfinal ⟨hnode, Or.inr ?_⟩
          have := hmoved.2.2 (isEnd_of_kind rfl hend)
          have := (hsteps'.trans hlast).position_le
          omega

/-! ## Signs and negations -/

theorem traced_signed {sign : Token} {operand : Node} (hsign : known sign)
    (hlawful : session.Lawful known) (hoperand : session.IsValue operand) :
    Traced known .statement (signed sign operand) session fun node later => later.IsValue node := by
  unfold signed
  refine (traced_ensure _ _ hlawful hsign rfl).bind fun _ later hsteps hlater hfits => ?_
  have hoperand' := hoperand.later hsteps hlawful
  split
  · exact .pure hlater hoperand'
  · exact .pure hlater (.negate _ hoperand' hfits.2.2)

theorem traced_negated {mark : Token} {operand : Node} (hmark : known mark)
    (hlawful : session.Lawful known) (hoperand : session.IsValue operand) :
    Traced known .statement (negated mark operand) session fun node later => later.IsValue node := by
  unfold negated
  refine (traced_ensure _ _ hlawful hmark rfl).bind fun _ later hsteps hlater hfits => ?_
  exact .pure hlater (.not _ (hoperand.later hsteps hlawful) hfits.2.2)

theorem yields_operandWithin {bound : Nat} {factor : Production Node} (h : Yields known bound factor) :
    ∀ depth, Yields known (min bound depth) (operandWithin factor depth)
  | 0 => fun session _ hahead => by simp at hahead
  | depth + 1 => by
      intro session hlawful hahead
      have hrest : ∀ later, later.Lawful known → later.cursor.ahead < session.cursor.ahead →
          Traced known .statement (operandWithin factor depth) later fun node final =>
            final.IsValue node := fun later hlater hless =>
        yields_operandWithin h depth later hlater (by omega)
      unfold operandWithin
      rw [traced_current_bind]
      split
      iterate 2
        next hkind =>
          refine (traced_consume hkind (by simp) hlawful).bind fun _ later _ hlater hnext => ?_
          refine (hrest later hlater hnext.2).bind fun node final _ hfinal hnode => ?_
          exact traced_signed hlawful.current hfinal hnode
      · next hkind =>
          refine (traced_consume hkind (by simp) hlawful).bind fun _ later _ hlater hnext => ?_
          refine (hrest later hlater hnext.2).bind fun node final _ hfinal hnode => ?_
          exact traced_negated hlawful.current hfinal hnode
      · exact h session hlawful (by omega)

/-! ## Names -/

/-- A name without a meaning is entered as undefined. -/
theorem traced_enterUndefined {name : Token} (hlawful : session.Lawful known) (hname : known name)
    (hkind : name.kind = .identifier) (hfree : session.table.lookup name.text = none) :
    Traced known .statement
      (do
        let id ← enterOrDetach name.text
        changeEntry id fun entry => { entry with definition := .undefined, type := some .undefined }
        return id)
      session fun id later =>
        later.cursor = session.cursor ∧ later.diagnostics = session.diagnostics ∧
          later.table.Visible id ∧ (later.table.entry id).kind = .undefined := by
  have hlocal := SymbolTable.lookupLocal_of_lookup_none hfree
  simp only [Traced, enterOrDetach, SymbolTable.enterLocal, hlocal, leads_bind, leads_onTable,
    leads_changeEntry, leads_pure]
  have hstep : Step known .statement session _ :=
    .declare (.declare .undefined .undefined hname hkind hlocal rfl rfl)
  have hvisible : (session.table.bindNew (Text.lower name.text)).Visible session.table.entries.size :=
    SymbolTable.visible_bindNew_size hlawful.valid.localScopeId_lt
  refine ⟨.single hstep, hstep.lawful hlawful, trivial, trivial, ?_, ?_⟩
  · exact hvisible
  · rw [SymbolTable.entry_modifyEntry_self (by simp)]
    rfl

/-- What an identifier resolves to: the entry that its name leads to, or a new one that is undefined. -/
structure Resolves (session later : Session) (id : EntryId) : Prop where
  cursor : later.cursor = session.cursor
  bound : later.table.Bound id
  defined : later.diagnostics = [] → (later.table.entry id).kind ≠ .undefined
  cases : session.table.lookup session.cursor.current.text = some id ∧
      (session.table.entry id).Agrees (later.table.entry id) ∨
    session.table.lookup session.cursor.current.text = none ∧
      (later.table.entry id).kind = .undefined

theorem traced_identifierEntry (hlawful : session.Lawful known)
    (hkind : session.cursor.current.kind = .identifier) :
    Traced known .statement (identifierEntry session.cursor.current) session fun id later =>
      Resolves session later id := by
  unfold identifierEntry
  rw [traced_lookup_bind]
  cases hlookup : session.table.lookup session.cursor.current.text with
  | some id =>
      dsimp only
      rw [traced_entry_bind]
      refine (traced_ensure _ _ hlawful hlawful.current rfl).bind fun _ later _ hlater h => ?_
      refine .pure hlater ⟨h.1, ?_, fun hclean => ?_, Or.inl ⟨hlookup, ?_⟩⟩
      · rw [h.2.1]
        exact (SymbolTable.visible_of_lookup hlookup).bound
      · rw [h.2.1]
        simpa using h.2.2 hclean
      · rw [h.2.1]
  | none =>
      refine (traced_flagAt _ hlawful hlawful.current rfl).bind fun _ later _ hlater h => ?_
      have hfree : later.table.lookup session.cursor.current.text = none := by rwa [h.2.1]
      refine (traced_enterUndefined hlater hlawful.current hkind hfree).mono
        fun id final _ _ hid => ⟨hid.1.trans h.1, hid.2.2.1.bound, fun hclean => ?_,
          Or.inr ⟨hlookup, hid.2.2.2⟩⟩
      exact absurd (hid.2.1 ▸ hclean) h.2.2.ne_nil

/-- An identifier that leads to an entry is resolved to it. -/
theorem leads_resolveIdentifier {id : EntryId} {stop : Interruption → Prop}
    {post : EntryId → Session → Prop}
    (hlookup : session.table.lookup session.cursor.current.text = some id)
    (hkind : (session.table.entry id).kind ≠ .undefined) :
    Leads resolveIdentifier session stop post ↔
      post id { session with
                  table := session.table.modifyEntry id (·.addLine session.cursor.current.line) } := by
  have hdefined : ((session.table.entry id).kind != .undefined) = true := by simpa using hkind
  simp only [resolveIdentifier, identifierEntry, leads_bind, leads_current, leads_lookup, hlookup,
    leads_entry, ensure, hdefined, leads_pure, leads_changeEntry]
  exact Iff.rfl

theorem traced_resolveIdentifier (hlawful : session.Lawful known)
    (hkind : session.cursor.current.kind = .identifier) :
    Traced known .statement resolveIdentifier session fun id later => Resolves session later id := by
  unfold resolveIdentifier
  rw [traced_current_bind]
  refine (traced_identifierEntry hlawful hkind).bind fun id later _ hlater hid => ?_
  refine (traced_addLine id hlater hlawful.current).bind fun _ final _ hfinal hline => ?_
  subst hline
  have hentry := SymbolTable.entry_modifyEntry_self (hlater.valid.bound_lt id hid.bound)
    (·.addLine session.cursor.current.line)
  refine .pure hfinal ⟨hid.cursor, hid.bound, fun hclean => ?_, hid.cases.imp ?_ ?_⟩
  · rw [hentry, Entry.kind_addLine]
    exact hid.defined hclean
  · rintro ⟨hlookup, hagrees⟩
    refine ⟨hlookup, ?_⟩
    rw [hentry]
    exact hagrees.trans (Entry.agrees_addLine _ _)
  · rintro ⟨hlookup, hundefined⟩
    refine ⟨hlookup, ?_⟩
    rwa [hentry, Entry.kind_addLine]

/-- Whether a name can be read as that of a variable: it has no other meaning. -/
def ReadsAsVariable (table : SymbolTable) (name : String) : Prop :=
  ∀ id, table.lookup name = some id → (table.entry id).kind ∈ DefinitionKind.referable

theorem traced_variableReference (hlawful : session.Lawful known)
    (hkind : session.cursor.current.kind = .identifier)
    (hname : ReadsAsVariable session.table session.cursor.current.text) :
    Traced known .statement variableReference session fun node later =>
      ∃ id, node = later.table.variableNode id ∧
        later.table.Refers (later.diagnostics = []) id := by
  unfold variableReference
  refine (traced_resolveIdentifier hlawful hkind).bind fun id later _ hlater hid => ?_
  rw [traced_entry_bind]
  refine (traced_nextToken hlater).bind fun _ final hsteps hfinal hnext => ?_
  refine .pure hfinal ⟨id, ?_, ?_⟩
  · rw [SymbolTable.variableNode, hnext.2.1]
  · rw [hnext.2.1]
    refine ⟨hid.bound, ?_, fun hclean => hid.defined (hsteps.clean hclean)⟩
    rcases hid.cases with ⟨hlookup, hagrees⟩ | ⟨-, hundefined⟩
    · rw [hagrees.kind]
      exact hname id hlookup
    · simp [hundefined, DefinitionKind.referable]

theorem traced_namedConstant {id : EntryId} {value : ConstantValue} (hlawful : session.Lawful known)
    (hvalue : (session.table.entry id).definition = .constant value) :
    Traced known .statement (namedConstant id value) session fun node later => later.IsValue node := by
  unfold namedConstant
  rw [traced_current_bind]
  refine (traced_addLine id hlawful hlawful.current).bind fun _ later _ hlater hline => ?_
  subst hline
  rw [traced_entry_bind]
  refine (traced_nextToken hlater).bind fun _ final _ hfinal hnext => .pure hfinal ?_
  have hid : id < session.table.entries.size :=
    SymbolTable.lt_of_kind rfl (by simp [Entry.kind, hvalue, Definition.kind])
  rw [Session.IsValue, ← hnext.2.1, ← SymbolTable.constantNode_eq]
  refine .constant ?_
  rw [hnext.2.1, SymbolTable.entry_modifyEntry_self hid]
  exact (Entry.agrees_addLine _ _).definition.trans hvalue

/-! ## Calls -/

/-- Whether each argument fits the parameter in its place, if there is one. -/
def ArgumentsFit (formals : List DataType) (arguments : List Node) : Prop :=
  ∀ (place : Nat) (formal : DataType) (argument : Node), formals[place]? = some formal →
    arguments[place]? = some argument → formal.accepts argument.type

theorem ArgumentsFit.append {formals : List DataType} {arguments : List Node} {value : Node}
    (h : ArgumentsFit formals arguments)
    (hvalue : formals[arguments.length]?.all (·.accepts value.type) = true) :
    ArgumentsFit formals (arguments ++ [value]) := by
  intro place formal argument hformal hargument
  rcases Nat.lt_trichotomy place arguments.length with hlt | rfl | hgt
  · rw [List.getElem?_append_left hlt] at hargument
    exact h place formal argument hformal hargument
  · obtain rfl : value = argument := by simpa using hargument
    simpa [hformal] using hvalue
  · rw [List.getElem?_eq_none (by simpa using Nat.succ_le_of_lt hgt)] at hargument
    simp at hargument

/-- As many arguments as there are parameters fit them one by one. -/
theorem ArgumentsFit.forall₂ {formals : List DataType} {arguments : List Node}
    (h : ArgumentsFit formals arguments) (hlength : arguments.length = formals.length) :
    List.Forall₂ (fun formal argument => formal.accepts argument.type) formals arguments := by
  refine List.forall₂_iff_get.mpr ⟨hlength.symm, fun place hformal hargument => ?_⟩
  exact h place _ _ (by simp [List.getElem?_eq_getElem hformal])
    (by simp [List.getElem?_eq_getElem hargument])

/-- Whether nodes are arguments for the parameters, as things stand in a session. -/
structure AreArguments (session : Session) (formals : List DataType)
    (arguments : List Node) : Prop where
  values : ∀ argument ∈ arguments, session.IsValue argument
  fit : session.diagnostics = [] → ArgumentsFit formals arguments

theorem traced_argument {bound : Nat} {nested : Production Node} (h : Yields known bound nested)
    {formals : List DataType} {arguments : List Node} (hlawful : session.Lawful known)
    (hahead : session.cursor.ahead < bound)
    (harguments : AreArguments session formals arguments) :
    Traced known .statement (argument nested formals arguments) session
      (AfterTurn (fun arguments later => AreArguments later formals arguments)
        fun arguments later => AreArguments later formals arguments ∧
          (Improper known ∨ session.cursor.position < later.cursor.position)) := by
  unfold argument
  rw [traced_current_bind]
  refine (h session hlawful hahead).bind fun value read hsteps hread hvalue => ?_
  refine (traced_ensure _ _ hread hlawful.current rfl).bind fun _ checked hsteps' hchecked hfits => ?_
  refine (traced_matchToken (by simp) hchecked).bind fun matched later hmore hlater hmatched => ?_
  have hall := hsteps.trans (hsteps'.trans hmore)
  have hnow : AreArguments later formals (arguments ++ [value]) := by
    refine ⟨fun argument hmem => ?_, fun hclean => ?_⟩
    · rcases List.mem_append.mp hmem with hold | hnew
      · exact (harguments.values argument hold).later hall hlawful
      · rw [List.mem_singleton.mp hnew]
        exact hvalue.later (hsteps'.trans hmore) hread
    · exact (harguments.fit (hall.clean hclean)).append (hfits.2.2 (hmore.clean hclean))
  cases matched with
  | true =>
      refine .pure hlater ⟨hnow, Or.inr ?_⟩
      rcases hmatched.2 with ⟨-, -, hmoved⟩ | ⟨hfalse, -⟩
      · exact Nat.lt_of_le_of_lt (hsteps.trans hsteps').position_le hmoved
      · simp at hfalse
  | false => exact .pure hlater hnow

theorem traced_arguments {bound : Nat} {nested : Production Node} (h : Yields known bound nested)
    (formals : List DataType) (hlawful : session.Lawful known)
    (hahead : session.cursor.ahead < bound) :
    Traced known .statement (arguments nested formals) session fun arguments later =>
      AreArguments later formals arguments := by
  have hnone : AreArguments session formals [] := ⟨by simp, fun _ _ _ _ _ => by simp⟩
  unfold arguments
  rw [traced_check_bind]
  split
  · exact .pure hlawful hnone
  · exact .loop (fun arguments later => AreArguments later formals arguments) hlawful hnone
      fun arguments later hsteps hlater harguments =>
        traced_argument h hlater (Nat.lt_of_le_of_lt hsteps.ahead_le hahead) harguments

/-- Whether a node is a call that is a tree for a value, whichever line it has. -/
def IsCall (session : Session) (node : Node) : Prop :=
  ∃ type given id arguments, node = callNode type given id arguments ∧
    ∀ line, session.IsValue (callNode type line id arguments)

theorem IsCall.isValue {node : Node} (h : IsCall session node) : session.IsValue node := by
  obtain ⟨type, given, id, arguments, rfl, hvalue⟩ := h
  exact hvalue given

theorem traced_call {bound : Nat} {nested : Production Node} (h : Yields known bound nested)
    {id : EntryId} (hlawful : session.Lawful known) (hahead : session.cursor.ahead < bound + 1)
    (hkind : session.cursor.current.kind = .identifier)
    (hlookup : session.table.lookup session.cursor.current.text = some id)
    (hcallable : (session.table.entry id).kind ∈ DefinitionKind.callables) :
    Traced known .statement (call nested) session fun node later => IsCall later node := by
  unfold call
  rw [traced_current_bind]
  refine (traced_resolveIdentifier hlawful hkind).bind fun found resolved hsteps hresolved hid => ?_
  obtain ⟨rfl, hagrees⟩ : found = id ∧ (session.table.entry id).Agrees (resolved.table.entry id) := by
    rcases hid.cases with ⟨hfound, hagrees⟩ | ⟨hfound, -⟩
    · obtain rfl : found = id := Option.some.inj (hfound.symm.trans hlookup)
      exact ⟨rfl, hagrees⟩
    · simp [hlookup] at hfound
  refine (traced_nextToken hresolved).bind fun _ named hsteps' hnamed hnext => ?_
  rw [traced_table_bind]
  have hcallable' : (named.table.entry found).kind ∈ DefinitionKind.callables := by
    rwa [hnext.2.1, hagrees.kind]
  have hbelow : named.cursor.ahead < bound := by
    have hmoved := hnext.2.2 (by rw [hid.cursor]; exact isEnd_of_kind hkind (by simp))
    have := hsteps.ahead_le
    have := hsteps'.ahead_lt hmoved
    omega
  -- the arguments can grow the table, but not change what the call is checked against
  have hstays : ∀ later, Steps known .statement named later →
      (later.table.entry found).kind ∈ DefinitionKind.callables ∧
        signature later.table found = signature named.table found := fun later hlast => by
    have hkeeps : named.table.Keeps True named.table.entries.size later.table := (hlast.grows rfl).keeps
    have hlt := SymbolTable.lt_of_callable hcallable'
    exact ⟨hkeeps.callable _ hlt hcallable', hkeeps.signature_eq hnamed.valid trivial hlt⟩
  refine (traced_matchToken (by simp) hnamed).bind fun matched opened hopen hopened hmatched => ?_
  cases matched with
  | true =>
      refine (traced_arguments h _ hopened (Nat.lt_of_le_of_lt hopen.ahead_le hbelow)).bind
        fun arguments closing hread hclosing harguments => ?_
      refine (traced_expect (by simp) _ hclosing rfl).bind fun _ closed hclose hclosed _ => ?_
      refine (traced_ensure _ _ hclosed hlawful.current rfl).bind fun _ final hcount hfinal hlength => ?_
      -- each argument fits as far as there are parameters, and the numbers have been compared
      obtain ⟨hcallee, hsignature⟩ :=
        hstays final (hopen.trans (hread.trans (hclose.trans hcount)))
      refine .pure hfinal ⟨_, _, _, _, rfl, fun line =>
        .call line hcallee (fun argument hmem => ?_) fun hclean => (SymbolTable.callFits_iff hcallee).mpr ⟨?_, ?_⟩⟩
      · exact (harguments.values argument hmem).later (hclose.trans hcount) hclosing
      · exact congrArg Prod.fst hsignature.symm
      · rw [hsignature]
        exact (harguments.fit ((hclose.trans hcount).clean hclean)).forall₂
          (by simpa using hlength.2.2 hclean)
  | false =>
      refine (traced_flag _ hopened rfl).bind fun _ final hflag hfinal hflagged => ?_
      obtain ⟨hcallee, -⟩ := hstays final (hopen.trans hflag)
      exact .pure hfinal ⟨_, _, _, _, rfl, fun line =>
        .call line hcallee (by simp) fun hclean => absurd hclean hflagged.2.2.ne_nil⟩

/-! ## Factors -/

theorem value_of_literalNode? {session : Session} {token : Token} {node : Node}
    (h : literalNode? token = some node) : session.IsValue node := by
  unfold literalNode? at h
  split at h
  · obtain rfl := Option.some.inj h
    exact .literal (.integer _)
  · obtain rfl := Option.some.inj h
    exact .literal (.real _)
  · obtain rfl := Option.some.inj h
    exact .literal (.character _)
  · obtain rfl := Option.some.inj h
    exact .literal (.string _)
  · simp at h

theorem traced_identifierFactor {bound : Nat} {nested : Production Node}
    (h : Yields known bound nested) (hlawful : session.Lawful known)
    (hahead : session.cursor.ahead < bound + 1)
    (hkind : session.cursor.current.kind = .identifier) :
    Traced known .statement (identifierFactor nested) session fun node later => later.IsValue node := by
  have hvariable (hname : ReadsAsVariable session.table session.cursor.current.text) :
      Traced known .statement variableReference session fun node later => later.IsValue node :=
    (traced_variableReference hlawful hkind hname).mono fun node later _ _ hnode => by
      obtain ⟨id, rfl, hrefers⟩ := hnode
      exact .reference hrefers
  unfold identifierFactor
  rw [traced_current_bind, traced_lookup_bind]
  cases hlookup : session.table.lookup session.cursor.current.text with
  | none => exact hvariable fun id hid => by simp [hlookup] at hid
  | some id =>
      have hkinds := hlawful.valid.kinds id
      dsimp only
      rw [traced_entry_bind]
      cases hdefinition : (session.table.entry id).definition with
      | constant value => exact traced_namedConstant hlawful hdefinition
      | function _ | procedure _ =>
          refine (traced_call h hlawful hahead hkind hlookup ?_).mono fun _ _ _ _ hnode => hnode.isValue
          simp [Entry.kind, hdefinition, Definition.kind, DefinitionKind.callables]
      | type | program _ =>
          refine (traced_flag _ hlawful rfl).bind fun _ flagged _ hflagged hflag => ?_
          refine (traced_nextToken hflagged).bind fun _ final hsteps hfinal _ => .pure hfinal ?_
          exact .missing fun hclean => hflag.2.2.ne_nil (hsteps.clean hclean)
      | varParameter slot => simp [Entry.kind, hdefinition, Definition.kind] at hkinds
      | plainVariable _ | valueParameter _ | undefined =>
          refine hvariable fun other hother => ?_
          obtain rfl := Option.some.inj (hother.symm.trans hlookup)
          simp [Entry.kind, hdefinition, Definition.kind, DefinitionKind.referable]

theorem yields_factor {bound : Nat} {nested : Production Node} (h : Yields known bound nested) :
    Yields known (bound + 1) (factor nested) := by
  intro session hlawful hahead
  unfold factor
  rw [traced_current_bind]
  cases hliteral : literalNode? session.cursor.current with
  | some node =>
      refine (traced_nextToken hlawful).bind fun _ later hsteps hlater _ => .pure hlater ?_
      exact value_of_literalNode? hliteral
  | none =>
      dsimp only
      split
      · next hkind => exact traced_identifierFactor h hlawful hahead hkind
      · next hkind =>
          refine (traced_consume hkind (by simp) hlawful).bind fun _ later _ hlater hnext => ?_
          have hbelow := Nat.lt_of_lt_of_le hnext.2 (Nat.le_of_lt_succ hahead)
          refine (h later hlater hbelow).bind fun node read _ hread hnode => ?_
          refine (traced_expect (by simp) _ hread rfl).bind fun _ final hsteps' hfinal _ => ?_
          exact .pure hfinal (hnode.later hsteps' hread)
      · refine (traced_flag _ hlawful rfl).bind fun _ final _ hfinal hflagged => .pure hfinal ?_
        exact .missing hflagged.2.2.ne_nil

/-! ## Expressions -/

theorem yields_expressionWithin : ∀ depth, Yields known depth (expressionWithin depth)
  | 0 => fun session _ hahead => absurd hahead (Nat.not_lt_zero _)
  | depth + 1 => by
      refine yields_operations (fun session hlawful hahead => ?_) _ (List.Subset.refl _)
      have hfactor : Yields known (depth + 1) (factor (expressionWithin depth)) :=
        yields_factor (yields_expressionWithin depth)
      have := session.cursor.ahead_le_remaining
      unfold operand
      rw [traced_budget_bind]
      exact yields_operandWithin hfactor _ session hlawful (by omega)

/-- An expression makes a tree for a value, whatever tokens it is made of. -/
theorem traced_expression (hlawful : session.Lawful known) :
    Traced known .statement expression session fun node later => later.IsValue node := by
  have := session.cursor.ahead_le_remaining
  unfold expression
  rw [traced_budget_bind]
  exact yields_expressionWithin _ session hlawful (by omega)

theorem yields_expression (bound : Nat) : Yields known bound expression :=
  fun _ hlawful _ => traced_expression hlawful

end Production

end FrontEnd
