import FrontEnd.Proofs.Facing
import FrontEnd.Proofs.Instructions
import FrontEnd.Proofs.RoundTrip

/-!
# Statements read back what a rendering writes

`statement` makes from every rendering of an instruction a tree for it, leaves nothing of the rendering but
the semicolon that an assignment, a call or a return ends with, and reports nothing but operands and arguments
that do not fit (`statement_of_renders`).  An `else` goes to the last choice before it that has no alternative.

## Strategy

A return makes an entry, so the table does change between the parts of a statement.  But no name leads to the
entry, and what names lead to stays (`SymbolTable.Retains`); so what is left is a rendering in the later table
too (`Renders.of_retains`), and expressions can be read back there.

Where an instruction ends is told by the token after it.  So `Obeys` says of a production that it reads an
instruction back wherever a suitable token comes after the rendering (`Instruction.Suits`); the induction is
over renderings, and each case finds the token after an inner instruction in its own rendering.
-/

namespace FrontEnd

/-! ## What stays -/

/-- Whether names lead to the same entries in a later table, and the entries that there were have changed at
most in their lines. -/
structure SymbolTable.Retains (first second : SymbolTable) : Prop where
  size_le : first.entries.size ≤ second.entries.size
  lookup : ∀ name, second.lookup name = first.lookup name
  agrees : ∀ id < first.entries.size, (first.entry id).Agrees (second.entry id)

namespace SymbolTable

variable {first second third : SymbolTable}

theorem Retains.refl (table : SymbolTable) : table.Retains table :=
  ⟨Nat.le_refl _, fun _ => rfl, fun _ _ => .refl _⟩

theorem Retains.trans (h : first.Retains second) (h' : second.Retains third) : first.Retains third where
  size_le := Nat.le_trans h.size_le h'.size_le
  lookup name := (h'.lookup name).trans (h.lookup name)
  agrees id hlt := (h.agrees id hlt).trans (h'.agrees id (Nat.lt_of_lt_of_le hlt h.size_le))

theorem Relined.retains (h : first.Relined second) : first.Retains second :=
  ⟨Nat.le_of_eq h.size.symm, h.lookup, fun id _ => h.agrees id⟩

theorem retains_createDetached (table : SymbolTable) (name : String) (definition : Definition)
    (type : DataType) : table.Retains (table.createDetached name definition type).2 where
  size_le := by
    rw [size_createDetached]
    exact Nat.le_succ _
  lookup _ := rfl
  agrees id hlt := by rw [entry_createDetached, if_neg (Nat.ne_of_lt hlt)]

/-- An entry with a definition stays what it is. -/
theorem Retains.agrees_of_kind (h : first.Retains second) {id : EntryId}
    (hkind : (first.entry id).kind ≠ .undefined) : (first.entry id).Agrees (second.entry id) :=
  h.agrees id (lt_of_kind rfl hkind)

theorem Retains.names (h : first.Retains second) {token : Token} {id : EntryId} (hname : token.Names first id) :
    token.Names second id :=
  ⟨hname.toIs, (h.lookup token.text).trans hname.lookup⟩

theorem Retains.kind_mem (h : first.Retains second) {id : EntryId} {kinds : List DefinitionKind}
    (hkinds : .undefined ∉ kinds) (hkind : (first.entry id).kind ∈ kinds) :
    (second.entry id).kind ∈ kinds := by
  rwa [(h.agrees_of_kind fun hnone => hkinds (hnone ▸ hkind)).kind]

end SymbolTable

/-- What is written stays written. -/
theorem Renders.of_retains {first second : SymbolTable} {level : Nat} {formula : Formula} {tokens : List Token}
    (hretains : first.Retains second) (h : Renders first level formula tokens) :
    Renders second level formula tokens := by
  induction h with
  | literal hkind hvalue => exact .literal hkind hvalue
  | reference hname hkind => exact .reference (hretains.names hname) (hretains.kind_mem (by decide) hkind)
  | @constant _ id value _ hname hvalue =>
      have hkind : (first.entry id).kind ≠ .undefined := by simp [Entry.kind, hvalue, Definition.kind]
      exact .constant (hretains.names hname) ((hretains.agrees_of_kind hkind).definition.trans hvalue)
  | call hname hcallable hopening hclosing hcommas _ ih =>
      exact .call (hretains.names hname) (hretains.kind_mem (by decide) hcallable) hopening hclosing hcommas ih
  | parentheses hopening hclosing _ ih => exact .parentheses hopening hclosing ih
  | plusSign hlevel hsign _ ih => exact .plusSign hlevel hsign ih
  | negate hlevel hsign _ ih => exact .negate hlevel hsign ih
  | not hlevel hmark _ ih => exact .not hlevel hmark ih
  | binary hlevel hsymbol _ _ ihleft ihright => exact .binary hlevel hsymbol ihleft ihright

/-- Whether a session has come from a table and from some errors by statements that have been read back, and
faces some tokens. -/
structure Session.Minds (table : SymbolTable) (diagnostics : List Diagnostic) (tokens : List Token)
    (last : Cursor) (session : Session) : Prop where
  faces : session.cursor.Faces tokens last
  retains : table.Retains session.table
  tolerates : Tolerates diagnostics session.diagnostics

/-- Two lists of tokens are faced one after the other. -/
theorem Cursor.Faces.split {cursor last : Cursor} {before after : List Token}
    (h : cursor.Faces (before ++ after) last) :
    ∃ middle, cursor.Faces before middle ∧ middle.Faces after last := by
  obtain ⟨middle, hbefore, hafter⟩ := h.reads.append_inv
  have hrest : middle.Faces after last :=
    ⟨hafter, fun token hmem => h.clean token (List.mem_append_right _ hmem), h.next⟩
  refine ⟨middle, ⟨hbefore, fun token hmem => h.clean token (List.mem_append_left _ hmem), ?_⟩, hrest⟩
  cases after with
  | nil =>
      rw [hrest.eq_last]
      exact h.next
  | cons token after =>
      rw [hrest.current_eq]
      exact h.clean token (by simp)

/-- What faces a later part of the tokens has fewer ahead. -/
theorem Cursor.Faces.ahead_lt {cursor later last : Cursor} {token : Token} {tokens others : List Token}
    {bound : Nat} (h : cursor.Faces (token :: tokens) last) (hlater : later.Faces others last)
    (hsuffix : others <:+ tokens) (hbound : cursor.ahead < bound + 1) : later.ahead < bound := by
  have hahead := h.ahead_eq
  have hrest := hlater.ahead_eq
  have hlength := hsuffix.length_le
  rw [List.length_cons] at hahead
  omega

namespace Session.Minds

variable {table : SymbolTable} {diagnostics : List Diagnostic} {tokens others : List Token}
  {last middle : Cursor} {session later : Session}

theorem moved (h : session.Minds table diagnostics tokens last) {cursor : Cursor}
    (hfaces : cursor.Faces others middle) :
    Session.Minds table diagnostics others middle { session with cursor } :=
  ⟨hfaces, h.retains, h.tolerates⟩

/-- An expression begins with the table that has been reached. -/
theorem before (h : session.Minds table diagnostics tokens last) :
    session.Before session.table tokens last :=
  ⟨h.faces.reads, h.faces.clean, h.faces.next, ⟨rfl, fun _ => rfl, fun _ => .refl _⟩⟩

/-- What comes of an expression. -/
theorem after (h : session.Minds table diagnostics tokens last)
    (hafter : later.After session.table session.diagnostics middle) (hfaces : middle.Faces others last) :
    later.Minds table diagnostics others last :=
  ⟨hafter.cursor ▸ hfaces, h.retains.trans hafter.relined.retains, h.tolerates.trans hafter.tolerates⟩

end Session.Minds

namespace Production

open Instruction

variable {table : SymbolTable} {diagnostics : List Diagnostic} {owner : EntryId} {session : Session}
  {nested : Production Node} {tokens rest : List Token} {last : Cursor} {token : Token}

/-! ## Expressions -/

theorem recovers_expression {formula : Formula} (h : FrontEnd.Renders table 0 formula tokens) (bound : Nat) :
    Recovers table expression formula tokens (Ends 0) bound := by
  intro session last hbefore _ hends
  have hahead := session.cursor.ahead_le_remaining
  rw [expression, leads_bind, leads_budget]
  exact (parsed_of_renders h).recovers _ session last hbefore (by omega) hends

/-- An expression is read back wherever it stands in a statement. -/
theorem leads_expression {formula : Formula} (hrenders : FrontEnd.Renders table 0 formula tokens)
    (h : session.Minds table diagnostics (tokens ++ token :: rest) last) (htoken : Ends 0 token.kind) :
    Leads expression session (fun _ => False) fun node later =>
      node.bare = formula.tree ∧ later.Minds table diagnostics (token :: rest) last := by
  obtain ⟨middle, hbefore, hafter⟩ := h.faces.split
  have hends : Ends 0 middle.current.kind := by rwa [hafter.current_eq]
  have hminds : session.Minds table diagnostics tokens middle := ⟨hbefore, h.retains, h.tolerates⟩
  have hread := recovers_expression (hrenders.of_retains h.retains) (session.cursor.ahead + 1)
  apply (hread session middle hminds.before (Nat.lt_succ_self _) hends).imp
  rintro node later ⟨hnode, hlater⟩
  exact ⟨hnode, h.after hlater hafter⟩

/-- An error that is tolerated leaves a session where it is. -/
theorem leads_ensure_minds {holds : Bool} {kind : ErrorKind} (h : session.Minds table diagnostics tokens last)
    (hkind : kind ∈ ErrorKind.misfits) :
    Leads (ensure holds token kind) session (fun _ => False) fun _ later =>
      later.Minds table diagnostics tokens last :=
  leads_ensure hkind fun _ htolerates => ⟨h.faces, h.retains, h.tolerates.trans htolerates⟩

/-- A semicolon that has to be there is left. -/
theorem leads_require_of_is {kind : TokenKind} {missing : ErrorKind} {stop : Interruption → Prop}
    {post : Unit → Session → Prop} (hcurrent : session.cursor.current.kind = kind) :
    Leads (require kind missing) session stop post ↔ post () session := by
  rw [require, leads_bind, leads_current, hcurrent, beq_self_eq_true, ensure, if_pos rfl]
  exact Iff.rfl

theorem leads_condition {condition : Formula} {opening closing : Token} (hopening : opening.Is .leftParen)
    (hrenders : FrontEnd.Renders table 0 condition tokens) (hclosing : closing.Is .rightParen)
    (h : session.Minds table diagnostics (opening :: (tokens ++ [closing]) ++ rest) last) :
    Leads Production.condition session (fun _ => False) fun node later =>
      node.bare = condition.tree ∧ later.Minds table diagnostics rest last := by
  rw [List.cons_append, List.append_assoc, List.singleton_append] at h
  unfold Production.condition
  rw [leads_bind]
  apply leads_expect_of_faces h.faces hopening.kind
  intro next hnext
  rw [leads_bind, leads_current, leads_bind]
  apply (leads_expression hrenders (h.moved hnext) (by rw [hclosing.kind]; decide)).imp
  rintro node read ⟨hnode, hread⟩
  rw [leads_bind]
  apply (leads_ensure_minds hread (by decide)).imp
  intro _ checked hchecked
  rw [leads_bind]
  apply leads_expect_of_faces hchecked.faces hclosing.kind
  intro next hnext
  exact ⟨hnode, hchecked.moved hnext⟩

/-! ## Assignments, calls and returns -/

/-- Whether a production makes a tree for an instruction from tokens that write it, but for a semicolon that
it leaves, wherever fewer than `bound` tokens are ahead and a suitable token comes after them. -/
def Obeys (table : SymbolTable) (production : Production Node) (instruction : Instruction)
    (tokens : List Token) (bound : Nat) : Prop :=
  ∀ session last diagnostics, Session.Minds table diagnostics tokens last session →
    session.cursor.ahead < bound → instruction.Suits last.current.kind →
    Leads production session (fun _ => False) fun node later =>
      instruction.Yields table.entries.size node ∧
        later.Minds table diagnostics (instruction.leftover tokens) last

/-- A production whose node is given a line. -/
def lined (line : Nat) (production : Production Node) : Production Node := do
  return { ← production with line := some line }

theorem leads_lined {line : Nat} {production : Production Node} {stop : Interruption → Prop}
    {post : Node → Session → Prop} :
    Leads (lined line production) session stop post ↔
      Leads production session stop fun node later => post { node with line := some line } later := by
  rw [lined, leads_bind]
  exact Iff.rfl

theorem leads_kindOf {name : String} {id : EntryId} {stop : Interruption → Prop}
    {post : DefinitionKind → Session → Prop} (hlookup : session.table.lookup name = some id) :
    Leads (kindOf name) session stop post ↔ post (session.table.entry id).kind session := by
  rw [kindOf, leads_bind, leads_lookup, hlookup]
  exact Iff.rfl

theorem leads_assignment {target : EntryId} {value : Formula} {name mark finish : Token}
    (hname : name.Names table target)
    (htarget : (table.entry target).kind ∈ [.plainVariable, .valueParameter, .varParameter])
    (hmark : mark.Is .equals) (hvalue : FrontEnd.Renders table 0 value tokens) (hfinish : finish.Is .semicolon)
    (h : session.Minds table diagnostics ([name] ++ mark :: (tokens ++ [finish])) last) :
    Leads (lined name.line assignment) session (fun _ => False) fun node later =>
      (Instruction.assign name.line target value).Yields table.entries.size node ∧
        later.Minds table diagnostics [finish] last := by
  have hdefined : (session.table.entry target).kind ≠ .undefined := by
    intro hnone
    have hkind := h.retains.kind_mem (by decide) htarget
    rw [hnone] at hkind
    exact absurd hkind (by decide)
  obtain ⟨middle, hbefore, hafter⟩ := h.faces.split
  have hminds : session.Minds table diagnostics [name] middle := ⟨hbefore, h.retains, h.tolerates⟩
  rw [leads_lined, assignment, leads_bind]
  apply (leads_variableReference hminds.before (h.retains.names hname) hdefined (.refl _)).imp
  rintro left named ⟨hleft, hnamed⟩
  have hmarked := h.after hnamed hafter
  rw [leads_bind]
  apply leads_expect_of_faces hmarked.faces hmark.kind
  intro next hnext
  rw [leads_bind, leads_current, leads_bind]
  apply (leads_expression hvalue (hmarked.moved hnext) (by rw [hfinish.kind]; decide)).imp
  rintro right read ⟨hright, hread⟩
  rw [leads_bind]
  apply (leads_ensure_minds hread (by decide)).imp
  intro _ checked hchecked
  rw [leads_bind, leads_require_of_is (by rw [hchecked.faces.current_eq]; exact hfinish.kind)]
  exact ⟨.assign hleft hright, hchecked⟩

/-- What a name means decides between an assignment and a call. -/
theorem obeys_assign {target : EntryId} {value : Formula} {name mark finish : Token} {bound : Nat}
    (hname : name.Names table target)
    (htarget : (table.entry target).kind ∈ [.plainVariable, .valueParameter, .varParameter])
    (hmark : mark.Is .equals) (hvalue : FrontEnd.Renders table 0 value tokens) (hfinish : finish.Is .semicolon) :
    Obeys table (lined name.line identifierStatement) (.assign name.line target value)
      (name :: mark :: (tokens ++ [finish])) bound := by
  intro session last diagnostics h _ _
  have hassignment := leads_assignment hname htarget hmark hvalue hfinish h
  have hleft : (Instruction.assign name.line target value).leftover (name :: mark :: (tokens ++ [finish])) =
      [finish] := by
    simp [leftover, isSimple, List.getLast?_cons]
  have hkind := h.retains.kind_mem (by decide) htarget
  simp only [List.mem_cons, List.not_mem_nil, or_false] at hkind
  rw [leads_lined] at hassignment
  rw [leads_lined, identifierStatement, leads_bind, leads_current, leads_bind,
    leads_kindOf (by rw [h.faces.current_eq]; exact (h.retains.names hname).lookup), hleft]
  rcases hkind with hkind | hkind | hkind <;> rw [hkind] <;> exact hassignment

theorem obeys_call {routine : EntryId} {name opening closing finish : Token}
    {arguments : List Formula.Argument} {bound : Nat} (hname : name.Names table routine)
    (hcallable : (table.entry routine).kind ∈ DefinitionKind.callables) (hopening : opening.Is .leftParen)
    (hclosing : closing.Is .rightParen) (hcommas : ∀ argument ∈ arguments, argument.comma.Is .comma)
    (hrenders : ∀ argument ∈ arguments, FrontEnd.Renders table 0 argument.formula argument.tokens)
    (hfinish : finish.Is .semicolon) :
    Obeys table (lined name.line identifierStatement)
      (.call name.line routine (arguments.map Formula.Argument.formula))
      ((name :: opening :: (Formula.Argument.join arguments ++ [closing])) ++ [finish]) bound := by
  intro session last diagnostics h _ _
  have hkind := h.retains.kind_mem (by decide) hcallable
  have hleft : (Instruction.call name.line routine (arguments.map Formula.Argument.formula)).leftover
      ((name :: opening :: (Formula.Argument.join arguments ++ [closing])) ++ [finish]) = [finish] := by
    rw [leftover, isSimple, if_pos rfl, List.getLast?_concat]
    rfl
  obtain ⟨middle, hbefore, hafter⟩ := h.faces.split
  have hminds := Session.Minds.mk hbefore h.retains h.tolerates
  have hcall : Leads (do
      let node ← call expression
      require .semicolon .missingSemicolon
      return node) session (fun _ => False) fun node later =>
        (Instruction.call name.line routine (arguments.map Formula.Argument.formula)).Yields
            table.entries.size { node with line := some name.line } ∧
          later.Minds table diagnostics [finish] last := by
    have hrenders' : ∀ argument ∈ arguments,
        FrontEnd.Renders session.table 0 argument.formula argument.tokens :=
      fun argument hmem => (hrenders argument hmem).of_retains h.retains
    rw [leads_bind]
    apply (leads_call (h.retains.names hname) hkind hopening hclosing hcommas hrenders'
      (fun argument hmem => recovers_expression (hrenders' argument hmem) session.cursor.ahead)
      hminds.before (Nat.lt_succ_self _)).imp
    rintro node called ⟨hnode, hcalled⟩
    have hread := h.after hcalled hafter
    rw [leads_bind, leads_require_of_is (by rw [hread.faces.current_eq]; exact hfinish.kind)]
    refine ⟨.call ?_ rfl, hread⟩
    rw [← hnode, Node.bare_eq, Node.bare_eq node]
  rw [leads_lined, identifierStatement, leads_bind, leads_current, leads_bind,
    leads_kindOf (by rw [h.faces.current_eq]; exact (h.retains.names hname).lookup), hleft]
  simp only [DefinitionKind.callables, List.mem_cons, List.not_mem_nil, or_false] at hkind
  rcases hkind with hkind | hkind <;> rw [hkind] <;> exact hcall

/-- A return makes a variable for itself, and then comes what it gives back. -/
theorem leads_returnStatement {value : Option Formula} {word finish : Token}
    (h : session.Minds table diagnostics (word :: tokens) last) (howner : owner < table.entries.size)
    (hfinish : finish.Is .semicolon)
    (hvalue : ∀ (session : Session) (type : DataType), session.Minds table diagnostics tokens last →
      Leads (returnedValue (table.entry owner).kind type) session (fun _ => False) fun nodes later =>
        nodes.map Node.bare = value.toList.map Formula.tree ∧ later.Minds table diagnostics [finish] last) :
    Leads (lined word.line (returnStatement owner)) session (fun _ => False) fun node later =>
      (Instruction.giveBack word.line value).Yields table.entries.size node ∧
        later.Minds table diagnostics [finish] last := by
  rw [leads_lined, returnStatement, leads_bind]
  apply leads_nextToken_of_faces h.faces
  intro next hnext
  rw [leads_bind, leads_entry, leads_bind, leads_onTable, leads_bind, (h.retains.agrees owner howner).kind]
  have hminds := h.moved hnext
  refine Leads.imp (hvalue _ _ ⟨hminds.faces, hminds.retains.trans (SymbolTable.retains_createDetached ..),
    hminds.tolerates⟩) ?_
  rintro nodes read ⟨hnodes, hread⟩
  rw [leads_bind, leads_require_of_is (by rw [hread.faces.current_eq]; exact hfinish.kind)]
  exact ⟨.giveBack h.retains.size_le (by simp [Node.bare_eq, Formula.tree]; rfl) hnodes, hread⟩

theorem obeys_giveBack {value : Formula} {word finish : Token} {bound : Nat}
    (howner : owner < table.entries.size) (hkind : (table.entry owner).kind ≠ .procedure)
    (hvalue : FrontEnd.Renders table 0 value tokens) (hfinish : finish.Is .semicolon) :
    Obeys table (lined word.line (returnStatement owner)) (.giveBack word.line (some value))
      (word :: (tokens ++ [finish])) bound := by
  intro session last diagnostics h _ _
  have hleft : (Instruction.giveBack word.line (some value)).leftover (word :: (tokens ++ [finish])) =
      [finish] := by
    simp [leftover, isSimple, List.getLast?_cons]
  rw [hleft]
  apply leads_returnStatement h howner hfinish
  intro session type h
  obtain ⟨first, others, htokens, hstart⟩ := hvalue.begins
  have hcurrent : session.cursor.current = first := by
    have hfaces := h.faces
    rw [htokens] at hfaces
    exact hfaces.current_eq
  rw [returnedValue, leads_bind, leads_current, hcurrent, if_pos hstart, leads_bind]
  apply (leads_expression hvalue h (by rw [hfinish.kind]; decide)).imp
  rintro node read ⟨hnode, hread⟩
  rw [leads_bind, ensure, if_pos (by simpa using hkind), leads_pure, leads_bind]
  apply (leads_ensure_minds hread (by decide)).imp
  intro _ later hlater
  exact ⟨congrArg (fun node => [node]) hnode, hlater⟩

theorem obeys_leave {word finish : Token} {bound : Nat} (howner : owner < table.entries.size)
    (hkind : (table.entry owner).kind ≠ .function) (hfinish : finish.Is .semicolon) :
    Obeys table (lined word.line (returnStatement owner)) (.giveBack word.line none) [word, finish] bound := by
  intro session last diagnostics h _ _
  apply leads_returnStatement h howner hfinish
  intro session type h
  rw [returnedValue, leads_bind, leads_current, h.faces.current_eq, hfinish.kind, if_neg (by decide), leads_bind,
    ensure, if_pos (by simpa using hkind), leads_pure]
  exact ⟨rfl, h⟩

/-! ## Statements inside others -/

/-- A statement inside another is read with its semicolon. -/
theorem leads_innerStatement {instruction : Instruction} {inner : List Token} {bound : Nat}
    (hrenders : instruction.Renders table owner inner) (hobeys : Obeys table nested instruction inner bound)
    (h : session.Minds table diagnostics (inner ++ rest) last) (hbound : session.cursor.ahead < bound)
    (hsuits : ∀ middle : Cursor, middle.Faces rest last → instruction.Suits middle.current.kind) :
    Leads (innerStatement nested) session (fun _ => False) fun node later =>
      instruction.Yields table.entries.size node ∧ later.Minds table diagnostics rest last := by
  obtain ⟨middle, hbefore, hafter⟩ := h.faces.split
  have hminds : session.Minds table diagnostics inner middle := ⟨hbefore, h.retains, h.tolerates⟩
  have hmiddle := hsuits middle hafter
  rw [innerStatement, leads_bind]
  apply (hobeys session middle diagnostics hminds hbound hmiddle).imp
  rintro node read ⟨hnode, hread⟩
  rw [leads_bind]
  rcases hrenders.leftover_cases with ⟨finish, hfinish, hleft⟩ | hleft <;> rw [hleft] at hread
  · apply leads_matchToken_of_faces hread.faces hfinish.kind
    intro next hnext
    rw [hnext.eq_last]
    exact ⟨hnode, hread.moved hafter⟩
  · have hcursor := hread.faces.eq_last
    rw [leads_matchToken_of_ne (by rw [hcursor]; exact hmiddle.1)]
    exact ⟨hnode, hcursor ▸ hafter, hread.retains, hread.tolerates⟩

/-- After the last statement inside another nothing is left. -/
theorem suits_last {instruction outer : Instruction} (hsuits : outer.Suits last.current.kind)
    (hopen : instruction.endsOpen = true → outer.endsOpen = true) :
    ∀ middle : Cursor, middle.Faces [] last → instruction.Suits middle.current.kind := by
  intro middle hmiddle
  rw [hmiddle.eq_last]
  exact ⟨hsuits.1, fun hinner => hsuits.2 (hopen hinner)⟩

theorem obeys_branch {condition : Formula} {consequent : Instruction} {word opening closing : Token}
    {inner : List Token} {bound : Nat} (hopening : opening.Is .leftParen)
    (hcondition : FrontEnd.Renders table 0 condition tokens) (hclosing : closing.Is .rightParen)
    (hinner : consequent.Renders table owner inner) (hobeys : Obeys table nested consequent inner bound) :
    Obeys table (lined word.line (ifStatement nested)) (.branch word.line condition consequent)
      (word :: (opening :: (tokens ++ [closing]) ++ inner)) (bound + 1) := by
  intro session last diagnostics h hbound hsuits
  rw [leads_lined, ifStatement, leads_bind]
  apply leads_nextToken_of_faces h.faces
  intro next hnext
  rw [leads_bind]
  apply (leads_condition hopening hcondition hclosing (h.moved hnext)).imp
  rintro test tested ⟨htest, htested⟩
  have hahead := h.faces.ahead_lt htested.faces (List.suffix_append _ _) hbound
  rw [leads_bind]
  rw [← List.append_nil inner] at htested
  apply (leads_innerStatement hinner hobeys htested hahead
    (suits_last hsuits fun _ => rfl)).imp
  rintro node read ⟨hnode, hread⟩
  rw [leads_bind, leads_matchToken_of_ne (by rw [hread.faces.eq_last]; exact hsuits.2 rfl)]
  exact ⟨.branch htest hnode, hread⟩

theorem obeys_choice {condition : Formula} {consequent alternative : Instruction}
    {word opening closing elseWord : Token} {inner others : List Token} {bound : Nat}
    (hopening : opening.Is .leftParen) (hcondition : FrontEnd.Renders table 0 condition tokens)
    (hclosing : closing.Is .rightParen) (hinner : consequent.Renders table owner inner)
    (hclosed : consequent.endsOpen = false) (hword : elseWord.Is .elseWord)
    (hothers : alternative.Renders table owner others) (hobeys : Obeys table nested consequent inner bound)
    (hobeys' : Obeys table nested alternative others bound) :
    Obeys table (lined word.line (ifStatement nested))
      (.choice word.line condition consequent alternative)
      (word :: (opening :: (tokens ++ [closing]) ++ (inner ++ elseWord :: others))) (bound + 1) := by
  intro session last diagnostics h hbound hsuits
  rw [leads_lined, ifStatement, leads_bind]
  apply leads_nextToken_of_faces h.faces
  intro next hnext
  rw [leads_bind]
  apply (leads_condition hopening hcondition hclosing (h.moved hnext)).imp
  rintro test tested ⟨htest, htested⟩
  have hahead := h.faces.ahead_lt htested.faces (List.suffix_append _ _) hbound
  have helse : ∀ middle : Cursor, middle.Faces (elseWord :: others) last →
      consequent.Suits middle.current.kind := by
    intro middle hmiddle
    rw [hmiddle.current_eq, hword.kind]
    exact ⟨by decide, fun hopen => absurd hopen (by simp [hclosed])⟩
  rw [leads_bind]
  apply (leads_innerStatement hinner hobeys htested hahead helse).imp
  rintro node read ⟨hnode, hread⟩
  rw [leads_bind]
  apply leads_matchToken_of_faces hread.faces hword.kind
  intro next hnext
  have hmoved := hread.moved hnext
  have hahead := h.faces.ahead_lt hmoved.faces (((List.suffix_cons _ _).trans
    (List.suffix_append _ _)).trans (List.suffix_append _ _)) hbound
  rw [← List.append_nil others] at hmoved
  rw [if_pos rfl, leads_bind]
  apply (leads_innerStatement hothers hobeys' hmoved hahead
    (suits_last hsuits id)).imp
  rintro other final ⟨hother, hfinal⟩
  exact ⟨.choice htest hnode hother, hfinal⟩

theorem obeys_whileLoop {condition : Formula} {body : Instruction} {word opening closing : Token}
    {inner : List Token} {bound : Nat} (hopening : opening.Is .leftParen)
    (hcondition : FrontEnd.Renders table 0 condition tokens) (hclosing : closing.Is .rightParen)
    (hinner : body.Renders table owner inner) (hobeys : Obeys table nested body inner bound) :
    Obeys table (lined word.line (whileStatement nested)) (.whileLoop word.line condition body)
      (word :: (opening :: (tokens ++ [closing]) ++ inner)) (bound + 1) := by
  intro session last diagnostics h hbound hsuits
  rw [leads_lined, whileStatement, leads_bind]
  apply leads_nextToken_of_faces h.faces
  intro next hnext
  rw [leads_bind]
  apply (leads_condition hopening hcondition hclosing (h.moved hnext)).imp
  rintro test tested ⟨htest, htested⟩
  have hahead := h.faces.ahead_lt htested.faces (List.suffix_append _ _) hbound
  rw [leads_bind]
  rw [← List.append_nil inner] at htested
  apply (leads_innerStatement hinner hobeys htested hahead
    (suits_last hsuits id)).imp
  rintro node read ⟨hnode, hread⟩
  exact ⟨.whileLoop htest hnode, hread⟩

theorem obeys_doWhileLoop {condition : Formula} {body : Instruction}
    {word whileWord opening closing : Token} {inner : List Token} {bound : Nat}
    (hinner : body.Renders table owner inner) (hword : whileWord.Is .whileWord)
    (hopening : opening.Is .leftParen) (hcondition : FrontEnd.Renders table 0 condition tokens)
    (hclosing : closing.Is .rightParen) (hobeys : Obeys table nested body inner bound) :
    Obeys table (lined word.line (doStatement nested)) (.doWhileLoop word.line body condition)
      (word :: (inner ++ whileWord :: (opening :: (tokens ++ [closing])))) (bound + 1) := by
  intro session last diagnostics h hbound _
  rw [leads_lined, doStatement, leads_bind]
  apply leads_nextToken_of_faces h.faces
  intro next hnext
  have hmoved := h.moved hnext
  have hahead := h.faces.ahead_lt hmoved.faces (List.suffix_refl _) hbound
  have hwhile : ∀ middle : Cursor, middle.Faces (whileWord :: (opening :: (tokens ++ [closing]))) last →
      body.Suits middle.current.kind := by
    intro middle hmiddle
    rw [hmiddle.current_eq, hword.kind]
    exact ⟨by decide, fun _ => by decide⟩
  rw [leads_bind]
  apply (leads_innerStatement hinner hobeys hmoved hahead hwhile).imp
  rintro node read ⟨hnode, hread⟩
  rw [leads_bind]
  apply leads_matchToken_of_faces hread.faces hword.kind
  intro next hnext
  have hmoved := hread.moved hnext
  rw [← List.append_nil (opening :: (tokens ++ [closing]))] at hmoved
  rw [if_pos rfl, leads_bind]
  apply (leads_condition hopening hcondition hclosing hmoved).imp
  rintro test tested ⟨htest, htested⟩
  exact ⟨.doWhileLoop hnode htest, htested⟩

/-! ## Compound statements -/

/-- The tokens that can come after a statement of a compound statement. -/
def followingKinds : List TokenKind := .rightBrace :: firstKinds

theorem suits_following {instruction : Instruction} {following : Token} {others : List Token}
    (hfollowing : following.kind ∈ followingKinds) :
    ∀ middle : Cursor, middle.Faces (following :: others) last → instruction.Suits middle.current.kind := by
  have hall : ∀ kind ∈ followingKinds, kind ≠ .semicolon ∧ kind ≠ .elseWord := by decide
  intro middle hmiddle
  rw [hmiddle.current_eq]
  exact ⟨(hall _ hfollowing).1, fun _ => (hall _ hfollowing).2⟩

theorem leads_listedStatement {piece : Piece} {statements : List Node} {following : Token}
    {others : List Token} {bound : Nat} (hrenders : piece.instruction.Renders table owner piece.tokens)
    (hobeys : Obeys table nested piece.instruction piece.tokens bound)
    (hfollowing : following.kind ∈ followingKinds)
    (h : session.Minds table diagnostics (piece.tokens ++ following :: others) last)
    (hbound : session.cursor.ahead < bound) :
    Leads (listedStatement nested statements) session (fun _ => False) fun next later =>
      ∃ node, next = .yield (statements ++ [node]) ∧ piece.instruction.Yields table.entries.size node ∧
        later.Minds table diagnostics (following :: others) last := by
  have hposition := h.faces.position_eq
  have hinner := leads_innerStatement hrenders hobeys h hbound (suits_following hfollowing)
  obtain ⟨first, more, htokens, hfirst, -⟩ := hrenders.begins
  have hcurrent : session.cursor.current = first := by
    have hfaces := h.faces
    rw [htokens] at hfaces
    exact hfaces.current_eq
  have hgoes : (first.isEnd || first.kind == .rightBrace) = false := by
    have hall : ∀ kind ∈ firstKinds, (kind == .endOfFile || kind == .rightBrace) = false := by decide
    exact hall _ hfirst
  rw [listedStatement, leads_bind, leads_current, hcurrent, hgoes, if_neg Bool.false_ne_true, leads_bind,
    leads_position, leads_bind]
  simp only [innerStatement, leads_bind, leads_pure] at hinner
  apply hinner.imp
  intro node read hread
  rw [leads_bind]
  apply hread.imp
  rintro _ later ⟨hnode, hlater⟩
  have hmoved : later.cursor.position ≠ session.cursor.position := by
    have hlast := hlater.faces.position_eq
    rw [htokens] at hposition
    simp only [List.length_append, List.length_cons] at hposition hlast
    omega
  have hset : ∀ kind ∈ followingKinds, afterStatement.contains kind = true := by decide
  rw [leads_bind, dropUnlessMoved, leads_bind, leads_position, beq_eq_false_iff_ne.mpr hmoved,
    if_neg Bool.false_ne_true, leads_pure, leads_bind,
    leads_synchronize_of_contains (by rw [hlater.faces.current_eq]; exact hset _ hfollowing)]
  exact ⟨node, rfl, hnode, hlater⟩

/-- The statements between the braces are read one by one, up to the closing brace. -/
theorem leads_statements {pieces : List Piece} {closing : Token} {bound : Nat}
    (hpieces : ∀ piece ∈ pieces, piece.instruction.Renders table owner piece.tokens ∧
      Obeys table nested piece.instruction piece.tokens bound)
    (hclosing : closing.Is .rightBrace)
    (h : session.Minds table diagnostics (pieces.flatMap Piece.tokens ++ closing :: rest) last)
    (hbound : session.cursor.ahead < bound) :
    Leads (loop (listedStatement nested) []) session (fun _ => False) fun nodes later =>
      (∃ parts : List (Instruction × Node), nodes = parts.map Prod.snd ∧
        pieces.map Piece.instruction = parts.map Prod.fst ∧
          ∀ part ∈ parts, part.1.Yields table.entries.size part.2) ∧
        later.Minds table diagnostics (closing :: rest) last := by
  apply Leads.loop fun nodes session => ∃ (parts : List (Instruction × Node)) (left : List Piece),
    nodes = parts.map Prod.snd ∧
      pieces.map Piece.instruction = parts.map Prod.fst ++ left.map Piece.instruction ∧
      (∀ part ∈ parts, part.1.Yields table.entries.size part.2) ∧ (∀ piece ∈ left, piece ∈ pieces) ∧
        session.Minds table diagnostics (left.flatMap Piece.tokens ++ closing :: rest) last ∧
          session.cursor.ahead < bound
  · exact ⟨[], pieces, rfl, rfl, by simp, fun _ hmem => hmem, h, hbound⟩
  rintro _ session ⟨parts, left, rfl, hall, hparts, hleft, h, hbound⟩
  cases left with
  | nil =>
      have hcurrent : session.cursor.current = closing := h.faces.current_eq
      rw [listedStatement, leads_bind, leads_current, hcurrent, hclosing.kind, if_pos (by simp)]
      exact ⟨⟨parts, rfl, by simpa using hall, hparts⟩, h⟩
  | cons piece left =>
      obtain ⟨hpiece, hleft⟩ := List.forall_mem_cons.mp hleft
      obtain ⟨hrenders, hobeys⟩ := hpieces piece hpiece
      have hahead := h.faces.ahead_eq
      rw [List.flatMap_cons, List.append_assoc] at h
      -- after the statement comes the next one, or the closing brace
      obtain ⟨following, others, hothers, hfollowing⟩ : ∃ following others,
          left.flatMap Piece.tokens ++ closing :: rest = following :: others ∧
            following.kind ∈ followingKinds := by
        cases left with
        | nil => exact ⟨closing, rest, rfl, by rw [hclosing.kind]; decide⟩
        | cons next left =>
            obtain ⟨first, more, htokens, hfirst, -⟩ := (hpieces next (hleft next (by simp))).1.begins
            rw [List.flatMap_cons, htokens]
            exact ⟨first, _, rfl, List.mem_cons_of_mem _ hfirst⟩
      rw [hothers] at h
      apply (leads_listedStatement hrenders hobeys hfollowing h hbound).imp
      rintro _ later ⟨node, rfl, hnode, hlater⟩
      rw [← hothers] at hlater
      have hlt : later.cursor.ahead < session.cursor.ahead := by
        have hlast := hlater.faces.ahead_eq
        obtain ⟨first, more, htokens, -⟩ := hrenders.begins
        rw [List.flatMap_cons, htokens] at hahead
        simp only [List.length_append, List.length_cons] at hahead hlast
        omega
      refine ⟨⟨parts ++ [(piece.instruction, node)], left, by simp, by simp [hall], ?_, hleft, hlater,
        Nat.lt_trans hlt hbound⟩, hlt⟩
      exact List.forall_mem_append.mpr ⟨hparts, List.forall_mem_singleton.mpr hnode⟩

theorem obeys_compound {opening closing : Token} {pieces : List Piece} {bound : Nat}
    (hclosing : closing.Is .rightBrace)
    (hpieces : ∀ piece ∈ pieces, piece.instruction.Renders table owner piece.tokens ∧
      Obeys table nested piece.instruction piece.tokens bound) :
    Obeys table (lined opening.line (compoundOf nested))
      (.compound opening.line (pieces.map Piece.instruction))
      (opening :: (pieces.flatMap Piece.tokens ++ [closing])) (bound + 1) := by
  intro session last diagnostics h hbound _
  rw [leads_lined, compoundOf, leads_bind, leads_current, leads_bind]
  apply leads_nextToken_of_faces h.faces
  intro next hnext
  have hmoved := h.moved hnext
  have hahead := h.faces.ahead_lt hmoved.faces (List.suffix_refl _) hbound
  rw [leads_bind]
  apply (leads_statements hpieces hclosing hmoved hahead).imp
  rintro nodes read ⟨⟨parts, rfl, hall, hparts⟩, hread⟩
  rw [leads_bind]
  apply leads_expect_of_faces hread.faces hclosing.kind
  intro next hnext
  rw [hall]
  exact ⟨.compound hparts, hread.moved hnext⟩

/-! ## Whole statements -/

/-- A production that a statement is handed to at a token of some kind reads the statements that begin
with such a token. -/
theorem obeys_statementWithin (production : Production Node → Production Node) {instruction : Instruction}
    {first : Token} {others : List Token} {kind : TokenKind} (hkind : first.kind = kind)
    (hnode : ∀ nested session, session.cursor.current.kind = kind →
      statementNode owner nested session = production nested session)
    (h : ∀ depth, Obeys table (lined first.line (production (statementWithin owner depth))) instruction
      (first :: others) (depth + 1)) (depth : Nat) :
    Obeys table (statementWithin owner depth) instruction (first :: others) depth := by
  intro session last diagnostics hminds hbound hsuits
  cases depth with
  | zero => exact absurd hbound (Nat.not_lt_zero _)
  | succ depth =>
      have hread := h depth session last diagnostics hminds hbound hsuits
      have hcurrent := hminds.faces.current_eq
      rw [leads_lined] at hread
      rw [statementWithin, statementOf, leads_bind, leads_current, leads_bind, hcurrent]
      rwa [Leads, hnode _ _ (hcurrent ▸ hkind)]

/-- Every rendering is read back as a statement. -/
theorem obeys_of_renders {instruction : Instruction} (howner : owner < table.entries.size)
    (h : instruction.Renders table owner tokens) (depth : Nat) :
    Obeys table (statementWithin owner depth) instruction tokens depth := by
  induction h generalizing depth with
  | assign hname htarget hmark hvalue hfinish =>
      apply obeys_statementWithin (fun _ => identifierStatement) hname.kind
      · intro nested session hcurrent
        rw [statementNode, currentKind_bind, hcurrent]
      · exact fun _ => obeys_assign hname htarget hmark hvalue hfinish
  | call hname hcallable hopening hclosing hcommas hrenders hfinish =>
      apply obeys_statementWithin (fun _ => identifierStatement) hname.kind
      · intro nested session hcurrent
        rw [statementNode, currentKind_bind, hcurrent]
      · exact fun _ => obeys_call hname hcallable hopening hclosing hcommas hrenders hfinish
  | giveBack hword hkind hvalue hfinish =>
      apply obeys_statementWithin (fun _ => returnStatement owner) hword.kind
      · intro nested session hcurrent
        rw [statementNode, currentKind_bind, hcurrent]
      · exact fun _ => obeys_giveBack howner hkind hvalue hfinish
  | leave hword hkind hfinish =>
      apply obeys_statementWithin (fun _ => returnStatement owner) hword.kind
      · intro nested session hcurrent
        rw [statementNode, currentKind_bind, hcurrent]
      · exact fun _ => obeys_leave howner hkind hfinish
  | compound hopening hpieces hclosing ih =>
      apply obeys_statementWithin compoundOf hopening.kind
      · intro nested session hcurrent
        rw [statementNode, currentKind_bind, hcurrent]
      · exact fun depth => obeys_compound hclosing fun piece hmem => ⟨hpieces piece hmem, ih piece hmem depth⟩
  | branch hword hopening hcondition hclosing hinner ih =>
      apply obeys_statementWithin ifStatement hword.kind
      · intro nested session hcurrent
        rw [statementNode, currentKind_bind, hcurrent]
      · exact fun depth => obeys_branch hopening hcondition hclosing hinner (ih depth)
  | choice hword hopening hcondition hclosing hinner hclosed helse hothers ih ih' =>
      apply obeys_statementWithin ifStatement hword.kind
      · intro nested session hcurrent
        rw [statementNode, currentKind_bind, hcurrent]
      · exact fun depth => obeys_choice hopening hcondition hclosing hinner hclosed helse hothers (ih depth)
          (ih' depth)
  | whileLoop hword hopening hcondition hclosing hinner ih =>
      apply obeys_statementWithin whileStatement hword.kind
      · intro nested session hcurrent
        rw [statementNode, currentKind_bind, hcurrent]
      · exact fun depth => obeys_whileLoop hopening hcondition hclosing hinner (ih depth)
  | doWhileLoop hword hinner hwhile hopening hcondition hclosing ih =>
      apply obeys_statementWithin doStatement hword.kind
      · intro nested session hcurrent
        rw [statementNode, currentKind_bind, hcurrent]
      · exact fun depth => obeys_doWhileLoop hinner hwhile hopening hcondition hclosing (ih depth)

end Production

/-- Whether a statement of a routine is read back from some tokens, up to any token that suits: its node is a
tree for the instruction, nothing is left but the semicolon that the instruction ends with, and nothing is
reported but operands and arguments that do not fit. -/
def Session.ReadsBack (session : Session) (owner : EntryId) (instruction : Instruction)
    (tokens : List Token) : Prop :=
  ∀ last : Cursor, session.cursor.Reads tokens last → last.current.scanError? = none →
    instruction.Suits last.current.kind →
    ∃ node later, Production.statement owner session = .ok (node, later) ∧
      instruction.Yields session.table.entries.size node ∧
        later.cursor.Reads (instruction.leftover tokens) last ∧
          Tolerates session.diagnostics later.diagnostics

theorem Instruction.Renders.readsBack {session : Session} {owner : EntryId} {instruction : Instruction}
    {tokens : List Token} (howner : owner < session.table.entries.size)
    (h : instruction.Renders session.table owner tokens) : session.ReadsBack owner instruction tokens := by
  intro last hreads hclean hsuits
  have hminds : session.Minds session.table session.diagnostics tokens last :=
    ⟨⟨hreads, h.clean, hclean⟩, .refl _, .refl _⟩
  have hahead := session.cursor.ahead_le_remaining
  have hstatement : Production.Leads (Production.statement owner) session (fun _ => False)
      fun node later => instruction.Yields session.table.entries.size node ∧
        later.Minds session.table session.diagnostics (instruction.leftover tokens) last := by
    rw [Production.statement, Production.leads_bind, Production.leads_budget]
    exact Production.obeys_of_renders howner h _ session last _ hminds (by omega) hsuits
  obtain ⟨node, later, hrun, hnode, hlater⟩ := hstatement.exists_ok
  exact ⟨node, later, hrun, hnode, hlater.faces.reads, hlater.tolerates⟩

/-- A statement reads back what a rendering of an instruction writes.  Where an `else` comes after an
instruction that ends with a choice without an alternative, what is read back is the instruction in which
the last such choice has got one. -/
theorem statement_of_renders {session : Session} {owner : EntryId}
    (howner : owner < session.table.entries.size) :
    (∀ instruction tokens, Instruction.Renders session.table owner instruction tokens →
      session.ReadsBack owner instruction tokens) ∧
      ∀ instruction other tokens word others, Instruction.Renders session.table owner instruction tokens →
        instruction.endsOpen = true → word.Is .elseWord →
        Instruction.Renders session.table owner other others →
        session.ReadsBack owner (instruction.complete other) (tokens ++ word :: others) := by
  constructor
  · intro instruction tokens h
    exact h.readsBack howner
  · intro instruction other tokens word others h hopen hword hother
    exact (h.complete hopen hword hother).readsBack howner

/-- In `if (x) if (x) x = 1; else return x;` the alternative is that of the second choice. -/
theorem statement_of_renders_else :
    let table : SymbolTable :=
      { entries := #[⟨"x", 0, .plainVariable 0, some .int, []⟩, ⟨"f", 0, .function {}, some .int, []⟩]
        scopes := #[{ level := 0, bindings := [("x", 0), ("f", 1)] }] }
    let token (kind : TokenKind) : Token := ⟨kind, kind.text, ⟨1, 1⟩, none⟩
    let x : Token := ⟨.identifier, "x", ⟨1, 1⟩, none⟩
    let rest : List Token :=
      [token .leftParen, x, token .rightParen, token .ifWord, token .leftParen, x, token .rightParen,
       x, token .equals, ⟨.integer, "1", ⟨1, 1⟩, some (.integer 1)⟩, token .semicolon,
       token .elseWord, token .returnWord, x, token .semicolon]
    let stream : TokenStream :=
      { events := rest.map .ok ++ [.ok (token .rightBrace)], ending := .ok ⟨1, 1⟩ }
    ∃ node later, Production.statement 1 { cursor := { stream, current := token .ifWord }, table } =
        .ok (node, later) ∧
      Instruction.Yields 2
        (.branch 1 (.reference 0)
          (.choice 1 (.reference 0) (.assign 1 0 (.literal (.integer 1))) (.giveBack 1 (some (.reference 0)))))
        node ∧
      later.cursor.current = token .rightBrace := by
  intro table token x rest stream
  have his (kind : TokenKind) : (token kind).Is kind := ⟨rfl, rfl⟩
  have hname : x.Names table 0 := ⟨⟨rfl, rfl⟩, by decide +kernel⟩
  have hx : Renders table 0 (.reference 0) [x] := .reference hname (by decide)
  have hone : Renders table 0 (.literal (.integer 1)) [⟨.integer, "1", ⟨1, 1⟩, some (.integer 1)⟩] :=
    .literal rfl rfl
  have hassign : Instruction.Renders table 1 _ _ :=
    .assign hname (by decide) (his .equals) hone (his .semicolon)
  have hinner : Instruction.Renders table 1 _ _ :=
    .branch (his .ifWord) (his .leftParen) hx (his .rightParen) hassign
  have houter : Instruction.Renders table 1 _ _ :=
    .branch (his .ifWord) (his .leftParen) hx (his .rightParen) hinner
  have hreturn : Instruction.Renders table 1 _ _ :=
    .giveBack (his .returnWord) (by decide) hx (his .semicolon)
  obtain ⟨node, later, hrun, hnode, hreads, -⟩ :=
    (@statement_of_renders { cursor := { stream, current := token .ifWord }, table } 1 (by decide)).2
      _ _ _ (token .elseWord) _ houter rfl (his .elseWord) hreturn _ (.of_events (by decide)) rfl
      ⟨by decide, by decide⟩
  exact ⟨node, later, hrun, hnode, congrArg Cursor.current hreads.eq_last⟩

end FrontEnd
