import FrontEnd.Proofs.Tree
import FrontEnd.Proofs.Ahead

/-!
# Formulas and how they are written

A formula is what an expression stands for: operations on literals, variables, named constants and the
results of calls, without a trace of how it is written.  `Formula.tree` is the tree of intermediate code
for it, but for types and lines, which `Node.bare` leaves out.

`Renders` says which lists of tokens write a formula where an operand of some level is expected.  Level 0
is that of whole expressions, a binary operator has the level of its precedence, and level 6 is that of
the operands of signs.  An operation is written without parentheses where its level allows it; left
operands can have the level of their operator, right operands have the next.  Everywhere, parentheses can
be put around a formula, and a plus sign before one where a sign is allowed.
-/

namespace FrontEnd

/-! ## Formulas -/

/-- The operators on two values. -/
inductive BinaryOperator where
  | or | and | equal | notEqual | less | lessOrEqual | greater | greaterOrEqual
  | add | subtract | multiply | divide | modulo
deriving DecidableEq, Repr

namespace BinaryOperator

/-- Every operator, from the loosest to the tightest. -/
def all : List BinaryOperator :=
  [or, and, equal, notEqual, less, lessOrEqual, greater, greaterOrEqual, add, subtract, multiply,
   divide, modulo]

/-- The token with which an operator is written. -/
def symbol : BinaryOperator → TokenKind
  | or => .or
  | and => .and
  | equal => .equalEquals
  | notEqual => .notEquals
  | less => .lessThan
  | lessOrEqual => .lessEquals
  | greater => .greaterThan
  | greaterOrEqual => .greaterEquals
  | add => .plus
  | subtract => .minus
  | multiply => .star
  | divide => .slash
  | modulo => .mod

/-- The kind of the nodes for an operator. -/
def node : BinaryOperator → NodeKind
  | or => .or
  | and => .and
  | equal => .equal
  | notEqual => .notEqual
  | less => .less
  | lessOrEqual => .lessOrEqual
  | greater => .greater
  | greaterOrEqual => .greaterOrEqual
  | add => .add
  | subtract => .subtract
  | multiply => .multiply
  | divide => .divide
  | modulo => .modulo

/-- The precedence of an operator; the higher it is, the tighter the operator binds. -/
def precedence : BinaryOperator → Nat
  | or => 0
  | and => 1
  | equal | notEqual => 2
  | less | lessOrEqual | greater | greaterOrEqual => 3
  | add | subtract => 4
  | multiply | divide | modulo => 5

end BinaryOperator

/-- What an expression stands for; names are given by the entries that they lead to. -/
inductive Formula where
  | literal (value : Literal)
  | reference (id : EntryId)
  | constant (id : EntryId) (value : ConstantValue)
  | call (id : EntryId) (arguments : List Formula)
  | negate (operand : Formula)
  | not (operand : Formula)
  | binary (operator : BinaryOperator) (left right : Formula)

namespace Formula

mutual

/-- The tree of intermediate code for a formula, without types and lines. -/
def tree : Formula → Node
  | literal value => { value.node with type := .undefined }
  | reference id => { kind := .variableUse, entry := some id }
  | constant id value => { value.literal.node with type := .undefined, entry := some id }
  | call id arguments =>
    { kind := .call, entry := some id
      children :=
        if arguments.isEmpty then [] else [{ kind := .arguments, children := trees arguments }] }
  | negate operand => { kind := .negate, children := [operand.tree] }
  | not operand => { kind := .not, children := [operand.tree] }
  | binary operator left right => { kind := operator.node, children := [left.tree, right.tree] }

/-- The trees for several formulas. -/
def trees : List Formula → List Node
  | [] => []
  | formula :: formulas => formula.tree :: trees formulas

end

theorem trees_eq_map (formulas : List Formula) : trees formulas = formulas.map tree := by
  induction formulas with
  | nil => rfl
  | cons formula formulas ih => rw [trees, ih, List.map_cons]

end Formula

namespace Node

mutual

/-- A tree without its types and lines. -/
def bare : Node → Node
  | ⟨kind, children, _, _, entry, value⟩ => { kind, children := bareAll children, entry, value }

/-- Several trees without their types and lines. -/
def bareAll : List Node → List Node
  | [] => []
  | node :: nodes => node.bare :: bareAll nodes

end

theorem bareAll_eq_map (nodes : List Node) : bareAll nodes = nodes.map bare := by
  induction nodes with
  | nil => rfl
  | cons node nodes ih => rw [bareAll, ih, List.map_cons]

/-- A tree without its types and lines is made of the same of its children. -/
theorem bare_eq (node : Node) :
    node.bare = { kind := node.kind, children := node.children.map bare,
                  entry := node.entry, value := node.value } := by
  cases node
  rw [bare, bareAll_eq_map]

end Node

/-! ## Tokens -/

namespace Literal

/-- The kind of the tokens for a literal. -/
def tokenKind : Literal → TokenKind
  | integer _ => .integer
  | real _ => .real
  | character _ => .character
  | string _ => .string

/-- What the tokens for a literal denote. -/
def tokenValue : Literal → TokenValue
  | integer value => .integer value
  | real value => .real value
  | character value => .character value
  | string value => .string value

end Literal

namespace Token

/-- Whether a token is one of a kind, and not a piece of text that is no token. -/
structure Is (token : Token) (kind : TokenKind) : Prop where
  kind : token.kind = kind
  clean : token.scanError? = none

/-- Whether a token is an identifier that leads to an entry. -/
structure Names (token : Token) (table : SymbolTable) (id : EntryId) : Prop extends
    token.Is .identifier where
  lookup : table.lookup token.text = some id

end Token

/-- An argument with the tokens that write it, and the comma after it if it is not the last. -/
structure Formula.Argument where
  formula : Formula
  tokens : List Token
  comma : Token

namespace Formula.Argument

/-- The tokens of a list of arguments with commas between them. -/
def join : List Argument → List Token
  | [] => []
  | [last] => last.tokens
  | argument :: next :: arguments => argument.tokens ++ argument.comma :: join (next :: arguments)

theorem join_cons (argument : Argument) (arguments : List Argument) :
    ∃ more, join (argument :: arguments) = argument.tokens ++ more := by
  cases arguments with
  | nil => exact ⟨[], by simp [join]⟩
  | cons next arguments => exact ⟨_, rfl⟩

theorem mem_join {arguments : List Argument} {token : Token}
    (h : token ∈ join arguments) :
    ∃ argument ∈ arguments, token ∈ argument.tokens ∨ token = argument.comma := by
  induction arguments with
  | nil => simp [join] at h
  | cons argument arguments ih =>
      cases arguments with
      | nil => exact ⟨argument, by simp, Or.inl h⟩
      | cons next arguments =>
          rw [join, List.mem_append, List.mem_cons] at h
          rcases h with hown | rfl | hmore
          · exact ⟨argument, by simp, Or.inl hown⟩
          · exact ⟨argument, by simp, Or.inr rfl⟩
          · obtain ⟨other, hother, hmem⟩ := ih hmore
            exact ⟨other, List.mem_cons_of_mem _ hother, hmem⟩

end Formula.Argument

/-- The lists of tokens that write a formula where an operand of a level is expected. -/
inductive Renders (table : SymbolTable) : Nat → Formula → List Token → Prop
  | literal {level : Nat} {value : Literal} {token : Token} :
      token.kind = value.tokenKind → token.value = some value.tokenValue →
      Renders table level (.literal value) [token]
  | reference {level : Nat} {id : EntryId} {name : Token} : name.Names table id →
      (table.entry id).kind ∈ [.plainVariable, .valueParameter, .varParameter] →
      Renders table level (.reference id) [name]
  | constant {level : Nat} {id : EntryId} {value : ConstantValue} {name : Token} :
      name.Names table id → (table.entry id).definition = .constant value →
      Renders table level (.constant id value) [name]
  | call {level : Nat} {id : EntryId} {name opening closing : Token}
      {arguments : List Formula.Argument} : name.Names table id →
      (table.entry id).kind ∈ DefinitionKind.callables →
      opening.Is .leftParen → closing.Is .rightParen →
      (∀ argument ∈ arguments, argument.comma.Is .comma) →
      (∀ argument ∈ arguments, Renders table 0 argument.formula argument.tokens) →
      Renders table level (.call id (arguments.map Formula.Argument.formula))
        (name :: opening :: (Formula.Argument.join arguments ++ [closing]))
  | parentheses {level : Nat} {formula : Formula} {opening closing : Token} {tokens : List Token} :
      opening.Is .leftParen → closing.Is .rightParen → Renders table 0 formula tokens →
      Renders table level formula (opening :: (tokens ++ [closing]))
  | plusSign {level : Nat} {formula : Formula} {sign : Token} {tokens : List Token} : level ≤ 6 →
      sign.Is .plus → Renders table 6 formula tokens →
      Renders table level formula (sign :: tokens)
  | negate {level : Nat} {operand : Formula} {sign : Token} {tokens : List Token} : level ≤ 6 →
      sign.Is .minus → Renders table 6 operand tokens →
      Renders table level (.negate operand) (sign :: tokens)
  | not {level : Nat} {operand : Formula} {mark : Token} {tokens : List Token} : level ≤ 6 →
      mark.Is .not → Renders table 6 operand tokens →
      Renders table level (.not operand) (mark :: tokens)
  | binary {level : Nat} {operator : BinaryOperator} {left right : Formula} {symbol : Token}
      {before after : List Token} : level ≤ operator.precedence →
      symbol.Is operator.symbol → Renders table operator.precedence left before →
      Renders table (operator.precedence + 1) right after →
      Renders table level (.binary operator left right) (before ++ symbol :: after)

/-! ## What renderings begin with and are made of -/

namespace Renders

variable {table : SymbolTable} {level : Nat} {formula : Formula} {tokens : List Token}

/-- No token of a rendering is a piece of text that is no token. -/
theorem clean (h : Renders table level formula tokens) :
    ∀ token ∈ tokens, token.scanError? = none := by
  induction h with
  | @literal _ value token _ hvalue =>
      simp only [List.mem_singleton, forall_eq, Token.scanError?, hvalue]
      cases value <;> rfl
  | reference hname _ => simpa using hname.clean
  | constant hname _ => simpa using hname.clean
  | call hname _ hopening hclosing hcommas _ ih =>
      simp only [List.mem_cons, List.mem_append, List.not_mem_nil, or_false]
      rintro token (rfl | rfl | hjoined | rfl)
      · exact hname.clean
      · exact hopening.clean
      · obtain ⟨argument, hargument, hmem | rfl⟩ := Formula.Argument.mem_join hjoined
        · exact ih argument hargument token hmem
        · exact (hcommas argument hargument).clean
      · exact hclosing.clean
  | parentheses hopening hclosing _ ih =>
      simp only [List.mem_cons, List.mem_append, List.not_mem_nil, or_false]
      rintro token (rfl | hmem | rfl)
      · exact hopening.clean
      · exact ih token hmem
      · exact hclosing.clean
  | plusSign _ hsign _ ih | negate _ hsign _ ih | not _ hsign _ ih =>
      exact List.forall_mem_cons.mpr ⟨hsign.clean, ih⟩
  | binary _ hsymbol _ _ ihleft ihright =>
      simp only [List.mem_append, List.mem_cons]
      rintro token (hmem | rfl | hmem)
      · exact ihleft token hmem
      · exact hsymbol.clean
      · exact ihright token hmem

/-- A rendering begins with a token with which an expression can begin. -/
theorem begins (h : Renders table level formula tokens) :
    ∃ first rest, tokens = first :: rest ∧ Operator.expressionStart.contains first.kind = true := by
  induction h with
  | @literal _ value token hkind _ =>
      refine ⟨_, _, rfl, ?_⟩
      rw [hkind]
      cases value <;> rfl
  | reference hname _ | constant hname _ | call hname _ _ _ _ _ _ =>
      exact ⟨_, _, rfl, by rw [hname.kind]; decide⟩
  | parentheses hopening _ _ _ => exact ⟨_, _, rfl, by rw [hopening.kind]; decide⟩
  | plusSign _ hsign _ _ | negate _ hsign _ _ | not _ hsign _ _ =>
      exact ⟨_, _, rfl, by rw [hsign.kind]; decide⟩
  | binary _ _ _ _ ihleft _ =>
      obtain ⟨first, rest, rfl, hstart⟩ := ihleft
      exact ⟨first, _, rfl, hstart⟩

end Renders

/-! ## Every formula can be written -/

/-- Whether some identifier leads to an entry. -/
def SymbolTable.HasName (table : SymbolTable) (id : EntryId) : Prop :=
  ∃ text, table.lookup text = some id

/-- Whether all names in a formula have been declared as what they stand for. -/
inductive Formula.Declared (table : SymbolTable) : Formula → Prop
  | literal (value : Literal) : Declared table (.literal value)
  | reference {id : EntryId} : table.HasName id →
      (table.entry id).kind ∈ [.plainVariable, .valueParameter, .varParameter] →
      Declared table (.reference id)
  | constant {id : EntryId} {value : ConstantValue} : table.HasName id →
      (table.entry id).definition = .constant value → Declared table (.constant id value)
  | call {id : EntryId} {arguments : List Formula} : table.HasName id →
      (table.entry id).kind ∈ DefinitionKind.callables →
      (∀ argument ∈ arguments, Declared table argument) → Declared table (.call id arguments)
  | negate {operand : Formula} : Declared table operand → Declared table (.negate operand)
  | not {operand : Formula} : Declared table operand → Declared table (.not operand)
  | binary (operator : BinaryOperator) {left right : Formula} : Declared table left →
      Declared table right → Declared table (.binary operator left right)

/-- There is a token of every kind. -/
theorem Token.exists_is (kind : TokenKind) : ∃ token : Token, token.Is kind :=
  ⟨⟨kind, kind.text, ⟨1, 1⟩, none⟩, rfl, rfl⟩

theorem SymbolTable.HasName.exists_names {table : SymbolTable} {id : EntryId} (h : table.HasName id) :
    ∃ name : Token, name.Names table id := by
  obtain ⟨text, hlookup⟩ := h
  exact ⟨⟨.identifier, text, ⟨1, 1⟩, none⟩, ⟨rfl, rfl⟩, hlookup⟩

/-- What can be written for a whole expression can be written anywhere, in parentheses. -/
theorem Renders.exists_parentheses {table : SymbolTable} {formula : Formula}
    (h : ∃ tokens, Renders table 0 formula tokens) (level : Nat) :
    ∃ tokens, Renders table level formula tokens := by
  obtain ⟨tokens, hrenders⟩ := h
  obtain ⟨opening, hopening⟩ := Token.exists_is .leftParen
  obtain ⟨closing, hclosing⟩ := Token.exists_is .rightParen
  exact ⟨_, .parentheses hopening hclosing hrenders⟩

/-- Arguments that can be written one by one can be written with commas between them. -/
theorem Formula.Argument.exists_written {table : SymbolTable} {arguments : List Formula}
    (comma : Token) (h : ∀ argument ∈ arguments, ∃ tokens, Renders table 0 argument tokens) :
    ∃ written : List Argument, written.map formula = arguments ∧
      (∀ argument ∈ written, argument.comma = comma) ∧
        ∀ argument ∈ written, Renders table 0 argument.formula argument.tokens := by
  induction arguments with
  | nil => exact ⟨[], rfl, by simp, by simp⟩
  | cons first rest ih =>
      obtain ⟨tokens, htokens⟩ := h first (by simp)
      obtain ⟨written, hmap, hcommas, hrenders⟩ :=
        ih fun argument hmem => h argument (List.mem_cons_of_mem _ hmem)
      exact ⟨⟨first, tokens, comma⟩ :: written, by rw [List.map_cons, hmap],
        List.forall_mem_cons.mpr ⟨rfl, hcommas⟩, List.forall_mem_cons.mpr ⟨htokens, hrenders⟩⟩

/-- Every formula whose names have been declared can be written at every level. -/
theorem exists_renders {table : SymbolTable} {formula : Formula} (h : formula.Declared table)
    (level : Nat) : ∃ tokens, Renders table level formula tokens := by
  -- it is enough to write whole expressions, with parentheses around every operand
  refine Renders.exists_parentheses ?_ level
  clear level
  induction h with
  | literal value =>
      exact ⟨_, @Renders.literal table 0 value ⟨value.tokenKind, "", ⟨1, 1⟩, value.tokenValue⟩ rfl rfl⟩
  | reference hnamed hkind =>
      obtain ⟨name, hname⟩ := hnamed.exists_names
      exact ⟨_, .reference hname hkind⟩
  | constant hnamed hvalue =>
      obtain ⟨name, hname⟩ := hnamed.exists_names
      exact ⟨_, .constant hname hvalue⟩
  | @call id arguments hnamed hcallable _ ih =>
      obtain ⟨name, hname⟩ := hnamed.exists_names
      obtain ⟨opening, hopening⟩ := Token.exists_is .leftParen
      obtain ⟨closing, hclosing⟩ := Token.exists_is .rightParen
      obtain ⟨comma, hcomma⟩ := Token.exists_is .comma
      obtain ⟨written, rfl, hcommas, hrenders⟩ := Formula.Argument.exists_written comma ih
      exact ⟨_, .call hname hcallable hopening hclosing
        (fun argument hmem => by rw [hcommas argument hmem]; exact hcomma) hrenders⟩
  | negate _ ih =>
      obtain ⟨tokens, htokens⟩ := Renders.exists_parentheses ih 6
      obtain ⟨sign, hsign⟩ := Token.exists_is .minus
      exact ⟨_, .negate (Nat.zero_le 6) hsign htokens⟩
  | not _ ih =>
      obtain ⟨tokens, htokens⟩ := Renders.exists_parentheses ih 6
      obtain ⟨mark, hmark⟩ := Token.exists_is .not
      exact ⟨_, .not (Nat.zero_le 6) hmark htokens⟩
  | binary operator _ _ ihleft ihright =>
      obtain ⟨before, hbefore⟩ := Renders.exists_parentheses ihleft operator.precedence
      obtain ⟨after, hafter⟩ := Renders.exists_parentheses ihright (operator.precedence + 1)
      obtain ⟨symbol, hsymbol⟩ := Token.exists_is operator.symbol
      exact ⟨_, .binary (Nat.zero_le _) hsymbol hbefore hafter⟩

/-! ## Reading a list of tokens -/

/-- Whether a cursor comes to another by consuming the tokens of a list. -/
inductive Cursor.Reads : Cursor → List Token → Cursor → Prop
  | nil (cursor : Cursor) : Reads cursor [] cursor
  | cons {cursor next last : Cursor} {tokens : List Token} : cursor.current.isEnd = false →
      cursor.advance = (.ok next.current, next) → Reads next tokens last →
      Reads cursor (cursor.current :: tokens) last

namespace Cursor.Reads

variable {cursor last : Cursor} {tokens : List Token}

theorem append_inv {before after : List Token} (h : Reads cursor (before ++ after) last) :
    ∃ middle, Reads cursor before middle ∧ Reads middle after last := by
  induction before generalizing cursor with
  | nil => exact ⟨cursor, .nil cursor, h⟩
  | cons token before ih =>
      cases h with
      | cons hend hadvance hrest =>
          obtain ⟨middle, hbefore, hafter⟩ := ih hrest
          exact ⟨middle, .cons hend hadvance hbefore, hafter⟩

theorem eq_last (h : Reads cursor [] last) : cursor = last := by
  cases h
  rfl

theorem current_eq {token : Token} (h : Reads cursor (token :: tokens) last) :
    cursor.current = token := by
  cases h
  rfl

/-- A cursor on a stream reads what the stream answers. -/
theorem of_events {current next : Token} {events : List (Except ReadError Token)}
    {ending : Except ReadError Location} {position : Nat}
    (hend : ∀ token ∈ current :: tokens, token.isEnd = false) :
    Reads
      { stream := { events := tokens.map .ok ++ .ok next :: events, ending }, current, position }
      (current :: tokens)
      { stream := { events, ending }, current := next, position := position + (tokens.length + 1) } := by
  have hcurrent := hend current (by simp)
  induction tokens generalizing current position with
  | nil => exact .cons hcurrent (by simp [Cursor.advance, TokenStream.next, hcurrent]) (.nil _)
  | cons token tokens ih =>
      have hrest := @ih token (position + 1)
        (fun other hmem => hend other (List.mem_cons_of_mem _ hmem)) (hend token (by simp))
      rw [show position + 1 + (tokens.length + 1) = position + (tokens.length + 1 + 1) by omega] at hrest
      exact .cons hcurrent (by simp [Cursor.advance, TokenStream.next, hcurrent]) hrest

theorem ahead_add_length (h : Reads cursor tokens last) :
    last.ahead + tokens.length = cursor.ahead := by
  induction h with
  | nil cursor => rfl
  | cons hend hadvance _ ih =>
      have := Cursor.advance_ahead hadvance hend
      rw [List.length_cons]
      omega

end Cursor.Reads

end FrontEnd
