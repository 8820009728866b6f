import FrontEnd.Proofs.Rendering

/-!
# Instructions and how they are written

An instruction is what a statement stands for: assignments, calls and returns, put together by choices, loops
and braces.  Of the way in which it is written it keeps only the lines on which its parts begin.
`Instruction.Yields` says which trees of intermediate code are trees for it; they are settled but for types,
for lines inside expressions, and for the variables that returns make for themselves.

`Instruction.Renders` says which lists of tokens write an instruction in a routine.  A semicolon belongs to
assignments, calls and returns only.  Nothing marks the end of a choice without an alternative, so between a
condition and an `else` there may be no instruction that ends with one (`Instruction.endsOpen`).  If an `else`
is written all the same, what has been written is another instruction, in which the last choice has the
alternative (`Instruction.complete`).
-/

namespace FrontEnd

/-! ## Instructions -/

/-- What a statement stands for, with the line of its first token. -/
inductive Instruction where
  | assign (line : Nat) (target : EntryId) (value : Formula)
  | call (line : Nat) (routine : EntryId) (arguments : List Formula)
  | giveBack (line : Nat) (value : Option Formula)
  | compound (line : Nat) (parts : List Instruction)
  | branch (line : Nat) (condition : Formula) (consequent : Instruction)
  | choice (line : Nat) (condition : Formula) (consequent alternative : Instruction)
  | whileLoop (line : Nat) (condition : Formula) (body : Instruction)
  | doWhileLoop (line : Nat) (body : Instruction) (condition : Formula)

namespace Instruction

/-- The line of the first token. -/
def line : Instruction → Nat
  | assign line .. | call line .. | giveBack line .. | compound line .. | branch line .. | choice line ..
  | whileLoop line .. | doWhileLoop line .. => line

/-- Whether an instruction ends with its own semicolon. -/
def isSimple : Instruction → Bool
  | assign .. | call .. | giveBack .. => true
  | _ => false

/-- Whether an instruction ends with a choice that has no alternative. -/
def endsOpen : Instruction → Bool
  | branch .. => true
  | choice _ _ _ alternative => alternative.endsOpen
  | whileLoop _ _ body => body.endsOpen
  | _ => false

/-- The instruction in which the last choice without an alternative has been given one, if the instruction
ends with such a choice. -/
def complete : Instruction → Instruction → Instruction
  | branch line condition consequent, other =>
    if consequent.endsOpen then branch line condition (consequent.complete other)
    else choice line condition consequent other
  | choice line condition consequent alternative, other =>
    choice line condition consequent (alternative.complete other)
  | whileLoop line condition body, other => whileLoop line condition (body.complete other)
  | instruction, _ => instruction

/-! ## Trees -/

/-- The trees for an instruction.  The variable that a return makes for itself is none of the first
entries. -/
inductive Yields (first : EntryId) : Instruction → Node → Prop
  | assign {line : Nat} {target : EntryId} {value : Formula} {left right : Node} {type : DataType} :
      left.bare = (Formula.reference target).tree → right.bare = value.tree →
      Yields first (.assign line target value)
        { kind := .assign, children := [left, right], type, line := some line }
  | call {line : Nat} {routine : EntryId} {arguments : List Formula} {node : Node} :
      node.bare = (Formula.call routine arguments).tree → node.line = some line →
      Yields first (.call line routine arguments) node
  | giveBack {line : Nat} {value : Option Formula} {target : EntryId} {left : Node} {right : List Node}
      {type : DataType} : first ≤ target → left.bare = (Formula.reference target).tree →
      right.map Node.bare = value.toList.map Formula.tree →
      Yields first (.giveBack line value)
        { kind := .assign, children := left :: right, type, line := some line }
  | compound {line : Nat} {parts : List (Instruction × Node)} :
      (∀ part ∈ parts, Yields first part.1 part.2) →
      Yields first (.compound line (parts.map Prod.fst))
        { kind := .compound, children := parts.map Prod.snd, line := some line }
  | branch {line : Nat} {condition : Formula} {consequent : Instruction} {test node : Node} :
      test.bare = condition.tree → Yields first consequent node →
      Yields first (.branch line condition consequent)
        { kind := .branch, children := [test, node], line := some line }
  | choice {line : Nat} {condition : Formula} {consequent alternative : Instruction}
      {test node other : Node} : test.bare = condition.tree → Yields first consequent node →
      Yields first alternative other →
      Yields first (.choice line condition consequent alternative)
        { kind := .branch, children := [test, node, other], line := some line }
  | whileLoop {line : Nat} {condition : Formula} {body : Instruction} {test node : Node} :
      test.bare = condition.tree → Yields first body node →
      Yields first (.whileLoop line condition body)
        { kind := .whileLoop, children := [test, node], line := some line }
  | doWhileLoop {line : Nat} {condition : Formula} {body : Instruction} {node test : Node} :
      Yields first body node → test.bare = condition.tree →
      Yields first (.doWhileLoop line body condition)
        { kind := .doWhileLoop, children := [node, test], line := some line }

/-! ## Tokens -/

/-- An instruction with the tokens that write it. -/
structure Piece where
  instruction : Instruction
  tokens : List Token

/-- The lists of tokens that write an instruction in a routine.  Procedures give nothing back, and functions
do not go without. -/
inductive Renders (table : SymbolTable) (owner : EntryId) : Instruction → List Token → Prop
  | assign {target : EntryId} {value : Formula} {name mark finish : Token} {tokens : List Token} :
      name.Names table target →
      (table.entry target).kind ∈ [.plainVariable, .valueParameter, .varParameter] →
      mark.Is .equals → FrontEnd.Renders table 0 value tokens → finish.Is .semicolon →
      Renders table owner (.assign name.line target value) (name :: mark :: (tokens ++ [finish]))
  | call {routine : EntryId} {name opening closing finish : Token} {arguments : List Formula.Argument} :
      name.Names table routine → (table.entry routine).kind ∈ DefinitionKind.callables →
      opening.Is .leftParen → closing.Is .rightParen →
      (∀ argument ∈ arguments, argument.comma.Is .comma) →
      (∀ argument ∈ arguments, FrontEnd.Renders table 0 argument.formula argument.tokens) →
      finish.Is .semicolon →
      Renders table owner (.call name.line routine (arguments.map Formula.Argument.formula))
        ((name :: opening :: (Formula.Argument.join arguments ++ [closing])) ++ [finish])
  | giveBack {value : Formula} {word finish : Token} {tokens : List Token} : word.Is .returnWord →
      (table.entry owner).kind ≠ .procedure → FrontEnd.Renders table 0 value tokens →
      finish.Is .semicolon →
      Renders table owner (.giveBack word.line (some value)) (word :: (tokens ++ [finish]))
  | leave {word finish : Token} : word.Is .returnWord → (table.entry owner).kind ≠ .function →
      finish.Is .semicolon → Renders table owner (.giveBack word.line none) [word, finish]
  | compound {opening closing : Token} {pieces : List Piece} : opening.Is .leftBrace →
      (∀ piece ∈ pieces, Renders table owner piece.instruction piece.tokens) → closing.Is .rightBrace →
      Renders table owner (.compound opening.line (pieces.map Piece.instruction))
        (opening :: (pieces.flatMap Piece.tokens ++ [closing]))
  | branch {condition : Formula} {consequent : Instruction} {word opening closing : Token}
      {tokens inner : List Token} : word.Is .ifWord → opening.Is .leftParen →
      FrontEnd.Renders table 0 condition tokens → closing.Is .rightParen →
      Renders table owner consequent inner →
      Renders table owner (.branch word.line condition consequent)
        (word :: (opening :: (tokens ++ [closing]) ++ inner))
  | choice {condition : Formula} {consequent alternative : Instruction}
      {word opening closing elseWord : Token} {tokens inner others : List Token} : word.Is .ifWord →
      opening.Is .leftParen → FrontEnd.Renders table 0 condition tokens → closing.Is .rightParen →
      Renders table owner consequent inner → consequent.endsOpen = false → elseWord.Is .elseWord →
      Renders table owner alternative others →
      Renders table owner (.choice word.line condition consequent alternative)
        (word :: (opening :: (tokens ++ [closing]) ++ (inner ++ elseWord :: others)))
  | whileLoop {condition : Formula} {body : Instruction} {word opening closing : Token}
      {tokens inner : List Token} : word.Is .whileWord → opening.Is .leftParen →
      FrontEnd.Renders table 0 condition tokens → closing.Is .rightParen →
      Renders table owner body inner →
      Renders table owner (.whileLoop word.line condition body)
        (word :: (opening :: (tokens ++ [closing]) ++ inner))
  | doWhileLoop {condition : Formula} {body : Instruction} {word whileWord opening closing : Token}
      {tokens inner : List Token} : word.Is .doWord → Renders table owner body inner →
      whileWord.Is .whileWord → opening.Is .leftParen → FrontEnd.Renders table 0 condition tokens →
      closing.Is .rightParen →
      Renders table owner (.doWhileLoop word.line body condition)
        (word :: (inner ++ whileWord :: (opening :: (tokens ++ [closing]))))

/-- The tokens with which instructions begin. -/
def firstKinds : List TokenKind := [.identifier, .returnWord, .leftBrace, .ifWord, .whileWord, .doWord]

/-- What is left of the tokens of an instruction to whatever it stands in: the semicolon, if it ends with its
own. -/
def leftover (instruction : Instruction) (tokens : List Token) : List Token :=
  if instruction.isSimple then tokens.getLast?.toList else []

/-- The tokens that can come after an instruction: no semicolon, and no `else` after a choice without an
alternative. -/
def Suits (instruction : Instruction) (kind : TokenKind) : Prop :=
  kind ≠ .semicolon ∧ (instruction.endsOpen = true → kind ≠ .elseWord)

namespace Renders

variable {table : SymbolTable} {owner : EntryId} {instruction other : Instruction} {tokens : List Token}

/-- The first token has the line of the instruction. -/
theorem begins (h : instruction.Renders table owner tokens) :
    ∃ first rest, tokens = first :: rest ∧ first.kind ∈ firstKinds ∧ first.line = instruction.line := by
  cases h with
  | assign hname _ _ _ _ | call hname _ _ _ _ _ _ => exact ⟨_, _, rfl, by rw [hname.kind]; decide, rfl⟩
  | giveBack hword _ _ _ | leave hword _ _ | branch hword _ _ _ _ | choice hword _ _ _ _ _ _ _
  | whileLoop hword _ _ _ _ | doWhileLoop hword _ _ _ _ _ =>
      exact ⟨_, _, rfl, by rw [hword.kind]; decide, rfl⟩
  | compound hopening _ _ => exact ⟨_, _, rfl, by rw [hopening.kind]; decide, rfl⟩

/-- What is left of an instruction is a semicolon, or nothing. -/
theorem leftover_cases (h : instruction.Renders table owner tokens) :
    (∃ finish, finish.Is .semicolon ∧ instruction.leftover tokens = [finish]) ∨
      instruction.leftover tokens = [] := by
  cases h with
  | assign _ _ _ _ hfinish | call _ _ _ _ _ _ hfinish | giveBack _ _ _ hfinish | leave _ _ hfinish =>
      exact Or.inl ⟨_, hfinish, by simp [leftover, isSimple, List.getLast?_cons]⟩
  | compound | branch | choice | whileLoop | doWhileLoop => exact Or.inr rfl

/-- A condition in parentheses has no pieces of text that are no tokens. -/
theorem clean_condition {condition : Formula} {opening closing : Token} (hopening : opening.Is .leftParen)
    (hcondition : FrontEnd.Renders table 0 condition tokens) (hclosing : closing.Is .rightParen) :
    ∀ token ∈ opening :: (tokens ++ [closing]), token.scanError? = none :=
  List.forall_mem_cons.mpr ⟨hopening.clean, List.forall_mem_append.mpr
    ⟨hcondition.clean, List.forall_mem_singleton.mpr hclosing.clean⟩⟩

/-- No token of a rendering is a piece of text that is no token. -/
theorem clean (h : instruction.Renders table owner tokens) : ∀ token ∈ tokens, token.scanError? = none := by
  induction h with
  | assign hname _ hmark hvalue hfinish =>
      exact List.forall_mem_cons.mpr ⟨hname.clean, List.forall_mem_cons.mpr ⟨hmark.clean,
        List.forall_mem_append.mpr ⟨hvalue.clean, List.forall_mem_singleton.mpr hfinish.clean⟩⟩⟩
  | call hname hcallable hopening hclosing hcommas harguments hfinish =>
      have hcall : FrontEnd.Renders table 0 _ _ :=
        .call hname hcallable hopening hclosing hcommas harguments
      exact List.forall_mem_append.mpr ⟨hcall.clean, List.forall_mem_singleton.mpr hfinish.clean⟩
  | giveBack hword _ hvalue hfinish =>
      exact List.forall_mem_cons.mpr ⟨hword.clean, List.forall_mem_append.mpr
        ⟨hvalue.clean, List.forall_mem_singleton.mpr hfinish.clean⟩⟩
  | leave hword _ hfinish =>
      exact List.forall_mem_cons.mpr ⟨hword.clean, List.forall_mem_singleton.mpr hfinish.clean⟩
  | compound hopening _ hclosing ih =>
      refine List.forall_mem_cons.mpr ⟨hopening.clean, List.forall_mem_append.mpr
        ⟨fun token hmem => ?_, List.forall_mem_singleton.mpr hclosing.clean⟩⟩
      obtain ⟨piece, hpiece, htoken⟩ := List.mem_flatMap.mp hmem
      exact ih piece hpiece token htoken
  | branch hword hopening hcondition hclosing _ ih | whileLoop hword hopening hcondition hclosing _ ih =>
      exact List.forall_mem_cons.mpr ⟨hword.clean,
        List.forall_mem_append.mpr ⟨clean_condition hopening hcondition hclosing, ih⟩⟩
  | choice hword hopening hcondition hclosing _ _ helse _ ih ih' =>
      exact List.forall_mem_cons.mpr ⟨hword.clean, List.forall_mem_append.mpr
        ⟨clean_condition hopening hcondition hclosing, List.forall_mem_append.mpr
          ⟨ih, List.forall_mem_cons.mpr ⟨helse.clean, ih'⟩⟩⟩⟩
  | doWhileLoop hword _ hwhile hopening hcondition hclosing ih =>
      exact List.forall_mem_cons.mpr ⟨hword.clean, List.forall_mem_append.mpr
        ⟨ih, List.forall_mem_cons.mpr ⟨hwhile.clean, clean_condition hopening hcondition hclosing⟩⟩⟩

/-- An `else` after a choice without an alternative is read as that of the last such choice. -/
theorem complete {word : Token} {others : List Token} (h : instruction.Renders table owner tokens)
    (hopen : instruction.endsOpen = true) (hword : word.Is .elseWord)
    (hother : other.Renders table owner others) :
    (instruction.complete other).Renders table owner (tokens ++ word :: others) := by
  induction h with
  | assign | call | giveBack | leave | compound | doWhileLoop => simp [endsOpen] at hopen
  | @branch _ consequent _ _ _ _ _ hif hopening hcondition hclosing hconsequent ih =>
      rw [List.cons_append, List.append_assoc, Instruction.complete]
      split
      · next hinner => exact .branch hif hopening hcondition hclosing (ih hinner)
      · next hinner =>
          exact .choice hif hopening hcondition hclosing hconsequent (by simpa using hinner) hword hother
  | choice hif hopening hcondition hclosing hconsequent hclosed helse _ _ ih =>
      rw [List.cons_append, List.append_assoc, List.append_assoc, List.cons_append]
      exact .choice hif hopening hcondition hclosing hconsequent hclosed helse (ih hopen)
  | whileLoop hwhile hopening hcondition hclosing _ ih =>
      rw [List.cons_append, List.append_assoc]
      exact .whileLoop hwhile hopening hcondition hclosing (ih hopen)

end Renders

end Instruction

end FrontEnd
