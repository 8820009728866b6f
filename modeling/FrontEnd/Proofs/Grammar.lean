import FrontEnd.Compile.Statement

/-!
# The grammar of statements

The grammar is data: each construct has a form (`grammar`), and `Form.Matches` says which tokens are spelled in
a form.  Only the kinds of the tokens matter.

```text
statement   ::= complete [ ";" ] | simple ";" | ";"
complete    ::= compound | if | while | do | declaration | constants
simple      ::= assignment | call | return
compound    ::= "{" { statement } "}"
if          ::= "if" condition inner [ "else" inner ]
while       ::= "while" condition inner
do          ::= "do" statement "while" condition
condition   ::= "(" expression ")"
assignment  ::= identifier "=" expression
call        ::= identifier "(" [ expression { "," expression } ] ")"
return      ::= "return" [ expression ]
declaration ::= type identifier { "," identifier } ";"
constants   ::= "const" [ type ] identifier "=" constant { "," identifier "=" constant } ";"
```

What stands in the place of `inner` is left open.  A statement is meant to (`documented`), but the productions
take nothing for it as well, where the next token begins no statement (`accepted`).
-/

namespace FrontEnd

/-- The constructs that have a name in the grammar. -/
inductive Construct where
  | statement | complete | simple
  | compound | ifStatement | whileStatement | doStatement | condition
  | assignment | call | returnStatement
  | declaration | constants | type | constant
  | expression | operand | factor

/-- How a construct is written. -/
inductive Form where
  | word (kinds : List TokenKind)
  | part (construct : Construct)
  | sequence (forms : List Form)
  | choice (forms : List Form)
  | optional (form : Form)
  | repeated (form : Form)
  | notBefore (set : KindSet)

namespace Form

/-- Forms of one kind with commas between them. -/
def separated (item : Form) : Form :=
  .sequence [item, .repeated (.sequence [.word [.comma], item])]

/-- Operands joined by the operators of several levels, the loosest first. -/
def operations (operand : Form) : List OperatorLevel → Form
  | [] => operand
  | level :: tighter =>
    .sequence [operations operand tighter,
      .repeated (.sequence [.word (level.map Prod.fst), operations operand tighter])]

/-- Whether tokens begin with some that are spelled in a form, and which tokens come after these. -/
inductive Matches (rules : Construct → Form) : Form → List TokenKind → List TokenKind → Prop
  | word {kinds : List TokenKind} {kind : TokenKind} {after : List TokenKind} :
      kind ∈ kinds → Matches rules (.word kinds) (kind :: after) after
  | part {construct : Construct} {before after : List TokenKind} :
      Matches rules (rules construct) before after → Matches rules (.part construct) before after
  | nil {before : List TokenKind} : Matches rules (.sequence []) before before
  | cons {form : Form} {forms : List Form} {before between after : List TokenKind} :
      Matches rules form before between → Matches rules (.sequence forms) between after →
      Matches rules (.sequence (form :: forms)) before after
  | choice {form : Form} {forms : List Form} {before after : List TokenKind} :
      form ∈ forms → Matches rules form before after → Matches rules (.choice forms) before after
  | absent {form : Form} {before : List TokenKind} : Matches rules (.optional form) before before
  | present {form : Form} {before after : List TokenKind} :
      Matches rules form before after → Matches rules (.optional form) before after
  | stop {form : Form} {before : List TokenKind} : Matches rules (.repeated form) before before
  | again {form : Form} {before between after : List TokenKind} :
      Matches rules form before between → Matches rules (.repeated form) between after →
      Matches rules (.repeated form) before after
  | notBefore {set : KindSet} {before : List TokenKind} :
      (∀ kind ∈ before.head?, set.contains kind = false) → Matches rules (.notBefore set) before before

variable {rules : Construct → Form} {form : Form} {forms : List Form} {before between after : List TokenKind}

theorem Matches.exists_head {kinds : List TokenKind}
    (h : (Form.sequence (.word kinds :: forms)).Matches rules before after) :
    ∃ kind ∈ before.head?, kind ∈ kinds := by
  cases h with
  | cons hword _ =>
      cases hword with
      | word hmem => exact ⟨_, rfl, hmem⟩

theorem Matches.single (h : form.Matches rules before after) : (sequence [form]).Matches rules before after :=
  .cons h .nil

theorem Matches.word_mono {kinds kinds' : List TokenKind} (h : (Form.word kinds).Matches rules before after)
    (hsub : kinds ⊆ kinds') : (Form.word kinds').Matches rules before after := by
  cases h with
  | word hmem => exact .word (hsub hmem)

theorem Matches.of_single (h : (sequence [form]).Matches rules before after) : form.Matches rules before after := by
  cases h with
  | cons hform hnil =>
      cases hnil
      exact hform

/-- One more of the same kind may come before others. -/
theorem Matches.separated_cons {item : Form} {comma : List TokenKind}
    (hitem : item.Matches rules before between) (hcomma : (Form.word [.comma]).Matches rules between comma)
    (hrest : (separated item).Matches rules comma after) : (separated item).Matches rules before after := by
  cases hrest with
  | cons hnext hmore =>
      exact .cons hitem (.single (.again (.cons hcomma (.single hnext)) hmore.of_single))

end Form

/-! ## Constructs -/

/-- How each construct is written, given what stands for the statement that a condition decides about.

A semicolon has to follow an assignment, a call or a return, and one may follow any other statement. -/
def grammar (inner : Form) : Construct → Form
  | .statement =>
    .choice [.sequence [.part .complete, .optional (.word [.semicolon])],
             .sequence [.part .simple, .word [.semicolon]],
             .word [.semicolon]]
  | .complete =>
    .choice [.part .compound, .part .ifStatement, .part .whileStatement, .part .doStatement,
             .part .declaration, .part .constants]
  | .simple => .choice [.part .assignment, .part .call, .part .returnStatement]
  | .compound => .sequence [.word [.leftBrace], .repeated (.part .statement), .word [.rightBrace]]
  | .ifStatement =>
    .sequence [.word [.ifWord], .part .condition, inner, .optional (.sequence [.word [.elseWord], inner])]
  | .whileStatement => .sequence [.word [.whileWord], .part .condition, inner]
  | .doStatement =>
    .sequence [.word [.doWord], .part .statement, .word [.whileWord], .part .condition]
  | .condition => .sequence [.word [.leftParen], .part .expression, .word [.rightParen]]
  | .assignment => .sequence [.word [.identifier], .word [.equals], .part .expression]
  | .call =>
    .sequence [.word [.identifier], .word [.leftParen], .optional (.separated (.part .expression)),
               .word [.rightParen]]
  | .returnStatement => .sequence [.word [.returnWord], .optional (.part .expression)]
  | .declaration => .sequence [.part .type, .separated (.word [.identifier]), .word [.semicolon]]
  | .constants =>
    .sequence [.word [.constWord], .optional (.part .type),
               .separated (.sequence [.word [.identifier], .word [.equals], .part .constant]),
               .word [.semicolon]]
  | .type =>
    .choice [.word [.intWord, .floatWord, .doubleWord, .charWord, .voidWord, .identifier],
             .sequence [.word [.structWord, .unionWord], .word [.identifier]]]
  | .constant =>
    .choice [.sequence [.optional (.word [.plus, .minus]), .word [.integer, .real]], .word [.character]]
  | .expression => .operations (.part .operand) Operator.levels
  | .operand => .choice [.sequence [.word [.minus, .plus, .not], .part .operand], .part .factor]
  | .factor =>
    .choice [.word [.integer, .real, .character, .string], .word [.identifier], .part .call,
             .sequence [.word [.leftParen], .part .expression, .word [.rightParen]]]

/-- The grammar as it is meant: a condition decides about a statement. -/
def documented : Construct → Form :=
  grammar (.part .statement)

/-- A statement, or nothing where none begins. -/
def Form.inner : Form :=
  .choice [.part .statement, .notBefore Production.statementStart]

/-- The grammar of what is accepted: what a condition decides about may be missing. -/
def accepted : Construct → Form :=
  grammar .inner

theorem Form.Matches.of_inner {rules : Construct → Form} {before after : List TokenKind}
    (h : Form.inner.Matches rules before after) : (Form.part .statement).Matches rules before after ∨
      after = before ∧ ∀ kind ∈ before.head?, Production.statementStart.contains kind = false := by
  cases h with
  | choice hmem hmatches =>
      simp only [List.mem_cons, List.not_mem_nil, or_false] at hmem
      rcases hmem with rfl | rfl
      · exact Or.inl hmatches
      · cases hmatches with
        | notBefore hhead => exact Or.inr ⟨rfl, hhead⟩

/-! ## Semicolons and braces -/

/-- Whether a token ends statements. -/
def TokenKind.endsStatements (kind : TokenKind) : Bool :=
  kind == .semicolon || kind == .rightBrace

/-- The constructs in which a statement ends. -/
def Construct.hasEnd : Construct → Bool
  | statement | complete | compound | ifStatement | whileStatement | doStatement | declaration | constants => true
  | _ => false

namespace Form

mutual

/-- Whether all that is spelled in a form has a token that ends statements. -/
def hasEnd : Form → Bool
  | word kinds => kinds.all TokenKind.endsStatements
  | part construct => construct.hasEnd
  | sequence forms => anyHasEnd forms
  | choice forms => allHaveEnd forms
  | optional _ | repeated _ | notBefore _ => false

/-- Whether one of several forms has a token that ends statements. -/
def anyHasEnd : List Form → Bool
  | [] => false
  | form :: forms => form.hasEnd || anyHasEnd forms

/-- Whether each of several forms has a token that ends statements. -/
def allHaveEnd : List Form → Bool
  | [] => true
  | form :: forms => form.hasEnd && allHaveEnd forms

end

theorem hasEnd_of_mem {form : Form} {forms : List Form} (h : allHaveEnd forms = true) (hmem : form ∈ forms) :
    form.hasEnd = true := by
  induction forms with
  | nil => cases hmem
  | cons first rest ih =>
      obtain ⟨hfirst, hrest⟩ := Bool.and_eq_true_iff.mp h
      rcases List.mem_cons.mp hmem with rfl | hmem
      · exact hfirst
      · exact ih hrest hmem

/-- Where a statement ends there is a token for it. -/
theorem Matches.countP_endsStatements {form : Form} {before after : List TokenKind}
    (h : form.Matches documented before after) :
    after.countP TokenKind.endsStatements + form.hasEnd.toNat ≤ before.countP TokenKind.endsStatements := by
  induction h with
  | @word kinds kind after hmem =>
      rw [List.countP_cons]
      cases hend : kinds.all TokenKind.endsStatements with
      | false => simp [hasEnd, hend]
      | true =>
          rw [if_pos (List.all_eq_true.mp hend kind hmem)]
          simp [hasEnd, hend]
  | @part construct before after _ ih =>
      refine Nat.le_trans (Nat.add_le_add_left ?_ _) ih
      cases construct <;> decide
  | nil => simp [hasEnd, anyHasEnd]
  | @cons form forms before between after _ _ ih ih' =>
      have hone : (Form.sequence (form :: forms)).hasEnd.toNat ≤
          form.hasEnd.toNat + (Form.sequence forms).hasEnd.toNat := by
        simp only [hasEnd, anyHasEnd]
        cases form.hasEnd <;> cases anyHasEnd forms <;> decide
      omega
  | @choice form forms before after hmem _ ih =>
      cases hall : (Form.choice forms).hasEnd with
      | false => exact Nat.le_trans (by simp) ih
      | true =>
          rw [hasEnd] at hall
          rwa [hasEnd_of_mem hall hmem] at ih
  | absent | stop | notBefore _ => simp [hasEnd]
  | present _ ih => exact Nat.le_trans (by simp [hasEnd]) ih
  | again _ _ ih ih' =>
      simp only [hasEnd, Bool.toNat_false, Nat.add_zero] at ih' ⊢
      omega

end Form

end FrontEnd
