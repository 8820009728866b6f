import FrontEnd.Compile.Statement
import FrontEnd.Proofs.Ahead
import FrontEnd.Proofs.Fading.Types
import FrontEnd.Proofs.Mirrors
import FrontEnd.Proofs.Unit

/-!
# Signs

What is read at a sign is an operand, which is checked, and which may have signs before it again.  A sign `-` makes
a node with the type that the check gives: the undefined one, if the operand is refused.  A sign `+` makes none, so
its operand stays what it is.

What becomes of that is said for everything that the operand can be part of (`Surroundings`).  After `-`, an
operand that has been refused is not refused again, unless it would be whatever it were.  An operand that is accepted
is taken for the same after both signs, except for a character that is given to a target: with `-` it counts as a
whole number, with `+` it is still a character.

Targets are what assignments, arguments and returns give their values to, and conditions are those of statements
(`Production.assignment_eq`, `Production.argument_eq`, `Production.returnedValue_eq`, `Production.condition_eq`).  What
is made of an operand on the way is what the productions for operations and operands make of it
(`Production.run_operation`, `Production.operand_eq_build`).

## Strategy

What surrounds an operand sees of it only the type.  So the errors that are recorded there are a function of the
type (`Surroundings.check_eq`), and types are compared layer by layer: one that has become undefined passes what
the other passes, and a character and a whole number are alike as soon as anything but `+` is done with them.
-/

namespace FrontEnd

open Production

/-- An operand with the sign `-` before it. -/
def Node.negative (sign : Token) (operand : Node) : Node :=
  { kind := .negate, children := [operand], type := operand.type.negationResult?.getD .undefined,
    line := some sign.line }

/-- An operand that is accepted has the same type with a sign `-`, except for a character, which becomes a whole
number. -/
theorem Node.negative_type (sign : Token) (operand : Node) (haccepted : operand.type.negationResult? ≠ none) :
    (operand.negative sign).type = operand.type ∨ operand.type = .char ∧ (operand.negative sign).type = .int := by
  obtain ⟨type, htype⟩ := Option.ne_none_iff_exists'.mp haccepted
  have hnegative : (operand.negative sign).type = type := by rw [negative, htype, Option.getD_some]
  rw [hnegative]
  unfold DataType.negationResult? at htype
  split at htype
  · next hundefined => exact Or.inl (hundefined ▸ (Option.some.inj htype).symm)
  · next hchar => exact Or.inr ⟨hchar, (Option.some.inj htype).symm⟩
  · split at htype
    · exact Or.inl (Option.some.inj htype).symm
    · cases htype

/-! ## What an operand is part of -/

/-- What can be made of an operand: an operation with the operand after it or before it, or the operand with a sign
or a negation. -/
inductive Layer where
  | before (operator : NodeKind) (line : Nat) (right : Node)
  | after (operator : NodeKind) (line : Nat) (left : Node)
  | sign (token : Token)
  | negation (mark : Token)

/-- What an operand is part of, from the inside out, up to the target that the value is given to or the condition
that it is. -/
inductive Surroundings where
  | target (type : DataType) (place : Token)
  | condition (place : Token)
  | within (layer : Layer) (outer : Surroundings)

namespace Layer

/-- The node that is made of an operand. -/
def build : Layer → Node → Production Node
  | before operator line right, operand => binaryNode operator line operand right
  | after operator line left, operand => binaryNode operator line left operand
  | sign token, operand => signed token operand
  | negation mark, operand => negated mark operand

/-- The type that the node gets from that of the operand, unless the operand is refused. -/
def result? : Layer → DataType → Option DataType
  | before operator _ right, type => Operator.resultType? operator type right.type
  | after operator _ left, type => Operator.resultType? operator left.type type
  | sign token, type => if token.kind == .plus then type.negationResult?.map fun _ => type else type.negationResult?
  | negation _, type => if type.isCondition then some .int else none

/-- The type that the node has if the operand is refused. -/
def fallback : Layer → DataType → DataType
  | before _ _ _, _ | after _ _ _, _ => .undefined
  | sign token, type => if token.kind == .plus then type else .undefined
  | negation _, _ => .int

/-- The token at which the operand is refused, given the current one. -/
def place (current : Token) : Layer → Token
  | before _ _ _ | after _ _ _ => current
  | sign token | negation token => token

/-- The type of the node. -/
def outcome (layer : Layer) (type : DataType) : DataType :=
  (layer.result? type).getD (layer.fallback type)

/-- The error that is recorded if the operand is refused. -/
def refusals (current : Token) (layer : Layer) (type : DataType) : List Diagnostic :=
  if (layer.result? type).isSome then [] else [Diagnostic.atToken (layer.place current) .incompatibleTypes]

end Layer

namespace Surroundings

/-- Makes of an operand what it is part of, and checks the value. -/
def check : Surroundings → Node → Production Unit
  | target type place, value => ensure (type.accepts value.type) place .incompatibleTypes
  | condition place, value => ensure value.type.isCondition place .incompatibleTypes
  | within layer outer, operand => do outer.check (← layer.build operand)

/-- The target to which an operand is given as it is, with nothing but signs `+` before it. -/
def target? : Surroundings → Option DataType
  | target type _ => some type
  | within (.sign token) outer => if token.kind == .plus then outer.target? else none
  | _ => none

/-- The errors that are recorded for an operand of a type. -/
def refusals (current : Token) : Surroundings → DataType → List Diagnostic
  | target type place, value =>
    if type.accepts value then [] else [Diagnostic.atToken place .incompatibleTypes]
  | condition place, value => if value.isCondition then [] else [Diagnostic.atToken place .incompatibleTypes]
  | within layer outer, type => layer.refusals current type ++ outer.refusals current (layer.outcome type)

end Surroundings

/-! ## What is recorded -/

section

variable {session : Session} {layer : Layer} {surroundings : Surroundings} {type type' : DataType}

theorem exists_binaryNode (operator : NodeKind) (line : Nat) (left right : Node) (session : Session) :
    ∃ node, binaryNode operator line left right session = .ok (node, { session with
        diagnostics := session.diagnostics ++ if (Operator.resultType? operator left.type right.type).isSome then []
          else [Diagnostic.atToken session.cursor.current .incompatibleTypes] }) ∧
      node.type = (Operator.resultType? operator left.type right.type).getD .undefined := by
  unfold binaryNode
  cases Operator.resultType? operator left.type right.type with
  | some type =>
      exact ⟨{ kind := operator, children := [left, right], line := some line, type }, by simp [pure_eq], rfl⟩
  | none => exact ⟨_, rfl, rfl⟩

/-- What is made of an operand has a type according to that of the operand, and so has what is recorded. -/
theorem Layer.exists_build (layer : Layer) (operand : Node) (session : Session) :
    ∃ node, layer.build operand session = .ok (node, { session with
        diagnostics := session.diagnostics ++ layer.refusals session.cursor.current operand.type }) ∧
      node.type = layer.outcome operand.type := by
  cases layer with
  | before operator line right => exact exists_binaryNode operator line operand right session
  | after operator line left => exact exists_binaryNode operator line left operand session
  | sign token =>
      rw [build, signed, bind_of_ok (run_ensure _ _ _ _)]
      cases hplus : token.kind == TokenKind.plus with
      | true =>
          refine ⟨operand, by simp [pure_eq, refusals, result?, place, hplus], ?_⟩
          cases h : operand.type.negationResult? <;> simp [outcome, result?, fallback, hplus, h]
      | false =>
          exact ⟨operand.negative token, by simp [pure_eq, refusals, result?, place, hplus, Node.negative],
            by simp [outcome, result?, fallback, hplus, Node.negative]⟩
  | negation mark =>
      rw [build, negated, bind_of_ok (run_ensure _ _ _ _)]
      refine ⟨{ kind := .not, children := [operand], type := .int, line := some mark.line }, ?_, ?_⟩ <;>
        cases h : operand.type.isCondition <;> simp [pure_eq, refusals, place, outcome, result?, fallback, h]

/-- What surrounds an operand records errors according to its type, and does nothing else. -/
theorem Surroundings.check_eq (surroundings : Surroundings) (operand : Node) (session : Session) :
    surroundings.check operand session = .ok ((), { session with
      diagnostics := session.diagnostics ++ surroundings.refusals session.cursor.current operand.type }) := by
  induction surroundings generalizing operand session with
  | target type place => exact run_ensure _ _ _ _
  | condition place => exact run_ensure _ _ _ _
  | within layer outer ih =>
      obtain ⟨node, hbuild, htype⟩ := layer.exists_build operand session
      rw [check, bind_of_ok hbuild, ih, htype, List.append_assoc]
      rfl

/-- Nothing is recorded just if the operand is not refused. -/
theorem Surroundings.check_silent_iff {operand : Node} :
    surroundings.check operand session = .ok ((), session) ↔
      surroundings.refusals session.cursor.current operand.type = [] := by
  rw [surroundings.check_eq operand session]
  constructor
  · intro h
    have hsame := congrArg Session.diagnostics (Prod.mk.inj (Except.ok.inj h)).2
    simpa using hsame
  · intro h
    rw [h, List.append_nil]

end

/-! ## Where values are checked -/

namespace Production

variable {session : Session} {nested : Production Node}

/-- What reads a value and checks it in surroundings that depend on the token at which it begins. -/
def checked (nested : Production Node) (surroundings : Token → Surroundings) : Production Node := do
  let token ← current
  let value ← nested
  (surroundings token).check value
  return value

/-- A value that has been read is the answer, and what its surroundings refuse is recorded. -/
theorem run_checked {surroundings : Token → Surroundings} {value : Node} {read : Session}
    (h : nested session = .ok (value, read)) :
    checked nested surroundings session = .ok (value, { read with
      diagnostics := read.diagnostics ++
        (surroundings session.cursor.current).refusals read.cursor.current value.type }) := by
  rw [checked, current_bind, bind_of_ok h, bind_of_ok (Surroundings.check_eq _ value read)]
  rfl

/-- The value of an assignment is given to the variable that is named. -/
theorem assignment_eq : assignment = (do
    let target ← variableReference
    expect .equals .missingEquals
    let value ← checked expression (.target target.type)
    require .semicolon .missingSemicolon
    return { kind := .assign, children := [target, value], type := target.type }) := by
  simp only [assignment, checked, bind_assoc, pure_bind, Surroundings.check]

/-- An argument is given to the parameter in its place. -/
theorem argument_eq {formals : List DataType} {arguments : List Node} {formal : DataType}
    (h : formals[arguments.length]? = some formal) : argument nested formals arguments = (do
      let value ← checked nested (.target formal)
      if ← matchToken .comma then return .yield (arguments ++ [value])
      else return .done (arguments ++ [value])) := by
  simp only [argument, checked, bind_assoc, pure_bind, Surroundings.check, h, Option.all_some]

/-- What a function returns is given to its type. -/
theorem returnedValue_eq {type : DataType}
    (h : Operator.expressionStart.contains session.cursor.current.kind = true) :
    returnedValue .function type session = (do
      let value ← checked expression (.target type)
      return [value]) session := by
  simp only [returnedValue, checked, bind_assoc, pure_bind, Surroundings.check, current_bind, if_pos h]
  rfl

/-- The condition of a statement is checked after its opening parenthesis. -/
theorem condition_eq : condition = (do
    expect .leftParen .missingLeftParen
    let value ← checked expression .condition
    expect .rightParen .missingRightParen
    return value) := by
  simp only [condition, checked, bind_assoc, pure_bind, Surroundings.check]

/-- At an operator, the operand before it and the one after it are both parts of the operation. -/
theorem run_operation {level : OperatorLevel} {operator : NodeKind} {left right : Node} {token : Token}
    {moved read : Session} (hlevel : level.lookup session.cursor.current.kind = some operator)
    (hnext : nextToken session = .ok (token, moved)) (hright : nested moved = .ok (right, read)) :
    let before := Layer.before operator session.cursor.current.line right
    let after := Layer.after operator session.cursor.current.line left
    ∃ node, operation level nested left session = .ok (.yield node, { read with
        diagnostics := read.diagnostics ++ before.refusals read.cursor.current left.type }) ∧
      before.refusals read.cursor.current left.type = after.refusals read.cursor.current right.type ∧
      node.type = before.outcome left.type ∧ node.type = after.outcome right.type := by
  intro before after
  obtain ⟨node, hbuild, htype⟩ := before.exists_build left read
  refine ⟨node, ?_, rfl, htype, htype⟩
  rw [operation, current_bind, hlevel]
  dsimp only
  rw [bind_of_ok hnext, bind_of_ok hright]
  exact bind_of_ok hbuild

end Production

/-! ## What has become undefined -/

namespace Layer

/-- What an operand makes of a layer that accepts it fades when the operand fades. -/
theorem result?_of_fades {layer : Layer} {type type' result : DataType} (hfades : type.Fades type')
    (h : layer.result? type = some result) :
    ∃ result', layer.result? type' = some result' ∧ result.Fades result' := by
  cases layer with
  | before operator line right => exact hfades.resultType? (DataType.Fades.refl right.type) h
  | after operator line left => exact (DataType.Fades.refl left.type).resultType? hfades h
  | sign token =>
      simp only [result?] at h ⊢
      split at h
      · next hplus =>
          obtain ⟨signed, hsigned, rfl⟩ := Option.map_eq_some_iff.mp h
          obtain ⟨signed', hsigned', -⟩ := hfades.negationResult? hsigned
          exact ⟨type', by rw [if_pos hplus, hsigned']; rfl, hfades⟩
      · next hminus =>
          rw [if_neg hminus]
          exact hfades.negationResult? h
  | negation mark =>
      simp only [result?] at h ⊢
      split at h
      · next hholds =>
          rw [if_pos (hfades.isCondition hholds)]
          exact ⟨result, h, DataType.Fades.refl result⟩
      · cases h

end Layer

/-- What is not refused is not refused either when it fades. -/
theorem Surroundings.refusals_of_fades {surroundings : Surroundings} {type type' : DataType} {current : Token}
    (hfades : type.Fades type') (h : surroundings.refusals current type = []) :
    surroundings.refusals current type' = [] := by
  induction surroundings generalizing type type' with
  | target target place =>
      have haccepts : target.accepts type = true := by simpa [refusals] using h
      simp [refusals, (DataType.Fades.refl target).accepts hfades haccepts]
  | condition place =>
      have hholds : type.isCondition = true := by simpa [refusals] using h
      simp [refusals, hfades.isCondition hholds]
  | within layer outer ih =>
      obtain ⟨hlayer, houter⟩ := List.append_eq_nil_iff.mp h
      obtain ⟨result, hresult⟩ : ∃ result, layer.result? type = some result := by
        rw [← Option.isSome_iff_exists]
        by_contra hnone
        simp [Layer.refusals, hnone] at hlayer
      obtain ⟨result', hresult', hfades'⟩ := layer.result?_of_fades hfades hresult
      have hfaded : (layer.outcome type).Fades (layer.outcome type') := by
        simpa [Layer.outcome, hresult, hresult'] using hfades'
      simp [refusals, Layer.refusals, hresult', ih hfaded houter]

/-! ## Characters and whole numbers -/

/-- An operator takes a character for a whole number. -/
theorem resultType?_char (operator : NodeKind) (type : DataType) :
    Operator.resultType? operator .char type = Operator.resultType? operator .int type ∧
      Operator.resultType? operator type .char = Operator.resultType? operator type .int := by
  constructor <;> cases operator <;> rfl

namespace Layer

/-- Whatever is made of a character is made of a whole number, unless it is given a sign `+`. -/
theorem outcome_char {layer : Layer} (h : ∀ token, layer = .sign token → token.kind ≠ .plus) :
    layer.result? .char = layer.result? .int ∧ layer.outcome .char = layer.outcome .int := by
  cases layer with
  | before operator line right =>
      have hresult := (resultType?_char operator right.type).1
      exact ⟨hresult, congrArg (·.getD .undefined) hresult⟩
  | after operator line left =>
      have hresult := (resultType?_char operator left.type).2
      exact ⟨hresult, congrArg (·.getD .undefined) hresult⟩
  | sign token =>
      simp [outcome, result?, h token rfl, DataType.negationResult?, DataType.isNumeric]
  | negation mark => exact ⟨rfl, rfl⟩

end Layer

/-- A character is refused where a whole number is, unless it is given to a target that takes only one of them. -/
theorem Surroundings.refusals_char {surroundings : Surroundings} {current : Token}
    (h : ∀ type ∈ surroundings.target?, type.accepts .char = type.accepts .int) :
    surroundings.refusals current .char = surroundings.refusals current .int := by
  induction surroundings with
  | target type place => simp [refusals, h type rfl]
  | condition place => rfl
  | within layer outer ih =>
      by_cases hplus : ∃ token, layer = .sign token ∧ token.kind = .plus
      · obtain ⟨token, rfl, hkind⟩ := hplus
        have houter := ih (by simpa [target?, hkind] using h)
        simpa [refusals, Layer.refusals, Layer.outcome, Layer.result?, hkind, DataType.negationResult?,
          DataType.isNumeric] using houter
      · obtain ⟨hresult, houtcome⟩ := layer.outcome_char fun token hsign hkind => hplus ⟨token, hsign, hkind⟩
        simp only [refusals, Layer.refusals, hresult, houtcome]

/-- What is given to a target as it is, with a sign `+` or without, is refused just if the target does not take
it. -/
theorem Surroundings.refusals_eq_nil_of_target {surroundings : Surroundings} {current : Token}
    {type target : DataType} (htarget : surroundings.target? = some target)
    (haccepted : type.negationResult? ≠ none) :
    surroundings.refusals current type = [] ↔ target.accepts type = true := by
  induction surroundings with
  | target other place =>
      obtain rfl : other = target := by simpa [target?] using htarget
      simp [refusals]
  | condition place => cases htarget
  | within layer outer ih =>
      cases layer with
      | sign token =>
          obtain ⟨hkind, houter⟩ : token.kind = .plus ∧ outer.target? = some target := by
            simpa [target?] using htarget
          obtain ⟨result, hresult⟩ := Option.ne_none_iff_exists'.mp haccepted
          rw [← ih houter]
          simp [refusals, Layer.refusals, Layer.outcome, Layer.result?, hkind, hresult]
      | before | after | negation => cases htarget

/-! ## Operands with signs -/

namespace Production

/-- With nothing left to read, the end of the file comes next. -/
theorem remaining_of_advance {cursor next : Cursor} {token : Token} (h : cursor.advance = (.ok token, next))
    (hend : cursor.current.isEnd = false) :
    next.remaining + 1 = cursor.remaining ∨
      cursor.remaining = 0 ∧ next.remaining = 0 ∧ next.current.isEnd = true := by
  have hlength (cursor : Cursor) : cursor.pending.length = cursor.remaining + 1 := by
    simp [Cursor.pending, Cursor.remaining]
  obtain ⟨hcurrent, -, ⟨hnot, -⟩ | ⟨-, -, hpending | ⟨hpending, hfinal, hnext⟩⟩⟩ := Cursor.advance_cases h
  · simp [hend] at hnot
  · left
    have hcount := congrArg List.length hpending
    rw [List.length_cons, hlength, hlength] at hcount
    omega
  · right
    have hcount := congrArg List.length hpending
    have hcount' := congrArg List.length hnext
    rw [hlength, List.length_singleton] at hcount hcount'
    exact ⟨by omega, by omega, hcurrent ▸ Cursor.finalEvent_isEnd hfinal⟩

variable {nested : Production Node} {session : Session}

/-- At the end of the file there are no signs. -/
theorem operandWithin_of_isEnd {factor : Production Node} (hend : session.cursor.current.isEnd = true)
    (depth : Nat) : operandWithin factor (depth + 1) session = factor session := by
  have hkind : session.cursor.current.kind = .endOfFile := by simpa [Token.isEnd] using hend
  rw [operandWithin, current_bind, hkind]

/-- What is left of the budget of an operand after its sign is enough for what follows. -/
theorem operandWithin_of_advance {token : Token} {next : Cursor} {later : Session}
    (h : session.cursor.advance = (.ok token, next)) (hend : session.cursor.current.isEnd = false)
    (hcursor : later.cursor = next) :
    operandWithin (factor nested) (session.cursor.remaining + 1) later = operand nested later := by
  have hoperand : operand nested later = operandWithin (factor nested) (next.remaining + 2) later := by
    rw [← hcursor]
    rfl
  rw [hoperand]
  rcases remaining_of_advance h hend with hone | ⟨-, -, hlast⟩
  · rw [← hone]
  · have hlater : later.cursor.current.isEnd = true := by rwa [hcursor]
    rw [operandWithin_of_isEnd hlater, operandWithin_of_isEnd hlater]

theorem signed_eq (sign : Token) (operand : Node) : signed sign operand = (do
    ensure operand.type.negationResult?.isSome sign .incompatibleTypes
    return if sign.kind == TokenKind.plus then operand else operand.negative sign) := by
  unfold signed
  cases sign.kind == TokenKind.plus <;> rfl

/-- At a sign or a negation, an operand is read after it and becomes a part of it. -/
theorem operand_eq_build {layer : Layer}
    (hlayer : layer = .sign session.cursor.current ∧
        (session.cursor.current.kind = .plus ∨ session.cursor.current.kind = .minus) ∨
      layer = .negation session.cursor.current ∧ session.cursor.current.kind = .not) :
    operand nested session = (do
      let _ ← nextToken
      layer.build (← operand nested)) session := by
  have hwithin : operand nested session = (do
      let _ ← nextToken
      layer.build (← operandWithin (factor nested) (session.cursor.remaining + 1))) session := by
    show operandWithin (factor nested) (session.cursor.remaining + 2) session = _
    rw [operandWithin, current_bind]
    rcases hlayer with ⟨rfl, hkind | hkind⟩ | ⟨rfl, hkind⟩ <;> rw [hkind] <;> rfl
  have hend : session.cursor.current.isEnd = false := by
    rcases hlayer with ⟨-, hkind | hkind⟩ | ⟨-, hkind⟩ <;> simp [Token.isEnd, hkind]
  rw [hwithin]
  rcases hadvance : session.cursor.advance with ⟨answer, next⟩
  cases answer with
  | error failure =>
      have hfails := run_nextToken_error hadvance
      rw [bind_of_error hfails, bind_of_error hfails]
  | ok token =>
      have hrun := run_nextToken hadvance
      rw [bind_of_ok hrun, bind_of_ok hrun]
      simp only [Bind.bind, StateT.bind]
      rw [operandWithin_of_advance hadvance hend rfl]

/-- What is read at a sign is an operand, which is refused just if no sign is allowed before it; the answer is the
operand itself after `+`, and an operand with a sign after `-`.  What has been refused after `-` is not refused
again, unless every operand would be.  What is accepted is refused after `-` where it is after `+`, unless it is a
character that is given to a target that takes characters only or whole numbers only. -/
theorem operand_at_sign (nested : Production Node) (session : Session)
    (hsign : session.cursor.current.kind = .plus ∨ session.cursor.current.kind = .minus) :
    operand nested session = (do
        let _ ← nextToken
        let inner ← operand nested
        ensure inner.type.negationResult?.isSome session.cursor.current .incompatibleTypes
        return if session.cursor.current.kind == TokenKind.plus then inner
          else inner.negative session.cursor.current) session ∧
      ∀ (inner : Node) (sign : Token) (surroundings : Surroundings) (later : Session),
        (inner.type.negationResult? = none →
          ∀ other, surroundings.check other later = .ok ((), later) →
            surroundings.check (inner.negative sign) later = .ok ((), later)) ∧
        (inner.type.negationResult? ≠ none →
          (inner.type = .char → ∀ type ∈ surroundings.target?, type.accepts .char = type.accepts .int) →
            surroundings.check inner later = surroundings.check (inner.negative sign) later) ∧
        (inner.type = .char → ∀ type ∈ surroundings.target?,
          (surroundings.check inner later = .ok ((), later) ↔ type.accepts .char = true) ∧
            (surroundings.check (inner.negative sign) later = .ok ((), later) ↔ type.accepts .int = true)) := by
  refine ⟨?_, fun inner sign surroundings later => ⟨fun hrefused other hother => ?_, fun haccepted hchar => ?_,
    fun hchar type htarget => ⟨?_, ?_⟩⟩⟩
  · rw [operand_eq_build (Or.inl ⟨rfl, hsign⟩)]
    simp only [Layer.build, signed_eq]
  · have hnegative : (inner.negative sign).type = .undefined := by simp [Node.negative, hrefused]
    rw [Surroundings.check_silent_iff] at hother ⊢
    rw [hnegative]
    exact Surroundings.refusals_of_fades (DataType.Fades.undefined other.type) hother
  · rw [Surroundings.check_eq, Surroundings.check_eq]
    congr 4
    rcases inner.negative_type sign haccepted with hsame | ⟨hcharacter, hnumber⟩
    · rw [hsame]
    · rw [hcharacter, hnumber]
      exact Surroundings.refusals_char (hchar hcharacter)
  · have haccepted : inner.type.negationResult? ≠ none := by rw [hchar]; nofun
    rw [Surroundings.check_silent_iff, Surroundings.refusals_eq_nil_of_target htarget haccepted, hchar]
  · have hnegative : (inner.negative sign).type = .int := by simp [Node.negative, hchar, DataType.negationResult?]
    rw [Surroundings.check_silent_iff, hnegative, Surroundings.refusals_eq_nil_of_target htarget (by nofun)]

/-- A string with the sign `-` is refused, and is then taken for a summand and for a whole number. -/
theorem operand_at_sign_string :
    let sign : Token := ⟨.minus, "-", ⟨1, 1⟩, none⟩
    let text : Token := ⟨.string, "\"s\"", ⟨1, 2⟩, some (.string "s")⟩
    let session : Session := { cursor := { stream := .ofTokens [text], current := sign } }
    let one : Node := { kind := .integerConstant, type := .int, value := some (.integer 1) }
    let surroundings : Surroundings := .within (.before .add 1 one) (.target .int sign)
    ∃ (inner : Node) (later : Session), operand expression session = .ok (inner.negative sign, later) ∧
      inner.type = .array .char 2 ∧ later.diagnostics = [Diagnostic.atToken sign .incompatibleTypes] ∧
        surroundings.check (inner.negative sign) later = .ok ((), later) := by
  intro sign text session one surroundings
  have hread : ∃ outcome, operand expression session = .ok outcome ∧
      outcome.1.children.map Node.type = [.array .char 2] ∧
      outcome.2.diagnostics = [Diagnostic.atToken sign .incompatibleTypes] := exists_answer (by decide +kernel)
  obtain ⟨⟨node, later⟩, hrun, htypes, hreports⟩ := hread
  obtain ⟨heq, hsurroundings⟩ := operand_at_sign expression session (Or.inr rfl)
  rw [heq] at hrun
  obtain ⟨_, between, -, hrest⟩ := exists_of_bind hrun
  obtain ⟨inner, after, -, hlast⟩ := exists_of_bind hrest
  rw [bind_of_ok (run_ensure _ _ _ _), pure_eq] at hlast
  obtain ⟨rfl, -⟩ : inner.negative sign = node ∧ _ = later := by simpa [session, sign] using hlast
  have htype : inner.type = .array .char 2 := by simpa [Node.negative] using htypes
  refine ⟨inner, later, heq.trans hrun, htype, hreports, (hsurroundings inner sign surroundings later).1 ?_ one ?_⟩
  · rw [htype]
    rfl
  · rw [Surroundings.check_silent_iff]
    rfl

end Production

/-- A character with the sign `+` is refused where one with the sign `-` is accepted, and a string that has been
refused with the sign `+` is refused again. -/
theorem signs_differ :
    (∃ unit, compileText "void p() \x7b int x; x = -'a'; x = +'a'; \x7d" = .ok unit ∧
      (unit.diagnostics.map fun report => (report.kind, report.location)) =
        [(.incompatibleTypes, ⟨1, 33⟩)]) ∧
    ∃ unit, compileText "void p() \x7b int x; x = -\"s\"; x = +\"s\"; \x7d" = .ok unit ∧
      (unit.diagnostics.map fun report => (report.kind, report.location)) =
        [(.incompatibleTypes, ⟨1, 23⟩), (.incompatibleTypes, ⟨1, 33⟩), (.incompatibleTypes, ⟨1, 33⟩)] :=
  ⟨exists_compiled (by decide +kernel), exists_compiled (by decide +kernel)⟩

end FrontEnd
