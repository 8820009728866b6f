import FrontEnd.Compile.Unit
import FrontEnd.Proofs.Moves

/-!
# The productions that stay inside a scope

`Relates` says of a production that whatever it leaves behind is related to what it began with, from any
session on.  If the relation is reflexive and transitive it passes from the parts of a production to the
whole, and from the step of a loop to the loop.

The grammar of expressions and statements is gone through once, for any such relation: it holds of all
expressions and statements if it holds of the few things that are done inside them (`SpansExpressions`,
`SpansStatements`).

A production that makes moves only *stays* in its scope (`Stays`).  All declarations, expressions, statements
and lists of parameters stay, and only the lists of parameters enter parameters.
-/

namespace FrontEnd.Production

open Session

variable {α β σ : Type} {related : Session → Session → Prop} {stores : List DefinitionKind} {owner : EntryId}

/-- Whether what a production leaves behind is related to what it began with. -/
structure Relates (related : Session → Session → Prop) (production : Production α) : Prop where
  leads : ∀ session, Leads production session (fun _ => True) fun _ later => related session later

/-- Whether a production makes moves only. -/
abbrev Stays (stores : List DefinitionKind) (owner : EntryId) (production : Production α) : Prop :=
  Relates (Moves stores owner) production

namespace Relates

/-- What a run leaves behind. -/
theorem of_run {production : Production α} {session later : Session} {answer : α}
    (h : Relates related production) (hrun : production session = .ok (answer, later)) :
    related session later :=
  (leads_of_ok hrun).mp (h.leads session)

theorem mono {related' : Session → Session → Prop} {production : Production α}
    (h : Relates related production)
    (himp : ∀ session later, related session later → related' session later) :
    Relates related' production where
  leads session := (h.leads session).imp fun _ later => himp session later

protected theorem pure [Std.Refl related] (answer : α) : Relates related (pure answer) := by
  refine ⟨fun session => ?_⟩
  exact refl session

protected theorem throw (cause : Interruption) : Relates related (throw cause : Production α) :=
  ⟨fun _ => trivial⟩

/-- Productions in a row relate what their relations relate in a row. -/
theorem comp {first second whole : Session → Session → Prop} {production : Production α}
    {next : α → Production β} (h : Relates first production)
    (hnext : ∀ answer, Relates second (next answer))
    (hwhole : ∀ session between later, first session between → second between later →
      whole session later) : Relates whole (production >>= next) := by
  refine ⟨fun session => (h.leads session).bind fun answer between hfirst => ?_⟩
  exact ((hnext answer).leads between).imp fun _ later hsecond =>
    hwhole session between later hfirst hsecond

protected theorem bind [IsTrans Session related] {production : Production α}
    {next : α → Production β} (h : Relates related production)
    (hnext : ∀ answer, Relates related (next answer)) : Relates related (production >>= next) :=
  h.comp hnext fun _ _ _ => Trans.trans

protected theorem ite {condition : Prop} [Decidable condition] {first second : Production α}
    (h : Relates related first) (h' : Relates related second) :
    Relates related (if condition then first else second) := by
  split
  · exact h
  · exact h'

/-- To look at the session changes nothing. -/
theorem read [Std.Refl related] (view : Session → α) :
    Relates related (do return view (← get)) := by
  refine ⟨fun session => ?_⟩
  exact refl session

theorem loopWithin [Std.Refl related] [IsTrans Session related]
    {step : σ → Production (ForInStep σ)} (hstep : ∀ state, Relates related (step state))
    (budget : Nat) (state : σ) : Relates related (loopWithin step budget state) := by
  induction budget generalizing state with
  | zero => exact .throw .unfinished
  | succ budget ih =>
      refine (hstep state).bind fun next => ?_
      cases next with
      | done state => exact .pure state
      | yield state => exact ih state

theorem loop [Std.Refl related] [IsTrans Session related] {step : σ → Production (ForInStep σ)}
    (hstep : ∀ state, Relates related (step state)) (state : σ) : Relates related (loop step state) :=
  (Relates.read _).bind fun budget => .loopWithin hstep budget state

theorem forM [Std.Refl related] {action : α → Production Unit}
    (haction : ∀ value, Relates related (action value)) (found : Option α) :
    Relates related (found.forM action) := by
  cases found with
  | none => exact .pure ()
  | some value => exact haction value

/-- To look for a type changes nothing. -/
theorem typeNamed [Std.Refl related] [IsTrans Session related] (name : String) :
    Relates related (typeNamed name) :=
  (Relates.read _).bind fun _ => .pure _

theorem startsVariables [Std.Refl related] [IsTrans Session related] : Relates related startsVariables :=
  (Relates.read _).bind fun token => .ite (.pure true) <|
    .ite ((Relates.typeNamed token.text).bind fun _ => .pure _) (.pure false)

end Relates

/-! ## Errors and tokens -/

theorem Relates.stays {production : Production α} (h : Relates Reads production) :
    Stays stores owner production :=
  h.mono fun _ _ hreads => .single (.read hreads)

theorem reads_flagAt (token : Token) {kind : ErrorKind} (hkind : kind.ofNames = false) :
    Relates Reads (flagAt token kind) := by
  refine ⟨fun session => ?_⟩
  exact .flag session token hkind

theorem reads_flag {kind : ErrorKind} (hkind : kind.ofNames = false) : Relates Reads (flag kind) :=
  (Relates.read _).bind fun token => reads_flagAt token hkind

theorem reads_ensure (holds : Bool) (token : Token) {kind : ErrorKind}
    (hkind : kind.ofNames = false) : Relates Reads (ensure holds token kind) := by
  cases holds with
  | true => exact .pure ()
  | false => exact reads_flagAt token hkind

theorem reads_nextToken : Relates Reads nextToken := by
  refine ⟨fun session => ?_⟩
  rcases hadvance : session.cursor.advance with ⟨result, cursor⟩
  cases result with
  | error failure =>
      rw [leads_nextToken_error hadvance]
      trivial
  | ok token =>
      rw [leads_nextToken hadvance]
      refine .intro cursor cursor.current.reports (.single (.advance hadvance)) fun report hmem => ?_
      obtain ⟨reason, -, rfl⟩ := List.mem_map.mp hmem
      cases reason <;> rfl

theorem reads_peekKind : Relates Reads peekKind := by
  refine ⟨fun session => ?_⟩
  rcases hpeek : session.cursor.peek with ⟨result, cursor⟩
  cases result with
  | error failure =>
      rw [leads_peekKind_error hpeek]
      trivial
  | ok token =>
      rw [leads_peekKind hpeek]
      exact .look (.single (.peek hpeek))

theorem reads_matchToken (kind : TokenKind) : Relates Reads (matchToken kind) :=
  (Relates.read _).bind fun _ => .ite (reads_nextToken.bind fun _ => .pure true) (.pure false)

theorem reads_matchAny (set : KindSet) : Relates Reads (matchAny set) :=
  (Relates.read _).bind fun _ => .ite (reads_nextToken.bind fun _ => .pure true) (.pure false)

theorem reads_expect (kind : TokenKind) {missing : ErrorKind} (hmissing : missing.ofNames = false) :
    Relates Reads (expect kind missing) :=
  (reads_matchToken kind).bind fun _ => .ite (.pure ()) (reads_flag hmissing)

theorem reads_synchronize (set : KindSet) : Relates Reads (synchronize set) := by
  refine (Relates.read _).bind fun token => .ite (.pure token) ?_
  refine (reads_ensure _ token rfl).bind fun _ => reads_nextToken.bind fun next => ?_
  exact .loop (fun _ => .ite (.pure _) (reads_nextToken.bind fun _ => .pure _)) next

/-- A token that is answered with is the current one. -/
theorem current_nextToken (session : Session) :
    Leads nextToken session (fun _ => True) fun token later => later.cursor.current = token := by
  rcases hadvance : session.cursor.advance with ⟨result, cursor⟩
  cases result with
  | error failure =>
      rw [leads_nextToken_error hadvance]
      trivial
  | ok token =>
      rw [leads_nextToken hadvance]
      exact Cursor.advance_current hadvance

theorem current_peekKind (session : Session) :
    Leads peekKind session (fun _ => True) fun _ looked =>
      looked.cursor.current = session.cursor.current := by
  rcases hpeek : session.cursor.peek with ⟨result, cursor⟩
  cases result with
  | error failure =>
      rw [leads_peekKind_error hpeek]
      trivial
  | ok token =>
      rw [leads_peekKind hpeek]
      exact Cursor.peek_current hpeek

/-- A parse resumes with the token with which it is answered. -/
theorem current_synchronize (set : KindSet) (session : Session) :
    Leads (synchronize set) session (fun _ => True) fun token later => later.cursor.current = token := by
  have hskip (token : Token) (between : Session) (hbetween : between.cursor.current = token) :
      Leads (skipToken set token) between (fun _ => True)
        (AfterTurn (fun token later => later.cursor.current = token)
          fun token later => later.cursor.current = token) := by
    unfold skipToken
    split
    · exact hbetween
    · exact (current_nextToken between).bind fun _ later htoken => htoken
  rw [synchronize, leads_bind, leads_current]
  split
  · rfl
  · refine (leads_run _ session).bind fun _ noted _ => ?_
    exact (current_nextToken noted).bind fun _ later htoken => leads_loop hskip htoken

/-! ## Expressions -/

/-- The current name is looked up, and the line of its use is recorded. -/
theorem Relates.resolveIdentifier [Std.Refl related] [IsTrans Session related]
    (hname : ∀ name, Relates related (identifierEntry name))
    (hline : ∀ id line, Relates related (changeEntry id (·.addLine line))) : Relates related resolveIdentifier :=
  (Relates.read _).bind fun name => (hname name).bind fun id => (hline id name.line).bind fun _ => .pure id

/-- Whether a relation holds of whatever is done inside an expression: tokens are consumed and looked at, errors
are recorded, the current name is looked up, and the lines of uses are recorded.  That a token is unexpected is
said of the current one only, and not of a piece of text that is no token. -/
structure SpansExpressions (related : Session → Session → Prop) : Prop where
  nextToken : Relates related nextToken
  peekKind : Relates related peekKind
  flagAt : ∀ (token : Token) {kind : ErrorKind}, kind.isPlain = true → Relates related (flagAt token kind)
  unexpected : ∀ session, session.cursor.current.kind ≠ .error →
    Leads (flag .unexpectedToken) session (fun _ => True) fun _ later => related session later
  resolve : Relates related resolveIdentifier
  line : ∀ id line, Relates related (changeEntry id (·.addLine line))

/-- Whether a relation holds of whatever is done inside a statement of a routine: besides what is done inside
expressions, variables and constants are declared, the targets of returns are made, and statements are put into
braces. -/
structure SpansStatements (routine : EntryId) (related : Session → Session → Prop) : Prop extends
    SpansExpressions related where
  storage : Relates related variableDeclaration
  constants : Relates related constants
  target : ∀ type session, related session
    { session with
      table := (session.table.createDetached (session.table.entry routine).name
        (.plainVariable session.table.localScope.nextSlot) type).2 }
  braces : ∀ {nested : Production Node}, Relates related nested → ∀ session,
    session.cursor.current.kind = .leftBrace →
      Leads (compoundOf nested) session (fun _ => True) fun _ later => related session later

namespace SpansExpressions

/-- Where a relation holds of whatever is read on, it does not matter what is read. -/
theorem of_reads (hreads : ∀ session later, session.Reads later → related session later)
    (hresolve : Relates related resolveIdentifier)
    (hline : ∀ id line, Relates related (changeEntry id (·.addLine line))) : SpansExpressions related where
  nextToken := reads_nextToken.mono hreads
  peekKind := reads_peekKind.mono hreads
  flagAt token _ hkind := (reads_flagAt token (ErrorKind.ofNames_of_isPlain hkind)).mono hreads
  unexpected session _ := ((reads_flag rfl).mono hreads).leads session
  resolve := hresolve
  line := hline

theorem flag [Std.Refl related] [IsTrans Session related] (h : SpansExpressions related) {kind : ErrorKind}
    (hkind : kind.isPlain = true) : Relates related (flag kind) :=
  (Relates.read _).bind fun token => h.flagAt token hkind

theorem ensure [Std.Refl related] (h : SpansExpressions related) (holds : Bool) (token : Token) {kind : ErrorKind}
    (hkind : kind.isPlain = true) : Relates related (ensure holds token kind) := by
  cases holds with
  | true => exact .pure ()
  | false => exact h.flagAt token hkind

/-- A token that is said to be unexpected is dropped. -/
theorem dropped [IsTrans Session related] (h : SpansExpressions related) {session : Session} {answer : α}
    (hunexpected : Leads (Production.flag .unexpectedToken) session (fun _ => True)
      fun _ later => related session later) :
    Leads (do
      Production.flag .unexpectedToken
      let _ ← Production.nextToken
      return answer) session (fun _ => True) fun _ later => related session later := by
  refine Leads.bind hunexpected fun _ noted hnoted => ?_
  exact Leads.bind (h.nextToken.leads noted) fun _ _ hlater => IsTrans.trans _ _ _ hnoted hlater

variable [Std.Refl related] [IsTrans Session related]

theorem matchToken (h : SpansExpressions related) (kind : TokenKind) : Relates related (matchToken kind) :=
  (Relates.read _).bind fun _ => .ite (h.nextToken.bind fun _ => .pure true) (.pure false)

theorem expect (h : SpansExpressions related) (kind : TokenKind) {missing : ErrorKind}
    (hmissing : missing.isPlain = true) : Relates related (expect kind missing) :=
  (h.matchToken kind).bind fun _ => .ite (.pure ()) (h.flag hmissing)

theorem require (h : SpansExpressions related) (kind : TokenKind) {missing : ErrorKind}
    (hmissing : missing.isPlain = true) : Relates related (require kind missing) :=
  (Relates.read _).bind fun token => h.ensure _ token hmissing

/-- A parse that resumes says of the current token only that it is unexpected, if it is a token. -/
theorem synchronize (h : SpansExpressions related) (set : KindSet) : Relates related (synchronize set) := by
  have hskip : Relates related (do loop (skipToken set) (← Production.nextToken)) :=
    h.nextToken.bind fun next => .loop (fun _ => .ite (.pure _) (h.nextToken.bind fun _ => .pure _)) next
  refine ⟨fun session => ?_⟩
  rw [Production.synchronize, leads_bind, leads_current]
  split
  · exact refl session
  · cases herror : session.cursor.current.kind == .error with
    | true => exact hskip.leads session
    | false =>
        have hnoted : Leads (Production.flagAt session.cursor.current .unexpectedToken) session (fun _ => True)
            fun _ later => related session later := h.unexpected session (by simpa using herror)
        refine hnoted.bind fun _ noted hnoted => ?_
        exact (hskip.leads noted).imp fun _ _ hlater => IsTrans.trans _ _ _ hnoted hlater

theorem binaryNode (h : SpansExpressions related) (operator : NodeKind) (line : Nat) (left right : Node) :
    Relates related (binaryNode operator line left right) := by
  unfold Production.binaryNode
  cases Operator.resultType? operator left.type right.type with
  | some type => exact .pure _
  | none => exact (h.flag rfl).bind fun _ => .pure _

theorem operations (h : SpansExpressions related) {operand : Production Node}
    (hoperand : Relates related operand) (levels : List OperatorLevel) :
    Relates related (operations operand levels) := by
  induction levels with
  | nil => exact hoperand
  | cons level tighter ih =>
      refine ih.bind fun left => .loop (fun left => ?_) left
      refine (Relates.read _).bind fun token => ?_
      cases level.lookup token.kind with
      | none => exact .pure _
      | some operator =>
          refine h.nextToken.bind fun _ => ih.bind fun right => ?_
          exact (h.binaryNode operator token.line left right).bind fun _ => .pure _

theorem operandWithin (h : SpansExpressions related) {factor : Production Node}
    (hfactor : Relates related factor) (depth : Nat) : Relates related (operandWithin factor depth) := by
  have hsigned (sign : Token) (operand : Node) : Relates related (signed sign operand) :=
    (h.ensure _ sign rfl).bind fun _ => .ite (.pure operand) (.pure _)
  have hnegated (mark : Token) (operand : Node) : Relates related (negated mark operand) :=
    (h.ensure _ mark rfl).bind fun _ => .pure _
  induction depth with
  | zero => exact .throw .unfinished
  | succ depth ih =>
      refine (Relates.read _).bind fun token => ?_
      split
      case h_1 | h_2 => exact h.nextToken.bind fun _ => ih.bind fun _ => hsigned token _
      case h_3 => exact h.nextToken.bind fun _ => ih.bind fun _ => hnegated token _
      case h_4 => exact hfactor

theorem variableReference (h : SpansExpressions related) : Relates related variableReference :=
  h.resolve.bind fun _ => (Relates.read _).bind fun _ => h.nextToken.bind fun _ => .pure _

theorem namedConstant (h : SpansExpressions related) (id : EntryId) (value : ConstantValue) :
    Relates related (namedConstant id value) :=
  (Relates.read _).bind fun token => (h.line id token.line).bind fun _ =>
    (Relates.read _).bind fun _ => h.nextToken.bind fun _ => .pure _

theorem arguments (h : SpansExpressions related) {nested : Production Node}
    (hnested : Relates related nested) (formals : List DataType) :
    Relates related (arguments nested formals) := by
  refine (Relates.read _).bind fun _ => .ite (.pure _) (.loop (fun arguments => ?_) _)
  refine (Relates.read _).bind fun token => hnested.bind fun value => ?_
  refine (h.ensure _ token rfl).bind fun _ => ?_
  exact (h.matchToken _).bind fun _ => .ite (.pure _) (.pure _)

theorem call (h : SpansExpressions related) {nested : Production Node}
    (hnested : Relates related nested) : Relates related (call nested) := by
  refine (Relates.read _).bind fun name => h.resolve.bind fun id => ?_
  refine h.nextToken.bind fun _ => (Relates.read _).bind fun table => ?_
  refine (h.matchToken _).bind fun _ => .ite ?_ ((h.flag rfl).bind fun _ => .pure _)
  refine (h.arguments hnested _).bind fun _ => (h.expect _ rfl).bind fun _ => ?_
  exact (h.ensure _ name rfl).bind fun _ => .pure _

/-- A name that cannot stand in an expression is said to be unexpected. -/
theorem identifierFactor (h : SpansExpressions related) {nested : Production Node}
    (hnested : Relates related nested) {session : Session}
    (hunexpected : Leads (Production.flag .unexpectedToken) session (fun _ => True)
      fun _ later => related session later) :
    Leads (identifierFactor nested) session (fun _ => True) fun _ later => related session later := by
  rw [Production.identifierFactor, leads_bind, leads_current, leads_bind, leads_lookup]
  cases session.table.lookup session.cursor.current.text with
  | none => exact h.variableReference.leads session
  | some id =>
      rw [leads_bind, leads_entry]
      cases (session.table.entry id).definition with
      | constant value => exact (h.namedConstant id value).leads session
      | function | procedure => exact (h.call hnested).leads session
      | type | program => exact h.dropped hunexpected
      | plainVariable | valueParameter | varParameter | undefined => exact h.variableReference.leads session

theorem factor (h : SpansExpressions related) {nested : Production Node}
    (hnested : Relates related nested) : Relates related (factor nested) := by
  refine ⟨fun session => ?_⟩
  rw [Production.factor, leads_bind, leads_current]
  cases literalNode? session.cursor.current with
  | some node => exact (h.nextToken.bind fun _ => .pure node).leads session
  | none =>
      dsimp only
      split
      · next hkind => exact h.identifierFactor hnested (h.unexpected session (by simp [hkind]))
      · have hparenthesized : Relates related (do
            let _ ← Production.nextToken
            let node ← nested
            Production.expect .rightParen .missingRightParen
            return node) :=
          h.nextToken.bind fun _ => hnested.bind fun _ => (h.expect _ rfl).bind fun _ => .pure _
        exact hparenthesized.leads session
      · have hmissing : Relates related (do
            Production.flag .missingExpression
            return ({ kind := .noOp } : Node)) := (h.flag rfl).bind fun _ => .pure _
        exact hmissing.leads session

theorem operand (h : SpansExpressions related) {nested : Production Node}
    (hnested : Relates related nested) : Relates related (operand nested) :=
  (Relates.read _).bind fun budget => h.operandWithin (h.factor hnested) budget

theorem expressionWithin (h : SpansExpressions related) (depth : Nat) :
    Relates related (expressionWithin depth) := by
  induction depth with
  | zero => exact .throw .unfinished
  | succ depth ih => exact h.operations (h.operand ih) Operator.levels

theorem expression (h : SpansExpressions related) : Relates related expression :=
  (Relates.read _).bind fun depth => h.expressionWithin depth

/-! ## Statements -/

theorem assignment (h : SpansExpressions related) : Relates related assignment := by
  refine h.variableReference.bind fun target => (h.expect _ rfl).bind fun _ => ?_
  refine (Relates.read _).bind fun token => h.expression.bind fun value => ?_
  exact (h.ensure _ token rfl).bind fun _ => (h.require _ rfl).bind fun _ => .pure _

theorem identifierStatement (h : SpansExpressions related) {session : Session}
    (hunexpected : Leads (Production.flag .unexpectedToken) session (fun _ => True)
      fun _ later => related session later) :
    Leads identifierStatement session (fun _ => True) fun _ later => related session later := by
  have hkind : Relates Eq (kindOf session.cursor.current.text) := by
    refine (Relates.read _).bind fun found => ?_
    cases found with
    | some id => exact (Relates.read _).bind fun _ => .pure _
    | none => exact .pure _
  rw [Production.identifierStatement, leads_bind, leads_current]
  refine Leads.bind (hkind.leads session) fun kind _ hsame => ?_
  subst hsame
  cases kind with
  | plainVariable | valueParameter | varParameter | undefined => exact h.assignment.leads session
  | function | procedure =>
      exact ((h.call h.expression).bind fun _ => (h.require _ rfl).bind fun _ => .pure _).leads session
  | program | constant | type => exact h.dropped hunexpected

theorem returnedValue (h : SpansExpressions related) (kind : DefinitionKind) (type : DataType) :
    Relates related (returnedValue kind type) := by
  refine (Relates.read _).bind fun token => .ite (h.expression.bind fun value => ?_) ?_
  · exact (h.ensure _ token rfl).bind fun _ => (h.ensure _ token rfl).bind fun _ => .pure _
  · exact (h.ensure _ token rfl).bind fun _ => .pure _

theorem innerStatement (h : SpansExpressions related) {nested : Production Node}
    (hnested : Relates related nested) : Relates related (innerStatement nested) :=
  hnested.bind fun _ => (h.matchToken _).bind fun _ => .pure _

theorem condition (h : SpansExpressions related) : Relates related condition := by
  refine (h.expect _ rfl).bind fun _ => (Relates.read _).bind fun token => ?_
  refine h.expression.bind fun _ => (h.ensure _ token rfl).bind fun _ => ?_
  exact (h.expect _ rfl).bind fun _ => .pure _

theorem ifStatement (h : SpansExpressions related) {nested : Production Node}
    (hnested : Relates related nested) : Relates related (ifStatement nested) := by
  refine h.nextToken.bind fun _ => h.condition.bind fun _ => ?_
  refine (h.innerStatement hnested).bind fun _ => (h.matchToken _).bind fun _ => ?_
  exact .ite ((h.innerStatement hnested).bind fun _ => .pure _) (.pure _)

theorem whileStatement (h : SpansExpressions related) {nested : Production Node}
    (hnested : Relates related nested) : Relates related (whileStatement nested) :=
  h.nextToken.bind fun _ => h.condition.bind fun _ => (h.innerStatement hnested).bind fun _ => .pure _

theorem doStatement (h : SpansExpressions related) {nested : Production Node}
    (hnested : Relates related nested) : Relates related (doStatement nested) := by
  refine h.nextToken.bind fun _ => (h.innerStatement hnested).bind fun _ => ?_
  refine (h.matchToken _).bind fun _ => .ite ?_ ?_
  · exact h.condition.bind fun _ => .pure _
  · exact (h.flag rfl).bind fun _ => .pure _

/-! ## Declarations -/

theorem namedType (h : SpansExpressions related) : Relates related namedType := by
  refine (Relates.read _).bind fun token => (Relates.typeNamed token.text).bind fun found => ?_
  cases found with
  | none => exact .pure none
  | some id =>
      refine (h.line id token.line).bind fun _ => (Relates.read _).bind fun _ => ?_
      exact h.nextToken.bind fun _ => .pure _

theorem typeSpecifier (h : SpansExpressions related) : Relates related typeSpecifier := by
  refine (Relates.read _).bind fun kind => ?_
  split
  case h_7 | h_8 =>
    refine h.nextToken.bind fun name => .ite (h.nextToken.bind fun _ => .pure _) ?_
    exact (h.flag rfl).bind fun _ => .pure _
  case h_9 => exact .pure none
  all_goals exact h.namedType

theorem requiredType (h : SpansExpressions related) : Relates related requiredType := by
  refine h.typeSpecifier.bind fun found => ?_
  cases found with
  | some type => exact .pure type
  | none => exact (h.flag rfl).bind fun _ => .pure _

theorem variableName (h : SpansExpressions related)
    (hstorage : ∀ name type, Relates related (declareStorage name .plainVariable type)) (type : DataType) :
    Relates related (variableName type) := by
  refine (Relates.read _).bind fun name => .ite ((h.flag rfl).bind fun _ => .pure _) ?_
  refine (hstorage name type).bind fun _ => h.nextToken.bind fun _ => ?_
  refine (h.matchToken _).bind fun _ => .ite (.pure _) ?_
  exact (Relates.read _).bind fun _ => .ite ((h.flag rfl).bind fun _ => .pure _) (.pure _)

theorem variableNames (h : SpansExpressions related) (hname : ∀ type, Relates related (Production.variableName type))
    (typeToken : Token) (type : DataType) : Relates related (variableNames typeToken type) := by
  refine (Relates.read _).bind fun isName => (h.ensure _ typeToken rfl).bind fun _ => ?_
  exact (Relates.loop (fun _ => hname type) ()).bind fun _ => h.expect _ rfl

theorem variableDeclaration (h : SpansExpressions related)
    (hname : ∀ type, Relates related (Production.variableName type)) : Relates related variableDeclaration :=
  (Relates.read _).bind fun typeToken => h.requiredType.bind fun type => h.variableNames hname typeToken type

theorem constantValue (h : SpansExpressions related) : Relates related constantValue := by
  have hmatch (set : KindSet) : Relates related (matchAny set) :=
    (Relates.read _).bind fun _ => .ite (h.nextToken.bind fun _ => .pure true) (.pure false)
  have hsign : Relates related optionalSign :=
    (Relates.read _).bind fun _ => (hmatch _).bind fun _ => .ite (.pure _) (.pure none)
  refine hsign.bind fun sign => (Relates.read _).bind fun token => ?_
  exact (h.ensure _ token rfl).bind fun _ => (hmatch _).bind fun _ => .pure _

theorem constantDefinition (h : SpansExpressions related)
    (hdeclare : ∀ name value type, Relates related (declare name (.constant value) type))
    (declared : Option DataType) : Relates related (constantDefinition declared) := by
  refine (Relates.read _).bind fun name => .ite ((h.flag rfl).bind fun _ => .pure _) ?_
  refine h.nextToken.bind fun _ => (h.expect _ rfl).bind fun _ => (Relates.read _).bind fun valueToken => ?_
  refine h.constantValue.bind fun value => (Relates.forM (fun value => ?_) value).bind fun _ => ?_
  · exact (h.ensure _ valueToken rfl).bind fun _ => hdeclare name value _
  · exact (h.matchToken _).bind fun _ => .ite (.pure _) (.pure _)

theorem constants (h : SpansExpressions related)
    (hdefinition : ∀ declared, Relates related (Production.constantDefinition declared)) :
    Relates related constants := by
  have htype : Relates related constantsType :=
    Relates.startsVariables.bind fun _ => .ite h.typeSpecifier (.pure none)
  refine htype.bind fun declared => ?_
  exact (Relates.loop (fun _ => hdefinition declared) ()).bind fun _ => h.expect _ rfl

/-- What does not hold of every token that is said to be unexpected has to be shown of arrays. -/
theorem typeName (h : SpansExpressions related) (harray : ∀ type, Relates related (arraySuffix type))
    (hdeclare : ∀ name type, Relates related (declare name .type type)) (type : DataType) :
    Relates related (typeName type) :=
  (Relates.read _).bind fun name => .ite (h.nextToken.bind fun _ => (harray type).bind fun _ => hdeclare name _)
    (h.flag rfl)

theorem typeDefinition (h : SpansExpressions related) (hname : ∀ type, Relates related (Production.typeName type)) :
    Relates related typeDefinition :=
  h.requiredType.bind fun type => (hname type).bind fun _ => h.expect _ rfl

/-! ## Parameters -/

theorem typedParameter (h : SpansExpressions related)
    (hstorage : ∀ name type, Relates related (declareStorage name .valueParameter type)) :
    Relates related typedParameter := by
  refine h.typeSpecifier.bind fun found => (Relates.read _).bind fun name => .ite ?_ ?_
  · exact (hstorage name _).bind fun _ => h.nextToken.bind fun _ => .pure _
  · exact (h.flag rfl).bind fun _ => .pure _

theorem parameterEntry (h : SpansExpressions related) (htyped : Relates related Production.typedParameter) :
    Relates related parameterEntry := by
  have huntyped : Relates related untypedParameter :=
    (h.flag rfl).bind fun _ => h.nextToken.bind fun _ => (h.matchToken _).bind fun _ => .pure _
  refine (Relates.read _).bind fun kind => ?_
  split
  case h_4 => exact huntyped.bind fun _ => .pure _
  all_goals exact htyped

theorem parameterEnd (h : SpansExpressions related) : Relates related parameterEnd :=
  (h.synchronize _).bind fun token => .ite (h.nextToken.bind fun _ => .pure _) (h.ensure _ token rfl)

theorem loneVoid (h : SpansExpressions related) : Relates related loneVoid :=
  (Relates.read _).bind fun _ =>
    .ite (h.peekKind.bind fun _ => .ite (h.nextToken.bind fun _ => .pure _) (.pure _)) (.pure _)

theorem parameter (h : SpansExpressions related) (hentry : Relates related Production.parameterEntry)
    (parameters : List EntryId) : Relates related (parameter parameters) :=
  (Relates.read _).bind fun _ =>
    .ite (hentry.bind fun _ => h.parameterEnd.bind fun _ => .pure _) (.pure _)

/-- Whatever a list of parameters does, it does in reading on and in the parameters. -/
theorem enclosedParameters (h : SpansExpressions related) (hentry : Relates related Production.parameterEntry) :
    Relates related enclosedParameters := by
  have hlist : Relates related parameterList := by
    refine h.loneVoid.bind fun _ => (h.synchronize _).bind fun _ => ?_
    refine (Relates.loop (h.parameter hentry) []).bind fun _ => ?_
    exact (h.expect _ rfl).bind fun _ => .pure _
  exact (h.synchronize _).bind fun _ =>
    .ite (h.nextToken.bind fun _ => hlist) ((h.flag rfl).bind fun _ => .pure _)

end SpansExpressions

/-- Where a relation holds of whatever is read on, it holds of the statements in braces if it holds of each of
them. -/
theorem Relates.compoundOf [Std.Refl related] [IsTrans Session related]
    (hreads : ∀ session later, session.Reads later → related session later) {nested : Production Node}
    (hnested : Relates related nested) : Relates related (compoundOf nested) := by
  have of_reads {α : Type} {production : Production α} (h : Relates Reads production) :
      Relates related production := h.mono hreads
  have hdrop (start : Nat) : Relates Reads (dropUnlessMoved start) :=
    (Relates.read _).bind fun _ =>
      .ite ((reads_flag rfl).bind fun _ => reads_nextToken.bind fun _ => .pure _) (.pure _)
  have hlisted (statements : List Node) : Relates related (listedStatement nested statements) := by
    refine (Relates.read _).bind fun token => .ite (.pure _) ((Relates.read _).bind fun start => ?_)
    refine hnested.bind fun _ => (of_reads (reads_matchToken _)).bind fun _ => ?_
    exact (of_reads (hdrop start)).bind fun _ => (of_reads (reads_synchronize _)).bind fun _ => .pure _
  refine (Relates.read _).bind fun token => (of_reads reads_nextToken).bind fun _ => ?_
  exact (Relates.loop hlisted _).bind fun _ => (of_reads (reads_expect _ rfl)).bind fun _ => .pure _

namespace SpansStatements

variable [Std.Refl related] [IsTrans Session related] {routine : EntryId}

theorem returnStatement (h : SpansStatements routine related) :
    Relates related (returnStatement routine) := by
  refine h.nextToken.bind fun _ => ⟨fun session => ?_⟩
  rw [leads_bind, leads_entry, leads_bind, leads_onTable]
  refine (@Relates.leads _ related _ ?_ _).imp fun _ _ hlater =>
    IsTrans.trans _ _ _ (h.target _ session) hlater
  exact (h.returnedValue _ _).bind fun _ => (h.require _ rfl).bind fun _ => .pure _

theorem statementNode (h : SpansStatements routine related) {nested : Production Node}
    (hnested : Relates related nested) : Relates related (statementNode routine nested) := by
  refine ⟨fun session => ?_⟩
  rw [Production.statementNode, leads_bind, leads_currentKind]
  split
  · next hkind => exact h.braces hnested session hkind
  · next hkind => exact h.identifierStatement (h.unexpected session (by simp [hkind]))
  case h_3 | h_4 | h_5 | h_6 => exact (h.storage.bind fun _ => .pure _).leads session
  · exact (h.nextToken.bind fun _ => h.constants.bind fun _ => .pure _).leads session
  · exact (h.doStatement hnested).leads session
  · exact (h.whileStatement hnested).leads session
  · exact (h.ifStatement hnested).leads session
  · exact h.returnStatement.leads session
  · exact refl session

theorem statementWithin (h : SpansStatements routine related) (depth : Nat) :
    Relates related (statementWithin routine depth) := by
  induction depth with
  | zero => exact .throw .unfinished
  | succ depth ih =>
      exact (Relates.read _).bind fun token => (h.statementNode ih).bind fun _ => .pure _

theorem statement (h : SpansStatements routine related) : Relates related (statement routine) :=
  (Relates.read _).bind fun depth => h.statementWithin depth

theorem compound (h : SpansStatements routine related) {session : Session}
    (hbrace : session.cursor.current.kind = .leftBrace) :
    Leads (compound routine) session (fun _ => True) fun _ later => related session later :=
  h.braces h.statement session hbrace

end SpansStatements

/-! ## Routines -/

section

variable [Std.Refl related] [IsTrans Session related]

theorem Relates.markRoutine {id : EntryId} (hchange : ∀ change, Relates related (changeEntry id change))
    (kind : DefinitionKind) (forwarded : Bool) : Relates related (markRoutine id kind forwarded) :=
  (hchange _).bind fun _ => .ite (hchange _) (.pure _)

theorem Relates.openRoutine (hchange : ∀ id change, Relates related (changeRoutine id change))
    (hpush : Relates related (onTable (·.push))) (hslot : Relates related (onTable (·.takeSlot)))
    (parent id : EntryId) (kind : DefinitionKind) (forwarded : Bool) :
    Relates related (openRoutine parent id kind forwarded) := by
  have hopen : Relates related (openScope id) := hpush.bind fun _ => hchange id _
  have hbegin : Relates related (beginProgram id) :=
    (Relates.read _).bind fun table =>
      (Relates.forM (fun program => hchange program _) table.program).bind fun _ => hslot.bind fun _ => .pure _
  refine (Relates.read _).bind fun entry => hopen.bind fun _ => .ite hbegin ?_
  exact .ite (hchange parent _) (.pure _)

/-- After the parameters a function gets its type. -/
theorem SpansExpressions.header (h : SpansExpressions related) {id : EntryId}
    (hchange : ∀ change, Relates related (changeRoutine id change))
    (htype : ∀ type, Relates related (changeEntry id fun entry => { entry with type := some type }))
    (hparameter : Relates related Production.typedParameter) (kind : DefinitionKind) (type : Option DataType) :
    Relates related (header id kind type) := by
  have hparameters : Relates related (formalParameters id) :=
    (h.enclosedParameters (h.parameterEntry hparameter)).bind fun _ => hchange _
  have hfunction : Relates related (functionType id (type.getD .undefined)) :=
    (Relates.read _).bind fun token => (h.ensure _ token rfl).bind fun _ => htype _
  exact hparameters.bind fun _ => .ite hfunction (.pure _)

theorem SpansStatements.bodyOrForward {id : EntryId} (h : SpansStatements id related)
    (hchange : ∀ change, Relates related (changeRoutine id change)) : Relates related (bodyOrForward id) := by
  refine ⟨fun session => ?_⟩
  rw [Production.bodyOrForward, leads_bind, leads_currentKind]
  split
  · next hbrace =>
      let opened : Session := { session with
        table := session.table.modifyRoutine id fun known => { known with stage := some .declared } }
      have hopened : related session opened := (hchange _).leads session
      have hbody : Leads (Production.compound id) opened (fun _ => True) fun _ later => related opened later :=
        h.compound hbrace
      rw [leads_bind, setStage, leads_changeRoutine]
      refine hbody.bind fun body later hlater => ?_
      exact IsTrans.trans _ _ _ (IsTrans.trans _ _ _ hopened hlater) ((hchange _).leads later)
  · exact ((hchange _).bind fun _ => h.nextToken.bind fun _ => .pure _).leads session
  · exact (hchange _).leads session

end

/-! ## Items -/

/-- Whether a relation holds of whatever is done with an item of a unit: besides what is done inside statements,
types are defined and routines are compiled, and statements are appended to the body of the program. -/
structure SpansItems (program : EntryId) (related : Session → Session → Prop) : Prop extends
    SpansStatements program related where
  global : ∀ type, Relates related (variableName type)
  types : Relates related typeDefinition
  routine : ∀ type, Relates related (routine program type)
  append : ∀ change, Relates related (changeRoutine program change)

namespace SpansItems

variable [Std.Refl related] [IsTrans Session related] {program : EntryId}

theorem variablesOrFunction (h : SpansItems program related) :
    Relates related (variablesOrFunction fun type => Production.routine program (some type)) := by
  have hstarts : Relates related startsHeader :=
    (Relates.read _).bind fun _ => .ite (h.peekKind.bind fun _ => .pure _) (.pure false)
  refine (Relates.read _).bind fun typeToken => h.requiredType.bind fun type => ?_
  exact hstarts.bind fun _ => .ite (h.routine _) (h.variableNames h.global typeToken type)

theorem declaration (h : SpansItems program related) : Relates related (declaration program) := by
  refine (Relates.read _).bind fun kind => ?_
  split
  · exact h.nextToken.bind fun _ => h.constants
  · exact h.nextToken.bind fun _ => h.types
  · exact Relates.startsVariables.bind fun _ => .ite h.variablesOrFunction (h.routine none)

theorem programStatement (h : SpansItems program related) : Relates related (programStatement program) :=
  h.statement.bind fun _ => (h.matchToken _).bind fun _ => h.append _

theorem item (h : SpansItems program related) : Relates related (item program) := by
  have hstarts : Relates related startsProgramStatement := by
    refine (Relates.read _).bind fun kind => ?_
    split
    · exact .pure _
    · exact h.peekKind.bind fun _ => .pure _
    · exact .pure _
  exact hstarts.bind fun _ => .ite h.programStatement h.declaration

/-- Where a relation holds of whatever is read on, it does not matter what is dropped. -/
theorem nextItem (h : SpansItems program related)
    (hreads : ∀ session later, session.Reads later → related session later) : Relates related (nextItem program) := by
  have hdrop (start : Nat) : Relates Reads (dropItemUnlessMoved start) :=
    (Relates.read _).bind fun _ => (Relates.read _).bind fun _ =>
      .ite ((reads_flag rfl).bind fun _ => reads_nextToken.bind fun _ => .pure _) (.pure _)
  refine (Relates.read _).bind fun _ => .ite (.pure _) ?_
  refine (Relates.read _).bind fun start => (h.synchronize _).bind fun _ => ?_
  exact .ite (.pure _) (h.item.bind fun _ => ((hdrop start).mono hreads).bind fun _ => .pure _)

end SpansItems

/-! ## Names -/

theorem stays_addLine (id : EntryId) (line : Nat) :
    Stays stores owner (changeEntry id (·.addLine line)) := by
  refine ⟨fun session => ?_⟩
  exact .single (.extend (.mention id line))

/-- Two extensions in a row. -/
theorem moves_extend {session : Session} {first second : SymbolTable}
    (h : session.table.Extends stores owner first) (h' : first.Extends stores owner second) :
    Moves stores owner session { session with table := second } := by
  have hfirst : Move stores owner session { session with table := first } := .extend h
  have hsecond : Move stores owner { session with table := first } { session with table := second } :=
    .extend h'
  exact (Relation.ReflTransGen.single hfirst).tail hsecond

theorem stays_declare (name : Token) {definition : Definition} (type : DataType)
    (hroutine : definition.routine? = none) (hslot : definition.slot? = none) :
    Stays stores owner (declare name definition type) := by
  refine ⟨fun session => ?_⟩
  unfold declare
  cases hlocal : session.table.lookupLocal name.text with
  | some taken =>
      simp only [enterLocal, SymbolTable.enterLocal, hlocal, leads_bind, leads_onTable, leads_flagAt]
      exact .single (.redefined hlocal)
  | none =>
      simp only [enterLocal, SymbolTable.enterLocal, hlocal, leads_bind, leads_onTable,
        leads_changeEntry]
      exact moves_extend (.declare name.text definition type hlocal hroutine hslot)
        (.mention session.table.entries.size name.line)

theorem stays_declareStorage (name : Token) {kind : DefinitionKind} (type : DataType)
    (hstores : kind ∈ stores) (hkind : kind = .plainVariable ∨ kind = .valueParameter) :
    Stays stores owner (declareStorage name kind type) := by
  refine ⟨fun session => ?_⟩
  unfold declareStorage
  cases hlocal : session.table.lookupLocal name.text with
  | some taken =>
      simp only [enterLocal, SymbolTable.enterLocal, hlocal, leads_bind, leads_onTable, leads_flagAt,
        leads_pure]
      exact .single (.redefined hlocal)
  | none =>
      simp only [enterLocal, SymbolTable.enterLocal, hlocal, leads_bind, leads_onTable,
        leads_changeEntry, leads_pure]
      exact moves_extend (.store name.text kind type hlocal hstores hkind)
        (.mention session.table.entries.size name.line)

/-! ## Expressions and statements in a scope -/

/-- A name without a meaning is entered in the innermost scope, where it is free. -/
theorem stays_identifierEntry (name : Token) : Stays stores owner (identifierEntry name) := by
  refine ⟨fun session => ?_⟩
  unfold identifierEntry
  cases hlookup : session.table.lookup name.text with
  | some id =>
      have hentry : Stays stores owner (do
          ensure ((← entry id).kind != .undefined) name .identifierUndefined
          return id) :=
        (Relates.read _).bind fun _ => (reads_ensure _ name rfl).stays.bind fun _ => .pure id
      rw [leads_bind, leads_lookup, hlookup]
      exact hentry.leads session
  | none =>
      have hlocal := SymbolTable.lookupLocal_of_lookup_none hlookup
      simp only [leads_bind, leads_lookup, hlookup, leads_flagAt, enterOrDetach,
        SymbolTable.enterLocal, hlocal, leads_onTable, leads_changeEntry, leads_pure]
      let flagged : Session := { session with
        diagnostics := session.diagnostics ++ [Diagnostic.atToken name .identifierUndefined] }
      have hreport : Move stores owner session flagged := .read (.flag session name rfl)
      have hextend : Move stores owner flagged { flagged with table := _ } :=
        .extend (.declare name.text .undefined .undefined hlocal rfl rfl)
      exact (Relation.ReflTransGen.single hreport).tail hextend

theorem stays_resolveIdentifier : Stays stores owner resolveIdentifier :=
  .resolveIdentifier stays_identifierEntry stays_addLine

theorem spansExpressions_moves : SpansExpressions (Moves stores owner) :=
  .of_reads (fun _ _ hreads => .single (.read hreads)) stays_resolveIdentifier stays_addLine

/-! ## Declarations in a scope -/

theorem stays_typeSpecifier : Stays stores owner typeSpecifier :=
  spansExpressions_moves.typeSpecifier

theorem stays_requiredType : Stays stores owner requiredType :=
  spansExpressions_moves.requiredType

theorem stays_variableName (type : DataType) : Stays [.plainVariable] owner (variableName type) :=
  spansExpressions_moves.variableName (fun name type => stays_declareStorage name type (by simp) (Or.inl rfl)) type

theorem stays_variableNames (typeToken : Token) (type : DataType) :
    Stays [.plainVariable] owner (variableNames typeToken type) :=
  spansExpressions_moves.variableNames stays_variableName typeToken type

theorem stays_variableDeclaration : Stays [.plainVariable] owner variableDeclaration :=
  spansExpressions_moves.variableDeclaration stays_variableName

theorem reads_startsVariables : Relates Reads startsVariables :=
  .startsVariables

theorem reads_startsHeader : Relates Reads startsHeader :=
  (Relates.read _).bind fun _ => .ite (reads_peekKind.bind fun _ => .pure _) (.pure false)

theorem reads_constantValue : Relates Reads constantValue := by
  have hsign : Relates Reads optionalSign :=
    (Relates.read _).bind fun _ => (reads_matchAny _).bind fun _ => .ite (.pure _) (.pure none)
  refine hsign.bind fun sign => (Relates.read _).bind fun token => ?_
  exact (reads_ensure _ token rfl).bind fun _ => (reads_matchAny _).bind fun _ => .pure _

theorem stays_constantDefinition (declared : Option DataType) :
    Stays stores owner (constantDefinition declared) :=
  spansExpressions_moves.constantDefinition (fun name _ type => stays_declare name type rfl rfl) declared

theorem stays_constants : Stays stores owner constants :=
  spansExpressions_moves.constants stays_constantDefinition

theorem reads_arrayCount : Relates Reads arrayCount := by
  refine (Relates.read _).bind fun token => ?_
  split
  · exact reads_nextToken.bind fun _ => .pure _
  · exact (reads_flag rfl).bind fun _ => .pure _

theorem reads_arraySuffix (type : DataType) : Relates Reads (arraySuffix type) := by
  have harray : Relates Reads (arrayOf type) := by
    unfold arrayOf
    cases type.scalar? with
    | none => exact (reads_flag rfl).bind fun _ => .pure _
    | some element => exact reads_arrayCount.bind fun _ => (reads_expect _ rfl).bind fun _ => .pure _
  exact (reads_matchToken _).bind fun _ => .ite harray (.pure type)

theorem stays_arraySuffix (type : DataType) : Stays stores owner (arraySuffix type) :=
  (reads_arraySuffix type).stays

theorem stays_typeName (type : DataType) : Stays stores owner (typeName type) :=
  spansExpressions_moves.typeName stays_arraySuffix (fun name type => stays_declare name type rfl rfl) type

theorem stays_typeDefinition : Stays stores owner typeDefinition :=
  spansExpressions_moves.typeDefinition stays_typeName

theorem spansStatements_moves (routine : EntryId) :
    SpansStatements routine (Moves [.plainVariable] routine) where
  toSpansExpressions := spansExpressions_moves
  storage := stays_variableDeclaration
  constants := stays_constants
  target type _ := .single (.extend (.target type))
  braces hnested session _ := (hnested.compoundOf fun _ _ hreads => .single (.read hreads)).leads session

theorem stays_statement (routine : EntryId) : Stays [.plainVariable] routine (statement routine) :=
  (spansStatements_moves routine).statement

theorem stays_compound (routine : EntryId) : Stays [.plainVariable] routine (compound routine) :=
  (stays_statement routine).compoundOf fun _ _ hreads => .single (.read hreads)

/-! ## Parameters -/

theorem reads_untypedParameter : Relates Reads untypedParameter :=
  (reads_flag rfl).bind fun _ => reads_nextToken.bind fun _ =>
    (reads_matchToken _).bind fun _ => .pure _

theorem stays_typedParameter : Stays [.valueParameter] owner typedParameter :=
  spansExpressions_moves.typedParameter fun name type => stays_declareStorage name type (by simp) (Or.inr rfl)

theorem stays_parameterEntry : Stays [.valueParameter] owner parameterEntry :=
  spansExpressions_moves.parameterEntry stays_typedParameter

theorem reads_parameterEnd : Relates Reads parameterEnd :=
  (reads_synchronize _).bind fun token =>
    .ite (reads_nextToken.bind fun _ => .pure _) (reads_ensure _ token rfl)

theorem reads_loneVoid : Relates Reads loneVoid :=
  (Relates.read _).bind fun _ =>
    .ite (reads_peekKind.bind fun _ => .ite (reads_nextToken.bind fun _ => .pure _) (.pure _)) (.pure _)

theorem stays_parameter (parameters : List EntryId) : Stays [.valueParameter] owner (parameter parameters) :=
  spansExpressions_moves.parameter stays_parameterEntry parameters

theorem stays_enclosedParameters : Stays [.valueParameter] owner enclosedParameters :=
  spansExpressions_moves.enclosedParameters stays_parameterEntry

end FrontEnd.Production
