import FrontEnd.Proofs.Balance
import FrontEnd.Proofs.Grammar
import FrontEnd.Proofs.ParameterList

/-!
# The spelling of what is read

What a production reads without a report is spelled in the form of its construct (`Spelled`).  This section does
the expressions and the declarations.

## Strategy

The form of a production is put together as the production is: what is read first comes before what is read
next (`Spelled.bind`), what reads nothing does not count (`Spelled.skip`), and a loop repeats what a turn reads
(`Spelled.loop`).  Where a token is consumed, its kind has been looked at before, or an error has been reported.
-/

namespace FrontEnd

namespace Session

/-- The kinds of the tokens that are still to be read. -/
def kinds (session : Session) : List TokenKind :=
  session.cursor.unread.map Token.kind

/-- Whether all tokens are as the scanner makes them, and the current one is a token. -/
structure Fit (session : Session) : Prop where
  tokens : ∀ token ∈ session.cursor.unread, token.Fits
  current : session.cursor.current.kind ≠ .error

/-- Whether what lies between the current tokens of two sessions is spelled in a form, and the later one is a
token. -/
structure Spells (form : Form) (session later : Session) : Prop where
  passes : ∃ read, session.Passes read later
  current : later.cursor.current.kind ≠ .error
  spelled : form.Matches accepted session.kinds later.kinds

variable {session between later : Session} {form form' : Form} {forms : List Form}

namespace Spells

theorem fit (h : session.Spells form later) (hfit : session.Fit) : later.Fit := by
  obtain ⟨read, hpasses⟩ := h.passes
  exact ⟨fun token hmem => hfit.tokens token (hpasses.unread ▸ List.mem_append_right _ hmem), h.current⟩

theorem mono (h : session.Spells form later)
    (himp : ∀ before after, form.Matches accepted before after → form'.Matches accepted before after) :
    session.Spells form' later :=
  ⟨h.passes, h.current, himp _ _ h.spelled⟩

/-- A form that fits nothing is spelled by nothing. -/
theorem still (hfit : session.Fit) (h : form.Matches accepted session.kinds session.kinds) :
    session.Spells form session :=
  ⟨⟨[], .refl session⟩, hfit.current, h⟩

theorem cons (h : session.Spells form between) (h' : between.Spells (.sequence forms) later) :
    session.Spells (.sequence (form :: forms)) later := by
  obtain ⟨read, hpasses⟩ := h.passes
  obtain ⟨more, hmore⟩ := h'.passes
  exact ⟨⟨read ++ more, hpasses.trans hmore⟩, h'.current, .cons h.spelled h'.spelled⟩

/-- What is spelled depends on the tokens only. -/
theorem of_cursor (h : between.Spells form later) (hcursor : between.cursor = session.cursor) :
    session.Spells form later := by
  obtain ⟨read, hpasses⟩ := h.passes
  refine ⟨⟨read, ?_, ?_⟩, h.current, ?_⟩
  · rw [← hcursor, hpasses.unread]
  · rw [← hcursor, hpasses.position]
  · rw [kinds, ← hcursor]
    exact h.spelled

end Spells

theorem Fit.of_cursor (hfit : session.Fit) (hcursor : later.cursor = session.cursor) : later.Fit :=
  ⟨hcursor ▸ hfit.tokens, hcursor ▸ hfit.current⟩

end Session

namespace Production

open Session

variable {α β σ : Type} {session : Session} {form form' : Form} {forms forms' : List Form}

/-- Whether what a production reads without a report is spelled in a form. -/
def Spelled (form : Form) (production : Production α) (session : Session) : Prop :=
  Cleanly production session fun _ later => session.Fit → session.Spells form later

namespace Spelled

protected theorem pure (answer : α) : Spelled (.sequence []) (pure answer) session :=
  Cleanly.pure fun hfit => .still hfit .nil

theorem mono {production : Production α} (h : Spelled form production session)
    (himp : ∀ before after, form.Matches accepted before after → form'.Matches accepted before after) :
    Spelled form' production session :=
  Cleanly.mono h fun _ _ hspells hfit => (hspells hfit).mono himp

/-- What is read first comes before what is read next. -/
protected theorem bind {production : Production α} {next : α → Production β}
    (h : Spelled form production session)
    (hnext : ∀ answer middle, Spelled (.sequence forms) (next answer) middle) :
    Spelled (.sequence (form :: forms)) (production >>= next) session := by
  refine Cleanly.bind h fun answer middle => Cleanly.mono (hnext answer middle) fun _ later hrest hfirst hfit => ?_
  exact (hfirst hfit).cons (hrest ((hfirst hfit).fit hfit))

theorem last {production : Production α} (h : Spelled form production session) :
    Spelled (.sequence [form]) production session :=
  h.mono fun _ _ => Form.Matches.single

/-- What reads nothing does not count. -/
theorem skip {production : Production α} {next : α → Production β} (h : Relates Rests production)
    (hnext : ∀ answer middle, middle.cursor = session.cursor → Spelled form (next answer) middle) :
    Spelled form (production >>= next) session := by
  refine Leads.bind (h.leads session) fun answer middle hrests => ?_
  refine Leads.imp (hnext answer middle hrests.cursor) ?_
  rintro _ later ⟨hprolongs, hspells⟩
  have hbefore : session.Prolongs middle := hrests.reports
  refine ⟨hbefore.trans hprolongs, fun hclean hfit => ?_⟩
  obtain ⟨-, hafter⟩ := hbefore.squeeze hprolongs hclean
  exact (hspells hafter (hfit.of_cursor hrests.cursor)).of_cursor hrests.cursor

theorem rest {production : Production α} (h : Relates Rests production) :
    Spelled (.sequence []) production session := by
  refine (h.leads session).imp fun _ later hrests => ⟨hrests.reports, fun _ hfit => ?_⟩
  exact (Spells.still (hfit.of_cursor hrests.cursor) .nil).of_cursor hrests.cursor

/-- What reads nothing may come last. -/
theorem before {production : Production α} {next : α → Production β} (h : Spelled form production session)
    (hnext : ∀ answer, Relates Rests (next answer)) : Spelled form (production >>= next) session :=
  (h.bind fun answer _ => .rest (hnext answer)).mono fun _ _ => Form.Matches.of_single

/-- A production is what its current token makes of it. -/
theorem current {next : Token → Production β} (h : Spelled form (next session.cursor.current) session) :
    Spelled form (Production.current >>= next) session :=
  h

/-- A loop is spelled in a form if its last turn is, and if what another turn reads may come before it. -/
theorem turns {last again : Form} {step : σ → Production (ForInStep σ)}
    (hstep : ∀ state session, Cleanly (step state) session
      (AfterTurn (fun _ later => session.Fit → session.Spells last later)
        fun _ later => session.Fit → session.Spells again later))
    (hlast : ∀ before after, last.Matches accepted before after → form.Matches accepted before after)
    (hagain : ∀ before between after, again.Matches accepted before between →
      form.Matches accepted between after → form.Matches accepted before after)
    (state : σ) (session : Session) : Spelled form (loop step state) session := by
  apply Cleanly.loop ?_ state session
  intro state session
  refine (hstep state session).mono ?_
  rintro (_ | _) later hturn
  · exact fun hfit => (hturn hfit).mono hlast
  · intro _ ended hrest hfit
    obtain ⟨read, hpasses⟩ := (hturn hfit).passes
    have hmore := hrest ((hturn hfit).fit hfit)
    obtain ⟨more, hmorePasses⟩ := hmore.passes
    exact ⟨⟨_, hpasses.trans hmorePasses⟩, hmore.current, hagain _ _ _ (hturn hfit).spelled hmore.spelled⟩

/-- The turns of a loop are spelled one after the other. -/
protected theorem loop {step : σ → Production (ForInStep σ)}
    (hstep : ∀ state session, Cleanly (step state) session
      (AfterTurn (fun _ later => session.Fit → session.Spells (.sequence []) later)
        fun _ later => session.Fit → session.Spells form later))
    (state : σ) (session : Session) : Spelled (.repeated form) (loop step state) session := by
  apply turns hstep ?_ ?_ state session
  · intro before after hnil
    cases hnil
    exact .stop
  · exact fun before between after => .again

/-- A loop in which a comma decides whether there is another turn. -/
theorem loop_separated {step : σ → Production (ForInStep σ)}
    (hstep : ∀ state session, Cleanly (step state) session
      (AfterTurn (fun _ later => session.Fit → session.Spells form later)
        fun _ later => session.Fit → session.Spells (.sequence [form, .word [.comma]]) later))
    (state : σ) (session : Session) : Spelled (.separated form) (loop step state) session := by
  apply turns hstep ?_ ?_ state session
  · exact fun before after hitem => .cons hitem (.single .stop)
  · intro before between after hturn hrest
    cases hturn with
    | cons hitem hcomma => exact hitem.separated_cons hcomma.of_single hrest

end Spelled

/-! ## Tokens -/

theorem spelled_nextToken {kinds : List TokenKind} (hkind : session.cursor.current.kind ∈ kinds)
    (hend : TokenKind.endOfFile ∉ kinds) : Spelled (.word kinds) nextToken session := by
  refine (cleanly_nextToken session).mono fun _ later => ?_
  rintro ⟨-, -, hpasses, hplain⟩ hfit
  have hnot : session.cursor.current.kind ≠ .endOfFile := fun hsame => hend (hsame ▸ hkind)
  rw [Cursor.consumed_of_not_end (isEnd_of_kind rfl hnot)] at hpasses
  refine ⟨⟨_, hpasses⟩, (hplain fun token hmem => (hfit.tokens token hmem).explained).current, ?_⟩
  rw [Session.kinds, hpasses.unread]
  exact .word hkind

/-- A production that begins with a token of a known kind. -/
theorem spelled_word {kinds : List TokenKind} {next : Token → Production β}
    (hkind : session.cursor.current.kind ∈ kinds) (hend : TokenKind.endOfFile ∉ kinds)
    (hnext : ∀ answer middle, Spelled (.sequence forms) (next answer) middle) :
    Spelled (.sequence (.word kinds :: forms)) (nextToken >>= next) session :=
  (spelled_nextToken hkind hend).bind hnext

/-- What a token decides, if it is there, begins with it. -/
theorem spelled_matchToken {kind : TokenKind} {next : Bool → Production β} (hend : kind ≠ .endOfFile)
    (himp : ∀ before after, (Form.sequence (.word [kind] :: forms)).Matches accepted before after →
      form.Matches accepted before after)
    (hyes : ∀ middle, Spelled (.sequence forms) (next true) middle)
    (hno : session.cursor.current.kind ≠ kind → Spelled form (next false) session) :
    Spelled form (matchToken kind >>= next) session := by
  by_cases hkind : session.cursor.current.kind = kind
  · have hread : Spelled (.sequence (.word [kind] :: forms)) (nextToken >>= fun _ => next true) session :=
      spelled_word (by simpa using hkind) (by simpa using hend.symm) fun _ => hyes
    rw [matchToken, bind_assoc, Spelled, Cleanly, leads_bind, leads_check, beq_iff_eq.mpr hkind, if_pos rfl,
      bind_assoc]
    exact hread.mono himp
  · rw [Spelled, Cleanly, leads_bind, leads_matchToken_of_ne hkind]
    exact hno hkind

theorem spelled_expect {kind : TokenKind} (hkind : kind ≠ .endOfFile) (missing : ErrorKind) (session : Session) :
    Spelled (.word [kind]) (expect kind missing) session := by
  refine (cleanly_expect hkind missing session).mono fun _ later => ?_
  rintro ⟨hcurrent, -, hpasses, hplain⟩ hfit
  refine ⟨⟨_, hpasses⟩, (hplain fun token hmem => (hfit.tokens token hmem).explained).current, ?_⟩
  rw [kinds, hpasses.unread]
  exact .word (by simpa using hcurrent)

/-! ## Expressions -/

theorem spelled_operations {operand : Production Node} (h : ∀ session, Spelled (.part .operand) operand session)
    {levels : List OperatorLevel} (hlevels : ∀ level ∈ levels, TokenKind.endOfFile ∉ level.map Prod.fst)
    (session : Session) : Spelled (.operations (.part .operand) levels) (operations operand levels) session := by
  induction levels generalizing session with
  | nil => exact h session
  | cons level tighter ih =>
      have htighter := ih fun other hmem => hlevels other (List.mem_cons_of_mem _ hmem)
      refine (htighter session).bind fun left middle => (Spelled.loop (fun left session => ?_) left middle).last
      rw [operation, Cleanly, leads_bind, leads_current]
      split
      · exact Cleanly.pure fun hfit => .still hfit .nil
      · next operator hlookup =>
          obtain ⟨before, after, rfl, -⟩ := List.lookup_eq_some_iff.mp hlookup
          refine Cleanly.bind (spelled_nextToken ?_ (hlevels _ (List.mem_cons_self ..))) fun _ read => ?_
          · simp
          refine Cleanly.bind (htighter read) fun right joined => ?_
          refine Cleanly.bind (Spelled.rest (rests_binaryNode operator _ left right)) fun node later => .pure ?_
          intro hnode hright hsign hfit
          have hread := (hsign hfit).fit hfit
          exact (hsign hfit).cons ((hright hread).cons (hnode ((hright hread).fit hread)))

theorem spelled_operandWithin {factor : Production Node} (h : ∀ session, Spelled (.part .factor) factor session)
    (depth : Nat) (session : Session) : Spelled (.part .operand) (operandWithin factor depth) session := by
  induction depth generalizing session with
  | zero => trivial
  | succ depth ih =>
      have hsigned {next : Node → Production Node} (hnext : ∀ node, Relates Rests (next node))
          (hkind : session.cursor.current.kind ∈ [TokenKind.minus, .plus, .not]) :
          Spelled (.part .operand) (nextToken >>= fun _ => operandWithin factor depth >>= next) session := by
        have hread := spelled_word hkind (by decide) fun _ middle => (ih middle).bind fun node _ => .rest (hnext node)
        exact hread.mono fun _ _ hmatches => .part (.choice (List.mem_cons_self ..) hmatches)
      refine Spelled.current ?_
      split
      case h_1 hkind | h_2 hkind => exact hsigned (fun node => rests_signed _ node) (by simp [hkind])
      case h_3 hkind => exact hsigned (fun node => rests_negated _ node) (by simp [hkind])
      case h_4 => exact (h session).mono fun _ _ hmatches => .part (.choice (by simp) hmatches)

/-- A name that is read. -/
theorem spelled_name {next : Token → Production β} (hkind : session.cursor.current.kind = .identifier)
    (hnext : ∀ answer middle, Spelled (.sequence forms) (next answer) middle) :
    Spelled (.sequence (.word [.identifier] :: forms)) (nextToken >>= next) session :=
  spelled_word (by simp [hkind]) (by decide) hnext

theorem spelled_variableReference (hkind : session.cursor.current.kind = .identifier) :
    Spelled (.sequence [.word [.identifier]]) variableReference session := by
  refine .skip rests_resolveIdentifier fun id middle hcursor => ?_
  refine .skip (Relates.read _) fun entry looked hlooked => spelled_name ?_ fun _ _ => .pure _
  rw [hlooked, hcursor, hkind]

theorem spelled_namedConstant (id : EntryId) (value : ConstantValue)
    (hkind : session.cursor.current.kind = .identifier) :
    Spelled (.sequence [.word [.identifier]]) (namedConstant id value) session := by
  refine Spelled.current (.skip (rests_changeEntry id _) fun _ middle hcursor => ?_)
  refine .skip (Relates.read _) fun entry looked hlooked => spelled_name ?_ fun _ _ => .pure _
  rw [hlooked, hcursor, hkind]

/-- What a turn of a loop leads to in which a comma decides whether there is another. -/
abbrev Turns (form : Form) (session : Session) : ForInStep σ → Session → Prop :=
  AfterTurn (fun _ later => session.Fit → session.Spells form later)
    fun _ later => session.Fit → session.Spells (.sequence [form, .word [.comma]]) later

/-- The comma after what a turn reads decides.  Without it the loop ends, or an error is recorded. -/
theorem Spelled.turn {production : Production α} {form : Form} (h : Spelled form production session)
    (more : α → σ) (rest : α → Production (ForInStep σ))
    (hrest : ∀ answer middle, Cleanly (rest answer) middle (AfterTurn (fun _ later => later = middle)
      fun _ _ => False)) :
    Cleanly (do
      let answer ← production
      if ← matchToken .comma then return .yield (more answer) else rest answer) session (Turns form session) := by
  refine Cleanly.bind h fun answer middle => ?_
  by_cases hcomma : middle.cursor.current.kind = .comma
  · have hread : Spelled (.word [.comma]) nextToken middle := spelled_nextToken (by simp [hcomma]) (by decide)
    rw [matchToken, bind_assoc, Cleanly, leads_bind, leads_check, beq_iff_eq.mpr hcomma, if_pos rfl, bind_assoc]
    refine Cleanly.bind hread fun _ later => Cleanly.pure fun hnext hitem hfit => ?_
    exact (hitem hfit).cons ((hnext ((hitem hfit).fit hfit)).mono fun _ _ => .single)
  · rw [Cleanly, leads_bind, leads_matchToken_of_ne hcomma]
    refine Cleanly.mono (hrest answer middle) ?_
    rintro (last | again) later hended hitem
    · exact (show later = middle from hended) ▸ hitem
    · exact hended.elim

section

variable {nested : Production Node} (hnested : ∀ session, Spelled (.part .expression) nested session)

include hnested

theorem spelled_arguments (formals : List DataType) (session : Session) :
    Spelled (.optional (.separated (.part .expression))) (arguments nested formals) session := by
  rw [arguments, Spelled, Cleanly, leads_bind, leads_check]
  split
  · exact Cleanly.pure fun hfit => .still hfit .absent
  · refine (Spelled.loop_separated (fun arguments session => ?_) [] session).mono fun _ _ => .present
    have hvalue : Spelled (.part .expression) (do
        let token ← current
        let value ← nested
        ensure (formals[arguments.length]?.all (·.accepts value.type)) token .incompatibleTypes
        return value) session :=
      Spelled.current ((hnested session).before fun _ => (rests_ensure _ _ _).bind fun _ => .pure _)
    have hturn := hvalue.turn (fun value => arguments ++ [value])
      (fun value => return .done (arguments ++ [value])) fun _ _ => .pure rfl
    simpa only [argument, bind_assoc, pure_bind] using hturn

theorem spelled_call (hkind : session.cursor.current.kind = .identifier) :
    Spelled (.part .call) (call nested) session := by
  refine Spelled.mono ?_ fun _ _ => .part
  refine Spelled.current (.skip rests_resolveIdentifier fun id middle hcursor => ?_)
  refine spelled_name (by rw [hcursor, hkind]) fun _ named => ?_
  refine .skip (Relates.read _) fun known looked _ => ?_
  refine spelled_matchToken (by decide) (fun _ _ hmatches => hmatches) (fun entered => ?_) fun _ => ?_
  · refine (spelled_arguments hnested _ entered).bind fun arguments read => ?_
    refine (spelled_expect (by decide) _ read).bind fun _ closed => .rest ?_
    exact (rests_ensure _ _ _).bind fun _ => .pure _
  · exact Cleanly.of_flag _ (.pure _)

theorem spelled_identifierFactor (hkind : session.cursor.current.kind = .identifier) :
    Spelled (.part .factor) (identifierFactor nested) session := by
  have hname {production : Production Node} (h : Spelled (.sequence [.word [.identifier]]) production session) :
      Spelled (.part .factor) production session :=
    h.mono fun _ _ hmatches => .part (.choice (by simp) hmatches.of_single)
  refine Spelled.current ?_
  rw [Spelled, Cleanly, leads_bind, leads_lookup]
  split
  · exact hname (spelled_variableReference hkind)
  · next id _ =>
      rw [leads_bind, leads_entry]
      split
      · exact hname (spelled_namedConstant id _ hkind)
      · exact (spelled_call hnested hkind).mono fun _ _ hmatches => .part (.choice (by simp) hmatches)
      · exact (spelled_call hnested hkind).mono fun _ _ hmatches => .part (.choice (by simp) hmatches)
      · exact Cleanly.of_flag _ (reads_nextToken.prolongs.bind fun _ => .pure _)
      · exact Cleanly.of_flag _ (reads_nextToken.prolongs.bind fun _ => .pure _)
      · exact hname (spelled_variableReference hkind)

theorem spelled_factor (session : Session) : Spelled (.part .factor) (factor nested) session := by
  refine Spelled.current ?_
  split
  · next node hliteral =>
      have hkind : session.cursor.current.kind ∈ [TokenKind.integer, .real, .character, .string] := by
        unfold literalNode? at hliteral
        split at hliteral <;> simp_all
      exact (spelled_nextToken hkind (by decide)).before (fun _ => .pure _)
        |>.mono fun _ _ hmatches => .part (.choice (List.mem_cons_self ..) hmatches)
  · split
    · next hkind => exact spelled_identifierFactor hnested hkind
    · next hkind =>
        refine Spelled.mono ?_ fun _ _ hmatches => .part (.choice (List.getLast_mem (by simp)) hmatches)
        refine spelled_word (by simp [hkind]) (by decide) fun _ middle => (hnested middle).bind fun node read => ?_
        exact (spelled_expect (by decide) _ read).bind fun _ _ => .pure node
    · exact Cleanly.of_flag _ (.pure _)

end

theorem spelled_expressionWithin (depth : Nat) (session : Session) :
    Spelled (.part .expression) (expressionWithin depth) session := by
  induction depth generalizing session with
  | zero => trivial
  | succ depth ih =>
      have hoperand (session : Session) : Spelled (.part .operand) (operand (expressionWithin depth)) session := by
        rw [operand, Spelled, Cleanly, leads_bind, leads_budget]
        exact spelled_operandWithin (spelled_factor ih) _ session
      exact (spelled_operations hoperand (by decide) session).mono fun _ _ hmatches => .part hmatches

theorem spelled_expression (session : Session) : Spelled (.part .expression) expression session := by
  rw [expression, Spelled, Cleanly, leads_bind, leads_budget]
  exact spelled_expressionWithin _ session

/-! ## Types -/

/-- The kinds of tokens that can name a type by themselves. -/
def typeWords : List TokenKind :=
  [.intWord, .floatWord, .doubleWord, .charWord, .voidWord, .identifier]

/-- A type that is found is read, and else nothing is. -/
theorem cleanly_typeSpecifier_of_word (hkind : session.cursor.current.kind ∈ typeWords) :
    Cleanly typeSpecifier session fun found later => session.Fit →
      (found = none ∧ later = session) ∨ (found.isSome ∧ session.Spells (.part .type) later) := by
  have hnamed : typeSpecifier session = namedType session := by
    rw [typeSpecifier, currentKind_bind]
    simp only [typeWords, List.mem_cons, List.not_mem_nil, or_false] at hkind
    rcases hkind with h | h | h | h | h | h <;> rw [h]
  rw [Cleanly, Leads, hnamed, ← Leads, namedType, leads_bind, leads_current, typeNamed, leads_bind, leads_bind,
    leads_table, leads_pure]
  split
  · exact Cleanly.pure fun _ => Or.inl ⟨rfl, rfl⟩
  · next id _ =>
      rw [leads_bind, leads_changeEntry, leads_bind, leads_entry]
      refine Cleanly.bind (spelled_nextToken hkind (by decide)) fun _ later => .pure ?_
      intro hread hfit
      have hword : session.Spells (.word typeWords) later := (hread (hfit.of_cursor rfl)).of_cursor rfl
      exact Or.inr ⟨rfl, hword.mono fun _ _ hmatches => .part (.choice (List.mem_cons_self ..) hmatches)⟩

theorem spelled_requiredType (hkind : session.cursor.current.kind ∈ typeWords) :
    Spelled (.part .type) requiredType session := by
  refine Cleanly.bind (cleanly_typeSpecifier_of_word hkind) fun found later => ?_
  cases found with
  | none => exact Cleanly.of_flag _ (.pure _)
  | some type =>
      refine Cleanly.pure fun hfound hfit => ?_
      rcases hfound hfit with ⟨hnone, -⟩ | ⟨-, hspells⟩
      · cases hnone
      · exact hspells

theorem spelled_constantsType (session : Session) : Spelled (.optional (.part .type)) constantsType session := by
  have hstarts : Leads startsVariables session (fun _ => True) fun starts later =>
      later = session ∧ (starts = true → session.cursor.current.kind ∈ typeWords) := by
    rw [startsVariables, leads_bind, leads_current]
    split
    · next hscalar =>
        refine ⟨rfl, fun _ => ?_⟩
        have hall : ∀ kind ∈ TokenKind.all, scalarWords.contains kind = true → kind ∈ typeWords := by decide
        exact hall _ (TokenKind.mem_all _) hscalar
    · split
      · next hname => exact ⟨rfl, fun _ => by simp [typeWords, eq_of_beq hname]⟩
      · exact ⟨rfl, fun hno => absurd hno (by simp)⟩
  refine Leads.bind hstarts ?_
  rintro starts _ ⟨rfl, hkind⟩
  split
  · next hyes =>
      refine Cleanly.mono (cleanly_typeSpecifier_of_word (hkind hyes)) fun _ ended htype hfit => ?_
      rcases htype hfit with ⟨-, rfl⟩ | ⟨-, hspells⟩
      · exact .still hfit .absent
      · exact hspells.mono fun _ _ => .present
  · exact Cleanly.pure fun hfit => .still hfit .absent

/-! ## Variables and constants -/

theorem cleanly_variableName (type : DataType) (session : Session) :
    Cleanly (variableName type) session (Turns (.word [.identifier]) session) := by
  rw [variableName, Cleanly, leads_bind, leads_current]
  split
  · exact Cleanly.of_flag _ (.pure _)
  · next hkind =>
      have hname : Spelled (.word [.identifier]) (do
          let _ ← declareStorage session.cursor.current .plainVariable type
          nextToken) session := by
        refine .skip (rests_declareStorage _ _ _) fun _ middle hcursor => spelled_nextToken ?_ (by decide)
        simpa [hcursor] using hkind
      have hrest (middle : Session) : Cleanly (do
          if ← check .identifier then
            flag .missingComma
            return .yield ()
          else return .done ()) middle (AfterTurn (fun _ later => later = middle) fun _ _ => False) := by
        rw [Cleanly, leads_bind, leads_check]
        split
        · exact Cleanly.of_flag _ (.pure _)
        · exact Cleanly.pure rfl
      have hturn := hname.turn (fun _ => ()) _ fun _ => hrest
      simp only [bind_assoc] at hturn
      exact hturn

theorem spelled_variableNames (typeToken : Token) (type : DataType) (session : Session) :
    Spelled (.sequence [.separated (.word [.identifier]), .word [.semicolon]]) (variableNames typeToken type)
      session := by
  refine .skip (Relates.read _) fun _ looked _ => .skip (rests_ensure _ typeToken _) fun _ begun _ => ?_
  refine (Spelled.loop_separated (fun _ => cleanly_variableName type) () begun).bind ?_
  exact fun _ listed => (spelled_expect (by decide) _ listed).last

theorem spelled_variableDeclaration (hkind : session.cursor.current.kind ∈ typeWords) :
    Spelled (.part .declaration) variableDeclaration session := by
  refine Spelled.mono ?_ fun _ _ hmatches => .part hmatches
  exact Spelled.current ((spelled_requiredType hkind).bind fun type read => spelled_variableNames _ type read)

/-- What may be given to a constant is a number, or a character without a sign. -/
theorem kind_of_signedConstant {sign : Option TokenKind} {token : Token} (hfits : token.Fits)
    (h : (signedConstant? sign token.value).isSome) :
    token.kind ∈ [TokenKind.integer, .real] ∨ sign = none ∧ token.kind = .character := by
  cases hvalue : token.value with
  | none => simp [hvalue, signedConstant?] at h
  | some value =>
      rw [← hfits.value value hvalue]
      rw [hvalue] at h
      unfold signedConstant? at h
      split at h <;> simp_all [TokenValue.kind]

/-- A sign is read if there is one. -/
theorem cleanly_optionalSign (session : Session) : Cleanly optionalSign session fun sign later => session.Fit →
    session.Spells (.optional (.word [.plus, .minus])) later ∧ (sign = none → later = session) := by
  rw [optionalSign, Cleanly, leads_bind, leads_currentKind, matchAny, bind_assoc, leads_bind, leads_currentKind]
  split
  · next hsign =>
      rw [bind_assoc]
      have hread : Spelled (.word [.plus, .minus]) nextToken session :=
        spelled_nextToken (List.elem_iff.mp hsign) (by decide)
      refine Cleanly.bind hread fun _ later => Cleanly.pure fun hword hfit => ?_
      exact ⟨(hword hfit).mono fun _ _ => .present, by simp⟩
  · exact Cleanly.pure fun hfit => ⟨.still hfit .absent, fun _ => rfl⟩

theorem spelled_constantValue (session : Session) : Spelled (.part .constant) constantValue session := by
  refine Cleanly.bind (cleanly_optionalSign session) fun sign signed => ?_
  rw [Cleanly, leads_bind, leads_current]
  cases hvalue : signedConstant? sign signed.cursor.current.value with
  | none => exact Cleanly.of_flagged _ _ ((reads_matchAny _).prolongs.bind fun _ => .pure _)
  | some constant =>
      have hkind (hfit : signed.Fit) :=
        @kind_of_signedConstant sign _ (hfit.tokens _ (List.mem_cons_self ..)) (by simp [hvalue])
      show Cleanly (matchAny literalKinds >>= fun _ => pure (some constant)) signed _
      rw [matchAny, bind_assoc, Cleanly, leads_bind, leads_currentKind]
      split
      · next hliteral =>
          rw [bind_assoc]
          have hread : Spelled (.word [signed.cursor.current.kind]) nextToken signed := by
            refine spelled_nextToken (by simp) fun hmem => ?_
            rw [← List.mem_singleton.mp hmem] at hliteral
            exact absurd hliteral (by decide)
          refine Cleanly.bind hread fun _ later => Cleanly.pure fun hword hsign hfit => ?_
          obtain ⟨hspells, hnone⟩ := hsign hfit
          have hsigned := hspells.fit hfit
          rcases hkind hsigned with hnumber | ⟨rfl, hcharacter⟩
          · have hdigits : signed.Spells (.sequence [.word [.integer, .real]]) later :=
              (hword hsigned).mono fun _ _ hmatches => .single (hmatches.word_mono (by simpa using hnumber))
            exact (hspells.cons hdigits).mono fun _ _ hmatches => .part (.choice (List.mem_cons_self ..) hmatches)
          · obtain rfl := hnone rfl
            exact (hword hfit).mono fun _ _ hmatches =>
              .part (.choice (List.getLast_mem (by simp)) (hmatches.word_mono (by simp [hcharacter])))
      · next hliteral =>
          refine Cleanly.pure fun hsign hfit => absurd ?_ hliteral
          rcases hkind ((hsign hfit).1.fit hfit) with hnumber | ⟨-, hcharacter⟩
          · simp only [List.mem_cons, List.not_mem_nil, or_false] at hnumber
            rcases hnumber with h | h <;> rw [h] <;> decide
          · rw [hcharacter]
            decide

theorem cleanly_constantDefinition (declared : Option DataType) (session : Session) :
    Cleanly (constantDefinition declared) session
      (Turns (.sequence [.word [.identifier], .word [.equals], .part .constant]) session) := by
  rw [constantDefinition, Cleanly, leads_bind, leads_current]
  split
  · exact Cleanly.of_flag _ (.pure _)
  · next hkind =>
      have hdefinition : Spelled (.sequence [.word [.identifier], .word [.equals], .part .constant]) (do
          let _ ← nextToken
          expect .equals .missingEquals
          let valueToken ← current
          let value ← constantValue
          value.forM (declareConstant session.cursor.current valueToken declared)) session := by
        refine spelled_name (by simpa using hkind) fun _ named => ?_
        refine (spelled_expect (by decide) _ named).bind fun _ read => Spelled.current ?_
        refine (spelled_constantValue read).bind fun value _ => .rest ?_
        exact Relates.forM (fun constant => rests_declareConstant _ _ _ constant) value
      have hturn := hdefinition.turn (fun _ => ()) (fun _ => return .done ()) fun _ _ => .pure rfl
      simp only [bind_assoc] at hturn
      exact hturn

/-- The word `const` and the constants after it. -/
theorem spelled_constants {next : Unit → Production β} (hnext : ∀ answer, Relates Rests (next answer))
    (hkind : session.cursor.current.kind = .constWord) :
    Spelled (.part .constants) (nextToken >>= fun _ => constants >>= next) session := by
  refine Spelled.mono ?_ fun _ _ hmatches => .part hmatches
  refine spelled_word (by simp [hkind]) (by decide) fun _ begun => ?_
  rw [constants, bind_assoc]
  refine (spelled_constantsType begun).bind fun declared typed => ?_
  rw [bind_assoc]
  refine (Spelled.loop_separated (fun _ => cleanly_constantDefinition declared) () typed).bind fun _ listed => ?_
  exact (spelled_expect (by decide) _ listed).bind fun _ _ => .rest (hnext _)

end Production

end FrontEnd
