import FrontEnd.Proofs.Continuation
import FrontEnd.Proofs.Turns

/-!
# Programs that are continued

A program without errors that ends with a semicolon or a brace does not depend on what follows it, unless
that begins with a semicolon (`compile_continued`).

The construct that an item begins with need not close it: a declaration of variables can turn out to be a
routine, and a routine to be a forward declaration.  So each production is followed to the token that closes
it, which is always demanded.  Only a statement of the program may be followed by a semicolon that is not,
and that is the one that must not begin what follows.
-/

namespace FrontEnd

namespace Continuation

open Production

variable {k : Continuation}

/-! ## Statements -/

theorem closes_assignment : k.Closes k.Inside assignment assignment :=
  .bind_like mirrors_variableReference fun _ => .bind (mirrors_expect _ _) fun _ =>
    .bind mirrors_current fun _ => .bind_like mirrors_expression fun _ =>
      .bind (mirrors_ensure rfl rfl _) fun _ => (closes_require (by simp) _).append fun _ => .pure _

theorem closes_identifierStatement : k.Closes k.Inside identifierStatement identifierStatement := by
  have hcall : k.Closes k.Inside
      (do let node ← call expression; require .semicolon .missingSemicolon; return node)
      (do let node ← call expression; require .semicolon .missingSemicolon; return node) :=
    .bind_like (mirrors_call mirrors_expression) fun _ =>
      (closes_require (by simp) _).append fun _ => .pure _
  have hmisused : k.Closes k.Inside
      (do flag .unexpectedToken; let _ ← nextToken; return ({ kind := .noOp } : Node))
      (do flag .unexpectedToken; let _ ← nextToken; return ({ kind := .noOp } : Node)) := by
    have hmirrors : k.coupling.Mirrors Eq
        (do let _ ← nextToken; return ({ kind := .noOp } : Node))
        (do let _ ← nextToken; return ({ kind := .noOp } : Node)) :=
      mirrors_nextToken.bind fun _ _ _ => .pure rfl
    exact closes_flag_bind _ fun hrun => hmirrors.keeps trivial hrun
  refine .bind mirrors_current fun token => .bind (mirrors_kindOf rfl) fun kind => ?_
  cases kind with
  | plainVariable | valueParameter | varParameter | undefined => exact closes_assignment
  | function | procedure => exact hcall
  | program | constant | type => exact hmisused

theorem closes_compoundOf {nested nested' : Production Node}
    (hnested : k.coupling.Mirrors k.coupling.Nodes nested nested') :
    k.Closes k.Near (compoundOf nested) (compoundOf nested') :=
  .bind mirrors_current fun _ => .bind mirrors_nextToken fun _ =>
    .bind_like (mirrors_loop (fun _ _ h => mirrors_listedStatement hnested h) (.refl [])) fun _ =>
      (closes_expect (by simp) _).append fun _ => .pure _

theorem statementNode_of_leftBrace {routine : EntryId} {nested : Production Node} {session : Session}
    (h : session.cursor.current.kind = .leftBrace) :
    statementNode routine nested session = compoundOf nested session := by
  rw [statementNode, currentKind_bind, h]

theorem statementNode_of_identifier {routine : EntryId} {nested : Production Node} {session : Session}
    (h : session.cursor.current.kind = .identifier) :
    statementNode routine nested session = identifierStatement session := by
  rw [statementNode, currentKind_bind, h]

/-- Two sessions inside, at a token with which a statement of the program begins. -/
def Begun (k : Continuation) (session session' : Session) : Prop :=
  k.Inside session session' ∧ session.cursor.current.kind ∈ [.leftBrace, .identifier]

theorem carries_statementNode (routine : EntryId) {nested nested' : Production Node}
    (hnested : k.coupling.Mirrors k.coupling.Nodes nested nested') :
    Carries k.Begun k.Near (statementNode routine nested) (statementNode routine nested') where
  keeps := (mirrors_statementNode hnested routine).keeps trivial
  carries {session session' later answer} hbegun hrun hclean := by
    obtain ⟨hinside, hkind⟩ := hbegun
    have hsame := k.coupling.kind_eq (k.coupling.current hinside.cursor)
    rcases List.mem_pair.mp hkind with hbrace | hname
    · rw [statementNode_of_leftBrace hbrace] at hrun
      rw [statementNode_of_leftBrace (hsame ▸ hbrace)]
      exact (closes_compoundOf hnested).carries hinside hrun hclean
    · rw [statementNode_of_identifier hname] at hrun
      rw [statementNode_of_identifier (hsame ▸ hname)]
      exact (closes_identifierStatement.mono fun _ _ h => .inl h).carries hinside hrun hclean

theorem carries_current_bind {α : Type} {before after : Session → Session → Prop}
    (hsame : ∀ session session', before session session' →
      session.cursor.current = session'.cursor.current)
    {next next' : Token → Production α} (h : ∀ token, Carries before after (next token) (next' token)) :
    Carries before after (current >>= next) (current >>= next') where
  keeps {session later answer} hrun := (h session.cursor.current).keeps hrun
  carries {session session' later answer} hbefore hrun hclean := by
    have hcarried := (h session.cursor.current).carries hbefore hrun hclean
    rwa [hsame _ _ hbefore] at hcarried

/-- A statement of the program ends with a brace, or before a semicolon. -/
theorem carries_statementWithin (routine : EntryId) {depth depth' : Nat}
    (hdepth : k.coupling.Depths depth depth') :
    Carries k.Begun k.Near (statementWithin routine depth) (statementWithin routine depth') := by
  cases depth with
  | zero => exact ⟨(fun hrun => nomatch hrun), fun _ hrun => nomatch hrun⟩
  | succ depth =>
      obtain ⟨fewer, rfl, hfewer⟩ := hdepth.exists_succ
      refine carries_current_bind (fun _ _ h => k.coupling.current h.1.cursor) fun token => ?_
      exact (carries_statementNode routine (mirrors_statementWithin routine hfewer)).bind
        fun node => .pure _

theorem carries_statement (routine : EntryId) :
    Carries k.Begun k.Near (statement routine) (statement routine) where
  keeps := (mirrors_statement (c := k.coupling) routine).keeps trivial
  carries {session session' later answer} hbegun hrun hclean := by
    have hdepth : k.coupling.Depths (session.cursor.remaining + 2) (session'.cursor.remaining + 2) :=
      ⟨Nat.add_le_add_right (k.coupling.remaining_le hbegun.1.cursor) 2, fun h => absurd trivial h⟩
    exact (carries_statementWithin routine hdepth).carries hbegun hrun hclean

/-! ## Declarations -/

theorem closes_variableNames (typeToken : Token) (type : DataType) :
    k.Closes k.Near (variableNames typeToken type) (variableNames typeToken type) :=
  .bind (mirrors_check _) fun _ => .bind (mirrors_ensure rfl rfl _) fun _ =>
    .bind (mirrors_loop (fun _ _ _ => mirrors_variableName type) rfl) fun _ =>
      closes_expect (by simp) _

theorem closes_variablesOrFunction {routine : DataType → Production Unit}
    (hroutine : ∀ type, k.Closes k.Near (routine type) (routine type)) :
    k.Closes k.Near (variablesOrFunction routine) (variablesOrFunction routine) :=
  .bind mirrors_current fun typeToken => .bind mirrors_requiredType fun type =>
    .bind mirrors_startsHeader fun _ => .ite (fun _ => hroutine type)
      fun _ => closes_variableNames typeToken type

theorem closes_constants : k.Closes k.Near constants constants :=
  .bind mirrors_constantsType fun declared =>
    .bind (mirrors_loop (fun _ _ _ => mirrors_constantDefinition declared) rfl) fun _ =>
      closes_expect (by simp) _

theorem closes_typeDefinition : k.Closes k.Near typeDefinition typeDefinition :=
  .bind mirrors_requiredType fun type => .bind (mirrors_typeName type) fun _ =>
    closes_expect (by simp) _

/-! ## Routines -/

theorem closes_parameterList : k.Closes k.Inside parameterList parameterList :=
  .bind mirrors_loneVoid fun _ => .bind (mirrors_synchronize _) fun _ =>
    .bind (mirrors_loop (fun _ _ h => h ▸ mirrors_parameter _) rfl) fun _ =>
      (closes_expect_inside (by simp) (by decide) _).append fun _ => .pure _

theorem closes_enclosedParameters : k.Closes k.Inside enclosedParameters enclosedParameters :=
  .bind (mirrors_synchronize _) fun _ => .ite
    (fun _ => .bind mirrors_nextToken fun _ => closes_parameterList)
    fun _ => closes_flag_bind _ fun hrun => by cases hrun; rfl

theorem carries_functionType (routine : EntryId) (type : DataType) :
    Carries k.Inside k.Inside (functionType routine type) (functionType routine type) := by
  refine carries_still (mirrors_functionType routine type) fun {session later answer} hrun => ?_
  obtain ⟨_, between, hensure, hchange⟩ := exists_of_bind
    (show (ensure (type.form == .scalar) session.cursor.current .invalidType >>= fun _ =>
      changeEntry routine fun entry => { entry with type := some type }) session = _ from hrun)
  cases hchange
  cases hscalar : (type.form == .scalar) <;> rw [hscalar] at hensure <;> cases hensure <;> rfl

/-- The header of a routine ends with a parenthesis, so a token follows that is not the last. -/
theorem closes_header (routine : EntryId) (kind : DefinitionKind) (type : Option DataType) :
    k.Closes k.Inside (header routine kind type) (header routine kind type) := by
  have hparameters : k.Closes k.Inside (formalParameters routine) (formalParameters routine) :=
    closes_enclosedParameters.append fun parameters =>
      carries_still (mirrors_amend routine _ (fun known => { known with parameters }) fun _ => rfl)
        fun hrun => by cases hrun; rfl
  refine hparameters.append fun _ => ?_
  split
  · exact carries_functionType routine _
  · exact .pure ()

theorem carries_bodyOrForward (routine : EntryId) :
    Carries k.Inside k.Near (bodyOrForward routine) (bodyOrForward routine) := by
  refine carries_currentKind_bind fun kind => .imp ?_ fun _ _ h => h.1
  split
  · refine (Closes.bind (mirrors_setStage routine _) fun _ => ?_).toCarries
    exact (closes_compoundOf (mirrors_statement routine)).append fun _ => carries_changeRoutine _ _
  · refine Carries.bind (carries_still (mirrors_setStage routine _) fun hrun => by cases hrun; rfl)
      fun _ => ?_
    exact carries_nextToken_bind (.pure ())
  · exact (carries_changeRoutine _ _).imp fun _ _ h => .inl h

theorem closes_routine (parent : EntryId) (type : Option DataType) :
    k.Closes k.Near (routine parent type) (routine parent type) :=
  .bind mirrors_routineKind fun _ => .bind (mirrors_routineName _) fun _ =>
    .bind (mirrors_markRoutine _ _ _) fun _ => .bind (mirrors_openRoutine _ _ _ _) fun _ =>
      .bind mirrors_current fun _ => .bind (mirrors_ensure rfl rfl _) fun _ =>
        (closes_header _ _ _).append fun _ => (carries_bodyOrForward _).bind fun _ =>
          (carries_onTable _).bind fun _ => .pure ()

/-! ## Items -/

theorem closes_declaration (program : EntryId) :
    k.Closes k.Near (declaration program) (declaration program) := by
  refine .bind mirrors_currentKind fun kind => ?_
  split
  · exact .bind mirrors_nextToken fun _ => closes_constants
  · exact .bind mirrors_nextToken fun _ => closes_typeDefinition
  · refine .bind mirrors_startsVariables fun _ => .ite (fun _ => ?_) fun _ => ?_
    · exact closes_variablesOrFunction fun type => closes_routine program (some type)
    · exact closes_routine program none

/-- A statement of the program can be begun only at a brace or a name. -/
theorem startsProgramStatement_current {session later : Session} {starts : Bool}
    (hrun : startsProgramStatement session = .ok (starts, later)) :
    later.cursor.current = session.cursor.current ∧
      (starts = true → session.cursor.current.kind ∈ [.leftBrace, .identifier]) := by
  have hkind : currentKind session = .ok (session.cursor.current.kind, session) := rfl
  rw [startsProgramStatement, bind_of_ok hkind] at hrun
  generalize session.cursor.current.kind = kind at hrun ⊢
  split at hrun
  · cases hrun
    exact ⟨rfl, fun _ => by simp⟩
  · obtain ⟨seen, between, hpeek, hrest⟩ := exists_of_bind hrun
    cases hrest
    refine ⟨?_, fun _ => by simp⟩
    rcases hcursor : session.cursor.peek with ⟨outcome, cursor⟩
    cases outcome with
    | error failure => simp [run_peekKind_error hcursor] at hpeek
    | ok token =>
        obtain ⟨-, rfl⟩ : token.kind = seen ∧ _ = later := by
          simpa [run_peekKind hcursor] using hpeek
        exact Cursor.peek_current hcursor
  · cases hrun
    exact ⟨rfl, nofun⟩

theorem carries_programStatement (program : EntryId) :
    Carries k.Begun k.Near (programStatement program) (programStatement program) :=
  (carries_statement program).bind fun _ => carries_matchSemicolon.bind fun _ =>
    carries_changeRoutine _ _

theorem carries_item (program : EntryId) :
    Carries k.Inside k.Near (item program) (item program) where
  keeps := (mirrors_item (c := k.coupling) program).keeps trivial
  carries {session session' later answer} hinside hrun hclean := by
    obtain ⟨starts, between, hstarts, hrest⟩ := exists_of_bind hrun
    obtain ⟨hcurrent, hkind⟩ := startsProgramStatement_current hstarts
    have hlooks : Carries k.Inside k.Inside startsProgramStatement startsProgramStatement :=
      carries_still mirrors_startsProgramStatement fun hrun => (startsProgramStatement_current hrun).1
    cases starts with
    | true =>
        have hbetween := ((carries_programStatement (k := k) program).keeps hrest).clean hclean
        obtain ⟨between', hstarts', hinside'⟩ := hlooks.carries hinside hstarts hbetween
        rw [item, bind_of_ok hstarts']
        exact (carries_programStatement program).carries ⟨hinside', hcurrent ▸ hkind rfl⟩ hrest hclean
    | false =>
        have hbetween := ((closes_declaration (k := k) program).keeps hrest).clean hclean
        obtain ⟨between', hstarts', hinside'⟩ := hlooks.carries hinside hstarts hbetween
        rw [item, bind_of_ok hstarts']
        exact (closes_declaration program).carries hinside' hrest hclean

/-- After an item without errors nothing is dropped. -/
theorem carries_dropItemUnlessMoved {start : Nat} (hstart : start < k.count) :
    Carries k.Near k.Near (dropItemUnlessMoved start) (dropItemUnlessMoved start) where
  keeps := (mirrors_dropItemUnlessMoved (c := k.coupling) start).keeps trivial
  carries {session session' later answer} hnear hrun hclean := by
    have hdrop (session : Session) : dropItemUnlessMoved start session =
        (if session.cursor.position == start && !session.cursor.current.isEnd then
          flag .unexpectedToken >>= fun _ => nextToken >>= fun _ => pure ()
        else pure ()) session := rfl
    rw [hdrop] at hrun
    split at hrun
    · -- dropping would be reported
      obtain ⟨_, between, hflag, hrest⟩ := exists_of_bind hrun
      have hmirrors : k.coupling.Mirrors Eq (nextToken >>= fun _ => pure ())
          (nextToken >>= fun _ => pure ()) :=
        mirrors_nextToken.bind fun _ _ _ => .pure rfl
      exact absurd ((hmirrors.keeps trivial hrest).clean hclean) (flag_unclean hflag)
    · next hmoved =>
        cases hrun
        refine ⟨session', ?_, hnear⟩
        have hmoved' : ¬ (session'.cursor.position == start && !session'.cursor.current.isEnd) := by
          rcases hnear with hinside | hborder
          · rwa [← k.coupling.position_eq hinside.cursor, ← k.coupling.current hinside.cursor]
          · have hpast : (session'.cursor.position == start) = false := by
              rw [hborder.cursor']
              simpa using Nat.ne_of_gt hstart
            simp [hpast]
        rw [hdrop, if_neg hmoved']
        rfl

theorem synchronize_of_contains {set : KindSet} {session : Session}
    (h : set.contains session.cursor.current.kind = true) :
    synchronize set session = .ok (session.cursor.current, session) := by
  show (if set.contains session.cursor.current.kind then _ else _ : Production Token) session = _
  rw [if_pos h]
  rfl

/-- Whatever is skipped has been reported. -/
theorem synchronize_unclean {set : KindSet} {session session' later : Session} {token : Token}
    (hinside : k.Inside session session') (hreported : session.Reported)
    (hnot : ¬ set.contains session.cursor.current.kind = true)
    (hrun : synchronize set session = .ok (token, later)) : later.diagnostics ≠ [] := by
  intro hclean
  have hskip : (ensure (session.cursor.current.kind == .error) session.cursor.current .unexpectedToken >>=
      fun _ => nextToken >>= loop (skipToken set)) session = .ok (token, later) := by
    have hchoice : (if set.contains session.cursor.current.kind then _ else _ : Production Token) session =
      .ok (token, later) := hrun
    rwa [if_neg hnot] at hchoice
  have hrest : k.coupling.Mirrors Eq (nextToken >>= loop (skipToken set))
      (nextToken >>= loop (skipToken set)) :=
    mirrors_nextToken.bind fun _ _ htoken => mirrors_loop (fun _ _ h => mirrors_skipToken set h) htoken
  obtain ⟨_, between, hensure, hmore⟩ := exists_of_bind hskip
  obtain ⟨hkind, rfl⟩ := ensure_clean hensure ((hrest.keeps trivial hmore).clean hclean)
  -- what is no token and is not reported here has been reported before
  have hsome := hinside.cursor.explained (beq_iff_eq.mp hkind)
  have hnone := (hrest.keeps trivial hmore).clean hclean
  obtain ⟨reason, hreason⟩ := Option.isSome_iff_exists.mp hsome
  have hreports := hreported
  simp [Session.Reported, hnone, Token.reports, hreason] at hreports

theorem nextItem_eq {program : EntryId} {session : Session}
    (hend : session.cursor.current.isEnd = false) :
    nextItem program session = (synchronize itemStart >>= fun token =>
      if token.isEnd then pure (.done ()) else item program >>= fun _ =>
        dropItemUnlessMoved session.cursor.position >>= fun _ => pure (.yield ())) session := by
  show (if session.cursor.current.isEnd then _ else _ : Production (ForInStep Unit)) session = _
  rw [hend]
  rfl

/-- A turn that makes no report is the same on both sides. -/
theorem carries_nextItem {program : EntryId} {session session' later : Session} {turn : ForInStep Unit}
    (hinside : k.Inside session session') (hreported : session.Reported)
    (hrun : nextItem program session = .ok (turn, later)) (hclean : later.diagnostics = []) :
    turn = .yield () ∧ ∃ later', nextItem program session' = .ok (.yield (), later') ∧
      k.Near later later' := by
  have hend := hinside.cursor.isEnd
  have hitem : Carries k.Inside k.Near
      (item program >>= fun _ => dropItemUnlessMoved session.cursor.position >>= fun _ =>
        pure (ForInStep.yield ()))
      (item program >>= fun _ => dropItemUnlessMoved session.cursor.position >>= fun _ =>
        pure (ForInStep.yield ())) :=
    (carries_item program).bind fun _ =>
      (carries_dropItemUnlessMoved hinside.cursor.position_lt).bind fun _ => .pure _
  rw [nextItem_eq hend] at hrun
  obtain ⟨token, between, hsync, hrest⟩ := exists_of_bind hrun
  have hkept : between.Kept later := by
    split at hrest
    · cases hrest
      exact .refl _
    · exact hitem.keeps hrest
  have hstarts : itemStart.contains session.cursor.current.kind = true := by
    by_contra hnot
    exact synchronize_unclean hinside hreported hnot hsync (hkept.clean hclean)
  obtain ⟨rfl, rfl⟩ : session.cursor.current = token ∧ session = between := by
    simpa [synchronize_of_contains hstarts] using hsync
  rw [hend] at hrest
  obtain ⟨later', hrun', hnear⟩ := hitem.carries hinside hrest hclean
  have hturn : turn = .yield () := by
    obtain ⟨_, _, -, hdrop⟩ := exists_of_bind hrest
    obtain ⟨_, _, -, hpure⟩ := exists_of_bind hdrop
    cases hpure
    rfl
  subst hturn
  refine ⟨rfl, later', ?_, hnear⟩
  have hcurrent : session.cursor.current = session'.cursor.current := k.coupling.current hinside.cursor
  rw [nextItem_eq (hcurrent ▸ hend), bind_of_ok (synchronize_of_contains (hcurrent ▸ hstarts)),
    ← hcurrent, hend, ← k.coupling.position_eq hinside.cursor]
  exact hrun'

/-! ## The loop over the items -/

theorem eq_of_isEnd {budget : Nat} {session last : Session} (hend : session.cursor.current.isEnd = true)
    (hrun : loopWithin (fun _ => nextItem SymbolTable.programId) budget () session = .ok ((), last)) :
    last = session := by
  cases budget with
  | zero => cases hrun
  | succ budget =>
      have hdone : nextItem SymbolTable.programId session = .ok (.done (), session) := by
        show (if session.cursor.current.isEnd then _ else _ : Production (ForInStep Unit)) session = _
        rw [hend]
        rfl
      rw [loopWithin, bind_of_ok hdone] at hrun
      cases hrun
      rfl

/-- From inside, turns that make no report come to the continuation on both sides. -/
theorem turns_to_border {budget : Nat} {session session' last : Session}
    (hinside : k.Inside session session') (hreported : session.Reported)
    (hrun : loopWithin (fun _ => nextItem SymbolTable.programId) budget () session = .ok ((), last))
    (hclean : last.diagnostics = []) :
    ∃ reached, Relation.ReflTransGen Session.Turn session last ∧
      Relation.ReflTransGen Session.Turn session' reached ∧ k.Border last reached := by
  induction budget generalizing session session' with
  | zero => cases hrun
  | succ budget ih =>
      obtain ⟨turn, later, hturn, hrest⟩ := exists_of_bind hrun
      have hkept : later.Kept last := by
        cases turn with
        | done =>
            cases hrest
            exact .refl _
        | yield =>
            have hloop : k.coupling.Mirrors Eq
                (loopWithin (fun _ => nextItem SymbolTable.programId) budget ())
                (loopWithin (fun _ => nextItem SymbolTable.programId) budget ()) :=
              .loopWithin (fun _ _ _ => mirrors_nextItem _) ⟨Nat.le_refl _, fun _ => rfl⟩ rfl
            exact hloop.keeps trivial hrest
      obtain ⟨rfl, later', hturn', hnear⟩ :=
        carries_nextItem hinside hreported hturn (hkept.clean hclean)
      rcases hnear with hinside' | hborder
      · have hreported' := ((mirrors_nextItem (c := k.coupling) _).keeps trivial hturn).reported hreported
        obtain ⟨reached, hturns, hturns', hborder⟩ := ih hinside' hreported' hrest
        exact ⟨reached, .head hturn hturns, .head hturn' hturns', hborder⟩
      · have hend : later.cursor.current.isEnd = true := by
          rw [hborder.cursor]
          rfl
        obtain rfl := eq_of_isEnd hend hrest
        exact ⟨later', .single hturn, .single hturn', hborder⟩

/-- Where the tokens before the continuation are compiled without an error, both compilations reach the
continuation. -/
theorem reached_border {tokens : List Token} (htokens : Token.Complete tokens)
    (hcount : tokens.length = k.count) {unit : CompilationUnit}
    (hunit : compile (.ofList tokens k.location) = .ok unit) (hclean : unit.diagnostics = []) :
    ∃ ended reached, ended.Reached (.ofList tokens k.location) ∧
      reached.Reached (k.more.prepend tokens) ∧ k.Border ended reached ∧
        unit.table = ended.table.pop.2 := by
  obtain ⟨token, tokens, rfl⟩ : ∃ token rest, tokens = token :: rest := by
    obtain ⟨last, hlast, -⟩ := htokens.last
    cases tokens with
    | nil => simp at hlast
    | cons token rest => exact ⟨token, rest, rfl⟩
  have hstart : Cursor.start (.ofList (token :: tokens) k.location) =
    .ok ⟨.ofList tokens k.location, token, none, 0⟩ := rfl
  have hstart' : Cursor.start (k.more.prepend (token :: tokens)) =
    .ok ⟨k.more.prepend tokens, token, none, 0⟩ := rfl
  have hinside : k.Inside (.opened ⟨.ofList tokens k.location, token, none, 0⟩)
      (.opened ⟨k.more.prepend tokens, token, none, 0⟩) :=
    Coupling.sessions_opened (.intro htokens (by simpa [Nat.add_comm] using hcount))
  rw [compile_eq hstart] at hunit
  cases hitems : items (.opened ⟨.ofList tokens k.location, token, none, 0⟩) with
  | error cause => simp [hitems, Except.map] at hunit
  | ok outcome =>
      obtain ⟨program, final⟩ := outcome
      obtain rfl : CompilationUnit.ofOutcome (program, final) = unit := by
        simpa [hitems, Except.map] using hunit
      obtain ⟨_, ended, hloop, hpop⟩ := exists_of_bind hitems
      cases hpop
      obtain ⟨reached, hturns, hturns', hborder⟩ :=
        turns_to_border hinside (List.Subset.refl _) hloop hclean
      exact ⟨ended, reached, ⟨_, hstart, hturns⟩, ⟨_, hstart', hturns'⟩, hborder, rfl⟩

end Continuation

/-! ## What follows -/

/-- What is reported from the first token of a stream on is found at tokens of that stream. -/
theorem found_of_items {more rest : TokenStream} {first : Token} (hnext : more.next = (.ok first, rest))
    {session later : Session} {program : EntryId} {position : Nat}
    (hcursor : session.cursor = ⟨rest, first, none, position⟩)
    (hdiagnostics : session.diagnostics = first.reports)
    (hrun : Production.items session = .ok (program, later)) :
    ∀ diagnostic ∈ later.diagnostics, ∃ token kind index, more.answer index = .ok token ∧
      diagnostic = Diagnostic.atToken token kind := by
  have hself : TokenStream.Twins Eq more more := .of_map_eq id (fun _ _ h => h) rfl
  have hsame : Token.Interchangeable True (Eq : Token → Token → Prop) :=
    ⟨fun h => by rw [h], fun h => by rw [h], fun h => by rw [h], fun _ h => by rw [h]⟩
  have hnumbered : Token.Interchangeable True fun token token' =>
      token = token' ∧ more.AnsweredTogether more token token' := hsame.numbered
  obtain ⟨hfirst, hrest⟩ := hself.numbered.next
  rw [hnext] at hfirst hrest
  cases hfirst with
  | supplied hfirst =>
      let c : Coupling := .twins hnumbered
      have hsessions : c.Sessions session session :=
        ⟨hcursor ▸ ⟨hrest, hfirst, .none, rfl⟩, .refl _,
          hdiagnostics ▸ Coupling.reports_of (c := c) hfirst, rfl⟩
      have houtcomes := (Production.mirrors_items (c := c)).outcomes hsessions
      rw [hrun] at houtcomes
      obtain hlost | hcorrespond := houtcomes
      · exact hlost.shorter.elim
      · have hfound (found found' : Diagnostic) (hreports : c.Reports found found') :
            (∃ token kind index, more.answer index = .ok token ∧ found = Diagnostic.atToken token kind) ∧
              c.Reports found found' := by
          obtain ⟨token, _, kind, ⟨-, index, hanswer, -⟩, hat, -⟩ := id hreports
          exact ⟨⟨token, kind, index, hanswer, hat⟩, hreports⟩
        exact ((List.forall₂_and_left _ _).mp (hcorrespond.2.diagnostics.imp hfound)).1

/-- What has been compiled without an error does not depend on what follows.  Take some tokens that are
compiled without an error, the last of which is a semicolon or a closing brace, and among which whatever
is no token says why.  If anything follows them that does not begin with a semicolon, the loop over the
items comes to the first token of that with the table, the open scopes and the invented names with which
it came to the end of the file before, and with no error but what is to be said of that token.  What the
whole gives is what is made of the rest from there on, and every error in it is found at a token of the
rest. -/
theorem compile_continued {tokens : List Token} {location : Location} {more rest : TokenStream}
    {first : Token} {unit : CompilationUnit} (htokens : Token.Complete tokens)
    (hunit : compile (.ofList tokens location) = .ok unit) (hclean : unit.diagnostics = [])
    (hnext : more.next = (.ok first, rest)) (hfirst : first.kind ≠ .semicolon) :
    ∃ ended reached : Session,
      ended.Reached (.ofList tokens location) ∧ ended.cursor = .atEnd location tokens.length ∧
        ended.diagnostics = [] ∧ unit.table = ended.table.pop.2 ∧
      reached.Reached (more.prepend tokens) ∧ reached.cursor = ⟨rest, first, none, tokens.length⟩ ∧
        reached.table = ended.table ∧ reached.dummies = ended.dummies ∧
          reached.diagnostics = first.reports ∧
      compile (more.prepend tokens) = (Production.items reached).map CompilationUnit.ofOutcome ∧
        ∀ whole, compile (more.prepend tokens) = .ok whole →
          ∀ diagnostic ∈ whole.diagnostics, ∃ token kind index, more.answer index = .ok token ∧
            diagnostic = Diagnostic.atToken token kind := by
  let k : Continuation := ⟨location, tokens.length, more, first, rest, hnext, hfirst⟩
  obtain ⟨ended, reached, hended, hreached, hborder, htable⟩ :=
    k.reached_border htokens rfl hunit hclean
  have hwhole := compile_of_reached hreached
  refine ⟨ended, reached, hended, hborder.cursor, hborder.diagnostics, htable, hreached,
    hborder.cursor', hborder.table.symm, hborder.dummies.symm, hborder.diagnostics', hwhole,
    fun whole hcompiled => ?_⟩
  rw [hwhole] at hcompiled
  cases hitems : Production.items reached with
  | error cause => simp [hitems, Except.map] at hcompiled
  | ok outcome =>
      obtain rfl : CompilationUnit.ofOutcome outcome = whole := by
        simpa [hitems, Except.map] using hcompiled
      exact found_of_items hnext hborder.cursor' hborder.diagnostics' hitems

/-- A declaration, followed by an assignment to a name that nothing declares: the assignment is compiled
with the table of the declaration, and the error is found in it. -/
theorem compile_continued_undeclared :
    ∃ (tokens following : List Token) (ended reached : Session) (whole : CompilationUnit),
      tokens = [⟨.intWord, "int", ⟨1, 1⟩, none⟩, ⟨.identifier, "a", ⟨1, 5⟩, none⟩,
        ⟨.semicolon, ";", ⟨1, 6⟩, none⟩] ∧
      following = [⟨.identifier, "b", ⟨2, 1⟩, none⟩, ⟨.equals, "=", ⟨2, 3⟩, none⟩,
        ⟨.identifier, "a", ⟨2, 5⟩, none⟩, ⟨.semicolon, ";", ⟨2, 6⟩, none⟩] ∧
      ended.Reached (.ofList tokens ⟨1, 6⟩) ∧
        reached.Reached (TokenStream.prepend (.ofList following ⟨2, 6⟩) tokens) ∧
          reached.table = ended.table ∧ reached.cursor.current.text = "b" ∧
      compile (TokenStream.prepend (.ofList following ⟨2, 6⟩) tokens) = .ok whole ∧
        whole.diagnostics.map Diagnostic.location = [⟨2, 1⟩] := by
  have hdeclared : ∃ unit, compile (.ofList [⟨.intWord, "int", ⟨1, 1⟩, none⟩,
      ⟨.identifier, "a", ⟨1, 5⟩, none⟩, ⟨.semicolon, ";", ⟨1, 6⟩, none⟩] ⟨1, 6⟩) = .ok unit ∧
        unit.diagnostics = [] := exists_answer (by decide +kernel)
  obtain ⟨unit, hunit, hclean⟩ := hdeclared
  have hnext : TokenStream.next (.ofList [⟨.identifier, "b", ⟨2, 1⟩, none⟩,
      ⟨.equals, "=", ⟨2, 3⟩, none⟩, ⟨.identifier, "a", ⟨2, 5⟩, none⟩,
      ⟨.semicolon, ";", ⟨2, 6⟩, none⟩] ⟨2, 6⟩) = (.ok ⟨.identifier, "b", ⟨2, 1⟩, none⟩, _) := rfl
  obtain ⟨ended, reached, hended, -, -, -, hreached, hcursor, htable, -⟩ :=
    compile_continued ⟨by decide, by decide, _, rfl, by decide⟩ hunit hclean hnext (by decide)
  have hwhole : ∃ whole, compile (TokenStream.prepend (.ofList [⟨.identifier, "b", ⟨2, 1⟩, none⟩,
      ⟨.equals, "=", ⟨2, 3⟩, none⟩, ⟨.identifier, "a", ⟨2, 5⟩, none⟩,
      ⟨.semicolon, ";", ⟨2, 6⟩, none⟩] ⟨2, 6⟩) [⟨.intWord, "int", ⟨1, 1⟩, none⟩,
      ⟨.identifier, "a", ⟨1, 5⟩, none⟩, ⟨.semicolon, ";", ⟨1, 6⟩, none⟩]) = .ok whole ∧
        whole.diagnostics.map Diagnostic.location = [⟨2, 1⟩] := exists_answer (by decide +kernel)
  obtain ⟨whole, hwhole, hlocations⟩ := hwhole
  exact ⟨_, _, ended, reached, whole, rfl, rfl, hended, hreached, htable, by rw [hcursor], hwhole, hlocations⟩

/-- Without an explanation of what is no token, it can be skipped without a report, and with it the
semicolon after it and what follows: the loop over the items never comes to the parenthesis. -/
theorem compile_skipped_unexplained :
    ∃ (tokens : List Token) (first : Token) (unit : CompilationUnit),
      tokens = [⟨.error, "@", ⟨1, 1⟩, none⟩, ⟨.semicolon, ";", ⟨1, 2⟩, none⟩] ∧
      first = ⟨.rightParen, ")", ⟨1, 3⟩, none⟩ ∧
      compile (.ofList tokens ⟨1, 2⟩) = .ok unit ∧ unit.diagnostics = [] ∧
        ∀ reached : Session, reached.Reached (TokenStream.prepend (.ofList [first] ⟨1, 3⟩) tokens) →
          reached.cursor.current ≠ first := by
  have hunit : ∃ unit, compile (.ofList [⟨.error, "@", ⟨1, 1⟩, none⟩, ⟨.semicolon, ";", ⟨1, 2⟩, none⟩]
      ⟨1, 2⟩) = .ok unit ∧ unit.diagnostics = [] := exists_answer (by decide +kernel)
  obtain ⟨unit, hunit, hclean⟩ := hunit
  refine ⟨_, _, unit, rfl, rfl, hunit, hclean, fun reached hreached => ?_⟩
  obtain ⟨cursor, hstart, hturns⟩ := hreached
  obtain rfl : (⟨.ofList [⟨.semicolon, ";", ⟨1, 2⟩, none⟩, ⟨.rightParen, ")", ⟨1, 3⟩, none⟩] ⟨1, 3⟩,
    ⟨.error, "@", ⟨1, 1⟩, none⟩, none, 0⟩ : Cursor) = cursor := Except.ok.inj hstart
  rcases hturns.cases_head with rfl | ⟨later, hturn, -⟩
  · decide
  · -- the first turn is the last
    have hlast : (Production.nextItem SymbolTable.programId (.opened ⟨.ofList
        [⟨.semicolon, ";", ⟨1, 2⟩, none⟩, ⟨.rightParen, ")", ⟨1, 3⟩, none⟩] ⟨1, 3⟩,
        ⟨.error, "@", ⟨1, 1⟩, none⟩, none, 0⟩)).toOption.all
          (fun outcome => outcome.1 matches .done _) = true := by decide +kernel
    rw [show Production.nextItem _ _ = _ from hturn] at hlast
    cases hlast

end FrontEnd
