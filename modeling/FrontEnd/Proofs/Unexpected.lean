import FrontEnd.Proofs.Passage
import FrontEnd.Proofs.Reading
import FrontEnd.Proofs.Unit

/-!
# Where tokens are unexpected

A piece of text that is no token is reported for that.  It is said to be unexpected as well only in three places:
right after an opening brace, right after an opening bracket, and right after the bound of an array
(`compile_unexpected`).

## Strategy

A run tells of what it passes which tokens it says to be unexpected (`Session.Tells`), and this passes from the
parts of a production to the whole.  Only two productions say it of a token that may be none: the one for an array,
which knows what it has passed, and the one for a statement in braces.  The latter can meet a piece of text that is
no token only at its first statement, since after each statement the parse resumes with a token.
-/

namespace FrontEnd

/-! ## What is said of tokens -/

/-- Whether some tokens end with an opening brace or bracket, or with an opening bracket and the bound of an
array. -/
def Opened (before : List Token) : Prop :=
  ∃ earlier opening bound, before = earlier ++ opening :: bound ∧
    (opening.kind = .leftBrace ∧ bound = [] ∨ opening.kind = .leftBracket ∧
      (bound = [] ∨ ∃ (count : Token) (value : Int), bound = [count] ∧ count.value = some (.integer value)))

/-- Whether an error is recorded at one of some tokens, which is a token unless an opening brace or bracket stands
before it. -/
def Warranted (tokens : List Token) (report : Diagnostic) : Prop :=
  ∃ before token after, tokens = before ++ token :: after ∧ report = .atToken token .unexpectedToken ∧
    (token.kind = .error → Opened before)

theorem Opened.append {before : List Token} (h : Opened before) (more : List Token) : Opened (more ++ before) := by
  obtain ⟨earlier, opening, bound, rfl, hkinds⟩ := h
  exact ⟨more ++ earlier, opening, bound, by simp, hkinds⟩

theorem Warranted.append {tokens : List Token} {report : Diagnostic} (h : Warranted tokens report)
    (more : List Token) : Warranted (more ++ tokens) report := by
  obtain ⟨before, token, after, rfl, hreport, hopened⟩ := h
  exact ⟨more ++ before, token, after, by simp, hreport, fun herror => (hopened herror).append more⟩

namespace Session

/-- Whether some tokens have been passed and each error that has been recorded meanwhile, and says of a token that
it is unexpected, is warranted. -/
structure Tells (session later : Session) : Prop where
  passes : ∃ read, session.Passes read later
  reports : ∃ added, later.diagnostics = session.diagnostics ++ added ∧
    ∀ report ∈ added, report.kind = .unexpectedToken → Warranted session.cursor.unread report

variable {session between later : Session}

theorem Tells.trans (h : session.Tells between) (h' : between.Tells later) : session.Tells later := by
  obtain ⟨read, hread⟩ := h.passes
  obtain ⟨more, hmore⟩ := h'.passes
  obtain ⟨added, hadded, hreports⟩ := h.reports
  obtain ⟨added', hadded', hreports'⟩ := h'.reports
  refine ⟨⟨read ++ more, hread.trans hmore⟩, added ++ added', by rw [hadded', hadded, List.append_assoc], ?_⟩
  intro report hmem hkind
  rcases List.mem_append.mp hmem with hmem | hmem
  · exact hreports report hmem hkind
  · rw [hread.unread]
    exact (hreports' report hmem hkind).append read

instance : Std.Refl Tells :=
  ⟨fun session => ⟨⟨[], .refl session⟩, [], (List.append_nil _).symm, by simp⟩⟩

instance : IsTrans Session Tells := ⟨fun _ _ _ => .trans⟩

/-- Whatever is done to the table, nothing is said of tokens. -/
theorem tells_table (session : Session) (table : SymbolTable) : session.Tells { session with table } :=
  ⟨⟨[], rfl, rfl⟩, [], (List.append_nil _).symm, by simp⟩

/-- One error is recorded, which may say of the current token that it is unexpected. -/
theorem tells_flagged {report : Diagnostic}
    (h : report.kind = .unexpectedToken → Warranted session.cursor.unread report) :
    session.Tells { session with diagnostics := session.diagnostics ++ [report] } :=
  ⟨⟨[], rfl, rfl⟩, [report], rfl, by simpa using h⟩

end Session

namespace Production

open Session

variable {α : Type} {session : Session}

/-! ## Tokens -/

theorem tells_nextToken : Relates Tells nextToken := by
  refine ⟨fun session => (passes_nextToken session).imp ?_⟩
  rintro token later ⟨-, -, hdiagnostics, hpasses⟩
  refine ⟨⟨_, hpasses⟩, _, hdiagnostics, fun report hmem hkind => ?_⟩
  obtain ⟨reason, -, rfl⟩ := List.mem_map.mp hmem
  cases reason <;> cases hkind

theorem tells_peekKind : Relates Tells peekKind := by
  refine ⟨fun session => (passes_peekKind session).imp ?_⟩
  rintro kind looked ⟨⟨cursor, rfl⟩, hpasses, -⟩
  exact ⟨⟨[], hpasses⟩, [], (List.append_nil _).symm, by simp⟩

theorem tells_flagAt (token : Token) {kind : ErrorKind} (hkind : kind ≠ .unexpectedToken) :
    Relates Tells (flagAt token kind) := by
  refine ⟨fun session => ?_⟩
  exact tells_flagged fun hsame => absurd hsame hkind

/-- A token can be unexpected, and so can what is none if an opening brace or bracket has been passed. -/
theorem tells_unexpected {start : Session} {read : List Token} (h : start.Tells session)
    (hpasses : start.Passes read session) (hopened : session.cursor.current.kind = .error → Opened read) :
    Leads (flag .unexpectedToken) session (fun _ => True) fun _ later => start.Tells later := by
  obtain ⟨added, hadded, hreports⟩ := h.reports
  let report := Diagnostic.atToken session.cursor.current .unexpectedToken
  show start.Tells { session with diagnostics := session.diagnostics ++ [report] }
  refine ⟨⟨read, hpasses.unread, hpasses.position⟩, added ++ [report], ?_, fun report hmem hkind => ?_⟩
  · rw [← List.append_assoc, ← hadded]
  · rcases List.mem_append.mp hmem with hmem | hmem
    · exact hreports report hmem hkind
    · rw [List.mem_singleton.mp hmem]
      exact ⟨read, _, session.cursor.upcoming, hpasses.unread, rfl, hopened⟩

theorem tells_onTable (change : SymbolTable → α × SymbolTable) : Relates Tells (onTable change) :=
  ⟨fun session => session.tells_table _⟩

theorem tells_changeTable (change : SymbolTable → SymbolTable) : Relates Tells (changeTable change) :=
  ⟨fun session => session.tells_table _⟩

/-! ## Expressions -/

theorem tells_identifierEntry (name : Token) : Relates Tells (identifierEntry name) := by
  refine (Relates.read _).bind fun found => ?_
  cases found with
  | some id =>
      refine (Relates.read _).bind fun entry => ?_
      cases entry.kind != .undefined with
      | true => exact .pure id
      | false => exact (tells_flagAt name (by decide)).bind fun _ => .pure id
  | none =>
      refine (tells_flagAt name (by decide)).bind fun _ => (tells_onTable _).bind fun id => ?_
      exact (tells_changeTable _).bind fun _ => .pure id

theorem spansExpressions_tells : SpansExpressions Tells where
  nextToken := tells_nextToken
  peekKind := tells_peekKind
  flagAt token _ hkind := tells_flagAt token (ErrorKind.ne_of_isPlain hkind)
  unexpected session hkind := tells_unexpected (refl session) (.refl session) fun herror => absurd herror hkind
  resolve := .resolveIdentifier tells_identifierEntry fun _ _ => tells_changeTable _
  line _ _ := tells_changeTable _

/-! ## Declarations -/

theorem tells_declareStorage (name : Token) (kind : DefinitionKind) (type : DataType) :
    Relates Tells (declareStorage name kind type) := by
  refine (tells_onTable _).bind fun entered => ?_
  cases entered with
  | none => exact (tells_flagAt name (by decide)).bind fun _ => .pure _
  | some id =>
      refine (tells_onTable _).bind fun slot => (tells_changeTable _).bind fun _ => ?_
      exact (tells_changeTable _).bind fun _ => .pure _

theorem tells_declare (name : Token) (definition : Definition) (type : DataType) :
    Relates Tells (declare name definition type) := by
  refine (tells_onTable _).bind fun entered => ?_
  cases entered with
  | none => exact tells_flagAt name (by decide)
  | some id => exact (tells_changeTable _).bind fun _ => tells_changeTable _

/-- The bound of an array is passed if it is a number. -/
theorem tells_arrayCount (session : Session) :
    Leads arrayCount session (fun _ => True) fun _ later => session.Tells later ∧
      ∃ bound, session.Passes bound later ∧
        (bound = [] ∨ ∃ (count : Token) (value : Int), bound = [count] ∧ count.value = some (.integer value)) := by
  rw [arrayCount, leads_bind, leads_current]
  split
  · next count hvalue =>
      refine Leads.bind ((tells_nextToken.leads session).and (passes_nextToken session)) ?_
      rintro _ later ⟨htells, -, -, -, hpasses⟩
      refine ⟨htells, _, hpasses, ?_⟩
      cases hend : session.cursor.current.isEnd with
      | true => exact Or.inl (by rw [Cursor.consumed, hend, if_pos rfl])
      | false => exact Or.inr ⟨_, _, Cursor.consumed_of_not_end hend, hvalue⟩
  · exact ⟨tells_flagged fun hkind => (by cases hkind), [], ⟨rfl, rfl⟩, Or.inl rfl⟩

/-- Where the closing bracket of an array is missing, the opening one has been passed, and a bound perhaps. -/
theorem tells_arrayOf {start : Session} {bracket : Token} (hbracket : bracket.kind = .leftBracket)
    (h : start.Tells session) (hpasses : start.Passes [bracket] session) (element : DataType) :
    Leads (arrayOf element) session (fun _ => True) fun _ later => start.Tells later := by
  unfold arrayOf
  cases element.scalar? with
  | none =>
      have hflagged : Relates Tells (do
          flag .invalidType
          return DataType.undefined) := (spansExpressions_tells.flag rfl).bind fun _ => .pure _
      exact (hflagged.leads session).imp fun _ _ hlater => h.trans hlater
  | some element =>
      refine Leads.bind (tells_arrayCount session) ?_
      rintro count counted ⟨hcounted, bound, hbound, hkinds⟩
      have hcounted := h.trans hcounted
      rw [expect, matchToken, leads_bind, leads_bind, leads_bind, leads_check]
      split
      · rw [leads_bind]
        exact (tells_nextToken.leads counted).imp fun _ _ hlater => hcounted.trans hlater
      · exact tells_unexpected hcounted (hpasses.trans hbound) fun _ =>
          ⟨[], bracket, bound, rfl, Or.inr ⟨hbracket, hkinds⟩⟩

theorem tells_arraySuffix (type : DataType) : Relates Tells (arraySuffix type) := by
  refine ⟨fun session => ?_⟩
  rw [arraySuffix, matchToken, bind_assoc, leads_bind, leads_check]
  split
  · next hbracket =>
      have hkind : session.cursor.current.kind = .leftBracket := eq_of_beq hbracket
      rw [bind_assoc]
      refine Leads.bind ((tells_nextToken.leads session).and (passes_nextToken session)) ?_
      rintro _ opened ⟨hopened, -, -, -, hpasses⟩
      rw [Cursor.consumed_of_not_end (isEnd_of_kind hkind (by simp))] at hpasses
      exact tells_arrayOf hkind hopened hpasses type
  · exact refl session

/-! ## Statements in braces -/

/-- A parse resumes with a token. -/
theorem resumes_synchronize {set : KindSet} (hset : set.contains .error = false) (session : Session) :
    Leads (synchronize set) session (fun _ => True) fun _ later => later.cursor.current.kind ≠ .error := by
  have hkind {token : Token} (hstop : token.isEnd = true ∨ set.contains token.kind = true) : token.kind ≠ .error := by
    intro herror
    rcases hstop with hend | hin
    · simp [Token.isEnd, herror] at hend
    · rw [herror, hset] at hin
      cases hin
  have hskip (token : Token) (between : Session) (hbetween : between.cursor.current = token) :
      Leads (skipToken set token) between (fun _ => True)
        (AfterTurn (fun _ later => later.cursor.current.kind ≠ .error) fun token later =>
          later.cursor.current = token) := by
    unfold skipToken
    split
    · next hstop =>
        show between.cursor.current.kind ≠ .error
        rw [hbetween]
        exact hkind (Bool.or_eq_true_iff.mp hstop)
    · exact (current_nextToken between).bind fun _ _ htoken => htoken
  rw [synchronize, leads_bind, leads_current]
  split
  · next hin => exact hkind (Or.inr hin)
  · refine (leads_run _ session).bind fun _ noted _ => ?_
    exact (current_nextToken noted).bind fun _ _ htoken => leads_loop hskip htoken

/-- What is dropped because nothing has been done with it is the token that was current before. -/
theorem tells_dropUnlessMoved {start reached : Session} {read : List Token} (h : start.Tells reached)
    (hpasses : start.Passes read reached) (hopened : reached.cursor.current.kind = .error → Opened read)
    (hmore : reached.Tells session) :
    Leads (dropUnlessMoved reached.cursor.position) session (fun _ => True) fun _ later => start.Tells later := by
  have htells := h.trans hmore
  rw [dropUnlessMoved, leads_bind, leads_position]
  split
  · next hstill =>
      obtain ⟨more, hmore⟩ := hmore.passes
      have hunread := hmore.unread_of_still (eq_of_beq hstill)
      have hcurrent : session.cursor.current = reached.cursor.current := current_eq_of_unread hunread
      have hsame : start.Passes read session :=
        ⟨hunread ▸ hpasses.unread, (eq_of_beq hstill).trans hpasses.position⟩
      refine (tells_unexpected htells hsame (hcurrent ▸ hopened)).bind fun _ noted hnoted => ?_
      rw [leads_bind]
      exact (tells_nextToken.leads noted).imp fun _ _ hlater => hnoted.trans hlater
  · exact htells

/-- Whether a run has told what it met and stands at a token, or at what is none right after an opening. -/
structure Recovered (session reached : Session) : Prop where
  tells : session.Tells reached
  opened : ∃ read, session.Passes read reached ∧ (reached.cursor.current.kind = .error → Opened read)

/-- After each statement the parse resumes with a token. -/
theorem recovered_listedStatement {nested : Production Node} (hnested : Relates Tells nested)
    (statements : List Node) {start reached : Session} (h : Recovered start reached) :
    Leads (listedStatement nested statements) reached (fun _ => True)
      (AfterTurn (fun _ later => start.Tells later) fun _ later => Recovered start later) := by
  obtain ⟨htells, read, hpasses, hopened⟩ := h
  rw [listedStatement, leads_bind, leads_current]
  split
  · exact htells
  · rw [leads_bind, leads_position]
    refine Leads.bind (hnested.leads reached) fun node read hread => ?_
    refine Leads.bind ((spansExpressions_tells.matchToken _).leads read) fun _ ended hended => ?_
    refine Leads.bind (tells_dropUnlessMoved htells hpasses hopened (hread.trans hended)) fun _ kept hkept => ?_
    refine Leads.bind (((spansExpressions_tells.synchronize afterStatement).leads kept).and
      (resumes_synchronize (by decide) kept)) fun _ later ⟨hlater, hresumes⟩ => ?_
    have hlater := hkept.trans hlater
    obtain ⟨passed, hpassed⟩ := hlater.passes
    exact ⟨hlater, passed, hpassed, fun herror => absurd herror hresumes⟩

/-- Only the first statement between braces can begin with what is no token. -/
theorem tells_compoundOf {nested : Production Node} (hnested : Relates Tells nested)
    (hbrace : session.cursor.current.kind = .leftBrace) :
    Leads (compoundOf nested) session (fun _ => True) fun _ later => session.Tells later := by
  rw [compoundOf, leads_bind, leads_current]
  refine Leads.bind ((tells_nextToken.leads session).and (passes_nextToken session)) ?_
  rintro _ entered ⟨hentered, -, -, -, hpasses⟩
  rw [Cursor.consumed_of_not_end (isEnd_of_kind hbrace (by simp))] at hpasses
  have hstart : Recovered session entered :=
    ⟨hentered, _, hpasses, fun _ => ⟨[], session.cursor.current, [], rfl, Or.inl ⟨hbrace, rfl⟩⟩⟩
  have hstep (statements : List Node) (reached : Session) (hreached : Recovered session reached) :=
    recovered_listedStatement hnested statements hreached
  refine (leads_loop hstep hstart).bind fun statements listed hlisted => ?_
  have hclose : Relates Tells (do
      expect .rightBrace .missingRightBrace
      return ({ kind := .compound, children := statements, line := some session.cursor.current.line } : Node)) :=
    (spansExpressions_tells.expect _ rfl).bind fun _ => .pure _
  exact (hclose.leads listed).imp fun _ _ hlater => hlisted.trans hlater

theorem tells_variableName (type : DataType) : Relates Tells (variableName type) :=
  spansExpressions_tells.variableName (fun name type => tells_declareStorage name _ type) type

theorem spansStatements_tells (routine : EntryId) : SpansStatements routine Tells where
  toSpansExpressions := spansExpressions_tells
  storage := spansExpressions_tells.variableDeclaration tells_variableName
  constants := spansExpressions_tells.constants <|
    spansExpressions_tells.constantDefinition fun name _ type => tells_declare name _ type
  target _ session := session.tells_table _
  braces hnested _ hbrace := tells_compoundOf hnested hbrace

/-! ## Routines and units -/

theorem tells_changeRoutine (id : EntryId) (change : Routine → Routine) : Relates Tells (changeRoutine id change) :=
  tells_changeTable _

theorem tells_routineName (invented : String) : Relates Tells (routineName invented) := by
  have hnamed (name : Token) : Relates Tells (namedRoutine name) := by
    refine (Relates.read _).bind fun table => ?_
    cases table.lookupLocal name.text with
    | none => exact (tells_onTable _).bind fun _ => .pure _
    | some id =>
        refine .ite (.pure _) ?_
        exact (Relates.read _).bind fun name => (tells_flagAt name (by decide)).bind fun _ => .pure _
  have hgiven : Relates Tells givenName := by
    refine (Relates.read _).bind fun name => .ite ?_ ((spansExpressions_tells.flag rfl).bind fun _ => .pure _)
    refine (hnamed name).bind fun found => (Relates.forM (fun _ => tells_changeTable _) found).bind fun _ => ?_
    exact tells_nextToken.bind fun _ => (spansExpressions_tells.synchronize _).bind fun _ => .pure _
  refine hgiven.bind fun found => ?_
  cases found with
  | some found => exact .pure _
  | none => exact (tells_onTable _).bind fun _ => .pure _

theorem tells_routine (parent : EntryId) (type : Option DataType) : Relates Tells (routine parent type) := by
  have hkind : Relates Tells routineKind := by
    have hinvent (stem : String) : Relates Tells (inventName stem) := by
      refine ⟨fun session => ?_⟩
      exact ⟨⟨[], rfl, rfl⟩, [], (List.append_nil _).symm, by simp⟩
    refine (Relates.read _).bind fun kind => ?_
    split
    · exact tells_nextToken.bind fun _ => (hinvent _).bind fun _ => .pure _
    · exact (hinvent _).bind fun _ => .pure _
    · exact .pure _
  have hchange (id : EntryId) (change : Entry → Entry) : Relates Tells (changeEntry id change) := tells_changeTable _
  refine hkind.bind fun ⟨kind, invented⟩ => (tells_routineName invented).bind fun ⟨id, forwarded⟩ => ?_
  refine (Relates.markRoutine (hchange id) kind forwarded).bind fun _ => ?_
  have hopen : Relates Tells (openRoutine parent id kind forwarded) :=
    .openRoutine tells_changeRoutine (tells_onTable _) (tells_onTable _) parent id kind forwarded
  refine hopen.bind fun _ => ?_
  have hensure (token : Token) (holds : Bool) : Relates Tells (ensure holds token .alreadyForwarded) := by
    cases holds with
    | true => exact .pure ()
    | false => exact tells_flagAt token (by decide)
  refine (Relates.read _).bind fun token => (hensure token _).bind fun _ => ?_
  have hheader : Relates Tells (header id kind type) :=
    spansExpressions_tells.header (tells_changeRoutine id) (fun _ => hchange id _)
      (spansExpressions_tells.typedParameter fun name type => tells_declareStorage name _ type) kind type
  refine hheader.bind fun _ => ((spansStatements_tells id).bodyOrForward (tells_changeRoutine id)).bind fun _ => ?_
  exact (tells_onTable _).bind fun _ => .pure _

theorem spansItems_tells (program : EntryId) : SpansItems program Tells where
  toSpansStatements := spansStatements_tells program
  global := tells_variableName
  types := spansExpressions_tells.typeDefinition <|
    spansExpressions_tells.typeName tells_arraySuffix fun name type => tells_declare name _ type
  routine := tells_routine program
  append := tells_changeRoutine program

/-- Before each item the parse resumes with a token. -/
theorem tells_nextItem (program : EntryId) : Relates Tells (nextItem program) := by
  refine ⟨fun session => ?_⟩
  rw [nextItem, leads_bind, leads_current]
  split
  · exact refl session
  · rw [leads_bind, leads_position]
    refine Leads.bind (((spansExpressions_tells.synchronize itemStart).leads session).and
      (resumes_synchronize (by decide) session)) fun token resumed ⟨hresumed, hkind⟩ => ?_
    split
    · exact hresumed
    · refine Leads.bind ((spansItems_tells program).item.leads resumed) fun _ read hread => ?_
      have htells := hresumed.trans hread
      rw [dropItemUnlessMoved, leads_bind, leads_bind, leads_position, leads_bind, leads_current]
      split
      · next hstill =>
          have hposition : read.cursor.position = session.cursor.position :=
            eq_of_beq (Bool.and_eq_true_iff.mp hstill).1
          have hcurrent : read.cursor.current = resumed.cursor.current := by
            obtain ⟨skipped, hskipped⟩ := hresumed.passes
            obtain ⟨passed, hpassed⟩ := hread.passes
            have hskip := hskipped.position
            have hpass := hpassed.position
            exact current_eq_of_unread (hpassed.unread_of_still (by omega))
          have hexpected : read.cursor.current.kind ≠ .error := hcurrent ▸ hkind
          have hflagged := tells_unexpected (refl read) (.refl read) fun herror => absurd herror hexpected
          rw [leads_bind]
          refine hflagged.imp fun _ noted hnoted => ?_
          rw [leads_bind]
          refine (tells_nextToken.leads noted).imp fun _ later hlater => ?_
          exact htells.trans (hnoted.trans hlater)
      · exact htells

theorem tells_items : Relates Tells items := by
  refine (Relates.loop (fun _ => tells_nextItem _) ()).bind fun _ => ?_
  exact (tells_onTable _).bind fun _ => .pure _

end Production

/-! ## Places -/

theorem Location.after_append_ne (text : List Char) {more : List Char} (hmore : more ≠ []) :
    Location.after (text ++ more) ≠ Location.after text := by
  intro hsame
  simp only [Location.after, Location.mk.injEq, List.count_append, Nat.add_right_cancel_iff, Nat.add_eq_left] at hsame
  have hnone : '\n' ∉ more := List.count_eq_zero.mp hsame.1
  have hline : Text.lastLine (text ++ more) = more.reverse ++ Text.lastLine text := by
    rw [Text.lastLine, Text.lastLine, List.reverse_append, List.takeWhile_append_of_pos]
    intro c hmem
    have hne : c ≠ '\n' := fun hc => hnone (hc ▸ List.mem_reverse.mp hmem)
    simpa using hne
  have hlength := List.length_pos_iff.mpr hmore
  have hsame := hsame.2
  rw [hline, List.length_append, List.length_reverse] at hsame
  omega

theorem Partitioned.places {passed rest : List Char} {tokens : List Token} (h : Partitioned passed rest tokens) :
    (∀ token ∈ tokens, ∃ read, token.location = Location.after (passed ++ read)) ∧
      (tokens.map Token.location).Nodup := by
  induction h with
  | done => simp
  | @token passed gap slice rest token tokens _ hslice _ hplace _ ih =>
      refine ⟨fun other hmem => ?_, ?_⟩
      · rcases List.mem_cons.mp hmem with rfl | hmem
        · exact ⟨gap, hplace⟩
        · obtain ⟨read, hread⟩ := ih.1 other hmem
          exact ⟨gap ++ slice ++ read, by simpa using hread⟩
      · refine List.nodup_cons.mpr ⟨fun hmem => ?_, ih.2⟩
        obtain ⟨other, hother, hsame⟩ := List.mem_map.mp hmem
        obtain ⟨read, hread⟩ := ih.1 other hother
        rw [hsame, hplace, List.append_assoc] at hread
        exact Location.after_append_ne (passed ++ gap) (by simp [hslice]) hread.symm

/-- A place belongs to one token only. -/
theorem eq_of_location_eq {tokens before after before' after' : List Token} {token token' : Token}
    (hplaces : (tokens.map Token.location).Nodup) (h : tokens = before ++ token :: after)
    (h' : tokens = before' ++ token' :: after') (hsame : token'.location = token.location) :
    before' = before ∧ token' = token := by
  have hplace {before after : List Token} {token : Token} (h : tokens = before ++ token :: after) :
      (tokens.map Token.location)[before.length]? = some token.location := by
    simp [h]
  have hlength : before'.length = before.length := by
    have hlt : before'.length < (tokens.map Token.location).length := by simp [h']
    refine (List.getElem?_inj hlt hplaces).mp ?_
    rw [hplace h', hplace h, hsame]
  obtain ⟨hbefore, hrest⟩ := List.append_inj (h'.symm.trans h) hlength
  exact ⟨hbefore, (List.cons.inj hrest).1⟩

/-! ## Units -/

open TokenStream (tokensOf)

/-- Whatever is said to be unexpected while a unit is compiled is a token of it, or a piece of its text that is none
but stands right after an opening brace or bracket or after the bound of an array. -/
theorem warranted_of_compile {feed : LineFeed} {unit : CompilationUnit}
    (h : compile (Scanner.stream feed) = .ok unit) {report : Diagnostic} (hmem : report ∈ unit.diagnostics)
    (hkind : report.kind = .unexpectedToken) :
    Warranted (tokensOf ((Scanner.stream feed).answers 0)) report := by
  obtain ⟨session, later, hstart, hunit, -, hdiagnostics⟩ := compile_cases h
  obtain ⟨hcursor, htable, hfirst⟩ := Session.start_cases hstart
  rw [Production.unit_eq_items htable] at hunit
  obtain ⟨added, hadded, hreports⟩ := (Production.tells_items.of_run hunit).reports
  rw [← hdiagnostics, hadded, hfirst] at hmem
  rw [Cursor.tokensOf_of_start hcursor]
  rcases List.mem_append.mp hmem with hscanned | hparsed
  · -- the first token is reported before the unit begins, if it is none
    obtain ⟨reason, -, rfl⟩ := List.mem_map.mp hscanned
    cases reason <;> cases hkind
  · exact hreports report hparsed hkind

/-- Of every source text that is compiled, a piece that is no token is said to be unexpected only where it stands
right after an opening brace or bracket or after the bound of an array.  Otherwise what is said to be unexpected at
its place is the end of the file, which has the place of the last line. -/
theorem compile_unexpected {source : String} {unit : CompilationUnit} (h : compileText source = .ok unit)
    {before after : List Token} {token : Token}
    (htokens : tokensOf ((Scanner.stream (.ofText source)).answers 0) = before ++ token :: after)
    (herror : token.kind = .error) {report : Diagnostic} (hmem : report ∈ unit.diagnostics)
    (hkind : report.kind = .unexpectedToken) (hplace : report.location = token.location) :
    Opened before ∨ report.text = "" := by
  obtain ⟨before', token', after', htokens', rfl, hopened⟩ := warranted_of_compile h hmem hkind
  obtain ⟨tokens, hscans, hparts⟩ := Scanner.exists_scans_partitioned source
  have hall : tokensOf ((Scanner.stream (.ofText source)).answers 0) =
      tokens ++ [.endOf (Text.normalized source.toList)] := by
    rw [hscans.answers, tokensOf, List.filterMap_append, List.filterMap_map]
    exact congrArg (· ++ [_]) List.filterMap_some
  have hwithin {before after : List Token} {token : Token}
      (h : tokensOf ((Scanner.stream (.ofText source)).answers 0) = before ++ token :: after) :
      token.text = "" ∧ token.kind ≠ .error ∨ ∃ after, tokens = before ++ token :: after := by
    rw [hall] at h
    rcases List.eq_nil_or_concat after with rfl | ⟨after, last, rfl⟩
    · obtain ⟨-, hlast⟩ := List.append_inj' h rfl
      obtain rfl := List.head_eq_of_cons_eq hlast
      exact Or.inl ⟨rfl, by simp [Token.endOf, Token.endOfFile]⟩
    · rw [List.concat_eq_append, ← List.cons_append, ← List.append_assoc] at h
      exact Or.inr ⟨after, (List.append_inj' h rfl).1⟩
  obtain ⟨hnone, -⟩ | ⟨after', htokens'⟩ := hwithin htokens'
  · exact Or.inr hnone
  · obtain ⟨-, hnot⟩ | ⟨after, htokens⟩ := hwithin htokens
    · exact absurd herror hnot
    · obtain ⟨rfl, rfl⟩ := eq_of_location_eq hparts.places.2 htokens htokens' hplace
      exact Or.inl (hopened herror)

/-- A stray character stands where the bound of an array should be, and is reported twice. -/
theorem compile_unexpected_bound :
    ∃ unit before token after report, compileText "typedef int a[@];" = .ok unit ∧
      tokensOf ((Scanner.stream (.ofText "typedef int a[@];")).answers 0) = before ++ token :: after ∧
        token.kind = .error ∧ report ∈ unit.diagnostics ∧ report.kind = .unexpectedToken ∧
          report.location = token.location ∧ (Opened before ∨ report.text = "") := by
  have htokens : ∃ before token after,
      tokensOf ((Scanner.stream (.ofText "typedef int a[@];")).answers 0) = before ++ token :: after ∧
        token.kind = .error ∧ token.location = ⟨1, 15⟩ :=
    ⟨_, _, _, (List.take_append_drop 4 _).symm.trans (congrArg _ (List.cons_head_tail (by decide +kernel)).symm),
      by decide +kernel, by decide +kernel⟩
  obtain ⟨before, token, after, hsplit, herror, htoken⟩ := htokens
  have hcompiled : ∃ unit, compileText "typedef int a[@];" = .ok unit ∧ ∃ report ∈ unit.diagnostics,
      report.kind = .unexpectedToken ∧ report.location = ⟨1, 15⟩ := exists_compiled (by decide +kernel)
  obtain ⟨unit, hunit, report, hmem, hkind, hplace⟩ := hcompiled
  have hplace := hplace.trans htoken.symm
  exact ⟨unit, before, token, after, report, hunit, hsplit, herror, hmem, hkind, hplace,
    compile_unexpected hunit hsplit herror hmem hkind hplace⟩

/-- A stray character right after an opening brace is reported twice. -/
theorem compile_unexpected_twice :
    ∃ unit, compileText "void p() \x7b @ \x7d" = .ok unit ∧
      ∃ token ∈ tokensOf ((Scanner.stream (.ofText "void p() \x7b @ \x7d")).answers 0), token.kind = .error ∧
        unit.diagnostics = [.atToken token .invalidCharacter, .atToken token .unexpectedToken] :=
  exists_compiled (by decide +kernel)

end FrontEnd
