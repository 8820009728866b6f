import FrontEnd.Proofs.Ahead
import FrontEnd.Proofs.Coupling

/-!
# Rules for compilations side by side

How `Mirrors` passes from the parts of a production to the whole, and that it holds of the productions
from which all others are built.  Lemmas are named for the production that they are about.
-/

namespace FrontEnd

namespace Coupling

variable {c : Coupling} {α β σ : Type} {first second : Production α}
  {related : α → α → Prop} {related' : β → β → Prop}

namespace Outcomes

/-- A run that succeeds gets lost, or the other succeeds too. -/
theorem of_ok {answer : α} {session : Session} {other : Except Interruption (α × Session)}
    (h : c.Outcomes related (.ok (answer, session)) other) :
    c.Lost session ∨ ∃ answer' session', other = .ok (answer', session') ∧
      related answer answer' ∧ c.Sessions session session' := by
  cases other with
  | error cause => exact .inl h
  | ok outcome => exact h.imp_right fun hcorrespond => ⟨outcome.1, outcome.2, rfl, hcorrespond⟩

/-- A run that is interrupted is that of the shorter compilation, or the other is interrupted too. -/
theorem of_error {cause : Interruption} {other : Except Interruption (α × Session)}
    (h : c.Outcomes related (.error cause) other) :
    c.shorter ∨ ∃ cause', other = .error cause' ∧ c.Like Interruption.unlined cause cause' := by
  cases other with
  | error cause' => exact h.imp_right fun hcorrespond => ⟨cause', rfl, hcorrespond⟩
  | ok outcome => exact .inl h

/-- Past where the shorter compilation got lost, nothing is claimed. -/
theorem of_lost {outcome other : Except Interruption (α × Session)} (hshorter : c.shorter)
    (h : ∀ answer session, outcome = .ok (answer, session) → session.cursor.current.isEnd = true) :
    c.Outcomes related outcome other := by
  cases outcome with
  | error cause =>
      cases other with
      | error cause' => exact .inl hshorter
      | ok outcome' => exact hshorter
  | ok outcome =>
      have hlost : c.Lost outcome.2 := ⟨hshorter, h _ _ rfl⟩
      cases other with
      | error cause' => exact hlost
      | ok outcome' => exact .inl hlost

end Outcomes

/-! ## Sequences -/

namespace Mirrors

theorem pure {answer answer' : α} (h : related answer answer') :
    c.Mirrors related (pure answer) (pure answer') where
  keeps _ _ _ _ hrun := by
    cases hrun
    exact .refl _
  outcomes hsessions := .inr ⟨h, hsessions⟩

theorem interrupted (cause : Interruption) :
    c.Mirrors related (throw cause : Production α) (throw cause) where
  keeps _ _ _ _ hrun := by cases hrun
  outcomes _ := .inr (.refl _)

/-- Where the budget of the first run is spent, that of the second is too, unless it goes on further. -/
theorem spent {depth : Nat} (hdepth : c.Depths 0 depth) (second : Nat → Production α)
    (hzero : second 0 = throw .unfinished) :
    c.Mirrors related (throw .unfinished) (second depth) := by
  rcases hdepth.cases_zero with hshorter | rfl
  · exact {
      keeps := fun _ _ _ _ hrun => by cases hrun
      outcomes := fun _ => .of_lost hshorter fun _ _ hrun => by cases hrun }
  · rw [hzero]
    exact interrupted .unfinished

theorem weaken {weaker : α → α → Prop} (h : c.Mirrors related first second)
    (hweaker : ∀ answer answer', related answer answer' → weaker answer answer') :
    c.Mirrors weaker first second where
  keeps := h.keeps
  outcomes {session session'} hsessions := by
    have houtcomes := h.outcomes hsessions
    cases hfirst : first session <;> cases hsecond : second session' <;>
      simp only [hfirst, hsecond] at houtcomes
    · exact houtcomes
    · exact houtcomes
    · exact houtcomes
    · exact houtcomes.imp_right fun hcorrespond => ⟨hweaker _ _ hcorrespond.1, hcorrespond.2⟩

/-- From where the first parts have come, the rest goes on to corresponding ends. -/
theorem outcomes_bind [hcovers : c.Covers related] {next next' : α → Production β}
    (hnext : ∀ answer answer', related answer answer' →
      c.Mirrors related' (next answer) (next' answer'))
    {session session' : Session} (h : c.Outcomes related (first session) (second session')) :
    c.Outcomes related' ((first >>= next) session) ((second >>= next') session') := by
  cases hfirst : first session with
  | error cause =>
      have hrun : (first >>= next) session = .error cause := Production.bind_of_error hfirst
      rw [hfirst] at h
      rcases h.of_error with hshorter | ⟨cause', hsecond, hcauses⟩
      · exact .of_lost hshorter fun _ _ hok => by simp [hrun] at hok
      · rw [hrun, Production.bind_of_error hsecond]
        exact .inr hcauses
  | ok outcome =>
      rw [hfirst] at h
      rw [Production.bind_of_ok hfirst]
      rcases h.of_ok with hlost | ⟨answer', later', hsecond, hanswers, hlater⟩
      · -- the rest of the lost run stays at the end of the file
        refine .of_lost hlost.shorter fun result final hrest => ?_
        have hself := hcovers.refl hlost.shorter outcome.1
        exact ((hnext _ _ hself).keeps hlost.shorter hrest).isEnd hlost.isEnd
      · rw [Production.bind_of_ok hsecond]
        exact (hnext _ _ hanswers).outcomes hlater

theorem keeps_bind {next : α → Production β} {session final : Session} {result : β}
    (hfirst : ∀ {later : Session} {answer : α}, first session = .ok (answer, later) →
      session.Kept later)
    (hnext : ∀ (answer : α) {later final : Session} {result : β},
      next answer later = .ok (result, final) → later.Kept final)
    (hrun : (first >>= next) session = .ok (result, final)) : session.Kept final := by
  obtain ⟨answer, between, houtcome, hrest⟩ := Production.exists_of_bind hrun
  exact (hfirst houtcome).trans (hnext answer hrest)

theorem bind [hcovers : c.Covers related] {next next' : α → Production β}
    (h : c.Mirrors related first second)
    (hnext : ∀ answer answer', related answer answer' →
      c.Mirrors related' (next answer) (next' answer')) :
    c.Mirrors related' (first >>= next) (second >>= next') where
  keeps hshorter _ _ _ :=
    keeps_bind (h.keeps hshorter) fun answer =>
      (hnext answer answer (hcovers.refl hshorter answer)).keeps hshorter
  outcomes hsessions := outcomes_bind hnext (h.outcomes hsessions)

/-- A sequence whose first part answers with the same on both sides. -/
theorem bind_eq {next next' : α → Production β} (h : c.Mirrors Eq first second)
    (hnext : ∀ answer, c.Mirrors related' (next answer) (next' answer)) :
    c.Mirrors related' (first >>= next) (second >>= next') :=
  h.bind fun answer _ hanswers => hanswers ▸ hnext answer

theorem ite {condition : Prop} [Decidable condition] {first' second' : Production α}
    (h : condition → c.Mirrors related first second)
    (h' : ¬ condition → c.Mirrors related first' second') :
    c.Mirrors related (if condition then first else first') (if condition then second else second') := by
  split
  · next hcondition => exact h hcondition
  · next hcondition => exact h' hcondition

/-! ## Loops -/

theorem loopWithin {related : σ → σ → Prop} [c.Covers related]
    {step step' : σ → Production (ForInStep σ)}
    (hstep : ∀ state state', related state state' →
      c.Mirrors (Turned related) (step state) (step' state'))
    {budget budget' : Nat} (hbudget : c.Depths budget budget') {state state' : σ}
    (h : related state state') :
    c.Mirrors related (Production.loopWithin step budget state)
      (Production.loopWithin step' budget' state') := by
  induction budget generalizing budget' state state' with
  | zero => exact spent hbudget (Production.loopWithin step' · state') rfl
  | succ budget ih =>
      obtain ⟨fewer, rfl, hfewer⟩ := hbudget.exists_succ
      refine (hstep state state' h).bind fun turn turn' hturn => ?_
      cases hturn with
      | done hstates => exact pure hstates
      | yield hstates => exact ih hfewer hstates

end Mirrors

end Coupling

namespace Production

open Coupling

variable {c : Coupling} {α σ : Type} {related : α → α → Prop}

/-! ## Reading the session -/

theorem mirrors_read {view view' : Session → α}
    (h : ∀ session session', c.Sessions session session' → related (view session) (view' session')) :
    c.Mirrors related (do return view (← get)) (do return view' (← get)) where
  keeps _ _ _ _ hrun := by
    cases hrun
    exact .refl _
  outcomes hsessions := .inr ⟨h _ _ hsessions, hsessions⟩

theorem mirrors_current : c.Mirrors c.token current current :=
  mirrors_read fun _ _ h => c.current h.cursor

theorem mirrors_currentKind : c.Mirrors Eq currentKind currentKind :=
  mirrors_read fun _ _ h => c.kind_eq (c.current h.cursor)

theorem mirrors_check (kind : TokenKind) : c.Mirrors Eq (check kind) (check kind) :=
  mirrors_currentKind.bind_eq fun _ => .pure rfl

theorem mirrors_position : c.Mirrors Eq position position :=
  mirrors_read fun _ _ h => c.position_eq h.cursor

theorem mirrors_budget : c.Mirrors c.Depths budget budget :=
  mirrors_read fun _ _ h =>
    ⟨Nat.add_le_add_right (c.remaining_le h.cursor) 2,
      fun hshorter => congrArg (· + 2) (c.remaining_eq hshorter h.cursor)⟩

theorem mirrors_table : c.Mirrors c.Tables table table :=
  mirrors_read fun _ _ h => h.table

theorem mirrors_entry (id : EntryId) : c.Mirrors c.Entries (entry id) (entry id) :=
  mirrors_table.bind fun _ _ h => .pure (h.entry id)

theorem mirrors_lookup {name name' : String} (hname : Text.lower name = Text.lower name') :
    c.Mirrors Eq (lookup name) (lookup name') :=
  mirrors_table.bind fun _ _ h => .pure (h.lookup_eq hname)

/-! ## Loops whose budget is what lies ahead -/

theorem mirrors_loop {related : σ → σ → Prop} [c.Covers related]
    {step step' : σ → Production (ForInStep σ)}
    (hstep : ∀ state state', related state state' →
      c.Mirrors (Turned related) (step state) (step' state'))
    {state state' : σ} (h : related state state') :
    c.Mirrors related (loop step state) (loop step' state') :=
  mirrors_budget.bind fun _ _ hbudget => .loopWithin hstep hbudget h

/-! ## Errors -/

/-- A production that changes the session and is never interrupted. -/
theorem mirrors_change {change change' : Session → α × Session}
    (hkeeps : ∀ session : Session, session.Kept (change session).2)
    (h : ∀ session session', c.Sessions session session' →
      related (change session).1 (change' session').1 ∧
        c.Sessions (change session).2 (change' session').2) :
    c.Mirrors related (fun session => .ok (change session)) (fun session => .ok (change' session)) where
  keeps _ session _ _ hrun := by
    obtain ⟨rfl, rfl⟩ : (change session).1 = _ ∧ (change session).2 = _ := by
      simpa [Prod.ext_iff] using hrun
    exact hkeeps session
  outcomes hsessions := .inr (h _ _ hsessions)

theorem mirrors_flagAt {token token' : Token} (htoken : c.token token token') (kind : ErrorKind) :
    c.Mirrors Eq (flagAt token kind) (flagAt token' kind) := by
  refine mirrors_change (fun session => ?_) fun session session' h => ⟨rfl, ?_⟩
  · exact ⟨List.prefix_append _ _, id, fun hreported => List.subset_append_of_subset_left _ hreported⟩
  · exact { h with diagnostics := List.rel_append h.diagnostics (.cons ⟨_, _, kind, htoken, rfl, rfl⟩ .nil) }

theorem mirrors_flag (kind : ErrorKind) : c.Mirrors Eq (flag kind) (flag kind) :=
  mirrors_current.bind fun _ _ htoken => mirrors_flagAt htoken kind

theorem mirrors_ensure {holds holds' : Bool} (hholds : holds = holds') {token token' : Token}
    (htoken : c.token token token') (kind : ErrorKind) :
    c.Mirrors Eq (ensure holds token kind) (ensure holds' token' kind) := by
  subst hholds
  cases holds with
  | true => exact .pure rfl
  | false => exact mirrors_flagAt htoken kind

theorem run_ensure (holds : Bool) (token : Token) (kind : ErrorKind) (session : Session) :
    ensure holds token kind session = .ok ((), { session with
      diagnostics := session.diagnostics ++ if holds then [] else [Diagnostic.atToken token kind] }) := by
  cases holds with
  | true => simp [ensure, pure_eq]
  | false => rfl

/-! ## Tokens -/

theorem run_nextToken {session : Session} {token : Token} {cursor : Cursor}
    (h : session.cursor.advance = (.ok token, cursor)) :
    nextToken session = .ok (token, { session with
      cursor, diagnostics := session.diagnostics ++ cursor.current.reports }) := by
  have hleads : Leads nextToken session (fun _ => False) fun answer later =>
      answer = token ∧ later = { session with
        cursor, diagnostics := session.diagnostics ++ cursor.current.reports } :=
    (leads_nextToken h).mpr ⟨rfl, rfl⟩
  obtain ⟨_, _, hrun, rfl, rfl⟩ := hleads.exists_ok
  exact hrun

theorem run_nextToken_error {session : Session} {failure : ReadError} {cursor : Cursor}
    (h : session.cursor.advance = (.error failure, cursor)) :
    nextToken session =
      .error (.unreadable { line := session.cursor.current.line, cause := failure }) := by
  have hleads : Leads nextToken session
      (· = .unreadable { line := session.cursor.current.line, cause := failure })
      fun _ _ => False :=
    (leads_nextToken_error h).mpr rfl
  cases hrun : nextToken session with
  | error cause => rw [(leads_of_error hrun).mp hleads]
  | ok outcome => exact ((leads_of_ok hrun).mp hleads).elim

/-- What lies before a cursor cannot be read on, on either side. -/
theorem like_unreadable {session session' : Session} (h : c.Sessions session session')
    (failure : ReadError) :
    c.Like Interruption.unlined
      (.unreadable { line := session.cursor.current.line, cause := failure })
      (.unreadable { line := session'.cursor.current.line, cause := failure }) where
  unlined_eq := rfl
  eq haligned := by rw [c.line_eq haligned (c.current h.cursor)]

theorem mirrors_nextToken : c.Mirrors c.token nextToken nextToken where
  keeps _ session later answer hrun := by
    rcases hadvance : session.cursor.advance with ⟨outcome, cursor⟩
    cases outcome with
    | error failure => simp [run_nextToken_error hadvance] at hrun
    | ok token =>
        obtain ⟨-, rfl⟩ : token = answer ∧ _ = later := by simpa [run_nextToken hadvance] using hrun
        refine ⟨List.prefix_append _ _, fun hend => ?_, fun _ => List.subset_append_right _ _⟩
        rwa [Cursor.advance_of_isEnd hadvance hend]
  outcomes {session session'} h := by
    rcases hadvance : session.cursor.advance with ⟨outcome, cursor⟩
    cases outcome with
    | error failure =>
        rw [run_nextToken_error hadvance]
        rcases c.advance_error h.cursor hadvance with hshorter | ⟨cursor', hadvance'⟩
        · cases nextToken session' with
          | error cause => exact .inl hshorter
          | ok outcome => exact hshorter
        · rw [run_nextToken_error hadvance']
          exact .inr (like_unreadable h failure)
    | ok token =>
        rw [run_nextToken hadvance]
        rcases c.advance_ok h.cursor hadvance with ⟨hshorter, hend⟩ | ⟨token', cursor', hadvance', hcursor⟩
        · have hlost : c.Lost { session with
              cursor, diagnostics := session.diagnostics ++ cursor.current.reports } :=
            ⟨hshorter, hend⟩
          cases nextToken session' with
          | error cause => exact hlost
          | ok outcome => exact .inl hlost
        · rw [run_nextToken hadvance']
          have hcurrent := c.current hcursor
          refine .inr ⟨?_, hcursor, h.table, ?_, h.dummies⟩
          · rwa [Cursor.advance_current hadvance, Cursor.advance_current hadvance'] at hcurrent
          · exact List.rel_append h.diagnostics (reports_of hcurrent)

theorem run_peekKind {session : Session} {token : Token} {cursor : Cursor}
    (h : session.cursor.peek = (.ok token, cursor)) :
    peekKind session = .ok (token.kind, { session with cursor }) := by
  have hleads : Leads peekKind session (fun _ => False) fun answer later =>
      answer = token.kind ∧ later = { session with cursor } :=
    (leads_peekKind h).mpr ⟨rfl, rfl⟩
  obtain ⟨_, _, hrun, rfl, rfl⟩ := hleads.exists_ok
  exact hrun

theorem run_peekKind_error {session : Session} {failure : ReadError} {cursor : Cursor}
    (h : session.cursor.peek = (.error failure, cursor)) :
    peekKind session =
      .error (.unreadable { line := session.cursor.current.line, cause := failure }) := by
  have hleads : Leads peekKind session
      (· = .unreadable { line := session.cursor.current.line, cause := failure })
      fun _ _ => False :=
    (leads_peekKind_error h).mpr rfl
  cases hrun : peekKind session with
  | error cause => rw [(leads_of_error hrun).mp hleads]
  | ok outcome => exact ((leads_of_ok hrun).mp hleads).elim

theorem keeps_peekKind {session later : Session} {kind : TokenKind}
    (hrun : peekKind session = .ok (kind, later)) : session.Kept later := by
  rcases hpeek : session.cursor.peek with ⟨outcome, cursor⟩
  cases outcome with
  | error failure => simp [run_peekKind_error hpeek] at hrun
  | ok token =>
      obtain ⟨-, rfl⟩ : token.kind = kind ∧ _ = later := by simpa [run_peekKind hpeek] using hrun
      refine ⟨List.prefix_rfl, fun hend => ?_, fun hreported => ?_⟩
      · rwa [Cursor.peek_current hpeek]
      · rwa [Session.Reported, Cursor.peek_current hpeek]

/-- A look at the token after the current one, where that is a name or the word `void`. -/
theorem outcomes_peekKind {session session' : Session} (h : c.Sessions session session')
    (hkind : session.cursor.current.kind ∈ [.identifier, .voidWord]) :
    c.Outcomes Eq (peekKind session) (peekKind session') := by
  rcases hpeek : session.cursor.peek with ⟨outcome, cursor⟩
  cases outcome with
  | error failure =>
      obtain ⟨cursor', hpeek'⟩ := c.peek_error h.cursor hkind hpeek
      rw [run_peekKind_error hpeek, run_peekKind_error hpeek']
      exact .inr (like_unreadable h failure)
  | ok seen =>
      obtain ⟨seen', cursor', hpeek', hseen, hcursor⟩ := c.peek_ok h.cursor hkind hpeek
      rw [run_peekKind hpeek, run_peekKind hpeek']
      exact .inr ⟨c.kind_eq hseen, { h with cursor := hcursor }⟩

/-- A production that goes by the kind of the current token.  Where that is a name or the word `void`, the
production may look at the token after it. -/
theorem mirrors_currentKind_bind {next : TokenKind → Production α}
    (h : ∀ kind, c.Mirrors related (next kind) (next kind) ∨
      kind ∈ [.identifier, .voidWord] ∧ ∃ seen, next kind = peekKind >>= seen ∧
        ∀ after, c.Mirrors related (seen after) (seen after)) :
    c.Mirrors related (currentKind >>= next) (currentKind >>= next) where
  keeps hshorter session later answer hrun := by
    have hkind : next session.cursor.current.kind session = .ok (answer, later) := hrun
    rcases h session.cursor.current.kind with hmirrors | ⟨-, seen, hseen, hmirrors⟩
    · exact hmirrors.keeps hshorter hkind
    · rw [hseen] at hkind
      exact Mirrors.keeps_bind keeps_peekKind (fun after => (hmirrors after).keeps hshorter) hkind
  outcomes {session session'} hsessions := by
    have hkind := c.kind_eq (c.current hsessions.cursor)
    have hgoal : c.Outcomes related (next session.cursor.current.kind session)
        (next session.cursor.current.kind session') := by
      rcases h session.cursor.current.kind with hmirrors | ⟨hmem, seen, hseen, hmirrors⟩
      · exact hmirrors.outcomes hsessions
      · rw [hseen]
        exact Mirrors.outcomes_bind (fun after _ hafter => hafter ▸ hmirrors after)
          (outcomes_peekKind hsessions hmem)
    show c.Outcomes related (next session.cursor.current.kind session)
      (next session'.cursor.current.kind session')
    rwa [← hkind]

theorem mirrors_matchToken (kind : TokenKind) : c.Mirrors Eq (matchToken kind) (matchToken kind) :=
  (mirrors_check kind).bind_eq fun _ =>
    .ite (fun _ => mirrors_nextToken.bind fun _ _ _ => .pure rfl) fun _ => .pure rfl

theorem mirrors_matchAny (set : KindSet) : c.Mirrors Eq (matchAny set) (matchAny set) :=
  mirrors_currentKind.bind_eq fun _ =>
    .ite (fun _ => mirrors_nextToken.bind fun _ _ _ => .pure rfl) fun _ => .pure rfl

theorem mirrors_expect (kind : TokenKind) (missing : ErrorKind) :
    c.Mirrors Eq (expect kind missing) (expect kind missing) :=
  (mirrors_matchToken kind).bind_eq fun _ => .ite (fun _ => .pure rfl) fun _ => mirrors_flag missing

theorem mirrors_require (kind : TokenKind) (missing : ErrorKind) :
    c.Mirrors Eq (require kind missing) (require kind missing) :=
  mirrors_current.bind fun _ _ htoken => mirrors_ensure (by rw [c.kind_eq htoken]) htoken missing

/-! ## Recovery -/

theorem mirrors_skipToken (set : KindSet) {token token' : Token} (htoken : c.token token token') :
    c.Mirrors (Turned c.token) (skipToken set token) (skipToken set token') := by
  unfold skipToken
  rw [isEnd_eq htoken, c.kind_eq htoken]
  exact .ite (fun _ => .pure (.done htoken)) fun _ => mirrors_nextToken.bind fun _ _ hnext =>
    .pure (.yield hnext)

theorem mirrors_synchronize (set : KindSet) :
    c.Mirrors c.token (synchronize set) (synchronize set) := by
  refine mirrors_current.bind fun token token' htoken => ?_
  rw [c.kind_eq htoken]
  refine .ite (fun _ => .pure htoken) fun _ => ?_
  refine (mirrors_ensure rfl htoken _).bind_eq fun _ => ?_
  exact mirrors_nextToken.bind fun _ _ hnext =>
    mirrors_loop (fun _ _ hstate => mirrors_skipToken set hstate) hnext

/-! ## Symbols -/

theorem mirrors_onTable {change change' : SymbolTable → α × SymbolTable}
    (h : ∀ table table', c.Tables table table' →
      related (change table).1 (change' table').1 ∧ c.Tables (change table).2 (change' table').2) :
    c.Mirrors related (onTable change) (onTable change') :=
  mirrors_change (fun _ => .of_eq rfl rfl) fun _ _ hsessions =>
    ⟨(h _ _ hsessions.table).1, { hsessions with table := (h _ _ hsessions.table).2 }⟩

theorem mirrors_changeEntry (id : EntryId) {change change' : Entry → Entry}
    (h : ∀ entry entry', c.Entries entry entry' → c.Entries (change entry) (change' entry')) :
    c.Mirrors Eq (changeEntry id change) (changeEntry id change') :=
  mirrors_change (fun _ => .of_eq rfl rfl) fun _ _ hsessions =>
    ⟨rfl, { hsessions with table := hsessions.table.modifyEntry id h }⟩

/-- A use of a name is recorded on both sides, each with its line. -/
theorem mirrors_addLine (id : EntryId) {token token' : Token} (htoken : c.token token token') :
    c.Mirrors Eq (changeEntry id (·.addLine token.line)) (changeEntry id (·.addLine token'.line)) :=
  mirrors_changeEntry id fun _ _ h => h.addLine fun haligned => c.line_eq haligned htoken

/-- An entry is given the same definition and type on both sides. -/
theorem mirrors_define (id : EntryId) (definition : Definition) (type : Option DataType) :
    c.Mirrors Eq (changeEntry id fun entry => { entry with definition, type })
      (changeEntry id fun entry => { entry with definition, type }) :=
  mirrors_changeEntry id fun _ _ h => h.change (fun entry => { entry with definition, type })
    (fun entry => { entry with definition := definition.unlined, type }) fun _ => rfl

theorem mirrors_changeRoutine (id : EntryId) {change change' : Routine → Routine}
    (h : ∀ routine routine', c.Routines routine routine' →
      c.Routines (change routine) (change' routine')) :
    c.Mirrors Eq (changeRoutine id change) (changeRoutine id change') :=
  mirrors_changeEntry id fun _ _ hentry => Entries.mapRoutine hentry h

theorem mirrors_enterLocal {name name' : String} (hname : Text.lower name = Text.lower name') :
    c.Mirrors Eq (enterLocal name) (enterLocal name') := by
  refine mirrors_onTable fun table table' h => ?_
  unfold SymbolTable.enterLocal
  rw [h.lookupLocal_eq hname, h.size_eq, hname]
  cases table'.lookupLocal name' with
  | some taken => exact ⟨rfl, h⟩
  | none => exact ⟨rfl, h.bindNew _⟩

theorem mirrors_enterOrDetach {name name' : String} (hname : Text.lower name = Text.lower name') :
    c.Mirrors Eq (enterOrDetach name) (enterOrDetach name') := by
  refine mirrors_onTable fun table table' h => ?_
  unfold SymbolTable.enterLocal
  rw [h.lookupLocal_eq hname, h.size_eq, hname]
  cases table'.lookupLocal name' with
  | some taken => exact ⟨h.size_eq, h.createDetached hname .undefined .undefined⟩
  | none => exact ⟨rfl, h.bindNew _⟩

end Production

end FrontEnd
