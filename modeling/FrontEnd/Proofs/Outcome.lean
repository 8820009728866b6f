import FrontEnd.Compile.Session
import Mathlib.Tactic.Common

/-!
# Outcomes of productions

A production that starts in a session either answers and leaves a session behind, or is interrupted.
`Leads` says what is true of the outcome, in the one case and in the other.  What a sequence of
productions leads to is what its first leads to, followed by what the rest leads to from there
(`leads_bind`), so the conditions for a whole production are computed from those of its parts.

The rules that read the state without changing it are equivalences and are tagged for `simp`.
-/

namespace FrontEnd

/-- What is reported of a token: the reason why it is none, if it is none, with its place and its text. -/
def Token.reports (token : Token) : List Diagnostic :=
  token.scanError?.toList.map fun reason =>
    { kind := .ofScanError reason, location := token.location, text := token.text }

namespace Production

variable {α β σ : Type} {session : Session} {stop : Interruption → Prop} {post : α → Session → Prop}

/-- What is true of the outcome of a production: `post` of the answer and the session that is left, or
`stop` of the interruption. -/
def Leads (production : Production α) (session : Session) (stop : Interruption → Prop)
    (post : α → Session → Prop) : Prop :=
  match production session with
  | .ok (answer, later) => post answer later
  | .error cause => stop cause

theorem leads_of_ok {production : Production α} {answer : α} {later : Session}
    (h : production session = .ok (answer, later)) :
    Leads production session stop post ↔ post answer later := by
  simp [Leads, h]

theorem leads_of_error {production : Production α} {cause : Interruption}
    (h : production session = .error cause) : Leads production session stop post ↔ stop cause := by
  simp [Leads, h]

/-- A run is what it is. -/
theorem leads_run (production : Production α) (session : Session) :
    Leads production session (fun _ => True) fun answer later =>
      production session = .ok (answer, later) := by
  cases h : production session with
  | error cause => exact (leads_of_error h).mpr trivial
  | ok outcome => exact (leads_of_ok h).mpr rfl

/-- Of a production that cannot be interrupted: it answers. -/
theorem Leads.exists_ok {production : Production α}
    (h : Leads production session (fun _ => False) post) :
    ∃ answer later, production session = .ok (answer, later) ∧ post answer later := by
  cases houtcome : production session with
  | error cause => exact ((leads_of_error houtcome).mp h).elim
  | ok outcome => exact ⟨outcome.1, outcome.2, rfl, (leads_of_ok houtcome).mp h⟩

/-- What is true of an outcome in two respects. -/
theorem Leads.and {production : Production α} {stop' : Interruption → Prop}
    {post' : α → Session → Prop} (h : Leads production session stop post)
    (h' : Leads production session stop' post') :
    Leads production session stop fun answer later => post answer later ∧ post' answer later := by
  unfold Leads at h h' ⊢
  split at h
  · next hrun =>
      rw [hrun] at h'
      exact ⟨h, h'⟩
  · exact h

theorem Leads.mono {production : Production α} {stop' : Interruption → Prop}
    {post' : α → Session → Prop} (h : Leads production session stop post)
    (hstop : ∀ cause, stop cause → stop' cause)
    (hpost : ∀ answer later, post answer later → post' answer later) :
    Leads production session stop' post' := by
  unfold Leads at h ⊢
  split at h
  · exact hpost _ _ h
  · exact hstop _ h

theorem Leads.imp {production : Production α} {post' : α → Session → Prop}
    (h : Leads production session stop post)
    (hpost : ∀ answer later, post answer later → post' answer later) :
    Leads production session stop post' :=
  h.mono (fun _ hstop => hstop) hpost

/-- What an outcome owes to a condition can be asked for under the condition only. -/
theorem leads_of_imp {production : Production α} {condition : Prop}
    (h : condition → Leads production session (fun _ => True) post) :
    Leads production session (fun _ => True) fun answer later => condition → post answer later := by
  by_cases hcondition : condition
  · exact (h hcondition).imp fun _ _ hpost _ => hpost
  · exact (leads_run production session).imp fun _ _ _ hyes =>
      absurd hyes hcondition

/-! ## Sequences -/

@[simp] theorem leads_pure (answer : α) :
    Leads (pure answer) session stop post ↔ post answer session :=
  Iff.rfl

@[simp] theorem leads_throw (cause : Interruption) :
    Leads (throw cause : Production α) session stop post ↔ stop cause :=
  Iff.rfl

@[simp] theorem leads_bind (production : Production α) (next : α → Production β)
    {post : β → Session → Prop} :
    Leads (production >>= next) session stop post ↔
      Leads production session stop fun answer later => Leads (next answer) later stop post := by
  cases h : production session with
  | error cause =>
      have hbind : (production >>= next) session = .error cause := by
        simp [bind, StateT.bind, h, Except.bind]
      rw [leads_of_error h, leads_of_error hbind]
  | ok outcome =>
      rw [leads_of_ok h]
      simp [Leads, bind, StateT.bind, h, Except.bind]

/-- What one production establishes is what the next begins with. -/
theorem Leads.bind {production : Production α} {next : α → Production β}
    {between : α → Session → Prop} {post : β → Session → Prop}
    (h : Leads production session stop between)
    (hnext : ∀ answer later, between answer later → Leads (next answer) later stop post) :
    Leads (production >>= next) session stop post :=
  (leads_bind production next).mpr (h.imp hnext)

@[simp] theorem leads_map (production : Production α) (change : α → β) {post : β → Session → Prop} :
    Leads (change <$> production) session stop post ↔
      Leads production session stop fun answer later => post (change answer) later := by
  rw [map_eq_pure_bind, leads_bind]
  exact Iff.rfl

section

variable {first : Production α} {next : α → Production β} {between later : Session}

theorem pure_eq (answer : α) (session : Session) :
    (pure answer : Production α) session = .ok (answer, session) :=
  rfl

theorem modify_eq (change : Session → Session) (session : Session) :
    (modify change : Production Unit) session = .ok ((), change session) :=
  rfl

theorem bind_of_ok {answer : α} (h : first session = .ok (answer, between)) :
    (first >>= next) session = next answer between := by
  simp [Bind.bind, StateT.bind, Except.bind, h]

theorem bind_of_error {cause : Interruption} (h : first session = .error cause) :
    (first >>= next) session = .error cause := by
  simp [Bind.bind, StateT.bind, Except.bind, h]

/-- A sequence answers only if its parts do, one after the other. -/
theorem exists_of_bind {result : β} (h : (first >>= next) session = .ok (result, later)) :
    ∃ answer between, first session = .ok (answer, between) ∧
      next answer between = .ok (result, later) := by
  cases houtcome : first session with
  | error cause => simp [bind_of_error houtcome] at h
  | ok outcome => exact ⟨outcome.1, outcome.2, rfl, by rwa [bind_of_ok houtcome] at h⟩

end

/-! ## The state -/

@[simp] theorem leads_get {post : Session → Session → Prop} :
    Leads get session stop post ↔ post session session :=
  Iff.rfl

@[simp] theorem leads_set {post : PUnit → Session → Prop} (later : Session) :
    Leads (set later) session stop post ↔ post ⟨⟩ later :=
  Iff.rfl

@[simp] theorem leads_current {post : Token → Session → Prop} :
    Leads current session stop post ↔ post session.cursor.current session :=
  Iff.rfl

@[simp] theorem leads_currentKind {post : TokenKind → Session → Prop} :
    Leads currentKind session stop post ↔ post session.cursor.current.kind session :=
  Iff.rfl

theorem current_bind {next : Token → Production β} :
    (current >>= next) session = next session.cursor.current session :=
  rfl

theorem currentKind_bind {next : TokenKind → Production β} :
    (currentKind >>= next) session = next session.cursor.current.kind session :=
  rfl

@[simp] theorem leads_position {post : Nat → Session → Prop} :
    Leads position session stop post ↔ post session.cursor.position session :=
  Iff.rfl

@[simp] theorem leads_check {post : Bool → Session → Prop} (kind : TokenKind) :
    Leads (check kind) session stop post ↔ post (session.cursor.current.kind == kind) session :=
  Iff.rfl

@[simp] theorem leads_budget {post : Nat → Session → Prop} :
    Leads budget session stop post ↔ post (session.cursor.remaining + 2) session :=
  Iff.rfl

@[simp] theorem leads_table {post : SymbolTable → Session → Prop} :
    Leads table session stop post ↔ post session.table session :=
  Iff.rfl

@[simp] theorem leads_entry {post : Entry → Session → Prop} (id : EntryId) :
    Leads (entry id) session stop post ↔ post (session.table.entry id) session :=
  Iff.rfl

@[simp] theorem leads_lookup {post : Option EntryId → Session → Prop} (name : String) :
    Leads (lookup name) session stop post ↔ post (session.table.lookup name) session :=
  Iff.rfl

@[simp] theorem leads_changeEntry {post : Unit → Session → Prop} (id : EntryId)
    (change : Entry → Entry) :
    Leads (changeEntry id change) session stop post ↔
      post () { session with table := session.table.modifyEntry id change } :=
  Iff.rfl

theorem leads_changeRoutine {post : Unit → Session → Prop} (id : EntryId) (change : Routine → Routine) :
    Leads (changeRoutine id change) session stop post ↔
      post () { session with table := session.table.modifyRoutine id change } :=
  Iff.rfl

@[simp] theorem leads_onTable (change : SymbolTable → α × SymbolTable) :
    Leads (onTable change) session stop post ↔
      post (change session.table).1 { session with table := (change session.table).2 } :=
  Iff.rfl

/-! ## Errors and tokens -/

@[simp] theorem leads_flagAt {post : Unit → Session → Prop} (token : Token) (kind : ErrorKind) :
    Leads (flagAt token kind) session stop post ↔
      post () { session with
                  diagnostics := session.diagnostics ++ [Diagnostic.atToken token kind] } :=
  Iff.rfl

theorem leads_nextToken {post : Token → Session → Prop} {token : Token} {cursor : Cursor}
    (h : session.cursor.advance = (.ok token, cursor)) :
    Leads nextToken session stop post ↔
      post token { session with
                     cursor
                     diagnostics := session.diagnostics ++ cursor.current.reports } := by
  simp only [nextToken, leads_bind, leads_get, h, leads_set, flagScanError, leads_current]
  cases hreason : cursor.current.scanError? <;> simp [flag, Token.reports, Diagnostic.atToken, hreason]

theorem leads_nextToken_error {post : Token → Session → Prop} {failure : ReadError}
    {cursor : Cursor} (h : session.cursor.advance = (.error failure, cursor)) :
    Leads nextToken session stop post ↔
      stop (.unreadable { line := session.cursor.current.line, cause := failure }) := by
  simp [nextToken, h, giveUp]

/-- A token of another kind is not consumed. -/
theorem leads_matchToken_of_ne {post : Bool → Session → Prop} {kind : TokenKind}
    (hkind : session.cursor.current.kind ≠ kind) :
    Leads (matchToken kind) session stop post ↔ post false session := by
  simp [matchToken, hkind]

theorem leads_peekKind {post : TokenKind → Session → Prop} {token : Token} {cursor : Cursor}
    (h : session.cursor.peek = (.ok token, cursor)) :
    Leads peekKind session stop post ↔ post token.kind { session with cursor } := by
  simp [peekKind, h]

theorem leads_peekKind_error {post : TokenKind → Session → Prop} {failure : ReadError}
    {cursor : Cursor} (h : session.cursor.peek = (.error failure, cursor)) :
    Leads peekKind session stop post ↔
      stop (.unreadable { line := session.cursor.current.line, cause := failure }) := by
  simp [peekKind, h, giveUp]

/-! ## Loops -/

/-- A loop with some of its budget left does one step, and ends or goes on with the rest. -/
theorem leads_loopWithin_succ (step : σ → Production (ForInStep σ)) (budget : Nat)
    (state : σ) {post : σ → Session → Prop} :
    Leads (loopWithin step (budget + 1) state) session stop post ↔
      Leads (step state) session stop fun next later =>
        match next with
        | .done state => post state later
        | .yield state => Leads (loopWithin step budget state) later stop post := by
  rw [loopWithin, leads_bind]
  refine Iff.of_eq (congrArg _ ?_)
  funext next later
  cases next <;> rfl

/-- What holds after a turn of a loop: `finished` if it was the last, `continued` otherwise. -/
def AfterTurn (finished continued : σ → Session → Prop) : ForInStep σ → Session → Prop
  | .done state => finished state
  | .yield state => continued state

/-- What each turn of a loop keeps while the loop goes on, and establishes when it ends, is so when the loop
has ended. -/
theorem leads_loop {step : σ → Production (ForInStep σ)} {finished invariant : σ → Session → Prop}
    (hstep : ∀ state session, invariant state session →
      Leads (step state) session (fun _ => True) (AfterTurn finished invariant))
    {state : σ} (h : invariant state session) :
    Leads (loop step state) session (fun _ => True) finished := by
  have hwithin (budget : Nat) : ∀ state session, invariant state session →
      Leads (loopWithin step budget state) session (fun _ => True) finished := by
    induction budget with
    | zero => exact fun _ _ _ => trivial
    | succ budget ih =>
        intro state session hinvariant
        rw [leads_loopWithin_succ]
        refine (hstep state session hinvariant).imp fun next later hnext => ?_
        cases next with
        | done state => exact hnext
        | yield state => exact ih state later hnext
  rw [loop, leads_bind, leads_budget]
  exact hwithin _ state session h

end Production

end FrontEnd
