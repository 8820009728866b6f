import FrontEnd.Proofs.Step

/-!
# Traces of productions

`Traced` says of a production that its run is made of steps, ends in a lawful session with an answer that
meets a condition, and is interrupted only where a cut is possible.  A sequence is traced if its parts are
(`Traced.bind`); what only reads the session can be passed over (the `simp` rules); and a loop is traced
if its step keeps an invariant and goes on only after it has consumed a token (`Traced.loop`).

The last section traces the productions from which all others are built.
-/

namespace FrontEnd

/-- Whether some known token is not proper, in which case a loop may make no progress. -/
def Improper (known : Token → Prop) : Prop :=
  ∃ token, known token ∧ ¬ token.Proper

theorem Steps.ahead_lt {known : Token → Prop} {place : Place} {session later : Session}
    (h : Steps known place session later)
    (hmoved : session.cursor.position < later.cursor.position) :
    later.cursor.ahead < session.cursor.ahead := by
  have := h.position_add_ahead
  omega

/-- Where nothing has been consumed, the end of the file has not been reached. -/
theorem Steps.isEnd_of_still {known : Token → Prop} {place : Place} {session later : Session}
    (h : Steps known place session later) (hend : session.cursor.current.isEnd = false)
    (hstill : later.cursor.position = session.cursor.position) :
    later.cursor.current.isEnd = false := by
  by_contra hnot
  have := Cursor.ahead_eq_zero (by simpa using hnot : later.cursor.current.isEnd = true)
  have := Cursor.ahead_pos hend
  have := h.position_add_ahead
  omega

/-- Whether an error of a kind has been recorded. -/
def Session.Flagged (session : Session) (kind : ErrorKind) : Prop :=
  ∃ report ∈ session.diagnostics, report.kind = kind

theorem Session.Flagged.ne_nil {session : Session} {kind : ErrorKind} (h : session.Flagged kind) :
    session.diagnostics ≠ [] := by
  obtain ⟨report, hmem, -⟩ := h
  exact List.ne_nil_of_mem hmem

/-- An error that has been recorded stays so. -/
theorem Steps.flagged {known : Token → Prop} {place : Place} {session later : Session}
    (h : Steps known place session later) {kind : ErrorKind} (hkind : session.Flagged kind) :
    later.Flagged kind := by
  obtain ⟨report, hmem, hkind⟩ := hkind
  exact ⟨report, h.diagnostics_prefix.subset hmem, hkind⟩

namespace Production

variable {α β σ : Type} {known : Token → Prop} {place : Place} {session : Session}
  {post : α → Session → Prop}

/-- Whether the run of a production is made of steps, leaves a lawful session and an answer with `post`,
and is interrupted only by a cut. -/
def Traced (known : Token → Prop) (place : Place) (production : Production α) (session : Session)
    (post : α → Session → Prop) : Prop :=
  Leads production session (Cut known place session) fun answer later =>
    Steps known place session later ∧ later.Lawful known ∧ post answer later

namespace Traced

protected theorem pure {answer : α} (hlawful : session.Lawful known) (h : post answer session) :
    Traced known place (pure answer) session post :=
  ⟨.refl _, hlawful, h⟩

protected theorem bind {production : Production α} {next : α → Production β}
    {mid : α → Session → Prop} {post : β → Session → Prop}
    (h : Traced known place production session mid)
    (hnext : ∀ answer later, Steps known place session later → later.Lawful known →
      mid answer later → Traced known place (next answer) later post) :
    Traced known place (production >>= next) session post := by
  refine (leads_bind production next).mpr (h.mono (fun _ hcut => hcut) ?_)
  rintro answer later ⟨hsteps, hlawful, hmid⟩
  refine (hnext answer later hsteps hlawful hmid).mono (fun _ hcut => hcut.of_steps hsteps) ?_
  rintro last final ⟨hsteps', hlawful', hpost⟩
  exact ⟨hsteps.trans hsteps', hlawful', hpost⟩

theorem mono {production : Production α} {post' : α → Session → Prop}
    (h : Traced known place production session post)
    (hpost : ∀ answer later, Steps known place session later → later.Lawful known →
      post answer later → post' answer later) :
    Traced known place production session post' := by
  refine Leads.mono h (fun _ hcut => hcut) ?_
  rintro answer later ⟨hsteps, hlawful, hmid⟩
  exact ⟨hsteps, hlawful, hpost answer later hsteps hlawful hmid⟩

/-- What runs at a place can run wherever more can be done; it still does no more. -/
theorem within {outer : Place} {production : Production α}
    (h : Traced known place production session post) (hwithin : place.Within outer) :
    Traced known outer production session fun answer later =>
      Steps known place session later ∧ post answer later := by
  refine Leads.mono h (fun _ hcut => hcut.within hwithin) ?_
  rintro answer later ⟨hsteps, hlawful, hpost⟩
  exact ⟨hsteps.within hwithin, hlawful, hsteps, hpost⟩

/-- What runs in declarations and statements can run at the top level, where it only lets the table
grow. -/
theorem atTop {production : Production α} (h : Traced known place production session post)
    (hplace : place.settles = false) :
    Traced known .topLevel production session fun answer later =>
      session.table.Grows later.table ∧ post answer later :=
  (h.within (.topLevel place)).mono fun _ _ _ _ hpost => ⟨hpost.1.grows hplace, hpost.2⟩

/-- A production that makes a single step. -/
theorem of_step {production : Production α} {answer : α} {later : Session}
    (h : production session = .ok (answer, later)) (hlawful : session.Lawful known)
    (hstep : Step known place session later) :
    Traced known place production session fun given final => given = answer ∧ final = later :=
  (leads_of_ok h).mpr ⟨.single hstep, hstep.lawful hlawful, rfl, rfl⟩

/-- What is traced of a production whose run is known. -/
theorem withRun {production : Production α} {answer : α} {later : Session}
    (h : Traced known place production session post)
    (hrun : production session = .ok (answer, later)) :
    Traced known place production session fun given final =>
      (given = answer ∧ final = later) ∧ post given final := by
  have h' := (leads_of_ok hrun).mp h
  exact (leads_of_ok hrun).mpr ⟨h'.1, h'.2.1, ⟨rfl, rfl⟩, h'.2.2⟩

end Traced

/-! ## Reading the session -/

@[simp] theorem traced_current_bind (next : Token → Production α) :
    Traced known place (current >>= next) session post ↔
      Traced known place (next session.cursor.current) session post :=
  Iff.rfl

@[simp] theorem traced_currentKind_bind (next : TokenKind → Production α) :
    Traced known place (currentKind >>= next) session post ↔
      Traced known place (next session.cursor.current.kind) session post :=
  Iff.rfl

@[simp] theorem traced_check_bind (kind : TokenKind) (next : Bool → Production α) :
    Traced known place (check kind >>= next) session post ↔
      Traced known place (next (session.cursor.current.kind == kind)) session post :=
  Iff.rfl

@[simp] theorem traced_position_bind (next : Nat → Production α) :
    Traced known place (position >>= next) session post ↔
      Traced known place (next session.cursor.position) session post :=
  Iff.rfl

@[simp] theorem traced_budget_bind (next : Nat → Production α) :
    Traced known place (budget >>= next) session post ↔
      Traced known place (next (session.cursor.remaining + 2)) session post :=
  Iff.rfl

@[simp] theorem traced_table_bind (next : SymbolTable → Production α) :
    Traced known place (table >>= next) session post ↔
      Traced known place (next session.table) session post :=
  Iff.rfl

@[simp] theorem traced_entry_bind (id : EntryId) (next : Entry → Production α) :
    Traced known place (entry id >>= next) session post ↔
      Traced known place (next (session.table.entry id)) session post :=
  Iff.rfl

@[simp] theorem traced_lookup_bind (name : String) (next : Option EntryId → Production α) :
    Traced known place (lookup name >>= next) session post ↔
      Traced known place (next (session.table.lookup name)) session post :=
  Iff.rfl

/-! ## Loops -/

/-- A budget that exceeds what is ahead is not spent. -/
theorem Traced.loopWithin {step : σ → Production (ForInStep σ)} {invariant : σ → Session → Prop}
    {post : σ → Session → Prop}
    (hstep : ∀ state later, Steps known place session later → later.Lawful known →
      invariant state later → Traced known place (step state) later
        (AfterTurn post fun state final => invariant state final ∧
          (Improper known ∨ later.cursor.position < final.cursor.position)))
    {budget : Nat} {state : σ} {later : Session} (hsteps : Steps known place session later)
    (hlawful : later.Lawful known) (hinvariant : invariant state later)
    (hbudget : Improper known ∨ later.cursor.ahead < budget) :
    Traced known place (loopWithin step budget state) later post := by
  induction budget generalizing state later with
  | zero =>
      -- with proper names the budget is never spent
      rcases hbudget with ⟨token, hknown, himproper⟩ | hlt
      · exact Cut.unfinished hknown himproper
      · exact absurd hlt (Nat.not_lt_zero _)
  | succ budget ih =>
      rw [Production.loopWithin]
      refine (hstep state later hsteps hlawful hinvariant).bind fun next final hmore hfinal hnext => ?_
      cases next with
      | done state => exact .pure hfinal hnext
      | yield state =>
          obtain ⟨hkept, hprogress⟩ := hnext
          refine ih (hsteps.trans hmore) hfinal hkept ?_
          rcases hprogress with himproper | hmoved
          · exact Or.inl himproper
          · -- a token has been consumed, so one less is ahead
            refine hbudget.imp_right fun hlt => ?_
            have := hmore.ahead_lt hmoved
            omega

/-- A loop is traced if its step keeps an invariant and goes on only after it has consumed a token. -/
theorem Traced.loop {step : σ → Production (ForInStep σ)} (invariant : σ → Session → Prop)
    {post : σ → Session → Prop} {state : σ} (hlawful : session.Lawful known)
    (hinvariant : invariant state session)
    (hstep : ∀ state later, Steps known place session later → later.Lawful known →
      invariant state later → Traced known place (step state) later
        (AfterTurn post fun state final => invariant state final ∧
          (Improper known ∨ later.cursor.position < final.cursor.position))) :
    Traced known place (loop step state) session post := by
  have := session.cursor.ahead_le_remaining
  exact Traced.loopWithin hstep (.refl _) hlawful hinvariant (Or.inr (by omega))

/-! ## Errors -/

theorem traced_flagAt {token : Token} (kind : ErrorKind) (hlawful : session.Lawful known)
    (htoken : known token) (hflags : place.flags kind = true) :
    Traced known place (flagAt token kind) session fun _ later =>
      later.cursor = session.cursor ∧ later.table = session.table ∧ later.Flagged kind := by
  refine (Traced.of_step rfl hlawful (.flag hflags htoken)).mono ?_
  rintro _ _ - - ⟨-, rfl⟩
  exact ⟨rfl, rfl, Diagnostic.atToken token kind, by simp, rfl⟩

theorem traced_flag (kind : ErrorKind) (hlawful : session.Lawful known)
    (hflags : place.flags kind = true) :
    Traced known place (flag kind) session fun _ later =>
      later.cursor = session.cursor ∧ later.table = session.table ∧ later.Flagged kind :=
  traced_flagAt kind hlawful hlawful.current hflags

/-- What was to be ensured holds, or it has been recorded that it does not. -/
theorem traced_ensureOrFlag {token : Token} (holds : Bool) (kind : ErrorKind)
    (hlawful : session.Lawful known) (htoken : known token)
    (hflags : place.flags kind = true) :
    Traced known place (ensure holds token kind) session fun _ later =>
      later.cursor = session.cursor ∧ later.table = session.table ∧
        (holds = true ∨ later.Flagged kind) := by
  cases holds with
  | true => exact .pure hlawful ⟨rfl, rfl, Or.inl rfl⟩
  | false =>
      exact (traced_flagAt kind hlawful htoken hflags).mono
        fun _ _ _ _ h => ⟨h.1, h.2.1, Or.inr h.2.2⟩

/-- Where no error has been recorded, what was ensured holds. -/
theorem traced_ensure {token : Token} (holds : Bool) (kind : ErrorKind)
    (hlawful : session.Lawful known) (htoken : known token)
    (hflags : place.flags kind = true) :
    Traced known place (ensure holds token kind) session fun _ later =>
      later.cursor = session.cursor ∧ later.table = session.table ∧
        (later.diagnostics = [] → holds = true) :=
  (traced_ensureOrFlag holds kind hlawful htoken hflags).mono fun _ _ _ _ h =>
    ⟨h.1, h.2.1, fun hclean => h.2.2.resolve_right fun hflagged => hflagged.ne_nil hclean⟩

theorem traced_require (kind : TokenKind) (missing : ErrorKind) (hlawful : session.Lawful known)
    (hflags : place.flags missing = true) :
    Traced known place (require kind missing) session fun _ later =>
      later.cursor = session.cursor ∧ later.table = session.table := by
  unfold require
  rw [traced_current_bind]
  exact (traced_ensure _ missing hlawful hlawful.current hflags).mono fun _ _ _ _ h => ⟨h.1, h.2.1⟩

/-! ## Tokens -/

theorem traced_nextToken (hlawful : session.Lawful known) :
    Traced known place nextToken session fun token later =>
      token = later.cursor.current ∧ later.table = session.table ∧
        (session.cursor.current.isEnd = false →
          session.cursor.position < later.cursor.position) := by
  unfold Traced
  rcases hadvance : session.cursor.advance with ⟨answer, cursor⟩
  cases answer with
  | error failure =>
      rw [leads_nextToken_error hadvance]
      exact .unreadable (.refl _) (.of_advance hadvance)
  | ok token =>
      have hstep : Step known place session _ := .consume hadvance
      rw [leads_nextToken hadvance]
      refine ⟨.single hstep, hstep.lawful hlawful, ?_, rfl, fun hend => ?_⟩
      · exact (Cursor.advance_current hadvance).symm
      · simp [Cursor.advance_position hadvance hend]

theorem traced_peekKind (hlawful : session.Lawful known) :
    Traced known place peekKind session fun _ later =>
      later.cursor.current = session.cursor.current ∧
        later.cursor.position = session.cursor.position ∧ later.table = session.table ∧
          later.diagnostics = session.diagnostics := by
  unfold Traced
  rcases hpeek : session.cursor.peek with ⟨answer, cursor⟩
  cases answer with
  | error failure =>
      rw [leads_peekKind_error hpeek]
      exact .unreadable (.refl _) (.of_peek hpeek)
  | ok token =>
      have hstep : Step known place session _ := .look hpeek
      rw [leads_peekKind hpeek]
      exact ⟨.single hstep, hstep.lawful hlawful, Cursor.peek_current hpeek,
        Cursor.peek_position hpeek, rfl, rfl⟩

/-- A token of another kind than the end of the file is not the end. -/
theorem isEnd_of_kind {token : Token} {kind : TokenKind} (h : token.kind = kind)
    (hkind : kind ≠ .endOfFile) : token.isEnd = false := by
  simp [Token.isEnd, h, hkind]

/-- Where the current token is consumed and is not the end of the file, one less is ahead. -/
theorem traced_consume {kind : TokenKind} (hcurrent : session.cursor.current.kind = kind)
    (hkind : kind ≠ .endOfFile) (hlawful : session.Lawful known) :
    Traced known place nextToken session fun _ later =>
      later.table = session.table ∧ later.cursor.ahead < session.cursor.ahead :=
  (traced_nextToken hlawful).mono fun _ _ hsteps _ hnext =>
    ⟨hnext.2.1, hsteps.ahead_lt (hnext.2.2 (isEnd_of_kind hcurrent hkind))⟩

theorem traced_matchToken {kind : TokenKind} (hkind : kind ≠ .endOfFile)
    (hlawful : session.Lawful known) :
    Traced known place (matchToken kind) session fun matched later =>
      later.table = session.table ∧
        (matched = true ∧ session.cursor.current.kind = kind ∧
            session.cursor.position < later.cursor.position ∨
          matched = false ∧ session.cursor.current.kind ≠ kind ∧ later = session) := by
  unfold matchToken
  rw [traced_check_bind]
  by_cases hcurrent : session.cursor.current.kind = kind
  · rw [if_pos (beq_iff_eq.mpr hcurrent)]
    refine (traced_nextToken hlawful).bind fun _ later _ hlater hnext => .pure hlater ?_
    exact ⟨hnext.2.1, Or.inl ⟨rfl, hcurrent, hnext.2.2 (isEnd_of_kind hcurrent hkind)⟩⟩
  · rw [if_neg (by simpa using hcurrent)]
    exact .pure hlawful ⟨rfl, Or.inr ⟨rfl, hcurrent, rfl⟩⟩

theorem traced_matchAny (set : KindSet) (hlawful : session.Lawful known) :
    Traced known place (matchAny set) session fun _ later => later.table = session.table := by
  unfold matchAny
  rw [traced_currentKind_bind]
  split
  · exact (traced_nextToken hlawful).bind fun _ _ _ hlater hnext => .pure hlater hnext.2.1
  · exact .pure hlawful rfl

theorem traced_expect {kind : TokenKind} (hkind : kind ≠ .endOfFile) (missing : ErrorKind)
    (hlawful : session.Lawful known) (hflags : place.flags missing = true) :
    Traced known place (expect kind missing) session fun _ later =>
      later.table = session.table := by
  unfold expect
  refine (traced_matchToken hkind hlawful).bind fun matched later _ hlater hmatched => ?_
  cases matched with
  | true => exact .pure hlater hmatched.1
  | false =>
      exact (traced_flag missing hlater hflags).mono fun _ _ _ _ h => h.2.1.trans hmatched.1

/-- A parse resumes at a token of the set or at the end of the file, and stays where it is if it can. -/
theorem traced_synchronize (set : KindSet) (hlawful : session.Lawful known) :
    Traced known place (synchronize set) session fun token later =>
      token = later.cursor.current ∧ later.table = session.table ∧
        (token.isEnd = true ∨ set.contains token.kind = true) ∧
          (set.contains session.cursor.current.kind = true → later = session) := by
  unfold synchronize
  rw [traced_current_bind]
  split
  · next hcontains => exact .pure hlawful ⟨rfl, rfl, Or.inr hcontains, fun _ => rfl⟩
  · next hmissing =>
      refine (traced_ensure _ _ hlawful hlawful.current rfl).bind fun _ flagged _ hflagged hensure => ?_
      refine (traced_nextToken hflagged).bind fun token moved _ hmoved hnext => ?_
      have htable : moved.table = session.table := hnext.2.1.trans hensure.2.1
      refine Traced.loop
        (fun token later => token = later.cursor.current ∧ later.table = session.table)
        hmoved ⟨hnext.1, htable⟩ fun token later _ hlater hkept => ?_
      obtain ⟨rfl, htable⟩ := hkept
      unfold skipToken
      split
      · next hstop =>
          exact .pure hlater ⟨rfl, htable, by simpa using hstop,
            fun hcontains => absurd hcontains hmissing⟩
      · next hgoes =>
          have hend : later.cursor.current.isEnd = false := by
            simp only [Bool.or_eq_true, not_or, Bool.not_eq_true] at hgoes
            exact hgoes.1
          refine (traced_nextToken hlater).bind fun token final _ hfinal hnext => .pure hfinal ?_
          exact ⟨⟨hnext.1, hnext.2.1.trans htable⟩, Or.inr (hnext.2.2 hend)⟩

/-! ## Symbols -/

theorem traced_enterLocal_bind_of_taken {name : String} {taken : EntryId}
    (h : session.table.lookupLocal name = some taken) (next : Option EntryId → Production α) :
    Traced known place (enterLocal name >>= next) session post ↔
      Traced known place (next none) session post := by
  simp [Traced, enterLocal, SymbolTable.enterLocal, h]

/-- A use of a name is recorded with its line. -/
theorem traced_addLine (id : EntryId) {token : Token} (hlawful : session.Lawful known)
    (htoken : known token) :
    Traced known place (changeEntry id (·.addLine token.line)) session fun _ later =>
      later = { session with table := session.table.modifyEntry id (·.addLine token.line) } :=
  (Traced.of_step rfl hlawful (.declare (.mention id htoken))).mono fun _ _ _ _ h => h.2

end Production

end FrontEnd
