import FrontEnd.Proofs.Nesting

/-!
# The tokens that a run passes

A run of a production passes the tokens from the one that is current when it begins up to the one that is
current when it ends (`Session.Passes`).  The end of the file is never passed, however often it is consumed.

What is reported is never taken back (`Session.Prolongs`), so a run that reports nothing consists of runs that
report nothing.  What such a run does is said by `Cleanly`.
-/

namespace FrontEnd

namespace Cursor

/-- What is passed when the current token is consumed. -/
def consumed (cursor : Cursor) : List Token :=
  if cursor.current.isEnd then [] else [cursor.current]

theorem consumed_of_not_end {cursor : Cursor} (h : cursor.current.isEnd = false) :
    cursor.consumed = [cursor.current] := by
  rw [consumed, h, if_neg Bool.false_ne_true]

/-- The token that has been looked at is the one after the current token. -/
theorem unread_of_peek_ok {cursor looked : Cursor} {token : Token} (h : cursor.peek = (.ok token, looked))
    (hend : cursor.current.isEnd = false) : ∃ rest, cursor.unread = cursor.current :: token :: rest := by
  have hready : looked.lookahead = some token := by
    unfold peek at h
    rw [hend, if_neg Bool.false_ne_true] at h
    split at h
    · next ready hlook =>
        obtain ⟨rfl, rfl⟩ : ready = token ∧ cursor = looked := by simpa using h
        exact hlook
    · split at h
      · obtain ⟨rfl, rfl⟩ : _ = token ∧ _ = looked := by simpa using h
        rfl
      · simp at h
  have hcurrent := peek_current h
  have hadvance : looked.advance =
      (.ok token, { looked with current := token, lookahead := none, position := looked.position + 1 }) := by
    simp [advance, hcurrent, hend, hready]
  have hunread := unread_of_advance hadvance (by rwa [hcurrent])
  rw [unread_of_peek h, hcurrent] at hunread
  exact ⟨_, hunread⟩

end Cursor

namespace Session

/-- Whether some tokens lie between the current tokens of two sessions. -/
structure Passes (session : Session) (read : List Token) (later : Session) : Prop where
  unread : session.cursor.unread = read ++ later.cursor.unread
  position : later.cursor.position = session.cursor.position + read.length

/-- Whether nothing has been taken back that was reported. -/
def Prolongs (session later : Session) : Prop :=
  session.diagnostics <+: later.diagnostics

variable {session between later : Session} {read more : List Token}

theorem Reads.prolongs (h : session.Reads later) : session.Prolongs later := by
  cases h
  exact List.prefix_append _ _

/-- Where no token has been consumed, the session still stands on the same one. -/
theorem Passes.unread_of_still (h : session.Passes read later)
    (hstill : later.cursor.position = session.cursor.position) :
    later.cursor.unread = session.cursor.unread := by
  have hposition := h.position
  obtain rfl : read = [] := List.length_eq_zero_iff.mp (by omega)
  exact h.unread.symm

theorem Passes.refl (session : Session) : session.Passes [] session :=
  ⟨rfl, rfl⟩

theorem Passes.trans (h : session.Passes read between) (h' : between.Passes more later) :
    session.Passes (read ++ more) later where
  unread := by rw [h.unread, h'.unread, List.append_assoc]
  position := by rw [h'.position, h.position, List.length_append, Nat.add_assoc]

theorem current_eq_of_unread {token : Token} {rest : List Token}
    (h : session.cursor.unread = token :: rest) : session.cursor.current = token :=
  (List.cons.inj h).1

/-- Only the end of the file has nothing after it. -/
theorem isEnd_of_unread {token next : Token} {rest : List Token}
    (h : session.cursor.unread = token :: next :: rest) : session.cursor.current.isEnd = false := by
  by_contra hend
  rw [Cursor.unread, Cursor.upcoming_of_isEnd (by simpa using hend)] at h
  simp at h

instance : Std.Refl Prolongs := ⟨fun _ => List.prefix_refl _⟩

instance : IsTrans Session Prolongs := ⟨fun _ _ _ => List.IsPrefix.trans⟩

/-- Between two sessions with the same reports nothing is reported. -/
theorem Prolongs.squeeze (h : session.Prolongs between) (h' : between.Prolongs later)
    (hclean : later.diagnostics = session.diagnostics) :
    between.diagnostics = session.diagnostics ∧ later.diagnostics = between.diagnostics := by
  have hsame : session.diagnostics = between.diagnostics := h.eq_of_length_le (hclean ▸ h'.length_le)
  exact ⟨hsame.symm, hclean.trans hsame⟩

end Session

namespace Production

open Session

variable {α β σ : Type} {session : Session} {post : α → Session → Prop}

/-! ## Consuming tokens -/

/-- The next token is reported as it becomes current, if it is no token. -/
theorem passes_nextToken (session : Session) :
    Leads nextToken session (fun _ => True) fun token later =>
      later.cursor.current = token ∧ later.table = session.table ∧
        later.diagnostics = session.diagnostics ++ token.reports ∧
          session.Passes session.cursor.consumed later := by
  rcases hadvance : session.cursor.advance with ⟨result, cursor⟩
  cases result with
  | error failure =>
      rw [leads_nextToken_error hadvance]
      trivial
  | ok token =>
      rw [leads_nextToken hadvance]
      obtain rfl := Cursor.advance_current hadvance
      refine ⟨rfl, rfl, rfl, ?_⟩
      cases hend : session.cursor.current.isEnd with
      | true =>
          obtain rfl := Cursor.advance_of_isEnd hadvance hend
          rw [Cursor.consumed, hend, if_pos rfl]
          exact ⟨rfl, rfl⟩
      | false =>
          rw [Cursor.consumed_of_not_end hend]
          exact ⟨Cursor.unread_of_advance hadvance hend, Cursor.advance_position hadvance hend⟩

/-- To look at the token after the current one changes nothing but the cursor. -/
theorem passes_peekKind (session : Session) :
    Leads peekKind session (fun _ => True) fun kind looked =>
      (∃ cursor, looked = { session with cursor }) ∧ session.Passes [] looked ∧
        (session.cursor.current.isEnd = false →
          ∃ token rest, session.cursor.unread = session.cursor.current :: token :: rest ∧
            kind = token.kind) := by
  rcases hpeek : session.cursor.peek with ⟨result, cursor⟩
  cases result with
  | error failure =>
      rw [leads_peekKind_error hpeek]
      trivial
  | ok token =>
      rw [leads_peekKind hpeek]
      refine ⟨⟨cursor, rfl⟩, ⟨(Cursor.unread_of_peek hpeek).symm, Cursor.peek_position hpeek⟩, fun hend => ?_⟩
      obtain ⟨rest, hunread⟩ := Cursor.unread_of_peek_ok hpeek hend
      exact ⟨token, rest, hunread, rfl⟩

/-! ## Runs that report nothing -/

theorem Relates.prolongs {production : Production α} (h : Relates Session.Reads production) :
    Relates Prolongs production :=
  h.mono fun _ _ hreads => hreads.prolongs

/-- What is true of the outcome of a production if nothing is reported.  Nothing that was reported is taken
back in any case. -/
def Cleanly (production : Production α) (session : Session) (post : α → Session → Prop) : Prop :=
  Leads production session (fun _ => True) fun answer later =>
    session.Prolongs later ∧ (later.diagnostics = session.diagnostics → post answer later)

namespace Cleanly

protected theorem pure {answer : α} (h : post answer session) : Cleanly (pure answer) session post :=
  ⟨List.prefix_refl _, fun _ => h⟩

theorem mono {production : Production α} {post' : α → Session → Prop} (h : Cleanly production session post)
    (hpost : ∀ answer later, post answer later → post' answer later) : Cleanly production session post' :=
  Leads.imp h fun answer later hclean =>
    ⟨hclean.1, fun hsame => hpost answer later (hclean.2 hsame)⟩

/-- A run that reports nothing consists of runs that report nothing. -/
protected theorem bind {production : Production α} {next : α → Production β}
    {between : α → Session → Prop} {post : β → Session → Prop} (h : Cleanly production session between)
    (hnext : ∀ answer middle, Cleanly (next answer) middle fun result later =>
      between answer middle → post result later) : Cleanly (production >>= next) session post := by
  refine Leads.bind h fun answer middle ⟨hprolongs, hbetween⟩ => ?_
  refine Leads.imp (hnext answer middle) fun result later ⟨hmore, hpost⟩ => ?_
  refine ⟨hprolongs.trans hmore, fun hclean => ?_⟩
  obtain ⟨hbefore, hafter⟩ := hprolongs.squeeze hmore hclean
  exact hpost hafter (hbetween hbefore)

/-- Where nothing is taken back, the runs that report nothing are all that has to be looked at. -/
theorem of_prolongs {production : Production α} (hprolongs : Relates Prolongs production)
    (h : Leads production session (fun _ => True) fun answer later =>
      later.diagnostics = session.diagnostics → post answer later) : Cleanly production session post :=
  (hprolongs.leads session).and h

/-- After an error has been recorded nothing is said. -/
theorem of_flagged {rest : Production α} (token : Token) (kind : ErrorKind) (hrest : Relates Prolongs rest) :
    Cleanly (flagAt token kind >>= fun _ => rest) session post := by
  rw [Cleanly, leads_bind, leads_flagAt]
  refine (hrest.leads _).imp fun _ later hprolongs => ?_
  refine ⟨(List.prefix_append _ _).trans hprolongs, fun hclean => ?_⟩
  have hlength : session.diagnostics.length + 1 ≤ later.diagnostics.length := by
    simpa using hprolongs.length_le
  rw [hclean] at hlength
  omega

theorem of_flag {rest : Production α} (kind : ErrorKind) (hrest : Relates Prolongs rest) :
    Cleanly (flag kind >>= fun _ => rest) session post :=
  of_flagged session.cursor.current kind hrest

/-- What comes of the turns that follow, and the turn before them, comes of the loop. -/
protected theorem loop {step : σ → Production (ForInStep σ)} {post : σ → Session → σ → Session → Prop}
    (hstep : ∀ state session, Cleanly (step state) session (AfterTurn (post state session)
      fun more middle => ∀ last later, post more middle last later → post state session last later))
    (state : σ) (session : Session) : Cleanly (loop step state) session (post state session) := by
  have hwithin (budget : Nat) : ∀ state session,
      Cleanly (loopWithin step budget state) session (post state session) := by
    induction budget with
    | zero => exact fun _ _ => trivial
    | succ budget ih =>
        intro state session
        refine (hstep state session).bind fun next middle => ?_
        cases next with
        | done last => exact .pure fun hlast => hlast
        | yield more =>
            exact (ih more middle).mono fun last later hlater hturn => hturn last later hlater
  rw [Production.loop, Cleanly, leads_bind, leads_budget]
  exact hwithin _ state session

end Cleanly

end Production

end FrontEnd
