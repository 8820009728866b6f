import FrontEnd.Proofs.Outcome
import FrontEnd.Proofs.Rendering

/-!
# Reading what is known to come

A cursor faces a list of tokens if these are the next to be consumed, its current token first, and none of
them is a piece of text that is no token.  Where the list is known, so is what the productions that consume
and inspect tokens do: the lemmas below say for each of them with which token it answers and what the
cursor faces afterwards.

A look at the token after the current one may move the cursor over its stream, but what it faces stays the
same (`Faces.peek`).
-/

namespace FrontEnd

namespace Cursor

/-- Whether a cursor comes to another by consuming the tokens of a list, and neither these nor the next are
pieces of text that are no tokens. -/
structure Faces (cursor : Cursor) (tokens : List Token) (last : Cursor) : Prop where
  reads : cursor.Reads tokens last
  clean : ∀ token ∈ tokens, token.scanError? = none
  next : last.current.scanError? = none

namespace Faces

variable {cursor last : Cursor} {token other : Token} {tokens : List Token}

theorem current_eq (h : cursor.Faces (token :: tokens) last) : cursor.current = token :=
  h.reads.current_eq

theorem eq_last (h : cursor.Faces [] last) : cursor = last :=
  h.reads.eq_last

/-- The first token is consumed, and the others are faced then. -/
theorem advance (h : cursor.Faces (token :: tokens) last) :
    ∃ next, cursor.advance = (.ok next.current, next) ∧ next.current.scanError? = none ∧
      cursor.current.isEnd = false ∧ next.Faces tokens last := by
  have hreads := h.reads
  cases hreads with
  | @cons _ next _ _ hend hadvance hrest =>
      have hclean : next.current.scanError? = none := by
        cases hrest with
        | nil => exact h.next
        | cons _ _ _ => exact h.clean _ (by simp)
      refine ⟨next, hadvance, hclean, hend, hrest, ?_, h.next⟩
      intro other hmem
      exact h.clean other (List.mem_cons_of_mem _ hmem)

/-- What has been consumed is told by the position. -/
theorem position_eq (h : cursor.Faces tokens last) : last.position = cursor.position + tokens.length := by
  have hreads := h.reads
  clear h
  induction hreads with
  | nil => rfl
  | cons hend hadvance _ ih =>
      rw [ih, advance_position hadvance hend, List.length_cons]
      omega

theorem ahead_eq (h : cursor.Faces tokens last) : last.ahead + tokens.length = cursor.ahead :=
  h.reads.ahead_add_length

/-- To look at the token after the current one changes nothing of what is faced. -/
theorem peek (h : cursor.Faces (token :: other :: tokens) last) :
    ∃ looked, cursor.peek = (.ok other, looked) ∧ looked.Faces (token :: other :: tokens) last := by
  obtain ⟨next, hadvance, -, hend, hrest⟩ := h.advance
  have hother := hrest.current_eq
  have hcurrent := h.current_eq
  have hfaces {looked : Cursor} (hlooked : looked.current = cursor.current)
      (hsame : looked.advance = cursor.advance) : looked.Faces (token :: other :: tokens) last := by
    refine ⟨?_, h.clean, h.next⟩
    rw [← hcurrent, ← hlooked]
    exact .cons (by rw [hlooked, hend]) (hsame.trans hadvance) hrest.reads
  unfold Cursor.advance at hadvance
  unfold Cursor.peek
  rw [if_neg (by simp [hend])] at hadvance
  cases hlook : cursor.lookahead with
  | some ready =>
      simp only [hlook, Prod.mk.injEq, Except.ok.injEq] at hadvance
      refine ⟨cursor, ?_, hfaces rfl rfl⟩
      rw [← hother, ← hadvance.1]
  | none =>
      rw [hlook] at hadvance
      cases hnext : cursor.stream.next with
      | mk answer stream =>
          rw [hnext] at hadvance
          cases answer with
          | error failure => simp at hadvance
          | ok answered =>
              simp only [Prod.mk.injEq, Except.ok.injEq] at hadvance
              refine ⟨{ cursor with stream, lookahead := some answered }, ?_, hfaces rfl ?_⟩
              · simp [hend, ← hother, ← hadvance.1]
              · simp [Cursor.advance, hend, hlook, hnext]

end Faces

end Cursor

namespace Production

variable {α : Type} {session : Session} {last : Cursor} {token other : Token} {tokens : List Token}
  {stop : Interruption → Prop}

theorem leads_nextToken_of_faces {post : Token → Session → Prop}
    (h : session.cursor.Faces (token :: tokens) last)
    (hpost : ∀ next : Cursor, next.Faces tokens last → post next.current { session with cursor := next }) :
    Leads nextToken session stop post := by
  obtain ⟨next, hadvance, hclean, -, hrest⟩ := h.advance
  rw [leads_nextToken hadvance]
  simpa [Token.reports, hclean] using hpost next hrest

theorem leads_peekKind_of_faces {post : TokenKind → Session → Prop}
    (h : session.cursor.Faces (token :: other :: tokens) last)
    (hpost : ∀ looked : Cursor, looked.Faces (token :: other :: tokens) last →
      post other.kind { session with cursor := looked }) :
    Leads peekKind session stop post := by
  obtain ⟨looked, hpeek, hfaces⟩ := h.peek
  rw [leads_peekKind hpeek]
  exact hpost looked hfaces

theorem leads_matchToken_of_faces {post : Bool → Session → Prop} {kind : TokenKind}
    (h : session.cursor.Faces (token :: tokens) last) (hkind : token.kind = kind)
    (hpost : ∀ next : Cursor, next.Faces tokens last → post true { session with cursor := next }) :
    Leads (matchToken kind) session stop post := by
  rw [matchToken, leads_bind, leads_check, h.current_eq, hkind, if_pos (beq_self_eq_true _), leads_bind]
  apply leads_nextToken_of_faces h
  intro next hnext
  exact hpost next hnext

theorem leads_expect_of_faces {post : Unit → Session → Prop} {kind : TokenKind} {missing : ErrorKind}
    (h : session.cursor.Faces (token :: tokens) last) (hkind : token.kind = kind)
    (hpost : ∀ next : Cursor, next.Faces tokens last → post () { session with cursor := next }) :
    Leads (expect kind missing) session stop post := by
  rw [expect, leads_bind]
  apply leads_matchToken_of_faces h hkind
  intro next hnext
  exact hpost next hnext

/-- A parse resumes where it stands. -/
theorem leads_synchronize_of_contains {post : Token → Session → Prop} {set : KindSet}
    (hset : set.contains session.cursor.current.kind = true) :
    Leads (synchronize set) session stop post ↔ post session.cursor.current session := by
  rw [synchronize, leads_bind, leads_current, if_pos hset]
  exact Iff.rfl

/-- What a step keeps while it goes on, consuming a token each time, holds when the loop ends. -/
theorem Leads.loop {σ : Type} {step : σ → Production (ForInStep σ)} {post : σ → Session → Prop}
    (invariant : σ → Session → Prop) {state : σ} (hstart : invariant state session)
    (hstep : ∀ state session, invariant state session →
      Leads (step state) session (fun _ => False) fun next later =>
        match next with
        | .done state => post state later
        | .yield state => invariant state later ∧ later.cursor.ahead < session.cursor.ahead) :
    Leads (loop step state) session (fun _ => False) post := by
  have hwithin : ∀ budget state session, invariant state session → session.cursor.ahead < budget →
      Leads (loopWithin step budget state) session (fun _ => False) post := by
    intro budget
    induction budget with
    | zero =>
        intro state session _ hbudget
        exact absurd hbudget (Nat.not_lt_zero _)
    | succ budget ih =>
        intro state session hinvariant hbudget
        rw [leads_loopWithin_succ]
        apply (hstep state session hinvariant).imp
        rintro (state | state) later hnext
        · exact hnext
        · apply ih state later hnext.1
          have hless := hnext.2
          omega
  rw [Production.loop, leads_bind, leads_budget]
  apply hwithin _ state session hstart
  have hbudget := session.cursor.ahead_le_remaining
  omega

end Production

end FrontEnd
