import FrontEnd.Proofs.Facing
import FrontEnd.Proofs.Passage

/-!
# Where a parse resumes

A parse that looks for a token of some kinds skips what is unread until it comes to one, or to the end of the file
if there is none (`synchronize_resumes`).  What it records on its way is known.  The token that it was at is said
to be unexpected, unless it is one to resume at or none at all; and each piece of text that is no token is
reported when it becomes current.  Where a token of these kinds has been found, a parse that looks for them, or for
more, resumes at once.

## Strategy

What is skipped is kept track of from the first token that is passed (`Session.Skips`).  Each turn of the loop
passes one token more (`Session.Skips.nextToken`), so the loop ends before the tokens do.
-/

namespace FrontEnd

/-- What does not fail moves on. -/
theorem Cursor.Readable.exists_advance {cursor : Cursor} (h : cursor.Readable) :
    ∃ token next, cursor.advance = (.ok token, next) ∧ next.Readable := by
  rcases hadvance : cursor.advance with ⟨answer, next⟩
  cases answer with
  | error failure => exact absurd (Fails.of_advance hadvance).answers (h failure)
  | ok token => exact ⟨token, next, rfl, fun failure hfailure => h failure (hfailure.of_advance hadvance)⟩

/-- What has not said why it is no token is not reported. -/
theorem Token.Explained.reports_eq_nil {token : Token} (h : token.Explained) (hkind : token.kind ≠ .error) :
    token.reports = [] := by
  have hnone : token.scanError? = none := by
    rw [← Option.not_isSome_iff_eq_none]
    exact fun hsome => hkind (h.mpr hsome)
  rw [Token.reports, hnone]
  rfl

/-- Whether a session comes to another by skipping some tokens: those that become current are reported if they are
none, and nothing else happens. -/
structure Session.Skips (session : Session) (skipped : List Token) (later : Session) : Prop where
  unread : session.cursor.unread = skipped ++ later.cursor.unread
  eq : later = { session with
    cursor := later.cursor
    diagnostics := session.diagnostics ++ (skipped ++ [later.cursor.current]).tail.flatMap Token.reports }

namespace Session.Skips

variable {session later : Session} {skipped : List Token}

theorem refl (session : Session) : session.Skips [] session where
  unread := rfl
  eq := by simp

/-- One token more is skipped. -/
theorem nextToken (h : session.Skips skipped later) {token : Token} {next : Cursor}
    (hadvance : later.cursor.advance = (.ok token, next)) (hend : later.cursor.current.isEnd = false) :
    session.Skips (skipped ++ [later.cursor.current])
      { later with cursor := next, diagnostics := later.diagnostics ++ next.current.reports } where
  unread := by
    rw [h.unread, Cursor.unread_of_advance hadvance hend, List.append_assoc, List.singleton_append]
  eq := by
    have hne : skipped ++ [later.cursor.current] ≠ [] := by simp
    rw [List.tail_append_of_ne_nil hne, List.flatMap_append, ← List.append_assoc]
    have hsame := h.eq
    rw [hsame]
    simp

end Session.Skips

namespace Production

variable {session : Session} {set : KindSet} {stop : Interruption → Prop}

/-- Tokens are skipped up to the first in the set, or to the end of the file. -/
theorem leads_skipping {start : Session} {skipped : List Token} (hskips : start.Skips skipped session)
    (hreadable : session.cursor.Readable) (houtside : ∀ other ∈ skipped, set.contains other.kind = false) :
    Leads (loop (skipToken set) session.cursor.current) session (fun _ => False) fun token later =>
      later.cursor.current = token ∧ (set.contains token.kind = true ∨ token.isEnd = true) ∧
        ∃ passed, start.Skips passed later ∧ ∀ other ∈ passed, set.contains other.kind = false := by
  refine Leads.loop (fun token later => later.cursor.current = token ∧ later.cursor.Readable ∧
    ∃ passed, start.Skips passed later ∧ ∀ other ∈ passed, set.contains other.kind = false)
    ⟨rfl, hreadable, skipped, hskips, houtside⟩ ?_
  rintro token between ⟨rfl, hreadable, passed, hpassed, hpassedOutside⟩
  unfold skipToken
  split
  · next hstop =>
      have hstop : between.cursor.current.isEnd = true ∨ set.contains between.cursor.current.kind = true := by
        simpa using hstop
      exact ⟨rfl, hstop.symm, passed, hpassed, hpassedOutside⟩
  · next hgoes =>
      obtain ⟨hend, houtside⟩ : between.cursor.current.isEnd = false ∧
          set.contains between.cursor.current.kind = false := by simpa using hgoes
      obtain ⟨token, next, hadvance, hnext⟩ := hreadable.exists_advance
      rw [leads_bind, leads_nextToken hadvance]
      have hfewer := Cursor.advance_ahead hadvance hend
      refine ⟨⟨Cursor.advance_current hadvance, hnext, passed ++ [between.cursor.current],
        hpassed.nextToken hadvance hend, fun other hmem => ?_⟩, Nat.lt_of_succ_le (Nat.le_of_eq hfewer)⟩
      rcases List.mem_append.mp hmem with hold | hlast
      · exact hpassedOutside other hold
      · rwa [List.mem_singleton.mp hlast]

/-- A session in which the current token has been said to be unexpected, if it is. -/
def toldUnexpected (set : KindSet) (session : Session) : Session :=
  { session with
    diagnostics := session.diagnostics ++
      if set.contains session.cursor.current.kind || session.cursor.current.kind == .error then []
      else [{ kind := .unexpectedToken, location := session.cursor.current.location,
              text := session.cursor.current.text }] }

theorem leads_complaint {post : Unit → Session → Prop}
    (houtside : set.contains session.cursor.current.kind = false) :
    Leads (ensure (session.cursor.current.kind == .error) session.cursor.current .unexpectedToken) session
      stop post ↔ post () (toldUnexpected set session) := by
  unfold ensure
  cases hkind : session.cursor.current.kind == TokenKind.error <;>
    simp [toldUnexpected, Diagnostic.atToken, houtside, hkind]

/-- After the complaint, tokens are skipped up to the first in the set, or to the end of the file. -/
theorem leads_synchronize (hreadable : session.cursor.Readable) (hcurrent : session.cursor.current.Explained) :
    Leads (synchronize set) session (fun _ => False) fun token later =>
      later.cursor.current = token ∧ (set.contains token.kind = true ∨ token.isEnd = true) ∧
        ∃ skipped, (toldUnexpected set session).Skips skipped later ∧
          ∀ other ∈ skipped, set.contains other.kind = false := by
  cases hset : set.contains session.cursor.current.kind with
  | true =>
      have htold : toldUnexpected set session = session := by simp [toldUnexpected, hset]
      rw [leads_synchronize_of_contains hset, htold]
      exact ⟨rfl, Or.inl hset, [], Session.Skips.refl session, by simp⟩
  | false =>
      obtain ⟨token, next, hadvance, hnext⟩ := hreadable.exists_advance
      have htold : (toldUnexpected set session).cursor.advance = (.ok token, next) := hadvance
      rw [synchronize, leads_bind, leads_current, if_neg (by simp [hset]), leads_bind, leads_complaint hset,
        leads_bind, leads_nextToken htold, ← Cursor.advance_current hadvance]
      cases hend : session.cursor.current.isEnd with
      | true =>
          -- the end of the file stays current, and nothing is said of it again
          obtain rfl := Cursor.advance_of_isEnd hadvance hend
          have hkind : session.cursor.current.kind = .endOfFile := by simpa [Token.isEnd] using hend
          rw [hcurrent.reports_eq_nil (by simp [hkind]), List.append_nil]
          exact leads_skipping (Session.Skips.refl (toldUnexpected set session)) hnext (by simp)
      | false =>
          have hskips := (Session.Skips.refl (toldUnexpected set session)).nextToken hadvance hend
          exact leads_skipping hskips hnext (by simpa [toldUnexpected] using hset)

/-- A parse resumes at the first of the unread tokens that is in the set, or at the end of the file if there is
none.  It answers with that token, moves to it, and records what is to be said of the token that it was at and of
each that became current.  Where it has found a token of the set, it resumes at once. -/
theorem synchronize_resumes (set : KindSet) (session : Session) (hreadable : session.cursor.Readable)
    (hexplained : ∀ token ∈ session.cursor.unread, token.Explained) :
    ∃ skipped token following later, synchronize set session = .ok (token, later) ∧
      session.cursor.unread = skipped ++ token :: following ∧
      later.cursor.unread = token :: following ∧
      (∀ other ∈ skipped, set.contains other.kind = false) ∧
      (set.contains token.kind = true ∨ token.isEnd = true ∧ following = []) ∧
      later = { session with
        cursor := later.cursor
        diagnostics := session.diagnostics ++
          (if set.contains session.cursor.current.kind || session.cursor.current.kind == .error then []
            else [{ kind := .unexpectedToken, location := session.cursor.current.location,
                    text := session.cursor.current.text }]) ++
          (skipped ++ [token]).tail.flatMap Token.reports } ∧
      (set.contains token.kind = true → ∀ wider : KindSet,
        (∀ kind, set.contains kind = true → wider.contains kind = true) →
        synchronize wider later = .ok (token, later)) := by
  obtain ⟨token, later, hrun, rfl, hstop, skipped, hskips, houtside⟩ :=
    (@leads_synchronize session set hreadable (hexplained _ List.mem_cons_self)).exists_ok
  refine ⟨skipped, later.cursor.current, later.cursor.upcoming, later, hrun, hskips.unread, rfl, houtside, ?_,
    hskips.eq, ?_⟩
  · exact hstop.imp id fun hend => ⟨hend, Cursor.upcoming_of_isEnd hend⟩
  · intro hset wider hwider
    show (if wider.contains later.cursor.current.kind then pure later.cursor.current else _ : Production Token)
      later = _
    rw [if_pos (hwider _ hset)]
    rfl

/-- At the tokens `) @ x ;`, the second of which has been looked at already, a parse that looks for a semicolon
resumes at the fourth. -/
theorem synchronize_resumes_semicolon :
    let word (kind : TokenKind) : Token := ⟨kind, kind.text, ⟨1, 1⟩, none⟩
    let stray : Token := ⟨.error, "@", ⟨1, 2⟩, some (.error .invalidCharacter)⟩
    let cursor : Cursor :=
      { stream := .ofTokens [⟨.identifier, "x", ⟨1, 3⟩, none⟩, word .semicolon]
        current := word .rightParen
        lookahead := some stray }
    cursor.Readable ∧ (∀ token ∈ cursor.unread, token.Explained) ∧
      ∃ later, synchronize (.of [.semicolon]) { cursor } = .ok (word .semicolon, later) ∧
        later.diagnostics = [⟨.unexpectedToken, ⟨1, 1⟩, ")"⟩, ⟨.invalidCharacter, ⟨1, 2⟩, "@"⟩] ∧
        synchronize (.of [.comma, .semicolon]) later = .ok (word .semicolon, later) := by
  intro word stray cursor
  have hreadable : cursor.Readable := by
    rintro failure (hpending | hfinal)
    · simp [Cursor.pending, cursor, TokenStream.ofTokens] at hpending
    · cases hfinal
  have hexplained : ∀ token ∈ cursor.unread, token.Explained := by
    simp only [Token.Explained]
    decide +kernel
  have hread : ∃ outcome, synchronize (.of [.semicolon]) { cursor } = .ok outcome ∧
      outcome.1 = word .semicolon ∧
      outcome.2.diagnostics = [⟨.unexpectedToken, ⟨1, 1⟩, ")"⟩, ⟨.invalidCharacter, ⟨1, 2⟩, "@"⟩] :=
    exists_answer (by decide +kernel)
  obtain ⟨⟨_, later⟩, hrun, rfl, hdiagnostics⟩ := hread
  obtain ⟨skipped, token, following, after, hsame, -, -, -, -, -, hagain⟩ :=
    synchronize_resumes (.of [.semicolon]) { cursor } hreadable hexplained
  obtain ⟨rfl, rfl⟩ : word .semicolon = token ∧ later = after := by simpa [hrun] using hsame
  refine ⟨hreadable, hexplained, later, hrun, hdiagnostics, hagain rfl _ ?_⟩
  simp [KindSet.of]

end Production

end FrontEnd
