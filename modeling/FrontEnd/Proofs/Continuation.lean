import FrontEnd.Proofs.Completion
import FrontEnd.Proofs.Mirrors.Unit
import FrontEnd.Proofs.Twins

/-!
# A stream and what follows it

Two compilations begin with the same tokens; where the stream of the first ends, that of the second goes
on.  As long as both stand on the same of these tokens their sessions correspond (`Continuation.Inside`), by
the coupling `Coupling.continued`.  Where all of them have been consumed, the first is at the end of the
file and the second on the first token of what follows (`Continuation.Border`).

## Strategy

By `Mirrors` the two run alike up to the first end of the file, and nothing more is known if the first
gets lost there.  So it is to be shown that a production without errors does not get lost, unless it is
through.  Two things together do it:

* A token that cannot be the last one of the common part is followed by another one of it.
* A production that demands something in the end records an error if it has got lost before
  (`Closes.stalls`), so a run of it without errors has not.

The demand is for a closing semicolon, brace or parenthesis.  Only a semicolon or a brace can be the last of
the common tokens, and so a production `Closes` with both sessions inside or at the border.  What is left to
do there is to look for a semicolon that may follow, and to change the table: what follows does not begin
with a semicolon, and so this too is done alike (`Carries`).
-/

namespace FrontEnd

/-! ## A stream and its continuation -/

/-- The stream that first supplies some tokens. -/
def TokenStream.prepend (more : TokenStream) (tokens : List Token) : TokenStream :=
  { more with events := tokens.map .ok ++ more.events }

/-- The tokens with which a declaration, a routine or a statement can be closed. -/
def TokenKind.closers : List TokenKind := [.semicolon, .rightBrace]

/-- Some tokens before the end of the file, the last of which closes an item.  Whatever of them is no token
says why. -/
structure Token.Complete (tokens : List Token) : Prop where
  isEnd : ∀ token ∈ tokens, token.isEnd = false
  explained : ∀ token ∈ tokens, token.kind = .error → token.scanError?.isSome
  last : ∃ last, tokens.getLast? = some last ∧ last.kind ∈ TokenKind.closers

namespace Token.Complete

variable {token second : Token} {tokens : List Token}

theorem tail (h : Token.Complete (token :: second :: tokens)) : Token.Complete (second :: tokens) where
  isEnd other hmem := h.isEnd other (List.mem_cons_of_mem _ hmem)
  explained other hmem := h.explained other (List.mem_cons_of_mem _ hmem)
  last := by simpa using h.last

theorem closes (h : Token.Complete [token]) : token.kind ∈ TokenKind.closers := by
  obtain ⟨last, hlast, hkind⟩ := h.last
  obtain rfl : token = last := by simpa using hlast
  exact hkind

end Token.Complete

/-- Two cursors on the same of some tokens, the first before a stream that ends with them and the second
before one that goes on; `count` is the number of all the tokens. -/
inductive Cursor.Continued (location : Location) (more : TokenStream) (count : Nat) :
    Cursor → Cursor → Prop
  | intro {current : Token} {lookahead : Option Token} {rest : List Token} {position : Nat} :
      Token.Complete (current :: (lookahead.toList ++ rest)) →
      position + (1 + (lookahead.toList ++ rest).length) = count →
      Continued location more count ⟨.ofList rest location, current, lookahead, position⟩
        ⟨more.prepend rest, current, lookahead, position⟩

/-- The cursor that has come to the end of the stream with a number of tokens. -/
def Cursor.atEnd (location : Location) (count : Nat) : Cursor :=
  ⟨.ofList [] location, Token.endOfFile location, none, count⟩

namespace Cursor.Continued

variable {location : Location} {more : TokenStream} {count : Nat} {cursor cursor' next : Cursor}

theorem current_eq (h : Continued location more count cursor cursor') :
    cursor.current = cursor'.current := by
  cases h
  rfl

theorem isEnd (h : Continued location more count cursor cursor') :
    cursor.current.isEnd = false := by
  cases h with
  | intro hcomplete => exact hcomplete.isEnd _ (List.mem_cons_self ..)

theorem explained (h : Continued location more count cursor cursor')
    (hkind : cursor.current.kind = .error) : cursor.current.scanError?.isSome := by
  cases h with
  | intro hcomplete => exact hcomplete.explained _ (List.mem_cons_self ..) hkind

/-- Not all of the tokens have been consumed. -/
theorem position_lt (h : Continued location more count cursor cursor') : cursor.position < count := by
  cases h with
  | intro _ hcount => dsimp only; omega

/-- Both cursors are moved to the next of the tokens; or the current one is the last of them, and the
first cursor is moved to the end of the file and the second on to what follows. -/
theorem advance (h : Continued location more count cursor cursor') :
    (∃ token next next', cursor.advance = (.ok token, next) ∧ cursor'.advance = (.ok token, next') ∧
      Continued location more count next next') ∨
    cursor.current.kind ∈ TokenKind.closers ∧
      cursor.advance = (.ok (Token.endOfFile location), .atEnd location count) ∧
        ∀ first rest, more.next = (.ok first, rest) →
          cursor'.advance = (.ok first, ⟨rest, first, none, count⟩) := by
  cases h with
  | @intro current lookahead rest position hcomplete hcount =>
      have hend : current.isEnd = false := hcomplete.isEnd _ (List.mem_cons_self ..)
      cases lookahead with
      | some ready =>
          refine .inl ⟨ready, ⟨.ofList rest location, ready, none, position + 1⟩,
            ⟨more.prepend rest, ready, none, position + 1⟩, by simp [Cursor.advance, hend],
            by simp [Cursor.advance, hend], .intro hcomplete.tail ?_⟩
          simp only [Option.toList, List.cons_append, List.nil_append, List.length_cons] at hcount ⊢
          omega
      | none =>
          cases rest with
          | cons ready rest =>
              refine .inl ⟨ready, ⟨.ofList rest location, ready, none, position + 1⟩,
                ⟨more.prepend rest, ready, none, position + 1⟩, ?_, ?_, .intro hcomplete.tail ?_⟩
              · simp [Cursor.advance, hend, TokenStream.next, TokenStream.ofList]
              · simp [Cursor.advance, hend, TokenStream.next, TokenStream.prepend]
              · simp only [Option.toList, List.nil_append, List.length_cons] at hcount ⊢
                omega
          | nil =>
              obtain rfl : position + 1 = count := by simpa using hcount
              refine .inr ⟨hcomplete.closes, ?_, fun first rest hmore => ?_⟩
              · simp [Cursor.advance, hend, TokenStream.next, TokenStream.ofList,
                  TokenStream.finalEvent, Except.map, Cursor.atEnd]
              · have hnext : (more.prepend []).next = more.next := rfl
                simp [Cursor.advance, hend, hnext, hmore]

/-- Where the current token closes nothing, both cursors look at the same of the tokens. -/
theorem peek (h : Continued location more count cursor cursor')
    (hkind : cursor.current.kind ∉ TokenKind.closers) :
    ∃ token next next', cursor.peek = (.ok token, next) ∧ cursor'.peek = (.ok token, next') ∧
      Continued location more count next next' := by
  cases h with
  | @intro current lookahead rest position hcomplete hcount =>
      have hend : current.isEnd = false := hcomplete.isEnd _ (List.mem_cons_self ..)
      cases lookahead with
      | some ready => exact ⟨ready, _, _, rfl, rfl, .intro hcomplete hcount⟩
      | none =>
          cases rest with
          | cons ready rest =>
              refine ⟨ready, ⟨.ofList rest location, current, some ready, position⟩,
                ⟨more.prepend rest, current, some ready, position⟩, ?_, ?_, .intro hcomplete hcount⟩
              · simp [Cursor.peek, hend, TokenStream.next, TokenStream.ofList]
              · simp [Cursor.peek, hend, TokenStream.next, TokenStream.prepend]
          | nil => exact absurd hcomplete.closes hkind

end Cursor.Continued

/-- The coupling of a compilation with one whose stream goes on where that of the first ends. -/
def Coupling.continued (location : Location) (more : TokenStream) (count : Nat) : Coupling where
  token := Eq
  cursor := Cursor.Continued location more count
  aligned := True
  shorter := True
  kind_eq h := congrArg Token.kind h
  value_eq h := congrArg Token.value h
  lower_eq h := by rw [h]
  line_eq _ h := congrArg Token.line h
  token_refl _ _ := rfl
  current h := h.current_eq
  position_eq h := by cases h; rfl
  remaining_le h := by
    cases h
    simp [Cursor.remaining, TokenStream.ofList, TokenStream.prepend]
  remaining_eq h := absurd trivial h
  advance_ok h hadvance := by
    obtain ⟨token, next, next', hfirst, hsecond, hnext⟩ | ⟨-, hfirst, -⟩ := h.advance
    · obtain ⟨-, rfl⟩ := Prod.ext_iff.mp (hfirst.symm.trans hadvance)
      exact .inr ⟨token, next', hsecond, hnext⟩
    · obtain ⟨-, rfl⟩ := Prod.ext_iff.mp (hfirst.symm.trans hadvance)
      exact .inl ⟨trivial, rfl⟩
  advance_error _ _ := .inl trivial
  peek_ok h hkind hpeek := by
    obtain ⟨token, next, next', hfirst, hsecond, hnext⟩ := h.peek (by
      rcases List.mem_pair.mp hkind with hname | hvoid <;> simp [TokenKind.closers, *])
    obtain ⟨hseen, rfl⟩ := Prod.ext_iff.mp (hfirst.symm.trans hpeek)
    exact ⟨token, next', hsecond, (Except.ok.inj hseen).symm, hnext⟩
  peek_error h hkind hpeek := by
    obtain ⟨token, next, next', hfirst, -⟩ := h.peek (by
      rcases List.mem_pair.mp hkind with hname | hvoid <;> simp [TokenKind.closers, *])
    simp [hfirst] at hpeek

/-- Where and with what a compilation goes on: after a number of tokens, with the first token of what
follows, which is no semicolon. -/
structure Continuation where
  location : Location
  count : Nat
  more : TokenStream
  first : Token
  rest : TokenStream
  next_eq : more.next = (.ok first, rest)
  first_ne : first.kind ≠ .semicolon

namespace Continuation

open Production

/-- The coupling of the compilation that ends with the one that goes on. -/
def coupling (k : Continuation) : Coupling :=
  .continued k.location k.more k.count

/-- Two sessions in which the same of the tokens before the continuation is current. -/
abbrev Inside (k : Continuation) : Session → Session → Prop := k.coupling.Sessions

/-- Two sessions in which all tokens before the continuation have been consumed without an error. -/
structure Border (k : Continuation) (session session' : Session) : Prop where
  cursor : session.cursor = .atEnd k.location k.count
  cursor' : session'.cursor = ⟨k.rest, k.first, none, k.count⟩
  table : session.table = session'.table
  dummies : session.dummies = session'.dummies
  diagnostics : session.diagnostics = []
  diagnostics' : session'.diagnostics = k.first.reports

/-- Two sessions that have come equally far, at most to the continuation. -/
def Near (k : Continuation) (session session' : Session) : Prop :=
  k.Inside session session' ∨ k.Border session session'

/-- Two productions that come from one relation between sessions to another, with the same answer, where
the first makes no report. -/
structure Carries {α : Type} (before after : Session → Session → Prop) (production production' : Production α) :
    Prop where
  keeps {session later : Session} {answer : α} : production session = .ok (answer, later) →
    session.Kept later
  carries {session session' later : Session} {answer : α} : before session session' →
    production session = .ok (answer, later) → later.diagnostics = [] →
      ∃ later', production' session' = .ok (answer, later') ∧ after later later'

/-- Two productions that come from inside to a relation between sessions, and the first of which makes a
report if it is begun at the end of the file. -/
structure Closes {α : Type} (k : Continuation) (after : Session → Session → Prop)
    (production production' : Production α) : Prop extends Carries k.Inside after production production' where
  stalls {session later : Session} {answer : α} : session.cursor.current.isEnd = true →
    production session = .ok (answer, later) → later.diagnostics ≠ []

section

variable {k : Continuation} {α β : Type} {before middle after : Session → Session → Prop}
  {first first' : Production α} {next next' : α → Production β}

namespace Carries

theorem bind (h : Carries before middle first first')
    (hnext : ∀ answer, Carries middle after (next answer) (next' answer)) :
    Carries before after (first >>= next) (first' >>= next') where
  keeps := Coupling.Mirrors.keeps_bind h.keeps fun answer => (hnext answer).keeps
  carries hbefore hrun hclean := by
    obtain ⟨answer, between, hfirst, hrest⟩ := exists_of_bind hrun
    obtain ⟨between', hfirst', hbetween⟩ :=
      h.carries hbefore hfirst (((hnext answer).keeps hrest).clean hclean)
    rw [bind_of_ok hfirst']
    exact (hnext answer).carries hbetween hrest hclean

theorem pure (answer : α) : Carries before before (pure answer) (pure answer) where
  keeps hrun := by
    cases hrun
    exact .refl _
  carries hbefore hrun _ := by
    cases hrun
    exact ⟨_, rfl, hbefore⟩

theorem imp {before' : Session → Session → Prop} (h : Carries before after first first')
    (hbefore : ∀ session session', before' session session' → before session session') :
    Carries before' after first first' where
  keeps := h.keeps
  carries hbefore' := h.carries (hbefore _ _ hbefore')

theorem mono {after' : Session → Session → Prop} (h : Carries before after first first')
    (hafter : ∀ session session', after session session' → after' session session') :
    Carries before after' first first' where
  keeps := h.keeps
  carries hbefore hrun hclean := by
    obtain ⟨later', hrun', hlater⟩ := h.carries hbefore hrun hclean
    exact ⟨later', hrun', hafter _ _ hlater⟩

end Carries

namespace Closes

/-- What begins like this is closed if what follows is. -/
theorem bind (h : k.coupling.Mirrors Eq first first')
    (hnext : ∀ answer, k.Closes after (next answer) (next' answer)) :
    k.Closes after (first >>= next) (first' >>= next') where
  keeps := Coupling.Mirrors.keeps_bind (h.keeps trivial) fun answer => (hnext answer).keeps
  carries hinside hrun hclean := by
    obtain ⟨answer, between, hfirst, hrest⟩ := exists_of_bind hrun
    have houtcomes := h.outcomes hinside
    rw [hfirst] at houtcomes
    rcases houtcomes.of_ok with hlost | ⟨_, between', hfirst', rfl, hbetween⟩
    · exact absurd hclean ((hnext answer).stalls hlost.isEnd hrest)
    · rw [bind_of_ok hfirst']
      exact (hnext answer).carries hbetween hrest hclean
  stalls hend hrun := by
    obtain ⟨answer, between, hfirst, hrest⟩ := exists_of_bind hrun
    exact (hnext answer).stalls ((h.keeps trivial hfirst).isEnd hend) hrest

theorem bind_like {unlined : α → α} (h : k.coupling.Mirrors (k.coupling.Like unlined) first first')
    (hnext : ∀ answer, k.Closes after (next answer) (next' answer)) :
    k.Closes after (first >>= next) (first' >>= next') :=
  bind (h.weaken fun _ _ hlike => hlike.eq trivial) hnext

/-- What ends like this is closed if what comes before is. -/
theorem append (h : k.Closes middle first first')
    (hnext : ∀ answer, Carries middle after (next answer) (next' answer)) :
    k.Closes after (first >>= next) (first' >>= next') where
  toCarries := h.toCarries.bind hnext
  stalls hend hrun hclean := by
    obtain ⟨answer, between, hfirst, hrest⟩ := exists_of_bind hrun
    exact h.stalls hend hfirst (((hnext answer).keeps hrest).clean hclean)

theorem mono {after' : Session → Session → Prop} (h : k.Closes after first first')
    (hafter : ∀ session session', after session session' → after' session session') :
    k.Closes after' first first' where
  toCarries := h.toCarries.mono hafter
  stalls := h.stalls

theorem ite {condition : Prop} [Decidable condition] {second second' : Production α}
    (h : condition → k.Closes after first first') (h' : ¬ condition → k.Closes after second second') :
    k.Closes after (if condition then first else second) (if condition then first' else second') := by
  split
  · next hcondition => exact h hcondition
  · next hcondition => exact h' hcondition

end Closes

/-! ## Tokens and errors -/

/-- What records an error makes a report. -/
theorem flag_unclean {missing : ErrorKind} {session later : Session} {answer : Unit}
    (hrun : flag missing session = .ok (answer, later)) : later.diagnostics ≠ [] := by
  cases hrun
  simp

theorem closes_flag (missing : ErrorKind) : k.Closes after (flag missing) (flag missing) where
  keeps := (mirrors_flag (c := k.coupling) missing).keeps trivial
  carries _ hrun hclean := absurd hclean (flag_unclean hrun)
  stalls _ := flag_unclean

theorem closes_flag_bind (missing : ErrorKind) {next next' : Unit → Production β}
    (hkeeps : ∀ {session later : Session} {answer : β}, next () session = .ok (answer, later) →
      session.Kept later) :
    k.Closes after (flag missing >>= next) (flag missing >>= next') := by
  have hflag : k.Closes (fun _ _ => False) (flag missing) (flag missing) := closes_flag missing
  exact hflag.append fun _ => { keeps := hkeeps, carries := False.elim }

/-- The kind of the current token is the same inside. -/
theorem carries_currentKind_bind {next next' : TokenKind → Production β}
    (h : ∀ kind, Carries (fun session session' => k.Inside session session' ∧
      session.cursor.current.kind = kind) after (next kind) (next' kind)) :
    Carries k.Inside after (currentKind >>= next) (currentKind >>= next') where
  keeps {session} _ _ hrun := (h session.cursor.current.kind).keeps hrun
  carries {session session' later answer} hinside hrun hclean := by
    have hkind : session.cursor.current.kind = session'.cursor.current.kind :=
      k.coupling.kind_eq (k.coupling.current hinside.cursor)
    have hcarried := (h session.cursor.current.kind).carries ⟨hinside, rfl⟩ hrun hclean
    rwa [hkind] at hcarried

/-- Whatever is consumed inside, the rest can begin at the continuation. -/
theorem carries_nextToken_bind {next next' : Production β} (hnext : Carries k.Near after next next') :
    Carries k.Inside after (nextToken >>= fun _ => next) (nextToken >>= fun _ => next') where
  keeps := Coupling.Mirrors.keeps_bind ((mirrors_nextToken (c := k.coupling)).keeps trivial)
    fun _ => hnext.keeps
  carries {session session' later answer} hinside hrun hclean := by
    obtain ⟨token, between, hfirst, hrest⟩ := exists_of_bind hrun
    have hnone := (hnext.keeps hrest).clean hclean
    rcases Cursor.Continued.advance hinside.cursor with
      ⟨moved, cursor, cursor', hadvance, hadvance', hcursor⟩ | ⟨-, hadvance, hborder⟩
    · obtain ⟨-, rfl⟩ : moved = token ∧ _ = between := by
        simpa [run_nextToken hadvance] using hfirst
      rw [bind_of_ok (run_nextToken hadvance')]
      have hmoved : k.Inside
          { session with cursor, diagnostics := session.diagnostics ++ cursor.current.reports }
          { session' with
            cursor := cursor', diagnostics := session'.diagnostics ++ cursor'.current.reports } :=
        ⟨hcursor, hinside.table, List.rel_append hinside.diagnostics
          (Coupling.reports_of (k.coupling.current hcursor)), hinside.dummies⟩
      exact hnext.carries (.inl hmoved) hrest hclean
    · -- the last of the tokens has been consumed
      obtain ⟨-, rfl⟩ : _ = token ∧ _ = between := by
        simpa [run_nextToken hadvance] using hfirst
      have hadvance' := hborder k.first k.rest k.next_eq
      rw [bind_of_ok (run_nextToken hadvance')]
      obtain ⟨hbefore, -⟩ := List.append_eq_nil_iff.mp hnone
      have hbefore' : session'.diagnostics = [] :=
        List.forall₂_nil_left_iff.mp (hbefore ▸ hinside.diagnostics)
      have hmoved : k.Border
          { session with
            cursor := .atEnd k.location k.count
            diagnostics := session.diagnostics ++ (Cursor.atEnd k.location k.count).current.reports }
          { session' with
            cursor := ⟨k.rest, k.first, none, k.count⟩
            diagnostics := session'.diagnostics ++ k.first.reports } :=
        ⟨rfl, rfl, hinside.table.eq trivial, hinside.dummies, hnone, by simp [hbefore']⟩
      exact hnext.carries (.inr hmoved) hrest hclean

theorem matchToken_eq (kind : TokenKind) :
    matchToken kind = currentKind >>= fun current =>
      if current == kind then nextToken >>= fun _ => pure true else pure false := by
  unfold matchToken check
  simp only [bind_assoc, pure_bind]

theorem expect_eq (kind : TokenKind) (missing : ErrorKind) :
    expect kind missing = currentKind >>= fun current =>
      if current == kind then nextToken >>= fun _ => pure () else flag missing := by
  unfold expect
  rw [matchToken_eq, bind_assoc]
  congr
  funext current
  split <;> simp

theorem kind_of_isEnd {token : Token} (h : token.isEnd = true) : token.kind = .endOfFile := by
  simpa [Token.isEnd] using h

/-- What is expected ends an item, or something before the end of it. -/
theorem closes_expect {kind : TokenKind} (hkind : kind ≠ .endOfFile) (missing : ErrorKind) :
    k.Closes k.Near (expect kind missing) (expect kind missing) where
  toCarries := by
    rw [expect_eq]
    refine carries_currentKind_bind fun current => ?_
    split
    · exact (carries_nextToken_bind (.pure ())).imp fun _ _ h => h.1
    · exact (closes_flag missing).imp fun _ _ h => h.1
  stalls {session later answer} hend hrun := by
    rw [expect_eq] at hrun
    have hmissing : (session.cursor.current.kind == kind) = false := by
      simpa [kind_of_isEnd hend] using hkind.symm
    have hflag : (if session.cursor.current.kind == kind then nextToken >>= fun _ => pure ()
        else flag missing) session = .ok (answer, later) := hrun
    rw [hmissing] at hflag
    exact flag_unclean hflag

/-- What cannot be the last token is followed by another. -/
theorem closes_expect_inside {kind : TokenKind} (hkind : kind ≠ .endOfFile)
    (hcloser : kind ∉ TokenKind.closers) (missing : ErrorKind) :
    k.Closes k.Inside (expect kind missing) (expect kind missing) where
  keeps := (closes_expect (k := k) hkind missing).keeps
  carries {session session' later answer} hinside hrun hclean := by
    obtain ⟨later', hrun', hlater⟩ := (closes_expect hkind missing).carries hinside hrun hclean
    refine ⟨later', hrun', hlater.resolve_right fun hborder => ?_⟩
    rw [expect_eq] at hrun
    have hcurrent : (if session.cursor.current.kind == kind then nextToken >>= fun _ => pure ()
        else flag missing) session = .ok (answer, later) := hrun
    split at hcurrent
    · next hsame =>
        obtain ⟨token, between, hnext, hrest⟩ := exists_of_bind hcurrent
        cases hrest
        rcases Cursor.Continued.advance hinside.cursor with
          ⟨moved, cursor, cursor', hadvance, -, hcursor⟩ | ⟨hlast, -⟩
        · obtain ⟨-, rfl⟩ : moved = token ∧ _ = later := by
            simpa [run_nextToken hadvance] using hnext
          have hend := hcursor.isEnd
          rw [show cursor = _ from hborder.cursor] at hend
          cases hend
        · exact hcloser (beq_iff_eq.mp hsame ▸ hlast)
    · exact flag_unclean hcurrent hclean
  stalls := (closes_expect (k := k) hkind missing).stalls

theorem ensure_clean {holds : Bool} {token : Token} {missing : ErrorKind} {session later : Session}
    {answer : Unit} (hrun : ensure holds token missing session = .ok (answer, later))
    (hclean : later.diagnostics = []) : holds = true ∧ later = session := by
  cases holds with
  | true =>
      cases hrun
      exact ⟨rfl, rfl⟩
  | false =>
      cases hrun
      simp at hclean

/-- What is required has to be current, and stays so. -/
theorem closes_require {kind : TokenKind} (hkind : kind ≠ .endOfFile) (missing : ErrorKind) :
    k.Closes k.Inside (require kind missing) (require kind missing) where
  keeps := (mirrors_require (c := k.coupling) kind missing).keeps trivial
  carries {session session' later answer} hinside hrun hclean := by
    obtain ⟨hholds, rfl⟩ := ensure_clean hrun hclean
    have hsame : session'.cursor.current = later.cursor.current :=
      (k.coupling.current hinside.cursor).symm
    have hholds' : (session'.cursor.current.kind == kind) = true := by rw [hsame]; exact hholds
    refine ⟨session', ?_, hinside⟩
    show ensure (session'.cursor.current.kind == kind) session'.cursor.current missing session' = _
    rw [hholds']
    rfl
  stalls {session later answer} hend hrun hclean := by
    obtain ⟨hholds, -⟩ := ensure_clean hrun hclean
    exact hkind (kind_of_isEnd hend ▸ beq_iff_eq.mp hholds).symm

/-- What leaves the current token where it is stays inside. -/
theorem carries_still {production production' : Production α}
    (h : k.coupling.Mirrors Eq production production')
    (hstill : ∀ {session later : Session} {answer : α}, production session = .ok (answer, later) →
      later.cursor.current = session.cursor.current) :
    Carries k.Inside k.Inside production production' where
  keeps := h.keeps trivial
  carries {session session' later answer} hinside hrun _ := by
    have houtcomes := h.outcomes hinside
    rw [hrun] at houtcomes
    rcases houtcomes.of_ok with hlost | ⟨_, later', hrun', rfl, hlater⟩
    · have hend := hlost.isEnd
      rw [hstill hrun, Cursor.Continued.isEnd hinside.cursor] at hend
      cases hend
    · exact ⟨later', hrun', hlater⟩

/-! ## Symbols -/

/-- A change of the table is made on both sides, inside and at the continuation. -/
theorem carries_onTable (change : SymbolTable → α × SymbolTable) :
    Carries k.Near k.Near (onTable change) (onTable change) := by
  have hinner : Carries k.Inside k.Inside (onTable change) (onTable change) := by
    refine carries_still (mirrors_onTable fun table table' h => ?_) fun hrun => by cases hrun; rfl
    obtain rfl : table = table' := h.eq trivial
    exact ⟨rfl, .refl _⟩
  refine ⟨hinner.keeps, fun {session session' later answer} hnear hrun hclean => ?_⟩
  rcases hnear with hinside | hborder
  · obtain ⟨later', hrun', hlater⟩ := hinner.carries hinside hrun hclean
    exact ⟨later', hrun', .inl hlater⟩
  · cases hrun
    refine ⟨{ session' with table := (change session'.table).2 }, ?_, .inr ?_⟩
    · rw [hborder.table]
      rfl
    · exact { hborder with table := congrArg (fun table => (change table).2) hborder.table }

theorem carries_changeRoutine (id : EntryId) (change : Routine → Routine) :
    Carries k.Near k.Near (changeRoutine id change) (changeRoutine id change) :=
  carries_onTable fun table => ((), table.modifyRoutine id change)

/-- The semicolon after a statement can be the last token, and what follows does not begin with one. -/
theorem carries_matchSemicolon :
    Carries k.Near k.Near (matchToken .semicolon) (matchToken .semicolon) := by
  rw [matchToken_eq]
  have hinner : Carries k.Inside k.Near
      (currentKind >>= fun current =>
        if current == .semicolon then nextToken >>= fun _ => pure true else pure false)
      (currentKind >>= fun current =>
        if current == .semicolon then nextToken >>= fun _ => pure true else pure false) := by
    refine carries_currentKind_bind fun current => ?_
    split
    · exact (carries_nextToken_bind (.pure true)).imp fun _ _ h => h.1
    · exact ((Carries.pure false).imp fun _ _ h => h.1).mono fun _ _ h => .inl h
  refine ⟨hinner.keeps, fun {session session' later answer} hnear hrun hclean => ?_⟩
  rcases hnear with hinside | hborder
  · exact hinner.carries hinside hrun hclean
  · have hcurrent : (session.cursor.current.kind == .semicolon) = false := by
      rw [hborder.cursor]
      rfl
    have hcurrent' : (session'.cursor.current.kind == .semicolon) = false := by
      rw [hborder.cursor']
      simpa using k.first_ne
    have hsame : (if session.cursor.current.kind == .semicolon then nextToken >>= fun _ => pure true
        else pure false) session = .ok (answer, later) := hrun
    rw [hcurrent] at hsame
    cases hsame
    refine ⟨session', ?_, .inr hborder⟩
    show (if session'.cursor.current.kind == .semicolon then nextToken >>= fun _ => pure true
      else pure false) session' = _
    rw [hcurrent']
    rfl

end

end Continuation

end FrontEnd
