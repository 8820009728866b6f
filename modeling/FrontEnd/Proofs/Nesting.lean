import FrontEnd.Proofs.Reports
import FrontEnd.Proofs.Stays

/-!
# The nesting of delimiters

Parentheses, brackets and braces are nested if each that closes stands where it closes the innermost of
those that are open, and none is left open (`Delimiter.nested`, which reads tokens with the list of what is
open, the innermost first).

What a production does to the open delimiters is said by `Session.Nests`: if nothing has been reported, the
tokens that were still to be read are nested within some delimiters just if those that are left are nested
within some others.  Only the innermost of them are named, so what holds inside a pair of delimiters holds
inside every other.  `Session.Level` is the case in which the same delimiters are open before and after.

## Strategy

Where an error has been reported nothing is claimed, so a production that reports an error and then skips
tokens is level whatever it skips (`Session.Keeps.nests`).  There is one place where tokens are skipped and
nothing is reported: a parse resumes after a piece of text that is no token without reporting it again.  It
has been reported when it became current, and `Session.Candid` keeps that in mind.
-/

namespace FrontEnd

/-- The pairs of signs that enclose other tokens. -/
inductive Delimiter where
  | paren | bracket | brace
deriving DecidableEq

namespace TokenKind

/-- The delimiters that a token of a kind opens. -/
def opens : TokenKind → List Delimiter
  | leftParen => [.paren]
  | leftBracket => [.bracket]
  | leftBrace => [.brace]
  | _ => []

/-- The delimiters that a token of a kind closes. -/
def closes : TokenKind → List Delimiter
  | rightParen => [.paren]
  | rightBracket => [.bracket]
  | rightBrace => [.brace]
  | _ => []

/-- Whether a token of a kind is no delimiter. -/
def isPlain (kind : TokenKind) : Bool :=
  kind.opens.isEmpty && kind.closes.isEmpty

theorem opens_of_isPlain {kind : TokenKind} (h : kind.isPlain = true) : kind.opens = [] := by
  simpa using (Bool.and_eq_true_iff.mp h).1

theorem closes_of_isPlain {kind : TokenKind} (h : kind.isPlain = true) : kind.closes = [] := by
  simpa using (Bool.and_eq_true_iff.mp h).2

/-- The kinds of a set are no delimiters if none of all kinds in it is one. -/
theorem isPlain_of_contains {set : KindSet} {kind : TokenKind}
    (h : ∀ kind ∈ all, set.contains kind = true → kind.isPlain = true)
    (hset : set.contains kind = true) : kind.isPlain = true :=
  h kind (mem_all kind) hset

theorem isPlain_of_valued {kind : TokenKind} (h : kind ∈ TokenKind.valued) : kind.isPlain = true := by
  have hall : ∀ kind ∈ TokenKind.valued, kind.isPlain = true := by decide
  exact hall kind h

end TokenKind

/-- Whether tokens close just what they open and, innermost first, what is open already. -/
def Delimiter.nested (opened : List Delimiter) : List Token → Bool
  | [] => opened.isEmpty
  | token :: rest =>
    token.kind.closes.isPrefixOf opened &&
      nested (token.kind.opens ++ opened.drop token.kind.closes.length) rest

/-- The sign that closes what another has opened. -/
def Delimiter.closing : Delimiter → TokenKind
  | paren => .rightParen
  | bracket => .rightBracket
  | brace => .rightBrace

open Delimiter (nested)

/-- A token exchanges what it closes for what it opens. -/
theorem Delimiter.nested_cons (token : Token) (rest : List Token) (enclosing : List Delimiter) :
    nested (token.kind.closes ++ enclosing) (token :: rest) =
      nested (token.kind.opens ++ enclosing) rest := by
  have hprefix : token.kind.closes.isPrefixOf (token.kind.closes ++ enclosing) = true := by simp
  rw [nested, hprefix, Bool.true_and, List.drop_left]

namespace Cursor

/-- The current token and all that follow it. -/
def unread (cursor : Cursor) : List Token :=
  cursor.current :: cursor.upcoming

theorem unread_of_advance {cursor next : Cursor} {token : Token}
    (h : cursor.advance = (.ok token, next)) (hend : cursor.current.isEnd = false) :
    cursor.unread = cursor.current :: next.unread :=
  congrArg _ (upcoming_of_advance h hend)

theorem unread_of_peek {cursor next : Cursor} {token : Token} (h : cursor.peek = (.ok token, next)) :
    next.unread = cursor.unread := by
  rw [unread, unread, peek_current h, upcoming_of_peek h]

end Cursor

/-! ## Sessions -/

namespace Session

/-- Whether all tokens are as the scanner makes them, and the current one has been reported if it is no
token. -/
structure Candid (session : Session) : Prop where
  explained : ∀ token, session.cursor.Answers (.ok token) → token.Explained
  valued : ∀ token, session.cursor.Answers (.ok token) → token.Valued
  reported : session.diagnostics = [] → session.cursor.current.scanError? = none

/-- Whether nothing has been taken back that was reported. -/
structure Keeps (session later : Session) : Prop where
  candid : session.Candid → later.Candid
  clean : later.diagnostics = [] → session.diagnostics = []

/-- Whether, if nothing has been reported, what was read closes some delimiters and opens others. -/
structure Nests (closed opened : List Delimiter) (session later : Session) : Prop extends
    Keeps session later where
  nested : session.Candid → later.diagnostics = [] → ∀ enclosing,
    nested (closed ++ enclosing) session.cursor.unread = nested (opened ++ enclosing) later.cursor.unread

/-- Whether, if nothing has been reported, the same delimiters are open. -/
abbrev Level : Session → Session → Prop := Nests [] []

variable {session between later : Session} {first second third : List Delimiter}

instance : Std.Refl Keeps := ⟨fun _ => ⟨id, id⟩⟩

theorem Keeps.trans (h : session.Keeps between) (h' : between.Keeps later) : session.Keeps later where
  candid hcandid := h'.candid (h.candid hcandid)
  clean hclean := h.clean (h'.clean hclean)

instance : IsTrans Session Keeps := ⟨fun _ _ _ => Keeps.trans⟩

/-- Where an error has been reported nothing is claimed. -/
theorem Keeps.nests (h : session.Keeps later) (hdirty : session.Candid → later.diagnostics ≠ []) :
    session.Nests first second later where
  toKeeps := h
  nested hcandid hclean := absurd hclean (hdirty hcandid)

theorem Nests.trans (h : session.Nests first second between) (h' : between.Nests second third later) :
    session.Nests first third later where
  toKeeps := h.toKeeps.trans h'.toKeeps
  nested hcandid hclean enclosing :=
    (h.nested hcandid (h'.clean hclean) enclosing).trans (h'.nested (h.candid hcandid) hclean enclosing)

instance : Std.Refl (Nests first first) := ⟨fun session => ⟨refl session, fun _ _ _ => rfl⟩⟩

instance : IsTrans Session (Nests first first) := ⟨fun _ _ _ => Nests.trans⟩

/-- What is level stays so inside other delimiters. -/
theorem Nests.inside (h : session.Level later) : session.Nests first first later where
  toKeeps := h.toKeeps
  nested hcandid hclean enclosing := h.nested hcandid hclean (first ++ enclosing)

/-- Whether nothing was read. -/
structure Rests (session later : Session) : Prop where
  cursor : later.cursor = session.cursor
  reports : session.diagnostics <+: later.diagnostics

instance : Std.Refl Rests := ⟨fun _ => ⟨rfl, List.prefix_refl _⟩⟩

instance : IsTrans Session Rests :=
  ⟨fun _ _ _ h h' => ⟨h'.cursor.trans h.cursor, h.reports.trans h'.reports⟩⟩

theorem Rests.clean (h : session.Rests later) (hclean : later.diagnostics = []) : session.diagnostics = [] :=
  List.prefix_nil.mp (hclean ▸ h.reports)

theorem Rests.level (h : session.Rests later) : session.Level later where
  candid hcandid :=
    ⟨h.cursor ▸ hcandid.explained, h.cursor ▸ hcandid.valued,
      fun hclean => h.cursor ▸ hcandid.reported (h.clean hclean)⟩
  clean := h.clean
  nested _ _ _ := by rw [h.cursor]

theorem Rests.nests (h : session.Rests between) (h' : between.Nests first second later) :
    session.Nests first second later :=
  h.level.inside.trans h'

end Session

namespace Production

open Session

variable {α β : Type} {session : Session} {kind : TokenKind} {first second third : List Delimiter}

/-! ## Sequences -/

/-- What the first production opens is open for the next. -/
theorem Leads.nests {production : Production α} {next : α → Production β}
    (h : Leads production session (fun _ => True) fun _ between => session.Nests first second between)
    (hnext : ∀ answer, Relates (Nests second third) (next answer)) :
    Leads (production >>= next) session (fun _ => True) fun _ later => session.Nests first third later := by
  refine h.bind fun answer between hfirst => ?_
  exact ((hnext answer).leads between).imp fun _ later hsecond => hfirst.trans hsecond

/-- The next production begins with the token with which the first answers. -/
theorem Leads.nests_of_current {production : Production Token} {next : Token → Production α}
    (h : Leads production session (fun _ => True) fun _ between => session.Nests first second between)
    (hcurrent : Leads production session (fun _ => True) fun token between => between.cursor.current = token)
    (hnext : ∀ token between, between.cursor.current = token →
      Leads (next token) between (fun _ => True) fun _ later => between.Nests second third later) :
    Leads (production >>= next) session (fun _ => True) fun _ later => session.Nests first third later := by
  refine (h.and hcurrent).bind fun token between ⟨hfirst, htoken⟩ => ?_
  exact (hnext token between htoken).imp fun _ later hsecond => hfirst.trans hsecond

/-- The current token is the same after a production that reads nothing. -/
theorem Leads.rests {production : Production α} {next : α → Production β} (h : Relates Rests production)
    (hnext : ∀ answer between, between.cursor = session.cursor →
      Leads (next answer) between (fun _ => True) fun _ later => between.Nests first second later) :
    Leads (production >>= next) session (fun _ => True) fun _ later => session.Nests first second later := by
  refine (h.leads session).bind fun answer between hrests => ?_
  exact (hnext answer between hrests.cursor).imp fun _ later hlater =>
    hrests.nests hlater

theorem Relates.nests {production : Production α} {next : α → Production β}
    (h : Relates (Nests first second) production)
    (hnext : ∀ answer, Relates (Nests second third) (next answer)) :
    Relates (Nests first third) (production >>= next) :=
  h.comp hnext fun _ _ _ hfirst hsecond => hfirst.trans hsecond

theorem Relates.inside {production : Production α} (h : Relates Level production) :
    Relates (Nests first first) production :=
  h.mono fun _ _ hlevel => hlevel.inside

theorem Relates.level {production : Production α} (h : Relates Rests production) :
    Relates Level production :=
  h.mono fun _ _ hrests => hrests.level

/-! ## Errors -/

theorem rests_flagAt (token : Token) (kind : ErrorKind) : Relates Rests (flagAt token kind) := by
  refine ⟨fun session => ?_⟩
  exact ⟨rfl, List.prefix_append _ _⟩

theorem rests_flag (kind : ErrorKind) : Relates Rests (flag kind) :=
  (Relates.read _).bind fun token => rests_flagAt token kind

theorem rests_ensure (holds : Bool) (token : Token) (kind : ErrorKind) :
    Relates Rests (ensure holds token kind) := by
  cases holds with
  | true => exact .pure ()
  | false => exact rests_flagAt token kind

theorem level_require (kind : TokenKind) (missing : ErrorKind) : Relates Level (require kind missing) :=
  ((Relates.read _).bind fun token => rests_ensure _ token missing).level

/-- After an error anything may be skipped. -/
theorem nests_of_flag {rest : Production α} (missing : ErrorKind) (h : Relates Keeps rest) :
    Relates (Nests first second) (flag missing >>= fun _ => rest) := by
  refine ⟨fun session => ?_⟩
  have hflagged := rests_flag missing
  rw [leads_bind]
  refine (h.leads _).imp fun _ later hkeeps => ?_
  refine (hflagged.of_run rfl).level.toKeeps.trans hkeeps |>.nests fun _ hclean => ?_
  simpa using hkeeps.clean hclean

/-! ## Tokens -/

/-- A token that is consumed exchanges what it closes for what it opens. -/
theorem nests_nextToken (session : Session) :
    Leads nextToken session (fun _ => True) fun _ later =>
      session.Nests session.cursor.current.kind.closes session.cursor.current.kind.opens later := by
  rcases hadvance : session.cursor.advance with ⟨result, cursor⟩
  cases result with
  | error failure =>
      rw [leads_nextToken_error hadvance]
      trivial
  | ok token =>
      rw [leads_nextToken hadvance]
      refine ⟨⟨fun hcandid => ⟨?_, ?_, ?_⟩, ?_⟩, ?_⟩
      · exact fun token hanswer => hcandid.explained token (hanswer.of_advance hadvance)
      · exact fun token hanswer => hcandid.valued token (hanswer.of_advance hadvance)
      · intro hclean
        simpa [Token.reports] using (List.append_eq_nil_iff.mp hclean).2
      · exact fun hclean => (List.append_eq_nil_iff.mp hclean).1
      · intro _ _ enclosing
        cases hend : session.cursor.current.isEnd with
        | true =>
            obtain rfl := Cursor.advance_of_isEnd hadvance hend
            have hkind : session.cursor.current.kind = .endOfFile := by simpa [Token.isEnd] using hend
            simp [hkind, TokenKind.closes, TokenKind.opens]
        | false => rw [Cursor.unread_of_advance hadvance hend, Delimiter.nested_cons]

theorem keeps_nextToken : Relates Keeps nextToken :=
  ⟨fun session => (nests_nextToken session).imp fun _ _ h => h.toKeeps⟩

theorem nests_nextToken_of_kind (hkind : session.cursor.current.kind = kind) :
    Leads nextToken session (fun _ => True) fun _ later => session.Nests kind.closes kind.opens later := by
  subst hkind
  exact nests_nextToken session

/-- To consume a token that is no delimiter is level.  What kind of token it is matters only if nothing has
been reported. -/
theorem level_nextToken
    (hkind : session.Candid → session.diagnostics = [] → session.cursor.current.kind.isPlain = true) :
    Leads nextToken session (fun _ => True) fun _ later => session.Level later := by
  refine (nests_nextToken session).imp fun _ later hnext => ?_
  refine ⟨hnext.toKeeps, fun hcandid hclean enclosing => ?_⟩
  have hplain := hkind hcandid (hnext.clean hclean)
  have hnested := hnext.nested hcandid hclean enclosing
  rwa [TokenKind.closes_of_isPlain hplain, TokenKind.opens_of_isPlain hplain] at hnested

/-- To consume a token of a known kind. -/
theorem level_nextToken_of_kind (hkind : session.cursor.current.kind = kind)
    (hplain : kind.isPlain = true) :
    Leads nextToken session (fun _ => True) fun _ later => session.Level later :=
  level_nextToken fun _ _ => by rwa [hkind]

theorem level_peekKind : Relates Level peekKind := by
  refine ⟨fun session => ?_⟩
  rcases hpeek : session.cursor.peek with ⟨result, cursor⟩
  cases result with
  | error failure =>
      rw [leads_peekKind_error hpeek]
      trivial
  | ok token =>
      rw [leads_peekKind hpeek]
      refine ⟨⟨fun hcandid => ⟨?_, ?_, ?_⟩, id⟩, fun _ _ enclosing => ?_⟩
      · exact fun token hanswer => hcandid.explained token (hanswer.of_peek hpeek)
      · exact fun token hanswer => hcandid.valued token (hanswer.of_peek hpeek)
      · exact fun hclean => Cursor.peek_current hpeek ▸ hcandid.reported hclean
      · rw [Cursor.unread_of_peek hpeek]

/-- A token of a kind is consumed or it is not there. -/
theorem nests_matchToken (kind : TokenKind) (session : Session) :
    Leads (matchToken kind) session (fun _ => True) fun found later =>
      if found then session.Nests kind.closes kind.opens later else later = session := by
  rw [matchToken, leads_bind, leads_check]
  split
  · next hcheck =>
      have hkind := eq_of_beq hcheck
      exact (nests_nextToken_of_kind hkind).bind fun _ later hlater => hlater
  · rfl

/-- What an optional token opens is open for what follows it. -/
theorem nests_of_matchToken (kind : TokenKind) {next : Bool → Production α}
    (hfound : Relates (Nests kind.opens third) (next true))
    (hmissing : Relates (Nests kind.closes third) (next false)) :
    Relates (Nests kind.closes third) (matchToken kind >>= next) := by
  refine ⟨fun session => (nests_matchToken kind session).bind ?_⟩
  rintro (_ | _) between hbetween
  · obtain rfl : between = session := hbetween
    exact hmissing.leads between
  · exact (hfound.leads between).imp fun _ later hlater =>
      Nests.trans hbetween hlater

theorem level_matchToken (kind : TokenKind) (hplain : kind.isPlain = true) :
    Relates Level (matchToken kind) := by
  refine ⟨fun session => (nests_matchToken kind session).imp ?_⟩
  rintro (_ | _) later hlater
  · obtain rfl : later = session := hlater
    exact refl later
  · rwa [if_pos rfl, TokenKind.closes_of_isPlain hplain, TokenKind.opens_of_isPlain hplain] at hlater

theorem level_matchAny {set : KindSet}
    (hset : ∀ kind ∈ TokenKind.all, set.contains kind = true → kind.isPlain = true) :
    Relates Level (matchAny set) := by
  refine ⟨fun session => ?_⟩
  rw [matchAny, leads_bind, leads_currentKind]
  split
  · next hcontains =>
      have hplain := TokenKind.isPlain_of_contains hset hcontains
      exact (level_nextToken fun _ _ => hplain).bind fun _ later hlater => hlater
  · exact refl session

/-- A token that has to be there is consumed, or it is reported that it is not there. -/
theorem nests_expect (kind : TokenKind) (missing : ErrorKind) :
    Relates (Nests kind.closes kind.opens) (expect kind missing) :=
  nests_of_matchToken kind (.pure ()) (nests_of_flag missing (.pure ()))

theorem level_expect (kind : TokenKind) (hplain : kind.isPlain = true) (missing : ErrorKind) :
    Relates Level (expect kind missing) := by
  have hnests := nests_expect kind missing
  rwa [TokenKind.closes_of_isPlain hplain, TokenKind.opens_of_isPlain hplain] at hnests

theorem nests_close (delimiter : Delimiter) (missing : ErrorKind) :
    Relates (Nests [delimiter] []) (expect delimiter.closing missing) := by
  cases delimiter with
  | paren => exact nests_expect .rightParen missing
  | bracket => exact nests_expect .rightBracket missing
  | brace => exact nests_expect .rightBrace missing

/-- To skip tokens takes nothing back. -/
theorem keeps_skip (set : KindSet) : Relates Keeps (nextToken >>= loop (skipToken set)) :=
  keeps_nextToken.bind fun first => .loop (fun _ =>
    .ite (.pure _) (keeps_nextToken.bind fun _ => .pure _)) first

/-- Where a parse resumes with the current token nothing is read.  Else an error has been reported. -/
theorem level_synchronize (set : KindSet) : Relates Level (synchronize set) := by
  refine ⟨fun session => ?_⟩
  rw [synchronize, leads_bind, leads_current]
  split
  · exact refl session
  · -- what is no token has been reported before, and anything else is reported now
    have hnoted : Leads (ensure (session.cursor.current.kind == .error) session.cursor.current
        .unexpectedToken) session (fun _ => True) fun _ noted =>
          session.Rests noted ∧ (session.Candid → noted.diagnostics ≠ []) := by
      cases hkind : session.cursor.current.kind == .error with
      | true =>
          refine ⟨refl session, fun hcandid hclean => ?_⟩
          have hreason := (hcandid.explained _ session.cursor.answers_current).mp (eq_of_beq hkind)
          simp [hcandid.reported hclean] at hreason
      | false => exact ⟨(rests_flagAt _ _).of_run rfl, fun _ => by simp⟩
    refine hnoted.bind ?_
    rintro _ noted ⟨hrests, hdirty⟩
    refine ((keeps_skip set).leads noted).imp fun _ later hkeeps => ?_
    exact (hrests.level.toKeeps.trans hkeeps).nests fun hcandid hclean =>
      hdirty hcandid (hkeeps.clean hclean)

end Production

end FrontEnd
