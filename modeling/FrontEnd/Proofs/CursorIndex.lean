import FrontEnd.Proofs.Ahead
import Mathlib.Data.List.Count

/-!
# A cursor as an index

A cursor is an index into the answers of its source: after some moves it stands on the answer with that
index, or on the end of the file if that came first, and a look shows the answer after it
(`serve_eq_due`).  Which calls were made, and in which order, does not matter.

A source is a sequence of answers, and only as many of them matter as calls are made and one more: a
stream that begins with these serves the calls as the source would.

## Strategy

`Tracks` says where a cursor stands after some moves.  The token that has been looked at is either still
in the stream or in the buffer, and in both cases it is the answer with the next index (`Tracks.beyond`).
A call that is answered with a token keeps this (`Tracks.call`), and so do calls in a row
(`Tracks.serve`).
-/

namespace FrontEnd

namespace TokenStream

/-- The stream after so many requests. -/
def after (stream : TokenStream) (count : Nat) : TokenStream :=
  { stream with events := stream.events.drop count }

@[simp] theorem after_zero (stream : TokenStream) : stream.after 0 = stream :=
  rfl

theorem next_after (stream : TokenStream) (count : Nat) :
    (stream.after count).next = (stream.answer count, stream.after (count + 1)) := by
  rcases Nat.lt_or_ge count stream.events.length with hlt | hge
  · simp only [next, after, answer, List.drop_eq_getElem_cons hlt, List.getElem?_eq_getElem hlt,
      Option.getD_some]
  · have hnone : stream.events.drop count = [] := List.drop_eq_nil_iff.mpr hge
    have hnone' : stream.events.drop (count + 1) = [] := List.drop_eq_nil_iff.mpr (by omega)
    simp [next, after, answer, hnone, hnone', List.getElem?_eq_none hge, finalEvent]

/-- Whatever a source answers to so many requests, some stream answers. -/
theorem exists_answer_eq (source : Nat → Except ReadError Token) (count : Nat) :
    ∃ stream : TokenStream, ∀ index < count, stream.answer index = source index := by
  refine ⟨⟨(List.range count).map source, .error .invalidText⟩, fun index hindex => ?_⟩
  simp [answer, hindex]

/-- Whether an answer is the end of the file. -/
def endsFile : Except ReadError Token → Bool
  | .ok token => token.isEnd
  | .error _ => false

/-- Whether the answer with this index is the first end of the file, or there is none. -/
def EndsAt (source : Nat → Except ReadError Token) : Option Nat → Prop
  | some last => endsFile (source last) = true ∧ ∀ index < last, endsFile (source index) = false
  | none => ∀ index, endsFile (source index) = false

/-- Where so many moves lead if the end of the file has this index. -/
def reached : Option Nat → Nat → Nat
  | some last, moves => min moves last
  | none, moves => moves

theorem reached_le (last : Option Nat) (moves : Nat) : reached last moves ≤ moves := by
  cases last with
  | none => exact Nat.le_refl moves
  | some last => exact Nat.min_le_left moves last

/-- From the end of the file a move leads nowhere. -/
theorem reached_succ_of_end {source : Nat → Except ReadError Token} {last : Option Nat}
    (hlast : EndsAt source last) {moves : Nat} (hend : endsFile (source (reached last moves)) = true) :
    reached last (moves + 1) = reached last moves := by
  cases last with
  | none => simp [hlast moves, reached] at hend
  | some last =>
      have hnot : ¬ min moves last < last := fun hlt => by simp [reached, hlast.2 _ hlt] at hend
      simp only [reached]
      omega

theorem reached_succ_of_not_end {source : Nat → Except ReadError Token} {last : Option Nat}
    (hlast : EndsAt source last) {moves : Nat} (hend : endsFile (source (reached last moves)) = false) :
    reached last (moves + 1) = reached last moves + 1 := by
  cases last with
  | none => rfl
  | some last =>
      have hnot : min moves last ≠ last := fun heq => by simp [reached, heq, hlast.1] at hend
      simp only [reached]
      omega

end TokenStream

namespace Cursor

open TokenStream

/-- What can be asked of a cursor. -/
inductive Call where
  | current
  | peek
  | advance
deriving DecidableEq

/-- What a call is answered with, and the cursor after it. -/
def call (cursor : Cursor) : Call → Except ReadError Token × Cursor
  | .current => (.ok cursor.current, cursor)
  | .peek => cursor.peek
  | .advance => cursor.advance

/-- What calls in a row are answered with, and the cursor after them. -/
def serve : List Call → Cursor → List (Except ReadError Token) × Cursor
  | [], cursor => ([], cursor)
  | request :: rest, cursor =>
      let (answer, next) := cursor.call request
      let (answers, later) := serve rest next
      (answer :: answers, later)

/-- What the calls are to be answered with after so many moves: the current token is the one that the moves
reach, and the others are the one that one move more would reach. -/
def due (source : Nat → Except ReadError Token) (last : Option Nat) :
    Nat → List Call → List (Except ReadError Token)
  | _, [] => []
  | moves, .current :: rest => source (reached last moves) :: due source last moves rest
  | moves, .peek :: rest => source (reached last (moves + 1)) :: due source last moves rest
  | moves, .advance :: rest => source (reached last (moves + 1)) :: due source last (moves + 1) rest

/-! ## Where a cursor stands -/

variable {source : Nat → Except ReadError Token} {last : Option Nat} {stream : TokenStream} {moves : Nat}
  {cursor later : Cursor} {token : Token}

/-- Whether a cursor that began with a stream is where so many moves lead in a source.  The stream has given
up the tokens up to the current one, and one more if that is in the buffer. -/
structure Tracks (source : Nat → Except ReadError Token) (last : Option Nat) (stream : TokenStream)
    (moves : Nat) (cursor : Cursor) : Prop where
  current : source (reached last moves) = .ok cursor.current
  position : cursor.position = reached last moves
  beyond : cursor.lookahead = none ∧ cursor.stream = stream.after (reached last moves + 1) ∨
    ∃ token, cursor.lookahead = some token ∧ source (reached last (moves + 1)) = .ok token ∧
      cursor.stream = stream.after (reached last (moves + 1) + 1)

namespace Tracks

theorem reached_succ (h : Tracks source last stream moves cursor) (hlast : EndsAt source last) :
    reached last (moves + 1) =
      if cursor.current.isEnd then reached last moves else reached last moves + 1 := by
  split
  · next hend => exact reached_succ_of_end hlast (by simpa [h.current, endsFile] using hend)
  · next hend => exact reached_succ_of_not_end hlast (by simpa [h.current, endsFile] using hend)

theorem peek (h : Tracks source last stream moves cursor) (hlast : EndsAt source last)
    (hstream : stream.answer (reached last (moves + 1)) = source (reached last (moves + 1)))
    (hpeek : cursor.peek = (.ok token, later)) :
    source (reached last (moves + 1)) = .ok token ∧ Tracks source last stream moves later := by
  have hsucc := h.reached_succ hlast
  unfold Cursor.peek at hpeek
  rcases h.beyond with ⟨hlook, hrest⟩ | ⟨ready, hlook, hready, hrest⟩
  · cases hend : cursor.current.isEnd with
    | true =>
        obtain ⟨rfl, rfl⟩ : cursor.current = token ∧ _ = later := by
          simpa [hlook, hend] using hpeek
        rw [hend, if_pos rfl] at hsucc
        have hcurrent : source (reached last (moves + 1)) = .ok cursor.current := hsucc ▸ h.current
        exact ⟨hcurrent, h.current, h.position, .inr ⟨_, rfl, hcurrent, by rw [hsucc, hrest]⟩⟩
    | false =>
        rw [hend, if_neg Bool.false_ne_true] at hsucc
        rw [hsucc] at hstream ⊢
        simp only [hlook, hend, hrest, next_after, hstream] at hpeek
        cases hnext : source (reached last moves + 1) with
        | error failure => simp [hnext] at hpeek
        | ok answered =>
            obtain ⟨rfl, rfl⟩ : answered = token ∧ _ = later := by simpa [hnext] using hpeek
            exact ⟨rfl, h.current, h.position, .inr ⟨_, rfl, hsucc ▸ hnext, by rw [hsucc]⟩⟩
  · obtain ⟨rfl, rfl⟩ : ready = token ∧ cursor = later := by simpa [hlook] using hpeek
    exact ⟨hready, h⟩

theorem advance (h : Tracks source last stream moves cursor) (hlast : EndsAt source last)
    (hstream : stream.answer (reached last (moves + 1)) = source (reached last (moves + 1)))
    (hadvance : cursor.advance = (.ok token, later)) :
    source (reached last (moves + 1)) = .ok token ∧ Tracks source last stream (moves + 1) later := by
  have hsucc := h.reached_succ hlast
  unfold Cursor.advance at hadvance
  cases hend : cursor.current.isEnd with
  | true =>
      obtain ⟨rfl, rfl⟩ : cursor.current = token ∧ cursor = later := by simpa [hend] using hadvance
      rw [hend, if_pos rfl] at hsucc
      have hcurrent : source (reached last (moves + 1)) = .ok cursor.current := hsucc ▸ h.current
      -- one move more than those that reach the end of the file reaches it too
      have hmore : reached last (moves + 1 + 1) = reached last (moves + 1) :=
        reached_succ_of_end hlast (by simpa [hcurrent, endsFile] using hend)
      refine ⟨hcurrent, hcurrent, by rw [hsucc, h.position], ?_⟩
      rw [hmore, hsucc]
      simpa only [hsucc] using h.beyond
  | false =>
      rw [hend, if_neg Bool.false_ne_true] at hsucc
      rcases h.beyond with ⟨hlook, hrest⟩ | ⟨ready, hlook, hready, hrest⟩
      · rw [hsucc] at hstream
        simp only [hlook, hend, hrest, next_after, hstream] at hadvance
        cases hnext : source (reached last moves + 1) with
        | error failure => simp [hnext] at hadvance
        | ok answered =>
            obtain ⟨rfl, rfl⟩ : answered = token ∧ _ = later := by simpa [hnext] using hadvance
            rw [← hsucc] at hnext
            exact ⟨hnext, hnext, by rw [hsucc, h.position], .inl ⟨rfl, by rw [hsucc]⟩⟩
      · obtain ⟨rfl, rfl⟩ : ready = token ∧ _ = later := by simpa [hlook, hend] using hadvance
        exact ⟨hready, hready, by rw [hsucc, h.position], .inl ⟨rfl, hrest⟩⟩

/-- Calls that are all answered with tokens are answered as they are to be, and lead where their moves lead. -/
theorem serve (hlast : EndsAt source last) {calls : List Call} (h : Tracks source last stream moves cursor)
    (hstream : ∀ index ≤ moves + calls.length, stream.answer index = source index)
    (hread : ∀ failure, .error failure ∉ (cursor.serve calls).1) :
    (cursor.serve calls).1 = due source last moves calls ∧
      Tracks source last stream (moves + calls.count .advance) (cursor.serve calls).2 := by
  induction calls generalizing moves cursor with
  | nil => exact ⟨rfl, h⟩
  | cons request rest ih =>
      have hnext : stream.answer (reached last (moves + 1)) = source (reached last (moves + 1)) :=
        hstream _ (Nat.le_trans (reached_le last (moves + 1)) (by simp))
      rcases hcall : cursor.call request with ⟨answer, next⟩
      simp only [Cursor.serve, hcall, List.mem_cons, not_or] at hread ⊢
      cases answer with
      | error failure => exact absurd rfl (hread failure).1
      | ok token =>
          have hrest (failure : ReadError) := (hread failure).2
          cases request with
          | current =>
              obtain ⟨rfl, rfl⟩ : cursor.current = token ∧ cursor = next := by
                simpa [call] using hcall
              obtain ⟨hanswers, hlater⟩ := ih h (fun index hle => hstream index (by simp; omega)) hrest
              simpa [due, h.current, hanswers] using hlater
          | peek =>
              obtain ⟨htoken, hlooked⟩ := h.peek hlast hnext hcall
              obtain ⟨hanswers, hlater⟩ := ih hlooked (fun index hle => hstream index (by simp; omega)) hrest
              simpa [due, htoken, hanswers] using hlater
          | advance =>
              obtain ⟨htoken, hmoved⟩ := h.advance hlast hnext hcall
              obtain ⟨hanswers, hlater⟩ := ih hmoved (fun index hle => hstream index (by simp; omega)) hrest
              have hcount : moves + (Call.advance :: rest).count .advance = moves + 1 + rest.count .advance := by
                simp only [List.count_cons_self]
                omega
              rw [hcount]
              exact ⟨by simp [due, htoken, hanswers], hlater⟩

/-- A cursor starts where no move leads away from. -/
theorem start (hstream : stream.answer 0 = source 0) (hstart : Cursor.start stream = .ok cursor) :
    Tracks source last stream 0 cursor := by
  have hzero : reached last 0 = 0 := Nat.le_zero.mp (reached_le last 0)
  have hnext := next_after stream 0
  rw [after_zero, hstream] at hnext
  cases hfirst : source 0 with
  | error failure => simp [Cursor.start, hnext, hfirst] at hstart
  | ok token =>
      obtain rfl : _ = cursor := by simpa [Cursor.start, hnext, hfirst] using hstart
      exact ⟨by rw [hzero, hfirst], hzero.symm, .inl ⟨rfl, by rw [hzero]⟩⟩

end Tracks

/-! ## Looks and failures -/

/-- A look shows the same token again. -/
theorem peek_of_peek (hpeek : cursor.peek = (.ok token, later)) : later.peek = (.ok token, later) := by
  unfold peek at hpeek
  cases hlook : cursor.lookahead with
  | some ready =>
      obtain ⟨rfl, rfl⟩ : ready = token ∧ cursor = later := by simpa [hlook] using hpeek
      rw [peek, hlook]
  | none =>
      simp only [hlook] at hpeek
      split at hpeek
      · obtain ⟨rfl, rfl⟩ : cursor.current = token ∧ _ = later := by simpa using hpeek
        rfl
      · split at hpeek
        · next answered _ _ =>
            obtain ⟨rfl, rfl⟩ : answered = token ∧ _ = later := by simpa using hpeek
            rfl
        · simp at hpeek

/-- After a look a move leads where it would lead without it, unless both stay at the end of the file. -/
theorem advance_of_peek (hpeek : cursor.peek = (.ok token, later)) :
    later.advance = cursor.advance ∨
      later.advance = (.ok later.current, later) ∧ cursor.advance = (.ok later.current, cursor) := by
  have hcurrent := peek_current hpeek
  cases hend : cursor.current.isEnd with
  | true => exact .inr ⟨by simp [advance, hcurrent, hend], by simp [advance, hcurrent, hend]⟩
  | false =>
      left
      cases hlook : cursor.lookahead with
      | some ready =>
          obtain ⟨-, rfl⟩ : ready = token ∧ cursor = later := by simpa [peek, hlook] using hpeek
          rfl
      | none =>
          rcases hnext : cursor.stream.next with ⟨answer, stream⟩
          cases answer with
          | error failure => simp [peek, hlook, hend, hnext] at hpeek
          | ok answered =>
              obtain ⟨rfl, rfl⟩ : answered = token ∧ _ = later := by
                simpa [peek, hlook, hend, hnext] using hpeek
              simp [advance, hend, hlook, hnext]

/-- After a look that was answered with a token, everything is answered as without it. -/
theorem serve_of_peek (hpeek : cursor.peek = (.ok token, later)) (calls : List Call) :
    (later.serve calls).1 = (cursor.serve calls).1 := by
  induction calls with
  | nil => rfl
  | cons request rest ih =>
      cases request with
      | current => simp [serve, call, ih, peek_current hpeek]
      | peek => simp [serve, call, hpeek, peek_of_peek hpeek]
      | advance =>
          rcases advance_of_peek hpeek with hsame | ⟨hlater, hcursor⟩
          · simp [serve, call, hsame]
          · simp [serve, call, hlater, hcursor, ih]

/-- A call that fails answers with the failure of the source, and what the cursor stands on, what it has
looked at and how often it has moved stay as they were. -/
theorem kept_of_failure {request : Call} {failure : ReadError}
    (h : cursor.call request = (.error failure, later)) :
    cursor.stream.next.1 = .error failure ∧ later.current = cursor.current ∧
      later.lookahead = cursor.lookahead ∧ later.position = cursor.position := by
  have hkept (hfails : cursor.Fails failure)
      (hlater : later = { cursor with stream := cursor.stream.next.2, lookahead := none }) :
      cursor.stream.next.1 = .error failure ∧ later.current = cursor.current ∧
        later.lookahead = cursor.lookahead ∧ later.position = cursor.position := by
    subst hlater
    exact ⟨hfails.next, rfl, hfails.unread.symm, rfl⟩
  cases request with
  | current => simp [call] at h
  | peek =>
      have hfails := Fails.of_peek h
      have hstream : cursor.stream.next = (.error failure, cursor.stream.next.2) :=
        Prod.ext hfails.next rfl
      refine hkept hfails ?_
      rw [call, Cursor.peek, hfails.unread, hstream] at h
      simpa [hfails.goes, eq_comm] using h
  | advance =>
      have hfails := Fails.of_advance h
      have hstream : cursor.stream.next = (.error failure, cursor.stream.next.2) :=
        Prod.ext hfails.next rfl
      refine hkept hfails ?_
      rw [call, Cursor.advance, hfails.unread, hstream] at h
      simpa [hfails.goes, eq_comm] using h

/-! ## The main statement -/

/-- **A cursor is an index into the answers of its source**, whatever is asked of it, as long as no read fails:
after some moves it stands on the answer with that index, or on the end of the file if that came first, and its
position is the index.  A look shows the answer after that and changes no answer to what is asked later.  The source
has given up the tokens to the current one and at most one more, and none after the end of the file.  A call that
fails answers with the failure and keeps the current token, the token looked at, and the position. -/
theorem serve_eq_due {first : Cursor} {calls : List Call} {answers : List (Except ReadError Token)}
    (hlast : EndsAt source last)
    (hstream : ∀ index ≤ calls.length, stream.answer index = source index)
    (hstart : Cursor.start stream = .ok first) (hserve : first.serve calls = (answers, later))
    (hread : ∀ failure, .error failure ∉ answers) :
    answers = due source last 0 calls ∧
      source (reached last (calls.count .advance)) = .ok later.current ∧
      later.position = reached last (calls.count .advance) ∧
      (∃ pulled, later.stream = stream.after pulled ∧
        (pulled = reached last (calls.count .advance) + 1 ∨
          pulled = reached last (calls.count .advance + 1) + 1)) ∧
      (∀ (cursor looked : Cursor) token, cursor.peek = (.ok token, looked) →
        ∀ more, (looked.serve more).1 = (cursor.serve more).1) ∧
      ∀ (cursor next : Cursor) request failure, cursor.call request = (.error failure, next) →
        cursor.stream.next.1 = .error failure ∧ next.current = cursor.current ∧
          next.lookahead = cursor.lookahead ∧ next.position = cursor.position := by
  have hfirst : Tracks source last stream 0 first :=
    Tracks.start (hstream 0 (Nat.zero_le calls.length)) hstart
  have hnone : ∀ failure, .error failure ∉ (first.serve calls).1 := by simpa [hserve] using hread
  obtain ⟨hanswers, hlater⟩ := hfirst.serve hlast (fun index hle => hstream index (by omega)) hnone
  rw [hserve, Nat.zero_add] at hlater
  rw [hserve] at hanswers
  refine ⟨hanswers, hlater.current, hlater.position, ?_, fun _ _ _ hpeek => serve_of_peek hpeek,
    fun _ _ _ _ => kept_of_failure⟩
  rcases hlater.beyond with ⟨-, hrest⟩ | ⟨_, -, -, hrest⟩
  · exact ⟨_, hrest, .inl rfl⟩
  · exact ⟨_, hrest, .inr rfl⟩

/-- Before the name `x` and the end of the file, a look and two moves with a call between them are all answered with
the end of the file, and the position is 1. -/
theorem serve_eq_due_name :
    let name : Token := ⟨.identifier, "x", ⟨1, 1⟩, none⟩
    let stream := TokenStream.ofTokens [name, .endOfFile ⟨1, 2⟩]
    EndsAt stream.answer (some 1) ∧
      ∃ first answers later, Cursor.start stream = .ok first ∧
        first.serve [.peek, .advance, .current, .advance] = (answers, later) ∧
        answers = List.replicate 4 (.ok (.endOfFile ⟨1, 2⟩)) ∧
        later.current = .endOfFile ⟨1, 2⟩ ∧ later.position = 1 := by
  intro name stream
  have hends : EndsAt stream.answer (some 1) := by
    simp only [EndsAt]
    decide
  have hstart : Cursor.start stream = .ok { stream := stream.after 1, current := name } := rfl
  have hread : ∀ failure, .error failure ∉
      (Cursor.serve [.peek, .advance, .current, .advance] { stream := stream.after 1, current := name }).1 := by
    simp [serve, call, peek, advance, name, stream, TokenStream.ofTokens, TokenStream.after, TokenStream.next,
      Token.isEnd, Token.endOfFile]
  obtain ⟨hanswers, hcurrent, hposition, -⟩ := serve_eq_due hends (fun _ _ => rfl) hstart rfl hread
  refine ⟨hends, _, _, _, hstart, rfl, hanswers, ?_, hposition⟩
  have hlast : Except.ok (Token.endOfFile ⟨1, 2⟩) = Except.ok _ := hcurrent
  exact (Except.ok.inj hlast).symm

end Cursor

end FrontEnd
