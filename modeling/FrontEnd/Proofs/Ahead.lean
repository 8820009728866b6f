import FrontEnd.Token.Cursor
import Mathlib.Logic.Relation
import Mathlib.Tactic.Common

/-!
# What lies ahead of a cursor

The answers that a cursor stands before are its current token, the token it has looked at, and the
events of its stream.  `ahead` counts the tokens among them that can still be consumed: those before
the first end of the file or failure.

A move that succeeds consumes one of these tokens and adds one to the position (`advance_ahead`), and a
look changes neither (`peek_ahead`).  So their sum is the same wherever a run of the cursor has come, and
`ahead` bounds every loop that consumes a token at each turn.

The answers that a cursor can still give only become fewer (`Answers.of_advance`, `Answers.of_peek`), so
what is true of all of them stays true.
-/

namespace FrontEnd

/-- The answer to a request, the first having the number zero. -/
def TokenStream.answer (stream : TokenStream) (index : Nat) : Except ReadError Token :=
  stream.events[index]?.getD stream.finalEvent

namespace Cursor

/-- The answers before which the cursor stands, the current token first. -/
def pending (cursor : Cursor) : List (Except ReadError Token) :=
  .ok cursor.current :: (cursor.lookahead.toList.map .ok ++ cursor.stream.events)

/-- How many tokens can be consumed before the end of the file or a failure. -/
def ahead (cursor : Cursor) : Nat :=
  (cursor.pending.takeWhile fun event => !TokenStream.isFinal event).length

/-- Whether an answer is one that the cursor can still give. -/
def Answers (cursor : Cursor) (event : Except ReadError Token) : Prop :=
  event ∈ cursor.pending ∨ event = cursor.stream.finalEvent

/-- Whether no answer that the cursor can still give is a failure. -/
def Readable (cursor : Cursor) : Prop :=
  ∀ failure, ¬ cursor.Answers (.error failure)

theorem answers_current (cursor : Cursor) : cursor.Answers (.ok cursor.current) :=
  Or.inl (by simp [pending])

theorem ahead_le_remaining (cursor : Cursor) : cursor.ahead ≤ cursor.remaining + 1 := by
  have := (List.takeWhile_prefix
    (fun event => !TokenStream.isFinal event) (l := cursor.pending)).length_le
  simpa [ahead, pending, remaining] using this

theorem ahead_eq_zero {cursor : Cursor} (hend : cursor.current.isEnd = true) : cursor.ahead = 0 := by
  simp [ahead, pending, TokenStream.isFinal, hend]

theorem ahead_pos {cursor : Cursor} (hend : cursor.current.isEnd = false) : 0 < cursor.ahead := by
  simp [ahead, pending, TokenStream.isFinal, hend]

theorem finalEvent_isEnd {stream : TokenStream} {token : Token}
    (h : stream.finalEvent = .ok token) : token.isEnd = true := by
  unfold TokenStream.finalEvent at h
  cases hending : stream.ending with
  | error failure => simp [hending, Except.map] at h
  | ok location =>
      simp only [hending, Except.map, Except.ok.injEq] at h
      subst h
      rfl

/-! ## Reading from the stream -/

theorem next_finalEvent (stream : TokenStream) :
    stream.next.2.finalEvent = stream.finalEvent := by
  unfold TokenStream.next
  split <;> rfl

/-- A request is answered by the first of the events, or else by the final one. -/
theorem next_cases (stream : TokenStream) :
    stream.events = stream.next.1 :: stream.next.2.events ∨
      stream.events = [] ∧ stream.next = (stream.finalEvent, stream) := by
  unfold TokenStream.next
  split <;> simp_all

/-! ## Moving on -/

/-- A move that succeeds stays at the end of the file or shows the next of the pending answers. -/
theorem advance_cases {cursor next : Cursor} {token : Token}
    (h : cursor.advance = (.ok token, next)) :
    next.current = token ∧ next.stream.finalEvent = cursor.stream.finalEvent ∧
      (cursor.current.isEnd = true ∧ next = cursor ∨
        cursor.current.isEnd = false ∧ next.position = cursor.position + 1 ∧
          (cursor.pending = .ok cursor.current :: next.pending ∨
            cursor.pending = [.ok cursor.current] ∧ cursor.stream.finalEvent = .ok token ∧
              next.pending = [.ok token])) := by
  unfold advance at h
  split at h
  · next hend =>
      obtain ⟨rfl, rfl⟩ : cursor.current = token ∧ cursor = next := by simpa using h
      exact ⟨rfl, rfl, Or.inl ⟨hend, rfl⟩⟩
  · next hend =>
      have hend : cursor.current.isEnd = false := by simpa using hend
      cases hlook : cursor.lookahead with
      | some ready =>
          obtain ⟨rfl, rfl⟩ : ready = token ∧ _ = next := by simpa [hlook] using h
          exact ⟨rfl, rfl, Or.inr ⟨hend, rfl, Or.inl (by simp [pending, hlook])⟩⟩
      | none =>
          rcases hnext : cursor.stream.next with ⟨answer, stream⟩
          cases answer with
          | error failure => simp [hlook, hnext] at h
          | ok answered =>
              obtain ⟨rfl, rfl⟩ : answered = token ∧ _ = next := by simpa [hlook, hnext] using h
              refine ⟨rfl, by simpa [hnext] using next_finalEvent cursor.stream,
                Or.inr ⟨hend, rfl, ?_⟩⟩
              -- the token comes from the events, or, when they are used up, from what is repeated
              rcases next_cases cursor.stream with hevents | ⟨hevents, hfinal⟩
              · exact Or.inl (by simp [pending, hlook, hevents, hnext])
              · rw [hnext] at hfinal
                obtain ⟨hanswered, rfl⟩ : .ok answered = cursor.stream.finalEvent ∧
                    stream = cursor.stream := by simpa using hfinal
                exact Or.inr ⟨by simp [pending, hlook, hevents], hanswered.symm,
                  by simp [pending, hevents]⟩

theorem advance_of_isEnd {cursor next : Cursor} {token : Token}
    (h : cursor.advance = (.ok token, next)) (hend : cursor.current.isEnd = true) :
    next = cursor := by
  rcases advance_cases h with ⟨-, -, ⟨-, rfl⟩ | ⟨hnot, -⟩⟩
  · rfl
  · simp [hend] at hnot

theorem advance_current {cursor next : Cursor} {token : Token}
    (h : cursor.advance = (.ok token, next)) : next.current = token :=
  (advance_cases h).1

theorem advance_position {cursor next : Cursor} {token : Token}
    (h : cursor.advance = (.ok token, next)) (hend : cursor.current.isEnd = false) :
    next.position = cursor.position + 1 := by
  rcases advance_cases h with ⟨-, -, ⟨hnot, -⟩ | ⟨-, hposition, -⟩⟩
  · simp [hend] at hnot
  · exact hposition

/-- Each token consumed is one less ahead. -/
theorem advance_ahead {cursor next : Cursor} {token : Token}
    (h : cursor.advance = (.ok token, next)) (hend : cursor.current.isEnd = false) :
    next.ahead + 1 = cursor.ahead := by
  rcases advance_cases h with ⟨-, -, ⟨hnot, -⟩ | ⟨-, -, hpending | ⟨hpending, hfinal, hnext⟩⟩⟩
  · simp [hend] at hnot
  · simp [ahead, hpending, TokenStream.isFinal, hend]
  · have := finalEvent_isEnd hfinal
    simp [ahead, hpending, hnext, TokenStream.isFinal, hend, this]

/-! ## Looking ahead -/

/-- A look that succeeds moves nothing but the token that is looked at. -/
theorem peek_cases {cursor next : Cursor} {token : Token} (h : cursor.peek = (.ok token, next)) :
    next.current = cursor.current ∧ next.position = cursor.position ∧
      next.stream.finalEvent = cursor.stream.finalEvent ∧
      (next.pending = cursor.pending ∨
        cursor.pending = [.ok cursor.current] ∧ cursor.stream.finalEvent = .ok token ∧
          next.pending = [.ok cursor.current, .ok token] ∨
        cursor.current.isEnd = true ∧
          next.pending = .ok cursor.current :: cursor.pending) := by
  unfold peek at h
  cases hlook : cursor.lookahead with
  | some ready =>
      obtain ⟨rfl, rfl⟩ : ready = token ∧ cursor = next := by simpa [hlook] using h
      exact ⟨rfl, rfl, rfl, Or.inl rfl⟩
  | none =>
      simp only [hlook] at h
      split at h
      · next hend =>
          obtain ⟨-, rfl⟩ : cursor.current = token ∧ _ = next := by simpa using h
          exact ⟨rfl, rfl, rfl, Or.inr (Or.inr ⟨hend, by simp [pending, hlook]⟩)⟩
      · rcases hnext : cursor.stream.next with ⟨answer, stream⟩
        cases answer with
        | error failure => simp [hnext] at h
        | ok answered =>
            obtain ⟨rfl, rfl⟩ : answered = token ∧ _ = next := by simpa [hnext] using h
            refine ⟨rfl, rfl, by simpa [hnext] using next_finalEvent cursor.stream, ?_⟩
            rcases next_cases cursor.stream with hevents | ⟨hevents, hfinal⟩
            · exact Or.inl (by simp [pending, hlook, hevents, hnext])
            · rw [hnext] at hfinal
              obtain ⟨hanswered, rfl⟩ : .ok answered = cursor.stream.finalEvent ∧
                  stream = cursor.stream := by simpa using hfinal
              exact Or.inr (Or.inl ⟨by simp [pending, hlook, hevents], hanswered.symm,
                by simp [pending, hevents]⟩)

theorem peek_current {cursor next : Cursor} {token : Token} (h : cursor.peek = (.ok token, next)) :
    next.current = cursor.current :=
  (peek_cases h).1

theorem peek_position {cursor next : Cursor} {token : Token}
    (h : cursor.peek = (.ok token, next)) : next.position = cursor.position :=
  (peek_cases h).2.1

theorem peek_ahead {cursor next : Cursor} {token : Token} (h : cursor.peek = (.ok token, next)) :
    next.ahead = cursor.ahead := by
  obtain ⟨-, -, -, hpending | ⟨hpending, hfinal, hnext⟩ | ⟨hend, hnext⟩⟩ := peek_cases h
  · simp [ahead, hpending]
  · have := finalEvent_isEnd hfinal
    by_cases hend : cursor.current.isEnd = true <;>
      simp [ahead, hpending, hnext, TokenStream.isFinal, this, hend]
  · rw [ahead_eq_zero hend, ahead_eq_zero (by rwa [peek_current h])]

/-! ## Reading on -/

/-- A request for a token that is answered with one: a move to the next token, or a look at it. -/
inductive Requests (cursor : Cursor) : Cursor → Prop
  | advance {token : Token} {next : Cursor} : cursor.advance = (.ok token, next) → Requests cursor next
  | peek {token : Token} {looked : Cursor} : cursor.peek = (.ok token, looked) → Requests cursor looked

/-- Whether reading on leads from one cursor to another. -/
def ReadsOn : Cursor → Cursor → Prop :=
  Relation.ReflTransGen Requests

/-! ## What can still be answered -/

theorem Answers.of_advance {cursor next : Cursor} {token : Token} {event : Except ReadError Token}
    (h : cursor.advance = (.ok token, next)) (hnext : next.Answers event) :
    cursor.Answers event := by
  obtain ⟨-, hfinalEvent, ⟨-, rfl⟩ | ⟨-, -, hpending | ⟨hpending, hfinal, hone⟩⟩⟩ := advance_cases h
  · exact hnext
  · rcases hnext with hmem | hlast
    · exact Or.inl (hpending ▸ List.mem_cons_of_mem _ hmem)
    · exact Or.inr (hfinalEvent ▸ hlast)
  · rcases hnext with hmem | hlast
    · obtain rfl : event = .ok token := by simpa [hone] using hmem
      exact Or.inr hfinal.symm
    · exact Or.inr (hfinalEvent ▸ hlast)

theorem Answers.of_peek {cursor next : Cursor} {token : Token} {event : Except ReadError Token}
    (h : cursor.peek = (.ok token, next)) (hnext : next.Answers event) :
    cursor.Answers event := by
  obtain ⟨-, -, hfinalEvent, hpending | ⟨hpending, hfinal, htwo⟩ | ⟨-, hmore⟩⟩ := peek_cases h
  · rcases hnext with hmem | hlast
    · exact Or.inl (hpending ▸ hmem)
    · exact Or.inr (hfinalEvent ▸ hlast)
  · rcases hnext with hmem | hlast
    · obtain rfl | rfl : event = .ok cursor.current ∨ event = .ok token := by
        simpa [htwo] using hmem
      · exact cursor.answers_current
      · exact Or.inr hfinal.symm
    · exact Or.inr (hfinalEvent ▸ hlast)
  · rcases hnext with hmem | hlast
    · rw [hmore, List.mem_cons] at hmem
      rcases hmem with rfl | hmem
      · exact cursor.answers_current
      · exact Or.inl hmem
    · exact Or.inr (hfinalEvent ▸ hlast)

/-! ## Failures -/

/-- Whether the token after the current one cannot be read. -/
structure Fails (cursor : Cursor) (failure : ReadError) : Prop where
  goes : cursor.current.isEnd = false
  unread : cursor.lookahead = none
  next : cursor.stream.next.1 = .error failure

theorem Fails.answers {cursor : Cursor} {failure : ReadError} (h : cursor.Fails failure) :
    cursor.Answers (.error failure) := by
  rw [← h.next]
  rcases next_cases cursor.stream with hevents | ⟨-, hfinal⟩
  · exact Or.inl (by simp [pending, hevents])
  · exact Or.inr (congrArg Prod.fst hfinal)

theorem Fails.of_advance {cursor next : Cursor} {failure : ReadError}
    (h : cursor.advance = (.error failure, next)) : cursor.Fails failure := by
  unfold advance at h
  split at h
  · simp at h
  · next hend =>
      cases hlook : cursor.lookahead with
      | some ready => simp [hlook] at h
      | none =>
          rcases hnext : cursor.stream.next with ⟨answer, stream⟩
          cases answer with
          | ok answered => simp [hlook, hnext] at h
          | error cause =>
              obtain ⟨rfl, -⟩ : cause = failure ∧ _ = next := by simpa [hlook, hnext] using h
              exact ⟨by simpa using hend, hlook, by rw [hnext]⟩

theorem Fails.of_peek {cursor next : Cursor} {failure : ReadError}
    (h : cursor.peek = (.error failure, next)) : cursor.Fails failure := by
  unfold peek at h
  cases hlook : cursor.lookahead with
  | some ready => simp [hlook] at h
  | none =>
      simp only [hlook] at h
      split at h
      · simp at h
      · next hend =>
          rcases hnext : cursor.stream.next with ⟨answer, stream⟩
          cases answer with
          | ok answered => simp [hnext] at h
          | error cause =>
              obtain ⟨rfl, -⟩ : cause = failure ∧ _ = next := by simpa [hnext] using h
              exact ⟨by simpa using hend, hlook, by rw [hnext]⟩

end Cursor

end FrontEnd
