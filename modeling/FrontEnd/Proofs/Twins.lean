import FrontEnd.Proofs.Mirrors.Unit

/-!
# Streams that answer alike

Two streams are twins if they answer every request alike: with corresponding tokens, or with the same
failure.  What follows for their compilations depends on which tokens count as corresponding.

* Tokens may stand in different places.  Then everything is the same but for the recorded lines, and each
  error is found at the same token (`compile_relocated`).
* Names may be spelled in different cases.  Then everything is the same, but for the text that is quoted
  in an error at such a name (`compile_respelled`).

## Strategy

Both come from one coupling, in which the cursors stand before streams that are twins (`Coupling.twins`).
What corresponds is kept together with the number of the request that it answers (`Twins.numbered`), so
that errors found alike are found at the same token and not only at similar ones.
-/

namespace FrontEnd

/-! ## Twins -/

namespace TokenStream

variable {related : Token → Token → Prop} {stream stream' : TokenStream}

/-- How two answers correspond: they supply corresponding tokens, or fail in the same way. -/
inductive Matched (related : Token → Token → Prop) :
    Except ReadError Token → Except ReadError Token → Prop
  | supplied {token token' : Token} : related token token' → Matched related (.ok token) (.ok token')
  | failed (failure : ReadError) : Matched related (.error failure) (.error failure)

/-- Two streams whose answers correspond, one by one. -/
structure Twins (related : Token → Token → Prop) (stream stream' : TokenStream) : Prop where
  events : List.Forall₂ (Matched related) stream.events stream'.events
  final : Matched related stream.finalEvent stream'.finalEvent

/-- Two tokens that two streams answer the same request with. -/
def AnsweredTogether (stream stream' : TokenStream) (token token' : Token) : Prop :=
  ∃ index, stream.answer index = .ok token ∧ stream'.answer index = .ok token'

namespace Twins

/-- The next answers correspond, and what is left are twins. -/
theorem next (h : Twins related stream stream') :
    Matched related stream.next.1 stream'.next.1 ∧ Twins related stream.next.2 stream'.next.2 := by
  obtain ⟨events, ending⟩ := stream
  obtain ⟨events', ending'⟩ := stream'
  obtain ⟨hevents, hfinal⟩ := h
  cases hevents with
  | nil => exact ⟨hfinal, .nil, hfinal⟩
  | cons hfirst hrest => exact ⟨hfirst, hrest, hfinal⟩

/-- Twins supply corresponding tokens in answer to the same requests. -/
theorem numbered (h : Twins related stream stream') :
    Twins (fun token token' => related token token' ∧ stream.AnsweredTogether stream' token token')
      stream stream' := by
  have hnumber {event event' : Except ReadError Token} (index : Nat) (hmatched : Matched related event event')
      (hevent : stream.answer index = event) (hevent' : stream'.answer index = event') :
      Matched (fun token token' => related token token' ∧
        stream.AnsweredTogether stream' token token') event event' := by
    cases hmatched with
    | supplied htokens => exact .supplied ⟨htokens, index, hevent, hevent'⟩
    | failed failure => exact .failed failure
  have hlength := h.events.length_eq
  refine ⟨List.forall₂_iff_get.mpr ⟨hlength, fun index hlt hlt' => ?_⟩, ?_⟩
  · refine hnumber index ((List.forall₂_iff_get.mp h.events).2 index hlt hlt') ?_ ?_
    · simp [answer, List.getElem?_eq_getElem hlt]
    · simp [answer, List.getElem?_eq_getElem hlt']
  · exact hnumber stream.events.length h.final (by simp [answer]) (by simp [answer, hlength])

/-- Streams whose answers look the same are twins, if tokens correspond that look the same. -/
theorem of_map_eq {β : Type} (view : Token → β)
    (hview : ∀ token token', view token = view token' → related token token')
    (h : (stream.finalEvent :: stream.events).map (Except.map view) =
      (stream'.finalEvent :: stream'.events).map (Except.map view)) :
    Twins related stream stream' := by
  have hmatched (event event' : Except ReadError Token)
      (hsame : event.map view = event'.map view) : Matched related event event' := by
    cases event <;> cases event' <;>
      simp only [Except.map, Except.error.injEq, Except.ok.injEq, reduceCtorEq] at hsame
    · exact hsame ▸ .failed _
    · exact .supplied (hview _ _ hsame)
  rw [← List.forall₂_eq_eq_eq, List.forall₂_map_left_iff, List.forall₂_map_right_iff] at h
  obtain ⟨hfinal, hevents⟩ := List.forall₂_cons.mp h
  exact ⟨hevents.imp hmatched, hmatched _ _ hfinal⟩

end Twins

end TokenStream

/-! ## Two compilations of twins -/

open TokenStream (Matched Twins)

/-- What all compilations need of tokens that correspond: they differ neither in kind nor in value, and
their texts at most in case.  Lines are the same where they are to be aligned. -/
structure Token.Interchangeable (aligned : Prop) (related : Token → Token → Prop) : Prop where
  kind_eq {token token' : Token} : related token token' → token.kind = token'.kind
  value_eq {token token' : Token} : related token token' → token.value = token'.value
  lower_eq {token token' : Token} : related token token' →
    Text.lower token.text = Text.lower token'.text
  line_eq {token token' : Token} : aligned → related token token' → token.line = token'.line

/-- Two cursors that have moved equally far, stand on corresponding tokens and before twins. -/
structure Cursor.Twins (related : Token → Token → Prop) (cursor cursor' : Cursor) : Prop where
  stream : TokenStream.Twins related cursor.stream cursor'.stream
  current : related cursor.current cursor'.current
  lookahead : Option.Rel related cursor.lookahead cursor'.lookahead
  position : cursor.position = cursor'.position

namespace Cursor.Twins

variable {related : Token → Token → Prop} {cursor cursor' next : Cursor}

theorem remaining_eq (h : Cursor.Twins related cursor cursor') :
    cursor.remaining = cursor'.remaining := by
  have hevents := h.stream.events.length_eq
  have hlookahead := h.lookahead
  unfold Cursor.remaining
  cases hlook : cursor.lookahead <;> cases hlook' : cursor'.lookahead <;>
    simp_all

/-- A move is answered alike, and leaves twins behind. -/
theorem advance (hrelated : ∀ {token token' : Token}, related token token' → token.kind = token'.kind)
    (h : Cursor.Twins related cursor cursor') :
    Matched related cursor.advance.1 cursor'.advance.1 ∧
      Cursor.Twins related cursor.advance.2 cursor'.advance.2 := by
  obtain ⟨stream, current, lookahead, position⟩ := cursor
  obtain ⟨stream', current', lookahead', position'⟩ := cursor'
  obtain ⟨hstream, hcurrent, hlookahead, hposition⟩ := h
  dsimp only at hstream hcurrent hlookahead hposition
  have hend : current.isEnd = current'.isEnd := by simp [Token.isEnd, hrelated hcurrent]
  obtain ⟨hanswers, hrest⟩ := hstream.next
  unfold Cursor.advance
  dsimp only
  rw [hend]
  split
  · exact ⟨.supplied hcurrent, hstream, hcurrent, hlookahead, hposition⟩
  · cases hlookahead with
    | some hready => exact ⟨.supplied hready, hstream, hready, .none, congrArg (· + 1) hposition⟩
    | none =>
        rcases hnext : stream.next with ⟨answer, rest⟩
        rcases hnext' : stream'.next with ⟨answer', rest'⟩
        rw [hnext, hnext'] at hanswers hrest
        cases hanswers with
        | supplied htokens =>
            exact ⟨.supplied htokens, hrest, htokens, .none, congrArg (· + 1) hposition⟩
        | failed failure => exact ⟨.failed failure, hrest, hcurrent, .none, hposition⟩

/-- A look is answered alike, and leaves twins behind. -/
theorem peek (hrelated : ∀ {token token' : Token}, related token token' → token.kind = token'.kind)
    (h : Cursor.Twins related cursor cursor') :
    Matched related cursor.peek.1 cursor'.peek.1 ∧
      Cursor.Twins related cursor.peek.2 cursor'.peek.2 := by
  obtain ⟨stream, current, lookahead, position⟩ := cursor
  obtain ⟨stream', current', lookahead', position'⟩ := cursor'
  obtain ⟨hstream, hcurrent, hlookahead, hposition⟩ := h
  dsimp only at hstream hcurrent hlookahead hposition
  have hend : current.isEnd = current'.isEnd := by simp [Token.isEnd, hrelated hcurrent]
  obtain ⟨hanswers, hrest⟩ := hstream.next
  unfold Cursor.peek
  dsimp only
  cases hlookahead with
  | some hready => exact ⟨.supplied hready, hstream, hcurrent, .some hready, hposition⟩
  | none =>
      dsimp only
      rw [hend]
      split
      · exact ⟨.supplied hcurrent, hstream, hcurrent, .some hcurrent, hposition⟩
      · rcases hnext : stream.next with ⟨answer, rest⟩
        rcases hnext' : stream'.next with ⟨answer', rest'⟩
        rw [hnext, hnext'] at hanswers hrest
        cases hanswers with
        | supplied htokens =>
            exact ⟨.supplied htokens, hrest, hcurrent, .some htokens, hposition⟩
        | failed failure => exact ⟨.failed failure, hrest, hcurrent, .none, hposition⟩

end Cursor.Twins

/-- The coupling of compilations whose cursors are twins. -/
def Coupling.twins {aligned : Prop} {related : Token → Token → Prop}
    (h : Token.Interchangeable aligned related) : Coupling where
  token := related
  cursor := Cursor.Twins related
  aligned := aligned
  shorter := False
  kind_eq := h.kind_eq
  value_eq := h.value_eq
  lower_eq := h.lower_eq
  line_eq := h.line_eq
  token_refl := False.elim
  current hcursors := hcursors.current
  position_eq hcursors := hcursors.position
  remaining_le hcursors := Nat.le_of_eq hcursors.remaining_eq
  remaining_eq _ hcursors := hcursors.remaining_eq
  advance_ok {first second next token} hcursors hadvance := by
    have hboth := hcursors.advance h.kind_eq
    rcases hadvance' : second.advance with ⟨answer', next'⟩
    rw [hadvance, hadvance'] at hboth
    obtain ⟨hanswers, hnext⟩ := hboth
    cases hanswers with
    | supplied htokens => exact .inr ⟨_, next', rfl, hnext⟩
  advance_error {first second next failure} hcursors hadvance := by
    have hboth := hcursors.advance h.kind_eq
    rcases hadvance' : second.advance with ⟨answer', next'⟩
    rw [hadvance, hadvance'] at hboth
    cases hboth.1 with
    | failed => exact .inr ⟨next', rfl⟩
  peek_ok {first second next seen} hcursors _ hpeek := by
    have hboth := hcursors.peek h.kind_eq
    rcases hpeek' : second.peek with ⟨answer', next'⟩
    rw [hpeek, hpeek'] at hboth
    obtain ⟨hanswers, hnext⟩ := hboth
    cases hanswers with
    | supplied htokens => exact ⟨_, next', rfl, htokens, hnext⟩
  peek_error {first second next failure} hcursors _ hpeek := by
    have hboth := hcursors.peek h.kind_eq
    rcases hpeek' : second.peek with ⟨answer', next'⟩
    rw [hpeek, hpeek'] at hboth
    cases hboth.1 with
    | failed => exact ⟨next', rfl⟩

section

variable {aligned : Prop} {related : Token → Token → Prop} {stream stream' : TokenStream}

/-- Twins are begun alike. -/
theorem Coupling.starts_twins (h : Token.Interchangeable aligned related)
    (htwins : Twins related stream stream') : (Coupling.twins h).Starts stream stream' := by
  obtain ⟨hanswers, hrest⟩ := htwins.next
  unfold Coupling.Starts Cursor.start
  rcases hnext : stream.next with ⟨answer, rest⟩
  rcases hnext' : stream'.next with ⟨answer', rest'⟩
  rw [hnext, hnext'] at hanswers hrest
  cases hanswers with
  | supplied htokens => exact ⟨hrest, htokens, .none, rfl⟩
  | failed failure => rfl

/-- Compilations of twins end alike. -/
theorem Coupling.compiled_of_twins (h : Token.Interchangeable aligned related)
    (htwins : Twins related stream stream') :
    (Coupling.twins h).Compiled (compile stream) (compile stream') :=
  Coupling.compiled_of_starts id (Coupling.starts_twins h htwins)

/-- What is true of corresponding tokens is true of those that answer the same request. -/
theorem Token.Interchangeable.numbered (h : Token.Interchangeable aligned related) :
    Token.Interchangeable aligned fun token token' =>
      related token token' ∧ stream.AnsweredTogether stream' token token' where
  kind_eq htokens := h.kind_eq htokens.1
  value_eq htokens := h.value_eq htokens.1
  lower_eq htokens := h.lower_eq htokens.1
  line_eq haligned htokens := h.line_eq haligned htokens.1

end

/-! ## Tokens in other places -/

/-- Whether two tokens differ at most in their places. -/
structure Token.Relocated (token token' : Token) : Prop where
  kind : token.kind = token'.kind
  text : token.text = token'.text
  value : token.value = token'.value

theorem Token.Relocated.interchangeable : Token.Interchangeable False Token.Relocated where
  kind_eq h := h.kind
  value_eq h := h.value
  lower_eq h := congrArg Text.lower h.text
  line_eq h := h.elim

/-- Two errors of the same kind that quote the same text, each found at the token with which its stream
answers the same request. -/
def Diagnostic.FoundTogether (stream stream' : TokenStream) (first second : Diagnostic) : Prop :=
  first.kind = second.kind ∧ first.text = second.text ∧
    ∃ token token', stream.AnsweredTogether stream' token token' ∧
      first = Diagnostic.atToken token first.kind ∧ second = Diagnostic.atToken token' second.kind

/-- A compilation does not depend on where the tokens stand.  If two streams answer every request with
tokens that differ at most in their places, and one of them is compiled to its end, then so is the other:
the errors are the same, in the same order and found at the same tokens, and so are all entries, scopes and
trees but for the lines that they record. -/
theorem compile_relocated {stream stream' : TokenStream} {unit : CompilationUnit}
    (htwins : Twins Token.Relocated stream stream') (h : compile stream = .ok unit) :
    ∃ unit', compile stream' = .ok unit' ∧ unit'.table.unlined = unit.table.unlined ∧
      unit'.program = unit.program ∧
        List.Forall₂ (Diagnostic.FoundTogether stream stream') unit.diagnostics unit'.diagnostics := by
  have hcompiled := Coupling.compiled_of_twins Token.Relocated.interchangeable.numbered htwins.numbered
  rw [h] at hcompiled
  generalize compile stream' = outcome' at hcompiled ⊢
  cases hcompiled with
  | finished hunits =>
      refine ⟨_, rfl, hunits.table.unlined_eq.symm, hunits.program.symm, hunits.diagnostics.imp ?_⟩
      rintro _ _ ⟨token, token', kind, ⟨htokens, htogether⟩, rfl, rfl⟩
      exact ⟨rfl, htokens.text, token, token', htogether, rfl, rfl⟩

/-- A program with an error, and its tokens on other lines: the error is found at the same name. -/
theorem compile_relocated_otherLines :
    ∃ unit unit', compileText "int a;\nint b;\na = b + c;" = .ok unit ∧
      compileText "int a; int\n   b; a = b\n + c\n;" = .ok unit' ∧
        unit.diagnostics.map Diagnostic.location = [⟨3, 9⟩] ∧
          unit'.diagnostics.map Diagnostic.location = [⟨3, 4⟩] ∧
            unit'.table.unlined = unit.table.unlined ∧
              List.Forall₂
                (Diagnostic.FoundTogether (Scanner.stream (.ofText "int a;\nint b;\na = b + c;"))
                  (Scanner.stream (.ofText "int a; int\n   b; a = b\n + c\n;")))
                unit.diagnostics unit'.diagnostics := by
  have htwins : Twins Token.Relocated (Scanner.stream (.ofText "int a;\nint b;\na = b + c;"))
      (Scanner.stream (.ofText "int a; int\n   b; a = b\n + c\n;")) := by
    refine .of_map_eq (fun token => (token.kind, token.text, token.value)) (fun _ _ h => ?_)
      (by decide +kernel)
    simp only [Prod.mk.injEq] at h
    exact ⟨h.1, h.2.1, h.2.2⟩
  have hfirst : ∃ unit, compileText "int a;\nint b;\na = b + c;" = .ok unit ∧
      unit.diagnostics.map Diagnostic.location = [⟨3, 9⟩] :=
    exists_compiled (by decide +kernel)
  have hsecond : ∃ unit, compileText "int a; int\n   b; a = b\n + c\n;" = .ok unit ∧
      unit.diagnostics.map Diagnostic.location = [⟨3, 4⟩] :=
    exists_compiled (by decide +kernel)
  obtain ⟨unit, hunit, hlocations⟩ := hfirst
  obtain ⟨other, hother, hlocations'⟩ := hsecond
  obtain ⟨unit', hunit', htable, -, hdiagnostics⟩ := compile_relocated htwins hunit
  obtain rfl : other = unit' := Except.ok.inj (hother.symm.trans hunit')
  exact ⟨unit, other, hunit, hother, hlocations, hlocations', htable, hdiagnostics⟩

/-! ## Names in other cases -/

/-- Whether two tokens differ at most in the case of their texts, and only if they are names. -/
structure Token.Respelled (token token' : Token) : Prop where
  kind : token.kind = token'.kind
  location : token.location = token'.location
  value : token.value = token'.value
  lower : Text.lower token.text = Text.lower token'.text
  text : token.kind ≠ .identifier → token.text = token'.text

theorem Token.Respelled.interchangeable : Token.Interchangeable True Token.Respelled where
  kind_eq h := h.kind
  value_eq h := h.value
  lower_eq h := h.lower
  line_eq _ h := congrArg Location.line h.location

/-- Two errors of the same kind in the same place, which quote the same text unless they are found at names
with which the two streams answer the same request. -/
def Diagnostic.FoundAlike (stream stream' : TokenStream) (first second : Diagnostic) : Prop :=
  first.kind = second.kind ∧ first.location = second.location ∧
    (first.text = second.text ∨
      ∃ token token', stream.AnsweredTogether stream' token token' ∧ token.kind = .identifier ∧
        first = Diagnostic.atToken token first.kind ∧ second = Diagnostic.atToken token' second.kind)

/-- How two compilations end that differ at most in the spelling of names: with the same tables, trees and
programs, and with errors that are found alike, or interrupted for the same cause. -/
inductive CompiledAlike (stream stream' : TokenStream) :
    Except Interruption CompilationUnit → Except Interruption CompilationUnit → Prop
  | finished {unit unit' : CompilationUnit} : unit.table = unit'.table → unit.program = unit'.program →
      unit.lineCount = unit'.lineCount →
      List.Forall₂ (Diagnostic.FoundAlike stream stream') unit.diagnostics unit'.diagnostics →
      CompiledAlike stream stream' (.ok unit) (.ok unit')
  | interrupted (cause : Interruption) : CompiledAlike stream stream' (.error cause) (.error cause)

/-- A compilation does not depend on the case in which names are written.  Streams that differ in nothing
else are compiled with the same result, but for the texts that are quoted in errors at such names. -/
theorem compile_respelled {stream stream' : TokenStream}
    (htwins : Twins Token.Respelled stream stream') :
    CompiledAlike stream stream' (compile stream) (compile stream') := by
  have hcompiled := Coupling.compiled_of_twins Token.Respelled.interchangeable.numbered htwins.numbered
  generalize compile stream = outcome at hcompiled ⊢
  generalize compile stream' = outcome' at hcompiled ⊢
  cases hcompiled with
  | interrupted hcauses => exact hcauses.eq trivial ▸ .interrupted _
  | finished hunits =>
      refine .finished (hunits.table.eq trivial) hunits.program (hunits.lineCount trivial)
        (hunits.diagnostics.imp ?_)
      rintro _ _ ⟨token, token', kind, ⟨htokens, htogether⟩, rfl, rfl⟩
      refine ⟨rfl, htokens.location, ?_⟩
      by_cases hname : token.kind = .identifier
      · exact .inr ⟨token, token', htogether, hname, rfl, rfl⟩
      · exact .inl (htokens.text hname)

/-- A program whose names are written in several cases, with an error at one of them: only the text that is
quoted in the error differs. -/
theorem compile_respelled_mixedCases :
    ∃ unit unit', compileText "int A; int F(int x) \x7b return X + c; \x7d" = .ok unit ∧
      compileText "int a; int f(int X) \x7b return x + C; \x7d" = .ok unit' ∧
        unit.diagnostics.map Diagnostic.text = ["c"] ∧
          unit'.diagnostics.map Diagnostic.text = ["C"] ∧ unit.table = unit'.table := by
  have htwins : Twins Token.Respelled
      (Scanner.stream (.ofText "int A; int F(int x) \x7b return X + c; \x7d"))
      (Scanner.stream (.ofText "int a; int f(int X) \x7b return x + C; \x7d")) := by
    refine .of_map_eq (fun token => ({ token with text := Text.lower token.text },
      if token.kind = .identifier then "" else token.text)) (fun token token' h => ?_)
      (by decide +kernel)
    simp only [Prod.mk.injEq, Token.mk.injEq] at h
    obtain ⟨⟨hkind, hlower, hlocation, hvalue⟩, htext⟩ := h
    refine ⟨hkind, hlocation, hvalue, hlower, fun hname => ?_⟩
    rwa [if_neg hname, if_neg (hkind ▸ hname)] at htext
  have hfirst : ∃ unit, compileText "int A; int F(int x) \x7b return X + c; \x7d" = .ok unit ∧
      unit.diagnostics.map Diagnostic.text = ["c"] :=
    exists_compiled (by decide +kernel)
  have hsecond : ∃ unit, compileText "int a; int f(int X) \x7b return x + C; \x7d" = .ok unit ∧
      unit.diagnostics.map Diagnostic.text = ["C"] :=
    exists_compiled (by decide +kernel)
  obtain ⟨unit, hunit, htexts⟩ := hfirst
  obtain ⟨unit', hunit', htexts'⟩ := hsecond
  have halike := compile_respelled htwins
  rw [← compileText, ← compileText, hunit, hunit'] at halike
  cases halike with
  | finished htable => exact ⟨unit, unit', hunit, hunit', htexts, htexts', htable⟩

end FrontEnd
