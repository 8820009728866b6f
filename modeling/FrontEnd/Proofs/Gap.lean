import FrontEnd.Proofs.Quoting
import FrontEnd.Token.Scanner
import Mathlib.Data.List.Infix
import Mathlib.Tactic.Common

/-!
# What stands between tokens

A text is scanned as one piece, without carriage returns and with a line feed at its end
(`Text.normalized`).  Between its tokens stand gaps.  A gap is made of blanks, comments and lines that begin
with a hash sign; a comment that is not closed goes on to the end of the text (`Gap`).

Where a gap ends is a matter of what follows it: a token, or the end of the text (`Stops`).  Then there is only
one way to cut the text (`Gap.unique`), since each part of a gap is known by its first characters and ends at
the first place where it can (`Skipped.unique`).
-/

namespace FrontEnd

namespace Text

/-- A text as it is scanned: with a line feed at its end, unless it is empty, and without carriage returns. -/
def normalized (text : List Char) : List Char :=
  (if text.getLast?.all (· == '\n') then text else text ++ ['\n']).filter (· != '\r')

/-- The characters of a text after its last line feed, the last one first. -/
def lastLine (text : List Char) : List Char :=
  text.reverse.takeWhile (· != '\n')

/-- Whether a comment is closed somewhere in a text. -/
def Closes (text : List Char) : Prop := ['*', '/'] <:+: text

instance (text : List Char) : Decidable (Closes text) :=
  inferInstanceAs (Decidable (['*', '/'] <:+: text))

theorem not_closes_nil : ¬ Closes [] := by
  rintro ⟨before, after, h⟩
  simp at h

/-- A comment is closed where it is open at a star and the next character is a slash. -/
theorem closes_cons {c : Char} {text : List Char} :
    Closes (c :: text) ↔ (c = '*' ∧ text.head? = some '/') ∨ Closes text := by
  have hprefix : ['*', '/'] <+: c :: text ↔ c = '*' ∧ text.head? = some '/' := by
    cases text <;> simp [List.cons_prefix_cons, eq_comm]
  rw [Closes, List.infix_cons_iff, hprefix]
  rfl

end Text

/-- The place of the first character after a text. -/
def Location.after (text : List Char) : Location :=
  ⟨text.count '\n' + 1, (Text.lastLine text).length + 1⟩

open Text

/-! ## Gaps -/

/-- The parts of a gap that come to an end, each in a text after what has been passed. -/
inductive Skipped (passed : List Char) : List Char → Prop
  | blank {c : Char} : isBlank c = true → Skipped passed [c]
  | lineComment {body : List Char} : '\n' ∉ body → Skipped passed ('/' :: '/' :: body ++ ['\n'])
  | blockComment {body : List Char} : ¬ Closes body → Skipped passed ('/' :: '*' :: body ++ ['*', '/'])
  | directive {body : List Char} : (lastLine passed).all isBlank = true → '\n' ∉ body →
      Skipped passed ('#' :: body ++ ['\n'])

/-- The gaps between what has been passed of a text and the rest of it.  Only the last gap of a text can be an
unclosed comment. -/
inductive Gap : (passed gap rest : List Char) → Prop
  | nil (passed rest : List Char) : Gap passed [] rest
  | unclosed {passed body : List Char} : ¬ Closes body → Gap passed ('/' :: '*' :: body) []
  | cons {passed part gap rest : List Char} : Skipped passed part → Gap (passed ++ part) gap rest →
      Gap passed (part ++ gap) rest

/-- Whether no gap begins with the rest of a text. -/
def Stops (passed : List Char) : List Char → Prop
  | [] => True
  | c :: rest =>
    isBlank c = false ∧ (c = '/' → rest.head? ≠ some '/' ∧ rest.head? ≠ some '*') ∧
      (c = '#' → (lastLine passed).all isBlank = false)

namespace Skipped

variable {passed part part' rest rest' : List Char}

/-- Two texts that both reach up to the first end of a comment in a third are the same. -/
private theorem eq_of_append_close {body body' : List Char} (rest rest' : List Char) (h : ¬ Closes body)
    (h' : ¬ Closes body') (heq : body ++ '*' :: '/' :: rest = body' ++ '*' :: '/' :: rest') : body = body' := by
  induction body generalizing body' with
  | nil =>
      rcases body' with _ | ⟨c, _ | ⟨c', tail⟩⟩
      · rfl
      · simp at heq
      · -- the longer text would hold the end of the comment
        obtain ⟨rfl, rfl, -⟩ : '*' = c ∧ '/' = c' ∧ _ := by simpa using heq
        exact absurd ⟨[], tail, rfl⟩ h'
  | cons c tail ih =>
      cases body' with
      | nil =>
          cases tail with
          | nil => simp at heq
          | cons c' tail =>
              obtain ⟨rfl, rfl, -⟩ : c = '*' ∧ c' = '/' ∧ _ := by simpa using heq
              exact absurd ⟨[], tail, rfl⟩ h
      | cons c' tail' =>
          obtain ⟨rfl, htail⟩ := List.cons.inj heq
          rw [closes_cons, not_or] at h h'
          rw [ih h.2 h'.2 htail]

/-- The part of a gap with which a text begins is known by the text. -/
theorem unique (h : Skipped passed part) (h' : Skipped passed part') (heq : part ++ rest = part' ++ rest') :
    part = part' := by
  cases h with
  | @blank c hblank =>
      cases h' with
      | blank => simpa using (List.cons.inj heq).1
      | lineComment | blockComment | directive =>
          obtain ⟨rfl, -⟩ := List.cons.inj heq
          exact absurd hblank (by decide)
  | @lineComment body hbody =>
      cases h' with
      | blank hblank =>
          obtain ⟨rfl, -⟩ := List.cons.inj heq
          exact absurd hblank (by decide)
      | @lineComment body' hbody' =>
          rw [(Text.append_delimiter_inj hbody hbody' (by simpa using heq)).1]
      | blockComment | directive => simp at heq
  | @blockComment body hbody =>
      cases h' with
      | blank hblank =>
          obtain ⟨rfl, -⟩ := List.cons.inj heq
          exact absurd hblank (by decide)
      | @blockComment body' hbody' =>
          rw [eq_of_append_close rest rest' hbody hbody' (by simpa using heq)]
      | lineComment | directive => simp at heq
  | @directive body hline hbody =>
      cases h' with
      | blank hblank =>
          obtain ⟨rfl, -⟩ := List.cons.inj heq
          exact absurd hblank (by decide)
      | @directive body' _ hbody' =>
          rw [(Text.append_delimiter_inj hbody hbody' (by simpa using heq)).1]
      | lineComment | blockComment => simp at heq

/-- A comment that is not closed is no part of a gap that comes to an end. -/
theorem append_ne_unclosed {body : List Char} (h : Skipped passed part) (hbody : ¬ Closes body) :
    part ++ rest ≠ '/' :: '*' :: body := by
  intro heq
  cases h with
  | blank hblank =>
      obtain ⟨rfl, -⟩ := List.cons.inj heq
      exact absurd hblank (by decide)
  | @blockComment closed =>
      obtain rfl : closed ++ '*' :: '/' :: rest = body := by simpa using heq
      exact hbody ⟨closed, rest, by simp⟩
  | lineComment | directive => simp at heq

/-- Where the rest of a text begins with a part of a gap, the gap has not come to its end. -/
theorem not_stops (h : Skipped passed part) : ¬ Stops passed (part ++ rest) := by
  intro hstops
  cases h with
  | blank h => simp [Stops, h] at hstops
  | lineComment | blockComment => simp [Stops] at hstops
  | directive h => simp [Stops, h] at hstops

end Skipped

namespace Gap

variable {passed gap gap' rest rest' : List Char}

/-- Nothing is left of a gap where it has come to its end. -/
theorem eq_nil_of_stops (h : Gap passed gap rest) (hstops : Stops passed (gap ++ rest)) : gap = [] := by
  cases h with
  | nil => rfl
  | unclosed => simp [Stops] at hstops
  | cons hpart =>
      rw [List.append_assoc] at hstops
      exact absurd hstops hpart.not_stops

/-- A text can be cut in one way only into a gap and a rest with which no gap begins. -/
theorem unique (h : Gap passed gap rest) (hstops : Stops (passed ++ gap) rest) (h' : Gap passed gap' rest')
    (hstops' : Stops (passed ++ gap') rest') (heq : gap ++ rest = gap' ++ rest') : gap = gap' := by
  induction h generalizing gap' with
  | nil passed rest =>
      rw [List.append_nil] at hstops
      rw [h'.eq_nil_of_stops (heq ▸ hstops)]
  | @unclosed passed body hbody =>
      cases h' with
      | nil =>
          obtain rfl : '/' :: '*' :: body = rest' := by simpa using heq
          simp [Stops] at hstops'
      | @unclosed _ body' hbody' => simpa using heq
      | cons hpart hmore =>
          rw [List.append_assoc, List.append_nil] at heq
          exact absurd heq.symm (hpart.append_ne_unclosed hbody)
  | @cons passed part gap rest hpart hgap ih =>
      cases h' with
      | nil =>
          obtain rfl : part ++ (gap ++ rest) = rest' := by simpa using heq
          rw [List.append_nil] at hstops'
          exact absurd hstops' hpart.not_stops
      | unclosed hbody =>
          rw [List.append_assoc, List.append_nil] at heq
          exact absurd heq (hpart.append_ne_unclosed hbody)
      | @cons _ part' more _ hpart' hmore =>
          rw [List.append_assoc, List.append_assoc] at heq
          obtain rfl := hpart.unique hpart' heq
          rw [← List.append_assoc] at hstops hstops'
          rw [ih hstops hmore hstops' (List.append_cancel_left heq)]

end Gap

end FrontEnd
