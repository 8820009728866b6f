import FrontEnd.Proofs.Request
import Mathlib.Algebra.Group.Nat.Even

/-!
# Literals as they are written

Some characters have an escape: a backslash and a letter that stands for them (`Lexeme.mark?`).  In a string and
in a character literal some of these have to be written so, and others may be written either way; all other
characters are written as they are (`Lexeme.forms`).  What is written between quotes in this way is read back as it
was meant, and a string is left open just if no quote on its line is unescaped (`Scanner.next_quoted`).

## Strategy

Along a string, one form of a character is taken after the other (`Lexeme.stringFrom_append`).  A backslash and the
character after it change nothing about which of the quotes behind them are unescaped, nor does any other character
that is no quote (`Lexeme.closes_escape`, `Lexeme.closes_plain`), so that the scanner stops at the first of those.
-/

namespace FrontEnd

namespace Lexeme

variable {c mark : Char} {both form line value written : List Char}

/-! ## Forms of a character -/

/-- The character that stands for the given one after a backslash. -/
def mark? : Char → Option Char
  | '\n' => some 'n'
  | '\t' => some 't'
  | '\r' => some 'r'
  | '\x00' => some '0'
  | '\\' => some '\\'
  | '\'' => some '\''
  | '"' => some '"'
  | _ => none

/-- What may be written for a character: its escape if it has one, and the character itself if it has none or may be
written both ways. -/
def forms (both : List Char) (c : Char) : List (List Char) :=
  match mark? c with
  | none => [[c]]
  | some mark => if c ∈ both then [[c], ['\\', mark]] else [['\\', mark]]

/-- What may be written for a character in a string, where a single quote needs no escape. -/
def stringForms : Char → List (List Char) :=
  forms ['\'']

/-- What may be written for a character in single quotes, where a tab, a null character and a double quote need no
escape. -/
def characterForms : Char → List (List Char) :=
  forms ['\t', '\x00', '"']

/-- Whether a text is written for the characters of a string, one after another. -/
inductive Writes : (written value : List Char) → Prop
  | nil : Writes [] []
  | cons {c : Char} {form written value : List Char} :
      form ∈ stringForms c → Writes written value → Writes (form ++ written) (c :: value)

theorem escape?_of_mark? (h : mark? c = some mark) : escape? mark = some c := by
  unfold mark? at h
  split at h <;> cases h <;> rfl

/-- A mark is a visible character. -/
theorem mark_ne (h : mark? c = some mark) : mark ≠ '\n' ∧ mark ≠ '\r' := by
  unfold mark? at h
  split at h <;> cases h <;> decide

/-- A character that is written as it is has no escape or needs none. -/
theorem forms_cases (h : form ∈ forms both c) :
    (form = [c] ∧ (mark? c = none ∨ c ∈ both)) ∨ ∃ mark, mark? c = some mark ∧ form = ['\\', mark] := by
  unfold forms at h
  split at h
  · next hmark => exact .inl ⟨List.mem_singleton.mp h, .inl hmark⟩
  · next mark hmark =>
      split_ifs at h with hboth
      · rcases List.mem_cons.mp h with hplain | hescape
        · exact .inl ⟨hplain, .inr hboth⟩
        · exact .inr ⟨mark, hmark, List.mem_singleton.mp hescape⟩
      · exact .inr ⟨mark, hmark, List.mem_singleton.mp h⟩

theorem forms_ne_nil (both : List Char) (c : Char) : forms both c ≠ [] := by
  unfold forms
  split
  · simp
  · split_ifs <;> simp

/-- A character that has an escape and may not be written both ways is not written as it is. -/
theorem ne_of_plain {c' : Char} (hplain : mark? c = none ∨ c ∈ both) (hmark : mark? c' ≠ none)
    (hboth : c' ∉ both) : c ≠ c' := by
  rintro rfl
  exact hplain.elim hmark hboth

/-- No form of a character breaks a line or is lost when a line is read, if neither end of a line may be written as
it is. -/
theorem not_mem_form (hfeed : '\n' ∉ both) (hreturn : '\r' ∉ both) (h : form ∈ forms both c) :
    '\n' ∉ form ∧ '\r' ∉ form := by
  rcases forms_cases h with ⟨rfl, hplain⟩ | ⟨mark, hmark, rfl⟩
  · have hnoFeed : c ≠ '\n' := ne_of_plain hplain (by decide) hfeed
    have hnoReturn : c ≠ '\r' := ne_of_plain hplain (by decide) hreturn
    simp [hnoFeed.symm, hnoReturn.symm]
  · obtain ⟨hnoFeed, hnoReturn⟩ := mark_ne hmark
    simp [hnoFeed.symm, hnoReturn.symm]

/-- Every string can be written. -/
theorem exists_writes (value : List Char) : ∃ written, Writes written value := by
  induction value with
  | nil => exact ⟨[], .nil⟩
  | cons c value ih =>
      obtain ⟨written, hwrites⟩ := ih
      obtain ⟨form, hform⟩ := List.exists_mem_of_ne_nil _ (forms_ne_nil _ c)
      exact ⟨form ++ written, .cons hform hwrites⟩

theorem Writes.not_mem (h : Writes written value) : '\n' ∉ written ∧ '\r' ∉ written := by
  induction h with
  | nil => exact ⟨List.not_mem_nil, List.not_mem_nil⟩
  | cons hform _ ih =>
      obtain ⟨hfeed, hreturn⟩ := not_mem_form (by decide) (by decide) hform
      exact ⟨by simp [hfeed, ih.1], by simp [hreturn, ih.2]⟩

/-! ## Reading back -/

/-- What is written for the rest of a string is read back, and the string ends at the quote after it. -/
theorem stringFrom_append (h : Writes written value) (text known rest : List Char) :
    stringFrom text known (written ++ '"' :: rest) =
      ⟨.string, text.reverse ++ (written ++ ['"']), some (.string (String.ofList (known.reverse ++ value)))⟩ := by
  induction h generalizing text known with
  | nil => simp [stringFrom]
  | @cons c form written value hform _ ih =>
      rcases forms_cases hform with ⟨rfl, hplain⟩ | ⟨mark, hmark, rfl⟩
      · have hquote : c ≠ '"' := ne_of_plain hplain (by decide) (by decide)
        have hslash : c ≠ '\\' := ne_of_plain hplain (by decide) (by decide)
        have hfeed : c ≠ '\n' := ne_of_plain hplain (by decide) (by decide)
        have hstep : stringFrom text known (c :: (written ++ '"' :: rest)) =
            stringFrom (c :: text) (c :: known) (written ++ '"' :: rest) := by
          rw [stringFrom.eq_def]
          simp [hslash, hfeed]
        simpa [hstep] using ih (c :: text) (c :: known)
      · have hstep : stringFrom text known ('\\' :: mark :: (written ++ '"' :: rest)) =
            stringFrom (mark :: '\\' :: text) (c :: known) (written ++ '"' :: rest) := by
          simp [stringFrom, (mark_ne hmark).1, escape?_of_mark? hmark]
        simpa [hstep] using ih (mark :: '\\' :: text) (c :: known)

theorem string_append (h : Writes written value) (rest : List Char) :
    string (written ++ '"' :: rest) = ⟨.string, '"' :: (written ++ ['"']), some (.string (String.ofList value))⟩ :=
  stringFrom_append h ['"'] [] rest

theorem character_append (h : form ∈ characterForms c) (rest : List Char) :
    character (form ++ '\'' :: rest) = ⟨.character, '\'' :: (form ++ ['\'']), some (.character c)⟩ := by
  rcases forms_cases h with ⟨rfl, hplain⟩ | ⟨mark, hmark, rfl⟩
  · have hquote : c ≠ '\'' := ne_of_plain hplain (by decide) (by decide)
    have hslash : c ≠ '\\' := ne_of_plain hplain (by decide) (by decide)
    have hfeed : c ≠ '\n' := ne_of_plain hplain (by decide) (by decide)
    simp [character, closeCharacter, hquote, hslash, hfeed]
  · simp [character, closeCharacter, escape?_of_mark? hmark]

/-! ## Unescaped quotes -/

/-- How many backslashes there are at the end of a text. -/
def backslashes (text : List Char) : Nat :=
  (text.reverse.takeWhile (· == '\\')).length

/-- Whether what comes after a text is not escaped, since every backslash at the end of the text belongs to a pair. -/
def Unescaped (text : List Char) : Prop :=
  Even (backslashes text)

/-- Whether there is an unescaped quote on a line. -/
def Closes (line : List Char) : Prop :=
  ∃ before after, line = before ++ '"' :: after ∧ Unescaped before

/-- The first character of a text counts only if it is a backslash and nothing else follows it. -/
theorem backslashes_cons (c : Char) (text : List Char) :
    backslashes (c :: text) =
      if c == '\\' && text.all (· == '\\') then backslashes text + 1 else backslashes text := by
  have htake (text : List Char) : ((text ++ [c]).takeWhile (· == '\\')).length =
      if c == '\\' && text.all (· == '\\') then (text.takeWhile (· == '\\')).length + 1
      else (text.takeWhile (· == '\\')).length := by
    induction text with
    | nil => by_cases hslash : c = '\\' <;> simp [hslash]
    | cons first text ih =>
        by_cases hfirst : first = '\\'
        · simp only [hfirst, List.cons_append, List.takeWhile_cons, beq_self_eq_true, if_true, List.length_cons, ih,
            List.all_cons, Bool.true_and]
          split <;> rfl
        · simp [hfirst]
  simpa [backslashes] using htake text.reverse

theorem unescaped_plain (hslash : c ≠ '\\') (text : List Char) : Unescaped (c :: text) ↔ Unescaped text := by
  simp [Unescaped, backslashes_cons, hslash]

theorem unescaped_escape (c : Char) (text : List Char) : Unescaped ('\\' :: c :: text) ↔ Unescaped text := by
  simp only [Unescaped, backslashes_cons, beq_self_eq_true, Bool.true_and, List.all_cons]
  split
  · exact Nat.even_add_one.trans (by rw [Nat.even_add_one, not_not])
  · rfl

theorem closes_quote (line : List Char) : Closes ('"' :: line) :=
  ⟨[], line, rfl, Even.zero⟩

theorem not_closes_nil : ¬Closes [] := by
  rintro ⟨before, after, hline, -⟩
  simp at hline

theorem closes_plain (hquote : c ≠ '"') (hslash : c ≠ '\\') (line : List Char) :
    Closes (c :: line) ↔ Closes line := by
  constructor
  · rintro ⟨_ | ⟨first, before⟩, after, hline, hunescaped⟩
    · exact absurd (List.cons.inj hline).1 hquote
    · obtain ⟨rfl, rfl⟩ := List.cons.inj hline
      exact ⟨before, after, rfl, (unescaped_plain hslash before).mp hunescaped⟩
  · rintro ⟨before, after, rfl, hunescaped⟩
    exact ⟨c :: before, after, rfl, (unescaped_plain hslash before).mpr hunescaped⟩

theorem closes_escape (c : Char) (line : List Char) : Closes ('\\' :: c :: line) ↔ Closes line := by
  constructor
  · rintro ⟨_ | ⟨first, _ | ⟨second, before⟩⟩, after, hline, hunescaped⟩
    · simp at hline
    · -- the quote is the escaped character
      have hslash : '\\' = first := (List.cons.inj hline).1
      simp [← hslash, Unescaped, backslashes] at hunescaped
    · obtain ⟨hslash, hline⟩ := List.cons.inj hline
      obtain ⟨rfl, rfl⟩ := List.cons.inj hline
      exact ⟨before, after, rfl, (unescaped_escape c before).mp (hslash ▸ hunescaped)⟩
  · rintro ⟨before, after, rfl, hunescaped⟩
    exact ⟨'\\' :: c :: before, after, rfl, (unescaped_escape c before).mpr hunescaped⟩

theorem not_closes_backslash : ¬Closes ['\\'] := by
  rintro ⟨_ | ⟨first, before⟩, after, hline, -⟩
  · simp at hline
  · simp at hline

/-- A string is closed just if there is an unescaped quote on the rest of its line, and otherwise is an error. -/
theorem stringFrom_cases (text known : List Char) (h : '\n' ∉ line) :
    (Closes line ∧ (stringFrom text known line).kind = .string) ∨
      ¬Closes line ∧ (stringFrom text known line).kind = .error ∧
        (stringFrom text known line).value = some (.error .unexpectedEnd) := by
  fun_induction stringFrom text known line with
  | case1 => exact .inl ⟨closes_quote _, rfl⟩
  | case2 => simp at h
  | case3 text known escaped rest hescaped ih =>
      rw [closes_escape]
      exact ih (by simp_all)
  | case4 => simp at h
  | case5 text known c rest hquote hescape hfeed ih =>
      have hrest : '\n' ∉ rest := List.not_mem_of_not_mem_cons h
      by_cases hslash : c = '\\'
      · -- the backslash is the last character
        subst hslash
        rcases rest with _ | ⟨escaped, rest⟩
        · exact .inr ⟨not_closes_backslash, rfl, rfl⟩
        · exact absurd rfl (hescape escaped rest rfl)
      · rw [closes_plain hquote hslash]
        exact ih hrest
  | case6 => exact .inr ⟨not_closes_nil, rfl, rfl⟩

end Lexeme

/-! ## The answer -/

namespace Scanner

open Lexeme (Writes stringForms characterForms Closes)

variable {place : Scanner}

/-- No blank, comment or line of directives begins with a quote. -/
theorem skip_quote {quote : Char} {line : List Char} (hquote : quote = '\'' ∨ quote = '"')
    (hafter : place.after = quote :: line) : place.skip = (.ok (), place) := by
  rcases hquote with rfl | rfl
  all_goals exact skip_eq_self hafter (by decide) (by decide) (by decide)

theorem first?_string {line : List Char} (hafter : place.after = '"' :: line) :
    Lexeme.first? place.after = some (Lexeme.string line) := by
  simp [hafter, Lexeme.first?, Lexeme.startsWord]

theorem first?_character {line : List Char} (hafter : place.after = '\'' :: line) :
    Lexeme.first? place.after = some (Lexeme.character line) := by
  simp [hafter, Lexeme.first?, Lexeme.startsWord]

/-- **What is written for a string or a character is read back**, wherever it stands and whatever follows it, as one
token of this text; it can stand on a line, since it has no end of a line in it.  And a string is left open just if
no quote on the rest of its line is unescaped. -/
theorem next_quoted (place : Scanner) :
    (∀ value : List Char, (∃ written, Writes written value) ∧
      ∀ written rest, Writes written value → place.after = '"' :: (written ++ '"' :: (rest ++ ['\n'])) →
        ('\n' ∉ written ∧ '\r' ∉ written) ∧
          ∃ token, place.Answers ('"' :: (written ++ ['"'])) (rest ++ ['\n']) token ∧ token.kind = .string ∧
            token.text = String.ofList ('"' :: (written ++ ['"'])) ∧
              token.value = some (.string (String.ofList value))) ∧
    (∀ c : Char, ∀ form ∈ characterForms c, ∀ rest, place.after = '\'' :: (form ++ '\'' :: (rest ++ ['\n'])) →
      ('\n' ∉ form ∧ '\r' ∉ form) ∧
        ∃ token, place.Answers ('\'' :: (form ++ ['\''])) (rest ++ ['\n']) token ∧ token.kind = .character ∧
          token.text = String.ofList ('\'' :: (form ++ ['\''])) ∧ token.value = some (.character c)) ∧
    ∀ line, '\n' ∉ line → place.after = '"' :: (line ++ ['\n']) →
      ∃ token, place.next.1 = .ok token ∧ (Closes line ↔ token.kind = .string) ∧
        (¬Closes line ↔ token.kind = .error ∧ token.value = some (.error .unexpectedEnd)) := by
  refine ⟨fun value => ⟨Lexeme.exists_writes value, fun written rest hwrites hafter => ⟨hwrites.not_mem, ?_⟩⟩,
    fun c form hform rest hafter => ⟨Lexeme.not_mem_form (by decide) (by decide) hform, ?_⟩,
    fun line hline hafter => ?_⟩
  · have hfirst := (first?_string hafter).trans (congrArg some (Lexeme.string_append hwrites _))
    exact ⟨_, answers_of_first? (skip_quote (.inr rfl) hafter) hfirst (by simp [hafter]) (by simp) rfl, rfl, rfl, rfl⟩
  · have hfirst := (first?_character hafter).trans (congrArg some (Lexeme.character_append hform _))
    exact ⟨_, answers_of_first? (skip_quote (.inl rfl) hafter) hfirst (by simp [hafter]) (by simp) rfl, rfl, rfl, rfl⟩
  · have hstring : Lexeme.string (line ++ ['\n']) = Lexeme.string line :=
      Lexeme.stringFrom_append_lineFeed _ _ _ hline
    have hlength : (Lexeme.string line).text.length < place.after.length := by
      have hprefix := (Lexeme.prefix_stringFrom ['"'] [] line).1.length_le
      simpa [hafter, Lexeme.string] using Nat.lt_succ_of_le hprefix
    rw [next_of_first? (skip_quote (.inr rfl) hafter) (first?_string hafter), hstring, take_of_length hlength]
    refine ⟨_, rfl, ?_⟩
    rcases Lexeme.stringFrom_cases ['"'] [] hline with ⟨hcloses, hkind⟩ | ⟨hopen, hkind, hvalue⟩
    · simp [hcloses, Lexeme.toToken, Lexeme.string, hkind]
    · simp [hopen, Lexeme.toToken, Lexeme.string, hkind, hvalue]

/-- A single quote may be written both ways in a string, a double quote in single quotes, and a string whose last
quote follows a backslash is left open. -/
theorem next_quoted_escapes :
    let place (line : String) : Scanner := { feed := ⟨[], none⟩, lineNumber := 1, after := line.toList }
    Writes "'\\'\\n".toList "''\n".toList ∧
      (place "\"'\\'\\n\";\n").after = '"' :: ("'\\'\\n".toList ++ '"' :: ([';'] ++ ['\n'])) ∧
      (∃ token, (place "\"'\\'\\n\";\n").Answers "\"'\\'\\n\"".toList ";\n".toList token ∧ token.kind = .string ∧
        token.text = "\"'\\'\\n\"" ∧ token.value = some (.string "''\n")) ∧
      ['"'] ∈ characterForms '"' ∧
      (place "'\"';\n").after = '\'' :: (['"'] ++ '\'' :: ([';'] ++ ['\n'])) ∧
      (∃ token, (place "'\"';\n").Answers "'\"'".toList ";\n".toList token ∧ token.kind = .character ∧
        token.text = "'\"'" ∧ token.value = some (.character '"')) ∧
      '\n' ∉ "a\\\"".toList ∧ (place "\"a\\\"\n").after = '"' :: ("a\\\"".toList ++ ['\n']) ∧
      ∃ token, (place "\"a\\\"\n").next.1 = .ok token ∧ token.value = some (.error .unexpectedEnd) := by
  intro place
  have hplain : ['\''] ∈ stringForms '\'' := by decide
  have hescape : ['\\', '\''] ∈ stringForms '\'' := by decide
  have hfeed : ['\\', 'n'] ∈ stringForms '\n' := by decide
  have hwrites : Writes "'\\'\\n".toList "''\n".toList := .cons hplain (.cons hescape (.cons hfeed .nil))
  have hdouble : ['"'] ∈ characterForms '"' := by decide
  have hopen : ¬Closes "a\\\"".toList := by
    have hskip : Closes "a\\\"".toList ↔ Closes [] :=
      (Lexeme.closes_plain (by decide) (by decide) _).trans (Lexeme.closes_escape _ _)
    exact fun h => Lexeme.not_closes_nil (hskip.mp h)
  obtain ⟨hstring, -, -⟩ := next_quoted (place "\"'\\'\\n\";\n")
  obtain ⟨-, hcharacter, -⟩ := next_quoted (place "'\"';\n")
  obtain ⟨-, -, hline⟩ := next_quoted (place "\"a\\\"\n")
  obtain ⟨token, hnext, -, herror⟩ := hline "a\\\"".toList (by decide) (by decide)
  exact ⟨hwrites, by decide, ((hstring _).2 _ [';'] hwrites (by decide)).2, hdouble, by decide,
    (hcharacter _ _ hdouble [';'] (by decide)).2, by decide, by decide, token, hnext, (herror.mp hopen).2⟩

end Scanner

end FrontEnd
