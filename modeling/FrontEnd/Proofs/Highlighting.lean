import FrontEnd.Browser.Highlight

/-!
# Highlighting by position

The spans of a line can also be found with an index that moves along it.  A word is gathered one character at a time;
a comment or a literal is cut out of the line, from where it begins to where it is found to end.  The end of a literal
is looked for in steps of one character, or of two over an escape, and such a step can lead beyond the end of the
line, to which the index is then taken back.

Both ways give the same spans, every cut is one that the line has, and the spans together are the line
(`spans_lossless`).

## Strategy

What has been read of a span is the text of a `Pending`, nearest first.  A step of `spansFrom` moves one character
from the rest of the line to this text, or gives out a span, and neither loses anything
(`flatMap_text_spansFrom`).  That a literal is cut where it is closed is an induction on the steps of the search for
its end (`spansFrom_literal`); all other steps of the index are steps of `spansFrom`.
-/

namespace FrontEnd.Highlight

/-! ## Nothing is lost -/

/-- The characters that have been read of a span that is not complete, in their order. -/
def Pending.text : Pending → List Char
  | .word passed => passed.reverse
  | .literal _ passed _ => passed.reverse

theorem flatMap_text_wordSpan (word : List Char) (style : Style) :
    (wordSpan word style).flatMap Span.text = word := by
  cases word <;> simp [wordSpan]

/-- What has been read, and what has not, is found in the spans in this order. -/
theorem flatMap_text_spansFrom (atStart : Bool) (pending : Pending) (rest : List Char) :
    (spansFrom atStart pending rest).flatMap Span.text = pending.text ++ rest := by
  fun_induction spansFrom atStart pending rest with
  | case1 atStart passed => rw [flatMap_text_wordSpan, List.append_nil, Pending.text]
  | case2 atStart quote passed escaped => rw [List.flatMap_singleton, List.append_nil, Pending.text]
  | case3 atStart passed c rest word hcomment =>
      rw [List.flatMap_append, flatMap_text_wordSpan, List.flatMap_singleton]
      rfl
  | case4 atStart passed c rest word hcomment hquote ih =>
      rw [List.flatMap_append, flatMap_text_wordSpan, ih]
      rfl
  | case5 atStart passed c rest word hcomment hquote hdelimiter ih =>
      rw [List.flatMap_append, flatMap_text_wordSpan, List.flatMap_cons, ih]
      rfl
  | case6 atStart passed c rest word hcomment hquote hdelimiter ih => simp [ih, Pending.text]
  | case7 atStart quote passed escaped c rest hclosed ih => simp [ih, Pending.text]
  | case8 atStart quote passed escaped c rest hopen ih => simp [ih, Pending.text]

/-- The spans of a line are the line. -/
theorem flatMap_text_spans (chars : List Char) : (spans chars).flatMap Span.text = chars :=
  flatMap_text_spansFrom true (.word []) chars

/-! ## Going by an index -/

/-- The part of a line from one index up to another, if there is such a part. -/
def slice? (chars : List Char) (start stop : Nat) : Option (List Char) :=
  if start ≤ stop ∧ stop ≤ chars.length then some ((chars.drop start).take (stop - start)) else none

/-- The index at which the search for the end of a literal stops: that of a quote which closes it, or one that is not
on the line. -/
def literalEnd (chars : List Char) (quote : Char) (index : Nat) : Nat :=
  if h : index < chars.length then
    if chars[index] = quote then index
    else if chars[index] = '\\' then literalEnd chars quote (index + 2)
    else literalEnd chars quote (index + 1)
  else index
termination_by chars.length - index

theorem le_literalEnd (chars : List Char) (quote : Char) (index : Nat) : index ≤ literalEnd chars quote index := by
  fun_induction literalEnd chars quote index <;> omega

/-- The spans from an index on, after a word that has not been given out; none if the line is ever cut where it has
no such part. -/
def spansAt? (chars word : List Char) (index : Nat) : Option (List Span) :=
  if h : index < chars.length then
    let c := chars[index]
    if (c = '/' && chars[index + 1]? = some '/') || (c = '#' && index = 0) then do
      let comment ← slice? chars index chars.length
      return wordSpan word {} ++ [⟨comment, Palette.ink Palette.muted⟩]
    else if c = '"' || c = '\'' then do
      let stop := min (literalEnd chars c (index + 1) + 1) chars.length
      let literal ← slice? chars index stop
      let others ← spansAt? chars [] stop
      return wordSpan word {} ++ ⟨literal, Palette.ink Palette.literal⟩ :: others
    else if !Text.isAlphanumeric c && c != '_' && !(c = '.' && isNumber word) then do
      let others ← spansAt? chars [] (index + 1)
      return wordSpan word (wordStyle word (c = '(')) ++ ⟨[c], delimiterStyle c⟩ :: others
    else spansAt? chars (word ++ [c]) (index + 1)
  else some (wordSpan word (wordStyle word false))
termination_by chars.length - index
decreasing_by
  all_goals
    have hend := le_literalEnd chars chars[index] (index + 1)
    omega

/-! ## The same spans -/

theorem slice?_eq_some {chars : List Char} {start stop : Nat} (h : start ≤ stop) (h' : stop ≤ chars.length) :
    slice? chars start stop = some ((chars.drop start).take (stop - start)) :=
  if_pos ⟨h, h'⟩

/-- A part of a line begins with the character at its index. -/
theorem take_drop_eq_cons {chars : List Char} {start stop : Nat} (h : start < stop) (h' : start < chars.length) :
    (chars.drop start).take (stop - start) = chars[start] :: (chars.drop (start + 1)).take (stop - (start + 1)) := by
  have hlength : stop - start = stop - (start + 1) + 1 := by omega
  rw [List.drop_eq_getElem_cons h', hlength, List.take_succ_cons]

theorem spansFrom_quote (quote : Char) (passed rest : List Char) :
    spansFrom false (.literal quote passed false) (quote :: rest) =
      ⟨(quote :: passed).reverse, Palette.ink Palette.literal⟩ :: spansFrom false (.word []) rest := by
  simp [spansFrom]

/-- A character that does not close a literal belongs to it. -/
theorem spansFrom_literal_cons {c quote : Char} {escaped : Bool} (h : c ≠ quote ∨ escaped = true)
    (passed rest : List Char) :
    spansFrom false (.literal quote passed escaped) (c :: rest) =
      spansFrom false (.literal quote (c :: passed) (c = '\\' && !escaped)) rest := by
  have hopen : ¬(c = quote && !escaped) = true := by
    rcases h with hquote | hescaped
    · simp [hquote]
    · simp [hescaped]
  rw [spansFrom.eq_def]
  simp only [if_neg hopen]

/-- The character after a backslash belongs to the literal, whatever it is. -/
theorem spansFrom_escape {quote : Char} (h : '\\' ≠ quote) (c : Char) (passed rest : List Char) :
    spansFrom false (.literal quote passed false) ('\\' :: c :: rest) =
      spansFrom false (.literal quote (c :: '\\' :: passed) false) rest := by
  have hescaped : (decide ('\\' = '\\') && !false) = true := rfl
  rw [spansFrom_literal_cons (.inl h), hescaped, spansFrom_literal_cons (.inr rfl), Bool.not_true, Bool.and_false]

/-- A literal is cut off where it is closed, and otherwise at the end of the line. -/
theorem spansFrom_literal (chars : List Char) (quote : Char) (passed : List Char) (index : Nat) :
    spansFrom false (.literal quote passed false) (chars.drop index) =
      ⟨passed.reverse ++ (chars.drop index).take (min (literalEnd chars quote index + 1) chars.length - index),
        Palette.ink Palette.literal⟩ ::
        spansFrom false (.word []) (chars.drop (min (literalEnd chars quote index + 1) chars.length)) := by
  fun_induction literalEnd chars quote index generalizing passed with
  | case1 index h hquote =>
      have hstop : min (index + 1) chars.length = index + 1 := by omega
      rw [hstop, take_drop_eq_cons (Nat.lt_succ_self index) h, List.drop_eq_getElem_cons h, hquote, spansFrom_quote]
      simp
  | case2 index h hquote hescape ih =>
      have hend := le_literalEnd chars quote (index + 2)
      rw [take_drop_eq_cons (by omega) h, List.drop_eq_getElem_cons h, hescape]
      by_cases hnext : index + 1 < chars.length
      · rw [take_drop_eq_cons (by omega) hnext, List.drop_eq_getElem_cons hnext,
          spansFrom_escape (hescape ▸ hquote), ih]
        simp
      · -- the backslash is the last character, and the search goes on beyond the end of the chars
        have hrest : chars.drop (index + 1) = [] := List.drop_eq_nil_of_le (by omega)
        have hstop : min (literalEnd chars quote (index + 2) + 1) chars.length = index + 1 := by omega
        rw [hrest, hstop, hrest, spansFrom_literal_cons (.inl (hescape ▸ hquote))]
        simp [spansFrom, wordSpan]
  | case3 index h hquote hescape ih =>
      have hend := le_literalEnd chars quote (index + 1)
      rw [take_drop_eq_cons (by omega) h, List.drop_eq_getElem_cons h, spansFrom_literal_cons (.inl hquote)]
      simpa [hescape] using ih (chars[index] :: passed)
  | case4 index h =>
      have hrest : chars.drop index = [] := List.drop_eq_nil_of_le (by omega)
      have hstop : chars.drop (min (index + 1) chars.length) = [] := List.drop_eq_nil_of_le (by omega)
      simp [hrest, hstop, spansFrom, wordSpan]

/-- What comes next is seen by the index as it is seen at the rest of the line. -/
theorem spansFrom_drop {chars word : List Char} {index : Nat} (h : index < chars.length) :
    spansFrom (index = 0) (.word word.reverse) (chars.drop index) =
      let c := chars[index]
      if (c = '/' && chars[index + 1]? = some '/') || (c = '#' && index = 0) then
        wordSpan word {} ++ [⟨chars.drop index, Palette.ink Palette.muted⟩]
      else if c = '"' || c = '\'' then
        wordSpan word {} ++ spansFrom false (.literal c [c] false) (chars.drop (index + 1))
      else if !Text.isAlphanumeric c && c != '_' && !(c = '.' && isNumber word) then
        wordSpan word (wordStyle word (c = '(')) ++ ⟨[c], delimiterStyle c⟩ ::
          spansFrom false (.word []) (chars.drop (index + 1))
      else spansFrom false (.word (c :: word.reverse)) (chars.drop (index + 1)) := by
  rw [List.drop_eq_getElem_cons h, spansFrom.eq_def]
  simp only [List.reverse_reverse, List.head?_drop]

/-- Going by an index gives the same spans, and never cuts the line where it has no such part. -/
theorem spansAt?_eq (chars word : List Char) (index : Nat) :
    spansAt? chars word index = some (spansFrom (index = 0) (.word word.reverse) (chars.drop index)) := by
  have hlater (index : Nat) : decide (index + 1 = 0) = false := rfl
  fun_induction spansAt? chars word index with
  | case1 word index h c hcomment =>
      rw [spansFrom_drop h, if_pos hcomment, slice?_eq_some (Nat.le_of_lt h) (Nat.le_refl _), ← List.length_drop,
        List.take_length]
      rfl
  | case2 word index h c hcomment hquote stop ih =>
      have hend := le_literalEnd chars c (index + 1)
      have hstop : index < stop ∧ stop ≤ chars.length := by omega
      rw [spansFrom_drop h, if_neg hcomment, if_pos hquote, slice?_eq_some (Nat.le_of_lt hstop.1) hstop.2, ih,
        spansFrom_literal, take_drop_eq_cons hstop.1 h]
      simp [Nat.ne_of_gt (Nat.zero_lt_of_lt hstop.1), c, stop]
  | case3 word index h c hcomment hquote hdelimiter ih =>
      rw [spansFrom_drop h, if_neg hcomment, if_neg hquote, if_pos hdelimiter, ih, hlater]
      rfl
  | case4 word index h c hcomment hquote hdelimiter ih =>
      rw [spansFrom_drop h, if_neg hcomment, if_neg hquote, if_neg hdelimiter, ih, hlater, List.reverse_concat]
  | case5 word index h =>
      rw [List.drop_eq_nil_of_le (Nat.le_of_not_lt h)]
      simp [spansFrom]

/-- **Highlighting never alters the text.**  Whatever is on a line, going through it with an index comes to an end and
cuts out only what is there; this gives the spans of the line, and they, one after another, are the line itself. -/
theorem spans_lossless (chars : List Char) :
    spansAt? chars [] 0 = some (spans chars) ∧ (spans chars).flatMap Span.text = chars :=
  ⟨spansAt?_eq chars [] 0, flatMap_text_spans chars⟩

/-- A literal that ends in a backslash, beyond which its end is looked for. -/
example : literalEnd "f('\\".toList '\'' 3 = 5 ∧
    (spans "f('\\".toList).map Span.text = ["f".toList, "(".toList, "'\\".toList] := by
  decide +kernel

end FrontEnd.Highlight
