import FrontEnd.Code.Listing
import Mathlib.Data.List.Basic
import Mathlib.Tactic.Common

/-!
# Texts between quotes

A text that contains no delimiter is known from what it makes together with a delimiter and anything after it
(`append_delimiter_inj`).  Between double quotes this holds of more texts, since a double quote is no delimiter
where a backslash stands before it (`Quotable`).

The value of a constant stands between quotes in a listing.  Numbers are written without quotes and
backslashes.  Characters are written in one of three ways (`ListedAs`), and what is written of one character is
never the beginning of what is written of another, so that the characters of a text can be told from what is
written of all of them (`flatMap_listedCharacter_injective`).
-/

namespace FrontEnd

namespace Text

variable {text text' rest rest' : List Char}

/-! ## Up to a delimiter -/

/-- What stands up to the first occurrence of a delimiter, and what stands after it, are determined. -/
theorem append_delimiter_inj {delimiter : Char} (h : delimiter ∉ text) (h' : delimiter ∉ text')
    (heq : text ++ delimiter :: rest = text' ++ delimiter :: rest') : text = text' ∧ rest = rest' := by
  rcases List.append_eq_append_iff.mp heq with ⟨between, htext, hrest⟩ | ⟨between, htext, hrest⟩
  all_goals
    cases between with
    | nil => simp_all
    | cons c between =>
        obtain ⟨rfl, -⟩ := List.cons.inj hrest
        simp_all

/-- A text that can stand between double quotes: no double quote is in it but after a backslash, and each
backslash has a character after it. -/
inductive Quotable : List Char → Prop
  | nil : Quotable []
  | plain {c : Char} {text : List Char} : c ≠ '"' → c ≠ '\\' → Quotable text → Quotable (c :: text)
  | escaped {c : Char} {text : List Char} : Quotable text → Quotable ('\\' :: c :: text)

namespace Quotable

/-- The quote that closes a text is the first one that can. -/
theorem append_quote_inj (h : Quotable text) (h' : Quotable text')
    (heq : text ++ '"' :: rest = text' ++ '"' :: rest') : text = text' ∧ rest = rest' := by
  induction h generalizing text' with
  | nil =>
      cases h' with
      | nil => exact ⟨rfl, (List.cons.inj heq).2⟩
      | plain hquote' => exact absurd (List.cons.inj heq).1.symm hquote'
      | escaped => simp at heq
  | plain hquote hbackslash _ ih =>
      cases h' with
      | nil => exact absurd (List.cons.inj heq).1 hquote
      | plain _ _ h' =>
          obtain ⟨rfl, htail⟩ := List.cons.inj heq
          obtain ⟨rfl, hrest⟩ := ih h' htail
          exact ⟨rfl, hrest⟩
      | escaped => exact absurd (List.cons.inj heq).1 hbackslash
  | escaped _ ih =>
      cases h' with
      | nil => simp at heq
      | plain _ hbackslash' => exact absurd (List.cons.inj heq).1.symm hbackslash'
      | escaped h' =>
          obtain ⟨rfl, htail⟩ := List.cons.inj (List.cons.inj heq).2
          obtain ⟨rfl, hrest⟩ := ih h' htail
          exact ⟨rfl, hrest⟩

theorem append (h : Quotable text) (h' : Quotable text') : Quotable (text ++ text') := by
  induction h with
  | nil => exact h'
  | plain hquote hbackslash _ ih => exact .plain hquote hbackslash ih
  | escaped _ ih => exact .escaped ih

theorem of_forall (h : ∀ c ∈ text, c ≠ '"' ∧ c ≠ '\\') : Quotable text := by
  induction text with
  | nil => exact .nil
  | cons c text ih =>
      obtain ⟨⟨hquote, hbackslash⟩, h⟩ := List.forall_mem_cons.mp h
      exact .plain hquote hbackslash (ih h)

/-- For a given text it can be checked. -/
theorem of_all (h : text.all (fun c => c != '"' && c != '\\') = true) : Quotable text :=
  of_forall fun c hc => by simpa using List.all_eq_true.mp h c hc

theorem flatMap {form : Char → List Char} (h : ∀ c, Quotable (form c)) (text : List Char) :
    Quotable (text.flatMap form) := by
  induction text with
  | nil => exact .nil
  | cons c text ih => exact (h c).append ih

end Quotable

/-! ## Numbers -/

theorem ne_of_isDigit {c : Char} (h : c.isDigit) : c ≠ '"' ∧ c ≠ '\\' := by
  constructor <;> rintro rfl <;> exact absurd h (by decide)

theorem isDigit_of_mem_toString {n : Nat} {c : Char} (h : c ∈ (toString n).toList) : c.isDigit := by
  rw [Nat.toString_eq_ofList_toDigits, String.toList_ofList] at h
  exact Nat.isDigit_of_mem_toDigits (by decide) (by decide) h

theorem quotable_toString (n : Nat) : Quotable (toString n).toList :=
  .of_forall fun _ h => ne_of_isDigit (isDigit_of_mem_toString h)

theorem quotable_toString_int (i : Int) : Quotable (toString i).toList := by
  change Quotable i.repr.toList
  rw [Int.repr_eq_if]
  split
  · exact quotable_toString i.toNat
  · rw [String.toList_append]
    exact .append (.of_all rfl) (quotable_toString (-i).toNat)

/-- Each character of a number in base sixteen is the digit for something less than sixteen. -/
theorem exists_of_mem_toDigits {n : Nat} {c : Char} (h : c ∈ Nat.toDigits 16 n) :
    ∃ digit < 16, c = Nat.digitChar digit := by
  induction n using Nat.strongRecOn with
  | _ n ih =>
      rw [Nat.toDigits_eq_if (by decide)] at h
      split at h
      next hlt => exact ⟨n, hlt, List.mem_singleton.mp h⟩
      next hge =>
          rcases List.mem_append.mp h with h | h
          · exact ih (n / 16) (by omega) h
          · exact ⟨n % 16, by omega, List.mem_singleton.mp h⟩

theorem toDigits_injective {n n' : Nat} (h : Nat.toDigits 16 n = Nat.toDigits 16 n') : n = n' := by
  have hdigit : ∀ digit < 16, ∀ digit' < 16, Nat.digitChar digit = Nat.digitChar digit' →
      digit = digit' := by decide
  induction n using Nat.strongRecOn generalizing n' with
  | _ n ih =>
      rw [Nat.toDigits_eq_if (by decide), Nat.toDigits_eq_if (n := n') (by decide)] at h
      split at h <;> split at h
      next hlt hlt' => exact hdigit n hlt n' hlt' (List.singleton_inj.mp h)
      next =>
          have := congrArg List.length h
          simp [Nat.toDigits_ne_nil] at this
      next =>
          have := congrArg List.length h
          simp [Nat.toDigits_ne_nil] at this
      next hge hge' =>
          obtain ⟨hinit, hlast⟩ := List.append_singleton_inj.mp h
          have hquotient := ih (n / 16) (by omega) hinit
          have hremainder := hdigit (n % 16) (by omega) (n' % 16) (by omega) hlast
          omega

/-! ## Characters -/

/-- The characters that are written as a backslash and another character, and that character for each. -/
def shortForms : List (Char × Char) :=
  [('\t', 't'), ('\r', 'r'), ('\n', 'n'), ('\\', '\\'), ('\'', '\''), ('"', '"')]

/-- How a character may be written in a listing. -/
inductive ListedAs : Char → List Char → Prop
  | short {c letter : Char} : (c, letter) ∈ shortForms → ListedAs c ['\\', letter]
  | plain {c : Char} : c ≠ '"' → c ≠ '\\' → ListedAs c [c]
  | codePoint {c : Char} : ListedAs c (codePointForm c)

theorem listedAs (c : Char) : ListedAs c (listedCharacter c) := by
  unfold listedCharacter
  split
  next form hform =>
      unfold shortForm? at hform
      split at hform <;> cases hform <;> exact .short (by decide)
  next hform =>
      split
      next hquote =>
          simp only [Bool.or_eq_true, decide_eq_true_eq] at hquote
          rcases hquote with rfl | rfl <;> exact .short (by decide)
      next hquote =>
          split
          · refine .plain (by rintro rfl; simp at hquote) ?_
            rintro rfl
            simp [shortForm?] at hform
          · exact .codePoint

namespace ListedAs

variable {c c' : Char} {form form' : List Char}

theorem ne_nil (h : ListedAs c form) : form ≠ [] := by
  cases h <;> simp [codePointForm]

theorem quotable (h : ListedAs c form) : Quotable form := by
  cases h with
  | short => exact .escaped .nil
  | plain hquote hbackslash => exact .plain hquote hbackslash .nil
  | codePoint =>
      have hdigits : ∀ digit < 16, Nat.digitChar digit ≠ '"' ∧ Nat.digitChar digit ≠ '\\' := by decide
      refine .append (.append (.escaped (.of_all rfl)) (.of_forall fun letter hletter => ?_))
        (.of_all rfl)
      obtain ⟨digit, hlt, rfl⟩ := exists_of_mem_toDigits hletter
      exact hdigits digit hlt

/-- What is written of a code point ends at its brace. -/
theorem codePointForm_append_inj (h : codePointForm c ++ rest = codePointForm c' ++ rest') :
    c = c' ∧ rest = rest' := by
  have hbrace (c : Char) : '\x7d' ∉ Nat.toDigits 16 c.toNat := fun hmem => by
    obtain ⟨digit, hlt, heq⟩ := exists_of_mem_toDigits hmem
    exact absurd heq ((by decide : ∀ digit < 16, '\x7d' ≠ Nat.digitChar digit) digit hlt)
  simp only [codePointForm, List.append_assoc, List.append_cancel_left_eq, List.singleton_append] at h
  obtain ⟨hdigits, hrest⟩ := append_delimiter_inj (hbrace c) (hbrace c') h
  exact ⟨Char.toNat_inj.mp (toDigits_injective hdigits), hrest⟩

/-- What is written of a character is never the beginning of what is written of another. -/
theorem append_inj (h : ListedAs c form) (h' : ListedAs c' form') (heq : form ++ rest = form' ++ rest') :
    c = c' ∧ rest = rest' := by
  -- Only the third way has the letter `u` after a backslash.
  have hletter {c letter : Char} (hmem : (c, letter) ∈ shortForms) : letter ≠ 'u' := by
    rintro rfl
    simp [shortForms] at hmem
  cases h with
  | short hmem =>
      cases h' with
      | short hmem' =>
          obtain ⟨rfl, rfl⟩ : _ ∧ rest = rest' := by simpa using heq
          refine ⟨?_, rfl⟩
          simp only [shortForms, List.mem_cons, Prod.mk.injEq, List.not_mem_nil, or_false] at hmem hmem'
          grind
      | plain _ hbackslash' => exact absurd (List.cons.inj heq).1.symm hbackslash'
      | codePoint => simp [codePointForm, hletter hmem] at heq
  | plain _ hbackslash =>
      cases h' with
      | short => exact absurd (List.cons.inj heq).1 hbackslash
      | plain => simpa using heq
      | codePoint => simp [codePointForm, hbackslash] at heq
  | codePoint =>
      cases h' with
      | short hmem' => simp [codePointForm, (hletter hmem').symm] at heq
      | plain _ hbackslash' => simp [codePointForm, hbackslash'.symm] at heq
      | codePoint => exact codePointForm_append_inj heq

end ListedAs

theorem flatMap_listedCharacter_injective
    (h : text.flatMap listedCharacter = text'.flatMap listedCharacter) : text = text' := by
  induction text generalizing text' with
  | nil =>
      cases text' with
      | nil => rfl
      | cons c' text' => simp [(listedAs c').ne_nil] at h
  | cons c text ih =>
      cases text' with
      | nil => simp [(listedAs c).ne_nil] at h
      | cons c' text' =>
          rw [List.flatMap_cons, List.flatMap_cons] at h
          obtain ⟨rfl, hrest⟩ := (listedAs c).append_inj (listedAs c') h
          rw [ih hrest]

theorem listedForm_injective {c c' : Char} (h : listedForm c = listedForm c') : c = c' := by
  have hforms : listedCharacter c ++ [] = listedCharacter c' ++ [] := by simpa using String.ofList_injective h
  exact ((listedAs c).append_inj (listedAs c') hforms).1

theorem listedText_injective {text text' : String} (h : listedText text = listedText text') : text = text' :=
  String.toList_inj.mp (flatMap_listedCharacter_injective (String.ofList_injective h))

end Text

/-! ## Constants -/

/-- Digits are laid out with zeros and a point. -/
theorem Binary64.Digits.quotable_layout (number : Binary64.Digits) : Text.Quotable number.layout.toList := by
  refine .of_forall fun c hc => ?_
  have hdigits : ∀ c ∈ (toString number.digits).toList, c ≠ '"' ∧ c ≠ '\\' := fun c hc =>
    Text.ne_of_isDigit (Text.isDigit_of_mem_toString hc)
  simp only [Binary64.Digits.layout, String.toList_ofList] at hc
  split at hc
  · rcases List.mem_append.mp hc with hc | hc
    · exact hdigits c hc
    · rw [List.eq_of_mem_replicate hc]
      decide
  · split at hc
    · simp only [List.mem_append, List.mem_singleton] at hc
      rcases hc with (hc | rfl) | hc
      · exact hdigits c (List.mem_of_mem_take hc)
      · decide
      · exact hdigits c (List.mem_of_mem_drop hc)
    · simp only [List.mem_append] at hc
      rcases hc with (hc | hc) | hc
      · rcases List.mem_pair.mp hc with rfl | rfl <;> decide
      · rw [List.eq_of_mem_replicate hc]
        decide
      · exact hdigits c hc

/-- A real is written with digits, a point, a sign and the letters of two words. -/
theorem Binary64.quotable_text (x : Binary64) : Text.Quotable x.text.toList := by
  have hmagnitude : Text.Quotable
      (if x.isFinite then (if x.magnitude = 0 then "0" else x.shortest.layout) else "inf").toList := by
    split
    · split
      · exact .of_all rfl
      · exact x.shortest.quotable_layout
    · exact .of_all rfl
  unfold text
  split
  · exact .of_all rfl
  · dsimp only
    split
    · rw [String.toList_append]
      exact .append (.of_all rfl) hmagnitude
    · exact hmagnitude

/-- The value of a constant can stand between quotes. -/
theorem Literal.quotable_text (literal : Literal) : Text.Quotable literal.text.toList := by
  cases literal with
  | integer value => exact Text.quotable_toString_int value
  | real value => exact value.quotable_text
  | character value =>
      rw [Literal.text, Text.listedForm, String.toList_ofList]
      exact (Text.listedAs value).quotable
  | string value =>
      rw [Literal.text, Text.listedText, String.toList_ofList]
      exact .flatMap (fun c => (Text.listedAs c).quotable) value.toList

end FrontEnd
