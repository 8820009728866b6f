import FrontEnd.Proofs.Request
import Mathlib.Data.Nat.Digits.Defs

/-!
# Numbers as they are written

A number is digits, perhaps a point and digits, and perhaps an exponent: a letter, perhaps a sign, and digits,
which may be missing (`Numeral`).  Where a line goes on with a digit, the scanner takes the longest piece of it that
is a number, and answers with what the number denotes, or with the reason why it denotes nothing
(`Scanner.next_numeral`).

## Strategy

What is taken ends where no number could go on (`Numeral.Ends`), and from this it follows part by part that
every other number with which the line begins ends earlier: one of its parts has fewer digits, or is missing, and
then nothing follows that part (`Numeral.prefix_of_ends`).
-/

namespace FrontEnd

/-- The exponent of a number: its letter, its sign if there is one, and its digits, which may be missing. -/
structure Numeral.Exponent where
  letter : Char
  sign : List Char
  digits : List Char
  isLetter : letter = 'e' ∨ letter = 'E'
  isSign : sign ∈ [[], ['+'], ['-']]
  allDigits : digits.all Char.isDigit = true

/-- A number as it is written: its digits, the digits after the point if there is one, and its exponent if there
is one. -/
structure Numeral where
  whole : List Char
  fraction : Option (List Char)
  exponent : Option Numeral.Exponent
  whole_ne : whole ≠ []
  wholeDigits : whole.all Char.isDigit = true
  fractionDigits : ∀ digits ∈ fraction, digits ≠ [] ∧ digits.all Char.isDigit = true

namespace Numeral

/-! ## What is written -/

/-- The sign and the digits of an exponent. -/
def Exponent.tail (exponent : Exponent) : List Char :=
  exponent.sign ++ exponent.digits

/-- The point and the digits after it, if there are any. -/
def point (numeral : Numeral) : List Char :=
  numeral.fraction.elim [] ('.' :: ·)

/-- The exponent, if there is one. -/
def scale (numeral : Numeral) : List Char :=
  numeral.exponent.elim [] fun exponent => exponent.letter :: exponent.tail

section

variable {numeral : Numeral}

@[simp] theorem point_of_none (h : numeral.fraction = none) : numeral.point = [] := by
  simp [point, h]

@[simp] theorem point_of_some {digits : List Char} (h : numeral.fraction = some digits) :
    numeral.point = '.' :: digits := by
  simp [point, h]

@[simp] theorem scale_of_none (h : numeral.exponent = none) : numeral.scale = [] := by
  simp [scale, h]

@[simp] theorem scale_of_some {exponent : Exponent} (h : numeral.exponent = some exponent) :
    numeral.scale = exponent.letter :: exponent.tail := by
  simp [scale, h]

end

/-- The number as it is written. -/
def written (numeral : Numeral) : List Char :=
  numeral.whole ++ (numeral.point ++ numeral.scale)

/-- The number with a small letter before its exponent. -/
def small (numeral : Numeral) : Numeral :=
  { numeral with
      exponent := numeral.exponent.map fun exponent => { exponent with letter := 'e', isLetter := .inl rfl } }

/-! ## What is denoted -/

/-- The number that decimal digits denote, the most significant of which comes first. -/
def decimal (digits : List Char) : Nat :=
  Nat.ofDigits 10 (digits.reverse.map fun digit => digit.toNat - '0'.toNat)

/-- Zeros in front make no difference. -/
theorem decimal_zeros (count : Nat) (digits : List Char) :
    decimal (List.replicate count '0' ++ digits) = decimal digits := by
  simp [decimal]

/-- The power of ten that an exponent denotes. -/
def Exponent.power (exponent : Exponent) : Int :=
  if exponent.sign = ['-'] then -(decimal exponent.digits : Int) else decimal exponent.digits

/-- The real that is nearest to what the number denotes: the digits before and after the point, scaled by the power
of ten and by the number of digits after the point. -/
def real (numeral : Numeral) : Binary64 :=
  let decimals := numeral.fraction.getD []
  .ofDecimal false (decimal (numeral.whole ++ decimals))
    ((numeral.exponent.elim 0 Exponent.power) - decimals.length)

/-- What the number denotes, or why it denotes nothing: an exponent without digits, an integer that is too large, or
a real that is not finite. -/
def value (numeral : Numeral) : TokenValue :=
  if numeral.exponent.any fun exponent => exponent.digits.isEmpty then .error .invalidNumber
  else if numeral.fraction.isSome || numeral.exponent.isSome then
    if numeral.real.isFinite then .real numeral.real else .error .realOutOfRange
  else if decimal numeral.whole ≤ 2 ^ 31 - 1 then .integer (decimal numeral.whole)
  else .error .integerOutOfRange

/-- What the scanner makes of the number; the letter before the exponent is always small. -/
def lexeme (numeral : Numeral) : Lexeme :=
  ⟨numeral.value.kind, numeral.small.written, some numeral.value⟩

/-! ## Where a number ends -/

/-- Whether digits do not go on with what follows them. -/
def StopsDigits (rest : List Char) : Prop :=
  ∀ c ∈ rest.head?, c.isDigit = false

/-- Whether a number does not go on with what follows it: no digit follows, no point with a digit after it unless
there is a fraction or an exponent, and no letter of an exponent or sign of one in its place. -/
structure Ends (numeral : Numeral) (rest : List Char) : Prop where
  noDigit : StopsDigits rest
  noPoint : numeral.exponent = none → numeral.fraction = none → ∀ more, rest = '.' :: more → StopsDigits more
  noLetter : numeral.exponent = none → ∀ c ∈ rest.head?, c ≠ 'e' ∧ c ≠ 'E'
  noSign : ∀ exponent ∈ numeral.exponent, exponent.tail = [] → ∀ c ∈ rest.head?, c ≠ '+' ∧ c ≠ '-'

/-- Digits that are followed by something else, against digits with which the same text begins: these are the same,
or they are fewer and a digit follows them. -/
theorem digits_cases {digits rest other more : List Char} (hdigits : digits.all Char.isDigit = true)
    (hother : other.all Char.isDigit = true) (hstops : StopsDigits rest) (heq : other ++ more = digits ++ rest) :
    other = digits ∧ more = rest ∨ other <+: digits ∧ ∃ c ∈ more.head?, c.isDigit = true := by
  rcases List.append_eq_append_iff.mp heq with ⟨fewer, rfl, rfl⟩ | ⟨extra, rfl, rfl⟩
  · rcases fewer with _ | ⟨c, fewer⟩
    · exact .inl ⟨by simp, rfl⟩
    · refine .inr ⟨List.prefix_append _ _, c, rfl, ?_⟩
      exact List.all_eq_true.mp hdigits c (by simp)
  · rcases extra with _ | ⟨c, extra⟩
    · exact .inl ⟨by simp, rfl⟩
    · have hdigit : c.isDigit = true := List.all_eq_true.mp hother c (by simp)
      simp [hstops c rfl] at hdigit

theorem Exponent.letter_isDigit (exponent : Exponent) : exponent.letter.isDigit = false := by
  rcases exponent.isLetter with h | h <;> rw [h] <;> rfl

theorem Exponent.letter_ne_point (exponent : Exponent) : exponent.letter ≠ '.' := by
  rcases exponent.isLetter with h | h <;> simp [h]

theorem Exponent.sign_cases (exponent : Exponent) :
    exponent.sign = [] ∨ ∃ c, (c = '+' ∨ c = '-') ∧ c.isDigit = false ∧ exponent.sign = [c] := by
  have hsign := exponent.isSign
  simp only [List.mem_cons, List.not_mem_nil, or_false] at hsign
  rcases hsign with h | h | h
  · exact .inl h
  · exact .inr ⟨'+', .inl rfl, rfl, h⟩
  · exact .inr ⟨'-', .inr rfl, rfl, h⟩

/-- Digits do not begin with a character that is none. -/
theorem eq_nil_of_digits {digits rest : List Char} {c : Char} {more : List Char}
    (hdigits : digits.all Char.isDigit = true) (hc : c.isDigit = false) (heq : digits ++ more = c :: rest) :
    digits = [] := by
  rcases digits with _ | ⟨digit, digits⟩
  · rfl
  · obtain ⟨rfl, -⟩ := List.cons.inj heq
    simp [hc] at hdigits

variable {numeral : Numeral} {rest more : List Char}

theorem stops_scale (numeral : Numeral) (h : StopsDigits rest) : StopsDigits (numeral.scale ++ rest) := by
  cases hexponent : numeral.exponent with
  | none => simpa [hexponent] using h
  | some exponent => simp [hexponent, StopsDigits, exponent.letter_isDigit]

theorem stops_point (numeral : Numeral) (h : StopsDigits rest) :
    StopsDigits (numeral.point ++ (numeral.scale ++ rest)) := by
  cases hfraction : numeral.fraction with
  | none => simpa [hfraction] using numeral.stops_scale h
  | some digits => simp [hfraction, StopsDigits]

variable {other : Numeral}

/-- Where a digit follows in place of an exponent, there is none. -/
theorem scale_eq_nil (h : ∃ c ∈ (other.scale ++ more).head?, c.isDigit = true) : other.scale = [] := by
  cases hexponent : other.exponent with
  | none => simp [hexponent]
  | some exponent => simp [hexponent, exponent.letter_isDigit] at h

/-- Nor is there a fraction where a digit follows in place of both. -/
theorem point_eq_nil (h : ∃ c ∈ (other.point ++ (other.scale ++ more)).head?, c.isDigit = true) :
    other.point = [] ∧ other.scale = [] := by
  cases hfraction : other.fraction with
  | none => exact ⟨by simp [hfraction], scale_eq_nil (by simpa [hfraction] using h)⟩
  | some digits => simp [hfraction] at h

/-- Digits are a part of other digits in their place. -/
theorem prefix_digits {digits digits' : List Char} (hdigits : digits.all Char.isDigit = true)
    (hdigits' : digits'.all Char.isDigit = true) (hstops : StopsDigits rest)
    (heq : digits ++ more = digits' ++ rest) : digits <+: digits' := by
  rcases digits_cases hdigits' hdigits hstops heq with ⟨rfl, -⟩ | ⟨hfewer, -⟩
  · exact List.prefix_rfl
  · exact hfewer

/-- So is what follows the letter of an exponent. -/
theorem prefix_tail {exponent exponent' : Exponent} (hstops : StopsDigits rest)
    (hsign : exponent'.tail = [] → ∀ c ∈ rest.head?, c ≠ '+' ∧ c ≠ '-')
    (heq : exponent.tail ++ more = exponent'.tail ++ rest) : exponent.tail <+: exponent'.tail := by
  simp only [Exponent.tail, List.append_assoc] at hsign heq ⊢
  rcases exponent.sign_cases with hnone | ⟨c, hc, hdigit, hone⟩
  · rcases exponent'.sign_cases with hnone' | ⟨c', -, hdigit', hone'⟩
    · rw [hnone, hnone'] at heq ⊢
      exact prefix_digits exponent.allDigits exponent'.allDigits hstops heq
    · -- a sign stands where the other exponent has its digits
      rw [hnone, hone'] at heq
      rw [hnone, eq_nil_of_digits exponent.allDigits hdigit' heq]
      exact List.nil_prefix
  · rcases exponent'.sign_cases with hnone' | ⟨c', -, -, hone'⟩
    · -- a sign follows where there is neither sign nor digit
      rw [hone, hnone'] at heq
      have hdigits := eq_nil_of_digits exponent'.allDigits hdigit heq.symm
      rw [hdigits, List.nil_append, List.nil_append] at heq
      have hnot := hsign (by rw [hnone', hdigits]; rfl) c (by rw [← heq]; rfl)
      exact absurd hc (not_or.mpr hnot)
    · rw [hone, hone'] at heq ⊢
      obtain ⟨rfl, htail⟩ := List.cons.inj heq
      exact (List.prefix_cons_inj c).mpr (prefix_digits exponent.allDigits exponent'.allDigits hstops htail)

/-- An exponent that stands in the place of that of a number which ends is a part of it. -/
theorem Ends.prefix_scale (h : numeral.Ends rest) (heq : other.scale ++ more = numeral.scale ++ rest) :
    other.scale <+: numeral.scale := by
  cases hother : other.exponent with
  | none => simp [hother]
  | some exponent =>
      cases hexponent : numeral.exponent with
      | none =>
          -- the letter of an exponent follows where there is none
          simp only [scale_of_some hother, scale_of_none hexponent, List.nil_append, List.cons_append] at heq
          have hnot := h.noLetter hexponent exponent.letter (by rw [← heq]; rfl)
          exact absurd exponent.isLetter (not_or.mpr hnot)
      | some exponent' =>
          rw [scale_of_some hother, scale_of_some hexponent] at heq ⊢
          obtain ⟨hletter, htail⟩ := List.cons.inj heq
          rw [hletter]
          exact (List.prefix_cons_inj _).mpr (prefix_tail h.noDigit (h.noSign exponent' hexponent) htail)

/-- So is all that stands in the place of what follows its digits. -/
theorem Ends.prefix_point (h : numeral.Ends rest)
    (heq : other.point ++ (other.scale ++ more) = numeral.point ++ (numeral.scale ++ rest)) :
    other.point ++ other.scale <+: numeral.point ++ numeral.scale := by
  cases hother : other.fraction with
  | none =>
      rw [point_of_none hother] at heq ⊢
      cases hfraction : numeral.fraction with
      | none =>
          rw [point_of_none hfraction] at heq ⊢
          exact h.prefix_scale heq
      | some digits =>
          cases hexponent : other.exponent with
          | none => simp [hexponent]
          | some exponent =>
              rw [point_of_some hfraction, scale_of_some hexponent] at heq
              exact absurd (List.cons.inj heq).1 exponent.letter_ne_point
  | some digits =>
      obtain ⟨hne, hdigits⟩ := other.fractionDigits digits hother
      rw [point_of_some hother] at heq ⊢
      cases hfraction : numeral.fraction with
      | none =>
          rw [point_of_none hfraction] at heq
          cases hexponent : numeral.exponent with
          | none =>
              -- a digit follows the point after a number without fraction and exponent
              obtain ⟨digit, digits, rfl⟩ := List.exists_cons_of_ne_nil hne
              rw [scale_of_none hexponent] at heq
              have hnot := h.noPoint hexponent hfraction _ heq.symm digit rfl
              simp [hnot] at hdigits
          | some exponent =>
              rw [scale_of_some hexponent] at heq
              exact absurd (List.cons.inj heq).1.symm exponent.letter_ne_point
      | some digits' =>
          obtain ⟨-, hdigits'⟩ := numeral.fractionDigits digits' hfraction
          rw [point_of_some hfraction] at heq ⊢
          have htail : digits ++ (other.scale ++ more) = digits' ++ (numeral.scale ++ rest) := (List.cons.inj heq).2
          refine (List.prefix_cons_inj '.').mpr ?_
          rcases digits_cases hdigits' hdigits (numeral.stops_scale h.noDigit) htail with
            ⟨rfl, hscale⟩ | ⟨hfewer, hdigit⟩
          · exact (List.prefix_append_right_inj digits).mpr (h.prefix_scale hscale)
          · have hprefix := hfewer.trans (List.prefix_append digits' numeral.scale)
            simpa [scale_eq_nil hdigit] using hprefix

/-- A number that ends is the longest with which a text begins. -/
theorem prefix_of_ends (h : numeral.Ends rest) (hother : other.written <+: numeral.written ++ rest) :
    other.written <+: numeral.written := by
  obtain ⟨more, heq⟩ := hother
  simp only [written, List.append_assoc] at heq ⊢
  rcases digits_cases numeral.wholeDigits other.wholeDigits (numeral.stops_point h.noDigit) heq with
    ⟨hwhole, htail⟩ | ⟨hfewer, hdigit⟩
  · rw [hwhole]
    exact (List.prefix_append_right_inj _).mpr (h.prefix_point htail)
  · obtain ⟨hpoint, hscale⟩ := point_eq_nil hdigit
    rw [hpoint, hscale, List.append_nil, List.append_nil]
    exact hfewer.trans (List.prefix_append _ _)

/-! ## Reading the value of a number -/

theorem takeWhile_digits {digits : List Char} (hdigits : digits.all Char.isDigit = true) (h : StopsDigits rest) :
    (digits ++ rest).takeWhile Char.isDigit = digits ∧ (digits ++ rest).dropWhile Char.isDigit = rest := by
  have hall : ∀ c ∈ digits, c.isDigit = true := List.all_eq_true.mp hdigits
  rw [List.takeWhile_append_of_pos hall, List.dropWhile_append_of_pos hall]
  cases rest with
  | nil => simp
  | cons c rest => simp [h c rfl]

/-- A digit after another makes ten times the number of the first and adds the other. -/
theorem digitsValue_eq_decimal (digits : List Char) : Binary64.digitsValue digits = decimal digits := by
  rw [Binary64.digitsValue, decimal, Nat.ofDigits_eq_foldr, List.foldr_map, List.foldr_reverse]
  congr 1
  funext value digit
  simp [Nat.add_comm]

theorem ne_sign_of_isDigit {digit : Char} (hdigit : digit.isDigit = true) : digit ≠ '+' ∧ digit ≠ '-' := by
  constructor <;> rintro rfl <;> simp at hdigit

theorem readExponent?_tail (exponent : Exponent) (hne : exponent.digits ≠ []) :
    Binary64.readExponent? exponent.tail = some exponent.power := by
  have hsome : (exponent.digits.isEmpty || !exponent.digits.all Char.isDigit) = false := by
    simp [hne, exponent.allDigits]
  rcases exponent.sign_cases with hnone | ⟨c, rfl | rfl, -, hone⟩
  · obtain ⟨digit, digits, hcons⟩ := List.exists_cons_of_ne_nil hne
    have hdigit : digit.isDigit = true := List.all_eq_true.mp exponent.allDigits digit (by simp [hcons])
    obtain ⟨hplus, hminus⟩ := ne_sign_of_isDigit hdigit
    have hcases : Binary64.readExponent? exponent.digits =
        if exponent.digits.isEmpty || !exponent.digits.all Char.isDigit then none
        else some (Binary64.digitsValue exponent.digits : Int) := by
      simp [Binary64.readExponent?, hcons, hplus, hminus]
    rw [Exponent.tail, hnone, List.nil_append, hcases, hsome, digitsValue_eq_decimal]
    simp [Exponent.power, hnone]
  · simp [Binary64.readExponent?, Exponent.tail, Exponent.power, hone, hsome, digitsValue_eq_decimal]
  · simp [Binary64.readExponent?, Exponent.tail, Exponent.power, hone, hsome, digitsValue_eq_decimal]

/-- A number is read as the real that is nearest to what it denotes. -/
theorem readUnsigned?_written (numeral : Numeral)
    (hdigits : ∀ exponent ∈ numeral.exponent, exponent.digits ≠ []) :
    Binary64.readUnsigned? false numeral.written = some numeral.real := by
  have hstops : StopsDigits [] := nofun
  obtain ⟨hwhole, hafter⟩ := takeWhile_digits numeral.wholeDigits (numeral.stops_point hstops)
  simp only [List.append_nil] at hwhole hafter
  have hpower {exponent : Exponent} (h : numeral.exponent = some exponent) :
      Binary64.readExponent? exponent.tail = some exponent.power :=
    readExponent?_tail exponent (hdigits exponent h)
  unfold Binary64.readUnsigned?
  simp only [written, hwhole, hafter, digitsValue_eq_decimal, real]
  cases hfraction : numeral.fraction with
  | none =>
      cases hexponent : numeral.exponent with
      | none => simp [hfraction, hexponent, numeral.whole_ne]
      | some exponent =>
          simp [hfraction, hexponent, numeral.whole_ne, exponent.letter_ne_point, exponent.isLetter,
            hpower hexponent]
  | some digits =>
      obtain ⟨htake, hdrop⟩ :=
        takeWhile_digits (numeral.fractionDigits digits hfraction).2 (numeral.stops_scale hstops)
      rw [List.append_nil] at htake hdrop
      cases hexponent : numeral.exponent with
      | none =>
          rw [scale_of_none hexponent, List.append_nil] at htake hdrop
          simp [hfraction, hexponent, numeral.whole_ne, htake, hdrop]
      | some exponent =>
          rw [scale_of_some hexponent] at htake hdrop
          simp [hfraction, hexponent, numeral.whole_ne, htake, hdrop, exponent.isLetter, hpower hexponent]

theorem ofText?_written (numeral : Numeral) (hdigits : ∀ exponent ∈ numeral.exponent, exponent.digits ≠ []) :
    Binary64.ofText? (String.ofList numeral.written) = some numeral.real := by
  have hread := numeral.readUnsigned?_written hdigits
  obtain ⟨first, tail, hwhole⟩ := List.exists_cons_of_ne_nil numeral.whole_ne
  have hfirst : first.isDigit = true := List.all_eq_true.mp numeral.wholeDigits first (by simp [hwhole])
  obtain ⟨rest, htext⟩ : ∃ rest, numeral.written = first :: rest :=
    ⟨_, by rw [written, hwhole, List.cons_append]⟩
  obtain ⟨hplus, hminus⟩ := ne_sign_of_isDigit hfirst
  -- the words for what is no finite number do not begin with a digit
  have hword {word : String} (hhead : word.toList.head?.all (fun c => !c.isDigit) = true) :
      String.ofList ((first :: rest).map Char.toLower) ≠ word := by
    rintro rfl
    have hlower : first.toLower = first := by
      have hall : ∀ c, Lexeme.continuesWord c = true → c.isDigit = true → c.toLower = c :=
        Lexeme.forall_continuesWord (by decide)
      exact hall first (by simp [Lexeme.continuesWord, Char.isAlphanum, hfirst]) hfirst
    simp [hlower, hfirst] at hhead
  rw [htext] at hread ⊢
  unfold Binary64.ofText?
  simp only [String.toList_ofList]
  split
  · next heq => exact absurd (List.cons.inj heq).1 hminus
  · next heq => exact absurd (List.cons.inj heq).1 hplus
  · simp only [hword (by decide : "inf".toList.head?.all (fun c => !c.isDigit) = true),
      hword (by decide : "infinity".toList.head?.all (fun c => !c.isDigit) = true),
      hword (by decide : "nan".toList.head?.all (fun c => !c.isDigit) = true)]
    exact hread

theorem length_small_written (numeral : Numeral) : numeral.small.written.length = numeral.written.length := by
  unfold written point scale small
  cases numeral.exponent <;> simp [Exponent.tail]

/-- A number has no line feed in it. -/
theorem lineFeed_not_mem_written (numeral : Numeral) : '\n' ∉ numeral.written := by
  have hdigits {digits : List Char} (h : digits.all Char.isDigit = true) : '\n' ∉ digits := fun hmem => by
    simpa using List.all_eq_true.mp h _ hmem
  have hpoint : '\n' ∉ numeral.point := by
    cases hfraction : numeral.fraction with
    | none => simp [hfraction]
    | some digits => simpa [hfraction] using hdigits (numeral.fractionDigits digits hfraction).2
  have hscale : '\n' ∉ numeral.scale := by
    cases hexponent : numeral.exponent with
    | none => simp [hexponent]
    | some exponent =>
        have hsign : '\n' ∉ exponent.sign := by
          rcases exponent.sign_cases with h | ⟨c, rfl | rfl, -, h⟩ <;> simp [h]
        have hletter : '\n' ≠ exponent.letter := by
          rcases exponent.isLetter with h | h <;> simp [h]
        simp [hexponent, Exponent.tail, hletter, hsign, hdigits exponent.allDigits]
  simp [written, hdigits numeral.wholeDigits, hpoint, hscale]

theorem value_eq_invalidNumber_iff (numeral : Numeral) :
    numeral.value = .error .invalidNumber ↔ ∃ exponent ∈ numeral.exponent, exponent.digits = [] := by
  unfold value
  cases hexponent : numeral.exponent with
  | none =>
      simp only [Option.any_none, Bool.false_eq_true, if_false]
      split_ifs <;> simp
  | some exponent =>
      by_cases hdigits : exponent.digits = []
      · simp [hdigits]
      · simp only [Option.any_some, List.isEmpty_iff, hdigits, if_false]
        split_ifs <;> simp [hdigits]

theorem small_real (numeral : Numeral) : numeral.small.real = numeral.real := by
  unfold real small
  cases numeral.exponent <;> rfl

end Numeral

/-! ## The number with which a line begins -/

namespace Lexeme

open Numeral (StopsDigits decimal)

variable {line : List Char}

theorem integerLiteral_eq (digits : List Char) :
    integerLiteral digits =
      if decimal digits ≤ 2 ^ 31 - 1 then ⟨.integer, digits, some (.integer (decimal digits))⟩
      else invalid digits .integerOutOfRange := by
  rw [integerLiteral, Numeral.digitsValue_eq_decimal]
  rfl

theorem realLiteral_eq (numeral : Numeral) (hdigits : ∀ exponent ∈ numeral.exponent, exponent.digits ≠ []) :
    realLiteral numeral.small.written =
      if numeral.real.isFinite then ⟨.real, numeral.small.written, some (.real numeral.real)⟩
      else invalid numeral.small.written .realOutOfRange := by
  have hread := numeral.small.ofText?_written (by simpa [Numeral.small] using hdigits)
  rw [realLiteral, hread, numeral.small_real]

theorem lexeme_of_missing {numeral : Numeral} {exponent : Numeral.Exponent}
    (hexponent : numeral.exponent = some exponent) (hmissing : exponent.digits = []) :
    numeral.lexeme = invalid numeral.small.written .invalidNumber := by
  simp [Numeral.lexeme, Numeral.value, hexponent, hmissing, invalid, TokenValue.kind]

theorem lexeme_of_real {numeral : Numeral} (hreal : numeral.fraction.isSome || numeral.exponent.isSome)
    (hdigits : ∀ exponent ∈ numeral.exponent, exponent.digits ≠ []) :
    numeral.lexeme = realLiteral numeral.small.written := by
  have hnone : (numeral.exponent.any fun exponent => exponent.digits.isEmpty) = false := by
    cases hexponent : numeral.exponent with
    | none => rfl
    | some exponent => simpa using hdigits exponent hexponent
  rw [realLiteral_eq numeral hdigits, Numeral.lexeme, Numeral.value, hnone, if_neg Bool.false_ne_true, if_pos hreal]
  split <;> rfl

theorem lexeme_of_integer {numeral : Numeral} (hfraction : numeral.fraction = none)
    (hexponent : numeral.exponent = none) : numeral.lexeme = integerLiteral numeral.whole := by
  have hwritten : numeral.small.written = numeral.whole := by
    simp [Numeral.written, Numeral.small, Numeral.point, Numeral.scale, hfraction, hexponent]
  rw [integerLiteral_eq, Numeral.lexeme, Numeral.value, hwritten]
  simp only [hfraction, hexponent, Option.any_none, Option.isSome_none, Bool.or_false, Bool.false_eq_true, if_false]
  split <;> rfl

/-- What stands in the parts of a line that a number can have decides what number it is. -/
theorem number_eq_lexeme {numeral : Numeral} (hwhole : whole line = numeral.whole)
    (hpoint : afterPoint line = numeral.point)
    (hexponent : exponent (line.drop (mantissa line).length) =
      numeral.exponent.map fun exponent => ('e' :: exponent.sign, exponent.digits)) :
    number line = numeral.lexeme := by
  have hwritten : numeral.small.written = numeral.whole ++ (numeral.point ++ numeral.small.scale) := rfl
  rw [number_eq, hexponent, mantissa, hwhole, hpoint]
  cases hscale : numeral.exponent with
  | none =>
      have hsmall : numeral.small.scale = [] := by simp [Numeral.small, Numeral.scale, hscale]
      rw [hsmall, List.append_nil] at hwritten
      cases hfraction : numeral.fraction with
      | none => simp [hfraction, lexeme_of_integer hfraction hscale]
      | some digits =>
          have hreal : numeral.lexeme = _ := lexeme_of_real (by simp [hfraction]) (by simp [hscale])
          rw [hreal, hwritten]
          simp [hfraction]
  | some exponent =>
      have hsmall : numeral.small.scale = 'e' :: exponent.tail := by simp [Numeral.small, Numeral.scale, hscale]; rfl
      have htext : numeral.whole ++ numeral.point ++ 'e' :: exponent.sign ++ exponent.digits =
          numeral.small.written := by
        simp [hwritten, hsmall, Numeral.Exponent.tail]
      simp only [Option.map_some, htext]
      by_cases hdigits : exponent.digits = []
      · simp [hdigits, lexeme_of_missing hscale hdigits]
      · have hreal : numeral.lexeme = _ := lexeme_of_real (by simp [hscale]) (by simpa [hscale] using hdigits)
        simp [hdigits, hreal]

theorem stopsDigits_dropWhile (line : List Char) : StopsDigits (line.dropWhile Char.isDigit) := by
  intro c hc
  have hhead := List.head?_dropWhile_not Char.isDigit line
  rw [Option.mem_def.mp hc] at hhead
  exact hhead

/-- A fraction is missing only where there is no point with a digit after it. -/
theorem exists_fraction (hstops : StopsDigits line) :
    ∃ fraction' : Option (List Char), fraction line = fraction'.elim [] ('.' :: ·) ∧
      (∀ digits ∈ fraction', digits ≠ [] ∧ digits.all Char.isDigit = true) ∧
      (fraction' = none → ∀ more, line = '.' :: more → StopsDigits more) ∧
        StopsDigits (line.drop (fraction line).length) := by
  rcases fraction_cases line with hnone | ⟨rest, digits, rfl, rfl, hne, hsome⟩
  · refine ⟨none, hnone, by simp, fun _ more hline => ?_, by simpa [hnone] using hstops⟩
    subst hline
    have hdigits : more.takeWhile Char.isDigit = [] := by
      by_contra hne
      simp [fraction, hne] at hnone
    have hdrop := List.takeWhile_append_dropWhile (p := Char.isDigit) (l := more)
    rw [hdigits, List.nil_append] at hdrop
    exact hdrop ▸ stopsDigits_dropWhile more
  · refine ⟨some (rest.takeWhile Char.isDigit), hsome, ?_, by simp, ?_⟩
    · intro digits hdigits
      obtain rfl := Option.some.inj hdigits
      exact ⟨hne, List.all_takeWhile⟩
    · rw [hsome, List.length_cons, List.drop_succ_cons]
      exact drop_length_whole rest ▸ stopsDigits_dropWhile rest

/-- An exponent is missing only where there is no letter of one. -/
theorem exists_exponent (hstops : StopsDigits line) :
    ∃ (exponent' : Option Numeral.Exponent) (rest : List Char),
      line = (exponent'.elim [] fun exponent => exponent.letter :: exponent.tail) ++ rest ∧
      exponent line = exponent'.map (fun exponent => ('e' :: exponent.sign, exponent.digits)) ∧
      StopsDigits rest ∧ (exponent' = none → ∀ c ∈ rest.head?, c ≠ 'e' ∧ c ≠ 'E') ∧
        ∀ exponent ∈ exponent', exponent.tail = [] → ∀ c ∈ rest.head?, c ≠ '+' ∧ c ≠ '-' := by
  rcases line with _ | ⟨letter, rest⟩
  · exact ⟨none, [], rfl, rfl, hstops, by simp, by simp⟩
  by_cases hletter : letter = 'e' ∨ letter = 'E'
  · have htail (digits : List Char) : digits.takeWhile Char.isDigit ++ digits.dropWhile Char.isDigit = digits :=
      List.takeWhile_append_dropWhile
    by_cases hsign : ∃ c digits, (c = '+' ∨ c = '-') ∧ rest = c :: digits
    · obtain ⟨c, digits, hc, rfl⟩ := hsign
      refine ⟨some ⟨letter, [c], digits.takeWhile Char.isDigit, hletter, by simpa using hc, List.all_takeWhile⟩,
        digits.dropWhile Char.isDigit, by simp [Numeral.Exponent.tail, htail], ?_,
        stopsDigits_dropWhile digits, by simp, ?_⟩
      · rcases hc with rfl | rfl <;> simp [exponent, hletter]
      · rintro _ ⟨⟩ hnone
        simp [Numeral.Exponent.tail] at hnone
    · refine ⟨some ⟨letter, [], rest.takeWhile Char.isDigit, hletter, by simp, List.all_takeWhile⟩,
        rest.dropWhile Char.isDigit, by simp [Numeral.Exponent.tail, htail], ?_,
        stopsDigits_dropWhile rest, by simp, ?_⟩
      · rcases rest with _ | ⟨c, rest⟩
        · simp [exponent, hletter]
        · have hplus : c ≠ '+' := fun h => hsign ⟨c, rest, .inl h, rfl⟩
          have hminus : c ≠ '-' := fun h => hsign ⟨c, rest, .inr h, rfl⟩
          simp [exponent, hletter, hplus, hminus]
      · rintro _ ⟨⟩ hnone c hc
        have hrest := htail rest
        rw [show rest.takeWhile Char.isDigit = [] from hnone, List.nil_append] at hrest
        rw [hrest] at hc
        obtain ⟨digits, hcons⟩ := List.head?_eq_some_iff.mp hc
        exact not_or.mp fun h => hsign ⟨c, digits, h, hcons⟩
  · refine ⟨none, letter :: rest, rfl, by simp [exponent, not_or.mp hletter], hstops, fun _ c hc => ?_, by simp⟩
    obtain rfl : letter = c := by simpa using hc
    exact not_or.mp hletter

/-- A number ends where the line does not go on with it, and what the line begins with is the lexeme of the
number. -/
theorem exists_numeral {first : Char} (hdigit : first.isDigit = true) (line : List Char) :
    ∃ (numeral : Numeral) (rest : List Char), first :: line = numeral.written ++ rest ∧ numeral.Ends rest ∧
      first? (first :: line) = some numeral.lexeme := by
  have hword : startsWord first = false := by
    have hall : ∀ c, continuesWord c = true → c.isDigit = true → startsWord c = false :=
      forall_continuesWord (by decide)
    exact hall first (by simp [continuesWord, Char.isAlphanum, hdigit]) hdigit
  have hfirst : first? (first :: line) = some (number (first :: line)) := by simp [first?, hword, hdigit]
  have hwhole : whole (first :: line) ≠ [] := by simp [whole, hdigit]
  generalize first :: line = text at hfirst hwhole ⊢
  have hdropped : (text.dropWhile Char.isDigit).drop (afterPoint text).length =
      text.drop (mantissa text).length := by
    rw [← drop_length_whole, List.drop_drop, mantissa, List.length_append]
  obtain ⟨fraction', hpoint, hfraction, hnoPoint, hstops⟩ := exists_fraction (stopsDigits_dropWhile text)
  change afterPoint text = _ at hpoint
  change StopsDigits ((text.dropWhile Char.isDigit).drop (afterPoint text).length) at hstops
  rw [hdropped] at hstops
  obtain ⟨exponent', rest, hrest, hexponent, hnoDigit, hnoLetter, hnoSign⟩ := exists_exponent hstops
  let numeral : Numeral := ⟨whole text, fraction', exponent', hwhole, List.all_takeWhile, hfraction⟩
  refine ⟨numeral, rest, ?_, ⟨hnoDigit, fun hnone hnone' more hmore => ?_, hnoLetter, hnoSign⟩, ?_⟩
  · have hline := List.prefix_iff_eq_append.mp (prefix_mantissa text)
    rw [hrest, mantissa, hpoint] at hline
    rw [← hline]
    simp [Numeral.written, Numeral.point, Numeral.scale, numeral]
  · have hnone : exponent' = none := hnone
    have hnone' : fraction' = none := hnone'
    rw [hpoint, hnone', hrest, hnone] at hdropped
    exact hnoPoint hnone' more (hdropped.trans hmore)
  · have hnumber : number text = numeral.lexeme := number_eq_lexeme rfl hpoint hexponent
    rw [hfirst, hnumber]

end Lexeme

/-! ## The answer -/

/-- **Where a line goes on with a digit, the scanner takes the longest piece of the line that is a number**, and
answers with what the number denotes, or with the reason why it denotes nothing.  The number is malformed just if it
has an exponent without digits, and zeros in front of its digits make no difference. -/
theorem Scanner.next_numeral {place : Scanner} {first : Char} {line : List Char} (hdigit : first.isDigit = true)
    (hafter : place.after = first :: (line ++ ['\n'])) :
    ∃ (numeral : Numeral) (rest : List Char) (token : Token), place.Answers numeral.written rest token ∧
      token.kind = numeral.value.kind ∧ token.text = String.ofList numeral.small.written ∧
      token.value = some numeral.value ∧
      (∀ other : Numeral, other.written <+: place.after → other.written <+: numeral.written) ∧
      (numeral.value = .error .invalidNumber ↔ ∃ exponent ∈ numeral.exponent, exponent.digits = []) ∧
        ∀ count digits, numeral.whole = List.replicate count '0' ++ digits →
          Numeral.decimal numeral.whole = Numeral.decimal digits := by
  obtain ⟨numeral, rest, hline, hends, hfirst⟩ := Lexeme.exists_numeral hdigit (line ++ ['\n'])
  rw [← hafter] at hline hfirst
  have hskip : place.skip = (.ok (), place) := by
    refine Scanner.skip_eq_self hafter ?_ ?_ ?_
    · by_contra hblank
      simp [Lexeme.isDigit_of_isBlank (Bool.eq_true_of_not_eq_false hblank)] at hdigit
    all_goals
      rintro rfl
      simp at hdigit
  -- what is left after the number ends in the line feed, which is no part of it
  have hrest : rest ≠ [] := by
    rintro rfl
    refine numeral.lineFeed_not_mem_written ?_
    rw [List.append_nil] at hline
    simp [← hline, hafter]
  have hanswers := answers_of_first? hskip hfirst hline hrest numeral.length_small_written
  exact ⟨numeral, rest, _, hanswers, rfl, rfl, rfl,
    fun other hother => Numeral.prefix_of_ends hends (hline ▸ hother), numeral.value_eq_invalidNumber_iff,
    fun count digits hzeros => hzeros ▸ Numeral.decimal_zeros count digits⟩

/-- An exponent is taken even if no digit follows its sign. -/
theorem Scanner.next_numeral_malformed :
    let place : Scanner := { feed := ⟨[], none⟩, lineNumber := 1, after := "1.5E+x\n".toList }
    '1'.isDigit = true ∧ place.after = '1' :: (".5E+x".toList ++ ['\n']) ∧
      ∃ numeral : Numeral, numeral.written = "1.5E+".toList ∧
        (∃ exponent ∈ numeral.exponent, exponent.digits = []) ∧
          place.Answers numeral.written "x\n".toList ⟨.error, "1.5e+", ⟨1, 1⟩, some (.error .invalidNumber)⟩ := by
  intro place
  have hafter : place.after = '1' :: (".5E+x".toList ++ ['\n']) := by decide
  obtain ⟨numeral, rest, token, hanswers, -, -, hvalue, -, hinvalid, -⟩ := next_numeral (by decide) hafter
  obtain ⟨htoken, hrest⟩ : place.next.1 = .ok ⟨.error, "1.5e+", ⟨1, 1⟩, some (.error .invalidNumber)⟩ ∧
      place.next.2.after = "x\n".toList := by decide +kernel
  rw [hanswers.next] at htoken hrest
  obtain rfl := Except.ok.inj htoken
  obtain rfl : rest = "x\n".toList := hrest
  have hwritten : numeral.written = "1.5E+".toList := by
    refine List.append_cancel_right (hanswers.line.symm.trans ?_)
    decide
  exact ⟨by decide, hafter, numeral, hwritten, hinvalid.mp (Option.some.inj hvalue).symm, hanswers⟩

end FrontEnd
