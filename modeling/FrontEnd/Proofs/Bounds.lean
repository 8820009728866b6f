import FrontEnd.Proofs.Order.Routine
import FrontEnd.Proofs.Slice
import Mathlib.Algebra.Group.Int.Defs
import Mathlib.Algebra.Group.Nat.Defs

/-!
# The range of integers

No integer leaves the range of 32 bits with a sign, whatever a source contains (`integers_inRange`): the scanner takes
a number beyond it for an error, a sign in front of a constant only reflects the range, and everything else copies
integers from tokens and constants.

So no product of a sign and the number after it is too large for 64 bits, and it is this product that the value of
a constant is (`Production.constantValue_eq_product`).
-/

namespace FrontEnd

open TokenStream (tokensOf)

/-! ## Tokens -/

namespace Lexeme

variable {line : List Char}

/-- A number that is an integer denotes one. -/
theorem value_of_number (hkind : (number line).kind = .integer) :
    ∃ value, (number line).value = some (.integer value) := by
  have hreal (text : List Char) : (realLiteral text).kind ≠ .integer :=
    ne_of_mem_of_not_mem (realLiteral_kind text) (by decide)
  have hinteger (digits : List Char) (hkind : (integerLiteral digits).kind = .integer) :
      ∃ value, (integerLiteral digits).value = some (.integer value) := by
    unfold integerLiteral at hkind ⊢
    dsimp only at hkind ⊢
    split at hkind
    · next hfits => exact ⟨_, by rw [if_pos hfits]⟩
    · cases hkind
  rw [number_eq] at hkind ⊢
  split at hkind
  · split at hkind
    · cases hkind
    · exact absurd hkind (hreal _)
  · split at hkind
    · next hempty =>
        rw [if_pos hempty]
        exact hinteger _ hkind
    · exact absurd hkind (hreal _)

/-- Of what a line can begin with, only numbers are integers. -/
theorem value_of_kind_integer {lexeme : Lexeme} (h : first? line = some lexeme) (hkind : lexeme.kind = .integer) :
    ∃ value, lexeme.value = some (.integer value) := by
  have hnever {kinds : List TokenKind} (hmem : lexeme.kind ∈ kinds) (hkinds : .integer ∉ kinds) :
      ∃ value, lexeme.value = some (.integer value) :=
    absurd (hkind ▸ hmem) hkinds
  unfold first? at h
  split at h
  · simp at h
  · split_ifs at h
    · obtain rfl := Option.some.inj h
      exact hnever (word_kind _) (by decide)
    · obtain rfl := Option.some.inj h
      exact value_of_number hkind
    · obtain rfl := Option.some.inj h
      exact hnever (character_kind _) (by decide)
    · obtain rfl := Option.some.inj h
      exact hnever (stringFrom_kind _ _ _) (by decide)
    · split at h
      · next hsymbol =>
          obtain rfl := Option.some.inj h
          exact hnever (symbol?_kind hsymbol) (by decide)
      · obtain rfl := Option.some.inj h
        cases hkind

end Lexeme

/-- A token for an integer denotes one, which is neither negative nor too large. -/
theorem Scanner.integer_stream (feed : LineFeed) {token : Token} (h : .ok token ∈ (stream feed).events)
    (hkind : token.kind = .integer) :
    ∃ value, token.value = some (.integer value) ∧ 0 ≤ value ∧ InRange value := by
  refine @stream_of_first (fun token => token.kind = .integer →
    ∃ value, token.value = some (.integer value) ∧ 0 ≤ value ∧ InRange value) ?_ ?_ feed token h hkind
  · exact fun _ => nofun
  · intro line lexeme hlexeme text location hkind
    obtain ⟨value, hvalue⟩ := Lexeme.value_of_kind_integer hlexeme hkind
    exact ⟨value, hvalue, Lexeme.integer_of_first hlexeme hvalue⟩

/-! ## Signs -/

/-- The factor that a sign stands for; what is no sign stands for none. -/
def TokenKind.signFactor : TokenKind → Int
  | minus => -1
  | _ => 1

theorem TokenKind.signFactor_of_ne {kind : TokenKind} (h : kind ≠ .minus) : kind.signFactor = 1 := by
  unfold signFactor
  split
  · exact absurd rfl h
  · rfl

/-- The product of a sign and a number in range is in range. -/
theorem InRange.signFactor_mul {value : Int} (h : InRange value) (kind : TokenKind) :
    InRange (kind.signFactor * value) := by
  unfold TokenKind.signFactor
  split
  · rw [Int.neg_one_mul]
    exact h.neg
  · rwa [Int.one_mul]

theorem InRange.bounds {value : Int} (h : InRange value) : -(2 ^ 31 - 1) ≤ value ∧ value ≤ 2 ^ 31 - 1 := by
  have hlargest : value.natAbs ≤ 2147483647 := h
  omega

namespace Production

variable {session : Session}

/-- A constant that is an integer is the product of its sign and the integer that is written after it. -/
theorem signedConstant?_eq_product {sign : Option TokenKind} {written : Option TokenValue} {value : Int}
    (h : signedConstant? sign written = some (.integer value)) :
    ∃ number, written = some (.integer number) ∧ value = (sign.elim 1 TokenKind.signFactor) * number := by
  unfold signedConstant? at h
  split at h
  case h_1 number =>
    obtain rfl : -number = value := by simpa using h
    exact ⟨number, rfl, (Int.neg_one_mul number).symm⟩
  case h_3 number hminus =>
    obtain rfl : number = value := by simpa using h
    refine ⟨number, rfl, ?_⟩
    have hfactor : sign.elim 1 TokenKind.signFactor = 1 := by
      cases sign with
      | none => rfl
      | some kind =>
          exact TokenKind.signFactor_of_ne fun heq => hminus (heq ▸ rfl)
    rw [hfactor, Int.one_mul]
  all_goals simp at h

/-- The sign is the one at the current token, and what is read next is still ahead. -/
theorem leads_optionalSign (session : Session) :
    Leads optionalSign session (fun _ => True) fun sign later =>
      sign.elim 1 TokenKind.signFactor = session.cursor.current.kind.signFactor ∧
        later.cursor.unread <:+ session.cursor.unread := by
  unfold optionalSign matchAny
  rw [leads_bind, leads_currentKind, leads_bind, leads_bind, leads_currentKind]
  split
  · refine Leads.bind (passes_nextToken session) fun _ later ⟨_, _, _, hpasses⟩ => ?_
    exact ⟨rfl, hpasses.unread ▸ List.suffix_append _ _⟩
  · next hsign =>
      have hminus : session.cursor.current.kind ≠ .minus := fun hkind => hsign (by rw [hkind]; rfl)
      exact ⟨(TokenKind.signFactor_of_ne hminus).symm, List.suffix_refl _⟩

/-- **The value of a constant is a product**: that of the sign at the current token, if there is one, and the
integer of a token from there on. -/
theorem constantValue_eq_product {value : Int} {later : Session}
    (h : constantValue session = .ok (some (.integer value), later)) :
    ∃ token ∈ session.cursor.unread, ∃ number, token.value = some (.integer number) ∧
      value = session.cursor.current.kind.signFactor * number := by
  have hleads : Leads constantValue session (fun _ => True) fun found _ => found = some (.integer value) →
      ∃ token ∈ session.cursor.unread, ∃ number, token.value = some (.integer number) ∧
        value = session.cursor.current.kind.signFactor * number := by
    unfold constantValue
    refine Leads.bind (leads_optionalSign session) fun sign signed ⟨hfactor, hunread⟩ => ?_
    rw [leads_bind, leads_current]
    refine Leads.bind (leads_run _ _) fun _ checked _ => ?_
    refine Leads.bind (leads_run _ _) fun _ later _ hfound => ?_
    obtain ⟨number, hnumber, hproduct⟩ := signedConstant?_eq_product hfound
    exact ⟨signed.cursor.current, hunread.subset (List.mem_cons_self ..), number, hnumber, hfactor ▸ hproduct⟩
  exact (leads_of_ok h).mp hleads rfl

end Production

/-! ## Everything that is compiled -/

theorem DataType.InRange.count_le {element : Scalar} {count : Nat} (h : (DataType.array element count).InRange) :
    count ≤ 2 ^ 31 - 1 :=
  h

/-- Neither an entry nor a node of a tree has an integer that is out of range. -/
theorem compile_inRange {feed : LineFeed} {unit : CompilationUnit} (h : compile (Scanner.stream feed) = .ok unit)
    (id : EntryId) :
    (∀ constant, (unit.table.entry id).definition = .constant constant → constant.InRange) ∧
    (∀ type, (unit.table.entry id).type = some type → type.InRange) ∧
    ∀ body ∈ (unit.table.entry id).body?, ∀ node ∈ body.nodes,
      (node.kind = .integerConstant → ∃ value, node.value = some (.integer value) ∧ InRange value) ∧
      (node.kind ≠ .stringConstant → node.type.InRange) := by
  obtain ⟨later, hordered, hunit⟩ := compile_ordered h
  rw [hunit]
  have hplaced := hordered.entries id
  refine ⟨hplaced.constant, hplaced.type, fun body hbody node hnode => ?_⟩
  exact ⟨(hplaced.body body hbody node hnode).integer, (hplaced.body body hbody node hnode).type⟩

/-- **No integer is out of range**, whatever a source contains: neither that of a token, nor the product that is the
value of a constant, nor that of an entry or a node, nor the number of the elements of an array; only a string
literal counts its own characters.  What a session can be reading is the end of the list of the tokens of the source. -/
theorem integers_inRange (feed : LineFeed) :
    (∀ token, .ok token ∈ (Scanner.stream feed).events → token.kind = .integer →
      ∃ value, token.value = some (.integer value) ∧ 0 ≤ value ∧ value ≤ 2 ^ 31 - 1) ∧
    (∀ token ∈ tokensOf ((Scanner.stream feed).answers 0), ∀ number, token.value = some (.integer number) →
      ∀ sign : TokenKind, -2 ^ 63 ≤ sign.signFactor * number ∧ sign.signFactor * number < 2 ^ 63) ∧
    (∀ session later value, session.cursor.unread <:+ tokensOf ((Scanner.stream feed).answers 0) →
      Production.constantValue session = .ok (some (.integer value), later) →
      ∃ token ∈ tokensOf ((Scanner.stream feed).answers 0), ∃ number, token.value = some (.integer number) ∧
        value = session.cursor.current.kind.signFactor * number ∧ -(2 ^ 31 - 1) ≤ value ∧ value ≤ 2 ^ 31 - 1) ∧
    ∀ unit, compile (Scanner.stream feed) = .ok unit → ∀ id,
      (∀ value, (unit.table.entry id).definition = .constant (.integer value) →
        -(2 ^ 31 - 1) ≤ value ∧ value ≤ 2 ^ 31 - 1) ∧
      (∀ element count, (unit.table.entry id).type = some (.array element count) → count ≤ 2 ^ 31 - 1) ∧
      ∀ body ∈ (unit.table.entry id).body?, ∀ node ∈ body.nodes,
        (node.kind = .integerConstant →
          ∃ value, node.value = some (.integer value) ∧ -(2 ^ 31 - 1) ≤ value ∧ value ≤ 2 ^ 31 - 1) ∧
        (node.kind ≠ .stringConstant → ∀ element count, node.type = .array element count →
          count ≤ 2 ^ 31 - 1) := by
  have hscanned := Scanner.scanned_stream feed
  refine ⟨fun token hmem hkind => ?_, fun token hmem number hvalue sign => ?_,
    fun session later value hunread hrun => ?_, fun unit h id => ?_⟩
  · obtain ⟨value, hvalue, hpositive, hrange⟩ := Scanner.integer_stream feed hmem hkind
    exact ⟨value, hvalue, hpositive, hrange.bounds.2⟩
  · have hproduct := ((hscanned.integer token hmem number hvalue).2.signFactor_mul sign).bounds
    exact ⟨by omega, by omega⟩
  · obtain ⟨token, hmem, number, hvalue, rfl⟩ := Production.constantValue_eq_product hrun
    have hsource := hunread.subset hmem
    exact ⟨token, hsource, number, hvalue, rfl,
      ((hscanned.integer token hsource number hvalue).2.signFactor_mul _).bounds⟩
  · obtain ⟨hconstant, htype, hnodes⟩ := compile_inRange h id
    refine ⟨fun value hvalue => ?_, fun element count harray => (htype _ harray).count_le,
      fun body hbody node hnode => ?_⟩
    · have hrange : InRange value := hconstant _ hvalue
      exact hrange.bounds
    · obtain ⟨hinteger, hnodeType⟩ := hnodes body hbody node hnode
      refine ⟨fun hkind => ?_, fun hkind element count harray => ?_⟩
      · obtain ⟨value, hvalue, hrange⟩ := hinteger hkind
        exact ⟨value, hvalue, hrange.bounds⟩
      · have hrange := hnodeType hkind
        rw [harray] at hrange
        exact hrange.count_le

/-- The smallest constant, which is copied into a tree, and an array. -/
theorem integers_inRange_constants :
    ∃ unit, compileText "const c = -2147483647; typedef int t[7]; void p() \x7b int x; x = c; \x7d" = .ok unit ∧
      (∃ id ∈ unit.entriesNamed "c", (unit.table.entry id).definition = .constant (.integer (-2147483647)) ∧
        -(2 ^ 31 - 1) ≤ (-2147483647 : Int)) ∧
      (∃ id ∈ unit.entriesNamed "t", (unit.table.entry id).type = some (.array .int 7) ∧ 7 ≤ 2 ^ 31 - 1) ∧
      ∃ id ∈ unit.entriesNamed "p", ∃ body ∈ (unit.table.entry id).body?, ∃ node ∈ body.nodes,
        node.kind = .integerConstant ∧ node.value = some (.integer (-2147483647)) ∧
          ∃ value, node.value = some (.integer value) ∧ -(2 ^ 31 - 1) ≤ value := by
  have hcompiled : ∃ unit, compileText "const c = -2147483647; typedef int t[7]; void p() \x7b int x; x = c; \x7d" =
      .ok unit ∧
      ((∃ id ∈ unit.entriesNamed "c",
          (unit.table.entry id).definition.constant? = some (.integer (-2147483647))) ∧
        (∃ id ∈ unit.entriesNamed "t", (unit.table.entry id).type = some (.array .int 7)) ∧
        ∃ id ∈ unit.entriesNamed "p", ∃ body ∈ (unit.table.entry id).body?, ∃ node ∈ body.nodes,
          node.kind = .integerConstant ∧ node.value = some (.integer (-2147483647))) :=
    exists_compiled (by decide +kernel)
  obtain ⟨unit, hunit, ⟨c, hc, hconstant⟩, ⟨t, ht, htype⟩, p, hp, body, hbody, node, hnode, hkind, hvalue⟩ :=
    hcompiled
  have hdefinition : (unit.table.entry c).definition = .constant (.integer (-2147483647)) := by
    unfold Definition.constant? at hconstant
    split at hconstant
    · next heq => rw [heq, Option.some.inj hconstant]
    · cases hconstant
  have hinRange := (integers_inRange (.ofText
    "const c = -2147483647; typedef int t[7]; void p() \x7b int x; x = c; \x7d")).2.2.2 unit hunit
  obtain ⟨value, hnodeValue, hlower, -⟩ := ((hinRange p).2.2 body hbody node hnode).1 hkind
  exact ⟨unit, hunit, ⟨c, hc, hdefinition, ((hinRange c).1 _ hdefinition).1⟩,
    ⟨t, ht, htype, (hinRange t).2.1 _ _ htype⟩, p, hp, body, hbody, node, hnode, hkind, hvalue, value, hnodeValue,
    hlower⟩

end FrontEnd
