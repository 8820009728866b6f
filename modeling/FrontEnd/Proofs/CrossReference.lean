import FrontEnd.Proofs.Ownership
import FrontEnd.Proofs.Wording
import FrontEnd.Symbol.CrossReference

/-!
# The cross-reference listing

The listing of a compiled unit goes through its scopes in the order in which they were opened, leaving out the global
one.  It names the owner of each, and lists the entries that the scope binds, each once, in the order of the bytes of
their names (`compile_crossReference`).  The line for an entry begins with its name, in a column of its own, and goes
on with the lines on which the name appears and with what it was declared as (`CrossReference.entryText`).  A scope is
anonymous just if it belongs to a header that leaves its routine declared forward and that another header of the same
routine supersedes.

## Strategy

The order of the code points of two texts is that of their bytes (`Text.bytes_lt`), since the more bytes a
character takes, the greater is the first of them.  No two entries of a scope have the same name, so that the order
by names is strict.  Who owns a scope is told by the calls of the production for routines (`History.hasOwners`).
-/

namespace FrontEnd

/-! ## The order of bytes -/

namespace Text

/-- The bytes of a text. -/
def bytes (text : String) : List UInt8 :=
  text.toUTF8.data.toList

theorem bytes_eq (text : String) : bytes text = text.toList.flatMap String.utf8EncodeChar := by
  rw [bytes, ← String.ofList_toList (s := text), String.toUTF8_eq_toByteArray, String.toByteArray_ofList,
    List.utf8Encode, List.toList_data_toByteArray, String.toList_ofList]

theorem toNat_ofNat {code : Nat} (h : code < 256) : (UInt8.ofNat code).toNat = code :=
  UInt8.toNat_ofNat_of_lt' h

/-- The bytes of a lesser character come first, whatever follows. -/
theorem encode_lt {c c' : Char} (h : c < c') (rest rest' : List UInt8) :
    String.utf8EncodeChar c ++ rest < String.utf8EncodeChar c' ++ rest' := by
  have hlt : c.val.toNat < c'.val.toNat := h
  have hlast : c'.val.toNat < 0x110000 := c'.valid.elim (fun h => Nat.lt_trans h (by decide)) And.right
  -- the parts of a code are digits to the base of 64
  have hparts (code : Nat) (hcode : code < 0x110000) : code / 64 / 64 = code / 4096 ∧
      code / 4096 / 64 = code / 262144 ∧ code / 262144 % 8 = code / 262144 :=
    ⟨Nat.div_div_eq_div_mul .., Nat.div_div_eq_div_mul .., Nat.mod_eq_of_lt (by omega)⟩
  obtain ⟨hsecond, hthird, hfourth⟩ := hparts c.val.toNat (Nat.lt_trans hlt hlast)
  obtain ⟨hsecond', hthird', hfourth'⟩ := hparts c'.val.toNat hlast
  simp only [String.utf8EncodeChar]
  split_ifs <;>
    simp (disch := omega) only [List.cons_append, List.nil_append, List.cons_lt_cons_iff, UInt8.lt_iff_toNat_lt,
      ← UInt8.toNat_inj, toNat_ofNat]
  all_goals omega

theorem flatMap_encode_lt {text text' : List Char} (h : text < text') :
    text.flatMap String.utf8EncodeChar < text'.flatMap String.utf8EncodeChar := by
  induction text generalizing text' with
  | nil =>
      rcases text' with _ | ⟨c', text'⟩
      · exact absurd h (List.lt_irrefl [])
      · rw [List.flatMap_nil, List.flatMap_cons]
        obtain ⟨first, others, hbytes⟩ := List.exists_cons_of_ne_nil (@String.utf8EncodeChar_ne_nil c')
        rw [hbytes]
        exact List.nil_lt_cons _ _
  | cons c text ih =>
      rcases text' with _ | ⟨c', text'⟩
      · simp at h
      · rw [List.flatMap_cons, List.flatMap_cons]
        rcases List.cons_lt_cons_iff.mp h with hlt | ⟨rfl, hlt⟩
        · exact encode_lt hlt _ _
        · exact List.append_left_lt (ih hlt)

/-- The order of texts by their code points is that by their bytes. -/
theorem bytes_lt {text text' : String} (h : text < text') : bytes text < bytes text' := by
  rw [bytes_eq, bytes_eq]
  exact flatMap_encode_lt h

end Text

/-! ## Headings -/

/-- The entries that a scope binds, in the order of their names. -/
def SymbolTable.alphabetical (table : SymbolTable) (scope : ScopeId) : List EntryId :=
  (table.scope scope).entries.mergeSort fun id other => decide ((table.entry id).name ≤ (table.entry other).name)

namespace CrossReference

/-- What the heading of a scope says, given the level of the scope and what is said of its owner. -/
def headingText (level : Nat) (owner : String) : String :=
  "===== SCOPE level " ++ toString level ++ " (" ++ owner ++ ") ====="

/-- What is said of the owner of a scope, if it has one. -/
def ownerText (table : SymbolTable) : Option EntryId → String
  | some owner => (table.entry owner).name
  | none => "<anonymous>"

theorem heading_eq (table : SymbolTable) (scope : ScopeId) :
    heading table scope = headingText (table.scope scope).level (ownerText table (table.scopeOwner scope)) :=
  rfl

theorem headingText_inj {level : Nat} {owner owner' : String}
    (h : headingText level owner = headingText level owner') : owner = owner' := by
  unfold headingText at h
  exact (String.append_right_inj _).mp ((String.append_left_inj _).mp h)

/-! ## The line for an entry -/

/-- A text with as many blanks after it as there is room for in a column. -/
def column (width : Nat) (text : List Char) : List Char :=
  text ++ List.replicate (width - text.length) ' '

/-- A number with three digits, or with as many as it takes. -/
def threeDigits (number : Nat) : List Char :=
  List.replicate (3 - (Nat.toDigits 10 number).length) '0' ++ Nat.toDigits 10 number

/-- What a line of the listing says of an entry: two blanks, the name and the lines on which it appears, each in a
column, and the kind; then the type, the slot, the value of a constant and the stage of a routine, as far as the
entry has them. -/
def entryText (entry : Entry) : List Char :=
  [' ', ' '] ++ column 16 entry.name.toList ++
    [' '] ++ column 24 ([' '].intercalate (entry.lines.map threeDigits)) ++
    [' '] ++ entry.kind.name.toList ++
    (entry.type.elim [] fun type => [' ', ':', ' '] ++ type.text.toList) ++
    (entry.definition.slot?.elim [] fun slot => [' ', '[', 's', 'l', 'o', 't', ' '] ++ Nat.toDigits 10 slot ++ [']']) ++
    (entry.definition.constant?.elim [] fun value => [' ', '=', ' '] ++ value.text.toList) ++
    ((entry.routine?.bind Routine.stage).elim [] fun stage => [' ', '('] ++ stage.name.toList ++ [')'])

theorem toList_entryLine (entry : Entry) : (entryLine entry).toList = entryText entry := by
  have hnumber (number : Nat) : (Text.padZeros 3 number).toList = threeDigits number := by
    simp [Text.padZeros, threeDigits, ← String.length_toList]
  have hcolumn (width : Nat) (text : String) : (Text.padRight width text).toList = column width text.toList := by
    simp [Text.padRight, column, ← String.length_toList]
  have hnumbers : (" ".intercalate (entry.lines.map (Text.padZeros 3))).toList =
      [' '].intercalate (entry.lines.map threeDigits) := by
    simp [Function.comp_def, hnumber]
  unfold entryLine entryText
  cases entry.type <;> cases entry.definition.slot? <;> cases entry.definition.constant? <;>
    cases entry.routine?.bind Routine.stage <;>
      simp [hcolumn, hnumbers, nameWidth, linesWidth]

/-- The name with which a line begins after two blanks. -/
def nameShown (line : List Char) : List Char :=
  (line.drop 2).takeWhile fun c => c != ' '

/-- A name without a blank in it can be read off the line. -/
theorem nameShown_entryText {entry : Entry} (h : ' ' ∉ entry.name.toList) :
    nameShown (entryText entry) = entry.name.toList := by
  have hplain : ∀ c ∈ entry.name.toList, (c != ' ') = true := fun c hc => by
    rw [bne_iff_ne]
    rintro rfl
    exact h hc
  have hstop (width : Nat) (rest : List Char) :
      (List.replicate width ' ' ++ ' ' :: rest).takeWhile (fun c => c != ' ') = [] := by
    cases width <;> rfl
  simp only [nameShown, entryText, column, List.append_assoc, List.cons_append, List.nil_append, List.drop_succ_cons,
    List.drop_zero]
  rw [List.takeWhile_append_of_pos hplain, hstop, List.append_nil]

/-! ## The lines for a scope -/

theorem scopeLines_eq (table : SymbolTable) (scope : ScopeId) :
    scopeLines table scope = heading table scope ::
      if table.alphabetical scope = [] then ["  (empty)"]
      else (table.alphabetical scope).map fun id => String.ofList (entryText (table.entry id)) := by
  have hsorted : sortedByName ((table.scope scope).entries.map table.entry) =
      (table.alphabetical scope).map table.entry :=
    (List.map_mergeSort (f := table.entry) fun _ _ _ _ => rfl).symm
  have hempty : ((table.scope scope).entries.map table.entry).isEmpty = true ↔ table.alphabetical scope = [] := by
    rw [SymbolTable.alphabetical, List.isEmpty_iff, List.map_eq_nil_iff, ← List.length_eq_zero_iff,
      ← List.length_eq_zero_iff, List.length_mergeSort]
  have hline (entry : Entry) : entryLine entry = String.ofList (entryText entry) := by
    rw [← toList_entryLine, String.ofList_toList]
  simp only [scopeLines, hsorted, hempty, List.map_map, ← hline]
  rfl

end CrossReference

namespace SymbolTable

variable {table : SymbolTable} {scope : ScopeId}

/-- The names of what a scope binds ascend strictly. -/
theorem FiledAt.ascending (h : table.FiledAt scope) :
    (table.alphabetical scope).Pairwise fun id other => (table.entry id).name < (table.entry other).name := by
  have hperm : (table.alphabetical scope).Perm (table.scope scope).entries := List.mergeSort_perm _ _
  have hle : (table.alphabetical scope).Pairwise fun id other =>
      (table.entry id).name ≤ (table.entry other).name := by
    refine (List.pairwise_mergeSort ?_ ?_ _).imp fun hle => of_decide_eq_true hle
    · intro id other third hfirst hsecond
      exact decide_eq_true (String.le_trans (of_decide_eq_true hfirst) (of_decide_eq_true hsecond))
    · intro id other
      simpa using String.le_total (table.entry id).name (table.entry other).name
  have hne : (table.alphabetical scope).Pairwise (· ≠ ·) := hperm.nodup_iff.mpr h.entries
  -- an entry is known by its name
  refine (hle.and hne).imp_of_mem fun {id other} hid hother hboth => ?_
  by_contra hnot
  have hsame : (table.entry id).name = (table.entry other).name :=
    String.le_antisymm hboth.1 (String.not_lt.mp hnot)
  refine hboth.2 ?_
  have hmeaning := (h.meaning _ id).mpr ⟨hperm.mem_iff.mp hid, rfl⟩
  have hmeaning' := (h.meaning _ other).mpr ⟨hperm.mem_iff.mp hother, rfl⟩
  rw [hsame] at hmeaning
  exact Option.some.inj (hmeaning.symm.trans hmeaning')

end SymbolTable

/-! ## Units -/

open CrossReference

/-- Where no name has a blank in it, the names of the entries can be read off their lines. -/
theorem SymbolTable.Worded.nameShown_eq {table : SymbolTable} (h : table.Worded) (id : EntryId) :
    nameShown (entryText (table.entry id)) = (table.entry id).name.toList :=
  nameShown_entryText fun hblank => absurd (h id ' ' hblank) (by decide)

/-- What the listing of a unit says, given the calls of the production for routines: for each scope but the global
one, in the order in which they were opened, there is a heading, and then one line for each entry that the scope
binds, with its name and all else that is known about it, in the strict order of the bytes of their names, or that
there is none.  No entry stands in two scopes, and none that is detached stands in any.  The headings name the program
and then the routine of each call, but for one that is superseded. -/
structure CompilationUnit.HasCrossReference (unit : CompilationUnit) (calls : List Call) : Prop where
  owners : unit.HasOwners calls
  lines : listing unit.table = (List.range' 1 (1 + calls.length)).flatMap fun scope => heading unit.table scope ::
    if unit.table.alphabetical scope = [] then ["  (empty)"]
    else (unit.table.alphabetical scope).map fun id => String.ofList (entryText (unit.table.entry id))
  bound : ∀ scope, (unit.table.alphabetical scope).Perm (unit.table.scope scope).entries
  nodup : ∀ scope, (unit.table.alphabetical scope).Nodup
  ascending : ∀ scope, ((unit.table.alphabetical scope).map fun id =>
    Text.bytes (unit.table.entry id).name).Pairwise (· < ·)
  once : ∀ id scope other, id ∈ unit.table.alphabetical scope → id ∈ unit.table.alphabetical other →
    scope = other
  detached : ∀ id, ¬unit.table.Bound id → ∀ scope, id ∉ unit.table.alphabetical scope
  program : heading unit.table 1 = headingText 1 (unit.table.entry unit.program).name
  last : ∀ before call after, calls = before ++ call :: after → ¬call.Superseded after →
    heading unit.table (2 + before.length) = headingText 2 (unit.table.entry call.id).name
  superseded : ∀ before call after, calls = before ++ call :: after → call.Superseded after →
    heading unit.table (2 + before.length) = headingText 2 "<anonymous>"

namespace CompilationUnit.HasCrossReference

variable {unit : CompilationUnit} {calls : List Call}

/-- Where no name of an entry looks like it, a heading is anonymous just for a call that is superseded. -/
theorem heading_eq_anonymous_iff (h : unit.HasCrossReference calls) (hworded : unit.table.Worded) {scope : ScopeId}
    (hfirst : 1 ≤ scope) (hlast : scope < unit.table.scopes.size) :
    heading unit.table scope = headingText (unit.table.scope scope).level "<anonymous>" ↔
      ∃ before call after, calls = before ++ call :: after ∧ scope = 2 + before.length ∧
        call.Superseded after := by
  have hname (id : EntryId) : (unit.table.entry id).name ≠ "<anonymous>" := fun hsame =>
    absurd (hsame ▸ hworded id) (by decide)
  have howner : heading unit.table scope = headingText (unit.table.scope scope).level "<anonymous>" ↔
      unit.table.scopeOwner scope = none := by
    rw [heading_eq]
    constructor
    · intro hsame
      cases hsome : unit.table.scopeOwner scope with
      | none => rfl
      | some owner =>
          rw [hsome] at hsame
          exact absurd (headingText_inj hsame) (hname owner)
    · intro hnone
      rw [hnone]
      rfl
  rw [howner]
  constructor
  · intro hnone
    rcases h.owners.cases hfirst hlast with rfl | ⟨before, call, after, hcalls, rfl⟩
    · rw [h.owners.program] at hnone
      cases hnone
    · refine ⟨before, call, after, hcalls, rfl, ?_⟩
      by_contra hsuperseded
      rw [h.owners.last before call after hcalls hsuperseded] at hnone
      cases hnone
  · rintro ⟨before, call, after, hcalls, rfl, hsuperseded⟩
    exact h.owners.superseded before call after hcalls hsuperseded

end CompilationUnit.HasCrossReference

/-- The listing keeps to the scopes and their owners, and to the names in them, which are in order. -/
theorem CompilationUnit.HasOwners.hasCrossReference {unit : CompilationUnit} {calls : List Call} {home : ScopeId}
    (h : unit.HasOwners calls) (hkept : unit.table.Kept unit.program home) : unit.HasCrossReference calls := by
  have hfiled (scope : ScopeId) : unit.table.FiledAt scope := hkept.filed.filedAt hkept.laid scope
  have hbound (scope : ScopeId) : (unit.table.alphabetical scope).Perm (unit.table.scope scope).entries :=
    List.mergeSort_perm _ _
  constructor
  case owners => exact h
  case lines =>
    have hcount : 2 + calls.length - 1 = 1 + calls.length := by omega
    rw [listing, h.size, List.tail_range, hcount, funext (scopeLines_eq unit.table)]
  case bound => exact hbound
  case nodup => exact fun scope => (hbound scope).nodup_iff.mpr (hfiled scope).entries
  case ascending =>
    intro scope
    rw [List.pairwise_map]
    exact (hfiled scope).ascending.imp Text.bytes_lt
  case once =>
    intro id scope other hid hother
    have hscope := (hfiled scope).owned id ((hbound scope).mem_iff.mp hid)
    exact hscope.symm.trans ((hfiled other).owned id ((hbound other).mem_iff.mp hother))
  case detached =>
    intro id hdetached scope hmem
    exact hdetached ⟨scope, (hbound scope).mem_iff.mp hmem⟩
  case program =>
    rw [heading_eq, h.program, h.level]
    rfl
  case last =>
    intro before call after hcalls hsuperseded
    rw [heading_eq, h.last before call after hcalls hsuperseded, h.levels before call after hcalls]
    rfl
  case superseded =>
    intro before call after hcalls hsuperseded
    rw [heading_eq, h.superseded before call after hcalls hsuperseded, h.levels before call after hcalls]
    rfl

/-- **The listing of whatever has been compiled** goes through its scopes in order, and a scope is anonymous just if it
has been opened by a header that leaves its routine declared forward and that another header of the routine
supersedes.  Unless the stream supplies identifiers that are not words, as no scanner does, the names can be read off
the lines, and a heading looks like that of an anonymous scope just if it is one. -/
theorem compile_crossReference {stream : TokenStream} {unit : CompilationUnit} (h : compile stream = .ok unit) :
    ∃ session calls ended, Session.start stream = .ok session ∧
      History (fun _ => True) unit.program { session with table := SymbolTable.unitTable } calls ended ∧
        unit.table = ended.table.pop.2 ∧ unit.HasCrossReference calls ∧
          ((∀ token, .ok token ∈ stream.events → token.Worded) →
            (∀ id, nameShown (entryText (unit.table.entry id)) = (unit.table.entry id).name.toList) ∧
            ∀ scope, 1 ≤ scope → scope < unit.table.scopes.size →
              (heading unit.table scope = headingText (unit.table.scope scope).level "<anonymous>" ↔
                ∃ before call after, calls = before ++ call :: after ∧ scope = 2 + before.length ∧
                  call.Superseded after)) := by
  obtain ⟨session, calls, ended, hstart, hhistory, hprogram, htable, -⟩ := compile_history h
  obtain ⟨home, hkept⟩ := compile_kept h
  rw [← hprogram] at hhistory
  have howners := hhistory.hasOwners hprogram htable (frame_program h)
  have hlisting := howners.hasCrossReference hkept
  refine ⟨session, calls, ended, hstart, hhistory, htable, hlisting, fun hstream => ?_⟩
  have hworded := compile_worded_of_stream h hstream
  exact ⟨hworded.nameShown_eq, fun _ => hlisting.heading_eq_anonymous_iff hworded⟩

/-- The function `f` is declared forward and completed, so the scope of its first header is anonymous. -/
theorem compile_crossReference_forward :
    let source := "int f(int z, int b); int f(int a) \x7b return a; \x7d"
    ∃ unit, compileText source = .ok unit ∧
      (entryText (unit.table.entry 6) =
          "  f                001                      function : int (Declared)".toList ∧
        unit.table.scopes.size = 4 ∧ unit.table.scopeOwner 2 = none ∧ unit.table.scopeOwner 3 = some 6) ∧
      (∀ token, .ok token ∈ (Scanner.stream (.ofText source)).events → token.Worded) ∧
      ∃ session calls ended, Session.start (Scanner.stream (.ofText source)) = .ok session ∧
        History (fun _ => True) unit.program { session with table := SymbolTable.unitTable } calls ended ∧
          unit.table = ended.table.pop.2 ∧ unit.HasCrossReference calls ∧
            (∀ id, nameShown (entryText (unit.table.entry id)) = (unit.table.entry id).name.toList) ∧
            ∃ before call after, calls = before ++ call :: after ∧ 2 = 2 + before.length ∧
              call.Superseded after := by
  intro source
  have hcompiled : ∃ unit, compileText source = .ok unit ∧
      (entryText (unit.table.entry 6) =
          "  f                001                      function : int (Declared)".toList ∧
        unit.table.scopes.size = 4 ∧ unit.table.scopeOwner 2 = none ∧ unit.table.scopeOwner 3 = some 6) :=
    exists_compiled (by decide +kernel)
  obtain ⟨unit, hunit, hline, hsize, hforward, hcompleted⟩ := hcompiled
  have hworded := Scanner.worded_stream (.ofText source)
  obtain ⟨session, calls, ended, hstart, hhistory, htable, hlisting, hscanned⟩ := compile_crossReference hunit
  obtain ⟨hnames, hanonymous⟩ := hscanned hworded
  refine ⟨unit, hunit, ⟨hline, hsize, hforward, hcompleted⟩, hworded, session, calls, ended, hstart, hhistory, htable,
    hlisting, hnames, ?_⟩
  refine (hanonymous 2 (by decide) (by rw [hsize]; decide)).mp ?_
  rw [heading_eq, hforward]
  rfl

end FrontEnd
