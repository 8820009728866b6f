import FrontEnd.Proofs.Extent
import FrontEnd.Proofs.Request

/-!
# The wording of names

The names of all entries consist of letters, digits and underscores of the basic character set, whatever is
compiled (`compile_worded`).  A name is that of a predefined entry, an identifier of the text in lower case, an
invented one, or that of a routine again for what it returns.

It depends on the scanner that identifiers are words: a stream of tokens from elsewhere could supply others.  A
run is therefore followed for tokens that are words if they are identifiers (`Token.Worded`), which is what the
scanner answers (`Scanner.worded_stream`), and the history of a compilation is read for these.
-/

namespace FrontEnd

/-! ## Words -/

namespace Text

/-- Whether a text consists of letters, digits and underscores of the basic character set. -/
def IsWord (text : String) : Prop :=
  ∀ c ∈ text.toList, Lexeme.continuesWord c = true

instance (text : String) : Decidable (IsWord text) :=
  List.decidableBAll (fun c => Lexeme.continuesWord c = true) text.toList

variable {text : String}

theorem IsWord.quotable (h : IsWord text) : Quotable text.toList := by
  have hplain : ∀ c, Lexeme.continuesWord c = true → c ≠ '"' ∧ c ≠ '\\' :=
    Lexeme.forall_continuesWord (by decide)
  exact .of_forall fun c hc => hplain c (h c hc)

theorem IsWord.append {text' : String} (h : IsWord text) (h' : IsWord text') : IsWord (text ++ text') := by
  intro c hc
  rw [String.toList_append] at hc
  exact (List.mem_append.mp hc).elim (h c) (h' c)

theorem isWord_padZeros (width number : Nat) : IsWord (padZeros width number) := by
  refine .append (fun c hc => ?_) fun c hc => ?_
  · rw [String.toList_ofList] at hc
    rw [List.eq_of_mem_replicate hc]
    decide
  · simp [Lexeme.continuesWord, Char.isAlphanum, isDigit_of_mem_toString hc]

theorem IsWord.lower (h : IsWord text) : IsWord (lower text) := by
  have hletter : ∀ c, Lexeme.continuesWord c = true →
      c ≠ '\u03a3' ∧ c ≠ '\u0130' ∧ Lexeme.continuesWord (lowerLetter c) = true :=
    Lexeme.forall_continuesWord (by decide)
  have hfrom (passed : List Char) : ∀ rest : List Char, (∀ c ∈ rest, Lexeme.continuesWord c = true) →
      ∀ c ∈ lowerFrom passed rest, Lexeme.continuesWord c = true := by
    intro rest hrest
    induction rest generalizing passed with
    | nil => simp [lowerFrom]
    | cons first rest ih =>
        obtain ⟨hfirst, hrest⟩ := List.forall_mem_cons.mp hrest
        obtain ⟨hsigma, hdotted, hlower⟩ := hletter first hfirst
        simpa [lowerFrom, hsigma, hdotted, hlower] using ih (first :: passed) hrest
  intro c hc
  rw [Text.lower, String.toList_ofList] at hc
  exact hfrom [] text.toList h c hc

end Text

/-! ## Identifiers -/

/-- Whether a token is a word if it is an identifier. -/
def Token.Worded (token : Token) : Prop :=
  token.kind = .identifier → Text.IsWord token.text

/-- Not every such token is proper. -/
theorem improper_worded : Improper Token.Worded := by
  refine ⟨⟨.identifier, "int", ⟨1, 1⟩, none⟩, fun _ => by decide, fun hproper => ?_⟩
  exact absurd (hproper.identifier rfl) (by decide +kernel)

namespace Scanner

variable {scanner place : Scanner} {token : Token}

/-- An identifier ends before its line does. -/
theorem length_lt_of_identifier (hended : place.Ended) {lexeme : Lexeme}
    (hfirst : Lexeme.first? place.after = some lexeme) (hkind : lexeme.kind = .identifier) :
    lexeme.text.length < place.after.length := by
  have hword := Lexeme.continuesWord_of_first? hfirst hkind
  obtain ⟨slice, rest, hline, hne, hspells⟩ := Lexeme.begins_of_first? hfirst
  rw [hspells.length_eq, hline, List.length_append, Nat.lt_add_right_iff_pos, List.length_pos_iff]
  rintro rfl
  -- otherwise the line feed at the end of the line would be a part of it
  obtain ⟨body, c, rfl⟩ := (List.eq_nil_or_concat slice).resolve_left hne
  obtain rfl : c = '\n' := hended c (by simp [hline])
  have hlast : (body.concat '\n').getLast? = some '\n' := by simp
  have hfeed := hword '\n' (by simp [hspells.eq_of_lineFeed hlast])
  simp [Lexeme.continuesWord] at hfeed

/-- A token is of the kind of its lexeme, even if that reaches over the end of its line. -/
theorem kind_of_take {lexeme : Lexeme} (h : (place.take lexeme).1 = .ok token) : token.kind = lexeme.kind := by
  unfold take finishBroken at h
  dsimp only at h
  split at h
  · split at h
    · cases h
    · split at h <;> exact Except.ok.inj h ▸ rfl
  · exact Except.ok.inj h ▸ rfl

/-- The identifiers that a scanner answers with are words. -/
theorem worded_next (hended : scanner.Ended) (h : scanner.next.1 = .ok token) : token.Worded := by
  have hskip : Advances scanner scanner.skip := advances_skipLines _ _ _ _ _ _
  intro hkind
  rcases hreached : scanner.skip with ⟨failure | _, place⟩
  · simp [next, hreached] at h
  rw [hreached] at hskip
  cases hfirst : Lexeme.first? place.after with
  | none =>
      have hnext : scanner.next = (.ok (.endOfFile place.location), place) := by simp [next, hreached, hfirst]
      rw [hnext] at h
      obtain rfl := Except.ok.inj h
      cases hkind
  | some lexeme =>
      rw [next_of_first? hreached hfirst] at h
      by_cases hidentifier : lexeme.kind = .identifier
      · rw [take_of_length (length_lt_of_identifier (hskip.ended hended) hfirst hidentifier)] at h
        obtain rfl := Except.ok.inj h
        intro c hc
        rw [Lexeme.toToken, String.toList_ofList] at hc
        exact Lexeme.continuesWord_of_first? hfirst hidentifier c hc
      · exact absurd hkind (kind_of_take h ▸ hidentifier)

theorem worded_streamWithin (hended : scanner.Ended) (requests : Nat) :
    ∀ token, .ok token ∈ (streamWithin requests scanner).events → token.Worded := by
  induction requests generalizing scanner with
  | zero => simp [streamWithin]
  | succ requests ih =>
      intro token hmem
      unfold streamWithin at hmem
      split at hmem
      · simp at hmem
      · rcases List.mem_cons.mp hmem with hnow | hmem
        · exact worded_next hended hnow.symm
        · exact ih ((advances_next scanner).ended hended) token hmem

/-- The identifiers of a feed of lines are words. -/
theorem worded_stream (feed : LineFeed) : ∀ token, .ok token ∈ (stream feed).events → token.Worded := by
  have hended : (ofFeed feed).Ended := nofun
  exact worded_streamWithin hended _

end Scanner

/-- Every token with which a compilation is supplied is a word if it is an identifier, if those of the stream are. -/
theorem Session.worded_of_start {stream : TokenStream} {session : Session} {token : Token}
    (h : Session.start stream = .ok session) (hstream : ∀ token, .ok token ∈ stream.events → token.Worded)
    (htoken : session.cursor.Answers (.ok token)) : token.Worded := by
  rcases Cursor.answers_of_start (Session.start_cases h).1 htoken with hmem | hlast
  · exact hstream token hmem
  · exact TokenStream.of_finalEvent (fun _ => nofun) hlast.symm

/-! ## Names of entries -/

namespace SymbolTable

/-- Whether the names of all entries are words. -/
def Worded (table : SymbolTable) : Prop :=
  ∀ id, Text.IsWord (table.entry id).name

namespace Worded

variable {table later : SymbolTable}

theorem of_names (h : table.Worded) (hnames : ∀ id, (later.entry id).name = (table.entry id).name) :
    later.Worded := fun id => by
  rw [hnames]
  exact h id

theorem modifyEntry (h : table.Worded) (id : EntryId) {change : Entry → Entry}
    (hname : ∀ entry, (change entry).name = entry.name) : (table.modifyEntry id change).Worded := by
  refine h.of_names fun other => ?_
  rw [entry_modifyEntry]
  split
  · next hsame => rw [hname, hsame.1]
  · rfl

theorem modifyRoutine (h : table.Worded) (id : EntryId) (change : Routine → Routine) :
    (table.modifyRoutine id change).Worded :=
  h.modifyEntry id fun _ => rfl

theorem bindNew (h : table.Worded) {key : String} (hkey : Text.IsWord key) : (table.bindNew key).Worded := by
  intro id
  rw [entry_bindNew]
  split
  · exact hkey
  · exact h id

theorem createDetached (h : table.Worded) {name : String} (hname : Text.IsWord name) (definition : Definition)
    (type : DataType) : (table.createDetached name definition type).2.Worded := by
  intro id
  rw [entry_createDetached]
  split
  · exact hname.lower
  · exact h id

theorem enterInvented (h : table.Worded) {name : String} (hname : Invented name) :
    (table.enterInvented name).Worded := by
  have hword : Text.IsWord name := by
    obtain ⟨number, hstem⟩ := hname
    have hstems : ∀ stem ∈ [Production.procedureNameStem, Production.functionNameStem], Text.IsWord stem := by
      decide
    exact (hstems _ hstem).append (Text.isWord_padZeros 3 number)
  unfold SymbolTable.enterInvented
  split
  · exact h.bindNew hword.lower
  · exact h.createDetached hword _ _

/-- The inside of a routine enters identifiers, and the name of the routine again for what it returns. -/
theorem declares (h : table.Worded) (hdeclares : table.Declares Token.Worded later) : later.Worded := by
  cases hdeclares with
  | mention id hknown => exact h.modifyEntry id fun entry => (Entry.agrees_addLine entry _).name
  | declare definition type hknown hname hfree hroutine hslot =>
      exact (h.bindNew (hknown hname).lower).modifyEntry _ fun _ => rfl
  | store type hknown hname hfree hkind =>
      have hbound := h.bindNew (hknown hname).lower
      exact (hbound.of_names fun id => by rw [entry_takeSlot]).modifyEntry _ fun _ => rfl
  | target routine type => exact h.createDetached (h routine) _ _

theorem pop (h : table.Worded) : table.pop.2.Worded :=
  h.of_names fun id => by rw [entry_pop]

end Worded

theorem worded_unitTable : unitTable.Worded := by
  have hall : ∀ entry ∈ unitTable.entries.toList, Text.IsWord entry.name := by decide +kernel
  exact forall_entry hall (by decide)

end SymbolTable

/-! ## Runs -/

section

variable {place : Place} {program : EntryId} {session later : Session} {call : Call}

theorem Steps.worded (h : Steps Token.Worded place session later) (hplace : place.settles = false)
    (hworded : session.table.Worded) : later.table.Worded := by
  induction h with
  | refl => exact hworded
  | tail _ hstep ih =>
      cases hstep with
      | flag | consume | look => exact ih
      | declare hdeclares => exact ih.declares hdeclares
      | settle hsettles | invent hsettles => simp [hplace] at hsettles
      | reshape htop => simp [htop, Place.settles] at hplace

/-- A routine gets the name that its header gives, or an invented one. -/
theorem Session.Names.worded {invented : String} {named : EntryId × Bool} (h : session.Names invented named later)
    (hcurrent : session.cursor.current.Worded) (hinvented : Invented invented) (hworded : session.table.Worded) :
    later.table.Worded := by
  cases h with
  | reused hkind hlocal hforward hreads =>
      rw [hreads.table_eq]
      exact hworded.modifyEntry _ fun entry => (Entry.agrees_addLine entry _).name
  | entered hkind hlocal hreads =>
      rw [hreads.table_eq]
      exact (hworded.bindNew (hcurrent hkind).lower).modifyEntry _ fun entry =>
        (Entry.agrees_addLine entry _).name
  | taken | missing => exact hworded.enterInvented hinvented

namespace Call

/-- What is recorded of a header changes no names. -/
theorem worded_typed (call : Call) {table : SymbolTable} (hworded : table.Worded) (parameters : List EntryId) :
    (call.typed table parameters).Worded := by
  unfold typed
  split
  · exact (hworded.modifyRoutine _ _).modifyEntry _ fun _ => rfl
  · exact hworded.modifyRoutine _ _

theorem Ends.worded {headed closed : Session} (h : call.Ends headed closed)
    (hlawful : headed.Lawful Token.Worded) (hid : call.id < headed.table.entries.size)
    (hworded : headed.table.Worded) : closed.table.Worded := by
  cases h with
  | declared hbrace hcompound =>
      obtain ⟨hsteps, -⟩ := (Production.leads_of_ok hcompound).mp
        (Production.traced_compound (hlawful.staged call.id .declared)
          (by simpa [Session.staged, SymbolTable.modifyRoutine] using hid) hbrace)
      exact (hsteps.worded rfl (hworded.modifyRoutine _ _)).modifyRoutine _ _
  | forward hbrace hreads =>
      rw [hreads.table_eq]
      exact hworded.modifyRoutine _ _

theorem Made.worded (h : call.Made Token.Worded program) (hworded : call.before.table.Worded) :
    call.after.table.Worded := by
  obtain ⟨-, hstarted, htable, -, hinvented⟩ := h.started
  have hnamed := h.names.worded hstarted.current hinvented (htable ▸ hworded)
  have hbegun : (call.checked program).table.Worded := hnamed.of_names h.opens.begins.name_eq
  have hchecked : (call.checked program).Lawful Token.Worded :=
    ⟨h.opens.lawful.supplied, h.opens.lawful.valid, h.opens.lawful.names⟩
  obtain ⟨headed, closed, hparts⟩ := h.parts
  obtain ⟨hheading, hheaded, -⟩ := h.heads improper_worded hparts
  obtain ⟨parameters, read, reported, hread, -, hheader⟩ := typed_header hparts.header
  obtain ⟨hsteps, -⟩ := (Production.leads_of_ok hread).mp (Production.traced_enclosedParameters hchecked)
  have htyped : headed.table.Worded := by
    rw [hheader]
    exact call.worded_typed (hsteps.worded rfl hbegun) parameters
  have hid : call.id < headed.table.entries.size := by
    refine Nat.lt_of_lt_of_le ?_ (hheading.steady h.opens.lawful nofun).size_le
    rw [h.opens.begins.size]
    exact h.opens.target.lt
  rw [hparts.after]
  exact ((ends_bodyOrForward hparts.body).worded hheaded hid htyped).pop

end Call

/-- An item that compiles a routine opens a scope. -/
theorem Finishes.scopes_size {known : Token → Prop} {id : EntryId} {kind : DefinitionKind} {forwarded : Bool}
    {named begun headed closed : Session} (h : Finishes known id headed closed)
    (hopens : Opens known program id kind forwarded session named begun)
    (hheading : Steps known .header begun headed) (hlawful : session.Lawful known) :
    closed.table.scopes.size = session.table.scopes.size + 1 := by
  have hheaded := (hheading.steady hopens.lawful nofun).scopes
  have hbegun := (hopens.naming.steady hlawful nofun).scopes ▸ hopens.begins.scopes
  obtain ⟨stage, made, hsteady, hclosed | ⟨body, hclosed⟩⟩ := h.steady (hheading.lawful hopens.lawful)
  · rw [hclosed, hsteady.scopes, ← hbegun, ← hheaded]
    rfl
  · rw [hclosed, ← hbegun, ← hheaded]
    exact hsteady.scopes

/-- Between calls the names that are entered are identifiers, and the name of the program for what it returns. -/
theorem Session.Goes.worded (h : session.Goes program later) (hlawful : session.Lawful Token.Worded)
    (hitem : Item Token.Worded program session later) (hworded : session.table.Worded) : later.table.Worded := by
  have hscopes : later.table.scopes.size = session.table.scopes.size := by
    cases h with
    | moves hmoves => exact (hmoves.steady hlawful.valid).scopes
    | appends node hmoves => exact (hmoves.steady hlawful.valid).scopes
  cases hitem with
  | declares hsteps => exact hsteps.worded rfl hworded
  | states hsteps huses => exact (hsteps.worded rfl hworded).modifyRoutine _ _
  | routine hopens hheading hrepeats hfinishes =>
      rw [SymbolTable.scopes_pop, hfinishes.scopes_size hopens hheading hlawful] at hscopes
      exact absurd hscopes (Nat.succ_ne_self _)

theorem History.worded {start : Session} {calls : List Call}
    (h : History Token.Worded program start calls session) (hstart : start.table.Worded) :
    session.table.Worded := by
  induction h with
  | nil => exact hstart
  | goes _ hlawful hitem hgoes ih => exact hgoes.worded hlawful hitem ih
  | call _ hmade ih => exact hmade.worded ih

end

/-- In whatever is compiled from a stream whose identifiers are words, the names of all entries are words. -/
theorem compile_worded_of_stream {stream : TokenStream} {unit : CompilationUnit} (h : compile stream = .ok unit)
    (hstream : ∀ token, .ok token ∈ stream.events → token.Worded) : unit.table.Worded := by
  obtain ⟨session, calls, ended, -, hhistory, -, htable, -⟩ :=
    compile_history_of_known improper_worded h fun _ hstart _ htoken =>
      Session.worded_of_start hstart hstream htoken
  rw [htable]
  exact (hhistory.worded SymbolTable.worded_unitTable).pop

/-- In whatever is compiled from a text they are. -/
theorem compile_worded {source : String} {unit : CompilationUnit} (h : compileText source = .ok unit) :
    unit.table.Worded :=
  compile_worded_of_stream h (Scanner.worded_stream _)

end FrontEnd
