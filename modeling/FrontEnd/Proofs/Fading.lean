import FrontEnd.Proofs.Fading.Types
import FrontEnd.Proofs.Mirrors
import FrontEnd.Proofs.Passage

/-!
# Types that fade in a table

Two tables differ in faded types only (`SymbolTable.Fades`) if some variables, parameters and functions have the
undefined type in the second and another type in the first.  Two runs of a production, one with each table, are
taken side by side.  Which productions run never depends on a type, so both consume the same tokens, record the same
errors that are not about types, and make trees of the same shape.  If the first run records no error about types,
it is `calm`: then neither does the second, and the types in its tree are those of the first or have faded.

`Fading` says this of a pair of productions, and the lemmas here are its rules.  They are named for the production
that they are about.

## Strategy

Whether the first run is calm is settled by its outcome, so it is fixed for a whole run as a proposition `calm`, and
what is said of the answers depends on it.  A part of a calm run is calm, since what has been recorded stays
recorded (`Production.Fading.bind`).
-/

namespace FrontEnd

/-! ## Entries and tables -/

/-- Whether two entries differ at most in the type, which only that of a variable, a parameter or a function does,
and then it is the undefined one in the second. -/
structure Entry.Fades (first second : Entry) : Prop where
  eq : second = { first with type := second.type }
  type : second.type = first.type ∨
    first.kind ∈ [.plainVariable, .valueParameter, .function] ∧ second.resolvedType = .undefined

instance : Std.Refl Entry.Fades := ⟨fun _ => ⟨rfl, Or.inl rfl⟩⟩

namespace Entry.Fades

variable {first second : Entry}

theorem name_eq (h : first.Fades second) : second.name = first.name := by
  rw [h.eq]

theorem definition_eq (h : first.Fades second) : second.definition = first.definition := by
  rw [h.eq]

theorem lines_eq (h : first.Fades second) : second.lines = first.lines := by
  rw [h.eq]

theorem kind_eq (h : first.Fades second) : second.kind = first.kind := by
  rw [kind, kind, h.definition_eq]

theorem routine?_eq (h : first.Fades second) : second.routine? = first.routine? := by
  rw [routine?, routine?, h.definition_eq]

theorem resolvedType (h : first.Fades second) : first.resolvedType.Fades second.resolvedType := by
  rcases h.type with hsame | ⟨-, hundefined⟩
  · exact Or.inl (by rw [Entry.resolvedType, Entry.resolvedType, hsame])
  · exact Or.inr hundefined

/-- The type of what is neither a variable nor a parameter nor a function is the same. -/
theorem resolvedType_eq (h : first.Fades second)
    (hkind : first.kind ∉ [.plainVariable, .valueParameter, .function]) :
    second.resolvedType = first.resolvedType := by
  rcases h.type with hsame | ⟨hmem, -⟩
  · rw [Entry.resolvedType, Entry.resolvedType, hsame]
  · exact absurd hmem hkind

theorem addLine (h : first.Fades second) (line : Nat) : (first.addLine line).Fades (second.addLine line) := by
  have heq := h.eq
  unfold Entry.addLine
  rw [h.lines_eq]
  split
  · exact h
  · refine ⟨?_, h.type⟩
    rw [heq]

/-- An entry is given the same definition and type in both tables. -/
theorem define (h : first.Fades second) (definition : Definition) (type : Option DataType) :
    Entry.Fades { first with definition, type } { second with definition, type } := by
  refine ⟨?_, Or.inl rfl⟩
  rw [h.eq]

end Entry.Fades

/-- Whether two tables differ at most in faded types. -/
structure SymbolTable.Fades (first second : SymbolTable) : Prop where
  eq : second = { first with entries := second.entries }
  size : second.entries.size = first.entries.size
  entry : ∀ id, (first.entry id).Fades (second.entry id)

instance : Std.Refl SymbolTable.Fades := ⟨fun table => ⟨rfl, rfl, fun id => refl (table.entry id)⟩⟩

namespace SymbolTable.Fades

variable {first second : SymbolTable}

theorem scopes_eq (h : first.Fades second) : second.scopes = first.scopes := by
  rw [h.eq]

theorem openScopes_eq (h : first.Fades second) : second.openScopes = first.openScopes := by
  rw [h.eq]

theorem localScopeId_eq (h : first.Fades second) : second.localScopeId = first.localScopeId := by
  rw [localScopeId, localScopeId, h.openScopes_eq]

theorem localScope_eq (h : first.Fades second) : second.localScope = first.localScope := by
  rw [localScope, localScope, h.localScopeId_eq, scope, scope, h.scopes_eq]

theorem lookup_eq (h : first.Fades second) (name : String) : second.lookup name = first.lookup name := by
  simp only [lookup, scope, h.scopes_eq, h.openScopes_eq]

theorem lookupLocal_eq (h : first.Fades second) (name : String) :
    second.lookupLocal name = first.lookupLocal name := by
  rw [lookupLocal, lookupLocal, h.localScope_eq]

theorem modifyEntry (h : first.Fades second) (id : EntryId) {change : Entry → Entry}
    (hchange : ∀ entry entry', Entry.Fades entry entry' → Entry.Fades (change entry) (change entry')) :
    (first.modifyEntry id change).Fades (second.modifyEntry id change) where
  eq := by
    have heq := h.eq
    unfold SymbolTable.modifyEntry
    rw [heq]
  size := by simpa using h.size
  entry other := by
    rw [entry_modifyEntry, entry_modifyEntry, h.size]
    split
    · exact hchange _ _ (h.entry id)
    · exact h.entry other

/-- The type of one variable, parameter or function has faded. -/
theorem of_undefined (table : SymbolTable) {id : EntryId}
    (hkind : (table.entry id).kind ∈ [.plainVariable, .valueParameter, .function]) :
    table.Fades (table.modifyEntry id fun entry => { entry with type := some .undefined }) where
  eq := rfl
  size := by simp
  entry other := by
    rw [entry_modifyEntry]
    split
    · next h =>
        obtain ⟨rfl, -⟩ := h
        exact ⟨rfl, Or.inr ⟨hkind, rfl⟩⟩
    · exact refl _

theorem bindNew (h : first.Fades second) (key : String) : (first.bindNew key).Fades (second.bindNew key) where
  eq := by
    have heq := h.eq
    unfold SymbolTable.bindNew
    rw [h.size, h.localScopeId_eq]
    rw [heq]
  size := by simpa using h.size
  entry id := by
    rw [entry_bindNew, entry_bindNew, h.size, h.localScopeId_eq]
    split
    · exact refl _
    · exact h.entry id

theorem takeSlot (h : first.Fades second) :
    second.takeSlot.1 = first.takeSlot.1 ∧ first.takeSlot.2.Fades second.takeSlot.2 := by
  have heq := h.eq
  refine ⟨by rw [SymbolTable.takeSlot, SymbolTable.takeSlot, h.localScope_eq], ?_, h.size, h.entry⟩
  unfold SymbolTable.takeSlot
  rw [h.localScopeId_eq]
  rw [heq]

/-- A variable, parameter or function that is given no name here may have a faded type as well. -/
theorem createDetached (h : first.Fades second) (name : String) (definition : Definition) {type type' : DataType}
    (htype : type' = type ∨
      definition.kind ∈ [.plainVariable, .valueParameter, .function] ∧ type' = .undefined) :
    (first.createDetached name definition type).2.Fades (second.createDetached name definition type').2 where
  eq := by
    have heq := h.eq
    unfold SymbolTable.createDetached
    rw [heq]
  size := by simpa using h.size
  entry id := by
    rw [entry_createDetached, entry_createDetached, h.size, h.localScopeId_eq]
    split
    · exact ⟨rfl, htype.imp (congrArg some) fun hfaded => ⟨hfaded.1, hfaded.2⟩⟩
    · exact h.entry id

end SymbolTable.Fades

/-! ## Trees -/

/-- Whether two trees have the same shape, and types have faded at most. -/
inductive Node.Fades : Node → Node → Prop
  | mk {first second : Node} : second.kind = first.kind → first.type.Fades second.type →
      second.line = first.line → second.entry = first.entry → second.value = first.value →
      List.Forall₂ Fades first.children second.children → Fades first second

namespace Node.Fades

variable {first second : Node}

theorem type (h : first.Fades second) : first.type.Fades second.type := by
  cases h with
  | mk _ htype => exact htype

@[refl] theorem refl : (node : Node) → node.Fades node
  | ⟨_, children, _, _, _, _⟩ =>
    .mk rfl (.refl _) rfl rfl rfl (List.forall₂_same.mpr fun child _ => refl child)

theorem withLine (h : first.Fades second) (line : Option Nat) :
    Node.Fades { first with line } { second with line } := by
  cases h with
  | mk hkind htype _ hentry hvalue hchildren => exact .mk hkind htype rfl hentry hvalue hchildren

end Node.Fades

/-- Whether the trees of two runs differ in faded types at most if the first run is calm. -/
def Node.FadesIn (calm : Prop) (first second : Node) : Prop :=
  calm → first.Fades second

namespace Node.FadesIn

variable {calm : Prop}

instance : Std.Refl (FadesIn calm) := ⟨fun node _ => .refl node⟩

instance : Std.Refl (List.Forall₂ (FadesIn calm)) := ⟨List.forall₂_refl⟩

theorem mk {kind : NodeKind} {line : Option Nat} {entry : Option EntryId} {value : Option Literal}
    {type type' : DataType} {children children' : List Node} (htype : calm → type.Fades type')
    (hchildren : List.Forall₂ (FadesIn calm) children children') :
    FadesIn calm { kind, children, type, line, entry, value }
      { kind, children := children', type := type', line, entry, value } :=
  fun hcalm => .mk rfl (htype hcalm) rfl rfl rfl (hchildren.imp fun _ _ hchild => hchild hcalm)

end Node.FadesIn

/-! ## Sessions -/

namespace Session

/-- How many errors about types have been recorded. -/
def clashes (session : Session) : Nat :=
  session.diagnostics.countP (·.kind == .incompatibleTypes)

/-- The errors that have been recorded and are not about types. -/
def others (session : Session) : List Diagnostic :=
  session.diagnostics.filter (·.kind != .incompatibleTypes)

theorem Prolongs.clashes_le {session later : Session} (h : session.Prolongs later) :
    session.clashes ≤ later.clashes :=
  h.sublist.countP_le

/-- Whether two sessions differ at most in faded types and in errors about types; in a calm run they do not differ in
errors. -/
structure Fades (calm : Prop) (first second : Session) : Prop where
  cursor : second.cursor = first.cursor
  table : first.table.Fades second.table
  dummies : second.dummies = first.dummies
  others : second.others = first.others
  diagnostics : calm → second.diagnostics = first.diagnostics

/-- The same errors are recorded in both sessions. -/
theorem Fades.record {calm : Prop} {first second : Session} (h : first.Fades calm second)
    (added : List Diagnostic) :
    Fades calm { first with diagnostics := first.diagnostics ++ added }
      { second with diagnostics := second.diagnostics ++ added } where
  cursor := h.cursor
  table := h.table
  dummies := h.dummies
  others := by
    have hothers := h.others
    simp only [Session.others, List.filter_append] at hothers ⊢
    rw [hothers]
  diagnostics hcalm := by rw [h.diagnostics hcalm]

end Session

namespace Production

open Session Coupling

variable {α β σ : Type} {calm : Prop}

/-- Whether a run comes to its end and records no error about types. -/
def Calm (production : Production α) (session : Session) : Prop :=
  ∃ answer later, production session = .ok (answer, later) ∧ later.clashes = session.clashes

/-- Whether two runs are interrupted alike, or end in sessions that differ in what has faded and with related
answers. -/
def Alike (calm : Prop) (related : α → α → Prop) :
    Except Interruption (α × Session) → Except Interruption (α × Session) → Prop
  | .error cause, .error cause' => cause' = cause
  | .ok (answer, later), .ok (answer', later') => related answer answer' ∧ later.Fades calm later'
  | _, _ => False

/-- Whether two productions, from sessions that differ in what has faded, run alike, if the run of the first is calm
where that is asked for. -/
structure Fading (calm : Prop) (related : α → α → Prop) (first second : Production α) : Prop where
  prolongs : Relates Prolongs first
  alike : ∀ {session session'}, session.Fades calm session' → (calm → first.Calm session) →
    Alike calm related (first session) (second session')

variable {first second : Production α} {related : α → α → Prop} {related' : β → β → Prop}

/-! ## Sequences -/

namespace Fading

theorem pure {answer answer' : α} (h : related answer answer') :
    Fading calm related (pure answer) (pure answer') where
  prolongs := .pure answer
  alike hsessions _ := ⟨h, hsessions⟩

theorem interrupted (cause : Interruption) : Fading calm related (throw cause : Production α) (throw cause) where
  prolongs := .throw cause
  alike _ _ := rfl

theorem weaken {weaker : α → α → Prop} (h : Fading calm related first second)
    (hweaker : ∀ answer answer', related answer answer' → weaker answer answer') :
    Fading calm weaker first second where
  prolongs := h.prolongs
  alike {session session'} hsessions hcalm := by
    have halike := h.alike hsessions hcalm
    cases hfirst : first session <;> cases hsecond : second session' <;> rw [hfirst, hsecond] at halike
    case ok.ok => exact ⟨hweaker _ _ halike.1, halike.2⟩
    all_goals exact halike

/-- The parts of a calm run are calm. -/
theorem bind [Std.Refl related] {next next' : α → Production β} (h : Fading calm related first second)
    (hnext : ∀ answer answer', related answer answer' → Fading calm related' (next answer) (next' answer')) :
    Fading calm related' (first >>= next) (second >>= next') where
  prolongs := h.prolongs.bind fun answer => (hnext answer answer (refl answer)).prolongs
  alike {session session'} hsessions hcalm := by
    -- errors about types are only added, so if none has been in the end, none has been in between
    have hparts : calm → first.Calm session ∧
        ∀ answer between, first session = .ok (answer, between) → (next answer).Calm between := by
      intro hholds
      obtain ⟨result, later, hrun, hsame⟩ := hcalm hholds
      obtain ⟨answer, between, hfirst, hrest⟩ := exists_of_bind hrun
      have hbefore := (h.prolongs.of_run hfirst).clashes_le
      have hafter := ((hnext answer answer (refl answer)).prolongs.of_run hrest).clashes_le
      refine ⟨⟨answer, between, hfirst, by omega⟩, fun other read hread => ?_⟩
      obtain ⟨rfl, rfl⟩ : answer = other ∧ between = read := by simpa [hfirst] using hread
      exact ⟨result, later, hrest, by omega⟩
    have halike := h.alike hsessions fun hholds => (hparts hholds).1
    cases hfirst : first session with
    | error cause =>
        rw [hfirst] at halike
        cases hsecond : second session' with
        | error cause' =>
            rw [hsecond] at halike
            rw [bind_of_error hfirst, bind_of_error hsecond]
            exact halike
        | ok outcome => rw [hsecond] at halike; exact halike.elim
    | ok outcome =>
        rw [hfirst] at halike
        cases hsecond : second session' with
        | error cause' => rw [hsecond] at halike; exact halike.elim
        | ok outcome' =>
            rw [hsecond] at halike
            rw [bind_of_ok hfirst, bind_of_ok hsecond]
            exact (hnext _ _ halike.1).alike halike.2 fun hholds => (hparts hholds).2 _ _ hfirst

/-- A sequence whose first part answers with the same on both sides. -/
theorem bind_eq {next next' : α → Production β} (h : Fading calm Eq first second)
    (hnext : ∀ answer, Fading calm related' (next answer) (next' answer)) :
    Fading calm related' (first >>= next) (second >>= next') :=
  h.bind fun answer _ hanswers => hanswers ▸ hnext answer

theorem ite {condition : Prop} [Decidable condition] {first' second' : Production α}
    (h : condition → Fading calm related first second)
    (h' : ¬ condition → Fading calm related first' second') :
    Fading calm related (if condition then first else first') (if condition then second else second') := by
  split
  · next hcondition => exact h hcondition
  · next hcondition => exact h' hcondition

end Fading

instance {related : σ → σ → Prop} [Std.Refl related] : Std.Refl (Turned related) where
  refl turn := by
    cases turn with
    | done state => exact .done (refl state)
    | yield state => exact .yield (refl state)

namespace Fading

theorem loopWithin {related : σ → σ → Prop} [Std.Refl related] {step step' : σ → Production (ForInStep σ)}
    (hstep : ∀ state state', related state state' → Fading calm (Turned related) (step state) (step' state'))
    (budget : Nat) {state state' : σ} (h : related state state') :
    Fading calm related (Production.loopWithin step budget state) (Production.loopWithin step' budget state') := by
  induction budget generalizing state state' with
  | zero => exact interrupted .unfinished
  | succ budget ih =>
      refine (hstep state state' h).bind fun turn turn' hturn => ?_
      cases hturn with
      | done hstates => exact pure hstates
      | yield hstates => exact ih hstates

end Fading

/-! ## Reading and changing the session -/

theorem fading_read {view view' : Session → α}
    (h : ∀ session session', session.Fades calm session' → related (view session) (view' session')) :
    Fading calm related (do return view (← get)) (do return view' (← get)) where
  prolongs := .read view
  alike hsessions _ := ⟨h _ _ hsessions, hsessions⟩

/-- A change of the session that records no error about types. -/
theorem fading_change {change change' : Session → α × Session}
    (hprolongs : ∀ session : Session, session.Prolongs (change session).2)
    (h : ∀ session session', session.Fades calm session' →
      related (change session).1 (change' session').1 ∧ (change session).2.Fades calm (change' session').2) :
    Fading calm related (fun session => .ok (change session)) (fun session => .ok (change' session)) where
  prolongs := ⟨hprolongs⟩
  alike hsessions _ := h _ _ hsessions

theorem fading_current : Fading calm Eq current current :=
  fading_read fun _ _ h => congrArg Cursor.current h.cursor.symm

theorem fading_currentKind : Fading calm Eq currentKind currentKind :=
  fading_read fun _ _ h => congrArg (·.current.kind) h.cursor.symm

theorem fading_check (kind : TokenKind) : Fading calm Eq (check kind) (check kind) :=
  fading_currentKind.bind_eq fun _ => .pure rfl

theorem fading_position : Fading calm Eq position position :=
  fading_read fun _ _ h => congrArg Cursor.position h.cursor.symm

theorem fading_budget : Fading calm Eq budget budget :=
  fading_read fun _ _ h => congrArg (·.remaining + 2) h.cursor.symm

theorem fading_loop {related : σ → σ → Prop} [Std.Refl related] {step step' : σ → Production (ForInStep σ)}
    (hstep : ∀ state state', related state state' → Fading calm (Turned related) (step state) (step' state'))
    {state state' : σ} (h : related state state') :
    Fading calm related (loop step state) (loop step' state') :=
  fading_budget.bind_eq fun budget => .loopWithin hstep budget h

theorem fading_table : Fading calm SymbolTable.Fades table table :=
  fading_read fun _ _ h => h.table

theorem fading_entry (id : EntryId) : Fading calm Entry.Fades (entry id) (entry id) :=
  fading_table.bind fun _ _ h => .pure (h.entry id)

theorem fading_lookup (name : String) : Fading calm Eq (lookup name) (lookup name) :=
  fading_table.bind fun _ _ h => .pure (h.lookup_eq name).symm

/-! ## Errors -/

theorem fading_flagAt (token : Token) (kind : ErrorKind) :
    Fading calm Eq (flagAt token kind) (flagAt token kind) :=
  fading_change (fun _ => List.prefix_append _ _) fun _ _ h => ⟨rfl, h.record _⟩

theorem fading_flag (kind : ErrorKind) : Fading calm Eq (flag kind) (flag kind) :=
  fading_current.bind_eq fun token => fading_flagAt token kind

theorem fading_ensure (holds : Bool) (token : Token) (kind : ErrorKind) :
    Fading calm Eq (ensure holds token kind) (ensure holds token kind) := by
  cases holds with
  | true => exact .pure rfl
  | false => exact fading_flagAt token kind

/-- A rule for types is obeyed by what has faded as well, and then the answers are related. -/
theorem fading_obeyed (fine : α → α → Prop) {answer answer' : α} {holds holds' : Bool} (token : Token)
    (h : calm → holds = true → holds' = true ∧ fine answer answer') :
    Fading calm (fun answer answer' => calm → fine answer answer')
      (do ensure holds token .incompatibleTypes; return answer)
      (do ensure holds' token .incompatibleTypes; return answer') where
  prolongs := (reads_ensure holds token rfl).prolongs.bind fun _ => .pure answer
  alike {session session'} hsessions hcalm := by
    -- had the rule been broken, the error about it would have been recorded
    have hobeyed : calm → holds = true := by
      intro hholds
      obtain ⟨result, later, hrun, hsame⟩ := hcalm hholds
      rw [bind_of_ok (run_ensure _ _ _ _), pure_eq] at hrun
      obtain ⟨-, rfl⟩ : _ ∧ _ = later := by simpa using hrun
      cases holds with
      | true => rfl
      | false => simp [clashes, Diagnostic.atToken] at hsame
    rw [bind_of_ok (run_ensure _ _ _ _), bind_of_ok (run_ensure _ _ _ _)]
    refine ⟨fun hholds => (h hholds (hobeyed hholds)).2, { hsessions with others := ?_, diagnostics := ?_ }⟩
    · have hothers (holds : Bool) : (if holds then [] else
          [Diagnostic.atToken token .incompatibleTypes]).filter (·.kind != .incompatibleTypes) = [] := by
        cases holds <;> rfl
      simpa [Session.others, hothers] using hsessions.others
    · intro hholds
      rw [hobeyed hholds, (h hholds (hobeyed hholds)).1, hsessions.diagnostics hholds]

theorem fading_obeys {holds holds' : Bool} (token : Token) (h : calm → holds = true → holds' = true) :
    Fading calm Eq (ensure holds token .incompatibleTypes) (ensure holds' token .incompatibleTypes) := by
  have hends (holds : Bool) : (do ensure holds token .incompatibleTypes; return ()) =
      ensure holds token .incompatibleTypes := bind_pure_unit
  have hobeyed := fading_obeyed Eq token fun hcalm hfirst => ⟨h hcalm hfirst, Eq.refl ()⟩
  rw [hends holds, hends holds'] at hobeyed
  exact hobeyed.weaken fun _ _ _ => rfl

/-! ## Tokens -/

theorem fading_nextToken : Fading calm Eq nextToken nextToken where
  prolongs := reads_nextToken.prolongs
  alike {session session'} hsessions _ := by
    rcases hadvance : session.cursor.advance with ⟨outcome, cursor⟩
    have hadvance' : session'.cursor.advance = (outcome, cursor) := by rw [hsessions.cursor, hadvance]
    cases outcome with
    | error failure =>
        rw [run_nextToken_error hadvance, run_nextToken_error hadvance', hsessions.cursor]
        exact rfl
    | ok token =>
        rw [run_nextToken hadvance, run_nextToken hadvance']
        exact ⟨rfl, { hsessions.record cursor.current.reports with cursor := rfl }⟩

theorem fading_matchToken (kind : TokenKind) : Fading calm Eq (matchToken kind) (matchToken kind) :=
  (fading_check kind).bind_eq fun _ =>
    .ite (fun _ => fading_nextToken.bind_eq fun _ => .pure rfl) fun _ => .pure rfl

theorem fading_matchAny (set : KindSet) : Fading calm Eq (matchAny set) (matchAny set) :=
  fading_currentKind.bind_eq fun _ =>
    .ite (fun _ => fading_nextToken.bind_eq fun _ => .pure rfl) fun _ => .pure rfl

theorem fading_expect (kind : TokenKind) (missing : ErrorKind) :
    Fading calm Eq (expect kind missing) (expect kind missing) :=
  (fading_matchToken kind).bind_eq fun _ => .ite (fun _ => .pure rfl) fun _ => fading_flag missing

theorem fading_require (kind : TokenKind) (missing : ErrorKind) :
    Fading calm Eq (require kind missing) (require kind missing) :=
  fading_current.bind_eq fun token => fading_ensure _ token missing

/-! ## Recovery -/

theorem fading_skipToken (set : KindSet) (token : Token) :
    Fading calm (Turned Eq) (skipToken set token) (skipToken set token) :=
  .ite (fun _ => .pure (.done rfl)) fun _ => fading_nextToken.bind_eq fun _ => .pure (.yield rfl)

theorem fading_synchronize (set : KindSet) : Fading calm Eq (synchronize set) (synchronize set) := by
  refine fading_current.bind_eq fun token => .ite (fun _ => .pure rfl) fun _ => ?_
  refine (fading_ensure _ token _).bind_eq fun _ => fading_nextToken.bind_eq fun next => ?_
  refine fading_loop (fun token _ htokens => ?_) rfl
  exact htokens ▸ fading_skipToken set token

/-! ## Symbols -/

theorem fading_onTable {change change' : SymbolTable → α × SymbolTable}
    (h : ∀ table table', table.Fades table' →
      related (change table).1 (change' table').1 ∧ (change table).2.Fades (change' table').2) :
    Fading calm related (onTable change) (onTable change') :=
  fading_change (fun _ => List.prefix_refl _) fun _ _ hsessions =>
    ⟨(h _ _ hsessions.table).1, { hsessions with table := (h _ _ hsessions.table).2 }⟩

theorem fading_changeEntry (id : EntryId) {change : Entry → Entry}
    (h : ∀ entry entry', Entry.Fades entry entry' → Entry.Fades (change entry) (change entry')) :
    Fading calm Eq (changeEntry id change) (changeEntry id change) :=
  fading_change (fun _ => List.prefix_refl _) fun _ _ hsessions =>
    ⟨rfl, { hsessions with table := hsessions.table.modifyEntry id h }⟩

theorem fading_addLine (id : EntryId) (line : Nat) :
    Fading calm Eq (changeEntry id (·.addLine line)) (changeEntry id (·.addLine line)) :=
  fading_changeEntry id fun _ _ h => h.addLine line

theorem fading_define (id : EntryId) (definition : Definition) (type : Option DataType) :
    Fading calm Eq (changeEntry id fun entry => { entry with definition, type })
      (changeEntry id fun entry => { entry with definition, type }) :=
  fading_changeEntry id fun _ _ h => h.define definition type

theorem fading_takeSlot : Fading calm Eq (onTable (·.takeSlot)) (onTable (·.takeSlot)) :=
  fading_onTable fun _ _ h => ⟨h.takeSlot.1.symm, h.takeSlot.2⟩

theorem fading_enterLocal (name : String) : Fading calm Eq (enterLocal name) (enterLocal name) := by
  refine fading_onTable fun table table' h => ?_
  unfold SymbolTable.enterLocal
  rw [h.lookupLocal_eq, h.size]
  cases table.lookupLocal name with
  | some taken => exact ⟨rfl, h⟩
  | none => exact ⟨rfl, h.bindNew _⟩

theorem fading_enterOrDetach (name : String) :
    Fading calm Eq (enterOrDetach name) (enterOrDetach name) := by
  refine fading_onTable fun table table' h => ?_
  unfold SymbolTable.enterLocal
  rw [h.lookupLocal_eq, h.size]
  cases table.lookupLocal name with
  | some taken => exact ⟨h.size.symm, h.createDetached name _ (Or.inl rfl)⟩
  | none => exact ⟨rfl, h.bindNew _⟩

end Production

end FrontEnd
