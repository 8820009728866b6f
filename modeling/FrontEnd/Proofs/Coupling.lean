import FrontEnd.Proofs.Outcome
import FrontEnd.Proofs.Unlined
import Mathlib.Data.List.Forall2

/-!
# Compilations side by side

Some properties of a compilation are about two of them: of streams that differ in the places of their
tokens, in the spelling of their names, or in what follows after a common beginning.  A `Coupling` says
which tokens of two streams correspond and when two cursors stand in corresponding places.  From it comes
when two sessions correspond (`Coupling.Sessions`): their tables are the same, or the same but for lines
if the lines of corresponding tokens may differ, and they have made the same reports at corresponding
tokens.

`Mirrors` says of two productions that from corresponding sessions they come to corresponding ends.  It
is what is proved of every production of the language, once for all couplings.

## Strategy

A sequence is mirrored if its parts are (`Mirrors.bind`), and a loop if its step is (`Mirrors.loop`); what
is left are the few productions that touch the session themselves.

The first of two streams may be the shorter one.  Then the two compilations part where the first comes to
its end, and nothing is claimed from there on: the first is `Lost`.  What makes this bearable is that the
end of the file is never left again.  So a sequence whose first part gets lost is lost as a whole, but to
see this one needs to know that the second part, run on by itself, stays where it is.  This is why
`Mirrors` says two things: how the runs compare, and what any run of the first production keeps
(`Session.Kept`).  The second has nothing to do with the first, and has to hold of a production for each
answer that a lost run can have given; that a coupling relates each such answer to itself is what the
class `Covers` is for.
-/

namespace FrontEnd

/-! ## What every run keeps -/

namespace Session

/-- Whether the current token has been reported, if it is none. -/
def Reported (session : Session) : Prop :=
  session.cursor.current.reports ⊆ session.diagnostics

/-- What holds between a session and a later one: no report is taken back, and the end of the file is not
left. -/
structure Kept (session later : Session) : Prop where
  diagnostics : session.diagnostics <+: later.diagnostics
  isEnd : session.cursor.current.isEnd = true → later.cursor.current.isEnd = true
  reported : session.Reported → later.Reported

namespace Kept

variable {first second third : Session}

@[refl] theorem refl (session : Session) : session.Kept session :=
  ⟨List.prefix_rfl, id, id⟩

theorem trans (h : first.Kept second) (h' : second.Kept third) : first.Kept third :=
  ⟨h.diagnostics.trans h'.diagnostics, h'.isEnd ∘ h.isEnd, h'.reported ∘ h.reported⟩

/-- What leaves the cursor and the reports alone keeps everything. -/
theorem of_eq (hcursor : second.cursor = first.cursor)
    (hdiagnostics : second.diagnostics = first.diagnostics) : first.Kept second := by
  refine ⟨hdiagnostics ▸ List.prefix_rfl, by rw [hcursor]; exact id, fun h => ?_⟩
  rwa [Reported, hcursor, hdiagnostics]

/-- A session without reports comes from one without. -/
theorem clean (h : first.Kept second) (hclean : second.diagnostics = []) : first.diagnostics = [] :=
  List.prefix_nil.mp (hclean ▸ h.diagnostics)

end Kept

end Session

/-- The interruption without the line at which it happened. -/
def Interruption.unlined : Interruption → Interruption
  | .unreadable failure => .unreadable { failure with line := 0 }
  | .unfinished => .unfinished

/-! ## Couplings -/

/-- How two compilations stand side by side: which of their tokens correspond, and when their cursors
stand in corresponding places.  If the two are `aligned`, corresponding tokens are on the same line; if
the first is `shorter`, it may come to its end while the second goes on.

The two look further ahead than to the current token only where a name or the word `void` is current. -/
structure Coupling where
  token : Token → Token → Prop
  cursor : Cursor → Cursor → Prop
  aligned : Prop
  shorter : Prop
  kind_eq {first second : Token} : token first second → first.kind = second.kind
  value_eq {first second : Token} : token first second → first.value = second.value
  lower_eq {first second : Token} : token first second →
    Text.lower first.text = Text.lower second.text
  line_eq {first second : Token} : aligned → token first second → first.line = second.line
  token_refl : shorter → ∀ same, token same same
  current {first second : Cursor} : cursor first second → token first.current second.current
  position_eq {first second : Cursor} : cursor first second → first.position = second.position
  remaining_le {first second : Cursor} : cursor first second → first.remaining ≤ second.remaining
  remaining_eq {first second : Cursor} : ¬ shorter → cursor first second →
    first.remaining = second.remaining
  advance_ok {first second next : Cursor} {token : Token} : cursor first second →
    first.advance = (.ok token, next) →
      shorter ∧ next.current.isEnd = true ∨
        ∃ token' next', second.advance = (.ok token', next') ∧ cursor next next'
  advance_error {first second next : Cursor} {failure : ReadError} : cursor first second →
    first.advance = (.error failure, next) →
      shorter ∨ ∃ next', second.advance = (.error failure, next')
  peek_ok {first second next : Cursor} {seen : Token} : cursor first second →
    first.current.kind ∈ [.identifier, .voidWord] → first.peek = (.ok seen, next) →
      ∃ seen' next', second.peek = (.ok seen', next') ∧ token seen seen' ∧ cursor next next'
  peek_error {first second next : Cursor} {failure : ReadError} : cursor first second →
    first.current.kind ∈ [.identifier, .voidWord] → first.peek = (.error failure, next) →
      ∃ next', second.peek = (.error failure, next')

namespace Coupling

variable {α σ : Type}

/-- Two values that are the same but for the lines in them, and the same if the lines are aligned. -/
structure Like (c : Coupling) (unlined : α → α) (first second : α) : Prop where
  unlined_eq : unlined first = unlined second
  eq : c.aligned → first = second

/-- Two trees that are the same but for lines that are not aligned. -/
abbrev Nodes (c : Coupling) : Node → Node → Prop := c.Like Node.unlined

/-- Two lists of such trees. -/
abbrev Trees (c : Coupling) : List Node → List Node → Prop := c.Like Node.unlinedAll

/-- Two entries that are the same but for lines that are not aligned. -/
abbrev Entries (c : Coupling) : Entry → Entry → Prop := c.Like Entry.unlined

/-- Two routines that are the same but for lines that are not aligned. -/
abbrev Routines (c : Coupling) : Routine → Routine → Prop := c.Like Routine.unlined

/-- Two tables that are the same but for lines that are not aligned. -/
abbrev Tables (c : Coupling) : SymbolTable → SymbolTable → Prop := c.Like SymbolTable.unlined

/-- Two reports of the same kind at corresponding tokens. -/
def Reports (c : Coupling) (first second : Diagnostic) : Prop :=
  ∃ token token' kind, c.token token token' ∧
    first = Diagnostic.atToken token kind ∧ second = Diagnostic.atToken token' kind

/-- Two budgets, or depths: the first is not greater, and it is less only if the first compilation is the
shorter one. -/
structure Depths (c : Coupling) (first second : Nat) : Prop where
  le : first ≤ second
  eq : ¬ c.shorter → first = second

/-- Two steps of a loop that both end it or both go on, in corresponding states. -/
inductive Turned (related : σ → σ → Prop) : ForInStep σ → ForInStep σ → Prop
  | done {first second : σ} : related first second → Turned related (.done first) (.done second)
  | yield {first second : σ} : related first second → Turned related (.yield first) (.yield second)

/-- A relation under which each answer corresponds to itself, where the first compilation may get
lost. -/
class Covers (c : Coupling) (related : α → α → Prop) : Prop where
  refl : c.shorter → ∀ answer, related answer answer

variable {c : Coupling} {β : Type}

/-! ### What is the same but for lines -/

namespace Like

variable {unlined : α → α} {first second : α}

@[refl] theorem refl (same : α) : c.Like unlined same same :=
  ⟨rfl, fun _ => rfl⟩

/-- What does not depend on lines is the same. -/
theorem read (h : c.Like unlined first second) (view : α → β)
    (hview : ∀ value, view (unlined value) = view value) : view first = view second := by
  rw [← hview first, h.unlined_eq, hview]

end Like

/-- Two lines, or none, that are the same if lines are aligned. -/
abbrev Lines (c : Coupling) : Option Nat → Option Nat → Prop := c.Like (Option.map fun _ => 0)

theorem Lines.some {first second : Nat} (h : c.aligned → first = second) :
    c.Lines (some first) (some second) :=
  ⟨rfl, fun haligned => congrArg _ (h haligned)⟩

namespace Nodes

variable {first second : Node}

theorem type_eq (h : c.Nodes first second) : first.type = second.type :=
  h.read Node.type Node.type_unlined

/-- Nodes with the same attributes but for the line. -/
theorem mk {kind : NodeKind} {type : DataType} {entry : Option EntryId} {value : Option Literal}
    {children children' : List Node} {line line' : Option Nat} (hchildren : c.Trees children children')
    (hline : c.Lines line line') :
    c.Nodes ⟨kind, children, type, line, entry, value⟩ ⟨kind, children', type, line', entry, value⟩ where
  unlined_eq := by rw [Node.unlined, Node.unlined, hchildren.unlined_eq, hline.unlined_eq]
  eq haligned := by rw [hchildren.eq haligned, hline.eq haligned]

/-- The node with another line. -/
theorem withLine (h : c.Nodes first second) {line line' : Option Nat} (hline : c.Lines line line') :
    c.Nodes { first with line } { second with line := line' } where
  unlined_eq := by
    have hnode := h.unlined_eq
    rw [Node.unlined_eq, Node.unlined_eq] at hnode ⊢
    simp_all [hline.unlined_eq]
  eq haligned := by rw [h.eq haligned, hline.eq haligned]

end Nodes

namespace Trees

variable {first second : List Node} {node node' : Node}

theorem cons (hnode : c.Nodes node node') (h : c.Trees first second) :
    c.Trees (node :: first) (node' :: second) where
  unlined_eq := by rw [Node.unlinedAll, Node.unlinedAll, hnode.unlined_eq, h.unlined_eq]
  eq haligned := by rw [hnode.eq haligned, h.eq haligned]

theorem single (hnode : c.Nodes node node') : c.Trees [node] [node'] :=
  cons hnode (.refl _)

theorem pair {other other' : Node} (hnode : c.Nodes node node') (hother : c.Nodes other other') :
    c.Trees [node, other] [node', other'] :=
  cons hnode (single hother)

theorem snoc (h : c.Trees first second) (hnode : c.Nodes node node') :
    c.Trees (first ++ [node]) (second ++ [node']) where
  unlined_eq := by
    rw [Node.unlinedAll_append, Node.unlinedAll_append, h.unlined_eq, (single hnode).unlined_eq]
  eq haligned := by rw [h.eq haligned, hnode.eq haligned]

theorem length_eq (h : c.Trees first second) : first.length = second.length :=
  Node.length_eq h.unlined_eq

end Trees

namespace Entries

variable {first second : Entry}

theorem name_eq (h : c.Entries first second) : first.name = second.name :=
  h.read Entry.name Entry.name_unlined

theorem kind_eq (h : c.Entries first second) : first.kind = second.kind :=
  h.read Entry.kind Entry.kind_unlined

theorem resolvedType_eq (h : c.Entries first second) : first.resolvedType = second.resolvedType :=
  h.read Entry.resolvedType Entry.resolvedType_unlined

theorem definition_eq (h : c.Entries first second) :
    first.definition.unlined = second.definition.unlined :=
  congrArg Entry.definition h.unlined_eq

theorem routine?_eq (h : c.Entries first second) (view : Routine → β)
    (hview : ∀ routine, view routine.unlined = view routine) :
    first.routine?.map view = second.routine?.map view := by
  have hroutine := congrArg (Option.map view) (congrArg Entry.routine? h.unlined_eq)
  simpa [Entry.routine?_unlined, Function.comp_def, hview] using hroutine

/-- A change that reads no line and writes none. -/
theorem change (h : c.Entries first second) (change change' : Entry → Entry)
    (hchange : ∀ entry, (change entry).unlined = change' entry.unlined) :
    c.Entries (change first) (change second) where
  unlined_eq := by rw [hchange, hchange, h.unlined_eq]
  eq haligned := by rw [h.eq haligned]

/-- A change of what is known about routines that does the same to corresponding ones. -/
theorem mapRoutine (h : c.Entries first second) {change change' : Routine → Routine}
    (hchange : ∀ routine routine', c.Routines routine routine' →
      c.Routines (change routine) (change' routine')) :
    c.Entries (first.mapRoutine change) (second.mapRoutine change') := by
  by_cases haligned : c.aligned
  · have hsame : change = change' :=
      funext fun routine => (hchange routine routine (.refl _)).eq haligned
    rw [h.eq haligned, hsame]
  · have hdefinition := Definition.unlined_mapRoutine h.definition_eq fun routine routine' hroutine =>
      (hchange routine routine' ⟨hroutine, fun hyes => absurd hyes haligned⟩).unlined_eq
    have hentry := h.unlined_eq
    refine ⟨?_, fun hyes => absurd hyes haligned⟩
    simp only [Entry.unlined, Entry.mapRoutine, Entry.mk.injEq] at hentry ⊢
    exact ⟨hentry.1, hentry.2.1, hdefinition, hentry.2.2.2⟩

theorem addLine (h : c.Entries first second) {line line' : Nat} (hline : c.aligned → line = line') :
    c.Entries (first.addLine line) (second.addLine line') where
  unlined_eq := by simpa using h.unlined_eq
  eq haligned := by rw [h.eq haligned, hline haligned]

end Entries

namespace Tables

variable {first second : SymbolTable}

theorem entry (h : c.Tables first second) (id : EntryId) :
    c.Entries (first.entry id) (second.entry id) where
  unlined_eq := by rw [← SymbolTable.entry_unlined, h.unlined_eq, SymbolTable.entry_unlined]
  eq haligned := by rw [h.eq haligned]

theorem lookup_eq (h : c.Tables first second) {name name' : String}
    (hname : Text.lower name = Text.lower name') : first.lookup name = second.lookup name' := by
  have hsame : first.lookup name = second.lookup name :=
    h.read (SymbolTable.lookup · name) (SymbolTable.lookup_unlined · name)
  rw [hsame, SymbolTable.lookup, SymbolTable.lookup, hname]

theorem lookupLocal_eq (h : c.Tables first second) {name name' : String}
    (hname : Text.lower name = Text.lower name') :
    first.lookupLocal name = second.lookupLocal name' := by
  have hsame : first.lookupLocal name = second.lookupLocal name :=
    h.read (SymbolTable.lookupLocal · name) (SymbolTable.lookupLocal_unlined · name)
  rw [hsame, SymbolTable.lookupLocal, SymbolTable.lookupLocal, hname]

theorem size_eq (h : c.Tables first second) : first.entries.size = second.entries.size :=
  SymbolTable.size_eq h.unlined_eq

theorem modifyEntry (h : c.Tables first second) (id : EntryId) {change change' : Entry → Entry}
    (hchange : ∀ entry entry', c.Entries entry entry' → c.Entries (change entry) (change' entry')) :
    c.Tables (first.modifyEntry id change) (second.modifyEntry id change') := by
  have hsame (haligned : c.aligned) : change = change' :=
    funext fun entry => (hchange entry entry (.refl _)).eq haligned
  by_cases haligned : c.aligned
  · rw [h.eq haligned, hsame haligned]
  · exact ⟨SymbolTable.unlined_modifyEntry h.unlined_eq id fun entry entry' hentry =>
      (hchange entry entry' ⟨hentry, fun hyes => absurd hyes haligned⟩).unlined_eq,
      fun hyes => absurd hyes haligned⟩

/-- An operation that reads no line and writes none. -/
theorem change (h : c.Tables first second) (change change' : SymbolTable → SymbolTable)
    (hchange : ∀ table, (change table).unlined = change' table.unlined) :
    c.Tables (change first) (change second) where
  unlined_eq := by rw [hchange, hchange, h.unlined_eq]
  eq haligned := by rw [h.eq haligned]

theorem bindNew (h : c.Tables first second) (key : String) :
    c.Tables (first.bindNew key) (second.bindNew key) :=
  h.change (·.bindNew key) (·.bindNew key) (SymbolTable.unlined_bindNew · key)

theorem program_eq (h : c.Tables first second) : first.program = second.program :=
  h.read SymbolTable.program SymbolTable.program_unlined

theorem scopes_eq (h : c.Tables first second) : first.scopes = second.scopes :=
  h.read SymbolTable.scopes SymbolTable.scopes_unlined

theorem push (h : c.Tables first second) : c.Tables first.push.2 second.push.2 :=
  h.change (·.push.2) (·.push.2) SymbolTable.unlined_push

theorem push_eq (h : c.Tables first second) : first.push.1 = second.push.1 :=
  congrArg Array.size h.scopes_eq

theorem pop (h : c.Tables first second) : c.Tables first.pop.2 second.pop.2 :=
  h.change (·.pop.2) (·.pop.2) SymbolTable.unlined_pop

theorem pop_eq (h : c.Tables first second) : first.pop.1 = second.pop.1 :=
  h.read (·.pop.1) fun table => by
    unfold SymbolTable.pop
    rw [SymbolTable.openScopes_unlined]
    split <;> rfl

theorem localScope_eq (h : c.Tables first second) : first.localScope = second.localScope :=
  h.read SymbolTable.localScope SymbolTable.localScope_unlined

theorem takeSlot (h : c.Tables first second) : c.Tables first.takeSlot.2 second.takeSlot.2 :=
  h.change (·.takeSlot.2) (·.takeSlot.2) SymbolTable.unlined_takeSlot

theorem takeSlot_eq (h : c.Tables first second) : first.takeSlot.1 = second.takeSlot.1 :=
  congrArg Scope.nextSlot h.localScope_eq

theorem createDetached (h : c.Tables first second) {name name' : String}
    (hname : Text.lower name = Text.lower name') (definition : Definition) (type : DataType) :
    c.Tables (first.createDetached name definition type).2
      (second.createDetached name' definition type).2 := by
  have hsame : (second.createDetached name' definition type).2 =
      (second.createDetached name definition type).2 := by
    simp only [SymbolTable.createDetached, hname]
  rw [hsame]
  exact h.change (·.createDetached name definition type |>.2)
    (·.createDetached name definition.unlined type |>.2) (SymbolTable.unlined_createDetached · name _ type)

end Tables

/-! ### Tokens, budgets and loops -/

theorem isEnd_eq {first second : Token} (h : c.token first second) : first.isEnd = second.isEnd := by
  rw [Token.isEnd, Token.isEnd, c.kind_eq h]

theorem scanError?_eq {first second : Token} (h : c.token first second) :
    first.scanError? = second.scanError? := by
  rw [Token.scanError?, Token.scanError?, c.value_eq h]

theorem reports_of {first second : Token} (h : c.token first second) :
    List.Forall₂ c.Reports first.reports second.reports := by
  unfold Token.reports
  rw [scanError?_eq h]
  cases second.scanError? with
  | none => exact .nil
  | some reason => exact .cons ⟨first, second, _, h, rfl, rfl⟩ .nil

namespace Depths

variable {first second : Nat}

theorem cases_zero (h : c.Depths 0 second) : c.shorter ∨ second = 0 := by
  by_cases hshorter : c.shorter
  · exact .inl hshorter
  · exact .inr (h.eq hshorter).symm

theorem exists_succ (h : c.Depths (first + 1) second) :
    ∃ fewer, second = fewer + 1 ∧ c.Depths first fewer := by
  have hpos : 0 < second := Nat.lt_of_lt_of_le (Nat.succ_pos _) h.le
  obtain ⟨fewer, rfl⟩ := Nat.exists_eq_succ_of_ne_zero (Nat.ne_of_gt hpos)
  exact ⟨fewer, rfl, Nat.le_of_succ_le_succ h.le, fun hshorter => Nat.succ.inj (h.eq hshorter)⟩

end Depths

instance : c.Covers (Eq (α := α)) := ⟨fun _ _ => rfl⟩

instance : c.Covers c.token := ⟨c.token_refl⟩

instance : c.Covers c.Depths := ⟨fun _ depth => ⟨Nat.le_refl depth, fun _ => rfl⟩⟩

instance {unlined : α → α} : c.Covers (c.Like unlined) := ⟨fun _ => .refl⟩

instance {related : σ → σ → Prop} [hcovers : c.Covers related] : c.Covers (Turned related) where
  refl hshorter
    | .done state => .done (hcovers.refl hshorter state)
    | .yield state => .yield (hcovers.refl hshorter state)

/-! ### Sessions -/

/-- Two sessions that correspond. -/
structure Sessions (c : Coupling) (first second : Session) : Prop where
  cursor : c.cursor first.cursor second.cursor
  table : c.Tables first.table second.table
  diagnostics : List.Forall₂ c.Reports first.diagnostics second.diagnostics
  dummies : first.dummies = second.dummies

/-- A session of the shorter compilation that has come to the end of the file. -/
structure Lost (c : Coupling) (session : Session) : Prop where
  shorter : c.shorter
  isEnd : session.cursor.current.isEnd = true

/-- How the ends of two runs compare: they correspond, unless the first run got lost, or was interrupted
where the second would have gone further. -/
def Outcomes (c : Coupling) (related : α → α → Prop) :
    Except Interruption (α × Session) → Except Interruption (α × Session) → Prop
  | .ok (answer, session), .ok (answer', session') =>
    c.Lost session ∨ related answer answer' ∧ c.Sessions session session'
  | .ok (_, session), .error _ => c.Lost session
  | .error cause, .error cause' => c.shorter ∨ c.Like Interruption.unlined cause cause'
  | .error _, .ok _ => c.shorter

/-- Two productions that come from corresponding sessions to corresponding ends; and what any run of the
first keeps, where the first compilation may get lost. -/
structure Mirrors (c : Coupling) (related : α → α → Prop) (first second : Production α) : Prop where
  keeps : c.shorter → ∀ {session later : Session} {answer : α},
    first session = .ok (answer, later) → session.Kept later
  outcomes : ∀ {session session' : Session}, c.Sessions session session' →
    c.Outcomes related (first session) (second session')

end Coupling

end FrontEnd
