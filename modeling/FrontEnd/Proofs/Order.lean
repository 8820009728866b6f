import FrontEnd.Proofs.Lines
import FrontEnd.Proofs.Passage
import FrontEnd.Proofs.Sound
import FrontEnd.Proofs.Uses

/-!
# The order of what is recorded

Errors are recorded at tokens of the source, and so are the lines of names and of nodes.  `Session.Ordered` says of
a session that each of these tokens stands no later than the current one, that the lines of every entry are strictly
increasing, and that no error stands before one recorded earlier, unless it is of a kind that is found only after
more of the source has been read (`ErrorKind.late`).  It says besides that no integer in the table is out of range.

Whatever is so recorded stays where it is: from one session to a later one the current token only moves on, and the
lines of entries only become more (`Session.Onward`).

## Strategy

A production is `Orderly` in a session if it leaves an ordered one.  Most productions are so in every ordered
session, and then their parts can be put together like those of any relation (`Relates`); what they answer with, or
must be given, is said where it matters: a token that has been read (`Session.Seen`), or a tree whose nodes have
their places (`Session.Places`).

The lines that are recorded for a name are those of the current token, with one exception: a constant or a type is
declared after its definition has been read.  But then its entry is a new one, without any line.
-/

namespace FrontEnd

/-- The errors that are found only after what follows their token has been read. -/
def ErrorKind.late : List ErrorKind :=
  [identifierRedefined, incompatibleTypes, invalidAssignToVoid, wrongParameterCount]

/-- Whether the type is no array with more elements than the largest integer. -/
def DataType.InRange : DataType → Prop
  | array _ count => count ≤ Lexeme.largestInteger
  | _ => True

/-- Whether the constant is no integer that is out of range. -/
def ConstantValue.InRange : ConstantValue → Prop
  | integer value => FrontEnd.InRange value
  | _ => True

/-! ## Nodes and entries -/

/-- Whether a node has a line up to `last`, if any, which for a call is one of those of the routine, and is
not out of range. -/
structure Node.Placed (table : SymbolTable) (last : Nat) (node : Node) : Prop where
  line : ∀ line, node.line = some line → 1 ≤ line ∧ line ≤ last
  call : node.kind = .call →
    ∃ id line, node.entry = some id ∧ node.line = some line ∧ line ∈ (table.entry id).lines
  integer : node.kind = .integerConstant → ∃ value, node.value = some (.integer value) ∧ InRange value
  type : node.kind ≠ .stringConstant → node.type.InRange

/-- Whether the lines of an entry are strictly increasing, up to `last`, and nothing in it is out of range. -/
structure Entry.Placed (table : SymbolTable) (last : Nat) (entry : Entry) : Prop where
  sorted : entry.lines.Pairwise (· < ·)
  bounds : ∀ line ∈ entry.lines, 1 ≤ line ∧ line ≤ last
  type : ∀ type, entry.type = some type → type.InRange
  constant : ∀ value, entry.definition = .constant value → value.InRange
  body : ∀ body ∈ entry.body?, ∀ node ∈ body.nodes, node.Placed table last

namespace Entry

variable {table : SymbolTable} {last : Nat} {entry : Entry}

/-- Of what has just been entered, nothing is known yet. -/
theorem Placed.new (name : String) (scope : ScopeId) : Placed table last { name, scope } where
  sorted := .nil
  bounds := by simp
  type := by simp
  constant := by simp
  body := by simp [body?, routine?, Definition.routine?]

theorem Placed.resolvedType (h : entry.Placed table last) : entry.resolvedType.InRange := by
  rw [Entry.resolvedType]
  cases htype : entry.type with
  | none => trivial
  | some type => exact h.type type htype

theorem lines_addLine (entry : Entry) (line : Nat) : entry.lines ⊆ (entry.addLine line).lines := by
  unfold addLine
  split
  · exact List.Subset.refl _
  · exact List.subset_append_left _ _

theorem mem_lines_addLine (entry : Entry) (line : Nat) : line ∈ (entry.addLine line).lines := by
  unfold addLine
  split
  · next hmem => simpa using hmem
  · simp

/-- A line that is recorded after all others is the last of them. -/
theorem Placed.addLine (h : entry.Placed table last) {line : Nat} (hline : 1 ≤ line ∧ line ≤ last)
    (hafter : ∀ earlier ∈ entry.lines, earlier ≤ line) : (entry.addLine line).Placed table last := by
  unfold Entry.addLine
  split
  · exact h
  · next hnot =>
      have hnot : line ∉ entry.lines := by simpa using hnot
      have hbefore (earlier : Nat) (hmem : earlier ∈ entry.lines) : earlier < line :=
        Nat.lt_of_le_of_ne (hafter earlier hmem) fun heq => hnot (heq ▸ hmem)
      exact {
        sorted := List.pairwise_append.mpr ⟨h.sorted, List.pairwise_singleton _ _, by simpa using hbefore⟩
        bounds := by
          intro other hmem
          rcases List.mem_append.mp hmem with hmem | hmem
          · exact h.bounds other hmem
          · exact List.mem_singleton.mp hmem ▸ hline
        type := h.type
        constant := h.constant
        body := h.body }

/-- An entry that is given another meaning keeps its lines. -/
theorem Placed.define (h : entry.Placed table last) {definition : Definition} {type : Option DataType}
    (htype : ∀ given, type = some given → given.InRange)
    (hconstant : ∀ value, definition = .constant value → value.InRange)
    (hbody : ∀ body ∈ Entry.body? { entry with definition }, ∀ node ∈ body.nodes, node.Placed table last) :
    Placed table last { entry with definition, type } where
  sorted := h.sorted
  bounds := h.bounds
  type := htype
  constant := hconstant
  body := hbody

/-- An entry that is given a meaning other than that of a routine. -/
theorem Placed.declare (h : entry.Placed table last) (definition : Definition) (type : DataType)
    (hroutine : definition.routine? = none) (hconstant : ∀ value, definition = .constant value → value.InRange)
    (htype : type.InRange) : Placed table last { entry with definition, type := some type } :=
  h.define (by rintro _ ⟨⟩; exact htype) hconstant (by simp [body?, routine?, hroutine])

end Entry

/-- What has its place keeps it while lines are added and the source is read on. -/
theorem Node.Placed.mono {first second : SymbolTable} {last later : Nat} {node : Node}
    (h : node.Placed first last) (hlines : ∀ id, (first.entry id).lines ⊆ (second.entry id).lines)
    (hle : last ≤ later) : node.Placed second later where
  line line hline := ⟨(h.line line hline).1, Nat.le_trans (h.line line hline).2 hle⟩
  call hcall := by
    obtain ⟨id, line, hentry, hline, hmem⟩ := h.call hcall
    exact ⟨id, line, hentry, hline, hlines id hmem⟩
  integer := h.integer
  type := h.type

theorem Entry.Placed.mono {first second : SymbolTable} {last later : Nat} {entry : Entry}
    (h : entry.Placed first last) (hlines : ∀ id, (first.entry id).lines ⊆ (second.entry id).lines)
    (hle : last ≤ later) : entry.Placed second later where
  sorted := h.sorted
  bounds line hline := ⟨(h.bounds line hline).1, Nat.le_trans (h.bounds line hline).2 hle⟩
  type := h.type
  constant := h.constant
  body body hbody node hnode := (h.body body hbody node hnode).mono hlines hle

/-! ## Sessions -/

namespace Session

variable {tokens : List Token} {session between later : Session} {token : Token}

/-- Whether all that has been recorded is in order, for the tokens of a source. -/
structure Ordered (tokens : List Token) (session : Session) : Prop where
  scanned : Scanned tokens
  unread : session.cursor.unread <:+ tokens
  reports : ∀ report ∈ session.diagnostics, ∃ token ∈ tokens, report.location = token.location ∧
    report.text = token.text ∧ token.line ≤ session.cursor.current.line
  sorted : session.diagnostics.Pairwise fun earlier later =>
    earlier.location.line ≤ later.location.line ∨ later.kind ∈ ErrorKind.late
  entries : ∀ id, (session.table.entry id).Placed session.table session.cursor.current.line

/-- Whether the source has been read on, and all lines of entries have been kept. -/
structure Onward (session later : Session) : Prop where
  line : session.cursor.current.line ≤ later.cursor.current.line
  lines : ∀ id, (session.table.entry id).lines ⊆ (later.table.entry id).lines

/-- Whether a token is one of the source that has been read. -/
structure Seen (tokens : List Token) (session : Session) (token : Token) : Prop where
  mem : token ∈ tokens
  line : token.line ≤ session.cursor.current.line

/-- Whether all nodes of a tree have their places. -/
def Places (session : Session) (tree : Node) : Prop :=
  ∀ node ∈ tree.nodes, node.Placed session.table session.cursor.current.line

namespace Onward

@[refl] theorem refl (session : Session) : session.Onward session :=
  ⟨Nat.le_refl _, fun _ => List.Subset.refl _⟩

theorem trans (h : session.Onward between) (h' : between.Onward later) : session.Onward later :=
  ⟨Nat.le_trans h.line h'.line, fun id => List.Subset.trans (h.lines id) (h'.lines id)⟩

theorem seen (h : session.Onward later) (htoken : session.Seen tokens token) : later.Seen tokens token :=
  ⟨htoken.mem, Nat.le_trans htoken.line h.line⟩

theorem places (h : session.Onward later) {tree : Node} (htree : session.Places tree) : later.Places tree :=
  fun node hnode => (htree node hnode).mono h.lines h.line

/-- What happens to the table while no token is consumed. -/
theorem of_entries {table : SymbolTable}
    (hlines : ∀ id, (session.table.entry id).lines ⊆ (table.entry id).lines) :
    session.Onward { session with table } :=
  ⟨Nat.le_refl _, hlines⟩

end Onward

/-! ### Trees -/

/-- A node has its place if it is no call and no integer, and its line and its type are in order. -/
theorem Places.node {tree : Node} (hcall : tree.kind ≠ .call) (hinteger : tree.kind ≠ .integerConstant)
    (hline : ∀ line, tree.line = some line → 1 ≤ line ∧ line ≤ session.cursor.current.line) (htype : tree.type.InRange)
    (hchildren : ∀ child ∈ tree.children, session.Places child) : session.Places tree := by
  refine Node.forall_nodes ?_ hchildren
  exact ⟨hline, fun h => absurd h hcall, fun h => absurd h hinteger, fun _ => htype⟩

theorem Places.children {tree : Node} (h : session.Places tree) :
    ∀ child ∈ tree.children, session.Places child := by
  intro child hchild node hnode
  refine h node ?_
  rw [Node.nodes_eq]
  exact List.mem_cons_of_mem _ (List.mem_flatMap.mpr ⟨child, hchild, hnode⟩)

theorem Places.root {tree : Node} (h : session.Places tree) :
    tree.Placed session.table session.cursor.current.line := by
  refine h tree ?_
  rw [Node.nodes_eq]
  exact List.mem_cons_self ..

namespace Ordered

theorem current_mem (h : session.Ordered tokens) : session.cursor.current ∈ tokens :=
  h.unread.subset (List.mem_cons_self ..)

theorem seen (h : session.Ordered tokens) : session.Seen tokens session.cursor.current :=
  ⟨h.current_mem, Nat.le_refl _⟩

theorem line_of_seen (h : session.Ordered tokens) (htoken : session.Seen tokens token) :
    1 ≤ token.line ∧ token.line ≤ session.cursor.current.line :=
  ⟨h.scanned.positive token htoken.mem, htoken.line⟩

/-- No token that is still unread stands before the current one. -/
theorem line_le (h : session.Ordered tokens) (hmem : token ∈ session.cursor.unread) :
    session.cursor.current.line ≤ token.line := by
  rcases List.mem_cons.mp hmem with rfl | hmem
  · exact Nat.le_refl _
  · exact (List.pairwise_cons.mp (h.scanned.sorted.sublist h.unread.sublist)).1 token hmem

theorem line_of_report (h : session.Ordered tokens) {report : Diagnostic} (hmem : report ∈ session.diagnostics) :
    report.location.line ≤ session.cursor.current.line := by
  obtain ⟨token, -, hlocation, -, hline⟩ := h.reports report hmem
  rw [hlocation]
  exact hline

/-- Reading on, whatever is found to be wrong at the token that is reached. -/
theorem read (h : session.Ordered tokens) {cursor : Cursor} (hunread : cursor.unread <:+ session.cursor.unread)
    (found : List Diagnostic) (hfound : ∀ report ∈ found, ∃ kind, report = .atToken cursor.current kind) :
    Ordered tokens { session with cursor, diagnostics := session.diagnostics ++ found } ∧
      session.Onward { session with cursor, diagnostics := session.diagnostics ++ found } := by
  have hmem : cursor.current ∈ session.cursor.unread := hunread.subset (List.mem_cons_self ..)
  have hline : session.cursor.current.line ≤ cursor.current.line := h.line_le hmem
  have honward : session.Onward { session with cursor, diagnostics := session.diagnostics ++ found } :=
    ⟨hline, fun _ => List.Subset.refl _⟩
  have hlocated (report : Diagnostic) (hreport : report ∈ found) :
      report.location = cursor.current.location ∧ report.text = cursor.current.text := by
    obtain ⟨kind, rfl⟩ := hfound report hreport
    exact ⟨rfl, rfl⟩
  refine ⟨?_, honward⟩
  exact {
    scanned := h.scanned
    unread := hunread.trans h.unread
    reports := by
      intro report hreport
      rcases List.mem_append.mp hreport with hold | hnew
      · obtain ⟨token, htoken, hlocation, htext, hle⟩ := h.reports report hold
        exact ⟨token, htoken, hlocation, htext, Nat.le_trans hle hline⟩
      · obtain ⟨hlocation, htext⟩ := hlocated report hnew
        exact ⟨cursor.current, h.unread.subset hmem, hlocation, htext, Nat.le_refl _⟩
    sorted := by
      refine List.pairwise_append.mpr ⟨h.sorted, ?_, fun earlier hold later hnew => .inl ?_⟩
      · refine List.pairwise_of_forall_mem_list fun earlier hearlier later hlater => .inl ?_
        exact Nat.le_of_eq (by rw [(hlocated earlier hearlier).1, (hlocated later hlater).1])
      · rw [(hlocated later hnew).1]
        exact Nat.le_trans (h.line_of_report hold) hline
    entries := fun id => (h.entries id).mono honward.lines honward.line }

/-- What is recorded at a token that has been read is in order if it is found late, or no error stands after the
token. -/
theorem flag (h : session.Ordered tokens) (htoken : session.Seen tokens token) {kind : ErrorKind}
    (hlate : kind ∈ ErrorKind.late ∨ ∀ report ∈ session.diagnostics, report.location.line ≤ token.line) :
    Ordered tokens { session with diagnostics := session.diagnostics ++ [.atToken token kind] } where
  scanned := h.scanned
  unread := h.unread
  reports := by
    intro report hreport
    rcases List.mem_append.mp hreport with hold | hnew
    · exact h.reports report hold
    · obtain rfl := List.mem_singleton.mp hnew
      exact ⟨token, htoken.mem, rfl, rfl, htoken.line⟩
  sorted := by
    refine List.pairwise_append.mpr ⟨h.sorted, List.pairwise_singleton _ _, fun earlier hold later hnew => ?_⟩
    obtain rfl := List.mem_singleton.mp hnew
    exact hlate.symm.imp_left fun hbefore => hbefore earlier hold
  entries := h.entries

/-- A table in which entries have been added, or changed without taking lines away. -/
theorem retable (h : session.Ordered tokens) {table : SymbolTable}
    (hlines : ∀ id, (session.table.entry id).lines ⊆ (table.entry id).lines)
    (hentries : ∀ id, table.entry id = session.table.entry id ∨
      (table.entry id).Placed session.table session.cursor.current.line) :
    Ordered tokens { session with table } where
  scanned := h.scanned
  unread := h.unread
  reports := h.reports
  sorted := h.sorted
  entries id := by
    refine Entry.Placed.mono ?_ hlines (Nat.le_refl _)
    rcases hentries id with hsame | hplaced
    · exact hsame ▸ h.entries id
    · exact hplaced

/-- A table with one entry more. -/
theorem enlarge (h : session.Ordered tokens) {table : SymbolTable} {entry : Entry}
    (hentry : entry.Placed session.table session.cursor.current.line)
    (hentries : ∀ id, table.entry id =
      if id = session.table.entries.size then entry else session.table.entry id) :
    Ordered tokens { session with table } ∧ session.Onward { session with table } := by
  have hkept (id : EntryId) : (session.table.entry id).lines ⊆ (table.entry id).lines := by
    rw [hentries id]
    split
    · next hnew =>
        rw [SymbolTable.entry_of_size_le (Nat.le_of_eq hnew.symm)]
        exact List.nil_subset _
    · exact List.Subset.refl _
  refine ⟨h.retable hkept fun id => ?_, .of_entries hkept⟩
  rw [hentries id]
  split
  · exact .inr hentry
  · exact .inl rfl

/-- A table with one entry more, under no name. -/
theorem createDetached (h : session.Ordered tokens) (name : String) (definition : Definition)
    (hroutine : definition.routine? = none) (hconstant : ∀ value, definition = .constant value → value.InRange)
    {type : DataType} (htype : type.InRange) :
    Ordered tokens { session with table := (session.table.createDetached name definition type).2 } ∧
      session.Onward { session with table := (session.table.createDetached name definition type).2 } :=
  h.enlarge ((Entry.Placed.new _ _).declare definition type hroutine hconstant htype)
    (SymbolTable.entry_createDetached name definition type)

end Ordered

/-- Whether whatever was in order still is, and the source has been read on. -/
def Proceeds (tokens : List Token) (session later : Session) : Prop :=
  session.Ordered tokens → later.Ordered tokens ∧ session.Onward later

instance : Std.Refl (Proceeds tokens) :=
  ⟨fun session h => ⟨h, .refl session⟩⟩

instance : IsTrans Session (Proceeds tokens) :=
  ⟨fun _ _ _ h h' hordered => ⟨(h' (h hordered).1).1, (h hordered).2.trans (h' (h hordered).1).2⟩⟩

end Session

/-! ## Productions -/

namespace Production

open Session

variable {α β σ : Type} {tokens : List Token} {session : Session}

/-- Whether a production leaves everything in order, and an answer with `post`. -/
def Orderly (tokens : List Token) (production : Production α) (session : Session)
    (post : α → Session → Prop) : Prop :=
  Leads production session (fun _ => True) fun answer later =>
    later.Ordered tokens ∧ session.Onward later ∧ post answer later

namespace Orderly

variable {production : Production α} {next : α → Production β} {between : α → Session → Prop}

protected theorem pure {answer : α} {post : α → Session → Prop} (h : session.Ordered tokens)
    (hpost : post answer session) : Orderly tokens (pure answer) session post :=
  ⟨h, .refl session, hpost⟩

protected theorem bind {post : β → Session → Prop} (h : Orderly tokens production session between)
    (hnext : ∀ answer later, later.Ordered tokens → session.Onward later → between answer later →
      Orderly tokens (next answer) later post) :
    Orderly tokens (production >>= next) session post := by
  refine Leads.bind h fun answer later ⟨hordered, honward, hbetween⟩ => ?_
  refine Leads.imp (hnext answer later hordered honward hbetween) ?_
  exact fun _ _ ⟨hlast, honward', hpost⟩ => ⟨hlast, honward.trans honward', hpost⟩

theorem mono {post post' : α → Session → Prop} (h : Orderly tokens production session post)
    (hpost : ∀ answer later, later.Ordered tokens → session.Onward later → post answer later →
      post' answer later) : Orderly tokens production session post' :=
  Leads.imp h fun answer later ⟨hordered, honward, h⟩ =>
    ⟨hordered, honward, hpost answer later hordered honward h⟩

/-- A loop is orderly if each of its turns keeps an invariant. -/
protected theorem loop (invariant : σ → Session → Prop) {step : σ → Production (ForInStep σ)}
    {finished : σ → Session → Prop}
    (hstep : ∀ state turn, turn.Ordered tokens → session.Onward turn → invariant state turn →
      Orderly tokens (step state) turn (AfterTurn finished invariant))
    {state : σ} (h : session.Ordered tokens) (hinvariant : invariant state session) :
    Orderly tokens (loop step state) session finished := by
  have hturn (state : σ) (turn : Session)
      (h : turn.Ordered tokens ∧ session.Onward turn ∧ invariant state turn) :
      Leads (step state) turn (fun _ => True)
        (AfterTurn (fun state later => later.Ordered tokens ∧ session.Onward later ∧ finished state later)
          fun state later => later.Ordered tokens ∧ session.Onward later ∧ invariant state later) := by
    obtain ⟨hordered, honward, hinvariant⟩ := h
    refine Leads.imp (hstep state turn hordered honward hinvariant) ?_
    rintro (state | state) later ⟨hlater, honward', hpost⟩
    · exact ⟨hlater, honward.trans honward', hpost⟩
    · exact ⟨hlater, honward.trans honward', hpost⟩
  exact leads_loop hturn ⟨h, .refl session, hinvariant⟩

end Orderly

/-- What proceeds is orderly wherever everything is in order. -/
theorem Relates.orderly {production : Production α} (h : Relates (Proceeds tokens) production)
    (hsession : session.Ordered tokens) : Orderly tokens production session fun _ _ => True :=
  Leads.imp (h.leads session) fun _ _ hproceeds =>
    ⟨(hproceeds hsession).1, (hproceeds hsession).2, trivial⟩

/-- What is orderly wherever everything is in order proceeds. -/
theorem proceeds_of_orderly {production : Production α} {post : Session → α → Session → Prop}
    (h : ∀ session, session.Ordered tokens → Orderly tokens production session (post session)) :
    Relates (Proceeds tokens) production := by
  refine ⟨fun session => leads_of_imp fun hsession => ?_⟩
  exact Leads.imp (h session hsession) fun _ _ ⟨hlater, honward, _⟩ => ⟨hlater, honward⟩

/-- To proceed is to be orderly wherever everything is in order. -/
theorem proceeds_iff {production : Production α} :
    Relates (Proceeds tokens) production ↔
      ∀ session, session.Ordered tokens → Orderly tokens production session fun _ _ => True :=
  ⟨fun h _ hsession => h.orderly hsession, proceeds_of_orderly⟩

/-! ### Reading the session -/

@[simp] theorem orderly_current_bind (next : Token → Production α) {post : α → Session → Prop} :
    Orderly tokens (current >>= next) session post ↔
      Orderly tokens (next session.cursor.current) session post :=
  Iff.rfl

@[simp] theorem orderly_currentKind_bind (next : TokenKind → Production α) {post : α → Session → Prop} :
    Orderly tokens (currentKind >>= next) session post ↔
      Orderly tokens (next session.cursor.current.kind) session post :=
  Iff.rfl

@[simp] theorem orderly_check_bind (kind : TokenKind) (next : Bool → Production α)
    {post : α → Session → Prop} :
    Orderly tokens (check kind >>= next) session post ↔
      Orderly tokens (next (session.cursor.current.kind == kind)) session post :=
  Iff.rfl

@[simp] theorem orderly_position_bind (next : Nat → Production α) {post : α → Session → Prop} :
    Orderly tokens (position >>= next) session post ↔
      Orderly tokens (next session.cursor.position) session post :=
  Iff.rfl

@[simp] theorem orderly_budget_bind (next : Nat → Production α) {post : α → Session → Prop} :
    Orderly tokens (budget >>= next) session post ↔
      Orderly tokens (next (session.cursor.remaining + 2)) session post :=
  Iff.rfl

@[simp] theorem orderly_table_bind (next : SymbolTable → Production α) {post : α → Session → Prop} :
    Orderly tokens (table >>= next) session post ↔ Orderly tokens (next session.table) session post :=
  Iff.rfl

@[simp] theorem orderly_entry_bind (id : EntryId) (next : Entry → Production α) {post : α → Session → Prop} :
    Orderly tokens (entry id >>= next) session post ↔
      Orderly tokens (next (session.table.entry id)) session post :=
  Iff.rfl

@[simp] theorem orderly_lookup_bind (name : String) (next : Option EntryId → Production α)
    {post : α → Session → Prop} :
    Orderly tokens (lookup name >>= next) session post ↔
      Orderly tokens (next (session.table.lookup name)) session post :=
  Iff.rfl

/-! ### Tokens -/

/-- The next token is the current one, and nothing but what it is has been found to be wrong. -/
theorem orderly_nextToken (h : session.Ordered tokens) :
    Orderly tokens nextToken session fun token later =>
      later.cursor.current = token ∧ later.table = session.table ∧
        later.diagnostics = session.diagnostics ++ token.reports := by
  rcases hadvance : session.cursor.advance with ⟨result, cursor⟩
  cases result with
  | error failure => exact (leads_nextToken_error hadvance).mpr trivial
  | ok token =>
      refine (leads_nextToken hadvance).mpr ?_
      obtain rfl := Cursor.advance_current hadvance
      have hunread : cursor.unread <:+ session.cursor.unread := by
        cases hend : session.cursor.current.isEnd with
        | true => exact Cursor.advance_of_isEnd hadvance hend ▸ List.suffix_refl _
        | false => exact Cursor.unread_of_advance hadvance hend ▸ List.suffix_cons _ _
      obtain ⟨hlater, honward⟩ := h.read hunread cursor.current.reports fun report hmem => by
        obtain ⟨reason, -, rfl⟩ := List.mem_map.mp hmem
        exact ⟨_, rfl⟩
      exact ⟨hlater, honward, rfl, rfl, rfl⟩

theorem orderly_peekKind (h : session.Ordered tokens) :
    Orderly tokens peekKind session fun _ looked =>
      looked.cursor.current = session.cursor.current ∧ looked.table = session.table ∧
        looked.diagnostics = session.diagnostics := by
  rcases hpeek : session.cursor.peek with ⟨result, cursor⟩
  cases result with
  | error failure => exact (leads_peekKind_error hpeek).mpr trivial
  | ok token =>
      refine (leads_peekKind hpeek).mpr ?_
      have hunread : cursor.unread <:+ session.cursor.unread :=
        Cursor.unread_of_peek hpeek ▸ List.suffix_refl cursor.unread
      obtain ⟨hlater, honward⟩ := h.read hunread [] (by simp)
      rw [List.append_nil] at hlater honward
      exact ⟨hlater, honward, Cursor.peek_current hpeek, rfl, rfl⟩

theorem proceeds_nextToken : Relates (Proceeds tokens) nextToken :=
  proceeds_of_orderly fun _ => orderly_nextToken

theorem proceeds_peekKind : Relates (Proceeds tokens) peekKind :=
  proceeds_of_orderly fun _ => orderly_peekKind

theorem proceeds_matchToken (kind : TokenKind) : Relates (Proceeds tokens) (matchToken kind) :=
  (Relates.read _).bind fun _ => .ite (proceeds_nextToken.bind fun _ => .pure true) (.pure false)

theorem proceeds_matchAny (set : KindSet) : Relates (Proceeds tokens) (matchAny set) :=
  (Relates.read _).bind fun _ => .ite (proceeds_nextToken.bind fun _ => .pure true) (.pure false)

/-! ### The table -/

/-- What one entry is changed to has to keep its lines, and to be in order itself. -/
theorem orderly_changeEntry (h : session.Ordered tokens) (id : EntryId) {change : Entry → Entry}
    (hlines : (session.table.entry id).lines ⊆ (change (session.table.entry id)).lines)
    (hplaced : (change (session.table.entry id)).Placed session.table session.cursor.current.line) :
    Orderly tokens (changeEntry id change) session fun _ later =>
      later = { session with table := session.table.modifyEntry id change } := by
  have hkept (other : EntryId) :
      (session.table.entry other).lines ⊆ ((session.table.modifyEntry id change).entry other).lines := by
    rw [SymbolTable.entry_modifyEntry]
    split
    · next hsame => exact hsame.1 ▸ hlines
    · exact List.Subset.refl _
  refine ⟨h.retable hkept fun other => ?_, .of_entries hkept, rfl⟩
  rw [SymbolTable.entry_modifyEntry]
  split
  · exact .inr hplaced
  · exact .inl rfl

/-- The line of the current token is recorded after all others. -/
theorem orderly_addLine (h : session.Ordered tokens) (id : EntryId) :
    Orderly tokens (changeEntry id (·.addLine session.cursor.current.line)) session fun _ later =>
      later = { session with table := session.table.modifyEntry id (·.addLine session.cursor.current.line) } :=
  orderly_changeEntry h id (Entry.lines_addLine _ _)
    ((h.entries id).addLine (h.line_of_seen h.seen) fun earlier hmem => ((h.entries id).bounds earlier hmem).2)

/-- What changes no entry leaves everything in order. -/
theorem orderly_onTable (h : session.Ordered tokens) {change : SymbolTable → α × SymbolTable}
    (hsame : ∀ id, (change session.table).2.entry id = session.table.entry id) :
    Orderly tokens (onTable change) session fun _ later =>
      later.cursor = session.cursor ∧ ∀ id, later.table.entry id = session.table.entry id :=
  (leads_onTable change).mpr ⟨h.retable (fun id => hsame id ▸ List.Subset.refl _) fun id => .inl (hsame id),
    .of_entries fun id => hsame id ▸ List.Subset.refl _, rfl, hsame⟩

theorem orderly_enterOrDetach (h : session.Ordered tokens) (name : String) :
    Orderly tokens (enterOrDetach name) session fun _ later => later.cursor = session.cursor := by
  unfold enterOrDetach
  refine (leads_onTable _).mpr ?_
  unfold SymbolTable.enterLocal
  cases session.table.lookupLocal name with
  | none =>
      obtain ⟨hlater, honward⟩ := h.enlarge (.new _ _) (SymbolTable.entry_bindNew (Text.lower name))
      exact ⟨hlater, honward, rfl⟩
  | some found =>
      have hundefined : DataType.undefined.InRange := trivial
      obtain ⟨hlater, honward⟩ := h.createDetached name .undefined rfl nofun hundefined
      exact ⟨hlater, honward, rfl⟩

/-! ### Errors -/

theorem orderly_flagAt (h : session.Ordered tokens) {token : Token} (htoken : session.Seen tokens token)
    {kind : ErrorKind}
    (hlate : kind ∈ ErrorKind.late ∨ ∀ report ∈ session.diagnostics, report.location.line ≤ token.line) :
    Orderly tokens (flagAt token kind) session fun _ later =>
      later.cursor = session.cursor ∧ later.table = session.table :=
  ⟨h.flag htoken hlate, ⟨Nat.le_refl _, fun _ => List.Subset.refl _⟩, rfl, rfl⟩

theorem orderly_ensure (h : session.Ordered tokens) (holds : Bool) {token : Token}
    (htoken : session.Seen tokens token) {kind : ErrorKind}
    (hlate : kind ∈ ErrorKind.late ∨
      (holds = false → ∀ report ∈ session.diagnostics, report.location.line ≤ token.line)) :
    Orderly tokens (ensure holds token kind) session fun _ later =>
      later.cursor = session.cursor ∧ later.table = session.table := by
  cases holds with
  | true => exact .pure h ⟨rfl, rfl⟩
  | false => exact orderly_flagAt h htoken (hlate.imp_right fun hbefore => hbefore rfl)

/-- An error that is found at the current token stands after all others. -/
theorem orderly_flag (h : session.Ordered tokens) (kind : ErrorKind) :
    Orderly tokens (flag kind) session fun _ later =>
      later.cursor = session.cursor ∧ later.table = session.table :=
  orderly_flagAt h h.seen (.inr fun _ hmem => h.line_of_report hmem)

theorem orderly_ensure_current (h : session.Ordered tokens) (holds : Bool) (kind : ErrorKind) :
    Orderly tokens (ensure holds session.cursor.current kind) session fun _ later =>
      later.cursor = session.cursor ∧ later.table = session.table :=
  orderly_ensure h holds h.seen (.inr fun _ _ hmem => h.line_of_report hmem)

theorem proceeds_flag (kind : ErrorKind) : Relates (Proceeds tokens) (flag kind) :=
  proceeds_of_orderly fun _ h => orderly_flag h kind

theorem proceeds_expect (kind : TokenKind) (missing : ErrorKind) :
    Relates (Proceeds tokens) (expect kind missing) :=
  (proceeds_matchToken kind).bind fun _ => .ite (.pure ()) (proceeds_flag missing)

theorem proceeds_require (kind : TokenKind) (missing : ErrorKind) :
    Relates (Proceeds tokens) (require kind missing) :=
  proceeds_of_orderly fun _ h => orderly_ensure_current h _ missing

theorem proceeds_synchronize (set : KindSet) : Relates (Proceeds tokens) (synchronize set) := by
  have hskip : Relates (Proceeds tokens) (do loop (skipToken set) (← nextToken)) :=
    proceeds_nextToken.bind fun next => .loop (fun _ => .ite (.pure _) (proceeds_nextToken.bind fun _ => .pure _)) next
  refine proceeds_iff.mpr fun session h => ?_
  rw [synchronize, orderly_current_bind]
  split
  · exact .pure h trivial
  · exact .bind (orderly_ensure_current h _ _) fun _ noted hnoted _ _ => hskip.orderly hnoted

/-- A parse resumes with the token with which it is answered. -/
theorem orderly_synchronize (set : KindSet) (h : session.Ordered tokens) :
    Orderly tokens (synchronize set) session fun token later => later.cursor.current = token :=
  (((proceeds_synchronize set).orderly h).and (current_synchronize set session)).imp
    fun _ _ ⟨⟨hlater, honward, _⟩, htoken⟩ => ⟨hlater, honward, htoken⟩

end Production

end FrontEnd
