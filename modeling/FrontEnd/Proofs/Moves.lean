import FrontEnd.Proofs.Steady

/-!
# What stays inside a scope

Most productions never leave the scope in which they begin.  Whatever they do to a session, they do in
single *moves*: they read on (`Session.Reads`), report a redefinition, or extend the table in one of the
four ways of `SymbolTable.Extends`.  The conditions on a move are those that the whole of a unit depends on:

* a repeated header is never reported here;
* a redefinition is reported only of a name that the innermost scope binds;
* an entry that is not bound to its name is a plain variable with the name of the routine, which is the
  target of a return;
* parameters are entered in headers and variables elsewhere.

Unlike a step (`Step`), a move asks nothing of the session, so what is said of moves holds of every run of
a production, from whatever session it begins (`Production.Stays`).  The open scopes are then never
touched (`Session.Moves.openScopes`), and from a valid table on, the innermost scope only grows
(`Session.Moves.steady`).
-/

namespace FrontEnd

/-! ## Extensions of a table -/

namespace SymbolTable

/-- What is done to the table inside a scope, where variables and parameters of the kinds `stores` can be
entered; `owner` is the routine whose returns are compiled. -/
inductive Extends (stores : List DefinitionKind) (owner : EntryId) (table : SymbolTable) : SymbolTable → Prop
  | mention (id : EntryId) (line : Nat) :
      Extends stores owner table (table.modifyEntry id (·.addLine line))
  | declare (name : String) (definition : Definition) (type : DataType) :
      table.lookupLocal name = none → definition.routine? = none → definition.slot? = none →
      Extends stores owner table
        ((table.bindNew (Text.lower name)).modifyEntry table.entries.size fun entry =>
          { entry with definition, type := some type })
  | store (name : String) (kind : DefinitionKind) (type : DataType) :
      table.lookupLocal name = none → kind ∈ stores →
      kind = .plainVariable ∨ kind = .valueParameter →
      Extends stores owner table
        ((table.bindNew (Text.lower name)).takeSlot.2.modifyEntry table.entries.size fun entry =>
          { entry with
            definition := .ofStorage kind (table.bindNew (Text.lower name)).takeSlot.1
            type := some type })
  | target (type : DataType) :
      Extends stores owner table
        (table.createDetached (table.entry owner).name
          (.plainVariable table.localScope.nextSlot) type).2

namespace Extends

variable {stores : List DefinitionKind} {owner : EntryId} {table later : SymbolTable}

/-- These are changes that the inside of a routine can make. -/
theorem declares (h : Extends stores owner table later) : Declares (fun _ => True) table later := by
  cases h with
  | mention id line =>
      exact @Declares.mention _ table id ⟨.identifier, "", ⟨line, 1⟩, none⟩ trivial
  | declare name definition type hfree hroutine hslot =>
      exact @Declares.declare _ table ⟨.identifier, name, ⟨1, 1⟩, none⟩ definition type trivial rfl hfree
        hroutine hslot
  | store name kind type hfree hstores hkind =>
      exact @Declares.store _ table ⟨.identifier, name, ⟨1, 1⟩, none⟩ kind type trivial rfl hfree hkind
  | target type => exact .target owner type

theorem openScopes (h : Extends stores owner table later) : later.openScopes = table.openScopes := by
  cases h <;> rfl

end Extends

end SymbolTable

/-! ## Moves -/

/-- Whether an error of a kind says something about how names are declared. -/
def ErrorKind.ofNames (kind : ErrorKind) : Bool :=
  [identifierRedefined, alreadyForwarded].contains kind

theorem ErrorKind.ne_of_ofNames {kind : ErrorKind} (h : kind.ofNames = false) :
    kind ≠ .identifierRedefined ∧ kind ≠ .alreadyForwarded := by
  constructor <;> rintro rfl <;> simp [ofNames] at h

/-- Whether an error of a kind says neither how names are declared nor that a token is unexpected. -/
def ErrorKind.isPlain (kind : ErrorKind) : Bool :=
  !kind.ofNames && kind != unexpectedToken

theorem ErrorKind.ofNames_of_isPlain {kind : ErrorKind} (h : kind.isPlain = true) : kind.ofNames = false := by
  simp only [isPlain, Bool.and_eq_true, Bool.not_eq_true'] at h
  exact h.1

theorem ErrorKind.ne_of_isPlain {kind : ErrorKind} (h : kind.isPlain = true) : kind ≠ unexpectedToken := by
  rintro rfl
  simp [isPlain] at h

namespace Session

/-- What is done to a session where it is only read on: the cursor moves on, and errors are recorded that say
nothing about how names are declared. -/
inductive Reads (session : Session) : Session → Prop
  | intro (cursor : Cursor) (added : List Diagnostic) : session.cursor.ReadsOn cursor →
      (∀ report ∈ added, report.kind.ofNames = false) →
      Reads session { session with cursor, diagnostics := session.diagnostics ++ added }

/-- A single change that is made to a session inside a scope. -/
inductive Move (stores : List DefinitionKind) (owner : EntryId) (session : Session) : Session → Prop
  | read {later : Session} : session.Reads later → Move stores owner session later
  | redefined {token : Token} {id : EntryId} : session.table.lookupLocal token.text = some id →
      Move stores owner session
        { session with
          diagnostics := session.diagnostics ++ [Diagnostic.atToken token .identifierRedefined] }
  | extend {table : SymbolTable} : session.table.Extends stores owner table →
      Move stores owner session { session with table }

/-- Any number of moves. -/
def Moves (stores : List DefinitionKind) (owner : EntryId) : Session → Session → Prop :=
  Relation.ReflTransGen (Move stores owner)

namespace Reads

variable {first second third : Session}

theorem table_eq (h : first.Reads second) : second.table = first.table := by
  cases h
  rfl

theorem readsOn (h : first.Reads second) : first.cursor.ReadsOn second.cursor := by
  cases h with
  | intro cursor added hcursor hadded => exact hcursor

/-- An error that says nothing about how names are declared. -/
theorem flag (session : Session) (token : Token) {kind : ErrorKind} (hkind : kind.ofNames = false) :
    session.Reads
      { session with diagnostics := session.diagnostics ++ [Diagnostic.atToken token kind] } := by
  refine .intro session.cursor [Diagnostic.atToken token kind] .refl fun report hmem => ?_
  rw [List.mem_singleton.mp hmem]
  exact hkind

theorem look {session : Session} {cursor : Cursor} (hcursor : session.cursor.ReadsOn cursor) :
    session.Reads { session with cursor } := by
  have hread : session.Reads { session with
      cursor, diagnostics := session.diagnostics ++ [] } := .intro cursor [] hcursor (by simp)
  simpa using hread

theorem trans (h : first.Reads second) (h' : second.Reads third) : first.Reads third := by
  cases h with
  | intro cursor added hcursor hadded =>
      cases h' with
      | intro cursor' added' hcursor' hadded' =>
          have hboth : ∀ report ∈ added ++ added', report.kind.ofNames = false := by
            intro report hmem
            exact (List.mem_append.mp hmem).elim (hadded report) (hadded' report)
          have hread : first.Reads { first with
              cursor := cursor', diagnostics := first.diagnostics ++ (added ++ added') } :=
            .intro cursor' (added ++ added') (hcursor.trans hcursor') hboth
          simpa using hread

end Reads

instance : Std.Refl Reads := ⟨fun _ => .look .refl⟩

instance : IsTrans Session Reads := ⟨fun _ _ _ => .trans⟩

instance (stores : List DefinitionKind) (owner : EntryId) : Std.Refl (Moves stores owner) :=
  inferInstanceAs (Std.Refl (Relation.ReflTransGen _))

instance (stores : List DefinitionKind) (owner : EntryId) : IsTrans Session (Moves stores owner) :=
  inferInstanceAs (IsTrans Session (Relation.ReflTransGen _))

variable {stores : List DefinitionKind} {owner : EntryId} {session later : Session}

/-- What a move does to the table, if it does anything to it. -/
theorem Move.extends (h : Move stores owner session later) :
    later.table = session.table ∨ session.table.Extends stores owner later.table := by
  cases h with
  | read hreads => exact Or.inl hreads.table_eq
  | redefined => exact Or.inl rfl
  | extend htable => exact Or.inr htable

namespace Moves

theorem single (h : Move stores owner session later) : Moves stores owner session later :=
  Relation.ReflTransGen.single h

theorem trans {middle : Session} (h : Moves stores owner session middle)
    (h' : Moves stores owner middle later) : Moves stores owner session later :=
  Relation.ReflTransGen.trans h h'

theorem openScopes (h : Moves stores owner session later) :
    later.table.openScopes = session.table.openScopes := by
  induction h with
  | refl => rfl
  | tail _ hmove ih =>
      rcases hmove.extends with hsame | hextends
      · rw [hsame, ih]
      · rw [hextends.openScopes, ih]

/-- Entries are changed in their lines only, and no new one is a routine. -/
theorem grows (h : Moves stores owner session later) : session.table.Grows later.table := by
  induction h with
  | refl => exact .refl _
  | tail _ hmove ih =>
      rcases hmove.extends with hsame | hextends
      · rwa [hsame]
      · exact ih.trans hextends.declares.grows

theorem valid (h : Moves stores owner session later) (hvalid : session.table.Valid) :
    later.table.Valid := by
  induction h with
  | refl => exact hvalid
  | tail _ hmove ih =>
      rcases hmove.extends with hsame | hextends
      · rwa [hsame]
      · exact hextends.declares.valid ih

/-- A property of tables that outlasts extensions outlasts moves. -/
theorem table_of_extends (holds : SymbolTable → Prop) (h : Moves stores owner session later)
    (hvalid : session.table.Valid) (hholds : holds session.table)
    (hstep : ∀ first second : SymbolTable, first.Valid →
      session.table.Steady first → first.Extends stores owner second → holds first → holds second) :
    holds later.table ∧ session.table.Steady later.table := by
  induction h with
  | refl => exact ⟨hholds, .refl _⟩
  | @tail between after hmoves hmove ih =>
      rcases hmove.extends with hsame | hextends
      · rwa [hsame]
      · have hvalid' : between.table.Valid := Moves.valid hmoves hvalid
        refine ⟨hstep _ _ hvalid' ih.2 hextends ih.1, ?_⟩
        rcases hextends.declares.adds_or_retouches hvalid' with hadds | hretouches
        · exact ih.2.trans (.of_adds hadds)
        · exact ih.2.trans (.of_retouches hretouches)

theorem steady (h : Moves stores owner session later) (hvalid : session.table.Valid) :
    session.table.Steady later.table :=
  (h.table_of_extends (fun _ => True) hvalid trivial fun _ _ _ _ _ _ => trivial).2

/-- Of the errors that moves record, none is about a repeated header, and those about a redefinition name
what the innermost scope binds. -/
theorem reports (h : Moves stores owner session later) (hvalid : session.table.Valid) :
    ∃ added, later.diagnostics = session.diagnostics ++ added ∧
      ∀ report ∈ added, report.kind ≠ .alreadyForwarded ∧
        (report.kind = .identifierRedefined →
          later.table.localScope.get? (Text.lower report.text) ≠ none) := by
  induction h with
  | refl => exact ⟨[], (List.append_nil _).symm, by simp⟩
  | @tail between after hmoves hmove ih =>
      obtain ⟨added, hadded, hreports⟩ := ih
      cases hmove with
      | read hreads =>
          cases hreads with
          | intro cursor more hcursor hmore =>
              refine ⟨added ++ more, ?_, fun report hmem => ?_⟩
              · rw [hadded, List.append_assoc]
              · rcases List.mem_append.mp hmem with hold | hnew
                · exact hreports report hold
                · obtain ⟨hredefined, hforwarded⟩ := ErrorKind.ne_of_ofNames (hmore report hnew)
                  exact ⟨hforwarded, fun hsame => absurd hsame hredefined⟩
      | @redefined token id hbound =>
          refine ⟨added ++ [Diagnostic.atToken token .identifierRedefined], ?_, fun report hmem => ?_⟩
          · rw [hadded, List.append_assoc]
          · rcases List.mem_append.mp hmem with hold | hnew
            · exact hreports report hold
            · obtain rfl := List.mem_singleton.mp hnew
              have hget : between.table.localScope.get? (Text.lower token.text) = some id := hbound
              exact ⟨by simp [Diagnostic.atToken], fun _ => by simp [Diagnostic.atToken, hget]⟩
      | @extend table hextends =>
          refine ⟨added, hadded, fun report hmem => ⟨(hreports report hmem).1, fun hkind => ?_⟩⟩
          have hbefore := (hreports report hmem).2 hkind
          have hmore : between.table.Steady table :=
            (Moves.single (Move.extend hextends)).steady (Moves.valid hmoves hvalid)
          obtain ⟨id, hget⟩ := Option.ne_none_iff_exists'.mp hbefore
          have hkept : (table.scope between.table.localScopeId).get? (Text.lower report.text) = some id :=
            SymbolTable.get?_of_prefix (hmore.bindings _) hget
          show (table.scope table.localScopeId).get? _ ≠ none
          rw [hmore.localScopeId, hkept]
          exact Option.some_ne_none id

end Moves

end Session

end FrontEnd
