import FrontEnd.Compile.Unit
import FrontEnd.Proofs.Table

/-!
# Tables and trees without their line numbers

A compilation records lines in three places: on nodes, on entries, and in its reports.  `unlined` takes
them out of the first two.  Of a node it keeps whether there is a line, and of an entry nothing, since a
line on which a name has been seen already is not listed again and so even the number of lines depends on
where the lines end.

No operation on a symbol table reads a line.  So each does the same to two tables that differ only in
lines: the equations below say that taking the lines out commutes with it, and `unlined_modifyEntry` says
it of a change of one entry, whatever it is.
-/

namespace FrontEnd

/-! ## Trees -/

namespace Node

mutual

/-- The tree with every line number replaced by zero. -/
def unlined : Node → Node
  | ⟨kind, children, type, line, entry, value⟩ =>
    ⟨kind, unlinedAll children, type, line.map fun _ => 0, entry, value⟩

/-- Several trees with every line number replaced by zero. -/
def unlinedAll : List Node → List Node
  | [] => []
  | node :: nodes => node.unlined :: unlinedAll nodes

end

theorem unlinedAll_eq (nodes : List Node) : unlinedAll nodes = nodes.map unlined := by
  induction nodes with
  | nil => rfl
  | cons node nodes ih => rw [unlinedAll, ih, List.map_cons]

theorem unlined_eq (node : Node) :
    node.unlined =
      { node with children := unlinedAll node.children, line := node.line.map fun _ => 0 } := by
  cases node
  rw [unlined]

@[simp] theorem kind_unlined (node : Node) : node.unlined.kind = node.kind := by
  rw [unlined_eq]

@[simp] theorem line_unlined (node : Node) : node.unlined.line = node.line.map fun _ => 0 := by
  rw [unlined_eq]

@[simp] theorem type_unlined (node : Node) : node.unlined.type = node.type := by
  rw [unlined_eq]

theorem unlinedAll_append (first second : List Node) :
    unlinedAll (first ++ second) = unlinedAll first ++ unlinedAll second := by
  simp [unlinedAll_eq]

theorem length_eq {first second : List Node} (h : unlinedAll first = unlinedAll second) :
    first.length = second.length := by
  simpa [unlinedAll_eq] using congrArg List.length h

end Node

/-! ## Entries -/

/-- The routine with the line numbers of its body replaced. -/
def Routine.unlined (routine : Routine) : Routine :=
  { routine with body := routine.body.map Node.unlined }

/-- The definition with the line numbers of its body replaced. -/
def Definition.unlined (definition : Definition) : Definition :=
  definition.mapRoutine Routine.unlined

/-- The entry without the lines on which its name appears, and its body with its line numbers
replaced. -/
def Entry.unlined (entry : Entry) : Entry :=
  { entry with definition := entry.definition.unlined, lines := [] }

namespace Definition

@[simp] theorem kind_unlined (definition : Definition) : definition.unlined.kind = definition.kind := by
  cases definition <;> rfl

theorem routine?_unlined (definition : Definition) :
    definition.unlined.routine? = definition.routine?.map Routine.unlined := by
  cases definition <;> rfl

/-- Changes that do the same to routines that differ only in lines do the same to such definitions. -/
theorem unlined_mapRoutine {first second : Definition} (h : first.unlined = second.unlined)
    {change change' : Routine → Routine}
    (hchange : ∀ routine routine' : Routine, routine.unlined = routine'.unlined →
      (change routine).unlined = (change' routine').unlined) :
    (first.mapRoutine change).unlined = (second.mapRoutine change').unlined := by
  cases first <;> cases second <;> simp only [unlined, mapRoutine, reduceCtorEq, program.injEq,
    procedure.injEq, function.injEq] at h ⊢ <;> first | exact hchange _ _ h | exact h

end Definition

namespace Entry

@[simp] theorem name_unlined (entry : Entry) : entry.unlined.name = entry.name := rfl

@[simp] theorem type_unlined (entry : Entry) : entry.unlined.type = entry.type := rfl

@[simp] theorem definition_unlined (entry : Entry) :
    entry.unlined.definition = entry.definition.unlined := rfl

@[simp] theorem kind_unlined (entry : Entry) : entry.unlined.kind = entry.kind :=
  entry.definition.kind_unlined

@[simp] theorem resolvedType_unlined (entry : Entry) :
    entry.unlined.resolvedType = entry.resolvedType := rfl

theorem routine?_unlined (entry : Entry) :
    entry.unlined.routine? = entry.routine?.map Routine.unlined :=
  entry.definition.routine?_unlined

@[simp] theorem unlined_addLine (entry : Entry) (line : Nat) :
    (entry.addLine line).unlined = entry.unlined := by
  unfold addLine
  split <;> rfl

end Entry

/-! ## Tables -/

namespace SymbolTable

/-- The table without its line numbers. -/
def unlined (table : SymbolTable) : SymbolTable :=
  { table with entries := table.entries.map Entry.unlined }

variable {table other : SymbolTable}

@[simp] theorem size_unlined (table : SymbolTable) :
    table.unlined.entries.size = table.entries.size := by
  simp [unlined]

@[simp] theorem scopes_unlined (table : SymbolTable) : table.unlined.scopes = table.scopes := rfl

@[simp] theorem program_unlined (table : SymbolTable) : table.unlined.program = table.program := rfl

@[simp] theorem openScopes_unlined (table : SymbolTable) :
    table.unlined.openScopes = table.openScopes := rfl

@[simp] theorem entry_unlined (table : SymbolTable) (id : EntryId) :
    table.unlined.entry id = (table.entry id).unlined := by
  unfold entry unlined
  cases h : table.entries[id]? <;> simp [h]
  rfl

@[simp] theorem lookup_unlined (table : SymbolTable) (name : String) :
    table.unlined.lookup name = table.lookup name := rfl

@[simp] theorem lookupLocal_unlined (table : SymbolTable) (name : String) :
    table.unlined.lookupLocal name = table.lookupLocal name := rfl

@[simp] theorem localScope_unlined (table : SymbolTable) :
    table.unlined.localScope = table.localScope := rfl

theorem unlined_bindNew (table : SymbolTable) (key : String) :
    (table.bindNew key).unlined = table.unlined.bindNew key := by
  simp [unlined, bindNew, localScopeId, Entry.unlined, Definition.unlined, Definition.mapRoutine]

theorem unlined_createDetached (table : SymbolTable) (name : String) (definition : Definition)
    (type : DataType) :
    (table.createDetached name definition type).2.unlined =
      (table.unlined.createDetached name definition.unlined type).2 := by
  simp [unlined, createDetached, localScopeId, Entry.unlined]

theorem unlined_push (table : SymbolTable) : table.push.2.unlined = table.unlined.push.2 := rfl

theorem unlined_pop (table : SymbolTable) : table.pop.2.unlined = table.unlined.pop.2 := by
  unfold pop
  rw [openScopes_unlined]
  split <;> rfl

theorem unlined_takeSlot (table : SymbolTable) :
    table.takeSlot.2.unlined = table.unlined.takeSlot.2 := rfl

theorem size_eq (h : table.unlined = other.unlined) : table.entries.size = other.entries.size := by
  rw [← size_unlined table, h, size_unlined]

/-- Changes that do the same to entries that differ only in lines do the same to such tables. -/
theorem unlined_modifyEntry (h : table.unlined = other.unlined) (id : EntryId)
    {change change' : Entry → Entry}
    (hchange : ∀ entry entry' : Entry, entry.unlined = entry'.unlined →
      (change entry).unlined = (change' entry').unlined) :
    (table.modifyEntry id change).unlined = (other.modifyEntry id change').unlined := by
  have hentries : (table.entries.modify id change).map Entry.unlined =
      (other.entries.modify id change').map Entry.unlined := by
    have hsame : table.entries.map Entry.unlined = other.entries.map Entry.unlined :=
      congrArg SymbolTable.entries h
    refine Array.ext_getElem? fun index => ?_
    have hat := congrArg (fun entries => entries[index]?) hsame
    simp only [Array.getElem?_map, Array.getElem?_modify] at hat ⊢
    cases hfirst : table.entries[index]? <;> cases hsecond : other.entries[index]? <;>
      simp only [hfirst, hsecond, Option.map_none, Option.map_some, Option.some.injEq,
        reduceCtorEq] at hat ⊢
    · split
      · simpa using hchange _ _ hat
      · simpa using hat
  simp only [unlined, mk.injEq] at h
  simp only [unlined, modifyEntry, mk.injEq]
  exact ⟨hentries, h.2⟩

end SymbolTable

end FrontEnd
