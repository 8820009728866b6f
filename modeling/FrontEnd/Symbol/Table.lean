import FrontEnd.Symbol.Entry
import FrontEnd.Text.Lowercase

/-!
# The symbol table

The table holds every entry and every scope ever created.  The scopes that are open form a stack on
the global scope, which is always open and is never closed; a name means what the innermost open scope
that binds it says.  Closing a scope takes it from the stack and leaves its entries in place, so that
code that refers to them stays valid.

Names are bound in lower case.  An entry can also be created detached: it belongs to the innermost
scope, but no name leads to it.

A handle that the table never gave out is answered with an entry or a scope without contents.
-/

namespace FrontEnd

/-- One level of declarations: what the names mean that it binds, the entries in the order in which they
were entered, and the slots it has handed out. -/
structure Scope where
  level : Nat
  bindings : List (String × EntryId) := []
  order : List EntryId := bindings.map Prod.snd
  nextSlot : Nat := 0
  maxSlot : Nat := 0
  order_eq : order = bindings.map Prod.snd := by rfl
deriving Repr

namespace Scope

/-- The entry that a name, given in lower case, is bound to. -/
def get? (scope : Scope) (name : String) : Option EntryId :=
  scope.bindings.lookup name

/-- The entries in the order in which they were entered. -/
def entries (scope : Scope) : List EntryId :=
  scope.order

/-- What is entered in a scope and what its names mean is the same. -/
theorem entries_eq (scope : Scope) : scope.entries = scope.bindings.map Prod.snd :=
  scope.order_eq

/-- The scope with one more binding, the last. -/
def bind (scope : Scope) (name : String) (id : EntryId) : Scope :=
  { scope with
      bindings := scope.bindings ++ [(name, id)]
      order := scope.order ++ [id]
      order_eq := by simp [scope.order_eq] }

/-- The scope after its next slot has been handed out. -/
def takeSlot (scope : Scope) : Scope :=
  { scope with maxSlot := scope.nextSlot, nextSlot := scope.nextSlot + 1 }

/-- The global scope before anything is entered in it. -/
def initial : Scope := { level := 0 }

end Scope

/-- All entries and scopes, the scopes that are open beside the global one (innermost first), and the
entry of the program. -/
structure SymbolTable where
  entries : Array Entry := #[]
  scopes : Array Scope := #[.initial]
  openScopes : List ScopeId := []
  program : Option EntryId := none

namespace SymbolTable

/-! ## Entries and scopes by handle -/

/-- The entry with a handle. -/
def entry (table : SymbolTable) (id : EntryId) : Entry :=
  table.entries[id]?.getD ⟨"", globalScope, .undefined, none, []⟩

/-- The scope with a handle. -/
def scope (table : SymbolTable) (id : ScopeId) : Scope :=
  table.scopes[id]?.getD { level := 0 }

/-- Changes one entry. -/
def modifyEntry (table : SymbolTable) (id : EntryId) (change : Entry → Entry) : SymbolTable :=
  { table with entries := table.entries.modify id change }

/-- Changes what is known about one routine. -/
def modifyRoutine (table : SymbolTable) (id : EntryId) (change : Routine → Routine) : SymbolTable :=
  table.modifyEntry id (·.mapRoutine change)

/-! ## Open scopes -/

/-- The innermost open scope. -/
def localScopeId (table : SymbolTable) : ScopeId :=
  table.openScopes.headD globalScope

/-- What the innermost open scope holds. -/
def localScope (table : SymbolTable) : Scope :=
  table.scope table.localScopeId

/-- How deep the innermost open scope is nested; the global scope has level zero. -/
def level (table : SymbolTable) : Nat := table.openScopes.length

/-- Opens a new empty scope. -/
def push (table : SymbolTable) : ScopeId × SymbolTable :=
  let id := table.scopes.size
  (id, { table with
          scopes := table.scopes.push { level := table.level + 1 }
          openScopes := id :: table.openScopes })

/-- Closes the innermost scope, unless it is the global one. -/
def pop (table : SymbolTable) : Option ScopeId × SymbolTable :=
  match table.openScopes with
  | [] => (none, table)
  | id :: outer => (some id, { table with openScopes := outer })

/-- Hands out the next slot of the innermost scope. -/
def takeSlot (table : SymbolTable) : Nat × SymbolTable :=
  (table.localScope.nextSlot,
    { table with scopes := table.scopes.modify table.localScopeId Scope.takeSlot })

/-! ## Names -/

/-- What a name means in the innermost scope alone. -/
def lookupLocal (table : SymbolTable) (name : String) : Option EntryId :=
  table.localScope.get? (Text.lower name)

/-- What a name means, from the innermost open scope outwards. -/
def lookup (table : SymbolTable) (name : String) : Option EntryId :=
  (table.openScopes ++ [globalScope]).findSome? fun id => (table.scope id).get? (Text.lower name)

/-- Binds a name, given in lower case, to a new entry in the innermost scope. -/
def bindNew (table : SymbolTable) (key : String) : SymbolTable :=
  { table with
      entries := table.entries.push { name := key, scope := table.localScopeId }
      scopes := table.scopes.modify table.localScopeId (·.bind key table.entries.size) }

/-- Binds a name to a new entry in the innermost scope, unless the scope binds it already. -/
def enterLocal (table : SymbolTable) (name : String) : Option (EntryId × SymbolTable) :=
  match table.lookupLocal name with
  | some _ => none
  | none => some (table.entries.size, table.bindNew (Text.lower name))

/-- Creates an entry of the innermost scope to which no name leads. -/
def createDetached (table : SymbolTable) (name : String) (definition : Definition)
    (type : DataType) : EntryId × SymbolTable :=
  (table.entries.size,
    { table with
        entries := table.entries.push
          { name := Text.lower name, scope := table.localScopeId, definition, type := some type } })

/-- Enters one predefined type. -/
def enterPredefined (table : SymbolTable) (scalar : Scalar) : SymbolTable :=
  match table.enterLocal scalar.name with
  | some (id, table) =>
    table.modifyEntry id fun entry =>
      { entry with definition := .type, type := some (.scalar scalar) }
  | none => table

/-- Enters the predefined types; the undefined type has no name. -/
def enterPredefinedTypes (table : SymbolTable) : SymbolTable :=
  [Scalar.int, .float, .double, .char, .void].foldl enterPredefined table

/-! ## Routines -/

/-- The first routine whose declarations are in a scope. -/
def scopeOwner (table : SymbolTable) (scope : ScopeId) : Option EntryId :=
  table.entries.findIdx? fun entry =>
    entry.routine?.any fun routine => routine.scope == some scope

/-- The body of a routine, or nothing if the entry is none.  A program that has a `main` routine
answers with the body of that. -/
def routineBody? (table : SymbolTable) (id : EntryId) : Option (Option Node) :=
  (table.entry id).routine?.bind fun routine =>
    match routine.mainRoutine with
    | some main => (table.entry main).routine?.map Routine.body
    | none => some routine.body

end SymbolTable

end FrontEnd
