import FrontEnd.Proofs.Table
import Mathlib.Logic.Function.Basic

/-!
# Symbol tables as stacks of maps

For what names mean, a symbol table is a stack of maps: one for each scope that is open, of which only the
topmost is ever changed and the lowest never removed.  `NameStack` is such a stack, and the operations on
tables have simple counterparts on it.

A table keeps far more than that: entries and scopes outlive the time in which they are in sight, and a scope
is found by its handle.  So `Refines` also says what makes the handles of the open scopes safe: they are
handles of scopes, and they descend from the innermost scope to the global one.  Then a change to the
innermost scope leaves the meanings of names in all others alone.

Every operation keeps the relation (`Refines.apply`), and therefore every sequence of operations does
(`Refines.run`).  What is to be known of tables follows from what is plain about stacks
(`SymbolTable.run_refines_names`).
-/

namespace FrontEnd

/-! ## Stacks of maps -/

/-- What names in lower case mean in each of several scopes, and how many handles have been given out. -/
structure NameStack where
  top : String → Option EntryId := fun _ => none
  below : List (String → Option EntryId) := []
  given : Nat := 0

namespace NameStack

/-- All maps, the topmost first. -/
def maps (names : NameStack) : List (String → Option EntryId) :=
  names.top :: names.below

/-- What a name means in the topmost map that has it. -/
def meaning (names : NameStack) (key : String) : Option EntryId :=
  names.maps.findSome? (· key)

/-- The stack with an empty map on top. -/
def push (names : NameStack) : NameStack :=
  { names with top := fun _ => none, below := names.maps }

/-- The stack without its topmost map, unless that is the only one. -/
def pop (names : NameStack) : NameStack :=
  match names.below with
  | [] => names
  | map :: below => { names with top := map, below }

/-- The stack with a new handle for a name in its topmost map, unless that has the name. -/
def enter (names : NameStack) (key : String) : NameStack :=
  if (names.top key).isSome then names
  else
    { names with
        top := Function.update names.top key (some names.given)
        given := names.given + 1 }

/-- The stack after a handle has been given out that is for no name. -/
def skip (names : NameStack) : NameStack :=
  { names with given := names.given + 1 }

end NameStack

namespace SymbolTable

/-! ## Operations -/

/-- The operations on a table that concern scopes, names and slots. -/
inductive Operation where
  | push
  | pop
  | enter (name : String)
  | detach (name : String) (definition : Definition) (type : DataType)
  | takeSlot

namespace Operation

/-- What an operation makes of a table. -/
def apply (table : SymbolTable) : Operation → SymbolTable
  | push => table.push.2
  | pop => table.pop.2
  | enter name =>
    match table.enterLocal name with
    | some (_, entered) => entered
    | none => table
  | detach name definition type => (table.createDetached name definition type).2
  | takeSlot => table.takeSlot.2

/-- What an operation makes of a stack of maps. -/
def applyNames (names : NameStack) : Operation → NameStack
  | push => names.push
  | pop => names.pop
  | enter name => names.enter (Text.lower name)
  | detach _ _ _ => names.skip
  | takeSlot => names

/-- A name that the innermost scope has is not entered again. -/
theorem apply_enter_of_taken {table : SymbolTable} {name : String} {id : EntryId}
    (h : table.lookupLocal name = some id) : apply table (enter name) = table := by
  simp [apply, enterLocal, h]

theorem apply_enter_of_free {table : SymbolTable} {name : String} (h : table.lookupLocal name = none) :
    apply table (enter name) = table.bindNew (Text.lower name) := by
  simp [apply, enterLocal, h]

/-- Whether the operation opens or closes a scope. -/
def movesScopes : Operation → Bool
  | push | pop => true
  | enter _ | detach _ _ _ | takeSlot => false

end Operation

/-- What several operations make of a table, one after the other. -/
def run (table : SymbolTable) (operations : List Operation) : SymbolTable :=
  operations.foldl Operation.apply table

/-- What several operations make of a stack of maps, one after the other. -/
def runNames (names : NameStack) (operations : List Operation) : NameStack :=
  operations.foldl Operation.applyNames names

/-- Operations in which every scope that is opened is closed again, and no other scope is closed. -/
inductive Balanced : List Operation → Prop
  | nil : Balanced []
  | cons {operation : Operation} {rest : List Operation} : operation.movesScopes = false →
      Balanced rest → Balanced (operation :: rest)
  | nested {inner rest : List Operation} : Balanced inner → Balanced rest →
      Balanced (.push :: inner ++ .pop :: rest)

/-! ## The relation of a table to a stack of maps -/

/-- The scopes in which a name is looked up, innermost first. -/
def chain (table : SymbolTable) : List ScopeId :=
  table.openScopes ++ [globalScope]

/-- Whether a table gives names the meanings that a stack of maps gives them. -/
structure Refines (table : SymbolTable) (names : NameStack) : Prop where
  size : table.entries.size = names.given
  maps : table.chain.map (fun scope => (table.scope scope).get?) = names.maps
  descends : table.chain.Pairwise (· > ·)
  known : ∀ scope ∈ table.chain, scope < table.scopes.size
  bound_lt : ∀ id, table.Bound id → id < table.entries.size

theorem chain_eq (table : SymbolTable) : table.chain = table.localScopeId :: table.chain.tail := by
  unfold chain localScopeId
  cases table.openScopes <;> rfl

theorem refines_empty : ({} : SymbolTable).Refines {} where
  size := rfl
  maps := rfl
  descends := List.pairwise_singleton _ _
  known := by decide
  bound_lt id hbound := by
    obtain ⟨scope, hmem⟩ := hbound
    have hentries : ∀ scope : Scope, scope ∈ ({} : SymbolTable).scopes.toList → scope.entries = [] := by
      intro scope hscope
      obtain rfl : scope = .initial := List.mem_singleton.mp hscope
      rfl
    rw [forall_scope (P := fun scope => scope.entries = []) hentries rfl scope] at hmem
    cases hmem

namespace Refines

variable {table : SymbolTable} {names : NameStack}

/-- The maps of the innermost scope and of those around it. -/
theorem top_and_below (h : table.Refines names) :
    table.localScope.get? = names.top ∧
      table.chain.tail.map (fun scope => (table.scope scope).get?) = names.below := by
  have hmaps := h.maps
  rw [chain_eq, NameStack.maps, List.map_cons, List.cons.injEq] at hmaps
  exact hmaps

/-- There is a single map just if no scope beside the global one is open. -/
theorem below_eq_nil_iff (h : table.Refines names) : names.below = [] ↔ table.openScopes = [] := by
  rw [← h.top_and_below.2, List.map_eq_nil_iff, chain]
  cases table.openScopes <;> simp

/-- None of the scopes around the innermost one is that scope itself. -/
theorem ne_of_mem_tail (h : table.Refines names) {scope : ScopeId} (hscope : scope ∈ table.chain.tail) :
    scope ≠ table.localScopeId := by
  have hdescends := h.descends
  rw [chain_eq] at hdescends
  exact Nat.ne_of_lt (List.rel_of_pairwise_cons hdescends hscope)

theorem localScopeId_lt (h : table.Refines names) : table.localScopeId < table.scopes.size :=
  h.known _ (by rw [chain_eq]; exact List.mem_cons_self)

theorem lookupLocal_eq (h : table.Refines names) (name : String) :
    table.lookupLocal name = names.top (Text.lower name) :=
  congrFun h.top_and_below.1 _

theorem lookup_eq (h : table.Refines names) (name : String) :
    table.lookup name = names.meaning (Text.lower name) := by
  rw [NameStack.meaning, ← h.maps, List.findSome?_map]
  rfl

/-- A name can be entered just if the innermost scope does not have it. -/
theorem enterLocal_eq_none_iff (h : table.Refines names) (name : String) :
    table.enterLocal name = none ↔ (names.top (Text.lower name)).isSome := by
  rw [← h.lookupLocal_eq, enterLocal]
  cases table.lookupLocal name <;> simp

/-! ## Every operation keeps the relation -/

theorem push (h : table.Refines names) : table.push.2.Refines names.push where
  size := h.size
  maps := by
    have hscope {scope : ScopeId} (hmem : scope ∈ table.chain) :
        (table.push.2.scope scope).get? = (table.scope scope).get? := by
      simp [SymbolTable.scope, SymbolTable.push, Array.getElem?_push, Nat.ne_of_lt (h.known scope hmem)]
    have hnew : (table.push.2.scope table.scopes.size).get? = fun _ => none := by
      funext key
      simp [SymbolTable.scope, SymbolTable.push, Scope.get?]
    rw [show table.push.2.chain = table.scopes.size :: table.chain from rfl, List.map_cons, hnew,
      List.map_congr_left fun _ => hscope, h.maps]
    rfl
  descends := List.pairwise_cons.mpr ⟨h.known, h.descends⟩
  known scope hscope := by
    rw [show table.push.2.scopes.size = table.scopes.size + 1 from Array.size_push _]
    rcases List.mem_cons.mp hscope with rfl | hold
    · exact Nat.lt_succ_self _
    · exact Nat.lt_succ_of_lt (h.known scope hold)
  bound_lt id hbound := h.bound_lt id (bound_push.mp hbound)

/-- Where a scope besides the global one is open, the chain goes on from the scope around it. -/
theorem chain_pop {scope : ScopeId} {outer : List ScopeId} (hopen : table.openScopes = scope :: outer) :
    table.pop.2.chain = table.chain.tail := by
  simp [chain, SymbolTable.pop, hopen]

theorem pop (h : table.Refines names) : table.pop.2.Refines names.pop := by
  have hbelow := h.top_and_below.2
  cases hopen : table.openScopes with
  | nil =>
      -- only the global scope is open, and it stays
      have hsame : table.pop.2 = table := by simp [SymbolTable.pop, hopen]
      have hnone : names.below = [] := h.below_eq_nil_iff.mpr hopen
      rw [hsame]
      simpa [NameStack.pop, hnone] using h
  | cons scope outer =>
      have hchain := chain_pop hopen
      constructor
      case size =>
        rw [entries_pop, h.size, NameStack.pop]
        split <;> rfl
      case maps =>
        rw [hchain, List.map_congr_left fun scope _ => congrArg Scope.get? (scope_pop table scope), hbelow,
          NameStack.pop]
        cases houter : names.below with
        | nil => simp [h.below_eq_nil_iff.mp houter] at hopen
        | cons map below => rfl
      case descends =>
        rw [hchain]
        exact h.descends.tail
      case known =>
        intro scope hscope
        rw [scopes_pop]
        exact h.known scope (List.mem_of_mem_tail (hchain ▸ hscope))
      case bound_lt =>
        intro id hbound
        rw [entries_pop]
        exact h.bound_lt id (bound_pop.mp hbound)

/-- A new name changes the innermost scope and no other. -/
theorem get?_bindNew (h : table.Refines names) {key : String} (hfree : names.top key = none) (scope : ScopeId) :
    ((table.bindNew key).scope scope).get? =
      if scope = table.localScopeId then Function.update names.top key (some table.entries.size)
      else (table.scope scope).get? := by
  rw [scope_bindNew]
  by_cases hlocal : scope = table.localScopeId
  · have htop : (table.scope scope).get? = names.top := hlocal ▸ h.top_and_below.1
    rw [if_pos ⟨hlocal, hlocal ▸ h.localScopeId_lt⟩, if_pos hlocal]
    funext name
    by_cases hname : name = key
    · subst hname
      rw [Function.update_self]
      exact get?_bind_of_none (by rw [htop, hfree]) _
    · have hother : ((table.scope scope).bind key table.entries.size).get? name =
          (table.scope scope).get? name := by
        simp [Scope.get?, Scope.bind, List.lookup_append, List.lookup_cons, beq_eq_false_iff_ne.mpr hname]
      rw [Function.update_of_ne hname, hother, htop]
  · rw [if_neg fun hboth => hlocal hboth.1, if_neg hlocal]

theorem bindNew (h : table.Refines names) {key : String} (hfree : names.top key = none) :
    (table.bindNew key).Refines (names.enter key) := by
  have henter : names.enter key =
      { names with top := Function.update names.top key (some names.given), given := names.given + 1 } := by
    simp [NameStack.enter, hfree]
  rw [henter]
  refine ⟨by rw [size_bindNew, h.size], ?_, h.descends, fun scope hscope => ?_, fun id hbound => ?_⟩
  · have hbelow : ∀ scope ∈ table.chain.tail,
        ((table.bindNew key).scope scope).get? = (table.scope scope).get? := by
      intro scope hscope
      rw [h.get?_bindNew hfree, if_neg (h.ne_of_mem_tail hscope)]
    rw [show (table.bindNew key).chain = table.chain from rfl, chain_eq, List.map_cons,
      List.map_congr_left hbelow, h.get?_bindNew hfree, if_pos rfl, h.size, h.top_and_below.2]
    rfl
  · rw [show (table.bindNew key).scopes.size = table.scopes.size from Array.size_modify ..]
    exact h.known scope hscope
  · rw [size_bindNew]
    rcases bound_or_eq_of_bindNew hbound with hold | rfl
    · exact Nat.lt_succ_of_lt (h.bound_lt id hold)
    · exact Nat.lt_succ_self _

theorem enter (h : table.Refines names) (name : String) :
    (Operation.apply table (.enter name)).Refines (names.enter (Text.lower name)) := by
  have htop := h.lookupLocal_eq name
  cases hlocal : table.lookupLocal name with
  | some id =>
      rw [Operation.apply_enter_of_taken hlocal]
      rw [hlocal] at htop
      simpa [NameStack.enter, ← htop] using h
  | none =>
      rw [Operation.apply_enter_of_free hlocal]
      rw [hlocal] at htop
      exact h.bindNew htop.symm

theorem detach (h : table.Refines names) (name : String) (definition : Definition) (type : DataType) :
    (table.createDetached name definition type).2.Refines names.skip where
  size := by rw [size_createDetached, h.size]; rfl
  maps := h.maps
  descends := h.descends
  known := h.known
  bound_lt id hbound := by
    rw [size_createDetached]
    exact Nat.lt_succ_of_lt (h.bound_lt id hbound)

theorem takeSlot (h : table.Refines names) : table.takeSlot.2.Refines names where
  size := h.size
  maps := by
    have hget (scope : ScopeId) : (table.takeSlot.2.scope scope).get? = (table.scope scope).get? := by
      funext name
      rw [Scope.get?, bindings_takeSlot, Scope.get?]
    rw [List.map_congr_left fun scope _ => hget scope]
    exact h.maps
  descends := h.descends
  known scope hscope := by
    rw [show table.takeSlot.2.scopes.size = table.scopes.size from Array.size_modify ..]
    exact h.known scope hscope
  bound_lt id hbound := h.bound_lt id (bound_takeSlot.mp hbound)

theorem apply (h : table.Refines names) (operation : Operation) :
    (operation.apply table).Refines (operation.applyNames names) := by
  cases operation with
  | push => exact h.push
  | pop => exact h.pop
  | enter name => exact h.enter name
  | detach name definition type => exact h.detach name definition type
  | takeSlot => exact h.takeSlot

/-- Whatever is done to a table and to the stack of maps that it refines, it refines it afterwards. -/
theorem run (h : table.Refines names) (operations : List Operation) :
    (table.run operations).Refines (runNames names operations) := by
  induction operations generalizing table names with
  | nil => exact h
  | cons operation rest ih => exact ih (h.apply operation)

/-- The handle of a name that is entered is a new one, and nothing else leads to it. -/
theorem of_enterLocal (h : table.Refines names) {name : String} {id : EntryId} {entered : SymbolTable}
    (henter : table.enterLocal name = some (id, entered)) :
    id = table.entries.size ∧ ¬ table.Bound id ∧
      ∀ scope key, (entered.scope scope).get? key = some id ↔
        scope = table.localScopeId ∧ key = Text.lower name := by
  have hnew : ¬ table.Bound table.entries.size := fun hbound => Nat.lt_irrefl _ (h.bound_lt _ hbound)
  have hunbound (scope : ScopeId) (key : String) :
      (table.scope scope).get? key ≠ some table.entries.size :=
    fun hget => hnew ⟨scope, mem_entries_of_get? hget⟩
  cases hlocal : table.lookupLocal name with
  | some taken => simp [enterLocal, hlocal] at henter
  | none =>
      have hfree : names.top (Text.lower name) = none := by rw [← h.lookupLocal_eq, hlocal]
      obtain ⟨rfl, rfl⟩ : table.entries.size = id ∧ table.bindNew (Text.lower name) = entered := by
        simpa [enterLocal, hlocal] using henter
      refine ⟨rfl, hnew, fun scope key => ?_⟩
      rw [h.get?_bindNew hfree]
      by_cases hscope : scope = table.localScopeId
      · by_cases hkey : key = Text.lower name
        · simp [hscope, hkey]
        · have htop : names.top key ≠ some table.entries.size := by
            rw [← h.top_and_below.1]
            exact hunbound _ key
          simp [hscope, hkey, htop]
      · simp [hscope, hunbound]

end Refines

/-! ## Balanced operations -/

/-- Nothing but the topmost map changes where every scope that is opened is closed again. -/
theorem Balanced.below_eq {operations : List Operation} (h : Balanced operations) (names : NameStack) :
    (runNames names operations).below = names.below := by
  induction h generalizing names with
  | nil => rfl
  | @cons operation rest hstays _ ih =>
      have hstep : (operation.applyNames names).below = names.below := by
        cases operation with
        | push | pop => simp [Operation.movesScopes] at hstays
        | enter name =>
            simp only [Operation.applyNames, NameStack.enter]
            split <;> rfl
        | detach | takeSlot => rfl
      exact (ih _).trans hstep
  | @nested inner rest _ _ ihinner ihrest =>
      have hinner : (runNames names.push inner).below = names.top :: names.below := ihinner _
      have hpop : (runNames names.push inner).pop.below = names.below := by
        simp [NameStack.pop, hinner]
      rw [← hpop, ← ihrest (runNames names.push inner).pop]
      simp [runNames, Operation.applyNames]

/-- Around a scope that is opened and closed again all maps stay the same. -/
theorem Balanced.maps_eq {body : List Operation} (h : Balanced body) (names : NameStack) :
    (runNames names (.push :: body ++ [.pop])).maps = names.maps := by
  have hbody : (runNames names.push body).below = names.maps := h.below_eq names.push
  have hrun : runNames names (.push :: body ++ [.pop]) = (runNames names.push body).pop := by
    simp [runNames, Operation.applyNames]
  rw [hrun, NameStack.pop, hbody]
  rfl

/-! ## Entries -/

theorem entry_apply {table : SymbolTable} (operation : Operation) {id : EntryId}
    (hid : id < table.entries.size) :
    table.entries.size ≤ (operation.apply table).entries.size ∧
      (operation.apply table).entry id = table.entry id := by
  cases operation with
  | push | takeSlot => exact ⟨Nat.le_refl _, rfl⟩
  | pop => exact ⟨Nat.le_of_eq (congrArg Array.size (entries_pop table)).symm, entry_pop table id⟩
  | enter name =>
      cases hlocal : table.lookupLocal name with
      | some taken =>
          rw [Operation.apply_enter_of_taken hlocal]
          exact ⟨Nat.le_refl _, rfl⟩
      | none =>
          rw [Operation.apply_enter_of_free hlocal, size_bindNew, entry_bindNew, if_neg (Nat.ne_of_lt hid)]
          exact ⟨Nat.le_succ _, rfl⟩
  | detach name definition type =>
      rw [Operation.apply, size_createDetached, entry_createDetached, if_neg (Nat.ne_of_lt hid)]
      exact ⟨Nat.le_succ _, rfl⟩

/-- An entry stays what it is, whatever becomes of the scope that owns it. -/
theorem entry_run {table : SymbolTable} (operations : List Operation) {id : EntryId}
    (hid : id < table.entries.size) : (table.run operations).entry id = table.entry id := by
  induction operations generalizing table with
  | nil => rfl
  | cons operation rest ih =>
      obtain ⟨hsize, hentry⟩ := entry_apply operation hid
      exact (ih (Nat.lt_of_lt_of_le hid hsize)).trans hentry

/-- After any operations on a new table, names mean what they mean after the same operations on a stack of
maps.  A name means what the topmost map says that has it, and in the innermost scope alone what the topmost
map says.  It can be entered just if the topmost map does not have it; then its handle is new, and only this
name leads to it, in the innermost scope.  The innermost scope is closed unless it is the global one, which
leaves the table as it is.  After a scope has been opened and closed again, all names mean what they meant
before.  No name is affected by a detached entry, and no entry by any later operation. -/
theorem run_refines_names (operations : List Operation) :
    let table := run {} operations
    let names := runNames {} operations
    (∀ name, table.lookup name = names.meaning (Text.lower name)) ∧
    (∀ name, table.lookupLocal name = names.top (Text.lower name)) ∧
    (∀ name, table.enterLocal name = none ↔ (names.top (Text.lower name)).isSome) ∧
    (∀ name id entered, table.enterLocal name = some (id, entered) →
      id = table.entries.size ∧ ¬ table.Bound id ∧
        ∀ scope key, (entered.scope scope).get? key = some id ↔
          scope = table.localScopeId ∧ key = Text.lower name) ∧
    (names.below = [] → table.pop = (none, table)) ∧
    (names.below ≠ [] → table.pop.1 = some table.localScopeId) ∧
    (∀ body, Balanced body → ∀ name,
      (table.run (.push :: body ++ [.pop])).lookup name = table.lookup name ∧
        (table.run (.push :: body ++ [.pop])).lookupLocal name = table.lookupLocal name) ∧
    (∀ detached definition type name,
      (table.createDetached detached definition type).2.lookup name = table.lookup name ∧
        (table.createDetached detached definition type).2.lookupLocal name = table.lookupLocal name) ∧
    ∀ later id, id < table.entries.size → (table.run later).entry id = table.entry id := by
  intro table names
  have hrefines : table.Refines names := refines_empty.run operations
  refine ⟨hrefines.lookup_eq, hrefines.lookupLocal_eq, hrefines.enterLocal_eq_none_iff,
    fun name id entered => hrefines.of_enterLocal, fun hbelow => ?_, fun hbelow => ?_,
    fun body hbody name => ?_, fun _ _ _ _ => ⟨rfl, rfl⟩, fun later id => entry_run later⟩
  · rw [pop, hrefines.below_eq_nil_iff.mp hbelow]
  · obtain ⟨scope, outer, hopen⟩ := List.exists_cons_of_ne_nil (mt hrefines.below_eq_nil_iff.mpr hbelow)
    simp [pop, localScopeId, hopen]
  · have hlater := hrefines.run (.push :: body ++ [.pop])
    have hmaps := hbody.maps_eq names
    have htop := (List.cons.inj hmaps).1
    rw [hlater.lookup_eq, hlater.lookupLocal_eq, hrefines.lookup_eq, hrefines.lookupLocal_eq,
      NameStack.meaning, hmaps, htop]
    exact ⟨rfl, rfl⟩

/-- The name `a` is bound again in an inner scope; there `b` is still free, and a scope inside that one, in
which `a` is bound once more, leaves no trace. -/
theorem run_refines_names_shadowed :
    let table := run {} [.enter "a", .push, .enter "A"]
    table.lookup "a" = some 1 ∧ table.pop.1 = some 1 ∧
      (∃ entered, table.enterLocal "b" = some (2, entered) ∧ ¬ table.Bound 2) ∧
      (table.run (.push :: [.enter "a"] ++ [.pop])).lookup "a" = some 1 ∧
      (table.run [.pop, .pop]).entry 1 = table.entry 1 := by
  obtain ⟨hlookup, -, -, henter, -, hpop, hbalanced, -, hentry⟩ :=
    run_refines_names [.enter "a", .push, .enter "A"]
  have hmeaning : (runNames {} [.enter "a", .push, .enter "A"]).meaning (Text.lower "a") = some 1 := by
    decide +kernel
  have hfound := (hlookup "a").trans hmeaning
  refine ⟨hfound, hpop (by decide +kernel), ⟨_, rfl, (henter "b" 2 _ rfl).2.1⟩, ?_,
    hentry [.pop, .pop] 1 (by decide +kernel)⟩
  exact (hbalanced [.enter "a"] (.cons rfl .nil) "a").1.trans hfound

end SymbolTable

end FrontEnd
