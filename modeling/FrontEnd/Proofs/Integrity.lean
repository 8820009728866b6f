import FrontEnd.Proofs.ReturnSlots
import FrontEnd.Proofs.Roster

/-!
# The integrity of a table

Handles of entries and scopes are copied into trees, scopes and routines while more entries and scopes are
made, scopes are closed, and what is known about a routine declared forward is replaced.  In the table of a
unit that has been compiled, with errors or without, all of them still lead where they should (`Intact`):
within the table, from a name to the entry that bears it, from a node to an entry of a kind that suits the
node, and from the tree of a routine to the scope of the routine or that of the program and to no other.

## Strategy

Most of this is kept by items for other reasons: what a body refers to is in reach (`Houses`), scopes bind
their own entries (`Laid`), and the program alone lists routines (`Roster`).  What is left are the names in
the scopes (`Filed`), and that the global scope binds nothing that a tree refers to (`Outer`); both outlast
items (`Items.lasts`).  That a node suits its entry can be read from the shape of the trees.
-/

namespace FrontEnd

namespace SymbolTable

/-- Whether every handle that a table holds is one of its own: of an entry that a scope binds, of the scope
of an entry or a routine, of a parameter or another routine that a routine has, and of an entry that a tree
refers to. -/
structure Closed (table : SymbolTable) : Prop where
  bound : ∀ scope, ∀ id ∈ (table.scope scope).entries, id < table.entries.size
  owner : ∀ id < table.entries.size, (table.entry id).scope < table.scopes.size
  frame : ∀ id, ∀ routine ∈ (table.entry id).routine?, ∀ scope ∈ routine.scope,
    scope < table.scopes.size
  listed : ∀ id, ∀ routine ∈ (table.entry id).routine?,
    ∀ other ∈ routine.parameters ++ routine.routines ++ routine.mainRoutine.toList,
      other < table.entries.size
  tree : ∀ id, ∀ body ∈ (table.entry id).body?, ∀ node ∈ body.nodes, ∀ used ∈ node.entry,
    used < table.entries.size

/-- Whether a scope is in order: no name and no entry stands in it twice, a name means the entry that stands
there and bears it, and these entries belong to the scope. -/
structure FiledAt (table : SymbolTable) (scope : ScopeId) : Prop where
  names : ((table.scope scope).bindings.map Prod.fst).Nodup
  entries : (table.scope scope).entries.Nodup
  meaning : ∀ name id, (table.scope scope).get? name = some id ↔
    id ∈ (table.scope scope).entries ∧ (table.entry id).name = name
  owned : ∀ id ∈ (table.scope scope).entries, (table.entry id).scope = scope

/-- Whether a node refers to an entry of a kind that suits it: a call to a routine, the use of a variable to
a variable, a value parameter or an undefined entry, and a constant, if it has a name, to a constant. -/
def Suits (table : SymbolTable) (node : Node) : Prop :=
  match node.kind with
  | .call => ∃ id ∈ node.entry, (table.entry id).kind ∈ DefinitionKind.callables
  | .variableUse => ∃ id ∈ node.entry, (table.entry id).kind ∈ DefinitionKind.referable
  | .integerConstant | .realConstant | .charConstant | .stringConstant =>
    ∀ id ∈ node.entry, (table.entry id).kind = .constant
  | _ => node.entry = none

/-- Whether all entries that a tree refers to belong to some scopes. -/
def Owns (table : SymbolTable) (scopes : List ScopeId) (body : Node) : Prop :=
  ∀ node ∈ body.nodes, ∀ used ∈ node.entry, (table.entry used).scope ∈ scopes

/-- Whether all handles in the table of a program lead where they should. -/
structure Intact (table : SymbolTable) (program : EntryId) : Prop where
  closed : table.Closed
  filed : ∀ scope, table.FiledAt scope
  once : ∀ id scope other, id ∈ (table.scope scope).entries → id ∈ (table.scope other).entries →
    scope = other
  suits : ∀ id, ∀ body ∈ (table.entry id).body?, ∀ node ∈ body.nodes, table.Suits node
  owns : ∃ home, (table.entry program).frame? = some home ∧
    (∀ body ∈ (table.entry program).body?, table.Owns [home] body) ∧
      ∀ id, ∀ body ∈ (table.entry id).body?, ∃ frame, (table.entry id).frame? = some frame ∧
        table.Owns [frame, home] body

end SymbolTable

/-! ## The names in scopes -/

/-- Where no name stands twice, a name means what it stands with. -/
theorem Scope.get?_eq_some_iff {scope : Scope} (hnames : (scope.bindings.map Prod.fst).Nodup)
    {name : String} {id : EntryId} : scope.get? name = some id ↔ (name, id) ∈ scope.bindings := by
  constructor
  · intro hget
    obtain ⟨before, after, hbindings, -⟩ := List.lookup_eq_some_iff.mp hget
    simp [hbindings]
  · intro hmem
    obtain ⟨before, after, hbindings⟩ := List.append_of_mem hmem
    have hbefore : before.lookup name = none := by
      refine List.lookup_eq_none_iff.mpr fun binding hearlier => ?_
      rw [hbindings, List.map_append] at hnames
      have hdisjoint := (List.nodup_append.mp hnames).2.2 binding.1 (List.mem_map_of_mem hearlier)
        name (by simp)
      simpa using Ne.symm hdisjoint
    rw [Scope.get?, hbindings, List.lookup_append, hbefore, List.lookup_cons_self]
    rfl

namespace SymbolTable

/-- What items keep of the names in scopes and of the scopes of routines. -/
structure Filed (table : SymbolTable) : Prop where
  names : ∀ scope, ((table.scope scope).bindings.map Prod.fst).Nodup
  named : ∀ scope, ∀ binding ∈ (table.scope scope).bindings, (table.entry binding.2).name = binding.1
  framed : ∀ id, ∀ scope ∈ (table.entry id).frame?, scope < table.scopes.size

/-- Whether the global scope binds nothing but types and the program. -/
def Outer (program : EntryId) (table : SymbolTable) : Prop :=
  ∀ id ∈ (table.scope globalScope).entries, (table.entry id).kind = .type ∨ id = program

section

variable {table first second : SymbolTable} {program id : EntryId}

/-- Tables with the same names in their scopes, where entries keep their names and routines their scopes. -/
theorem Filed.kept (h : first.Filed)
    (hbindings : ∀ scope, (second.scope scope).bindings = (first.scope scope).bindings)
    (hscopes : second.scopes.size = first.scopes.size)
    (hname : ∀ id, (second.entry id).name = (first.entry id).name)
    (hframe : ∀ id, (second.entry id).frame? = (first.entry id).frame?) : second.Filed where
  names scope := by
    rw [hbindings]
    exact h.names scope
  named scope binding hmem := by
    rw [hbindings] at hmem
    rw [hname]
    exact h.named scope binding hmem
  framed id scope hscope := by
    rw [hframe] at hscope
    rw [hscopes]
    exact h.framed id scope hscope

theorem Filed.adds (h : first.Filed) (hvalid : first.Valid) (hadds : first.Adds second) :
    second.Filed where
  names scope := by
    rcases hadds.bindings scope with hsame | ⟨hmore, hfree⟩
    · rw [hsame]
      exact h.names scope
    · -- the new name had no meaning in the scope, so it does not stand there
      have hnew : (second.entry first.entries.size).name ∉
          (first.scope scope).bindings.map Prod.fst := by
        intro hmem
        obtain ⟨binding, hbinding, hname⟩ := List.mem_map.mp hmem
        simpa [hname] using List.lookup_eq_none_iff.mp hfree binding hbinding
      rw [hmore, List.map_append]
      simpa using (h.names scope).concat hnew
  named scope binding hmem := by
    have hold (hbefore : binding ∈ (first.scope scope).bindings) :
        (second.entry binding.2).name = binding.1 := by
      have hbound : first.Bound binding.2 :=
        ⟨scope, (first.scope scope).entries_eq ▸ List.mem_map_of_mem hbefore⟩
      rw [hadds.entry binding.2 (hvalid.bound_lt _ hbound)]
      exact h.named scope binding hbefore
    rcases hadds.bindings scope with hsame | ⟨hmore, -⟩
    · exact hold (hsame ▸ hmem)
    · rw [hmore] at hmem
      rcases List.mem_append.mp hmem with hbefore | hnew
      · exact hold hbefore
      · rw [List.mem_singleton.mp hnew]
  framed id scope hscope := by
    rw [(Steady.of_adds hadds).frame?] at hscope
    rw [hadds.scopes]
    exact h.framed id scope hscope

/-- A routine that is opened gets a scope of the table, which binds no names yet. -/
theorem Filed.begins {kind : DefinitionKind} {forwarded : Bool} (h : first.Filed)
    (hbegins : Begins program id kind forwarded first second) : second.Filed where
  names scope := by
    by_cases hscope : scope = first.scopes.size
    · rw [hscope, hbegins.fresh]
      exact List.nodup_nil
    · rw [hbegins.elsewhere scope hscope]
      exact h.names scope
  named scope binding hmem := by
    by_cases hscope : scope = first.scopes.size
    · simp [hscope, hbegins.fresh] at hmem
    · rw [hbegins.elsewhere scope hscope] at hmem
      rw [hbegins.name_eq]
      exact h.named scope binding hmem
  framed other scope hscope := by
    rw [hbegins.scopes]
    by_cases hid : other = id
    · rw [hid, hbegins.frame?] at hscope
      exact Option.some.inj hscope ▸ Nat.lt_succ_self _
    · rw [(hbegins.alike hid).frame] at hscope
      exact Nat.lt_succ_of_lt (h.framed other scope hscope)

/-- The names in scopes stay in order whatever items do. -/
theorem lasts_filed (program : EntryId) : Lasts program Filed where
  adds h hvalid _ hadds := h.adds hvalid hadds
  retouches h hretouches := by
    have hsteady := Steady.of_retouches hretouches
    obtain ⟨id, change, rfl, hentry⟩ := hretouches
    refine h.kept (fun _ => rfl) rfl (fun other => ?_) hsteady.frame?
    rw [entry_modifyEntry]
    split
    · next hsame => rw [hentry.name, hsame.1]
    · rfl
  amends {table change} id h hscope := by
    refine h.kept (fun _ => rfl) rfl (fun other => ?_) (bind_modifyRoutine hscope id)
    rw [SymbolTable.modifyRoutine, entry_modifyEntry]
    split
    · next hsame => rw [hsame.1]; rfl
    · rfl
  begins h hbegins _ _ := h.begins hbegins
  pop h := h.kept (fun _ => by rw [scope_pop]) (by simp) (fun _ => by rw [entry_pop]) fun _ => by
    rw [entry_pop]

/-- A table with the same global scope, in which no type has become something else. -/
theorem Outer.kept (h : first.Outer program)
    (hentries : (second.scope globalScope).entries = (first.scope globalScope).entries)
    (hkind : ∀ id ∈ (first.scope globalScope).entries, (first.entry id).kind = .type →
      (second.entry id).kind = .type) : second.Outer program := by
  intro id hmem
  rw [hentries] at hmem
  exact (h id hmem).imp_left (hkind id hmem)

/-- Nothing is declared in the global scope while another one is open. -/
theorem lasts_outer (program : EntryId) : Lasts program (Outer program) where
  adds {first second} h hvalid hlocal hadds := by
    refine h.kept (congrArg Scope.entries (hadds.elsewhere _ (Ne.symm hlocal))) fun id hmem htype => ?_
    rwa [hadds.entry id (hvalid.bound_lt id ⟨_, hmem⟩)]
  retouches h hretouches := by
    obtain ⟨id, change, rfl, hentry⟩ := hretouches
    refine h.kept rfl fun other _ htype => ?_
    rw [entry_modifyEntry]
    split
    · next hsame => rw [hentry.kind, ← hsame.1, htype]
    · exact htype
  amends id h _ := by
    refine h.kept rfl fun other _ htype => ?_
    rw [SymbolTable.modifyRoutine, entry_modifyEntry]
    split
    · next hsame => rw [Entry.kind_mapRoutine, ← hsame.1, htype]
    · exact htype
  begins {first second id kind forwarded} h hbegins _ hrevisable := by
    have hglobal : (second.scope globalScope).entries = (first.scope globalScope).entries := by
      by_cases hscope : globalScope = first.scopes.size
      · rw [hscope, Scope.entries_eq, hbegins.fresh]
        simp [SymbolTable.scope, Scope.entries]
      · rw [hbegins.elsewhere _ hscope]
    refine h.kept hglobal fun other _ htype => ?_
    -- what becomes a routine has not been a type
    have hne : other ≠ id := by
      rintro rfl
      exact (Entry.kind_ne_of_revisable hrevisable).2 htype
    rwa [hbegins.view_of_ne Entry.kind_mapRoutine hne]
  pop h := h.kept (by rw [scope_pop]) fun id _ htype => by rwa [entry_pop]

/-- In a table that is filed, and whose scopes bind their own entries, every scope is in order. -/
theorem Filed.filedAt (h : table.Filed) (hlaid : table.Laid) (scope : ScopeId) : table.FiledAt scope where
  names := h.names scope
  entries := by
    have hnames : (table.scope scope).entries.map (fun id => (table.entry id).name) =
        (table.scope scope).bindings.map Prod.fst := by
      rw [Scope.entries_eq, List.map_map]
      exact List.map_congr_left fun binding hmem => h.named scope binding hmem
    exact List.Nodup.of_map _ (hnames ▸ h.names scope)
  meaning name id := by
    rw [Scope.get?_eq_some_iff (h.names scope), Scope.entries_eq]
    constructor
    · intro hmem
      exact ⟨List.mem_map_of_mem hmem, h.named scope _ hmem⟩
    · rintro ⟨hmem, rfl⟩
      obtain ⟨binding, hbinding, rfl⟩ := List.mem_map.mp hmem
      rwa [h.named scope binding hbinding]
  owned := hlaid.home scope

end

end SymbolTable

/-! ## The entries of nodes -/

section

variable {accepted : Prop} {table : SymbolTable} {owner id : EntryId} {node : Node}

/-- A node that refers to nothing suits any table, unless it is a call or the use of a variable. -/
theorem SymbolTable.suits_of_none (hentry : node.entry = none) (hcall : node.kind ≠ .call)
    (huse : node.kind ≠ .variableUse) : table.Suits node := by
  unfold SymbolTable.Suits
  split <;> simp_all

/-- What a node refers to is neither a type nor a program. -/
theorem SymbolTable.Suits.kind_ne (h : table.Suits node) (hid : id ∈ node.entry) :
    (table.entry id).kind ≠ .type ∧ (table.entry id).kind ≠ .program := by
  unfold SymbolTable.Suits at h
  split at h
  · obtain ⟨other, hother, hkind⟩ := h
    obtain rfl := Option.mem_unique hid hother
    constructor <;> rintro hsame <;> simp [hsame, DefinitionKind.callables] at hkind
  · obtain ⟨other, hother, hkind⟩ := h
    obtain rfl := Option.mem_unique hid hother
    constructor <;> rintro hsame <;> simp [hsame, DefinitionKind.referable] at hkind
  iterate 4 simp [h id hid]
  · simp [h] at hid

theorem SymbolTable.holdsOfNodes_suits : table.HoldsOfNodes accepted table.Suits where
  plain hentry hcall huse _ _ := SymbolTable.suits_of_none hentry hcall huse
  constant {id value} hvalue := by
    have hkind : (table.entry id).kind = .constant := by simp [Entry.kind, hvalue, Definition.kind]
    cases value <;> simp [SymbolTable.constantNode, ConstantValue.literal, Literal.node, SymbolTable.Suits, hkind]
  reference {id} hrefers := ⟨id, rfl, hrefers.kind⟩
  call {id} _ _ _ hcallable := ⟨id, rfl, hcallable⟩

/-- All nodes of a statement suit the entries that they refer to. -/
theorem StatementTree.suits (h : StatementTree accepted table owner node) :
    ∀ inner ∈ node.nodes, table.Suits inner :=
  h.forall_nodes SymbolTable.holdsOfNodes_suits fun id _ hkind =>
    ⟨id, rfl, by simp [hkind, DefinitionKind.referable]⟩

end

/-! ## Units -/

namespace SymbolTable

/-- At the start the names in scopes are in order. -/
theorem filed_unitTable : unitTable.Filed where
  names := by
    have hall : ∀ scope ∈ unitTable.scopes.toList, (scope.bindings.map Prod.fst).Nodup := by
      decide +kernel
    exact forall_scope hall List.nodup_nil
  named := by
    have hall : ∀ scope ∈ unitTable.scopes.toList, ∀ binding ∈ scope.bindings,
        (unitTable.entry binding.2).name = binding.1 := by decide +kernel
    exact forall_scope hall (by simp)
  framed := by
    have hall : ∀ entry ∈ unitTable.entries.toList, ∀ scope ∈ entry.frame?,
        scope < unitTable.scopes.size := by decide +kernel
    exact forall_entry hall nofun

theorem outer_unitTable : unitTable.Outer programId := by
  unfold Outer
  decide +kernel

/-- All that items keep of a table, and that the scope of the program is `home`. -/
structure Kept (table : SymbolTable) (program : EntryId) (home : ScopeId) : Prop where
  valid : table.Valid
  housed : ∀ id, table.HousedAt id
  laid : table.Laid
  filed : table.Filed
  outer : table.Outer program
  roster : table.Roster True program home
  frame : (table.entry program).frame? = some home
  place : table.program = some program

namespace Kept

variable {table : SymbolTable} {program id used : EntryId} {home : ScopeId} {body node : Node}

/-- The program lists routines of the table, and anything else lists nothing. -/
theorem listed (h : table.Kept program home) {routine : Routine}
    (hroutine : (table.entry id).routine? = some routine) :
    ∀ other ∈ routine.routines ++ routine.mainRoutine.toList, other < table.entries.size := by
  have hlists : (table.entry id).lists = (routine.routines, routine.mainRoutine) := by
    simp [Entry.lists, hroutine, Routine.lists]
  intro other hother
  by_cases hid : id = program
  · subst hid
    refine lt_of_callable ((h.roster.complete other).mpr ?_)
    rw [hlists]
    simpa using hother
  · rw [h.roster.alone id hid, Prod.mk.injEq] at hlists
    simp [← hlists.1, ← hlists.2] at hother

theorem closed (h : table.Kept program home) : table.Closed where
  bound scope id hmem := h.valid.bound_lt id ⟨scope, hmem⟩
  owner := h.laid.owned
  frame id routine hroutine scope hscope :=
    h.filed.framed id scope (by simpa [Entry.frame?, Option.mem_def.mp hroutine] using hscope)
  listed id routine hroutine other hother := by
    rw [List.append_assoc] at hother
    rcases List.mem_append.mp hother with hparameter | hlisted
    · exact (h.valid.parameters id routine hroutine other hparameter).1
    · exact h.listed hroutine other hlisted
  tree id body hbody node hnode used hused :=
    (h.housed id).within body hbody _ (Node.mem_references hnode hused)

/-- What a tree refers to belongs to the scope of its routine or to that of the program: the global scope
has nothing that suits a node. -/
theorem owner (h : table.Kept program home) (hbody : body ∈ (table.entry id).body?)
    (hnode : node ∈ body.nodes) (hused : used ∈ node.entry) (hsuits : table.Suits node) :
    (table.entry id).frame? = some (table.entry used).scope ∨ home = (table.entry used).scope := by
  have hhome : table.home? = some home := by
    rw [home?, h.place]
    exact h.frame
  rcases (h.housed id).reached body hbody _ (Node.mem_references hnode hused) with
    ⟨scope, hsight, hmem⟩ | hown
  · rw [h.laid.home scope used hmem]
    rcases hsight with hframe | hsame | rfl
    · exact Or.inl hframe
    · exact Or.inr (Option.some.inj (hhome.symm.trans hsame))
    · obtain ⟨htype, hkind⟩ := hsuits.kind_ne hused
      rcases h.outer used hmem with hpredefined | rfl
      · exact absurd hpredefined htype
      · exact absurd ((h.roster.sole used).mpr rfl) hkind
  · exact Or.inl hown

/-- A table of which items have kept all this, and whose nodes suit their entries, is intact. -/
theorem intact (h : table.Kept program home)
    (hsuits : ∀ id, ∀ body ∈ (table.entry id).body?, ∀ node ∈ body.nodes, table.Suits node) :
    table.Intact program where
  closed := h.closed
  filed := h.filed.filedAt h.laid
  once id scope other hscope hother := by rw [← h.laid.home scope id hscope, h.laid.home other id hother]
  suits := hsuits
  owns := by
    refine ⟨home, h.frame, fun body hbody node hnode used hused => ?_, fun id body hbody => ?_⟩
    · have hscope := h.owner hbody hnode hused (hsuits program body hbody node hnode)
      rw [h.frame, Option.some.injEq, or_self] at hscope
      simp [hscope]
    · obtain ⟨frame, hframe⟩ :=
        Option.isSome_iff_exists.mp ((h.housed id).framed (Option.isSome_of_mem hbody))
      refine ⟨frame, hframe, fun node hnode used hused => ?_⟩
      have hscope := h.owner hbody hnode hused (hsuits id body hbody node hnode)
      rw [hframe, Option.some.injEq] at hscope
      rcases hscope with hscope | hscope <;> simp [hscope]

end Kept

end SymbolTable

theorem compile_kept {stream : TokenStream} {unit : CompilationUnit} (h : compile stream = .ok unit) :
    ∃ home, unit.table.Kept unit.program home := by
  obtain ⟨session, ended, -, hitems, hprogram, htable, -⟩ := compile_items h
  have hlocal : SymbolTable.unitTable.localScopeId ≠ globalScope := by decide +kernel
  have hopen : ended.table.localScopeId = SymbolTable.unitTable.localScopeId := hitems.localScopeId_eq
  have hhouses := hitems.houses SymbolTable.houses_unitTable
  have hfiled := SymbolTable.lasts_filed SymbolTable.programId
  have houter := SymbolTable.lasts_outer SymbolTable.programId
  have hroster := hitems.roster rfl (SymbolTable.roster_unitTable _)
  have hvalid := (compile_sound h).1
  rw [htable] at hvalid
  refine ⟨ended.table.localScopeId, ?_⟩
  rw [htable, hprogram]
  exact {
    valid := hvalid
    housed := SymbolTable.housedAt_pop hhouses.housed
    laid := (hitems.laid SymbolTable.laid_unitTable).pop
    filed := hfiled.pop (hitems.lasts hfiled hlocal SymbolTable.filed_unitTable)
    outer := houter.pop (hitems.lasts houter hlocal SymbolTable.outer_unitTable)
    roster := hopen ▸ (hroster.later (.pop _)).imp fun _ => trivial
    frame := by rw [SymbolTable.entry_pop, hhouses.frame]
    place := by rw [SymbolTable.program_pop, hhouses.place] }

/-- In the table of a compiled unit all handles lead where they should. -/
theorem compile_intact {stream : TokenStream} {unit : CompilationUnit} (h : compile stream = .ok unit) :
    unit.table.Intact unit.program := by
  obtain ⟨home, hkept⟩ := compile_kept h
  exact hkept.intact fun id body hbody => (compile_wellFormed h id body hbody).suits

/-- The function `f` is declared forward with the parameter `a`, called, and completed with the parameter
`b`: its scope is replaced, and `y` becomes an undefined entry of the new one. -/
theorem compile_intact_replaced :
    ∃ unit, compileText "const n = 2; int f(int a); \x7b f(n); \x7d int f(int b) \x7b return b + y; \x7d" =
        .ok unit ∧
      (unit.table.entry 7).frame? = some 3 ∧ (unit.table.scope 2).entries = [8] ∧
        (unit.table.scope 3).entries = [9, 11] ∧ unit.table.Intact unit.program := by
  have hcompiled : ∃ unit,
      compileText "const n = 2; int f(int a); \x7b f(n); \x7d int f(int b) \x7b return b + y; \x7d" =
          .ok unit ∧
        (unit.table.entry 7).frame? = some 3 ∧ (unit.table.scope 2).entries = [8] ∧
          (unit.table.scope 3).entries = [9, 11] :=
    exists_compiled (by decide +kernel)
  obtain ⟨unit, hunit, hframe, hforward, hscope⟩ := hcompiled
  exact ⟨unit, hunit, hframe, hforward, hscope, compile_intact hunit⟩

end FrontEnd
