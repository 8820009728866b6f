import FrontEnd.Proofs.Completion
import FrontEnd.Proofs.Realization
import FrontEnd.Proofs.Turns

/-!
# Compilations read back the outlines that are written

Whatever tokens write an outline, they are compiled without an error, and the scope of the program lists
just the names of the outline, in order, with their meanings (`compile_outline`).

## Strategy

Declarations begin alike: which of them is meant is decided by what the names that have been declared before
mean, and by the token after the first or the second.  So between two declarations the table must be known to
list what has been declared so far (`Session.Between`).  Then every declaration that can be written is told
from the others, and the scope of the program gains its names (`leads_declaration`); the rest is an induction
over the outline (`leads_outline`).
-/

namespace FrontEnd

open Outline

/-! ## Between two declarations -/

/-- What is known of a session between two declarations. -/
structure Session.Between (session : Session) (known : Meanings) : Prop where
  lawful : session.Lawful fun _ => True
  hosts : session.Hosts SymbolTable.programId
  place : session.table.program = some SymbolTable.programId
  knows : session.table.Knows known

namespace Session.Between

variable {session : Session} {known : Meanings}

theorem localScopeId (h : session.Between known) :
    session.table.localScopeId = SymbolTable.programScope := by
  rw [SymbolTable.localScopeId, h.knows.openScopes]
  rfl

/-- The names that the scope of the program has. -/
theorem keys_eq (h : session.Between known) :
    session.table.localScope.bindings.map Prod.fst = known.map Prod.fst := by
  rw [SymbolTable.localScope, h.localScopeId, h.knows.lists.keys_eq]

theorem moved (h : session.Between known) (cursor : Cursor) :
    Session.Between { session with cursor } known :=
  ⟨⟨fun _ _ => trivial, h.lawful.valid, h.lawful.names⟩, h.hosts, h.place, h.knows⟩

/-- What a session gathers before anything is declared. -/
theorem start (h : session.Between known) {tokens : List Token} {last : Cursor}
    (hfaces : session.cursor.Faces tokens last) : session.Gathers [] tokens last session :=
  ⟨hfaces, .refl h.lawful.valid, rfl⟩

end Session.Between

namespace Outline

variable {known more : Meanings}

theorem map_fst_plainMeanings (names : List (String × Definition × DataType)) :
    (plainMeanings names).map Prod.fst = names.map Prod.fst := by
  rw [plainMeanings, List.map_map]
  rfl

/-- Where names are apart, those that are declared later are free. -/
theorem Apart.free (h : Apart ((known ++ more).map Prod.fst)) {name : String}
    (hname : name ∈ more.map Prod.fst) : name ∉ known.map Prod.fst ∧ name ∉ typeWords := by
  rw [List.map_append] at h
  refine ⟨fun hmem => ?_, h.2 _ (List.mem_append_right _ hname)⟩
  exact (List.nodup_append.mp h.1).2.2 _ hmem _ hname rfl

theorem Apart.left (h : Apart ((known ++ more).map Prod.fst)) : Apart (known.map Prod.fst) := by
  rw [List.map_append] at h
  exact ⟨(List.nodup_append.mp h.1).1, fun name hmem => h.2 _ (List.mem_append_left _ hmem)⟩

theorem Apart.nodup (h : Apart ((known ++ more).map Prod.fst)) : (more.map Prod.fst).Nodup := by
  rw [List.map_append] at h
  exact (List.nodup_append.mp h.1).2.1

theorem Commas.ne_nil {α : Type} {renders : α → List Token → Prop} {items : List α} {tokens : List Token}
    (h : Commas renders items tokens) : items ≠ [] := by
  cases h <;> exact List.cons_ne_nil _ _

/-- A list begins with what its first item begins with. -/
theorem Commas.exists_first {α : Type} {renders : α → List Token → Prop} {items : List α} {kind : TokenKind}
    (hitem : ∀ item tokens, renders item tokens → ∃ token others, tokens = token :: others ∧ token.kind = kind)
    {tokens : List Token} (h : Commas renders items tokens) :
    ∃ token others, tokens = token :: others ∧ token.kind = kind := by
  cases h with
  | last hrenders => exact hitem _ _ hrenders
  | more hrenders _ _ =>
      obtain ⟨token, others, rfl, hkind⟩ := hitem _ _ hrenders
      exact ⟨token, _, rfl, hkind⟩

theorem NameRenders.exists_first (name : String) (tokens : List Token) (h : NameRenders name tokens) :
    ∃ token others, tokens = token :: others ∧ token.kind = .identifier := by
  obtain ⟨hspells⟩ := h
  exact ⟨_, _, rfl, hspells.kind⟩

theorem DefinitionRenders.exists_first (definition : String × Value) (tokens : List Token)
    (h : DefinitionRenders definition tokens) :
    ∃ token others, tokens = token :: others ∧ token.kind = .identifier := by
  obtain ⟨hspells, -, -⟩ := h
  exact ⟨_, _, rfl, hspells.kind⟩

end Outline

theorem Session.Between.later {known : Meanings} {session later : Session} (h : session.Between known)
    (hlawful : later.Lawful fun _ => True) (hhosts : later.Hosts SymbolTable.programId)
    (hplace : later.table.program = session.table.program) {more : Meanings} {tokens : List Token}
    {last : Cursor} (hgains : session.Gains more tokens last later) : later.Between (known ++ more) :=
  ⟨hlawful, hhosts, hplace.trans h.place, h.knows.gains hgains.gains h.hosts.kind hgains.openScopes⟩

/-- What was known before a type was read is known after it. -/
theorem Session.Between.typed {known : Meanings} {session later : Session} (h : session.Between known)
    (hsteps : Steps (fun _ => True) .topLevel session later) {tokens : List Token} {last : Cursor}
    (hgathers : session.Gathers [] tokens last later) : later.Between known := by
  have hhosts := Production.Hosts.later h.hosts h.lawful hsteps hgathers.gathers.grows
  have hlater := h.later (hsteps.lawful h.lawful) hhosts hgathers.gathers.steady.program
    (hgathers.gained h.localScopeId)
  rwa [Outline.plainMeanings, List.map_nil, List.append_nil] at hlater

/-- What is gained after a type has been read is gained with the reading of the type. -/
theorem Session.Between.gains_of_gathers {known more : Meanings} {session between later : Session}
    (h : session.Between known) {others tokens : List Token} {last : Cursor}
    (hgathers : session.Gathers [] others last between) (hgains : between.Gains more tokens last later) :
    session.Gains more tokens last later := by
  have hgained := hgathers.gained h.localScopeId
  have hprogram : (between.table.entry SymbolTable.programId).kind = .program := by
    rw [(Entry.Similar.of_agrees (hgathers.gathers.grows.agrees _ h.hosts.lt)).kind]
    exact h.hosts.kind
  exact ⟨hgains.faces, hgained.gains.trans hgains.gains hprogram,
    hgains.openScopes.trans hgained.openScopes, hgains.diagnostics.trans hgained.diagnostics⟩

namespace Production

variable {session : Session} {known more : Meanings} {token other : Token} {tokens rest : List Token}
  {last : Cursor}

/-! ## Names of types -/

theorem kind_ne_voidWord {word : TypeName} (hrenders : word.Renders token) (hword : word ≠ .word .void) :
    token.kind ≠ .voidWord := by
  intro hvoid
  cases hrenders with
  | @word scalar _ hwords =>
      have hkind := hwords.kind
      rw [hvoid] at hkind
      cases scalar with
      | void => exact hword rfl
      | _ => exact absurd hkind (by decide)
  | named hspells =>
      have hkind := hspells.kind
      rw [hvoid] at hkind
      cases hkind

theorem kind_ne_voidWord_of_denotes {word : TypeName} {type : DataType} (hrenders : word.Renders token)
    (hdenotes : word.denotes? known = some type) (htype : type ≠ .void) : token.kind ≠ .voidWord := by
  apply kind_ne_voidWord hrenders
  rintro rfl
  exact htype (Option.some.inj hdenotes).symm

/-! ## Constants -/

/-- The names of constants are free, and they differ. -/
theorem constants_apart {declared : Option DataType} {definitions : List (String × Value)}
    {meanings : List (String × Definition × DataType)} (h : session.Between known)
    (hmeanings : definitions.mapM (constantMeaning? declared) = some meanings)
    (hapart : Apart ((known ++ plainMeanings meanings).map Prod.fst)) :
    (definitions.map fun definition => Text.lower definition.1).Nodup ∧
      ∀ definition ∈ definitions,
        Text.lower definition.1 ∉ session.table.localScope.bindings.map Prod.fst ∧
          Text.lower definition.1 ∉ known.map Prod.fst ∧ Text.lower definition.1 ∉ typeWords := by
  have hkeys : (plainMeanings meanings).map Prod.fst =
      definitions.map fun definition => Text.lower definition.1 := by
    rw [map_fst_plainMeanings, map_eq_of_mapM (fun _ _ => fst_of_constantMeaning?) hmeanings]
  refine ⟨hkeys ▸ hapart.nodup, fun definition hmem => ?_⟩
  have hfree := hapart.free (hkeys ▸ List.mem_map_of_mem hmem)
  rw [h.keys_eq]
  exact ⟨hfree.1, hfree⟩

/-- What a value fits is not `void`. -/
theorem ne_void_of_meanings {type : DataType} {definitions : List (String × Value)}
    {meanings : List (String × Definition × DataType)} (hne : definitions ≠ [])
    (hmeanings : definitions.mapM (constantMeaning? (some type)) = some meanings) : type ≠ .void := by
  rintro rfl
  obtain ⟨definition, rest, rfl⟩ := List.exists_cons_of_ne_nil hne
  rw [← List.nil_append (definition :: rest)] at hmeanings
  obtain ⟨meaning, hmeaning⟩ := exists_of_mapM_append hmeanings
  simp only [constantMeaning?, Option.bind_eq_bind, Option.bind_eq_some_iff,
    Option.ite_none_right_eq_some, Option.all_some] at hmeaning
  obtain ⟨constant, -, haccepts, -⟩ := hmeaning
  cases constant <;> exact Bool.false_ne_true haccepts

theorem leads_constantList {type : Option TypeName} {definitions : List (String × Value)}
    (h : session.Between known) (hfaces : session.cursor.Faces (tokens ++ rest) last)
    (hrenders : Declaration.Renders (.constantList type definitions) tokens)
    (hmeanings : Declaration.meanings? known (.constantList type definitions) = some more)
    (hapart : Apart ((known ++ more).map Prod.fst)) :
    Leads (declaration SymbolTable.programId) session (fun _ => False) fun _ later =>
      session.Gains more rest last later := by
  have hstart := h.start hfaces
  unfold declaration
  cases hrenders with
  | @constantList _ word mark tokens hword hcommas hmark =>
      simp only [Declaration.meanings?, Option.bind_eq_bind, Option.bind_some, Option.bind_eq_some_iff,
        Option.pure_def, Option.some.injEq] at hmeanings
      obtain ⟨meanings, hmeanings, rfl⟩ := hmeanings
      obtain ⟨hnodup, hfree⟩ := constants_apart h hmeanings hapart
      rw [List.cons_append, List.append_assoc, List.singleton_append] at hfaces
      rw [leads_bind, leads_currentKind, hfaces.current_eq, hword.kind]
      show Leads (do
        let _ ← nextToken
        constants) _ _ _
      rw [leads_bind]
      apply leads_nextToken_of_faces hfaces
      intro next hnext
      have hother : ∀ definition ∈ definitions, ∀ id, session.table.lookup definition.1 = some id →
          (session.table.entry id).kind ≠ .type := by
        intro definition hmem id hlookup
        exact h.knows.kind_ne_type h.hosts.kind (hfree definition hmem).2.1 (hfree definition hmem).2.2 hlookup
      apply (leads_constants (hstart.moved hnext) hcommas hmark hmeanings hnodup
        (fun definition hmem => (hfree definition hmem).1) hother).imp
      intro _ later hlater
      exact hlater.gained h.localScopeId
  | @typedList name _ word typeWord mark tokens hword htype hcommas hmark =>
      simp only [Declaration.meanings?, Option.bind_eq_bind, Option.bind_eq_some_iff, Option.map_eq_some_iff,
        Option.pure_def, Option.some.injEq] at hmeanings
      obtain ⟨_, ⟨type, hdenotes, rfl⟩, meanings, hmeanings, rfl⟩ := hmeanings
      obtain ⟨hnodup, hfree⟩ := constants_apart h hmeanings hapart
      rw [List.cons_append, List.cons_append, List.append_assoc, List.singleton_append] at hfaces
      rw [leads_bind, leads_currentKind, hfaces.current_eq, hword.kind]
      show Leads (do
        let _ ← nextToken
        constants) _ _ _
      rw [leads_bind]
      apply leads_nextToken_of_faces hfaces
      intro next hnext
      have hvoid := kind_ne_voidWord_of_denotes htype hdenotes
        (ne_void_of_meanings hcommas.ne_nil hmeanings)
      apply (leads_constants_of_denotes (hstart.moved hnext) (kind_of_renders htype) hvoid
        (h.knows.denotes hapart.left htype hdenotes) hcommas hmark hmeanings hnodup
        (fun definition hmem => (hfree definition hmem).1)).imp
      intro _ later hlater
      exact hlater.gained h.localScopeId

/-! ## Types and variables -/

theorem leads_typeItem {body : TypeBody} {name : String} (h : session.Between known)
    (hfaces : session.cursor.Faces (tokens ++ rest) last)
    (hrenders : Declaration.Renders (.typeDefinition body name) tokens)
    (hmeanings : Declaration.meanings? known (.typeDefinition body name) = some more)
    (hapart : Apart ((known ++ more).map Prod.fst)) :
    Leads (declaration SymbolTable.programId) session (fun _ => False) fun _ later =>
      session.Gains more rest last later := by
  simp only [Declaration.meanings?, Option.bind_eq_bind, Option.bind_eq_some_iff, Option.pure_def,
    Option.some.injEq] at hmeanings
  obtain ⟨type, htype, rfl⟩ := hmeanings
  have hfree : Text.lower name ∉ session.table.localScope.bindings.map Prod.fst := by
    rw [h.keys_eq]
    exact (hapart.free (List.mem_singleton_self _)).1
  obtain ⟨word, others, rfl, hword⟩ : ∃ word others, tokens = word :: others ∧ word.Is .typedefWord := by
    cases hrenders <;> exact ⟨_, _, rfl, by assumption⟩
  unfold declaration
  rw [leads_bind, leads_currentKind, hfaces.current_eq, hword.kind]
  show Leads (do
    let _ ← nextToken
    typeDefinition) _ _ _
  rw [leads_bind]
  apply leads_nextToken_of_faces hfaces
  intro next hnext
  apply (leads_typeDefinition ((h.start hfaces).moved hnext) hrenders htype
    (fun hword hdenotes => h.knows.denotes hapart.left hword hdenotes) hfree).imp
  intro _ later hlater
  exact hlater.gained h.localScopeId

/-- A declaration that begins with a word for a type, or with a name, begins with neither of the words for
constants and for types. -/
theorem leads_declaration_of_type {stop : Interruption → Prop} {post : Unit → Session → Prop}
    (hkind : session.cursor.current.kind ∈ typeKinds) :
    Leads (declaration SymbolTable.programId) session stop post ↔
      Leads startsVariables session stop fun starts later =>
        Leads (if starts then variablesOrFunction fun type => routine SymbolTable.programId (some type)
          else routine SymbolTable.programId none) later stop post := by
  rw [declaration, leads_bind, leads_currentKind, ← leads_bind]
  simp only [typeKinds, List.mem_cons, List.not_mem_nil, or_false] at hkind
  rcases hkind with h | h | h | h | h | h <;> rw [h]

/-- After a type come variables, or a function. -/
theorem leads_variablesOrFunction {post : Unit → Session → Prop} {type : TypeName} {meant : DataType}
    (h : session.Between known) (hfaces : session.cursor.Faces (token :: tokens) last)
    (htype : type.Renders token) (hdenotes : session.table.Denotes token meant)
    (hvoid : token.kind ≠ .voidWord)
    (hpost : ∀ typed, session.Gathers [] tokens last typed → typed.Between known →
      Leads (do if ← startsHeader then routine SymbolTable.programId (some meant) else variableNames token meant)
        typed (fun _ => False) post) :
    Leads (declaration SymbolTable.programId) session (fun _ => False) post := by
  have hkind := kind_of_renders htype
  rw [leads_declaration_of_type (by rwa [hfaces.current_eq]),
    leads_startsVariables_of_denotes hfaces.current_eq hkind hvoid hdenotes, if_pos rfl, variablesOrFunction,
    leads_bind, leads_current, leads_bind, hfaces.current_eq]
  apply ((leads_requiredType (h.start hfaces) hkind hdenotes).and
    ((traced_requiredType h.lawful).atTop rfl)).imp
  rintro _ typed ⟨⟨rfl, htyped⟩, hsteps, -⟩
  exact hpost typed htyped (h.typed hsteps htyped)

/-- The token after a name tells whether it is the name of a function. -/
theorem leads_startsHeader_of_faces {post : Bool → Session → Prop}
    (hfaces : session.cursor.Faces (token :: other :: tokens) last) (hkind : token.kind = .identifier)
    (hpost : ∀ looked : Cursor, looked.Faces (token :: other :: tokens) last →
      post (other.kind == .leftParen) { session with cursor := looked }) :
    Leads startsHeader session (fun _ => False) post := by
  rw [startsHeader, leads_bind, leads_check, hfaces.current_eq, hkind, if_pos (beq_self_eq_true _), leads_bind]
  exact leads_peekKind_of_faces hfaces hpost

theorem leads_variableList {type : TypeName} {names : List String} (h : session.Between known)
    (hfaces : session.cursor.Faces (tokens ++ rest) last)
    (hrenders : Declaration.Renders (.variableList type names) tokens)
    (hmeanings : Declaration.meanings? known (.variableList type names) = some more)
    (hapart : Apart ((known ++ more).map Prod.fst)) :
    Leads (declaration SymbolTable.programId) session (fun _ => False) fun _ later =>
      session.Gains more rest last later := by
  simp only [Declaration.meanings?, Option.bind_eq_bind, Option.bind_eq_some_iff,
    Option.ite_none_left_eq_some, Option.some.injEq] at hmeanings
  obtain ⟨meant, hmeant, hne, rfl⟩ := hmeanings
  cases hrenders with
  | @variableList _ _ word mark tokens hword hcommas hmark =>
  rw [List.cons_append, List.append_assoc, List.singleton_append] at hfaces
  have hkeys : (plainMeanings (stored .plainVariable (slotCount known)
      (names.map fun name => (Text.lower name, meant)))).map Prod.fst = names.map Text.lower := by
    rw [map_fst_plainMeanings, map_fst_stored, List.map_map]
    rfl
  have hfree : ∀ name ∈ names, Text.lower name ∉ session.table.localScope.bindings.map Prod.fst := by
    intro name hmem
    rw [h.keys_eq]
    exact (hapart.free (hkeys ▸ List.mem_map_of_mem hmem)).1
  apply leads_variablesOrFunction h hfaces hword (h.knows.denotes hapart.left hword hmeant)
    (kind_ne_voidWord_of_denotes hword hmeant hne)
  intro typed htyped hbetween
  obtain ⟨name, following, others, htokens, hname, hfollowing⟩ : ∃ name following others,
      tokens ++ mark :: rest = name :: following :: others ∧ name.kind = .identifier ∧
        following.kind ≠ .leftParen := by
    cases hcommas with
    | last hitem =>
        obtain ⟨hspells⟩ := hitem
        exact ⟨_, _, _, rfl, hspells.kind, by simp [hmark.kind]⟩
    | more hitem hcomma _ =>
        obtain ⟨hspells⟩ := hitem
        exact ⟨_, _, _, rfl, hspells.kind, by simp [hcomma.kind]⟩
  have hread := htyped.faces
  rw [htokens] at hread
  rw [leads_bind]
  apply leads_startsHeader_of_faces hread hname
  intro looked hlooked
  rw [beq_eq_false_iff_ne.mpr hfollowing, if_neg Bool.false_ne_true]
  rw [← htokens] at hlooked
  have hslot : session.table.localScope.nextSlot = slotCount known := by
    rw [SymbolTable.localScope, h.localScopeId, h.knows.nextSlot]
  apply (leads_variableNames word (htyped.moved hlooked) hcommas hmark hne (hkeys ▸ hapart.nodup)
    hfree).imp
  intro _ later hlater
  rw [← hslot]
  exact hlater.gained h.localScopeId

/-! ## Routines -/

/-- The words for the types of parameters are names for them, whatever has been declared. -/
theorem denotes_numbers (h : session.Between known) (hapart : Apart (known.map Prod.fst)) :
    ∀ (word : Token) (scalar : Scalar), word.Words scalar → scalar ∈ numbers →
      session.table.Denotes word (.scalar scalar) := by
  intro word scalar hwords hscalar
  have hdenotes : (TypeName.word scalar).denotes? known = some (.scalar scalar) :=
    if_pos (numbers_subset hscalar)
  exact h.knows.denotes hapart (.word hwords) hdenotes

theorem leads_procedure {name : String} {parameters : List Parameter} {hasBody : Bool}
    (h : session.Between known) (hfaces : session.cursor.Faces (tokens ++ rest) last)
    (hrenders : Declaration.Renders (.routine none name parameters hasBody) tokens)
    (hmeanings : Declaration.meanings? known (.routine none name parameters hasBody) = some more)
    (hapart : Apart ((known ++ more).map Prod.fst))
    (hparameters : Apart (parameters.map fun item => Text.lower item.name)) :
    Leads (declaration SymbolTable.programId) session (fun _ => False) fun _ later =>
      session.Gains more rest last later := by
  simp only [Declaration.meanings?, header?, Option.bind_eq_bind, Option.bind_eq_some_iff, Option.pure_def,
    Option.some.injEq] at hmeanings
  obtain ⟨_, ⟨typed, htyped, rfl⟩, rfl⟩ := hmeanings
  obtain ⟨hfree, hword⟩ := hapart.free (List.mem_singleton_self _)
  cases hrenders with
  | @procedure _ _ _ word tokens hvoid hheader =>
  have hcurrent : session.cursor.current.kind = .voidWord := by
    rw [hfaces.current_eq]
    exact hvoid.kind
  have hstarts (post : Bool → Session → Prop) :
      Leads startsVariables session (fun _ => False) post ↔ post false session := by
    rw [startsVariables, leads_bind, leads_current, hcurrent, if_neg (by decide), if_neg (by decide)]
    exact Iff.rfl
  rw [leads_declaration_of_type (by rw [hcurrent]; decide), hstarts, if_neg Bool.false_ne_true]
  exact leads_routine h.lawful h.hosts h.place h.knows (Or.inl hcurrent)
    (leads_routineKind_of_void hfaces hvoid.kind) hheader hfree hword hparameters
    (denotes_numbers h hapart.left) htyped (Or.inl ⟨rfl, rfl, rfl⟩)

theorem leads_function {type : TypeName} {name : String} {parameters : List Parameter} {hasBody : Bool}
    (h : session.Between known) (hfaces : session.cursor.Faces (tokens ++ rest) last)
    (hrenders : Declaration.Renders (.routine (some type) name parameters hasBody) tokens)
    (hmeanings : Declaration.meanings? known (.routine (some type) name parameters hasBody) = some more)
    (hapart : Apart ((known ++ more).map Prod.fst))
    (hparameters : Apart (parameters.map fun item => Text.lower item.name)) :
    Leads (declaration SymbolTable.programId) session (fun _ => False) fun _ later =>
      session.Gains more rest last later := by
  simp only [Declaration.meanings?, header?, Option.bind_eq_bind, Option.bind_eq_some_iff, Option.pure_def,
    Option.some.injEq, Option.ite_none_right_eq_some] at hmeanings
  obtain ⟨_, ⟨typed, htyped, meant, hmeant, ⟨hword, hscalar⟩, rfl⟩, rfl⟩ := hmeanings
  obtain ⟨hfree, hname⟩ := hapart.free (List.mem_singleton_self _)
  cases hrenders with
  | @function _ _ _ _ word tokens hrenders hheader =>
  rw [List.cons_append] at hfaces
  apply leads_variablesOrFunction h hfaces hrenders (h.knows.denotes hapart.left hrenders hmeant)
    (kind_ne_voidWord hrenders hword)
  intro read hread hbetween
  obtain ⟨token, opening, others, htokens, hkind, hopening⟩ : ∃ token opening others,
      tokens ++ rest = token :: opening :: others ∧ token.kind = .identifier ∧ opening.kind = .leftParen := by
    obtain ⟨hspells, hopening, -, -, -⟩ := hheader
    exact ⟨_, _, _, rfl, hspells.kind, hopening.kind⟩
  have hfacing := hread.faces
  rw [htokens] at hfacing
  rw [leads_bind]
  apply leads_startsHeader_of_faces hfacing hkind
  intro looked hlooked
  rw [hopening, if_pos (beq_self_eq_true _)]
  have hmoved := hbetween.moved looked
  have hfaced := hread.moved hlooked
  generalize ({ read with cursor := looked } : Session) = started at hmoved hfaced ⊢
  have hcurrent : started.cursor.current.kind = .identifier := by
    rw [hfaced.faces.current_eq]
    exact hkind
  have hfunction := leads_routineKind_of_identifier hfaced.faces hkind
  rw [← htokens] at hfunction
  have hroutine : Leads (routine SymbolTable.programId (some meant)) started (fun _ => False)
      fun _ later => started.Gains [(Text.lower name, .routine {
        kind := .function, type := meant, parameters := typed
        first := if Text.lower name = mainName then 1 else 0, hasBody })] rest last later :=
    leads_routine hmoved.lawful hmoved.hosts hmoved.place hmoved.knows (Or.inr hcurrent) hfunction
      hheader hfree hname hparameters (denotes_numbers hmoved hapart.left) htyped
      (Or.inr ⟨rfl, rfl, hscalar, rfl⟩)
  apply hroutine.imp
  intro _ later hlater
  exact h.gains_of_gathers hfaced hlater

/-! ## Whole declarations -/

/-- Whatever a declaration is, it begins like an item and unlike a statement. -/
theorem exists_start {declaration : Declaration} (h : declaration.Renders tokens) :
    ∃ first second others, tokens = first :: second :: others ∧
      itemStart.contains first.kind = true ∧ first.kind ≠ .leftBrace ∧ second.kind ≠ .equals := by
  have htype {word : TypeName} {token : Token} (hword : word.Renders token) :
      itemStart.contains token.kind = true ∧ token.kind ≠ .leftBrace ∧ token.kind ≠ .equals := by
    have hkind := kind_of_renders hword
    simp only [typeKinds, List.mem_cons, List.not_mem_nil, or_false] at hkind
    rcases hkind with h | h | h | h | h | h <;> rw [h] <;> decide
  cases h with
  | variableList hword hcommas _ =>
      obtain ⟨token, others, rfl, hkind⟩ := hcommas.exists_first NameRenders.exists_first
      exact ⟨_, _, _, rfl, (htype hword).1, (htype hword).2.1, by simp [hkind]⟩
  | constantList hword hcommas _ =>
      obtain ⟨token, others, rfl, hkind⟩ := hcommas.exists_first DefinitionRenders.exists_first
      exact ⟨_, _, _, rfl, by rw [hword.kind]; decide, by simp [hword.kind], by simp [hkind]⟩
  | typedList hword hrenders _ _ =>
      exact ⟨_, _, _, rfl, by rw [hword.kind]; decide, by simp [hword.kind], (htype hrenders).2.2⟩
  | plainType hword hrenders _ _ | arrayType hword hrenders _ _ _ _ _ _ =>
      exact ⟨_, _, _, rfl, by rw [hword.kind]; decide, by simp [hword.kind], (htype hrenders).2.2⟩
  | recordType hword hkind _ _ _ =>
      refine ⟨_, _, _, rfl, by rw [hword.kind]; decide, by simp [hword.kind], ?_⟩
      rcases hkind with hkind | hkind <;> simp [hkind.kind]
  | procedure hword hheader =>
      obtain ⟨hspells, -, -, -, -⟩ := hheader
      exact ⟨_, _, _, rfl, by rw [hword.kind]; decide, by simp [hword.kind], by simp [hspells.kind]⟩
  | function hrenders hheader =>
      obtain ⟨hspells, -, -, -, -⟩ := hheader
      exact ⟨_, _, _, rfl, (htype hrenders).1, (htype hrenders).2.1, by simp [hspells.kind]⟩

end Production

namespace Outline

/-- Whether the parameters of a declaration, if it has any, differ from each other and from the words for
the predefined types. -/
def Declaration.DistinctParameters : Declaration → Prop
  | routine _ _ parameters _ => Apart (parameters.map fun parameter => Text.lower parameter.name)
  | _ => True

/-- What is known before some declarations is known after them. -/
theorem exists_of_meaningsFrom? {outline : Outline} {known meanings : Meanings}
    (h : meaningsFrom? known outline = some meanings) : ∃ more, meanings = known ++ more := by
  induction outline generalizing known with
  | nil => exact ⟨[], by rw [List.append_nil]; exact (Option.some.inj h).symm⟩
  | cons declaration outline ih =>
      simp only [meaningsFrom?, Option.bind_eq_bind, Option.bind_eq_some_iff] at h
      obtain ⟨first, -, hrest⟩ := h
      obtain ⟨more, rfl⟩ := ih hrest
      exact ⟨first ++ more, List.append_assoc ..⟩

end Outline

namespace Production

variable {session : Session} {known more : Meanings} {declared : Declaration} {tokens rest : List Token}
  {last : Cursor}

/-- Every declaration is told from the others and read as it is written, and the scope of the program gains
what it declares. -/
theorem leads_declaration (h : session.Between known) (hfaces : session.cursor.Faces (tokens ++ rest) last)
    (hrenders : declared.Renders tokens) (hmeanings : declared.meanings? known = some more)
    (hapart : Apart ((known ++ more).map Prod.fst)) (hparameters : declared.DistinctParameters) :
    Leads (declaration SymbolTable.programId) session (fun _ => False) fun _ later =>
      session.Gains more rest last later := by
  cases declared with
  | variableList type names => exact leads_variableList h hfaces hrenders hmeanings hapart
  | constantList type definitions => exact leads_constantList h hfaces hrenders hmeanings hapart
  | typeDefinition body name => exact leads_typeItem h hfaces hrenders hmeanings hapart
  | routine type name parameters hasBody =>
      cases type with
      | none => exact leads_procedure h hfaces hrenders hmeanings hapart hparameters
      | some type => exact leads_function h hfaces hrenders hmeanings hapart hparameters

/-- A declaration is not taken for a statement. -/
theorem leads_item (h : session.Between known) (hfaces : session.cursor.Faces (tokens ++ rest) last)
    (hrenders : declared.Renders tokens) (hmeanings : declared.meanings? known = some more)
    (hapart : Apart ((known ++ more).map Prod.fst)) (hparameters : declared.DistinctParameters) :
    Leads (item SymbolTable.programId) session (fun _ => False) fun _ later =>
      session.Gains more rest last later := by
  obtain ⟨first, second, others, rfl, -, hbrace, hequals⟩ := exists_start hrenders
  rw [List.cons_append, List.cons_append] at hfaces
  rw [item, leads_bind, startsProgramStatement, leads_bind, leads_currentKind, hfaces.current_eq]
  split
  · next hkind => exact absurd hkind hbrace
  · rw [leads_bind]
    apply leads_peekKind_of_faces hfaces
    intro looked hlooked
    rw [leads_pure, beq_eq_false_iff_ne.mpr hequals, if_neg Bool.false_ne_true]
    apply (leads_declaration (h.moved looked) hlooked hrenders hmeanings hapart hparameters).imp
    intro _ later hlater
    exact ⟨hlater.faces, hlater.gains, hlater.openScopes, hlater.diagnostics⟩
  · exact leads_declaration h hfaces hrenders hmeanings hapart hparameters

/-- A declaration is a whole item. -/
theorem leads_nextItem (h : session.Between known) (hfaces : session.cursor.Faces (tokens ++ rest) last)
    (hrenders : declared.Renders tokens) (hmeanings : declared.meanings? known = some more)
    (hapart : Apart ((known ++ more).map Prod.fst)) (hparameters : declared.DistinctParameters) :
    Leads (nextItem SymbolTable.programId) session (fun _ => False) fun next later =>
      next = .yield () ∧ session.Gains more rest last later := by
  have hitem := leads_item h hfaces hrenders hmeanings hapart hparameters
  have hposition := hfaces.position_eq
  obtain ⟨first, second, others, rfl, hstart, -, -⟩ := exists_start hrenders
  obtain ⟨_, -, -, hend, -⟩ := hfaces.advance
  rw [nextItem, leads_bind, leads_current, hend, if_neg Bool.false_ne_true, leads_bind, leads_position, leads_bind,
    leads_synchronize_of_contains (by rwa [hfaces.current_eq]), hend, if_neg Bool.false_ne_true, leads_bind]
  apply hitem.imp
  intro _ later hlater
  have hmoved : later.cursor.position ≠ session.cursor.position := by
    have hlast := hlater.faces.position_eq
    simp only [List.length_append, List.length_cons] at hposition
    omega
  rw [leads_bind, dropItemUnlessMoved, leads_bind, leads_position, leads_bind, leads_current,
    beq_eq_false_iff_ne.mpr hmoved, Bool.false_and, if_neg Bool.false_ne_true]
  exact ⟨rfl, hlater⟩

/-- After the item the names that it declares are known. -/
theorem leads_turn (h : session.Between known) (hfaces : session.cursor.Faces (tokens ++ rest) last)
    (hrenders : declared.Renders tokens) (hmeanings : declared.meanings? known = some more)
    (hapart : Apart ((known ++ more).map Prod.fst)) (hparameters : declared.DistinctParameters) :
    Leads (nextItem SymbolTable.programId) session (fun _ => False) fun next later =>
      next = .yield () ∧ later.Between (known ++ more) ∧ later.cursor.Faces rest last ∧
        later.diagnostics = session.diagnostics ∧ later.cursor.ahead < session.cursor.ahead := by
  have htraced := (traced_nextItem h.lawful h.hosts).and (leaves_nextItem improper_any h.lawful h.hosts h.place)
  apply ((leads_nextItem h hfaces hrenders hmeanings hapart hparameters).and htraced).imp
  rintro _ later ⟨⟨rfl, hgains⟩, -, hlawful, ⟨hhosts, -⟩, hleaves⟩
  refine ⟨rfl, h.later hlawful hhosts (hleaves.openScopes improper_any).2 hgains, hgains.faces,
    hgains.diagnostics, ?_⟩
  obtain ⟨first, second, others, rfl, -⟩ := exists_start hrenders
  have hahead := hfaces.ahead_eq
  have hlater := hgains.faces.ahead_eq
  simp only [List.length_append, List.length_cons] at hahead
  omega

/-- A whole outline is read, up to the end of the file. -/
theorem leads_outline {outline : Outline} {meanings : Meanings} (h : session.Between known)
    (hfaces : session.cursor.Faces tokens last) (hend : last.current.isEnd = true)
    (hrenders : outline.Renders tokens) (hmeanings : meaningsFrom? known outline = some meanings)
    (hapart : Apart (meanings.map Prod.fst))
    (hparameters : ∀ declaration ∈ outline, declaration.DistinctParameters) :
    Leads (loop (fun _ => nextItem SymbolTable.programId) ()) session (fun _ => False) fun _ later =>
      later.Between meanings ∧ later.diagnostics = session.diagnostics := by
  let start := session
  apply Leads.loop fun _ session => ∃ (outline : Outline) (known : Meanings) (tokens : List Token),
    session.Between known ∧
    session.cursor.Faces tokens last ∧ Outline.Renders outline tokens ∧
      meaningsFrom? known outline = some meanings ∧
        (∀ declaration ∈ outline, declaration.DistinctParameters) ∧ session.diagnostics = start.diagnostics
  · exact ⟨outline, known, tokens, h, hfaces, hrenders, hmeanings, hparameters, rfl⟩
  rintro _ session ⟨outline, known, tokens, h, hfaces, hrenders, hmeanings, hparameters, hsame⟩
  cases hrenders with
  | nil =>
      obtain rfl := Option.some.inj hmeanings
      rw [nextItem, leads_bind, leads_current, hfaces.eq_last, hend, if_pos rfl]
      exact ⟨h, hsame⟩
  | @cons declaration outline tokens rest hfirst hrest =>
      simp only [meaningsFrom?, Option.bind_eq_bind, Option.bind_eq_some_iff] at hmeanings
      obtain ⟨more, hmore, hmeanings⟩ := hmeanings
      rw [List.forall_mem_cons] at hparameters
      obtain ⟨others, rfl⟩ := exists_of_meaningsFrom? hmeanings
      apply (leads_turn h hfaces hfirst hmore hapart.left hparameters.1).imp
      rintro _ later ⟨rfl, hlater, hfaces, hquiet, hahead⟩
      exact ⟨⟨outline, _, rest, hlater, hfaces, hrest, hmeanings, hparameters.2, hquiet.trans hsame⟩, hahead⟩

end Production

/-! ## Tokens of an outline -/

/-- Whether a token is neither a piece of text that is no token nor the end of the file. -/
def Token.Ordinary (token : Token) : Prop :=
  token.scanError? = none ∧ token.isEnd = false

theorem Token.Is.ordinary {token : Token} {kind : TokenKind} (h : token.Is kind)
    (hkind : kind ≠ .endOfFile) : token.Ordinary :=
  ⟨h.clean, by rw [Token.isEnd, h.kind]; exact beq_eq_false_iff_ne.mpr hkind⟩

theorem Token.Words.ordinary {token : Token} {scalar : Scalar} (h : token.Words scalar) : token.Ordinary := by
  refine ⟨h.clean, ?_⟩
  have hkind := h.kind
  simp only [List.mem_cons, Prod.mk.injEq, List.not_mem_nil, or_false] at hkind
  rw [Token.isEnd]
  rcases hkind with h | h | h | h | h <;> rw [h.1] <;> rfl

theorem Literal.ordinary {literal : Literal} {token : Token} (hkind : token.kind = literal.tokenKind)
    (hvalue : token.value = some literal.tokenValue) : token.Ordinary := by
  rw [Token.Ordinary, Token.scanError?, Token.isEnd, hkind, hvalue]
  cases literal <;> exact ⟨rfl, rfl⟩

namespace Outline

theorem Commas.ordinary {α : Type} {renders : α → List Token → Prop} {items : List α} {tokens : List Token}
    (h : Commas renders items tokens)
    (hitem : ∀ item tokens, renders item tokens → ∀ token ∈ tokens, token.Ordinary) :
    ∀ token ∈ tokens, token.Ordinary := by
  induction h with
  | last hrenders => exact hitem _ _ hrenders
  | more hrenders hcomma _ ih =>
      exact List.forall_mem_append.mpr ⟨hitem _ _ hrenders,
        List.forall_mem_cons.mpr ⟨hcomma.ordinary (by decide), ih⟩⟩

theorem TypeName.Renders.ordinary {word : TypeName} {token : Token} (h : word.Renders token) :
    token.Ordinary := by
  cases h with
  | word hwords => exact hwords.ordinary
  | named hspells => exact hspells.ordinary (by decide)

theorem DefinitionRenders.ordinary {definition : String × Value} {tokens : List Token}
    (h : DefinitionRenders definition tokens) : ∀ token ∈ tokens, token.Ordinary := by
  obtain ⟨hspells, hmark, hvalue⟩ := h
  refine List.forall_mem_cons.mpr ⟨hspells.ordinary (by decide),
    List.forall_mem_cons.mpr ⟨hmark.ordinary (by decide), ?_⟩⟩
  cases hvalue with
  | plain hkind hvalue => exact List.forall_mem_singleton.mpr (Literal.ordinary hkind hvalue)
  | @signed sign _ _ _ hsign hkind hvalue =>
      refine List.forall_mem_cons.mpr ⟨hsign.ordinary ?_, List.forall_mem_singleton.mpr ?_⟩
      · cases sign <;> decide
      · exact Literal.ordinary hkind hvalue

theorem HeaderRenders.ordinary {name : String} {parameters : List Parameter} {hasBody : Bool}
    {tokens : List Token} (h : HeaderRenders name parameters hasBody tokens) :
    ∀ token ∈ tokens, token.Ordinary := by
  obtain ⟨hspells, hopening, hinner, hclosing, hending⟩ := h
  refine List.forall_mem_cons.mpr ⟨hspells.ordinary (by decide), List.forall_mem_cons.mpr
    ⟨hopening.ordinary (by decide), List.forall_mem_append.mpr ⟨?_, List.forall_mem_cons.mpr
      ⟨hclosing.ordinary (by decide), ?_⟩⟩⟩⟩
  · cases hinner with
    | none => exact List.forall_mem_nil _
    | void hword => exact List.forall_mem_singleton.mpr (hword.ordinary (by decide))
    | some hcommas =>
        apply hcommas.ordinary
        rintro _ _ ⟨hword, hspells⟩
        simpa using ⟨hword.ordinary, hspells.ordinary (by decide)⟩
  · cases hending with
    | forward hmark => simpa using hmark.ordinary (by decide)
    | body hopening hclosing => simpa using ⟨hopening.ordinary (by decide), hclosing.ordinary (by decide)⟩

theorem Declaration.Renders.ordinary {declaration : Declaration} {tokens : List Token}
    (h : declaration.Renders tokens) : ∀ token ∈ tokens, token.Ordinary := by
  have hlist {tokens : List Token} {mark : Token} (hmark : mark.Is .semicolon)
      (htokens : ∀ token ∈ tokens, token.Ordinary) : ∀ token ∈ tokens ++ [mark], token.Ordinary :=
    List.forall_mem_append.mpr ⟨htokens, List.forall_mem_singleton.mpr (hmark.ordinary (by decide))⟩
  cases h with
  | variableList hword hcommas hmark =>
      refine List.forall_mem_cons.mpr ⟨hword.ordinary, hlist hmark (hcommas.ordinary ?_)⟩
      rintro _ _ ⟨hspells⟩
      exact List.forall_mem_singleton.mpr (hspells.ordinary (by decide))
  | constantList hword hcommas hmark =>
      exact List.forall_mem_cons.mpr ⟨hword.ordinary (by decide),
        hlist hmark (hcommas.ordinary fun _ _ => DefinitionRenders.ordinary)⟩
  | typedList hword htype hcommas hmark =>
      exact List.forall_mem_cons.mpr ⟨hword.ordinary (by decide), List.forall_mem_cons.mpr
        ⟨htype.ordinary, hlist hmark (hcommas.ordinary fun _ _ => DefinitionRenders.ordinary)⟩⟩
  | plainType hword htype hspells hmark =>
      simpa using ⟨hword.ordinary (by decide), htype.ordinary, hspells.ordinary (by decide),
        hmark.ordinary (by decide)⟩
  | @arrayType _ count _ _ _ _ _ bound _ _ hword htype hspells hopening hbound hkind hclosing hmark =>
      have hliteral : bound.Ordinary := @Literal.ordinary (.integer count) bound hkind hbound
      simpa using ⟨hword.ordinary (by decide), htype.ordinary, hspells.ordinary (by decide),
        hopening.ordinary (by decide), hliteral, hclosing.ordinary (by decide), hmark.ordinary (by decide)⟩
  | recordType hword hkind htag hspells hmark =>
      have hkind := hkind.elim (fun h => h.ordinary (by decide)) fun h => h.ordinary (by decide)
      simpa using ⟨hword.ordinary (by decide), hkind, htag.ordinary (by decide), hspells.ordinary (by decide),
        hmark.ordinary (by decide)⟩
  | procedure hword hheader =>
      exact List.forall_mem_cons.mpr ⟨hword.ordinary (by decide), hheader.ordinary⟩
  | function hword hheader => exact List.forall_mem_cons.mpr ⟨hword.ordinary, hheader.ordinary⟩

theorem Renders.ordinary {outline : Outline} {tokens : List Token} (h : outline.Renders tokens) :
    ∀ token ∈ tokens, token.Ordinary := by
  induction h with
  | nil => exact List.forall_mem_nil _
  | cons hdeclaration _ ih => exact List.forall_mem_append.mpr ⟨hdeclaration.ordinary, ih⟩

end Outline

/-! ## Compilations -/

namespace Cursor

/-- The stream of a list is read up to the end of the file. -/
theorem exists_faces_ofList {token : Token} {tokens : List Token} {location : Location} {position : Nat}
    (h : ∀ other ∈ token :: tokens, other.Ordinary) :
    ∃ last, Faces { stream := .ofList tokens location, current := token, position } (token :: tokens) last ∧
      last.current = .endOfFile location := by
  induction tokens generalizing token position with
  | nil =>
      have hend := (h token (List.mem_singleton_self _)).2
      refine ⟨⟨.ofList [] location, .endOfFile location, none, position + 1⟩, ⟨.cons hend ?_ (.nil _),
        fun other hmem => (h other hmem).1, rfl⟩, rfl⟩
      rw [Cursor.advance, if_neg (by simp [hend])]
      rfl
  | cons next tokens ih =>
      obtain ⟨hfirst, hrest⟩ := List.forall_mem_cons.mp h
      obtain ⟨last, hlast, hcurrent⟩ := @ih next (position + 1) hrest
      refine ⟨last, ⟨.cons hfirst.2 ?_ hlast.reads, fun other hmem => (h other hmem).1, hlast.next⟩, hcurrent⟩
      rw [Cursor.advance, if_neg (by simp [hfirst.2])]
      rfl

/-- A list of tokens is faced from its start. -/
theorem exists_start_ofList {tokens : List Token} (location : Location) (h : ∀ token ∈ tokens, token.Ordinary) :
    ∃ cursor last, Cursor.start (.ofList tokens location) = .ok cursor ∧ cursor.Faces tokens last ∧
      last.current = .endOfFile location := by
  cases tokens with
  | nil => exact ⟨_, _, rfl, ⟨.nil _, List.forall_mem_nil _, rfl⟩, rfl⟩
  | cons token tokens =>
      obtain ⟨last, hfaces, hlast⟩ := exists_faces_ofList h
      exact ⟨_, last, rfl, hfaces, hlast⟩

end Cursor

/-- The first item of a unit is read where nothing has been declared. -/
theorem Session.between_opened {cursor : Cursor} : (Session.opened cursor).Between [] := by
  have hready := ready_opened cursor
  exact ⟨hready.lawful, hready.hosts, rfl, SymbolTable.knows_unitTable⟩

/-- Whatever tokens write an outline are compiled without an error, and the scope of the program binds just
the names of the outline, in order, with their meanings. -/
theorem compile_outline {outline : Outline} {meanings : Meanings} {tokens : List Token}
    (location : Location) (hrenders : outline.Renders tokens)
    (hmeanings : outline.meanings? = some meanings) (hapart : Apart (meanings.map Prod.fst))
    (hparameters : ∀ declaration ∈ outline, declaration.DistinctParameters) :
    ∃ unit, compile (.ofList tokens location) = .ok unit ∧ unit.diagnostics = [] ∧
      (unit.table.entry unit.program).frame? = some SymbolTable.programScope ∧
        unit.table.Lists unit.table.Means SymbolTable.programScope meanings := by
  obtain ⟨cursor, last, hstart, hfaces, hlast⟩ := Cursor.exists_start_ofList location hrenders.ordinary
  have hend : last.current.isEnd = true := by rw [hlast]; rfl
  have hclean : (Session.opened cursor).diagnostics = [] := by
    have hscan : cursor.current.scanError? = none := by
      cases tokens with
      | nil => rw [hfaces.eq_last]; exact hfaces.next
      | cons token tokens => rw [hfaces.current_eq]; exact hfaces.clean _ (List.mem_cons_self ..)
    simp [Session.opened, Token.reports, hscan]
  obtain ⟨_, ended, hrun, hbetween, hquiet⟩ := (Production.leads_outline Session.between_opened hfaces hend
    hrenders hmeanings hapart hparameters).exists_ok
  have hitems : Production.items (Session.opened cursor) =
      .ok (SymbolTable.programId, { ended with table := ended.table.pop.2 }) := by
    rw [Production.items, Production.bind_of_ok hrun]
    rfl
  have hcompile : compile (.ofList tokens location) =
      .ok (.ofOutcome (SymbolTable.programId, { ended with table := ended.table.pop.2 })) := by
    rw [compile_eq hstart, hitems]
    rfl
  refine ⟨_, hcompile, hquiet.trans hclean, frame_program hcompile, ?_⟩
  apply hbetween.knows.lists.imp
  · exact congrArg Scope.bindings (ended.table.scope_pop SymbolTable.programScope)
  · exact fun _ _ hmeans => hmeans.pop

/-- The outline that is written `typedef int Num; const num k = -3; const c = 'c'; num A, b; num f(int x) { }`. -/
theorem compile_outline_num :
    let token (kind : TokenKind) : Token := ⟨kind, kind.text, ⟨1, 1⟩, none⟩
    let name (text : String) : Token := ⟨.identifier, text, ⟨1, 1⟩, none⟩
    let tokens : List Token :=
      [token .typedefWord, token .intWord, name "Num", token .semicolon,
       token .constWord, name "num", name "k", token .equals, token .minus,
       ⟨.integer, "3", ⟨1, 1⟩, some (.integer 3)⟩, token .semicolon,
       token .constWord, name "c", token .equals, ⟨.character, "'c'", ⟨1, 1⟩, some (.character 'c')⟩, token .semicolon,
       name "num", name "A", token .comma, name "b", token .semicolon,
       name "num", name "f", token .leftParen, token .intWord, name "x", token .rightParen,
       token .leftBrace, token .rightBrace]
    ∃ unit, compile (.ofList tokens ⟨1, 1⟩) = .ok unit ∧ unit.diagnostics = [] ∧
      unit.table.Lists unit.table.Means SymbolTable.programScope
        [("num", .plain .type .int), ("k", .plain (.constant (.integer (-3))) .int),
         ("c", .plain (.constant (.character 'c')) .char),
         ("a", .plain (.plainVariable 0) .int), ("b", .plain (.plainVariable 1) .int),
         ("f", .routine {
            kind := .function, type := .int, parameters := [("x", .int)], first := 0, hasBody := true })] := by
  intro token name tokens
  let outline : Outline :=
    [.typeDefinition (.plain (.word .int)) "Num",
     .constantList (some (.named "num")) [("k", ⟨some .minus, .integer 3⟩)],
     .constantList none [("c", ⟨none, .character 'c'⟩)],
     .variableList (.named "num") ["A", "b"], .routine (some (.named "num")) "f" [⟨.int, "x"⟩] true]
  have his (kind : TokenKind) : (token kind).Is kind := ⟨rfl, rfl⟩
  have hspells (text : String) : (name text).Spells text := ⟨⟨rfl, rfl⟩, rfl⟩
  have hint : (token .intWord).Words .int := ⟨by decide, by decide +kernel, rfl⟩
  have hnum : (TypeName.named "num").Renders (name "num") := .named (hspells "num")
  have hvalue : Value.Renders ⟨some .minus, .integer 3⟩
      [token .minus, ⟨.integer, "3", ⟨1, 1⟩, some (.integer 3)⟩] := .signed (his .minus) rfl rfl
  have hx : Parameter.Renders ⟨.int, "x"⟩ [token .intWord, name "x"] := .intro hint (hspells "x")
  have hheader : HeaderRenders "f" [⟨.int, "x"⟩] true (tokens.drop 22) :=
    .intro (hspells "f") (his .leftParen) (.some (.last hx)) (his .rightParen)
      (.body (his .leftBrace) (his .rightBrace))
  have hletter : Value.Renders ⟨none, .character 'c'⟩ [⟨.character, "'c'", ⟨1, 1⟩, some (.character 'c')⟩] :=
    .plain rfl rfl
  have hdefinition := DefinitionRenders.intro (hspells "k") (his .equals) hvalue
  have huntyped := DefinitionRenders.intro (hspells "c") (his .equals) hletter
  have hnames : Commas NameRenders ["A", "b"] [name "A", token .comma, name "b"] :=
    .more (NameRenders.intro (hspells "A")) (his .comma) (.last (NameRenders.intro (hspells "b")))
  have hrenders : outline.Renders tokens :=
    .cons (.plainType (his .typedefWord) (.word hint) (hspells "Num") (his .semicolon))
      (.cons (.typedList (his .constWord) hnum (.last hdefinition) (his .semicolon))
        (.cons (.constantList (his .constWord) (.last huntyped) (his .semicolon))
          (.cons (.variableList hnum hnames (his .semicolon)) (.cons (.function hnum hheader) .nil))))
  have hparameters : ∀ declaration ∈ outline, declaration.DistinctParameters := by
    simp only [outline, List.forall_mem_cons, Declaration.DistinctParameters, true_and]
    exact ⟨by decide, List.forall_mem_nil _⟩
  obtain ⟨unit, hcompile, hclean, -, hlists⟩ :=
    compile_outline ⟨1, 1⟩ hrenders rfl (by decide) hparameters
  exact ⟨unit, hcompile, hclean, hlists⟩

end FrontEnd
