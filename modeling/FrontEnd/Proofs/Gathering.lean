import FrontEnd.Proofs.Facing
import FrontEnd.Proofs.Meanings

/-!
# Declarations gather the names that are written

From a session that faces the tokens of a declaration of variables, constants or a type, the production for
it reads just these tokens, reports nothing, and gathers the names with their meanings
(`leads_variableNames`, `leads_constants`, `leads_typeDefinition`).  So does that for the parameters of a
routine (`leads_enclosedParameters`).

## Strategy

Along the way a session has always gathered some names since the start and faces what is left
(`Session.Gathers`).  The items of a list are read one by one, each with the comma after it, so what has been
gathered is told by the items that are done (`Leads.commas`).
-/

namespace FrontEnd

/-- Whether a session has been reached from another without an error, faces some tokens, and its innermost
scope has gathered some names. -/
structure Session.Gathers (start : Session) (names : List (String × Definition × DataType))
    (tokens : List Token) (last : Cursor) (later : Session) : Prop where
  faces : later.cursor.Faces tokens last
  gathers : start.table.Gathers names later.table
  diagnostics : later.diagnostics = start.diagnostics

/-- Whether a session has been reached from another without an error, faces some tokens, and the scope of the
program has gained some names. -/
structure Session.Gains (start : Session) (more : Meanings) (tokens : List Token) (last : Cursor)
    (later : Session) : Prop where
  faces : later.cursor.Faces tokens last
  gains : start.table.Gains more later.table
  openScopes : later.table.openScopes = start.table.openScopes
  diagnostics : later.diagnostics = start.diagnostics

/-- Whether a session has gathered what some definitions of constants mean. -/
def Session.GathersConstants (start : Session) (declared : Option DataType)
    (definitions : List (String × Outline.Value)) (tokens : List Token) (last : Cursor)
    (later : Session) : Prop :=
  ∃ gathered, definitions.mapM (Outline.constantMeaning? declared) = some gathered ∧
    start.Gathers gathered tokens last later

/-- Whether a session has gathered parameters of some types, whose entries are those of its innermost
scope. -/
structure Session.GathersParameters (start : Session) (typed : List (String × DataType))
    (parameters : List EntryId) (tokens : List Token) (last : Cursor) (later : Session) : Prop where
  entries : parameters = later.table.localScope.entries
  gathers : start.Gathers (Outline.stored .valueParameter start.table.localScope.nextSlot typed) tokens last
    later

namespace Session.Gathers

variable {start session : Session} {names : List (String × Definition × DataType)}
  {tokens others : List Token} {last : Cursor}

theorem moved (h : start.Gathers names tokens last session) {cursor : Cursor}
    (hfaces : cursor.Faces others last) : start.Gathers names others last { session with cursor } :=
  ⟨hfaces, h.gathers, h.diagnostics⟩

theorem extended (h : start.Gathers names tokens last session)
    {more : List (String × Definition × DataType)} {table : SymbolTable}
    (hgathers : start.table.Gathers more table) :
    start.Gathers more tokens last { session with table } :=
  ⟨h.faces, hgathers, h.diagnostics⟩

/-- What the innermost scope has gathered the program has gained, if the scope is its own. -/
theorem gained (h : start.Gathers names tokens last session)
    (hlocal : start.table.localScopeId = SymbolTable.programScope) :
    start.Gains (Outline.plainMeanings names) tokens last session :=
  ⟨h.faces, h.gathers.gains hlocal, h.gathers.steady.openScopes, h.diagnostics⟩

/-- A name that the scope did not have at the start and that has not been gathered is free. -/
theorem free (h : start.Gathers names tokens last session) {name : String}
    (hfree : Text.lower name ∉ start.table.localScope.bindings.map Prod.fst ++ names.map Prod.fst) :
    session.table.lookupLocal name = none := by
  rw [List.mem_append, not_or] at hfree
  exact h.gathers.lookupLocal_eq_none hfree.1 hfree.2

end Session.Gathers

namespace Session.GathersParameters

open Outline

variable {start session : Session} {gathered : List (String × DataType)} {parameters : List EntryId}
  {tokens : List Token} {last : Cursor}

/-- An empty scope has no parameters. -/
theorem of_gathers (h : start.Gathers [] tokens last session)
    (hempty : start.table.localScope.bindings = []) : start.GathersParameters [] [] tokens last session where
  entries := by rw [Scope.entries_eq, h.gathers.bindings_eq, hempty, List.map_nil]
  gathers := h

/-- A word for a number denotes what it did at the start, as no parameter has it for a name. -/
theorem denotes (h : start.GathersParameters gathered parameters tokens last session) {word : Token}
    {scalar : Scalar} (hword : word.Words scalar) (hscalar : scalar ∈ numbers)
    (hapart : ∀ name ∈ gathered.map Prod.fst, name ∉ typeWords)
    (hdenotes : start.table.Denotes word (.scalar scalar)) : session.table.Denotes word (.scalar scalar) := by
  apply h.gathers.gathers.denotes hdenotes
  rw [map_fst_stored, hword.text]
  intro hmem
  exact hapart _ hmem (List.mem_map_of_mem (numbers_subset hscalar))

end Session.GathersParameters

namespace Production

open Outline

variable {start session : Session} {names : List (String × Definition × DataType)} {token : Token}
  {tokens rest : List Token} {last : Cursor}

/-! ## Single names -/

theorem leads_declare (h : start.Gathers names tokens last session) {definition : Definition}
    (type : DataType) (hfree : session.table.lookupLocal token.text = none)
    (hroutine : definition.routine? = none) (hslot : definition.slot? = none) :
    Leads (declare token definition type) session (fun _ => False) fun _ later =>
      start.Gathers (names ++ [(Text.lower token.text, definition, type)]) tokens last later := by
  unfold declare
  simp only [enterLocal, SymbolTable.enterLocal, hfree, leads_bind, leads_onTable, leads_changeEntry]
  exact h.extended ((h.gathers.declare type hfree hroutine hslot).mention _ _)

theorem leads_declareStorage (h : start.Gathers names tokens last session) {kind : DefinitionKind}
    (type : DataType) (hfree : session.table.lookupLocal token.text = none)
    (hkind : kind = .plainVariable ∨ kind = .valueParameter) :
    Leads (declareStorage token kind type) session (fun _ => False) fun answer later =>
      start.Gathers
        (names ++ [(Text.lower token.text, .ofStorage kind (start.table.localScope.nextSlot +
          names.countP fun name => name.2.1.slot?.isSome), type)]) tokens last later ∧
        later.table.localScope.entries = session.table.localScope.entries ++ answer.toList := by
  have hvalid := h.gathers.valid
  have hstored := (h.gathers.store type hfree hkind).mention session.table.entries.size token.line
  unfold declareStorage
  simp only [enterLocal, SymbolTable.enterLocal, hfree, leads_bind, leads_onTable, leads_changeEntry,
    leads_pure]
  refine ⟨h.extended hstored, ?_⟩
  show (session.table.bindNew (Text.lower token.text)).takeSlot.2.localScope.entries = _
  rw [SymbolTable.localScope_takeSlot (hvalid.bindNew _), SymbolTable.localScope_bindNew hvalid]
  rfl

/-! ## Types -/

/-- The kinds of the words that are looked up as names for types. -/
def typeKinds : List TokenKind :=
  [.intWord, .floatWord, .doubleWord, .charWord, .voidWord, .identifier]

theorem kind_of_renders {word : TypeName} (h : word.Renders token) : token.kind ∈ typeKinds := by
  cases h with
  | word hwords =>
      have hkind := hwords.kind
      simp only [List.mem_cons, Prod.mk.injEq, List.not_mem_nil, or_false] at hkind
      rcases hkind with h | h | h | h | h <;> rw [h.1] <;> decide
  | named hspells =>
      rw [hspells.kind]
      decide

theorem leads_typeNamed {id : EntryId} {name : String} {stop : Interruption → Prop}
    {post : Option EntryId → Session → Prop} (hlookup : session.table.lookup name = some id)
    (hkind : (session.table.entry id).kind = .type) :
    Leads (typeNamed name) session stop post ↔ post (some id) session := by
  simp [typeNamed, hlookup, Option.filter, hkind]

theorem leads_namedType (h : start.Gathers names (token :: tokens) last session) {type : DataType}
    (hdenotes : session.table.Denotes token type) :
    Leads namedType session (fun _ => False) fun answer later =>
      answer = some type ∧ start.Gathers names tokens last later ∧
        later.table.localScope = session.table.localScope := by
  obtain ⟨id, hlookup, hshows⟩ := hdenotes
  have hkind : (session.table.entry id).kind = .type := by rw [Entry.kind, hshows.definition]; rfl
  have hmention := h.extended (h.gathers.mention id token.line)
  unfold namedType
  rw [leads_bind, leads_current, leads_bind, h.faces.current_eq, leads_typeNamed hlookup hkind]
  simp only [leads_bind, leads_changeEntry, leads_entry]
  apply leads_nextToken_of_faces hmention.faces
  intro next hnext
  refine ⟨?_, hmention.moved hnext, rfl⟩
  rw [SymbolTable.entry_modifyEntry_self (SymbolTable.lt_of_type hshows.type), Entry.resolvedType,
    ((session.table.entry id).agrees_addLine token.line).type, hshows.type]
  rfl

theorem leads_typeSpecifier (h : start.Gathers names (token :: tokens) last session) {type : DataType}
    (hkind : token.kind ∈ typeKinds) (hdenotes : session.table.Denotes token type) :
    Leads typeSpecifier session (fun _ => False) fun answer later =>
      answer = some type ∧ start.Gathers names tokens last later ∧
        later.table.localScope = session.table.localScope := by
  have hnamed := leads_namedType h hdenotes
  unfold typeSpecifier
  rw [leads_bind, leads_currentKind, h.faces.current_eq]
  simp only [typeKinds, List.mem_cons, List.not_mem_nil, or_false] at hkind
  rcases hkind with h | h | h | h | h | h <;> rw [h] <;> exact hnamed

theorem leads_requiredType (h : start.Gathers names (token :: tokens) last session) {type : DataType}
    (hkind : token.kind ∈ typeKinds) (hdenotes : session.table.Denotes token type) :
    Leads requiredType session (fun _ => False) fun answer later =>
      answer = type ∧ start.Gathers names tokens last later := by
  apply (leads_typeSpecifier h hkind hdenotes).bind
  rintro _ later ⟨rfl, hlater, -⟩
  exact ⟨rfl, hlater⟩

/-! ## Lists -/

/-- A loop reads a list of items with commas between them, if its step reads an item and goes on after a
comma.  After the last item it may go on too, but only to find that there are no more. -/
theorem Leads.commas {α σ : Type} {renders : α → List Token → Prop} {step : σ → Production (ForInStep σ)}
    {post : σ → Session → Prop} {all : List α} {state : σ}
    (reached : List α → σ → List Token → Session → Prop)
    (hfaces : ∀ done state tokens session, reached done state tokens session →
      session.cursor.Faces tokens last)
    (hmore : ∀ done item items state tokens comma others session, done ++ item :: items = all →
      renders item tokens → comma.Is .comma → reached done state (tokens ++ comma :: others) session →
      Leads (step state) session (fun _ => False) fun next later =>
        ∃ state, next = .yield state ∧ reached (done ++ [item]) state others later)
    (hlast : ∀ done item state tokens session, done ++ [item] = all → renders item tokens →
      reached done state (tokens ++ rest) session →
      Leads (step state) session (fun _ => False) fun next later =>
        match next with
        | .done state => post state later
        | .yield state => later.cursor.ahead < session.cursor.ahead ∧
          Leads (step state) later (fun _ => False) fun next final =>
            ∃ state, next = .done state ∧ post state final)
    (hrenders : Commas renders all tokens) (hstart : reached [] state (tokens ++ rest) session) :
    Leads (Production.loop step state) session (fun _ => False) post := by
  -- either some items are left, or the next step finds that there are none
  apply Leads.loop fun state session =>
    (∃ done items tokens, done ++ items = all ∧ Commas renders items tokens ∧
      reached done state (tokens ++ rest) session) ∨
    Leads (step state) session (fun _ => False) fun next final => ∃ state, next = .done state ∧ post state final
  · exact Or.inl ⟨[], all, tokens, rfl, hrenders, hstart⟩
  rintro state session (⟨done, items, tokens, hall, hitems, hreached⟩ | hends)
  · have hahead := (hfaces _ _ _ _ hreached).ahead_eq
    cases hitems with
    | @last item _ hitem =>
        apply (hlast done item state tokens session hall hitem hreached).imp
        rintro (state | state) later hnext
        · exact hnext
        · exact ⟨Or.inr hnext.2, hnext.1⟩
    | @more item items first others comma hitem hcomma hothers =>
        rw [List.append_assoc, List.cons_append] at hreached hahead
        apply (hmore done item items state first comma (others ++ rest) session hall hitem hcomma
          hreached).imp
        rintro _ later ⟨state, rfl, hlater⟩
        have hlaterAhead := (hfaces _ _ _ _ hlater).ahead_eq
        refine ⟨Or.inl ⟨done ++ [item], items, others, by rw [List.append_assoc]; exact hall, hothers,
          hlater⟩, ?_⟩
        simp only [List.length_append, List.length_cons] at hahead hlaterAhead
        omega
  · apply hends.imp
    rintro _ later ⟨state, rfl, hpost⟩
    exact hpost

/-- If the step stops just where no comma follows, the loop reads the list up to the semicolon after it. -/
theorem Leads.commas_of_stops {α : Type} {renders : α → List Token → Prop} {step : Production (ForInStep Unit)}
    {all : List α} {mark : Token} (reached : List α → List Token → Session → Prop)
    (hfaces : ∀ done tokens session, reached done tokens session → session.cursor.Faces tokens last)
    (hstep : ∀ done item items tokens following others session, done ++ item :: items = all →
      renders item tokens → following.kind ≠ .identifier → reached done (tokens ++ following :: others) session →
      Leads step session (fun _ => False) fun next later =>
        if following.kind = .comma then next = .yield () ∧ reached (done ++ [item]) others later
        else next = .done () ∧ reached (done ++ [item]) (following :: others) later)
    (hrenders : Commas renders all tokens) (hmark : mark.Is .semicolon)
    (hstart : reached [] (tokens ++ mark :: rest) session) :
    Leads (Production.loop (fun _ => step) ()) session (fun _ => False) fun _ later =>
      reached all (mark :: rest) later := by
  apply Leads.commas (fun done _ => reached done) (fun done _ => hfaces done) ?_ ?_ hrenders hstart
  · intro done item items _ tokens comma others session hall hitem hcomma hreached
    apply (hstep _ _ _ _ _ _ _ hall hitem (by simp [hcomma.kind]) hreached).imp
    intro next later hnext
    rw [if_pos hcomma.kind] at hnext
    exact ⟨(), hnext⟩
  · intro done item _ tokens session hall hitem hreached
    apply (hstep _ _ _ _ _ _ _ hall hitem (by simp [hmark.kind]) hreached).imp
    intro next later hnext
    rw [if_neg (by simp [hmark.kind]), hall] at hnext
    obtain ⟨rfl, hlater⟩ := hnext
    exact hlater

/-- After an item a comma is consumed, and nothing else. -/
theorem leads_comma {following : Token} {others : List Token}
    (h : start.Gathers names (following :: others) last session) :
    Leads (matchToken .comma) session (fun _ => False) fun found later =>
      if following.kind = .comma then found = true ∧ start.Gathers names others last later
      else found = false ∧ later = session := by
  split
  · next hcomma =>
      apply leads_matchToken_of_faces h.faces hcomma
      intro next hnext
      exact ⟨rfl, h.moved hnext⟩
  · next hcomma =>
      rw [leads_matchToken_of_ne (by rwa [h.faces.current_eq])]
      exact ⟨rfl, rfl⟩

/-- Where names differ from each other and from some others, each differs from the others and from those
before it. -/
theorem notMem_append_of_nodup {α : Type} {key : α → String} {taken : List String} {done items : List α}
    {item : α} (hnodup : ((done ++ item :: items).map key).Nodup) (hfree : key item ∉ taken) :
    key item ∉ taken ++ done.map key := by
  rw [List.map_append, List.map_cons, List.nodup_append] at hnodup
  rw [List.mem_append, not_or]
  refine ⟨hfree, fun hmem => ?_⟩
  exact hnodup.2.2 _ hmem _ (List.mem_cons_self ..) rfl

/-! ## Variables -/

theorem leads_variableName {following : Token} {others : List Token} (type : DataType)
    (h : start.Gathers names (token :: following :: others) last session) (hkind : token.kind = .identifier)
    (hfree : session.table.lookupLocal token.text = none) (hfollowing : following.kind ≠ .identifier) :
    Leads (variableName type) session (fun _ => False) fun next later =>
      let more := names ++ [(Text.lower token.text, .plainVariable (start.table.localScope.nextSlot +
        names.countP fun name => name.2.1.slot?.isSome), type)]
      if following.kind = .comma then next = .yield () ∧ start.Gathers more others last later
      else next = .done () ∧ start.Gathers more (following :: others) last later := by
  unfold variableName
  rw [leads_bind, leads_current, h.faces.current_eq, if_neg (by simp [hkind]), leads_bind]
  apply (leads_declareStorage h type hfree (Or.inl rfl)).imp
  rintro _ stored ⟨hstored, -⟩
  rw [leads_bind]
  apply leads_nextToken_of_faces hstored.faces
  intro next hnext
  have hmoved := hstored.moved hnext
  rw [leads_bind]
  apply (leads_comma hmoved).imp
  intro found later hfound
  split at hfound
  · next hcomma =>
      obtain ⟨rfl, hlater⟩ := hfound
      simp only [if_true, hcomma, leads_pure]
      exact ⟨trivial, hlater⟩
  · next hcomma =>
      obtain ⟨rfl, rfl⟩ := hfound
      simp only [Bool.false_eq_true, if_false, hcomma, leads_bind, leads_check, hnext.current_eq,
        beq_eq_false_iff_ne.mpr hfollowing, leads_pure]
      exact ⟨trivial, hmoved⟩

/-- The names of variables, up to the semicolon. -/
theorem leads_variableLoop {type : DataType} {names : List String} {mark : Token}
    (h : start.Gathers [] (tokens ++ mark :: rest) last session) (hrenders : Commas NameRenders names tokens)
    (hmark : mark.Is .semicolon) (hnodup : (names.map Text.lower).Nodup)
    (hfree : ∀ name ∈ names, Text.lower name ∉ start.table.localScope.bindings.map Prod.fst) :
    Leads (loop (fun _ => variableName type) ()) session (fun _ => False) fun _ later =>
      start.Gathers (stored .plainVariable start.table.localScope.nextSlot
        (names.map fun name => (Text.lower name, type))) (mark :: rest) last later := by
  apply Leads.commas_of_stops (fun done tokens session =>
    start.Gathers (stored .plainVariable start.table.localScope.nextSlot
      (done.map fun name => (Text.lower name, type))) tokens last session)
    (fun _ _ _ hreached => hreached.faces) ?_ hrenders hmark h
  intro done item items tokens following others session hall hitem hfollowing hreached
  obtain ⟨token, rfl, hspells⟩ : ∃ token, tokens = [token] ∧ token.Spells item := by
    obtain ⟨hspells⟩ := hitem
    exact ⟨_, rfl, hspells⟩
  rw [List.singleton_append] at hreached
  have hlocal : session.table.lookupLocal token.text = none := by
    rw [hspells.text]
    apply hreached.free
    rw [map_fst_stored, List.map_map]
    exact notMem_append_of_nodup (hall ▸ hnodup) (hfree item (by simp [← hall]))
  have hname := leads_variableName type hreached hspells.kind hlocal hfollowing
  rw [countP_stored, hspells.text, List.length_map] at hname
  simp only [List.map_append, List.map_cons, List.map_nil, stored_concat, List.length_map]
  exact hname

theorem leads_variableNames {type : DataType} {names : List String} {mark : Token} (typeToken : Token)
    (h : start.Gathers [] (tokens ++ mark :: rest) last session) (hrenders : Commas NameRenders names tokens)
    (hmark : mark.Is .semicolon) (htype : type ≠ .void) (hnodup : (names.map Text.lower).Nodup)
    (hfree : ∀ name ∈ names, Text.lower name ∉ start.table.localScope.bindings.map Prod.fst) :
    Leads (variableNames typeToken type) session (fun _ => False) fun _ later =>
      start.Gathers (stored .plainVariable start.table.localScope.nextSlot
        (names.map fun name => (Text.lower name, type))) rest last later := by
  unfold variableNames
  rw [leads_bind, leads_check, leads_bind, ensure, beq_eq_false_iff_ne.mpr htype, Bool.and_false,
    Bool.not_false, if_pos rfl, leads_pure, leads_bind]
  apply (leads_variableLoop h hrenders hmark hnodup hfree).imp
  intro _ later hlater
  apply leads_expect_of_faces hlater.faces hmark.kind
  intro next hnext
  exact hlater.moved hnext

/-! ## Constants -/

theorem leads_matchAny_of_faces {set : KindSet} {post : Bool → Session → Prop}
    {stop : Interruption → Prop} (h : session.cursor.Faces (token :: tokens) last)
    (hset : set.contains token.kind = true)
    (hpost : ∀ next : Cursor, next.Faces tokens last → post true { session with cursor := next }) :
    Leads (matchAny set) session stop post := by
  rw [matchAny, leads_bind, leads_currentKind, h.current_eq, if_pos hset, leads_bind]
  apply leads_nextToken_of_faces h
  intro next hnext
  exact hpost next hnext

theorem leads_optionalSign_of_none (h : session.cursor.Faces (token :: tokens) last)
    (hset : signKinds.contains token.kind = false) {stop : Interruption → Prop}
    {post : Option TokenKind → Session → Prop} :
    Leads optionalSign session stop post ↔ post none session := by
  rw [optionalSign, leads_bind, leads_currentKind, leads_bind, matchAny, leads_bind, leads_currentKind,
    h.current_eq, hset, if_neg Bool.false_ne_true, leads_pure, if_neg Bool.false_ne_true, leads_pure]

/-- The sign before a literal is applied to it. -/
theorem signedConstant?_eq (sign : Option Sign) (literal : Literal) :
    signedConstant? (sign.map Sign.symbol) (some literal.tokenValue) =
      Value.constant? { sign, literal } := by
  rcases sign with _ | _ | _ <;> cases literal <;> rfl

theorem contains_literalKinds (literal : Literal) :
    literalKinds.contains literal.tokenKind = true ∧ signKinds.contains literal.tokenKind = false := by
  cases literal <;> exact ⟨rfl, rfl⟩

/-- A literal is read, and the sign before it is applied, whether there is one or not. -/
theorem leads_signedLiteral (sign : Option Sign) {literal : Literal} {constant : ConstantValue}
    (h : start.Gathers names (token :: rest) last session) (hkind : token.kind = literal.tokenKind)
    (hvalue : token.value = some literal.tokenValue)
    (hconstant : Value.constant? { sign, literal } = some constant) :
    Leads (do
      let token ← current
      let value := signedConstant? (sign.map Sign.symbol) token.value
      ensure value.isSome token .invalidConstant
      let _ ← matchAny literalKinds
      return value) session (fun _ => False) fun answer later =>
        answer = some constant ∧ start.Gathers names rest last later := by
  rw [leads_bind, leads_current, h.faces.current_eq]
  simp only [hvalue, signedConstant?_eq, hconstant, ensure, Option.isSome_some, if_true, leads_bind,
    leads_pure]
  apply leads_matchAny_of_faces h.faces (by rw [hkind]; exact (contains_literalKinds literal).1)
  intro next hnext
  exact ⟨trivial, h.moved hnext⟩

theorem leads_constantValue {value : Value} {constant : ConstantValue}
    (h : start.Gathers names (tokens ++ rest) last session) (hrenders : value.Renders tokens)
    (hconstant : value.constant? = some constant) :
    Leads constantValue session (fun _ => False) fun answer later =>
      answer = some constant ∧ start.Gathers names rest last later := by
  unfold constantValue
  rw [leads_bind]
  cases hrenders with
  | @plain literal token hkind hvalue =>
      rw [leads_optionalSign_of_none h.faces (by rw [hkind]; exact (contains_literalKinds literal).2)]
      exact leads_signedLiteral none h hkind hvalue hconstant
  | @signed sign literal mark token hmark hkind hvalue =>
      have hsign : signKinds.contains mark.kind = true := by
        rw [hmark.kind]
        cases sign <;> decide
      rw [optionalSign, leads_bind, leads_currentKind, leads_bind]
      apply leads_matchAny_of_faces h.faces hsign
      intro next hnext
      rw [if_pos rfl, leads_pure, h.faces.current_eq, hmark.kind]
      exact leads_signedLiteral (some sign) (h.moved hnext) hkind hvalue hconstant

theorem constantType_eq (value : ConstantValue) : constantType value = value.type := by
  cases value <;> rfl

theorem leads_constantDefinition {declared : Option DataType} {definition : String × Value}
    {name : String × Definition × DataType} {following : Token} {others : List Token}
    (h : start.Gathers names (tokens ++ following :: others) last session)
    (hrenders : DefinitionRenders definition tokens)
    (hmeaning : constantMeaning? declared definition = some name)
    (hfree : Text.lower definition.1 ∉
      start.table.localScope.bindings.map Prod.fst ++ names.map Prod.fst) :
    Leads (constantDefinition declared) session (fun _ => False) fun next later =>
      if following.kind = .comma then next = .yield () ∧ start.Gathers (names ++ [name]) others last later
      else next = .done () ∧ start.Gathers (names ++ [name]) (following :: others) last later := by
  cases hrenders with
  | @intro text value token mark tokens hspells hmark hvalue =>
  simp only [constantMeaning?, Option.bind_eq_bind, Option.bind_eq_some_iff,
    Option.ite_none_right_eq_some, Option.some.injEq] at hmeaning
  obtain ⟨constant, hconstant, haccepts, rfl⟩ := hmeaning
  unfold constantDefinition
  rw [leads_bind, leads_current, h.faces.current_eq, if_neg (by simp [hspells.kind]), leads_bind]
  apply leads_nextToken_of_faces h.faces
  intro next hnext
  rw [leads_bind]
  apply leads_expect_of_faces (h.moved hnext).faces hmark.kind
  intro next hnext
  rw [leads_bind, leads_current, leads_bind]
  apply (leads_constantValue (h.moved hnext) hvalue hconstant).imp
  rintro _ read ⟨rfl, hread⟩
  have hlocal : read.table.lookupLocal token.text = none := by
    rw [hspells.text]
    exact hread.free hfree
  have hdeclare : Leads (declareConstant token next.current declared constant) read (fun _ => False)
      fun _ later => start.Gathers
        (names ++ [(Text.lower token.text, .constant constant, declared.getD constant.type)])
        (following :: others) last later := by
    rw [declareConstant, constantType_eq, leads_bind, ensure, haccepts, if_pos rfl, leads_pure]
    exact leads_declare hread _ hlocal rfl rfl
  rw [hspells.text] at hdeclare
  rw [leads_bind]
  apply hdeclare.imp
  intro _ made hmade
  rw [leads_bind]
  apply (leads_comma hmade).imp
  intro found later hfound
  split at hfound
  · next hcomma =>
      obtain ⟨rfl, hlater⟩ := hfound
      simp only [if_true, hcomma, leads_pure]
      exact ⟨trivial, hlater⟩
  · next hcomma =>
      obtain ⟨rfl, rfl⟩ := hfound
      simp only [Bool.false_eq_true, if_false, hcomma, leads_pure]
      exact ⟨trivial, hmade⟩

/-- The definitions of constants, up to the semicolon. -/
theorem leads_constantLoop {declared : Option DataType} {definitions : List (String × Value)}
    {meanings : List (String × Definition × DataType)} {mark : Token}
    (h : start.Gathers [] (tokens ++ mark :: rest) last session)
    (hrenders : Commas DefinitionRenders definitions tokens) (hmark : mark.Is .semicolon)
    (hmeanings : definitions.mapM (constantMeaning? declared) = some meanings)
    (hnodup : (definitions.map fun definition => Text.lower definition.1).Nodup)
    (hfree : ∀ definition ∈ definitions,
      Text.lower definition.1 ∉ start.table.localScope.bindings.map Prod.fst) :
    Leads (loop (fun _ => constantDefinition declared) ()) session (fun _ => False) fun _ later =>
      start.GathersConstants declared definitions (mark :: rest) last later := by
  apply Leads.commas_of_stops
    (fun done tokens later => start.GathersConstants declared done tokens last later)
    (fun _ _ _ ⟨_, _, hgathers⟩ => hgathers.faces) ?_ hrenders hmark ⟨[], rfl, h⟩
  rintro done item items _ following others session hall hitem - ⟨gathered, hdone, hgathers⟩
  obtain ⟨name, hname⟩ := exists_of_mapM_append (hall ▸ hmeanings)
  have hkeys := map_eq_of_mapM (fun _ _ => fst_of_constantMeaning?) hdone
  have hfresh : Text.lower item.1 ∉
      start.table.localScope.bindings.map Prod.fst ++ gathered.map Prod.fst := by
    rw [hkeys]
    exact notMem_append_of_nodup (hall ▸ hnodup) (hfree item (by simp [← hall]))
  apply (leads_constantDefinition hgathers hitem hname hfresh).imp
  intro next later hnext
  have hmore := mapM_concat hdone hname
  split at hnext
  · next hcomma => rw [if_pos hcomma]; exact ⟨hnext.1, _, hmore, hnext.2⟩
  · next hcomma => rw [if_neg hcomma]; exact ⟨hnext.1, _, hmore, hnext.2⟩

theorem leads_constantDefinitions {declared : Option DataType} {definitions : List (String × Value)}
    {meanings : List (String × Definition × DataType)} {mark : Token}
    (h : start.Gathers [] (tokens ++ mark :: rest) last session)
    (hrenders : Commas DefinitionRenders definitions tokens) (hmark : mark.Is .semicolon)
    (hmeanings : definitions.mapM (constantMeaning? declared) = some meanings)
    (hnodup : (definitions.map fun definition => Text.lower definition.1).Nodup)
    (hfree : ∀ definition ∈ definitions,
      Text.lower definition.1 ∉ start.table.localScope.bindings.map Prod.fst) :
    Leads (do
      loop (fun _ => constantDefinition declared) ()
      expect .semicolon .missingSemicolon) session (fun _ => False) fun _ later =>
        start.Gathers meanings rest last later := by
  rw [leads_bind]
  apply (leads_constantLoop h hrenders hmark hmeanings hnodup hfree).imp
  rintro _ later ⟨gathered, hgathered, hlater⟩
  rw [Option.some.inj (hgathered.symm.trans hmeanings)] at hlater
  apply leads_expect_of_faces hlater.faces hmark.kind
  intro next hnext
  exact hlater.moved hnext

theorem leads_startsVariables_of_denotes {type : DataType} {stop : Interruption → Prop}
    {post : Bool → Session → Prop} (hcurrent : session.cursor.current = token)
    (hkind : token.kind ∈ typeKinds) (hvoid : token.kind ≠ .voidWord)
    (hdenotes : session.table.Denotes token type) :
    Leads startsVariables session stop post ↔ post true session := by
  obtain ⟨id, hlookup, hshows⟩ := hdenotes
  have hnamed : (session.table.entry id).kind = .type := by rw [Entry.kind, hshows.definition]; rfl
  rw [startsVariables, leads_bind, leads_current, hcurrent]
  simp only [typeKinds, List.mem_cons, List.not_mem_nil, or_false] at hkind
  rcases hkind with h | h | h | h | h | h
  case inr.inr.inr.inr.inl => exact absurd h hvoid
  case inr.inr.inr.inr.inr =>
    rw [h, if_neg (by decide), if_pos (by decide), leads_bind, leads_typeNamed hlookup hnamed]
    exact Iff.rfl
  all_goals
    rw [h, if_pos (by decide)]
    exact Iff.rfl

theorem leads_startsVariables_of_kind {stop : Interruption → Prop} {post : Bool → Session → Prop}
    (hcurrent : session.cursor.current = token) (hkind : token.kind = .identifier)
    (hnone : ∀ id, session.table.lookup token.text = some id → (session.table.entry id).kind ≠ .type) :
    Leads startsVariables session stop post ↔ post false session := by
  rw [startsVariables, leads_bind, leads_current, hcurrent, hkind, if_neg (by decide),
    if_pos (by decide), leads_bind, typeNamed, leads_bind, leads_table]
  cases hlookup : session.table.lookup token.text with
  | none => exact Iff.rfl
  | some id =>
      have hother := hnone id hlookup
      simp [Option.filter, hother]

theorem leads_constants {definitions : List (String × Value)}
    {meanings : List (String × Definition × DataType)} {mark : Token}
    (h : start.Gathers [] (tokens ++ mark :: rest) last session)
    (hrenders : Commas DefinitionRenders definitions tokens) (hmark : mark.Is .semicolon)
    (hmeanings : definitions.mapM (constantMeaning? none) = some meanings)
    (hnodup : (definitions.map fun definition => Text.lower definition.1).Nodup)
    (hfree : ∀ definition ∈ definitions,
      Text.lower definition.1 ∉ start.table.localScope.bindings.map Prod.fst)
    (hnone : ∀ definition ∈ definitions, ∀ id, session.table.lookup definition.1 = some id →
      (session.table.entry id).kind ≠ .type) :
    Leads constants session (fun _ => False) fun _ later => start.Gathers meanings rest last later := by
  have hfirst : ∃ token others, tokens ++ mark :: rest = token :: others ∧
      ∃ definition ∈ definitions, token.Spells definition.1 := by
    cases hrenders with
    | last hitem | more hitem _ _ =>
        cases hitem with
        | intro hspells _ _ => exact ⟨_, _, rfl, _, List.mem_cons_self .., hspells⟩
  obtain ⟨token, others, htokens, definition, hmem, hspells⟩ := hfirst
  have hcurrent : session.cursor.current = token := by
    have hfaces := h.faces
    rw [htokens] at hfaces
    exact hfaces.current_eq
  have hother : ∀ id, session.table.lookup token.text = some id → (session.table.entry id).kind ≠ .type := by
    rw [hspells.text]
    exact hnone definition hmem
  unfold constants constantsType
  rw [leads_bind, leads_bind, leads_startsVariables_of_kind hcurrent hspells.kind hother]
  exact leads_constantDefinitions h hrenders hmark hmeanings hnodup hfree

theorem leads_constants_of_denotes {definitions : List (String × Value)} {type : DataType}
    {meanings : List (String × Definition × DataType)} {mark : Token}
    (h : start.Gathers [] (token :: (tokens ++ mark :: rest)) last session)
    (hkind : token.kind ∈ typeKinds) (hvoid : token.kind ≠ .voidWord)
    (hdenotes : session.table.Denotes token type)
    (hrenders : Commas DefinitionRenders definitions tokens) (hmark : mark.Is .semicolon)
    (hmeanings : definitions.mapM (constantMeaning? (some type)) = some meanings)
    (hnodup : (definitions.map fun definition => Text.lower definition.1).Nodup)
    (hfree : ∀ definition ∈ definitions,
      Text.lower definition.1 ∉ start.table.localScope.bindings.map Prod.fst) :
    Leads constants session (fun _ => False) fun _ later => start.Gathers meanings rest last later := by
  unfold constants constantsType
  rw [leads_bind, leads_bind, leads_startsVariables_of_denotes h.faces.current_eq hkind hvoid hdenotes,
    if_pos rfl]
  apply (leads_typeSpecifier h hkind hdenotes).imp
  rintro _ typed ⟨rfl, htyped, -⟩
  exact leads_constantDefinitions htyped hrenders hmark hmeanings hnodup hfree

/-! ## Types -/

/-- After the name of a type comes what makes it a type of arrays, if it is one. -/
theorem leads_typeName {type whole : DataType} {name : String} {mark : Token} {others : List Token}
    (h : start.Gathers [] (token :: others) last session) (hspells : token.Spells name)
    (hmark : mark.Is .semicolon)
    (hfree : Text.lower name ∉ start.table.localScope.bindings.map Prod.fst)
    (hsuffix : ∀ session, start.Gathers [] others last session →
      Leads (arraySuffix type) session (fun _ => False) fun answer later =>
        answer = whole ∧ start.Gathers [] (mark :: rest) last later) :
    Leads (do
      typeName type
      expect .semicolon .missingSemicolon) session (fun _ => False) fun _ later =>
        start.Gathers [(Text.lower name, .type, whole)] rest last later := by
  unfold typeName
  rw [leads_bind, leads_bind, leads_current, h.faces.current_eq, hspells.kind, if_pos (by decide),
    leads_bind]
  apply leads_nextToken_of_faces h.faces
  intro next hnext
  rw [leads_bind]
  apply (hsuffix _ (h.moved hnext)).imp
  rintro _ read ⟨rfl, hread⟩
  have hlocal : read.table.lookupLocal token.text = none := by
    rw [hspells.text]
    exact hread.free (by simpa using hfree)
  apply (leads_declare hread _ hlocal rfl rfl).imp
  intro _ made hmade
  apply leads_expect_of_faces hmade.faces hmark.kind
  intro next hnext
  rw [← hspells.text]
  exact hmade.moved hnext

/-- A type that no bracket follows is the whole type. -/
theorem leads_arraySuffix {type : DataType} {mark : Token}
    (h : start.Gathers names (mark :: rest) last session) (hmark : mark.Is .semicolon) :
    Leads (arraySuffix type) session (fun _ => False) fun answer later =>
      answer = type ∧ start.Gathers names (mark :: rest) last later := by
  rw [arraySuffix, leads_bind, leads_matchToken_of_ne (by simp [h.faces.current_eq, hmark.kind])]
  exact ⟨rfl, h⟩

theorem leads_arraySuffix_of_bracket {type : DataType} {element : Scalar} {count : Nat}
    {opening bound closing : Token}
    (h : start.Gathers names (opening :: bound :: closing :: rest) last session)
    (helement : type.scalar? = some element) (hopening : opening.Is .leftBracket)
    (hbound : bound.value = some (.integer count)) (hclosing : closing.Is .rightBracket) :
    Leads (arraySuffix type) session (fun _ => False) fun answer later =>
      answer = .array element count ∧ start.Gathers names rest last later := by
  rw [arraySuffix, leads_bind]
  apply leads_matchToken_of_faces h.faces hopening.kind
  intro next hnext
  rw [if_pos rfl, arrayOf, helement]
  dsimp only
  rw [leads_bind, arrayCount, leads_bind, leads_current, hnext.current_eq, hbound]
  show Leads (do
    let _ ← nextToken
    return count) _ _ _
  rw [leads_bind]
  apply leads_nextToken_of_faces hnext
  intro next hnext
  rw [leads_pure, leads_bind]
  apply leads_expect_of_faces hnext hclosing.kind
  intro next hnext
  exact ⟨rfl, h.moved hnext⟩

theorem leads_requiredType_of_record {kindWord tagToken : Token} {tag : String}
    (h : start.Gathers names (kindWord :: tagToken :: tokens) last session)
    (hkind : kindWord.Is .structWord ∨ kindWord.Is .unionWord) (hspells : tagToken.Spells tag) :
    Leads requiredType session (fun _ => False) fun answer later =>
      answer = .record (Text.lower tag) ∧ start.Gathers names tokens last later := by
  have hrecord : Leads (do
      let name ← nextToken
      if name.kind == .identifier then
        let _ ← nextToken
        return some (DataType.record (Text.lower name.text))
      else
        flag .missingIdentifier
        return some .undefined) session (fun _ => False) fun answer later =>
        answer = some (.record (Text.lower tag)) ∧ start.Gathers names tokens last later := by
    rw [leads_bind]
    apply leads_nextToken_of_faces h.faces
    intro next hnext
    rw [hnext.current_eq, hspells.kind, if_pos (by decide), leads_bind]
    apply leads_nextToken_of_faces hnext
    intro next hnext
    exact ⟨by rw [hspells.text], h.moved hnext⟩
  have hspecifier : Leads typeSpecifier session (fun _ => False) fun answer later =>
      answer = some (.record (Text.lower tag)) ∧ start.Gathers names tokens last later := by
    unfold typeSpecifier
    rw [leads_bind, leads_currentKind, h.faces.current_eq]
    rcases hkind with hkind | hkind <;> rw [hkind.kind] <;> exact hrecord
  apply hspecifier.bind
  rintro _ later ⟨rfl, hlater⟩
  exact ⟨rfl, hlater⟩

/-- What is declared by the tokens after the word `typedef`. -/
theorem leads_typeDefinition {body : TypeBody} {name : String} {known : Meanings} {type : DataType}
    {word : Token} (h : start.Gathers [] (tokens ++ rest) last session)
    (hrenders : Declaration.Renders (.typeDefinition body name) (word :: tokens))
    (htype : body.denotes? known = some type)
    (hdenotes : ∀ {word : TypeName} {token : Token} {type : DataType}, word.Renders token →
      word.denotes? known = some type → session.table.Denotes token type)
    (hfree : Text.lower name ∉ start.table.localScope.bindings.map Prod.fst) :
    Leads typeDefinition session (fun _ => False) fun _ later =>
      start.Gathers [(Text.lower name, .type, type)] rest last later := by
  unfold typeDefinition
  rw [leads_bind]
  cases hrenders with
  | plainType _ hword hspells hmark =>
      apply (leads_requiredType h (kind_of_renders hword) (hdenotes hword htype)).imp
      rintro _ typed ⟨rfl, htyped⟩
      exact leads_typeName htyped hspells hmark hfree fun _ hread => leads_arraySuffix hread hmark
  | arrayType _ hword hspells hopening hbound _ hclosing hmark =>
      simp only [TypeBody.denotes?, Option.bind_eq_bind, Option.bind_eq_some_iff, Option.pure_def,
        Option.some.injEq] at htype
      obtain ⟨type, helement, scalar, hscalar, rfl⟩ := htype
      apply (leads_requiredType h (kind_of_renders hword) (hdenotes hword helement)).imp
      rintro _ typed ⟨rfl, htyped⟩
      exact leads_typeName htyped hspells hmark hfree fun _ hread =>
        leads_arraySuffix_of_bracket hread hscalar hopening hbound hclosing
  | recordType _ hkind htag hspells hmark =>
      obtain rfl := Option.some.inj htype
      apply (leads_requiredType_of_record h hkind htag).imp
      rintro _ typed ⟨rfl, htyped⟩
      exact leads_typeName htyped hspells hmark hfree fun _ hread => leads_arraySuffix hread hmark

/-! ## Parameters -/

/-- A parameter begins with a word for a number. -/
theorem contains_parameterStart {kind : TokenKind} (h : kind ∈ numericWords) :
    parameterStart.contains kind = true := by
  revert kind
  decide

theorem contains_insideParameters {kind : TokenKind} (h : kind ∈ numericWords) :
    insideParameters.contains kind = true := by
  revert kind
  decide

theorem numericWords_subset : numericWords ⊆ typeKinds := by decide

theorem kind_of_words {scalar : Scalar} (h : token.Words scalar) (hscalar : scalar ∈ numbers) :
    token.kind ∈ numericWords := by
  have hkind := h.kind
  simp only [List.mem_cons, Prod.mk.injEq, List.not_mem_nil, or_false] at hkind
  rcases hkind with ⟨h, -⟩ | ⟨h, -⟩ | ⟨h, -⟩ | ⟨-, rfl⟩ | ⟨-, rfl⟩
  case inr.inr.inr.inl | inr.inr.inr.inr => exact absurd hscalar (by decide)
  all_goals
    rw [h]
    decide

/-- A name that is free is read as a parameter after a word for its type, and its entry is the last of the
scope. -/
theorem leads_typedParameter {name : String} {type : DataType} {word : Token} {others : List Token}
    (h : start.Gathers names (word :: token :: others) last session) (hword : word.kind ∈ typeKinds)
    (hdenotes : session.table.Denotes word type) (hspells : token.Spells name)
    (hfree : Text.lower name ∉ start.table.localScope.bindings.map Prod.fst ++ names.map Prod.fst) :
    Leads typedParameter session (fun _ => False) fun answer later =>
      start.Gathers (names ++ [(Text.lower name, .valueParameter (start.table.localScope.nextSlot +
        names.countP fun name => name.2.1.slot?.isSome), type)]) others last later ∧
      later.table.localScope.entries = session.table.localScope.entries ++ answer.toList := by
  unfold typedParameter
  rw [leads_bind]
  apply (leads_typeSpecifier h hword hdenotes).imp
  rintro _ read ⟨rfl, hread, hscope⟩
  have hlocal : read.table.lookupLocal token.text = none := by
    rw [hspells.text]
    exact hread.free hfree
  rw [leads_bind, leads_current, hread.faces.current_eq, hspells.kind, if_pos (by decide), leads_bind]
  apply (leads_declareStorage hread _ hlocal (Or.inr rfl)).imp
  rintro _ made ⟨hmade, hentries⟩
  rw [leads_bind]
  apply leads_nextToken_of_faces hmade.faces
  intro next hnext
  rw [← hscope, ← hspells.text]
  exact ⟨hmade.moved hnext, hentries⟩

/-- A parameter as it is written is read where one is expected. -/
theorem leads_parameterEntry {item : Parameter} {typed : String × DataType} {others : List Token}
    (h : start.Gathers names (tokens ++ others) last session) (hrenders : item.Renders tokens)
    (htyped : item.typed? = some typed)
    (hdenotes : ∀ word : Token, word.Words item.type → session.table.Denotes word (.scalar item.type))
    (hfree : Text.lower item.name ∉ start.table.localScope.bindings.map Prod.fst ++ names.map Prod.fst) :
    Leads parameterEntry session (fun _ => False) fun answer later =>
      start.Gathers (names ++ [(typed.1, .valueParameter (start.table.localScope.nextSlot +
        names.countP fun name => name.2.1.slot?.isSome), typed.2)]) others last later ∧
      later.table.localScope.entries = session.table.localScope.entries ++ answer.toList := by
  cases hrenders with
  | @intro word token hword hspells =>
  simp only [Parameter.typed?, Option.ite_none_right_eq_some, Option.some.injEq] at htyped
  obtain ⟨hnumeric, rfl⟩ := htyped
  have hkind := kind_of_words hword hnumeric
  have hparameter := leads_typedParameter h (numericWords_subset hkind) (hdenotes word hword) hspells hfree
  unfold parameterEntry
  rw [leads_bind, leads_currentKind, h.faces.current_eq]
  simp only [numericWords, List.mem_cons, List.not_mem_nil, or_false] at hkind
  rcases hkind with h | h | h <;> rw [h] <;> exact hparameter

/-- A comma after a parameter is consumed, and the closing parenthesis is left. -/
theorem leads_parameterEnd {following : Token} {others : List Token}
    (h : start.Gathers names (following :: others) last session)
    (hfollowing : following.kind = .comma ∨ following.kind = .rightParen) :
    Leads parameterEnd session (fun _ => False) fun _ later =>
      start.Gathers names (if following.kind = .comma then others else following :: others) last later ∧
        later.table = session.table := by
  have hset : afterParameter.contains session.cursor.current.kind = true := by
    rw [h.faces.current_eq]
    rcases hfollowing with hkind | hkind <;> rw [hkind] <;> decide
  rw [parameterEnd, leads_bind, leads_synchronize_of_contains hset, h.faces.current_eq]
  rcases hfollowing with hkind | hkind
  · rw [hkind, if_pos (by decide), if_pos rfl, leads_bind]
    apply leads_nextToken_of_faces h.faces
    intro next hnext
    exact ⟨h.moved hnext, rfl⟩
  · rw [hkind, if_neg (by decide), if_neg (by decide)]
    exact ⟨h, rfl⟩

theorem leads_parameter_of_closing {parameters : List EntryId} {stop : Interruption → Prop}
    {post : ForInStep (List EntryId) → Session → Prop}
    (hcurrent : session.cursor.current.kind = .rightParen) :
    Leads (parameter parameters) session stop post ↔ post (.done parameters) session := by
  rw [parameter, leads_bind, leads_currentKind, hcurrent, if_neg (by decide)]
  exact Iff.rfl

/-- The type of a parameter is one of the words for numbers. -/
theorem mem_numbers_of_typed? {item : Parameter} {typed : String × DataType} (h : item.typed? = some typed) :
    item.type ∈ numbers := by
  simp only [Parameter.typed?, Option.ite_none_right_eq_some] at h
  exact h.1

/-- A parameter is read, and the comma after it; the closing parenthesis is left. -/
theorem leads_parameter {item : Parameter} {name : String × DataType} {gathered : List (String × DataType)}
    {parameters : List EntryId} {following : Token} {others : List Token}
    (h : start.GathersParameters gathered parameters (tokens ++ following :: others) last session)
    (hrenders : item.Renders tokens) (htyped : item.typed? = some name)
    (hfollowing : following.kind = .comma ∨ following.kind = .rightParen)
    (hdenotes : ∀ word : Token, word.Words item.type → session.table.Denotes word (.scalar item.type))
    (hfree : Text.lower item.name ∉ start.table.localScope.bindings.map Prod.fst ++ gathered.map Prod.fst) :
    Leads (parameter parameters) session (fun _ => False) fun next later =>
      ∃ parameters, next = .yield parameters ∧ start.GathersParameters (gathered ++ [name]) parameters
        (if following.kind = .comma then others else following :: others) last later := by
  have hstart : parameterStart.contains session.cursor.current.kind = true := by
    cases hrenders with
    | @intro word token hword hspells =>
        rw [h.gathers.faces.current_eq]
        exact contains_parameterStart (kind_of_words hword (mem_numbers_of_typed? htyped))
  rw [← map_fst_stored .valueParameter start.table.localScope.nextSlot] at hfree
  unfold parameter
  rw [leads_bind, leads_currentKind, if_pos hstart, leads_bind]
  apply (leads_parameterEntry h.gathers hrenders htyped hdenotes hfree).imp
  rintro entry declared ⟨hdeclared, hentries⟩
  rw [leads_bind]
  apply (leads_parameterEnd hdeclared hfollowing).imp
  rintro _ later ⟨hlater, hsame⟩
  rw [countP_stored] at hlater
  refine ⟨_, rfl, by rw [hsame, hentries, h.entries], ?_⟩
  rw [stored_concat]
  exact hlater

/-- After some of the parameters that are written the next one is read. -/
theorem leads_nextParameter {items done more : List Parameter} {item : Parameter}
    {typed gathered : List (String × DataType)} {parameters : List EntryId} {following : Token}
    {others : List Token} (hall : done ++ item :: more = items)
    (htyped : items.mapM Parameter.typed? = some typed) (hdone : done.mapM Parameter.typed? = some gathered)
    (h : start.GathersParameters gathered parameters (tokens ++ following :: others) last session)
    (hitem : item.Renders tokens) (hfollowing : following.kind = .comma ∨ following.kind = .rightParen)
    (hempty : start.table.localScope.bindings = [])
    (hapart : Apart (items.map fun item => Text.lower item.name))
    (hdenotes : ∀ (word : Token) (scalar : Scalar), word.Words scalar → scalar ∈ numbers →
      start.table.Denotes word (.scalar scalar)) :
    Leads (parameter parameters) session (fun _ => False) fun next later =>
      ∃ name parameters, (done ++ [item]).mapM Parameter.typed? = some (gathered ++ [name]) ∧
        next = .yield parameters ∧ start.GathersParameters (gathered ++ [name]) parameters
          (if following.kind = .comma then others else following :: others) last later := by
  obtain ⟨name, hname⟩ := exists_of_mapM_append (hall ▸ htyped)
  have hkeys := map_eq_of_mapM (fun _ _ => fst_of_typed?) hdone
  have hfree : Text.lower item.name ∉
      start.table.localScope.bindings.map Prod.fst ++ gathered.map Prod.fst := by
    rw [hkeys, hempty]
    exact notMem_append_of_nodup (hall ▸ hapart.1) List.not_mem_nil
  have hwords : ∀ word ∈ gathered.map Prod.fst, word ∉ typeWords := by
    rw [hkeys]
    intro word hmem
    exact hapart.2 word (List.map_subset _ (hall ▸ List.subset_append_left _ _) hmem)
  have hnumeric := mem_numbers_of_typed? hname
  have hdenotes (word : Token) (hword : word.Words item.type) :=
    h.denotes hword hnumeric hwords (hdenotes word item.type hword hnumeric)
  apply (leads_parameter h hitem hname hfollowing hdenotes hfree).imp
  rintro next later ⟨parameters, hnext, hlater⟩
  exact ⟨name, parameters, mapM_concat hdone hname, hnext, hlater⟩

/-- Parameters with commas between them are read up to the closing parenthesis. -/
theorem leads_parameters {items : List Parameter} {typed : List (String × DataType)} {closing : Token}
    (h : start.Gathers [] (tokens ++ closing :: rest) last session)
    (hrenders : Commas Parameter.Renders items tokens) (hclosing : closing.Is .rightParen)
    (htyped : items.mapM Parameter.typed? = some typed)
    (hempty : start.table.localScope.bindings = [])
    (hapart : Apart (items.map fun item => Text.lower item.name))
    (hdenotes : ∀ (word : Token) (scalar : Scalar), word.Words scalar → scalar ∈ numbers →
      start.table.Denotes word (.scalar scalar)) :
    Leads (loop parameter []) session (fun _ => False) fun answer later =>
      start.GathersParameters typed answer (closing :: rest) last later := by
  have hfaces (done : List Parameter) (parameters : List EntryId) (tokens : List Token) (session : Session) :
      (∃ gathered, done.mapM Parameter.typed? = some gathered ∧
        start.GathersParameters gathered parameters tokens last session) → session.cursor.Faces tokens last := by
    rintro ⟨gathered, -, hgathers⟩
    exact hgathers.gathers.faces
  apply Leads.commas _ hfaces ?_ ?_ hrenders ⟨[], rfl, .of_gathers h hempty⟩
  · rintro done item items parameters tokens comma others session hall hitem hcomma ⟨gathered, hdone, hgathers⟩
    apply (leads_nextParameter hall htyped hdone hgathers hitem (Or.inl hcomma.kind) hempty hapart
      hdenotes).imp
    rintro _ later ⟨name, parameters, hmore, rfl, hlater⟩
    rw [if_pos hcomma.kind] at hlater
    exact ⟨parameters, rfl, _, hmore, hlater⟩
  · rintro done item parameters tokens session hall hitem ⟨gathered, hdone, hgathers⟩
    have hahead := hgathers.gathers.faces.ahead_eq
    apply (leads_nextParameter hall htyped hdone hgathers hitem (Or.inr hclosing.kind) hempty hapart
      hdenotes).imp
    rintro _ later ⟨name, parameters, hmore, rfl, hlater⟩
    rw [if_neg (by simp [hclosing.kind])] at hlater
    rw [hall] at hmore
    obtain rfl := Option.some.inj (hmore.symm.trans htyped)
    have hlaterAhead := hlater.gathers.faces.ahead_eq
    have hlength : 0 < tokens.length := by
      cases hitem
      exact Nat.zero_lt_succ _
    have hcurrent : later.cursor.current.kind = .rightParen := by
      rw [hlater.gathers.faces.current_eq]
      exact hclosing.kind
    rw [List.length_append] at hahead
    refine ⟨by omega, ?_⟩
    rw [leads_parameter_of_closing hcurrent]
    exact ⟨parameters, rfl, hlater⟩

theorem leads_loneVoid_of_ne {stop : Interruption → Prop} {post : Unit → Session → Prop}
    (hkind : session.cursor.current.kind ≠ .voidWord) :
    Leads loneVoid session stop post ↔ post () session := by
  rw [loneVoid, leads_bind, leads_check, beq_eq_false_iff_ne.mpr hkind, if_neg Bool.false_ne_true]
  exact Iff.rfl

/-- The word `void` is consumed if it stands for no parameters. -/
theorem leads_loneVoid_of_closing {word closing : Token}
    (h : start.Gathers names (word :: closing :: rest) last session) (hword : word.Is .voidWord)
    (hclosing : closing.Is .rightParen) :
    Leads loneVoid session (fun _ => False) fun _ later =>
      start.Gathers names (closing :: rest) last later := by
  rw [loneVoid, leads_bind, leads_check, h.faces.current_eq, hword.kind, if_pos (by decide), leads_bind]
  apply leads_peekKind_of_faces h.faces
  intro looked hlooked
  rw [hclosing.kind, if_pos (by decide), leads_bind]
  apply leads_nextToken_of_faces hlooked
  intro next hnext
  exact h.moved hnext

/-- Where no parameters are written, none are read. -/
theorem leads_noParameters {closing : Token} (h : start.Gathers [] (closing :: rest) last session)
    (hclosing : closing.Is .rightParen) (hempty : start.table.localScope.bindings = []) :
    Leads (loop parameter []) session (fun _ => False) fun answer later =>
      start.GathersParameters [] answer (closing :: rest) last later := by
  have hcurrent : session.cursor.current.kind = .rightParen := by
    rw [h.faces.current_eq]
    exact hclosing.kind
  rw [Production.loop, leads_bind, leads_budget, leads_loopWithin_succ, leads_parameter_of_closing hcurrent]
  exact .of_gathers h hempty

/-- What is read once a lone `void` has been dealt with: the parameters, and the closing parenthesis. -/
theorem leads_listedParameters {typed : List (String × DataType)} {closing : Token}
    (hclosing : closing.Is .rightParen)
    (hinside : insideParameters.contains session.cursor.current.kind = true)
    (hloop : Leads (loop parameter []) session (fun _ => False) fun answer later =>
      start.GathersParameters typed answer (closing :: rest) last later) :
    Leads (do
      let _ ← synchronize insideParameters
      let parameters ← loop parameter []
      expect .rightParen .missingRightParen
      return parameters) session (fun _ => False) fun answer later =>
        start.GathersParameters typed answer rest last later := by
  rw [leads_bind, leads_synchronize_of_contains hinside, leads_bind]
  apply hloop.imp
  intro parameters read hread
  rw [leads_bind]
  apply leads_expect_of_faces hread.gathers.faces hclosing.kind
  intro next hnext
  exact ⟨hread.entries, hread.gathers.moved hnext⟩

/-- Parameters that are written begin with a word for a number. -/
theorem kind_of_commas {items : List Parameter} {typed : List (String × DataType)} {others : List Token}
    (hrenders : Commas Parameter.Renders items tokens) (htyped : items.mapM Parameter.typed? = some typed)
    (hfaces : session.cursor.Faces (tokens ++ others) last) :
    session.cursor.current.kind ∈ numericWords := by
  cases hrenders with
  | @last item _ hitem | @more item _ _ _ _ hitem _ _ =>
      obtain ⟨name, hname⟩ : ∃ name, item.typed? = some name :=
        exists_of_mapM_append (show ([] ++ item :: _).mapM Parameter.typed? = some typed from htyped)
      cases hitem with
      | intro hword _ =>
          rw [hfaces.current_eq]
          exact kind_of_words hword (mem_numbers_of_typed? hname)

/-- The parameters are read with their parentheses. -/
theorem leads_enclosedParameters {items : List Parameter} {typed : List (String × DataType)}
    {opening closing : Token} (h : start.Gathers [] (opening :: (tokens ++ closing :: rest)) last session)
    (hopening : opening.Is .leftParen) (hrenders : ParametersRender items tokens)
    (hclosing : closing.Is .rightParen) (htyped : items.mapM Parameter.typed? = some typed)
    (hempty : start.table.localScope.bindings = [])
    (hapart : Apart (items.map fun item => Text.lower item.name))
    (hdenotes : ∀ (word : Token) (scalar : Scalar), word.Words scalar → scalar ∈ numbers →
      start.table.Denotes word (.scalar scalar)) :
    Leads enclosedParameters session (fun _ => False) fun answer later =>
      start.GathersParameters typed answer rest last later := by
  have hset : beforeParameters.contains session.cursor.current.kind = true := by
    rw [h.faces.current_eq, hopening.kind]
    decide
  have hclosed {session : Session} (h : start.Gathers [] (closing :: rest) last session) :
      insideParameters.contains session.cursor.current.kind = true := by
    rw [h.faces.current_eq, hclosing.kind]
    decide
  unfold enclosedParameters
  rw [leads_bind, leads_synchronize_of_contains hset, h.faces.current_eq, hopening.kind,
    if_pos (by decide), leads_bind]
  apply leads_nextToken_of_faces h.faces
  intro next hnext
  have hread := h.moved hnext
  unfold parameterList
  rw [leads_bind]
  cases hrenders with
  | none =>
      obtain rfl : [] = typed := by simpa using htyped
      rw [leads_loneVoid_of_ne (by simp [hnext.current_eq, hclosing.kind])]
      exact leads_listedParameters hclosing (hclosed hread) (leads_noParameters hread hclosing hempty)
  | void hword =>
      obtain rfl : [] = typed := by simpa using htyped
      apply (leads_loneVoid_of_closing hread hword hclosing).imp
      intro _ later hlater
      exact leads_listedParameters hclosing (hclosed hlater) (leads_noParameters hlater hclosing hempty)
  | some hitems =>
      have hkind := kind_of_commas hitems htyped hread.faces
      have hvoid : next.current.kind ≠ .voidWord := by
        intro hsame
        rw [hsame] at hkind
        exact absurd hkind (by decide)
      rw [leads_loneVoid_of_ne hvoid]
      exact leads_listedParameters hclosing (contains_insideParameters hkind)
        (leads_parameters hread hitems hclosing htyped hempty hapart hdenotes)

end Production

end FrontEnd
