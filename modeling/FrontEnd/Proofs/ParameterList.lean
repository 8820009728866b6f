import FrontEnd.Proofs.Gathering
import FrontEnd.Proofs.Passage

/-!
# What is accepted as a list of parameters

The parameters of a routine are read without an error just if their tokens are a list of parameters in
parentheses, and their names and the words for their types are usable where they stand
(`formalParameters_silent_iff`).

## Strategy

That a run without an error has met such tokens is read off the productions one by one; a turn of the loop
puts one parameter before those that the turns after it have found (`Cleanly.loop`).
-/

namespace FrontEnd

/-! ## Lists of parameters -/

/-- A parameter as it is written: the word for its type and its name. -/
structure Formal where
  word : Token
  name : Token

namespace Formal

/-- Whether the tokens are of the kinds that a parameter is written with. -/
structure IsWritten (formal : Formal) : Prop where
  word : formal.word.kind ∈ Production.numericWords
  name : formal.name.kind = .identifier

/-- Parameters with commas between them. -/
inductive Separated : List Formal → List Token → Prop
  | last {formal : Formal} : formal.IsWritten → Separated [formal] [formal.word, formal.name]
  | more {formal : Formal} {comma : Token} {formals : List Formal} {tokens : List Token} :
      formal.IsWritten → comma.kind = .comma → Separated formals tokens →
      Separated (formal :: formals) (formal.word :: formal.name :: comma :: tokens)

/-- What the grammar has between the parentheses. -/
inductive Sentence : List Formal → List Token → Prop
  | none : Sentence [] []
  | void {word : Token} : word.kind = .voidWord → Sentence [] [word]
  | some {formals : List Formal} {tokens : List Token} : Separated formals tokens → Sentence formals tokens

/-- What is accepted between the parentheses: what the grammar has there, and parameters with a comma after
the last. -/
inductive Accepted : List Formal → List Token → Prop
  | sentence {formals : List Formal} {tokens : List Token} : Sentence formals tokens → Accepted formals tokens
  | trailing {formals : List Formal} {tokens : List Token} {comma : Token} : Separated formals tokens →
      comma.kind = .comma → Accepted formals (tokens ++ [comma])

/-- Parameters as they are read one by one, each with the comma after it, if there is one. -/
inductive Listed : List Formal → List Token → Prop
  | none : Listed [] []
  | last {formal : Formal} : formal.IsWritten → Listed [formal] [formal.word, formal.name]
  | more {formal : Formal} {comma : Token} {formals : List Formal} {tokens : List Token} :
      formal.IsWritten → comma.kind = .comma → Listed formals tokens →
      Listed (formal :: formals) (formal.word :: formal.name :: comma :: tokens)

variable {formals : List Formal} {tokens : List Token}

theorem Listed.accepted (h : Listed formals tokens) : Accepted formals tokens := by
  induction h with
  | none => exact .sentence .none
  | last hwritten => exact .sentence (.some (.last hwritten))
  | @more formal comma formals tokens hwritten hcomma hlisted ih =>
      cases ih with
      | trailing hseparated hlast => exact .trailing (.more hwritten hcomma hseparated) hlast
      | sentence hsentence =>
          cases hsentence with
          | none => exact .trailing (.last hwritten) hcomma
          | some hseparated => exact .sentence (.some (.more hwritten hcomma hseparated))
          | void hvoid =>
              cases hlisted

theorem Separated.listed (h : Separated formals tokens) : Listed formals tokens := by
  induction h with
  | last hwritten => exact .last hwritten
  | more hwritten hcomma _ ih => exact .more hwritten hcomma ih

theorem Separated.listed_trailing (h : Separated formals tokens) {comma : Token} (hcomma : comma.kind = .comma) :
    Listed formals (tokens ++ [comma]) := by
  induction h with
  | last hwritten => exact .more hwritten hcomma .none
  | more hwritten hbetween _ ih => exact .more hwritten hbetween ih

theorem Accepted.listed_or_void (h : Accepted formals tokens) :
    Listed formals tokens ∨ formals = [] ∧ ∃ word : Token, word.kind = .voidWord ∧ tokens = [word] := by
  cases h with
  | trailing hseparated hcomma => exact Or.inl (hseparated.listed_trailing hcomma)
  | sentence hsentence =>
      cases hsentence with
      | none => exact Or.inl .none
      | void hvoid => exact Or.inr ⟨rfl, _, hvoid, rfl⟩
      | some hseparated => exact Or.inl hseparated.listed

end Formal

/-! ## Parameters in a table -/

namespace SymbolTable

/-- Whether parameters can be declared one after the other: each word stands for a type and each name is free,
at the start and after the names before it. -/
structure Admits (table : SymbolTable) (formals : List Formal) : Prop where
  types : ∀ formal ∈ formals, ∃ id, table.lookup formal.word.text = some id ∧ (table.entry id).kind = .type
  free : ∀ formal ∈ formals, table.lookupLocal formal.name.text = none
  apart : formals.Pairwise fun earlier later =>
    Text.lower earlier.name.text ≠ Text.lower later.name.text ∧
      Text.lower earlier.name.text ≠ Text.lower later.word.text

/-- Whether an entry is that of a parameter, which is bound in the innermost scope; the word for its type is
looked up in an earlier table. -/
structure BindsFormal (table later : SymbolTable) (id : EntryId) (formal : Formal) : Prop where
  bound : later.lookupLocal formal.name.text = some id
  kind : (later.entry id).kind = .valueParameter
  type : ∃ typeId, table.lookup formal.word.text = some typeId ∧ (table.entry typeId).kind = .type ∧
    (later.entry id).type = some (table.entry typeId).resolvedType

variable {table between later : SymbolTable} {id : EntryId} {formal : Formal} {formals : List Formal}

/-- What the innermost scope binds a name to, the name means. -/
theorem lookup_of_lookupLocal {name : String} (h : table.lookupLocal name = some id) :
    table.lookup name = some id := by
  unfold lookup
  unfold lookupLocal localScope localScopeId at h
  cases hopen : table.openScopes with
  | nil => simpa [hopen] using h
  | cons scope outer =>
      rw [hopen, List.headD_cons] at h
      rw [List.cons_append, List.findSome?_cons, h]

namespace BindsFormal

/-- What a parameter binds is kept while the table grows. -/
theorem grown (h : table.BindsFormal between id formal) (hvalid : between.Valid) (hsteady : between.Steady later)
    (hgrows : between.Grows later) : table.BindsFormal later id formal := by
  have hagrees := hgrows.agrees id (hvalid.bound_lt id (bound_of_lookupLocal h.bound))
  obtain ⟨typeId, hlookup, hkind, htype⟩ := h.type
  refine ⟨?_, hagrees.kind.trans h.kind, typeId, hlookup, hkind, hagrees.type.trans htype⟩
  rw [lookupLocal, localScope, hsteady.localScopeId]
  exact get?_of_prefix (hsteady.bindings _) h.bound

/-- What a parameter binds is kept when what is known about a routine changes. -/
theorem modifyRoutine (h : table.BindsFormal later id formal)
    (routine : EntryId) (change : Routine → Routine) :
    table.BindsFormal (later.modifyRoutine routine change) id formal := by
  have hentry : ((later.modifyRoutine routine change).entry id).kind = (later.entry id).kind ∧
      ((later.modifyRoutine routine change).entry id).type = (later.entry id).type := by
    rw [SymbolTable.modifyRoutine, entry_modifyEntry]
    split
    · next hsame =>
        rw [← hsame.1]
        exact ⟨Entry.kind_mapRoutine _ _, rfl⟩
    · exact ⟨rfl, rfl⟩
  obtain ⟨typeId, hlookup, hkind, htype⟩ := h.type
  exact ⟨h.bound, hentry.1.trans h.kind, typeId, hlookup, hkind, hentry.2.trans htype⟩

end BindsFormal

/-- Whether a table has come from another by the declaration of a parameter, and nothing else has changed but
lines. -/
structure Takes (table : SymbolTable) (formal : Formal) (id : EntryId) (later : SymbolTable) : Prop where
  type : ∃ typeId slot, table.lookup formal.word.text = some typeId ∧ (table.entry typeId).kind = .type ∧
    table.Gathers [(Text.lower formal.name.text, .valueParameter slot, (table.entry typeId).resolvedType)] later
  free : table.lookupLocal formal.name.text = none
  entries : later.localScope.entries = table.localScope.entries ++ [id]

namespace Takes

theorem valid (h : table.Takes formal id later) : later.Valid := by
  obtain ⟨_, _, -, -, hgathers⟩ := h.type
  exact hgathers.valid

theorem binds (h : table.Takes formal id later) : table.BindsFormal later id formal := by
  obtain ⟨typeId, slot, hlookup, hkind, hgathers⟩ := h.type
  obtain ⟨added, hbindings, hadded⟩ := hgathers.here
  obtain ⟨binding, rfl, hkey, hshows⟩ : ∃ binding, added = [binding] ∧
      binding.1 = Text.lower formal.name.text ∧ later.Shows binding.2 _ := by
    cases hadded with
    | cons hhead hrest =>
        cases hrest
        exact ⟨_, rfl, hhead⟩
  obtain rfl : binding.2 = id := by
    have hentries := h.entries
    rw [Scope.entries_eq, Scope.entries_eq, hbindings, List.map_append] at hentries
    simpa using hentries
  refine ⟨?_, by rw [Entry.kind, hshows.definition]; rfl, typeId, hlookup, hkind, hshows.type⟩
  have hfree : table.localScope.bindings.lookup (Text.lower formal.name.text) = none := h.free
  rw [lookupLocal, Scope.get?, hbindings, List.lookup_append, hfree, Option.none_or, ← hkey]
  exact List.lookup_cons_self

/-- A name that is free after a parameter is not that of the parameter, and was free before. -/
theorem lookupLocal_eq_none_iff (h : table.Takes formal id later) (name : String) :
    later.lookupLocal name = none ↔
      Text.lower formal.name.text ≠ Text.lower name ∧ table.lookupLocal name = none := by
  obtain ⟨_, _, -, -, hgathers⟩ := h.type
  obtain ⟨added, hbindings, hadded⟩ := hgathers.here
  constructor
  · intro hnone
    refine ⟨fun hsame => ?_, ?_⟩
    · have hbound := h.binds.bound
      rw [lookupLocal, hsame, ← lookupLocal, hnone] at hbound
      cases hbound
    · rw [lookupLocal, Scope.get?, hbindings, List.lookup_append, Option.or_eq_none_iff] at hnone
      exact hnone.1
  · rintro ⟨hne, hnone⟩
    have hrest : added.lookup (Text.lower name) = none := by
      cases hadded with
      | cons hhead hrest =>
          cases hrest
          have hkey : Text.lower name ≠ _ := fun hsame => hne (hhead.1.symm.trans hsame.symm)
          simpa using hkey
    have hfree : table.localScope.bindings.lookup (Text.lower name) = none := hnone
    rw [lookupLocal, Scope.get?, hbindings, List.lookup_append, hfree, hrest]
    rfl

/-- A name that stands for a type after a parameter is not that of the parameter, and stood for the type
before. -/
theorem type_iff (h : table.Takes formal id later) (hvalid : table.Valid) (name : String) (typeId : EntryId) :
    later.lookup name = some typeId ∧ (later.entry typeId).kind = .type ↔
      Text.lower formal.name.text ≠ Text.lower name ∧ table.lookup name = some typeId ∧
        (table.entry typeId).kind = .type := by
  obtain ⟨_, _, -, -, hgathers⟩ := h.type
  have hlookup (hne : Text.lower formal.name.text ≠ Text.lower name) : later.lookup name = table.lookup name :=
    hgathers.lookup_eq (by simpa using Ne.symm hne)
  have hkind (hfound : table.lookup name = some typeId) :
      (later.entry typeId).kind = (table.entry typeId).kind :=
    (hgathers.grows.agrees typeId (hvalid.bound_lt typeId (visible_of_lookup hfound).bound)).kind
  constructor
  · rintro ⟨hfound, htype⟩
    have hne : Text.lower formal.name.text ≠ Text.lower name := by
      intro hsame
      have hbound := h.binds.bound
      rw [lookupLocal, hsame, ← lookupLocal] at hbound
      obtain rfl := Option.some.inj ((lookup_of_lookupLocal hbound).symm.trans hfound)
      rw [h.binds.kind] at htype
      cases htype
    rw [hlookup hne] at hfound
    exact ⟨hne, hfound, by rwa [hkind hfound] at htype⟩
  · rintro ⟨hne, hfound, htype⟩
    exact ⟨(hlookup hne).trans hfound, (hkind hfound).trans htype⟩

/-- The parameters after the first can be declared after it. -/
theorem admits_cons_iff (h : table.Takes formal id later) (hvalid : table.Valid) :
    table.Admits (formal :: formals) ↔ later.Admits formals := by
  constructor
  · intro hadmits
    obtain ⟨hfirst, hrest⟩ := List.pairwise_cons.mp hadmits.apart
    refine ⟨fun other hmem => ?_, fun other hmem => ?_, hrest⟩
    · obtain ⟨typeId, hfound⟩ := hadmits.types other (List.mem_cons_of_mem _ hmem)
      exact ⟨typeId, (h.type_iff hvalid _ _).mpr ⟨(hfirst other hmem).2, hfound⟩⟩
    · exact (h.lookupLocal_eq_none_iff _).mpr
        ⟨(hfirst other hmem).1, hadmits.free other (List.mem_cons_of_mem _ hmem)⟩
  · intro hadmits
    have hfree (other : Formal) (hmem : other ∈ formals) :=
      (h.lookupLocal_eq_none_iff _).mp (hadmits.free other hmem)
    refine ⟨fun other hmem => ?_, fun other hmem => ?_, List.pairwise_cons.mpr ⟨fun other hmem => ?_, hadmits.apart⟩⟩
    · rcases List.mem_cons.mp hmem with rfl | hmem
      · obtain ⟨typeId, _, hlookup, hkind, -⟩ := h.type
        exact ⟨typeId, hlookup, hkind⟩
      · obtain ⟨typeId, hfound⟩ := hadmits.types other hmem
        exact ⟨typeId, ((h.type_iff hvalid _ _).mp hfound).2⟩
    · rcases List.mem_cons.mp hmem with rfl | hmem
      · exact h.free
      · exact (hfree other hmem).2
    · obtain ⟨typeId, hfound⟩ := hadmits.types other hmem
      exact ⟨(hfree other hmem).1, ((h.type_iff hvalid _ _).mp hfound).1⟩

end Takes

end SymbolTable

/-- Whether all tokens say why they are none just if they are none, and the current one is a token. -/
structure Session.Plain (session : Session) : Prop where
  explained : ∀ token ∈ session.cursor.unread, token.Explained
  current : session.cursor.current.kind ≠ .error

/-- Tokens that are passed over without a report where a parse resumes: none, or a piece of text that is no
token, with what follows it up to where the parse can resume. -/
inductive Strays (set : KindSet) : List Token → Prop
  | none : Strays set []
  | some {piece : Token} {others : List Token} : piece.kind = .error →
      (∀ token ∈ others, token.kind ≠ .error ∧ token.isEnd = false ∧ set.contains token.kind = false) →
      Strays set (piece :: others)

theorem Session.Passes.explained {session later : Session} {read : List Token} (h : session.Passes read later)
    (hexplained : ∀ token ∈ session.cursor.unread, token.Explained) :
    ∀ token ∈ later.cursor.unread, token.Explained :=
  fun token hmem => hexplained token (h.unread ▸ List.mem_append_right _ hmem)

/-- A list of parameters in its parentheses. -/
inductive Formal.Enclosed (formals : List Formal) : List Token → Prop
  | intro {skipped inside : List Token} {opening closing : Token} :
      Strays Production.beforeParameters skipped → opening.kind = .leftParen → Formal.Accepted formals inside →
      closing.kind = .rightParen → Formal.Enclosed formals (skipped ++ opening :: (inside ++ [closing]))

namespace Production

open Session

variable {session : Session}

/-! ## Runs that report nothing -/

theorem cleanly_nextToken (session : Session) : Cleanly nextToken session fun token later =>
    later.cursor.current = token ∧ later.table = session.table ∧
      session.Passes session.cursor.consumed later ∧
        ((∀ token ∈ session.cursor.unread, token.Explained) → later.Plain) := by
  refine .of_prolongs reads_nextToken.prolongs ((passes_nextToken session).imp ?_)
  rintro _ later ⟨rfl, htable, hdiagnostics, hpasses⟩ hclean
  refine ⟨rfl, htable, hpasses, fun hexplained => ?_⟩
  have hmore := hpasses.explained hexplained
  refine ⟨hmore, fun hkind => ?_⟩
  -- what is no token would have been reported
  have hreports : later.cursor.current.reports = [] := by
    rw [hdiagnostics] at hclean
    simpa using hclean
  have hreason := (hmore _ (List.mem_cons_self ..)).mp hkind
  obtain ⟨reason, hreason⟩ := Option.isSome_iff_exists.mp hreason
  simp [Token.reports, hreason] at hreports

/-- A parse that resumes with a token resumes with this one. -/
theorem cleanly_synchronize (set : KindSet) (session : Session) :
    Cleanly (synchronize set) session fun token later => session.cursor.current.kind ≠ .error →
      token = session.cursor.current ∧ later = session ∧
        set.contains session.cursor.current.kind = true := by
  rw [synchronize, Cleanly, leads_bind, leads_current]
  split
  · next hset => exact Cleanly.pure fun _ => ⟨rfl, rfl, hset⟩
  · have hskip : Relates Session.Reads (nextToken >>= fun first => loop (skipToken set) first) :=
      reads_nextToken.bind fun first =>
        .loop (fun _ => .ite (.pure _) (reads_nextToken.bind fun _ => .pure _)) first
    cases hkind : session.cursor.current.kind == .error with
    | true =>
        refine Cleanly.of_prolongs hskip.prolongs ?_
        refine (leads_run _ session).imp fun _ _ _ _ hne => ?_
        exact absurd (eq_of_beq hkind) hne
    | false => exact Cleanly.of_flagged _ _ hskip.prolongs

/-- Whether tokens have been skipped up to one in a set or the end of the file, and this is the answer. -/
structure SkipsTo (set : KindSet) (session : Session) (answer : Token) (later : Session) : Prop where
  answer : answer = later.cursor.current
  table : later.table = session.table
  plain : later.Plain
  stops : set.contains later.cursor.current.kind = true ∨ later.cursor.current.isEnd = true
  skipped : ∃ others, session.Passes others later ∧
    ∀ token ∈ others, token.kind ≠ .error ∧ token.isEnd = false ∧ set.contains token.kind = false

/-- A token that is skipped comes before those that are skipped after it. -/
theorem SkipsTo.cons {set : KindSet} {between later : Session} {answer : Token}
    (h : SkipsTo set between answer later) (hplain : session.Plain) (htable : between.table = session.table)
    (hpasses : session.Passes [session.cursor.current] between) (hend : session.cursor.current.isEnd = false)
    (hset : set.contains session.cursor.current.kind = false) : SkipsTo set session answer later := by
  obtain ⟨others, hothers, hskipped⟩ := h.skipped
  refine ⟨h.answer, h.table.trans htable, h.plain, h.stops, _, hpasses.trans hothers, ?_⟩
  intro other hmem
  rcases List.mem_cons.mp hmem with rfl | hmem
  · exact ⟨hplain.current, hend, hset⟩
  · exact hskipped other hmem

/-- Tokens are skipped up to one in the set or the end of the file. -/
theorem cleanly_skip (set : KindSet) (token : Token) (session : Session) :
    Cleanly (loop (skipToken set) token) session fun last later =>
      token = session.cursor.current → session.Plain → SkipsTo set session last later := by
  apply Cleanly.loop ?_ token session
  intro token session
  unfold skipToken
  split
  · next hstop =>
      refine .pure ?_
      rintro rfl hplain
      exact ⟨rfl, rfl, hplain, (Bool.or_eq_true_iff.mp hstop).symm, [], .refl session, by simp⟩
  · next hskip =>
      obtain ⟨hend, hset⟩ : token.isEnd = false ∧ set.contains token.kind = false := by simpa using hskip
      refine (cleanly_nextToken session).bind fun next middle => .pure ?_
      rintro ⟨hnext, htable, hpasses, hplain'⟩ last later hrest rfl hplain
      rw [Cursor.consumed_of_not_end hend] at hpasses
      exact (hrest hnext.symm (hplain' hplain.explained)).cons hplain htable hpasses hend hset

/-- Where a parse resumes after a piece that is no token, what it skips are strays. -/
theorem cleanly_synchronize_strays (set : KindSet) (session : Session) :
    Cleanly (synchronize set) session fun token later =>
      (∀ token ∈ session.cursor.unread, token.Explained) →
        token = later.cursor.current ∧ later.table = session.table ∧
          (set.contains later.cursor.current.kind = true ∨ later.cursor.current.isEnd = true) ∧
            ∃ skipped, Strays set skipped ∧ session.Passes skipped later := by
  by_cases hkind : session.cursor.current.kind = .error
  · rw [synchronize, Cleanly, leads_bind, leads_current]
    split
    · next hset => exact Cleanly.pure fun _ => ⟨rfl, rfl, Or.inl hset, [], .none, .refl session⟩
    · rw [beq_iff_eq.mpr hkind]
      refine (cleanly_nextToken session).bind fun first moved => (cleanly_skip set first moved).mono ?_
      rintro token later hskip ⟨hfirst, htable, hpasses, hplain⟩ hexplained
      have hend : session.cursor.current.isEnd = false := by simp [Token.isEnd, hkind]
      rw [Cursor.consumed_of_not_end hend] at hpasses
      have hskipped := hskip hfirst.symm (hplain hexplained)
      obtain ⟨others, hothers, hstrays⟩ := hskipped.skipped
      exact ⟨hskipped.answer, hskipped.table.trans htable, hskipped.stops, _, .some hkind hstrays,
        hpasses.trans hothers⟩
  · refine (cleanly_synchronize set session).mono fun token later hresumed _ => ?_
    obtain ⟨rfl, rfl, hset⟩ := hresumed hkind
    exact ⟨rfl, rfl, Or.inl hset, [], .none, .refl _⟩

/-! ### Parameters -/

/-- The word for a number is read if it stands for a type, or else nothing is. -/
theorem cleanly_typeSpecifier (hword : session.cursor.current.kind ∈ numericWords) :
    Cleanly typeSpecifier session fun found later =>
      found = none ∧ later = session ∧ (∀ id, session.table.lookup session.cursor.current.text = some id →
          (session.table.entry id).kind ≠ .type) ∨
        ∃ id, session.table.lookup session.cursor.current.text = some id ∧
          (session.table.entry id).kind = .type ∧ found = some (session.table.entry id).resolvedType ∧
            later.table = session.table.modifyEntry id (·.addLine session.cursor.current.line) ∧
              session.Passes [session.cursor.current] later ∧
                ((∀ token ∈ session.cursor.unread, token.Explained) → later.Plain) := by
  have hend : session.cursor.current.isEnd = false := by
    refine isEnd_of_kind rfl fun hkind => ?_
    simp [hkind, numericWords] at hword
  have hnamed : typeSpecifier session = namedType session := by
    rw [typeSpecifier, currentKind_bind]
    simp only [numericWords, List.mem_cons, List.not_mem_nil, or_false] at hword
    rcases hword with h | h | h <;> rw [h]
  rw [Cleanly, Leads, hnamed, ← Leads, namedType, leads_bind, leads_current, typeNamed, leads_bind, leads_bind,
    leads_table, leads_pure]
  cases hfound : (session.table.lookup session.cursor.current.text).filter
      fun id => (session.table.entry id).kind == .type with
  | none =>
      refine Cleanly.pure (Or.inl ⟨rfl, rfl, fun id hlookup htype => ?_⟩)
      simp [hlookup, Option.filter, htype] at hfound
  | some id =>
      obtain ⟨hlookup, hkind⟩ := Option.filter_eq_some_iff.mp hfound
      have htype : (session.table.entry id).kind = .type := eq_of_beq hkind
      let mentioned : Session := { session with
        table := session.table.modifyEntry id (·.addLine session.cursor.current.line) }
      have hread : Cleanly (nextToken >>= fun _ => pure (some (mentioned.table.entry id).resolvedType)) mentioned
          fun found later => found = some (mentioned.table.entry id).resolvedType ∧
            later.table = mentioned.table ∧ session.Passes [session.cursor.current] later ∧
              ((∀ token ∈ session.cursor.unread, token.Explained) → later.Plain) := by
        refine (cleanly_nextToken mentioned).bind fun _ later => .pure ?_
        rintro ⟨-, htable, hpasses, hplain⟩
        rw [Cursor.consumed_of_not_end hend] at hpasses
        exact ⟨rfl, htable, ⟨hpasses.unread, hpasses.position⟩, hplain⟩
      have hsame : (mentioned.table.entry id).resolvedType = (session.table.entry id).resolvedType := by
        rw [SymbolTable.entry_modifyEntry_self (SymbolTable.lt_of_kind htype (by simp))]
        exact (Entry.agrees_addLine _ _).resolvedType
      rw [hsame] at hread
      rw [leads_bind, leads_changeEntry, leads_bind, leads_entry, hsame]
      exact Cleanly.mono hread fun found later hfound => Or.inr ⟨id, hlookup, htype, hfound⟩

/-- A parameter is stored if its name is free. -/
theorem cleanly_declareStorage (name : Token) (type : DataType) (session : Session) :
    Cleanly (declareStorage name .valueParameter type) session fun answer later =>
      session.table.lookupLocal name.text = none ∧ later.cursor = session.cursor ∧
        ∀ (start : SymbolTable), start.Gathers [] session.table →
          ∃ id slot, answer = some id ∧
            start.Gathers [(Text.lower name.text, .valueParameter slot, type)] later.table ∧
              later.table.localScope.entries = session.table.localScope.entries ++ [id] := by
  unfold declareStorage
  cases hlocal : session.table.lookupLocal name.text with
  | some taken =>
      simp only [enterLocal, SymbolTable.enterLocal, hlocal, leads_bind, leads_onTable, leads_flagAt,
        leads_pure, Cleanly]
      exact ⟨List.prefix_append _ _, fun hclean => by simp at hclean⟩
  | none =>
      simp only [enterLocal, SymbolTable.enterLocal, hlocal, leads_bind, leads_onTable, leads_changeEntry,
        leads_pure, Cleanly]
      refine ⟨List.prefix_refl _, fun _ => ⟨trivial, trivial, fun start hstart => ?_⟩⟩
      have hstored := (hstart.store type hlocal (Or.inr rfl)).mention session.table.entries.size name.line
      refine ⟨_, _, rfl, hstored, ?_⟩
      show (session.table.bindNew (Text.lower name.text)).takeSlot.2.localScope.entries = _
      rw [SymbolTable.localScope_takeSlot (hstart.valid.bindNew _), SymbolTable.localScope_bindNew hstart.valid]
      rfl

/-- Whether a parameter has been read as it is written, and an entry takes it up. -/
def ReadsFormal (session : Session) (answer : Option EntryId) (later : Session) : Prop :=
  ∃ (formal : Formal) (id : EntryId), formal.IsWritten ∧ answer = some id ∧
    session.Passes [formal.word, formal.name] later ∧ later.Plain ∧ session.table.Takes formal id later.table

/-- Behind the word for its type, a parameter is read if its name is free. -/
theorem cleanly_typedParameter (hword : session.cursor.current.kind ∈ numericWords) :
    Cleanly typedParameter session fun answer later =>
      session.table.Valid → (∀ token ∈ session.cursor.unread, token.Explained) →
        ReadsFormal session answer later := by
  refine (cleanly_typeSpecifier hword).bind fun found typed => ?_
  rw [Cleanly, leads_bind, leads_current]
  split
  · next hname =>
      have hkind : typed.cursor.current.kind = .identifier := eq_of_beq hname
      refine (cleanly_declareStorage _ _ typed).bind fun answer stored => ?_
      refine (cleanly_nextToken stored).bind fun _ later => .pure ?_
      rintro ⟨-, htable, hnext, hplain⟩ ⟨hfree, hcursor, hstored⟩ hfound hvalid hexplained
      have hend : stored.cursor.current.isEnd = false := by simp [Token.isEnd, hcursor, hkind]
      rw [Cursor.consumed_of_not_end hend, hcursor] at hnext
      rcases hfound with ⟨-, rfl, -⟩ | ⟨typeId, hlookup, htype, rfl, hmentioned, hword', hplain'⟩
      · -- where the word is not read, it stands in the place of the name
        rw [hkind] at hword
        exact absurd hword (by decide)
      · have hgathers : session.table.Gathers [] typed.table := by
          rw [hmentioned]
          exact (SymbolTable.Gathers.refl hvalid).mention _ _
        obtain ⟨id, slot, rfl, hlast, hentries⟩ := hstored _ hgathers
        refine ⟨⟨session.cursor.current, typed.cursor.current⟩, id, ⟨hword, hkind⟩, rfl, ?_, ?_, ?_⟩
        · have hpasses := hword'.trans ⟨hcursor ▸ hnext.unread, hcursor ▸ hnext.position⟩
          exact hpasses
        · refine hplain ?_
          rw [hcursor]
          exact (hplain' hexplained).explained
        · rw [hmentioned] at hfree hentries
          exact ⟨⟨typeId, slot, hlookup, htype, htable ▸ hlast⟩, hfree, htable ▸ hentries⟩
  · exact Cleanly.of_flag _ (.pure _)

/-- A parameter is read if its word stands for a type and its name is free. -/
theorem cleanly_parameterEntry (session : Session) :
    Cleanly parameterEntry session fun answer later =>
      session.table.Valid → (∀ token ∈ session.cursor.unread, token.Explained) →
        ReadsFormal session answer later := by
  rw [parameterEntry, Cleanly, leads_bind, leads_currentKind]
  split
  case h_1 hkind | h_2 hkind | h_3 hkind => exact cleanly_typedParameter (by rw [hkind]; decide)
  case h_4 =>
    -- a parameter without a type is reported before anything of it is read
    rw [untypedParameter, bind_assoc]
    have hskip : Relates Session.Reads (do
        let _ ← nextToken
        let _ ← matchToken .identifier) :=
      reads_nextToken.bind fun _ => (reads_matchToken _).bind fun _ => .pure _
    exact Cleanly.of_flag _ (hskip.prolongs.bind fun _ => .pure none)

theorem cleanly_parameterEnd (session : Session) :
    Cleanly parameterEnd session fun _ later => session.Plain →
      later.table = session.table ∧ later.Plain ∧
        ((∃ comma : Token, comma.kind = .comma ∧ session.Passes [comma] later) ∨
          later = session ∧ parameterStart.contains session.cursor.current.kind = false) := by
  refine (cleanly_synchronize afterParameter session).bind fun token found => ?_
  split
  · next hcomma =>
      refine (cleanly_nextToken found).bind fun _ later => .pure ?_
      rintro ⟨-, htable, hpasses, hplain⟩ hfound hsession
      obtain ⟨rfl, rfl, -⟩ := hfound hsession.current
      have hkind : found.cursor.current.kind = .comma := eq_of_beq hcomma
      rw [Cursor.consumed_of_not_end (by simp [Token.isEnd, hkind])] at hpasses
      exact ⟨htable, hplain hsession.explained, Or.inl ⟨_, hkind, hpasses⟩⟩
  · cases hstart : parameterStart.contains token.kind with
    | true =>
        refine ⟨List.prefix_append _ _, fun hclean => ?_⟩
        simp at hclean
    | false =>
        refine Cleanly.pure fun hfound hsession => ?_
        obtain ⟨rfl, rfl, -⟩ := hfound hsession.current
        exact ⟨rfl, hsession, Or.inr ⟨rfl, hstart⟩⟩

/-- Whether some parameters have been read, from the first token on, and no further one begins. -/
structure ReadsFormals (session : Session) (formals : List Formal) (ids : List EntryId) (later : Session) :
    Prop where
  tokens : ∃ tokens, Formal.Listed formals tokens ∧ session.Passes tokens later
  plain : later.Plain
  admits : session.table.Admits formals
  binds : List.Forall₂ (session.table.BindsFormal later.table) ids formals
  valid : later.table.Valid
  steady : session.table.Steady later.table
  grows : session.table.Grows later.table
  ends : parameterStart.contains later.cursor.current.kind = false

/-- Where no parameter begins, none is read. -/
theorem ReadsFormals.eq_nil {formals : List Formal} {ids : List EntryId} {later : Session}
    (h : ReadsFormals session formals ids later)
    (hstart : parameterStart.contains session.cursor.current.kind = false) :
    formals = [] ∧ session.Passes [] later := by
  obtain ⟨tokens, hlisted, hpasses⟩ := h.tokens
  cases hlisted with
  | none => exact ⟨rfl, hpasses⟩
  | last hwritten | more hwritten _ _ =>
      have hcurrent := current_eq_of_unread hpasses.unread
      rw [hcurrent, contains_parameterStart hwritten.word] at hstart
      cases hstart

/-- A parameter is read before others. -/
theorem ReadsFormals.cons {between later : Session} {formal : Formal} {formals : List Formal} {id : EntryId}
    {ids : List EntryId} {tokens : List Token} (h : ReadsFormals between formals ids later)
    (hvalid : session.table.Valid) (htakes : session.table.Takes formal id between.table)
    (hlisted : Formal.Listed (formal :: formals) tokens) (hpasses : session.Passes tokens later) :
    ReadsFormals session (formal :: formals) (id :: ids) later := by
  obtain ⟨_, _, -, -, hgathers⟩ := htakes.type
  refine ⟨⟨tokens, hlisted, hpasses⟩, h.plain, (htakes.admits_cons_iff hvalid).mpr h.admits, ?_, h.valid,
    hgathers.steady.trans h.steady, hgathers.grows.trans h.grows, h.ends⟩
  refine .cons (htakes.binds.grown hgathers.valid h.steady h.grows) (h.binds.imp ?_)
  intro other formal hbinds
  obtain ⟨typeId, hlookup, hkind, htype⟩ := hbinds.type
  obtain ⟨-, hlookup', hkind'⟩ := (htakes.type_iff hvalid _ _).mp ⟨hlookup, hkind⟩
  refine ⟨hbinds.bound, hbinds.kind, typeId, hlookup', hkind', htype.trans (congrArg some ?_)⟩
  exact (hgathers.grows.agrees typeId
    (hvalid.bound_lt typeId (SymbolTable.visible_of_lookup hlookup').bound)).resolvedType

/-- The parameters are read one by one. -/
theorem cleanly_parameters (parameters : List EntryId) (session : Session) :
    Cleanly (loop parameter parameters) session fun last later => session.table.Valid → session.Plain →
      ∃ formals ids, last = parameters ++ ids ∧ ReadsFormals session formals ids later := by
  apply Cleanly.loop ?_ parameters session
  intro parameters session
  rw [parameter, Cleanly, leads_bind, leads_currentKind]
  split
  · refine (cleanly_parameterEntry session).bind fun declared entered => ?_
    refine (cleanly_parameterEnd entered).bind fun _ ended => .pure ?_
    intro hend hentry last later hrest hvalid hplain
    obtain ⟨formal, id, hwritten, rfl, hpasses, hentered, htakes⟩ := hentry hvalid hplain.explained
    obtain ⟨htable, hended, hcases⟩ := hend hentered
    have htakes : session.table.Takes formal id ended.table := htable ▸ htakes
    obtain ⟨formals, ids, rfl, hformals⟩ := hrest htakes.valid hended
    refine ⟨formal :: formals, id :: ids, by simp, ?_⟩
    obtain ⟨tokens, hlisted, hmore⟩ := hformals.tokens
    rcases hcases with ⟨comma, hcomma, hnext⟩ | ⟨rfl, hstart⟩
    · exact hformals.cons hvalid htakes (.more hwritten hcomma hlisted) ((hpasses.trans hnext).trans hmore)
    · obtain ⟨rfl, hmore⟩ := hformals.eq_nil hstart
      exact hformals.cons hvalid htakes (.last hwritten) (hpasses.trans hmore)
  · next hstart =>
      refine Cleanly.pure fun hvalid hplain => ⟨[], [], by simp, ?_⟩
      exact ⟨⟨[], .none, .refl session⟩, hplain, ⟨by simp, by simp, .nil⟩, .nil, hvalid, .refl _, .refl _,
        by simpa using hstart⟩

/-- The word `void` alone is passed. -/
theorem cleanly_loneVoid (session : Session) :
    Cleanly loneVoid session fun _ later => session.Plain → later.table = session.table ∧ later.Plain ∧
      (session.Passes [] later ∨ ∃ word : Token, word.kind = .voidWord ∧ session.Passes [word] later ∧
        later.cursor.current.kind = .rightParen) := by
  rw [loneVoid, Cleanly, leads_bind, leads_check]
  split
  · next hvoid =>
      have hkind : session.cursor.current.kind = .voidWord := eq_of_beq hvoid
      have hend : session.cursor.current.isEnd = false := by simp [Token.isEnd, hkind]
      have hlook : Cleanly peekKind session fun kind looked =>
          (∃ cursor, looked = { session with cursor }) ∧ session.Passes [] looked ∧
            ∃ token rest, session.cursor.unread = session.cursor.current :: token :: rest ∧
              kind = token.kind := by
        refine .of_prolongs reads_peekKind.prolongs ((passes_peekKind session).imp ?_)
        rintro kind looked ⟨hsame, hpasses, htoken⟩ _
        exact ⟨hsame, hpasses, htoken hend⟩
      refine hlook.bind fun kind looked => ?_
      split
      · next hparen =>
          refine (cleanly_nextToken looked).bind fun _ later => .pure ?_
          rintro ⟨-, htable, hnext, hplain⟩ ⟨⟨cursor, rfl⟩, hpasses, token, rest, hunread, rfl⟩ hsession
          have hcurrent : cursor.current = session.cursor.current :=
            current_eq_of_unread (hpasses.unread.symm.trans hunread)
          rw [Cursor.consumed_of_not_end (by rwa [hcurrent])] at hnext
          have hboth := hpasses.trans hnext
          refine ⟨htable, hplain fun token hmem => hsession.explained token (hpasses.unread ▸ hmem),
            Or.inr ⟨_, hcurrent ▸ hkind, hboth, ?_⟩⟩
          have hlater : later.cursor.unread = token :: rest := by
            have hunread' := hboth.unread
            rw [hunread] at hunread'
            exact (List.cons.inj hunread').2.symm
          rw [current_eq_of_unread hlater]
          exact eq_of_beq hparen
      · refine Cleanly.pure ?_
        rintro ⟨⟨cursor, rfl⟩, hpasses, token, rest, hunread, -⟩ hsession
        have hcurrent : cursor.current = session.cursor.current :=
          current_eq_of_unread (hpasses.unread.symm.trans hunread)
        refine ⟨rfl, ⟨fun token hmem => hsession.explained token (hpasses.unread ▸ hmem), ?_⟩, Or.inl hpasses⟩
        rw [hcurrent]
        exact hsession.current
  · exact Cleanly.pure fun hsession => ⟨rfl, hsession, Or.inl (.refl session)⟩

/-- A token that has to be there is passed. -/
theorem cleanly_expect {kind : TokenKind} (hkind : kind ≠ .endOfFile) (missing : ErrorKind) (session : Session) :
    Cleanly (expect kind missing) session fun _ later =>
      session.cursor.current.kind = kind ∧ later.table = session.table ∧
        session.Passes [session.cursor.current] later ∧
          ((∀ token ∈ session.cursor.unread, token.Explained) → later.Plain) := by
  rw [expect, matchToken, bind_assoc, Cleanly, leads_bind, leads_check]
  split
  · next hmatch =>
      have hcurrent : session.cursor.current.kind = kind := eq_of_beq hmatch
      rw [bind_assoc]
      refine (cleanly_nextToken session).bind fun _ later => .pure ?_
      rintro ⟨-, htable, hpasses, hplain⟩
      rw [Cursor.consumed_of_not_end (isEnd_of_kind hcurrent hkind)] at hpasses
      exact ⟨hcurrent, htable, hpasses, hplain⟩
  · exact Cleanly.of_flag missing (.pure _)

/-- Whether parameters have been read as a list in parentheses, with an entry for each. -/
structure ReadsList (session : Session) (formals : List Formal) (ids : List EntryId) (later : Session) :
    Prop where
  tokens : ∃ tokens, Formal.Enclosed formals tokens ∧ session.Passes tokens later
  plain : later.Plain
  admits : session.table.Admits formals
  binds : List.Forall₂ (session.table.BindsFormal later.table) ids formals

/-- What stands between the parentheses is read, and the closing one. -/
theorem cleanly_parameterList (session : Session) :
    Cleanly parameterList session fun ids later => session.table.Valid → session.Plain →
      ∃ (formals : List Formal) (inside : List Token) (closing : Token), Formal.Accepted formals inside ∧
        closing.kind = .rightParen ∧ session.Passes (inside ++ [closing]) later ∧ later.Plain ∧
          session.table.Admits formals ∧ List.Forall₂ (session.table.BindsFormal later.table) ids formals := by
  rw [parameterList]
  refine (cleanly_loneVoid session).bind fun _ started => ?_
  refine (cleanly_synchronize insideParameters started).bind fun _ ready => ?_
  refine (cleanly_parameters [] ready).bind fun ids read => ?_
  refine (cleanly_expect (by decide) _ read).bind fun _ closed => .pure ?_
  rintro ⟨hparen, htable, hclosing, hclosed⟩ hlist hready hvoid hvalid hplain
  obtain ⟨hsame, hstarted, hvoid⟩ := hvoid hplain
  obtain ⟨-, rfl, -⟩ := hready hstarted.current
  obtain ⟨formals, ids, rfl, hreads⟩ := hlist (hsame ▸ hvalid) hstarted
  obtain ⟨tokens, hlisted, hpasses⟩ := hreads.tokens
  have hadmits := hsame ▸ hreads.admits
  have hbinds := hsame ▸ htable ▸ hreads.binds
  have hlater := hclosed hreads.plain.explained
  rcases hvoid with hnone | ⟨word, hword, hskipped, hright⟩
  · exact ⟨formals, tokens, _, hlisted.accepted, hparen, (hnone.trans hpasses).trans hclosing, hlater, hadmits,
      hbinds⟩
  · -- after the word `void` alone no parameter begins
    obtain ⟨rfl, hnothing⟩ := hreads.eq_nil (by rw [hright]; decide)
    exact ⟨[], [word], _, .sentence (.void hword), hparen, (hskipped.trans hnothing).trans hclosing, hlater,
      hadmits, hbinds⟩

/-- The parentheses and what stands between them are read. -/
theorem cleanly_enclosedParameters (session : Session) :
    Cleanly enclosedParameters session fun ids later => session.table.Valid →
      (∀ token ∈ session.cursor.unread, token.Explained) → ∃ formals, ReadsList session formals ids later := by
  rw [enclosedParameters]
  refine (cleanly_synchronize_strays beforeParameters session).bind fun token found => ?_
  split
  · next hparen =>
      refine (cleanly_nextToken found).bind fun _ entered => ?_
      refine (cleanly_parameterList entered).mono fun ids later => ?_
      rintro hlist ⟨-, htable, hopening, hplain⟩ hfound hvalid hexplained
      obtain ⟨rfl, hsame, -, skipped, hstrays, hskipped⟩ := hfound hexplained
      have hkind : found.cursor.current.kind = .leftParen := eq_of_beq hparen
      rw [Cursor.consumed_of_not_end (isEnd_of_kind hkind (by simp))] at hopening
      have htable : entered.table = session.table := htable.trans hsame
      obtain ⟨formals, inside, closing, haccepted, hclosing, hinside, hlater, hadmits, hbinds⟩ :=
        hlist (htable ▸ hvalid) (hplain (hskipped.explained hexplained))
      refine ⟨formals, ⟨_, .intro hstrays hkind haccepted hclosing, ?_⟩, hlater, htable ▸ hadmits, htable ▸ hbinds⟩
      simpa using (hskipped.trans hopening).trans hinside
  · exact Cleanly.of_flag _ (.pure _)

end Production

end FrontEnd
