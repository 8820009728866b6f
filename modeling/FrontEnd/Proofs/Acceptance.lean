import FrontEnd.Proofs.ParameterList

/-!
# Which lists of parameters are accepted

The parameters of a routine are read without an error just if their tokens are a list of parameters in
parentheses, their names are free and apart, and their words stand for types
(`formalParameters_silent_iff`).

## Strategy

That nothing else is read without an error is what `cleanly_enclosedParameters` says.  For the converse the
productions are followed along the tokens that are known to lie ahead (`Session.Meets`): each of them reports
nothing there, and what it does then is known already.
-/

namespace FrontEnd

namespace Formal

variable {formals : List Formal} {tokens : List Token}

theorem IsWritten.clear {formal : Formal} (h : formal.IsWritten) :
    formal.word.kind ≠ .error ∧ formal.name.kind ≠ .error := by
  refine ⟨fun herror => ?_, by simp [h.name]⟩
  have hword := h.word
  rw [herror] at hword
  exact absurd hword (by decide)

theorem Listed.clear (h : Listed formals tokens) : ∀ token ∈ tokens, token.kind ≠ .error := by
  induction h with
  | none => simp
  | last hwritten => simpa using hwritten.clear
  | more hwritten hcomma _ ih => simpa [hcomma] using ⟨hwritten.clear.1, hwritten.clear.2, ih⟩

/-- What is accepted has no piece in it that is no token. -/
theorem Accepted.clear (h : Accepted formals tokens) : ∀ token ∈ tokens, token.kind ≠ .error := by
  rcases h.listed_or_void with hlisted | ⟨-, word, hvoid, rfl⟩
  · exact hlisted.clear
  · simp [hvoid]

end Formal

namespace Session

/-- Whether some tokens lie ahead, the current one first, and none of them is a piece that is no token. -/
structure Meets (session : Session) (tokens : List Token) : Prop where
  ahead : tokens <+: session.cursor.unread
  clear : ∀ token ∈ tokens, token.kind ≠ .error
  explained : ∀ token ∈ session.cursor.unread, token.Explained

variable {session later : Session} {token next : Token} {tokens read : List Token}

namespace Meets

theorem current_eq (h : session.Meets (token :: tokens)) : session.cursor.current = token := by
  obtain ⟨rest, hrest⟩ := h.ahead
  exact current_eq_of_unread hrest.symm

theorem plain (h : session.Meets (token :: tokens)) : session.Plain :=
  ⟨h.explained, h.current_eq ▸ h.clear token (List.mem_cons_self ..)⟩

theorem isEnd_eq (h : session.Meets (token :: next :: tokens)) : session.cursor.current.isEnd = false := by
  obtain ⟨rest, hrest⟩ := h.ahead
  exact isEnd_of_unread hrest.symm

/-- What has been passed no longer lies ahead. -/
theorem of_passes (hpasses : session.Passes read later) (h : session.Meets (read ++ tokens)) :
    later.Meets tokens where
  ahead := by
    have hahead := h.ahead
    rwa [hpasses.unread, List.prefix_append_right_inj] at hahead
  clear := fun token hmem => h.clear token (List.mem_append_right _ hmem)
  explained := hpasses.explained h.explained

/-- What lies ahead is known from the tokens alone. -/
theorem of_unread (h : session.Meets tokens) (hunread : later.cursor.unread = session.cursor.unread) :
    later.Meets tokens :=
  ⟨hunread ▸ h.ahead, h.clear, hunread ▸ h.explained⟩

end Meets

/-- Whether a session has come to some tokens, with the first of them for an answer, and nothing has been
reported or declared on the way. -/
structure ComesTo (session : Session) (tokens : List Token) (answer : Token) (later : Session) : Prop where
  answer : answer = later.cursor.current
  meets : later.Meets tokens
  table : later.table = session.table
  diagnostics : later.diagnostics = session.diagnostics

theorem ComesTo.trans {between : Session} {answer : Token} (h : between.ComesTo tokens answer later)
    (htable : between.table = session.table) (hdiagnostics : between.diagnostics = session.diagnostics) :
    session.ComesTo tokens answer later :=
  ⟨h.answer, h.meets, h.table.trans htable, h.diagnostics.trans hdiagnostics⟩

end Session

namespace Production

open Session

variable {α β : Type} {session : Session} {token next : Token} {tokens : List Token}

/-! ## Tokens -/

/-- Whether a production reports nothing. -/
def Silently (production : Production α) (session : Session) : Prop :=
  Leads production session (fun _ => True) fun _ later => later.diagnostics = session.diagnostics

/-- What is reported by the parts is reported by the whole. -/
theorem Silently.bind {production : Production α} {rest : α → Production β} {between : α → Session → Prop}
    (h : Silently production session) (hclean : Cleanly production session between)
    (hrest : ∀ answer middle, between answer middle → Silently (rest answer) middle) :
    Silently (production >>= rest) session := by
  refine Leads.bind (Leads.and h hclean) fun answer middle ⟨hsame, _, hbetween⟩ => ?_
  exact (hrest answer middle (hbetween hsame)).imp fun _ _ hlater => hlater.trans hsame

/-- A token is consumed without a report if a token comes after it. -/
theorem comesTo_nextToken (hahead : token :: next :: tokens <+: session.cursor.unread)
    (hclear : ∀ token ∈ next :: tokens, token.kind ≠ .error)
    (hexplained : ∀ token ∈ session.cursor.unread, token.Explained) :
    Leads nextToken session (fun _ => True) (session.ComesTo (next :: tokens)) := by
  obtain ⟨rest, hrest⟩ := hahead
  refine (passes_nextToken session).imp ?_
  rintro _ later ⟨rfl, htable, hdiagnostics, hpasses⟩
  rw [Cursor.consumed_of_not_end (isEnd_of_unread hrest.symm)] at hpasses
  have hunread : later.cursor.unread = next :: tokens ++ rest :=
    (List.cons.inj (hpasses.unread.symm.trans hrest.symm)).2
  have hmeets : later.Meets (next :: tokens) := ⟨⟨rest, hunread.symm⟩, hclear, hpasses.explained hexplained⟩
  have hplain := hmeets.plain
  have hreason : later.cursor.current.scanError? = none := by
    rw [← Option.not_isSome_iff_eq_none]
    exact fun hreason => hplain.current ((hplain.explained _ (List.mem_cons_self ..)).mpr hreason)
  exact ⟨rfl, hmeets, htable, by simpa [Token.reports, hreason] using hdiagnostics⟩

theorem comesTo_nextToken_of_meets (h : session.Meets (token :: next :: tokens)) :
    Leads nextToken session (fun _ => True) (session.ComesTo (next :: tokens)) :=
  comesTo_nextToken h.ahead (fun token hmem => h.clear token (List.mem_cons_of_mem _ hmem)) h.explained

theorem silently_nextToken (h : session.Meets (token :: next :: tokens)) : Silently nextToken session :=
  (comesTo_nextToken_of_meets h).imp fun _ _ hlater => hlater.diagnostics

/-- A token that has to be there is consumed without a report. -/
theorem silently_expect {kind : TokenKind} (missing : ErrorKind) (h : session.Meets (token :: next :: tokens))
    (hkind : token.kind = kind) : Silently (expect kind missing) session := by
  rw [Silently, expect, matchToken, bind_assoc, leads_bind, leads_check, h.current_eq, hkind, beq_self_eq_true,
    if_pos rfl, bind_assoc]
  exact Leads.bind (silently_nextToken h) fun _ _ hlater => hlater

/-- Tokens that are not in a set are skipped without a report. -/
theorem comesTo_skip {set : KindSet} {others : List Token} (hset : set.contains token.kind = true)
    (hothers : ∀ other ∈ others, set.contains other.kind = false)
    (h : session.Meets (others ++ token :: next :: tokens)) :
    Leads (loop (skipToken set) session.cursor.current) session (fun _ => True)
      (session.ComesTo (token :: next :: tokens)) := by
  -- on the way some of the tokens that are skipped are left
  have hstep (answer : Token) (later : Session)
      (hreached : ∃ left, left <:+ others ∧ session.ComesTo (left ++ token :: next :: tokens) answer later) :
      Leads (skipToken set answer) later (fun _ => True) (AfterTurn (session.ComesTo (token :: next :: tokens))
        fun answer later =>
          ∃ left, left <:+ others ∧ session.ComesTo (left ++ token :: next :: tokens) answer later) := by
    obtain ⟨left, hleft, hreached⟩ := hreached
    have hmeets := hreached.meets
    obtain rfl := hreached.answer
    unfold skipToken
    cases left with
    | nil =>
        rw [congrArg Token.kind hmeets.current_eq, hset, Bool.or_true, if_pos rfl]
        exact hreached
    | cons other left =>
        obtain ⟨following, rest, hrest⟩ : ∃ following rest, left ++ token :: next :: tokens = following :: rest :=
          List.exists_cons_of_ne_nil (by simp)
        rw [List.cons_append, hrest] at hmeets
        have hother := hothers other (hleft.subset (List.mem_cons_self ..))
        rw [hmeets.isEnd_eq, hmeets.current_eq, hother, Bool.or_self, if_neg Bool.false_ne_true, leads_bind]
        refine (comesTo_nextToken_of_meets hmeets).imp fun _ moved hmoved => ?_
        exact ⟨left, (List.suffix_cons ..).trans hleft,
          hrest ▸ hmoved.trans hreached.table hreached.diagnostics⟩
  exact leads_loop hstep ⟨others, List.suffix_refl _, rfl, h, rfl, rfl⟩

/-- Strays are skipped without a report. -/
theorem comesTo_synchronize {set : KindSet} {skipped : List Token} (hstrays : Strays set skipped)
    (hset : set.contains token.kind = true) (herror : set.contains .error = false)
    (hahead : skipped ++ token :: next :: tokens <+: session.cursor.unread)
    (hclear : ∀ other ∈ token :: next :: tokens, other.kind ≠ .error)
    (hexplained : ∀ token ∈ session.cursor.unread, token.Explained) :
    Leads (synchronize set) session (fun _ => True) (session.ComesTo (token :: next :: tokens)) := by
  cases hstrays with
  | none =>
      have hmeets : session.Meets (token :: next :: tokens) := ⟨hahead, hclear, hexplained⟩
      rw [leads_synchronize_of_contains (by rwa [hmeets.current_eq])]
      exact ⟨rfl, hmeets, rfl, rfl⟩
  | @some piece others hpiece hothers =>
      obtain ⟨first, rest, hfirst⟩ : ∃ first rest, others ++ token :: next :: tokens = first :: rest :=
        List.exists_cons_of_ne_nil (by simp)
      have hclear : ∀ other ∈ others ++ token :: next :: tokens, other.kind ≠ .error := by
        intro other hmem
        rcases List.mem_append.mp hmem with hmem | hmem
        · exact (hothers other hmem).1
        · exact hclear other hmem
      obtain ⟨after, hafter⟩ := hahead
      have hcurrent : session.cursor.current = piece := current_eq_of_unread hafter.symm
      rw [synchronize, leads_bind, leads_current, hcurrent, hpiece, herror, if_neg Bool.false_ne_true, leads_bind,
        beq_self_eq_true]
      refine Leads.bind (comesTo_nextToken ⟨after, by simpa [hfirst] using hafter⟩ (hfirst ▸ hclear) hexplained) ?_
      intro _ moved hmoved
      rw [hmoved.answer]
      have hskip := comesTo_skip hset (fun other hmem => (hothers other hmem).2.2) (hfirst ▸ hmoved.meets)
      exact hskip.imp fun _ _ hlater => hlater.trans hmoved.table hmoved.diagnostics

/-! ## Parameters -/

variable {formal : Formal}

theorem silently_typeSpecifier (h : session.Meets (formal.word :: formal.name :: tokens))
    (hwritten : formal.IsWritten) : Silently typeSpecifier session := by
  have hnamed : typeSpecifier session = namedType session := by
    have hword := hwritten.word
    rw [typeSpecifier, currentKind_bind, h.current_eq]
    simp only [numericWords, List.mem_cons, List.not_mem_nil, or_false] at hword
    rcases hword with h | h | h <;> rw [h]
  rw [Silently, Leads, hnamed, ← Leads, namedType, leads_bind, leads_current, typeNamed, leads_bind, leads_bind,
    leads_table, leads_pure]
  split
  · rfl
  · rw [leads_bind, leads_changeEntry, leads_bind, leads_entry, leads_bind]
    exact silently_nextToken ⟨h.ahead, h.clear, h.explained⟩

/-- A name that is free is declared without a report. -/
theorem silently_declareStorage {name : Token} (kind : DefinitionKind) (type : DataType)
    (hfree : session.table.lookupLocal name.text = none) : Silently (declareStorage name kind type) session := by
  simp only [declareStorage, enterLocal, SymbolTable.enterLocal, hfree, Silently, leads_bind, leads_onTable,
    leads_changeEntry, leads_pure]

theorem silently_typedParameter (h : session.Meets (formal.word :: formal.name :: next :: tokens))
    (hwritten : formal.IsWritten)
    (htype : ∃ id, session.table.lookup formal.word.text = some id ∧ (session.table.entry id).kind = .type)
    (hfree : session.table.lookupLocal formal.name.text = none) : Silently typedParameter session := by
  refine (silently_typeSpecifier h hwritten).bind (cleanly_typeSpecifier (h.current_eq ▸ hwritten.word)) ?_
  rw [h.current_eq]
  rintro found typed (⟨-, rfl, hnone⟩ | ⟨_, -, -, -, htable, hpasses, -⟩)
  · obtain ⟨id, hlookup, hkind⟩ := htype
    exact absurd hkind (hnone id hlookup)
  · have hname := Meets.of_passes hpasses h
    have hfree : typed.table.lookupLocal typed.cursor.current.text = none := by
      rw [htable, hname.current_eq]
      exact hfree
    have hidentifier : typed.cursor.current.kind = .identifier := hname.current_eq ▸ hwritten.name
    rw [Silently, leads_bind, leads_current, if_pos (beq_iff_eq.mpr hidentifier)]
    refine (silently_declareStorage _ _ hfree).bind (cleanly_declareStorage _ _ typed) ?_
    rintro answer stored ⟨-, hcursor, -⟩
    rw [Silently, leads_bind]
    exact silently_nextToken (hname.of_unread (by rw [hcursor]))

theorem silently_parameterEntry (h : session.Meets (formal.word :: formal.name :: next :: tokens))
    (hwritten : formal.IsWritten)
    (htype : ∃ id, session.table.lookup formal.word.text = some id ∧ (session.table.entry id).kind = .type)
    (hfree : session.table.lookupLocal formal.name.text = none) : Silently parameterEntry session := by
  have htyped := silently_typedParameter h hwritten htype hfree
  have hword := hwritten.word
  rw [parameterEntry, Silently, leads_bind, leads_currentKind, h.current_eq]
  simp only [numericWords, List.mem_cons, List.not_mem_nil, or_false] at hword
  rcases hword with h | h | h <;> rw [h] <;> exact htyped

theorem leads_parameterEnd_of_closing {post : Unit → Session → Prop}
    (hkind : session.cursor.current.kind = .rightParen) :
    Leads parameterEnd session (fun _ => True) post ↔ post () session := by
  rw [parameterEnd, leads_bind, leads_synchronize_of_contains (by rw [hkind]; decide), hkind]
  exact Iff.rfl

theorem meets_parameterEnd (h : session.Meets (token :: next :: tokens)) (hkind : token.kind = .comma) :
    Leads parameterEnd session (fun _ => True) fun _ later =>
      later.Meets (next :: tokens) ∧ later.table = session.table ∧ later.diagnostics = session.diagnostics := by
  have hcurrent : session.cursor.current.kind = .comma := h.current_eq ▸ hkind
  rw [parameterEnd, leads_bind, leads_synchronize_of_contains (by rw [hcurrent]; decide), hcurrent,
    if_pos (by decide), leads_bind]
  exact (comesTo_nextToken_of_meets h).imp fun _ _ hlater =>
    ⟨hlater.meets, hlater.table, hlater.diagnostics⟩

/-- The first of some parameters that can be declared is read without a report, and the others can be declared
then. -/
theorem ready_parameterEntry {formals : List Formal}
    (h : session.Meets (formal.word :: formal.name :: next :: tokens)) (hwritten : formal.IsWritten)
    (hvalid : session.table.Valid) (hadmits : session.table.Admits (formal :: formals)) :
    Leads parameterEntry session (fun _ => True) fun _ later =>
      later.diagnostics = session.diagnostics ∧ later.Meets (next :: tokens) ∧ later.table.Valid ∧
        later.table.Admits formals := by
  have hmem : formal ∈ formal :: formals := List.mem_cons_self ..
  refine ((silently_parameterEntry h hwritten (hadmits.types formal hmem) (hadmits.free formal hmem)).and
    (cleanly_parameterEntry session)).imp ?_
  rintro _ later ⟨hsame, -, hread⟩
  obtain ⟨read, _, -, rfl, hpasses, -, htakes⟩ := hread hsame hvalid h.explained
  obtain rfl : read = formal := by
    obtain ⟨rest, hrest⟩ := h.ahead
    obtain ⟨word, name⟩ := read
    obtain ⟨word', name'⟩ := formal
    have hboth := hpasses.unread.symm.trans hrest.symm
    simp only [List.cons_append, List.cons.injEq] at hboth
    rw [hboth.1, hboth.2.1]
  exact ⟨hsame, Meets.of_passes hpasses h, htakes.valid, (htakes.admits_cons_iff hvalid).mp hadmits⟩

/-- Whether some parameters that can be declared lie ahead, and after them some other tokens. -/
structure Ready (session : Session) (formals : List Formal) (others : List Token) : Prop where
  meets : ∃ inside, Formal.Listed formals inside ∧ session.Meets (inside ++ others)
  valid : session.table.Valid
  admits : session.table.Admits formals

/-- The first token is the word for a type, or it is the one after all the parameters. -/
theorem Ready.starts {formals : List Formal} {closing : Token} (h : Ready session formals (closing :: tokens)) :
    session.cursor.current.kind ∈ numericWords ∨ session.cursor.current = closing := by
  obtain ⟨inside, hlisted, hmeets⟩ := h.meets
  cases hlisted with
  | none => exact Or.inr hmeets.current_eq
  | last hwritten | more hwritten _ _ => exact Or.inl (hmeets.current_eq ▸ hwritten.word)

/-- One parameter is read without a report. -/
theorem ready_parameter {formals : List Formal} {closing : Token} (hclosing : closing.kind = .rightParen)
    (parameters : List EntryId) (h : Ready session formals (closing :: next :: tokens)) :
    Leads (parameter parameters) session (fun _ => True) (AfterTurn
      (fun _ later => later.diagnostics = session.diagnostics ∧ later.Meets (closing :: next :: tokens))
      fun _ later => later.diagnostics = session.diagnostics ∧
        ∃ formals, Ready later formals (closing :: next :: tokens)) := by
  obtain ⟨inside, hlisted, hmeets⟩ := h.meets
  rw [parameter, leads_bind, leads_currentKind]
  cases hlisted with
  | none =>
      rw [hmeets.current_eq, hclosing, if_neg (by decide)]
      exact ⟨rfl, hmeets⟩
  | last hwritten =>
      rw [hmeets.current_eq, contains_parameterStart hwritten.word, if_pos rfl]
      refine (ready_parameterEntry hmeets hwritten h.valid h.admits).bind ?_
      rintro declared entered ⟨hsame, hentered, hvalid, hadmits⟩
      rw [leads_bind, leads_parameterEnd_of_closing (hentered.current_eq ▸ hclosing)]
      exact ⟨hsame, [], ⟨[], .none, hentered⟩, hvalid, hadmits⟩
  | @more _ _ formals inside hwritten hcomma hlisted =>
      rw [hmeets.current_eq, contains_parameterStart hwritten.word, if_pos rfl]
      refine (ready_parameterEntry hmeets hwritten h.valid h.admits).bind ?_
      rintro declared entered ⟨hsame, hentered, hvalid, hadmits⟩
      obtain ⟨following, rest, hrest⟩ : ∃ following rest, inside ++ closing :: next :: tokens = following :: rest :=
        List.exists_cons_of_ne_nil (by simp)
      rw [List.append_eq, hrest] at hentered
      refine (meets_parameterEnd hentered hcomma).bind ?_
      rintro _ ended ⟨hended, htable, hsame'⟩
      exact ⟨hsame'.trans hsame, formals, ⟨inside, hlisted, hrest ▸ hended⟩, htable ▸ hvalid, htable ▸ hadmits⟩

/-- The parameters are read without a report. -/
theorem meets_parameters {formals : List Formal} {closing : Token} (hclosing : closing.kind = .rightParen)
    (h : Ready session formals (closing :: next :: tokens)) :
    Leads (loop parameter []) session (fun _ => True) fun _ later =>
      later.diagnostics = session.diagnostics ∧ later.Meets (closing :: next :: tokens) := by
  have hstep (parameters : List EntryId) (between : Session) (hreached : between.diagnostics = session.diagnostics ∧
      ∃ formals, Ready between formals (closing :: next :: tokens)) :
      Leads (parameter parameters) between (fun _ => True) (AfterTurn
        (fun _ later => later.diagnostics = session.diagnostics ∧ later.Meets (closing :: next :: tokens))
        fun _ later => later.diagnostics = session.diagnostics ∧
          ∃ formals, Ready later formals (closing :: next :: tokens)) := by
    obtain ⟨hsame, formals, hready⟩ := hreached
    refine (ready_parameter hclosing parameters hready).imp ?_
    rintro (_ | _) last ⟨hlast, hrest⟩ <;> exact ⟨hlast.trans hsame, hrest⟩
  exact leads_loop hstep ⟨rfl, formals, h⟩

/-- The word `void` alone is skipped, and any parameters are still to come. -/
theorem ready_loneVoid {formals : List Formal} {inside : List Token} {closing : Token}
    (haccepted : Formal.Accepted formals inside) (hclosing : closing.kind = .rightParen)
    (hmeets : session.Meets (inside ++ closing :: next :: tokens)) (hvalid : session.table.Valid)
    (hadmits : session.table.Admits formals) :
    Leads loneVoid session (fun _ => True) fun _ started =>
      started.diagnostics = session.diagnostics ∧ Ready started formals (closing :: next :: tokens) := by
  rw [loneVoid, leads_bind, leads_check]
  rcases haccepted.listed_or_void with hlisted | ⟨rfl, word, hvoid, rfl⟩
  · have hready : Ready session formals (closing :: next :: tokens) := ⟨⟨inside, hlisted, hmeets⟩, hvalid, hadmits⟩
    have hkind : session.cursor.current.kind ≠ .voidWord := by
      rcases hready.starts with hword | hcurrent
      · rintro hvoid
        rw [hvoid] at hword
        exact absurd hword (by decide)
      · rw [hcurrent, hclosing]
        decide
    rw [beq_false_of_ne hkind, if_neg Bool.false_ne_true]
    exact ⟨rfl, hready⟩
  · rw [hmeets.current_eq, hvoid, beq_self_eq_true, if_pos rfl]
    refine (passes_peekKind session).bind ?_
    rintro kind looked ⟨⟨cursor, rfl⟩, hpasses, htoken⟩
    obtain ⟨token, rest, hunread, rfl⟩ := htoken hmeets.isEnd_eq
    obtain rfl : token = closing := by
      obtain ⟨after, hafter⟩ := hmeets.ahead
      exact (List.cons.inj (List.cons.inj (hunread.symm.trans hafter.symm)).2).1
    have hlooked := Meets.of_passes hpasses hmeets
    rw [hclosing, beq_self_eq_true, if_pos rfl, leads_bind]
    refine (comesTo_nextToken_of_meets hlooked).imp ?_
    rintro _ started ⟨-, hstarted, htable, hsame⟩
    exact ⟨hsame, ⟨[], .none, hstarted⟩, htable ▸ hvalid, htable ▸ hadmits⟩

/-- Between the parentheses nothing is reported. -/
theorem silently_parameterList {formals : List Formal} {inside : List Token} {closing : Token}
    (haccepted : Formal.Accepted formals inside) (hclosing : closing.kind = .rightParen)
    (hmeets : session.Meets (inside ++ closing :: next :: tokens)) (hvalid : session.table.Valid)
    (hadmits : session.table.Admits formals) : Silently parameterList session := by
  refine (ready_loneVoid haccepted hclosing hmeets hvalid hadmits).bind ?_
  rintro _ started ⟨hsame, hready⟩
  have hstart : insideParameters.contains started.cursor.current.kind = true := by
    rcases hready.starts with hword | hcurrent
    · exact contains_insideParameters hword
    · rw [hcurrent, hclosing]
      decide
  rw [leads_bind, leads_synchronize_of_contains hstart]
  refine (meets_parameters hclosing hready).bind ?_
  rintro _ read ⟨hsame', hread⟩
  refine Leads.bind (silently_expect _ hread hclosing) fun _ later hlater => ?_
  exact hlater.trans (hsame'.trans hsame)

/-- The parentheses and what stands between them are read without a report. -/
theorem silently_enclosedParameters {formals : List Formal} {enclosed : List Token}
    (henclosed : Formal.Enclosed formals enclosed) (hahead : enclosed ++ [next] <+: session.cursor.unread)
    (hnext : next.kind ≠ .error) (hexplained : ∀ token ∈ session.cursor.unread, token.Explained)
    (hvalid : session.table.Valid) (hadmits : session.table.Admits formals) :
    Silently enclosedParameters session := by
  cases henclosed with
  | @intro skipped inside opening closing hstrays hopening haccepted hclosing =>
      obtain ⟨first, rest, hfirst⟩ : ∃ first rest, inside ++ closing :: [next] = first :: rest :=
        List.exists_cons_of_ne_nil (by simp)
      have hclear : ∀ other ∈ opening :: (inside ++ closing :: [next]), other.kind ≠ .error := by
        simp only [List.mem_cons, List.mem_append, List.not_mem_nil, or_false]
        rintro other (rfl | hmem | rfl | rfl)
        · simp [hopening]
        · exact haccepted.clear other hmem
        · simp [hclosing]
        · exact hnext
      have hset : beforeParameters.contains opening.kind = true := by rw [hopening]; decide
      rw [hfirst] at hclear
      rw [enclosedParameters]
      refine (comesTo_synchronize hstrays hset (by decide) (by simpa [hfirst] using hahead) hclear hexplained).bind ?_
      rintro _ found ⟨rfl, hfound, htable, hsame⟩
      rw [hfound.current_eq, hopening, beq_self_eq_true, if_pos rfl]
      refine (comesTo_nextToken_of_meets hfound).bind ?_
      rintro _ entered ⟨-, hentered, htable', hsame'⟩
      have hsame := hsame'.trans hsame
      rw [htable] at htable'
      rw [← hfirst] at hentered
      exact (silently_parameterList haccepted hclosing hentered (htable' ▸ hvalid) (htable' ▸ hadmits)).imp
        fun _ later hlater => hlater.trans hsame

/-! ## What is accepted -/

/-- Whether what lies between the current tokens of two sessions is a list of parameters in parentheses that can be
declared, and a token comes after it. -/
structure Accepts (session : Session) (formals : List Formal) (later : Session) : Prop where
  tokens : ∃ enclosed, Formal.Enclosed formals enclosed ∧
    session.cursor.unread = enclosed ++ later.cursor.unread
  admits : session.table.Admits formals
  next : later.cursor.current.kind ≠ .error

/-- Nothing is reported of the parameters of a routine just if their tokens are a list of parameters in parentheses
that can be declared, the last of which may have a comma after it, and what comes after the list is a token.  The
routine has an entry for each of them then, in their order. -/
theorem formalParameters_silent_iff {routine : EntryId} {later : Session} (hvalid : session.table.Valid)
    (hexplained : ∀ token ∈ session.cursor.unread, token.Explained)
    (hrun : formalParameters routine session = .ok ((), later)) :
    (later.diagnostics = session.diagnostics ↔ ∃ formals, Accepts session formals later) ∧
      (later.diagnostics = session.diagnostics → ∃ formals, Accepts session formals later ∧
        ∀ known, (later.table.entry routine).routine? = some known →
          List.Forall₂ (session.table.BindsFormal later.table) known.parameters formals) := by
  obtain ⟨ids, read, hread, hchange⟩ := exists_of_bind hrun
  obtain ⟨hcursor, htable, hdiagnostics⟩ : later.cursor = read.cursor ∧
      later.table = read.table.modifyRoutine routine (fun known => { known with parameters := ids }) ∧
        later.diagnostics = read.diagnostics := by
    simp only [changeRoutine, changeTable, modify_eq, Except.ok.injEq, Prod.mk.injEq, true_and] at hchange
    subst hchange
    exact ⟨rfl, rfl, rfl⟩
  rw [hdiagnostics]
  have haccepts (hsame : read.diagnostics = session.diagnostics) :
      ∃ formals, Accepts session formals later ∧ List.Forall₂ (session.table.BindsFormal read.table) ids formals := by
    obtain ⟨formals, hlist⟩ :=
      ((leads_of_ok hread).mp (cleanly_enclosedParameters session)).2 hsame hvalid hexplained
    obtain ⟨tokens, henclosed, hpasses⟩ := hlist.tokens
    exact ⟨formals, ⟨⟨tokens, henclosed, hcursor ▸ hpasses.unread⟩, hlist.admits, hcursor ▸ hlist.plain.current⟩,
      hlist.binds⟩
  refine ⟨⟨fun hsame => ?_, ?_⟩, fun hsame => ?_⟩
  · obtain ⟨formals, hformals, -⟩ := haccepts hsame
    exact ⟨formals, hformals⟩
  · rintro ⟨formals, ⟨tokens, henclosed, hunread⟩, hadmits, hnext⟩
    refine (leads_of_ok hread).mp (silently_enclosedParameters henclosed ?_ hnext hexplained hvalid hadmits)
    exact ⟨later.cursor.upcoming, by rw [hunread, Cursor.unread, ← List.append_cons]⟩
  · obtain ⟨formals, hformals, hbinds⟩ := haccepts hsame
    refine ⟨formals, hformals, fun known hknown => ?_⟩
    rw [htable] at hknown ⊢
    obtain rfl : known.parameters = ids := by
      have hlt : routine < read.table.entries.size := by
        by_contra hnot
        rw [SymbolTable.entry_of_size_le (by simpa [SymbolTable.modifyRoutine] using hnot)] at hknown
        cases hknown
      rw [SymbolTable.modifyRoutine, SymbolTable.entry_modifyEntry_self hlt, Entry.routine?_mapRoutine,
        Option.map_eq_some_iff] at hknown
      obtain ⟨_, -, rfl⟩ := hknown
      rfl
    exact hbinds.imp fun id formal hbound => hbound.modifyRoutine _ _

/-- The list `(int a, )`, which the grammar does not have, is accepted. -/
theorem formalParameters_trailing :
    let word (kind : TokenKind) : Token := ⟨kind, kind.text, ⟨1, 1⟩, none⟩
    let name : Token := ⟨.identifier, "a", ⟨1, 1⟩, none⟩
    let inside : List Token := [word .intWord, name, word .comma]
    let stream : TokenStream := .ofTokens (inside ++ [word .rightParen, word .leftBrace])
    let session : Session :=
      { cursor := { stream, current := word .leftParen }, table := SymbolTable.unitTable.push.2 }
    ∃ later, formalParameters SymbolTable.programId session = .ok ((), later) ∧
      later.diagnostics = session.diagnostics ∧
        session.cursor.unread = word .leftParen :: (inside ++ word .rightParen :: later.cursor.unread) ∧
          ∀ formals, ¬ Formal.Sentence formals inside := by
  intro word name inside stream session
  have hread : ∃ outcome, formalParameters SymbolTable.programId session = .ok outcome ∧
      outcome.2.diagnostics = session.diagnostics ∧
        session.cursor.unread = word .leftParen :: (inside ++ word .rightParen :: outcome.2.cursor.unread) :=
    exists_answer (by decide +kernel)
  obtain ⟨⟨_, later⟩, hrun, hsame, hunread⟩ := hread
  have hnone {formals : List Formal} {first second third : Token} :
      ¬ Formal.Sentence formals [first, second, third] := by
    rintro (_ | _ | ⟨_ | ⟨_, _, hrest⟩⟩)
    cases hrest
  exact ⟨later, hrun, hsame, hunread, fun _ => hnone⟩

/-- The list `(int a, )` is one parameter with a comma after it. -/
theorem formalParameters_silent_iff_trailing :
    let word (kind : TokenKind) : Token := ⟨kind, kind.text, ⟨1, 1⟩, none⟩
    let name : Token := ⟨.identifier, "a", ⟨1, 1⟩, none⟩
    let stream : TokenStream :=
      .ofTokens [word .intWord, name, word .comma, word .rightParen, word .leftBrace]
    let session : Session :=
      { cursor := { stream, current := word .leftParen }, table := SymbolTable.unitTable.push.2 }
    ∃ later formals, formalParameters SymbolTable.programId session = .ok ((), later) ∧
      Accepts session formals later ∧
        ∀ known, (later.table.entry SymbolTable.programId).routine? = some known →
          List.Forall₂ (session.table.BindsFormal later.table) known.parameters formals := by
  intro word name stream session
  have hread : ∃ outcome, formalParameters SymbolTable.programId session = .ok outcome ∧
      outcome.2.diagnostics = session.diagnostics := exists_answer (by decide +kernel)
  obtain ⟨⟨_, later⟩, hrun, hsame⟩ := hread
  have hexplained : ∀ token ∈ session.cursor.unread, token.Explained := by
    simp only [Token.Explained]
    decide +kernel
  obtain ⟨formals, haccepts, hbinds⟩ :=
    (formalParameters_silent_iff SymbolTable.valid_unitTable.push hexplained hrun).2 hsame
  exact ⟨later, formals, hrun, haccepts, hbinds⟩

end Production

end FrontEnd
