import FrontEnd.Proofs.Declaring

/-!
# What binds names

A scope comes to bind a name where the name is declared, where it is used without a meaning, and where a routine
without a usable name is given an invented one (`Act`).  A `Naming` is one of these, with the session before and the
session after it.  Each is the run of a production of the grammar on the token at which the session stands
(`Naming.Runs`), and `Naming.Runs.binds` says what becomes of the names and of the reports of names that are declared
again.

A trail goes through the namings between two sessions in order, and between them no name is bound, no entry changes
its kind and no name is reported that is declared again (`Trail`).  So the scopes bind what is named in them
(`Trail.bound_iff`), what is reported is what is refused (`Trail.redefinitions_eq`), and what a name is bound to has
been made by a naming of it (`Trail.exists_naming`).
-/

namespace FrontEnd

open Production

/-! ## Namings -/

/-- What binds a name: it is declared as something, it is used without a meaning, or it is invented for a routine. -/
inductive Act where
  | declares (name : Token) (kind : DefinitionKind)
  | uses (name : Token)
  | invents (name : String) (kind : DefinitionKind)

namespace Act

/-- The name in lower case. -/
def key : Act → String
  | declares name _ | uses name => Text.lower name.text
  | invents name _ => Text.lower name

/-- The kind of the entry that the name gets. -/
def kind : Act → DefinitionKind
  | declares _ kind | invents _ kind => kind
  | uses _ => .undefined

end Act

/-- An act with the session before and the session after it. -/
structure Naming where
  before : Session
  act : Act
  after : Session

namespace Naming

/-- The scope that is innermost. -/
def scope (naming : Naming) : ScopeId := naming.before.table.localScopeId

/-- The name in lower case. -/
def key (naming : Naming) : String := naming.act.key

/-- The report of a declaration whose name the scope binds already.  The routine that has been declared forward can
be declared once more. -/
def refusal (naming : Naming) : Option Diagnostic :=
  match naming.act with
  | .declares name kind => (naming.before.table.lookupLocal name.text).bind fun id =>
      if kind.isRoutine && (naming.before.table.entry id).routine?.any Routine.isForward then none
      else some { kind := .identifierRedefined, location := name.location, text := name.text }
  | .uses _ | .invents _ _ => none

/-- Whether this is what the production for an act does: one of those that declare variables, parameters, types and
constants; what reads the name of a routine whose kind has been read, and marks its entry with the kind; what looks a
name up that has no meaning; and what marks the entry of an invented name for a routine whose own cannot be used. -/
inductive Runs : Naming → Prop
  | declaration {name : Token} {kind : DefinitionKind} {before after : Session} : name.kind = .identifier →
      Declaring name kind before after → Runs ⟨before, .declares name kind, after⟩
  | routine {kind : DefinitionKind} {invented : String} {found : Option (EntryId × Bool)}
      {start before given after : Session} : routineKind start = .ok ((kind, invented), before) →
      before.cursor.current.kind = .identifier → givenName before = .ok (found, given) →
      (found.forM fun found => markRoutine found.1 kind found.2) given = .ok ((), after) →
      Runs ⟨before, .declares before.cursor.current kind, after⟩
  | use {id : EntryId} {before after : Session} : before.table.lookup before.cursor.current.text = none →
      resolveIdentifier before = .ok (id, after) → Runs ⟨before, .uses before.cursor.current, after⟩
  | invention {kind : DefinitionKind} {invented : String} {id : EntryId} {start started before named after : Session} :
      routineKind start = .ok ((kind, invented), started) → givenName started = .ok (none, before) →
      before.table.lookupLocal invented = none → enterOrDetach invented before = .ok (id, named) →
      markRoutine id kind false named = .ok ((), after) → Runs ⟨before, .invents invented kind, after⟩

/-- What becomes of names and of the reports of those that are declared again: what is refused is reported, and nothing
is declared; otherwise the scope comes to bind the name to an entry of its kind. -/
structure Binds (naming : Naming) : Prop where
  readsOn : naming.before.cursor.ReadsOn naming.after.cursor
  redefinitions : naming.after.redefinitions = naming.before.redefinitions ++ naming.refusal.toList
  refused : naming.refusal ≠ none → Session.DeclaresNothing naming.refusal.toList naming.before naming.after
  entered : naming.refusal = none → ∃ id,
    naming.before.table.ComesToBind naming.scope naming.key naming.act.kind id naming.after.table

variable {naming : Naming}

/-- What can be refused has a name that the scope binds. -/
theorem bound_of_refusal (h : naming.refusal ≠ none) : naming.before.table.bound? naming.scope naming.key ≠ none := by
  obtain ⟨before, act, after⟩ := naming
  cases act with
  | declares name kind =>
      intro hfree
      have hlocal : before.table.lookupLocal name.text = none := hfree
      simp [refusal, hlocal] at h
  | uses | invents => exact absurd rfl h

/-- Where nothing is refused, the scope comes to bind the name. -/
theorem binds_of_entered {id : EntryId} (hreads : naming.before.cursor.ReadsOn naming.after.cursor)
    (hrefusal : naming.refusal = none) (hreports : naming.after.redefinitions = naming.before.redefinitions)
    (hbinds : naming.before.table.ComesToBind naming.scope naming.key naming.act.kind id naming.after.table) :
    naming.Binds where
  readsOn := hreads
  redefinitions := by rw [hrefusal, hreports, Option.toList_none, List.append_nil]
  refused h := absurd hrefusal h
  entered _ := ⟨id, hbinds⟩

theorem binds_of_refused {report : Diagnostic} (hreads : naming.before.cursor.ReadsOn naming.after.cursor)
    (hrefusal : naming.refusal = some report)
    (hnothing : Session.DeclaresNothing [report] naming.before naming.after) : naming.Binds where
  readsOn := hreads
  redefinitions := by rw [hrefusal, hnothing.redefinitions, Option.toList_some]
  refused _ := by rwa [hrefusal]
  entered h := by simp [hrefusal] at h

/-! ## What the productions bind -/

section

variable {before after : Session} {name : Token} {kind : DefinitionKind}

theorem binds_declaration (hinside : before.Inside) (hname : name.kind = .identifier)
    (h : Declaring name kind before after) : Binds ⟨before, .declares name kind, after⟩ := by
  have hdeclares := h.declares hname
  -- only a routine can be declared once more
  have hplain : kind.isRoutine = false := by cases h <;> rfl
  cases hlocal : before.table.lookupLocal name.text with
  | some id =>
      refine binds_of_refused h.readsOn ?_ (hdeclares.refused (by simp [hlocal]))
      simp [refusal, hlocal, hplain, Diagnostic.atToken]
  | none =>
      obtain ⟨hbinds, hreports⟩ := hdeclares.entered hinside hlocal
      exact binds_of_entered h.readsOn (by simp [refusal, hlocal]) hreports hbinds

theorem isRoutine_routineKind (session : Session) :
    Leads routineKind session (fun _ => True) fun found _ => found.1.isRoutine = true := by
  unfold routineKind
  rw [leads_bind, leads_currentKind]
  split
  · exact (leads_run nextToken session).bind fun _ _ _ => rfl
  · exact rfl
  · exact rfl

/-- The name of a routine is given to a new entry or to that of a routine declared forward, or it is refused. -/
theorem binds_routine {found : Option (EntryId × Bool)} {given : Session} (hinside : before.Inside)
    (hkind : kind.isRoutine = true) (hidentifier : before.cursor.current.kind = .identifier)
    (hgives : before.Gives found given)
    (hmarked : (found.forM fun found => markRoutine found.1 kind found.2) given = .ok ((), after)) :
    Binds ⟨before, .declares before.cursor.current kind, after⟩ := by
  cases hgives with
  | entered _ hlocal hreads =>
      cases (run_markRoutine given _ kind false).symm.trans hmarked
      have hsize : before.table.entries.size < given.table.entries.size := by simp [hreads.table_eq]
      refine binds_of_entered hreads.readsOn (by simp [refusal, hlocal]) hreads.redefinitions_eq
        (.of_bindNew hinside.localScopeId.2 hlocal ?_ ?_)
      · refine SymbolTable.SameNames.trans ?_ (.marked _ _ _ _)
        rw [hreads.table_eq]
        exact .addLine _ _ _
      · rw [Entry.kind, (SymbolTable.entry_marked kind false hsize).2.2]
        exact kind_ofRoutine_of_isRoutine hkind _
  | @reused id _ _ hlocal hforward hreads =>
      cases (run_markRoutine given id kind true).symm.trans hmarked
      have hroutine : (before.table.entry id).routine?.isSome := by
        cases hnone : (before.table.entry id).routine? <;> simp [hnone] at hforward ⊢
      have hlt := SymbolTable.lt_of_routine? hroutine
      have hsize : id < given.table.entries.size := by simpa [hreads.table_eq] using hlt
      refine binds_of_entered hreads.readsOn (by simp [refusal, hlocal, hkind, hforward]) hreads.redefinitions_eq
        (.of_routine hlocal hlt ?_ hkind ?_ ?_)
      · cases hplain : (before.table.entry id).kind.isRoutine with
        | true => rfl
        | false => simp [Entry.routine?_eq_none_of_kind hplain] at hroutine
      · refine SymbolTable.SameNames.trans ?_ (.marked _ _ _ _)
        rw [hreads.table_eq]
        exact .addLine _ _ _
      · rw [Entry.kind, (SymbolTable.entry_marked kind true hsize).2.2]
        exact kind_ofRoutine_of_isRoutine hkind _
  | taken _ hlocal hforward hreads =>
      cases hmarked
      have hreports := hreads.redefinitions_eq.trans (Session.redefinitions_report _ _ _)
      refine binds_of_refused hreads.readsOn ?_ (.of_table hreads.table_eq hreports)
      simp [refusal, hlocal, hforward, Diagnostic.atToken]
  | missing hmissing => exact absurd hidentifier hmissing

/-- A name that has no meaning gets an entry of its own, which is undefined. -/
theorem binds_use (hinside : before.Inside) (hmeaning : before.table.lookup before.cursor.current.text = none) :
    Leads resolveIdentifier before (fun _ => True) fun _ after =>
      Binds ⟨before, .uses before.cursor.current, after⟩ := by
  have hlocal := SymbolTable.lookupLocal_of_lookup_none hmeaning
  unfold resolveIdentifier identifierEntry
  rw [leads_bind, leads_current, leads_bind, leads_bind, leads_lookup, hmeaning]
  simp only [leads_bind, leads_flagAt, leads_enterOrDetach, leads_changeEntry, leads_pure,
    SymbolTable.enterInvented, hlocal]
  refine binds_of_entered .refl rfl ?_ (.of_bindNew hinside.localScopeId.2 hlocal ?_ ?_)
  · exact (before.redefinitions_report before.cursor.current .identifierUndefined).trans (List.append_nil _)
  · exact (SymbolTable.SameNames.define _ _ .undefined .undefined).trans (.addLine _ _ _)
  · rw [SymbolTable.entry_modifyEntry_self (by simp), Entry.kind_addLine, SymbolTable.entry_modifyEntry_self (by simp)]
    rfl

/-- An invented name that is free gets an entry, which is marked as that of a routine. -/
theorem binds_invention {invented : String} (hinside : before.Inside) (hkind : kind.isRoutine = true)
    (hlocal : before.table.lookupLocal invented = none) :
    Leads (do markRoutine (← enterOrDetach invented) kind false) before (fun _ => True) fun _ after =>
      Binds ⟨before, .invents invented kind, after⟩ := by
  rw [leads_bind, leads_enterOrDetach, SymbolTable.enterInvented, hlocal]
  refine (leads_of_ok (run_markRoutine _ _ _ _)).mpr ?_
  refine binds_of_entered .refl rfl rfl (.of_bindNew hinside.localScopeId.2 hlocal (.marked _ _ _ _) ?_)
  rw [Entry.kind, (SymbolTable.entry_marked kind false (by simp)).2.2]
  exact kind_ofRoutine_of_isRoutine hkind _

end

/-- Whatever is done where a name is bound, it is bound as described. -/
theorem Runs.binds (h : naming.Runs) (hinside : naming.before.Inside) : naming.Binds := by
  cases h with
  | declaration hname hdeclaring => exact binds_declaration hinside hname hdeclaring
  | routine hstart hidentifier hgiven hmarked =>
      have hkind := (leads_of_ok hstart).mp (isRoutine_routineKind _)
      exact binds_routine hinside hkind hidentifier ((leads_of_ok hgiven).mp (gives_givenName _)) hmarked
  | use hmeaning hrun => exact (leads_of_ok hrun).mp (binds_use hinside hmeaning)
  | invention hstart _ hlocal hentered hmarked =>
      have hkind := (leads_of_ok hstart).mp (isRoutine_routineKind _)
      exact (leads_of_ok ((bind_of_ok hentered).trans hmarked)).mp (binds_invention hinside hkind hlocal)

/-- Whatever is named, the entries that stand for no routine are kept. -/
theorem Runs.conserves (h : naming.Runs) : naming.before.Conserves none naming.after := by
  have hmoves {α : Type} {production : Production α} {answer : α} {stores : List DefinitionKind}
      {before after : Session} (hstays : Stays stores SymbolTable.programId production)
      (hrun : production before = .ok (answer, after)) : before.Conserves none after := (hstays.of_run hrun).conserves
  cases h with
  | declaration _ hdeclaring =>
      cases hdeclaring with
      | plainVariable _ hrun => exact hmoves (stays_variableName _) hrun
      | parameter _ _ hrun => exact hmoves stays_typedParameter hrun
      | type _ hrun => exact hmoves (@stays_typeName [] _ _) hrun
      | constant _ _ hrun => exact hmoves (@stays_constantDefinition [] _ _) hrun
  | @routine kind invented found start before given after _ hidentifier hgiven hmarked =>
      cases (leads_of_ok hgiven).mp (gives_givenName before) with
      | entered _ hlocal hreads =>
          have hnames : before.Names invented (before.table.entries.size, false) given :=
            .entered hidentifier hlocal hreads
          cases (run_markRoutine given _ kind false).symm.trans hmarked
          exact hnames.conserves_marked kind
      | reused _ hlocal hforward hreads =>
          have hnames : before.Names invented (_, true) given := .reused hidentifier hlocal hforward hreads
          cases (run_markRoutine given _ kind true).symm.trans hmarked
          exact hnames.conserves_marked kind
      | taken _ _ _ hreads | missing _ hreads =>
          cases hmarked
          exact hreads.conserves
  | use _ hrun => exact hmoves (@stays_resolveIdentifier [] _) hrun
  | @invention kind invented id start started before named after _ _ hlocal hentered hmarked =>
      cases (run_markRoutine named id kind false).symm.trans hmarked
      suffices hleads : Leads (enterOrDetach invented) before (fun _ => True) fun id named =>
          before.table.Conserves none (named.table.marked id kind false) from (leads_of_ok hentered).mp hleads
      rw [leads_enterOrDetach]
      exact (SymbolTable.Conserves.trans (.enterInvented invented) (.marked _ _ _)).settle
        fun hlt => absurd hlt (Nat.lt_irrefl _)

theorem Binds.inside (h : naming.Binds) (hinside : naming.before.Inside) :
    naming.after.Inside ∧ naming.after.table.openScopes = naming.before.table.openScopes := by
  by_cases hrefusal : naming.refusal = none
  · obtain ⟨id, hbinds⟩ := h.entered hrefusal
    exact ⟨hinside.of_scopes hbinds.openScopes (Nat.le_of_eq hbinds.scopes_size.symm), hbinds.openScopes⟩
  · have hnothing := h.refused hrefusal
    exact ⟨hinside.of_scopes hnothing.openScopes (Nat.le_of_eq (by rw [hnothing.scopes])), hnothing.openScopes⟩

end Naming

/-! ## Tables and their names -/

namespace SymbolTable

/-- Whether what the scopes bind bears the name and belongs to the scope. -/
def Labelled (table : SymbolTable) : Prop :=
  ∀ scope name id, table.bound? scope name = some id →
    id < table.entries.size ∧ (table.entry id).name = name ∧ (table.entry id).scope = scope

variable {table later : SymbolTable} {changed : Option EntryId}

theorem Labelled.sameBindings (h : table.Labelled) (hsame : table.SameBindings changed later) : later.Labelled := by
  intro scope name id hbound
  rw [hsame.bound?] at hbound
  obtain ⟨hlt, hname, hscope⟩ := h scope name id hbound
  obtain ⟨hname', hscope'⟩ := hsame.label id hlt
  exact ⟨Nat.lt_of_lt_of_le hlt hsame.size_le, hname'.trans hname, hscope'.trans hscope⟩

theorem Labelled.comesToBind (h : table.Labelled) {scope : ScopeId} {key : String} {kind : DefinitionKind}
    {id : EntryId} (hbinds : table.ComesToBind scope key kind id later) : later.Labelled := by
  intro other name found hbound
  rw [hbinds.bound?] at hbound
  split at hbound
  · next hsame =>
      obtain rfl := Option.some.inj hbound
      rcases hbinds.found with ⟨-, -, hname, hscope⟩ | ⟨hold, hlt, -⟩
      · exact ⟨hbinds.lt, hname.trans hsame.2.symm, hscope.trans hsame.1.symm⟩
      · obtain ⟨-, hname, hscope⟩ := h _ _ _ hold
        obtain ⟨hname', hscope'⟩ := hbinds.label _ hlt
        exact ⟨hbinds.lt, by rw [hname', hname, hsame.2], by rw [hscope', hscope, hsame.1]⟩
  · obtain ⟨hlt, hname, hscope⟩ := h other name found hbound
    obtain ⟨hname', hscope'⟩ := hbinds.label found hlt
    exact ⟨Nat.lt_of_lt_of_le hlt hbinds.size_le, hname'.trans hname, hscope'.trans hscope⟩

/-- What another name is bound to keeps its kind. -/
theorem Labelled.kind_eq (h : table.Labelled) {scope other : ScopeId} {key name : String} {kind : DefinitionKind}
    {id found : EntryId} (hbinds : table.ComesToBind scope key kind id later)
    (hbound : table.bound? other name = some found) (hne : ¬ (other = scope ∧ name = key)) :
    (later.entry found).kind = (table.entry found).kind := by
  obtain ⟨hlt, hname, hscope⟩ := h other name found hbound
  refine hbinds.other_kind found hlt fun hsame => ?_
  subst hsame
  rcases hbinds.found with ⟨-, hnew, -⟩ | ⟨hold, -⟩
  · exact absurd hlt (hnew ▸ Nat.lt_irrefl _)
  · obtain ⟨-, hname', hscope'⟩ := h scope key found hold
    exact hne ⟨hscope.symm.trans hscope', hname.symm.trans hname'⟩

end SymbolTable

/-! ## Trails -/

/-- Whether no name has been bound, none reported that is declared again, and every entry has kept its name, its scope
and its kind and, if it stands for no routine, all but its lines.  Scopes can have been opened and closed. -/
structure Session.KeepsNames (session later : Session) : Prop where
  readsOn : session.cursor.ReadsOn later.cursor
  bindings : session.table.SameBindings none later.table
  conserves : session.Conserves none later
  redefinitions : later.redefinitions = session.redefinitions

/-- The namings between two sessions, in order, if nothing else has bound a name. -/
inductive Trail (start : Session) : List Naming → Session → Prop
  | nil : Trail start [] start
  | keeps {log : List Naming} {session later : Session} : Trail start log session → session.KeepsNames later →
      Trail start log later
  | naming {log : List Naming} {naming : Naming} : Trail start log naming.before → naming.before.Inside →
      naming.Runs → Trail start (log ++ [naming]) naming.after

/-- The sessions before and after each of some namings, in order. -/
def Naming.points (log : List Naming) : List Session :=
  log.flatMap fun naming => [naming.before, naming.after]

namespace Trail

open Naming

variable {start session later : Session} {log log' : List Naming}

theorem trans (h : Trail start log session) (h' : Trail session log' later) : Trail start (log ++ log') later := by
  induction h' with
  | nil => rwa [List.append_nil]
  | keeps _ hkeeps ih => exact ih.keeps hkeeps
  | naming _ hinside hruns ih =>
      rw [← List.append_assoc]
      exact ih.naming hinside hruns

/-- A trail can be cut at each of its namings. -/
theorem split (h : Trail start log later) {earlier more : List Naming} {naming : Naming}
    (hsplit : log = earlier ++ naming :: more) :
    Trail start earlier naming.before ∧ naming.before.Inside ∧ naming.Runs ∧ Trail naming.after more later := by
  induction h generalizing more with
  | nil => simp at hsplit
  | keeps _ hkeeps ih =>
      obtain ⟨hbefore, hinside, hruns, hafter⟩ := ih hsplit
      exact ⟨hbefore, hinside, hruns, hafter.keeps hkeeps⟩
  | @naming log last hlog hinside hruns ih =>
      rcases List.eq_nil_or_concat more with rfl | ⟨more, other, rfl⟩
      · obtain ⟨rfl, hlast⟩ := List.append_inj' hsplit rfl
        obtain rfl := List.head_eq_of_cons_eq hlast
        exact ⟨hlog, hinside, hruns, .nil⟩
      · rw [List.concat_eq_append, ← List.cons_append, ← List.append_assoc] at hsplit
        obtain ⟨rfl, hlast⟩ := List.append_inj' hsplit rfl
        obtain rfl := List.head_eq_of_cons_eq hlast
        obtain ⟨hbefore, hinside', hruns', hafter⟩ := ih rfl
        rw [List.concat_eq_append]
        exact ⟨hbefore, hinside', hruns', hafter.naming hinside hruns⟩

/-- The cursor is read on. -/
theorem readsOn (h : Trail start log later) : start.cursor.ReadsOn later.cursor := by
  induction h with
  | nil => exact .refl
  | keeps _ hkeeps ih => exact ih.trans hkeeps.readsOn
  | naming _ hinside hruns ih => exact ih.trans (hruns.binds hinside).readsOn

/-- At each of the namings, and at the end, the entries are kept that stand for no routine. -/
theorem pairwise (h : Trail start log later) : (points log ++ [later]).Pairwise (Session.Conserves none) := by
  -- what is kept to the end of a trail is kept beyond it
  have hextend {sessions : List Session} {session later : Session} (hconserves : session.Conserves none later)
      (h : (sessions ++ [session]).Pairwise (Session.Conserves none)) :
      (sessions ++ [later]).Pairwise (Session.Conserves none) := by
    obtain ⟨hsessions, -, hlast⟩ := List.pairwise_append.mp h
    refine List.pairwise_append.mpr ⟨hsessions, List.pairwise_singleton _ _, fun earlier hmem final hfinal => ?_⟩
    rw [List.mem_singleton.mp hfinal]
    exact (hlast earlier hmem session (by simp)).trans hconserves
  have hrepeat {sessions : List Session} {session : Session}
      (h : (sessions ++ [session]).Pairwise (Session.Conserves none)) :
      (sessions ++ [session] ++ [session]).Pairwise (Session.Conserves none) := by
    obtain ⟨hsessions, -, hlast⟩ := List.pairwise_append.mp h
    refine List.pairwise_append.mpr ⟨h, List.pairwise_singleton _ _, fun earlier hmem final hfinal => ?_⟩
    rw [List.mem_singleton.mp hfinal]
    rcases List.mem_append.mp hmem with hmem | hmem
    · exact hlast earlier hmem session (by simp)
    · rw [List.mem_singleton.mp hmem]
  induction h with
  | nil => exact List.pairwise_singleton _ _
  | keeps _ hkeeps ih => exact hextend hkeeps.conserves ih
  | @naming log last _ _ hruns ih =>
      have hpoints : points (log ++ [last]) = points log ++ [last.before] ++ [last.after] := by
        simp [points, List.flatMap_append]
      rw [hpoints]
      exact hrepeat (hextend hruns.conserves (hrepeat ih))

/-- A scope that binds nothing at first binds what has been named in it. -/
theorem bound_iff (h : Trail start log later) {scope : ScopeId} {name : String}
    (hfree : start.table.bound? scope name = none) :
    later.table.bound? scope name ≠ none ↔ ∃ naming ∈ log, naming.scope = scope ∧ naming.key = name := by
  induction h with
  | nil => simp [hfree]
  | keeps _ hkeeps ih => rwa [hkeeps.bindings.bound?]
  | @naming log last _ hinside hruns ih =>
      have hlater : last.after.table.bound? scope name ≠ none ↔
          last.before.table.bound? scope name ≠ none ∨ last.scope = scope ∧ last.key = name := by
        by_cases hrefusal : last.refusal = none
        · obtain ⟨id, hbinds⟩ := (hruns.binds hinside).entered hrefusal
          rw [hbinds.bound?, @eq_comm _ last.scope, @eq_comm _ last.key]
          split <;> simp [*]
        · have hsame : last.before.table.SameNames none last.after.table :=
            ((hruns.binds hinside).refused hrefusal).sameNames
          rw [hsame.bound?, iff_self_or]
          rintro ⟨rfl, rfl⟩
          exact Naming.bound_of_refusal hrefusal
      rw [hlater, ih]
      simp only [List.mem_append, List.mem_singleton, or_and_right, exists_or, exists_eq_left]

/-- What is reported is what is refused. -/
theorem redefinitions_eq (h : Trail start log later) :
    later.redefinitions = start.redefinitions ++ log.filterMap Naming.refusal := by
  induction h with
  | nil => simp
  | keeps _ hkeeps ih => rw [hkeeps.redefinitions, ih]
  | @naming log last _ hinside hruns ih =>
      rw [(hruns.binds hinside).redefinitions, ih, List.filterMap_append, List.append_assoc]
      cases hrefusal : last.refusal <;> simp [hrefusal]

theorem labelled (h : Trail start log later) (hstart : start.table.Labelled) : later.table.Labelled := by
  induction h with
  | nil => exact hstart
  | keeps _ hkeeps ih => exact ih.sameBindings hkeeps.bindings
  | @naming log last _ hinside hruns ih =>
      by_cases hrefusal : last.refusal = none
      · obtain ⟨id, hbinds⟩ := (hruns.binds hinside).entered hrefusal
        exact ih.comesToBind hbinds
      · have hsame : last.before.table.SameNames none last.after.table :=
          ((hruns.binds hinside).refused hrefusal).sameNames
        exact ih.sameBindings hsame.toSameBindings

/-- What a name is bound to it stays bound to, and what stands for no routine keeps its kind. -/
theorem stays (h : Trail start log later) (hstart : start.table.Labelled) {scope : ScopeId} {name : String}
    {id : EntryId} (hbound : start.table.bound? scope name = some id) :
    later.table.bound? scope name = some id ∧
      ((start.table.entry id).kind.isRoutine = false → (later.table.entry id).kind = (start.table.entry id).kind) := by
  induction h with
  | nil => exact ⟨hbound, fun _ => rfl⟩
  | @keeps log session later hlog hkeeps ih =>
      obtain ⟨hbound, hkind⟩ := ih
      obtain ⟨hlt, -⟩ := hlog.labelled hstart _ _ _ hbound
      exact ⟨by rwa [hkeeps.bindings.bound?], fun hplain =>
        (hkeeps.bindings.kind id hlt (by simp)).trans (hkind hplain)⟩
  | @naming log last hlog hinside hruns ih =>
      obtain ⟨hbound, hkind⟩ := ih
      have hlabelled := hlog.labelled hstart
      obtain ⟨hlt, -⟩ := hlabelled _ _ _ hbound
      by_cases hrefusal : last.refusal = none
      · obtain ⟨found, hbinds⟩ := (hruns.binds hinside).entered hrefusal
        rw [hbinds.bound?]
        split
        · -- only the name of a routine is entered where it is bound
          next hsame =>
            obtain ⟨rfl, rfl⟩ := hsame
            rcases hbinds.found with ⟨hfree, -⟩ | ⟨hold, -, hroutine, -⟩
            · exact absurd (hfree.symm.trans hbound) nofun
            · obtain rfl : found = id := Option.some.inj (hold.symm.trans hbound)
              refine ⟨rfl, fun hplain => ?_⟩
              rw [hkind hplain, hplain] at hroutine
              exact absurd hroutine nofun
        · next hne => exact ⟨hbound, fun hplain => (hlabelled.kind_eq hbinds hbound hne).trans (hkind hplain)⟩
      · have hsame : last.before.table.SameNames none last.after.table :=
          ((hruns.binds hinside).refused hrefusal).sameNames
        exact ⟨by rwa [hsame.bound?], fun hplain => (hsame.kind id hlt (by simp)).trans (hkind hplain)⟩

/-- What stands for a routine does so later. -/
theorem isRoutine (h : Trail start log later) {id : EntryId} (hid : id < start.table.entries.size)
    (hroutine : (start.table.entry id).kind.isRoutine = true) :
    id < later.table.entries.size ∧ (later.table.entry id).kind.isRoutine = true := by
  induction h with
  | nil => exact ⟨hid, hroutine⟩
  | keeps _ hkeeps ih =>
      exact ⟨Nat.lt_of_lt_of_le ih.1 hkeeps.bindings.size_le, by rw [hkeeps.bindings.kind id ih.1 (by simp), ih.2]⟩
  | @naming log last _ hinside hruns ih =>
      by_cases hrefusal : last.refusal = none
      · obtain ⟨found, hbinds⟩ := (hruns.binds hinside).entered hrefusal
        refine ⟨Nat.lt_of_lt_of_le ih.1 hbinds.size_le, ?_⟩
        by_cases hsame : id = found
        · subst hsame
          rcases hbinds.found with ⟨-, hnew, -⟩ | ⟨-, -, -, hkind⟩
          · exact absurd ih.1 (hnew ▸ Nat.lt_irrefl _)
          · rw [hbinds.new_kind, hkind]
        · rw [hbinds.other_kind id ih.1 hsame, ih.2]
      · have hsame : last.before.table.SameNames none last.after.table :=
          ((hruns.binds hinside).refused hrefusal).sameNames
        exact ⟨Nat.lt_of_lt_of_le ih.1 hsame.size_le, by rw [hsame.kind id ih.1 (by simp), ih.2]⟩

/-- What a name is bound to has been made by a naming of it, and is of the kind that this has given to it. -/
theorem exists_naming (h : Trail start log later) (hstart : start.table.Labelled) {scope : ScopeId} {name : String}
    {id : EntryId} (hfree : start.table.bound? scope name = none) (hbound : later.table.bound? scope name = some id) :
    ∃ naming ∈ log, naming.refusal = none ∧ naming.scope = scope ∧ naming.key = name ∧
      naming.act.kind = (later.table.entry id).kind := by
  induction h with
  | nil => exact absurd (hfree.symm.trans hbound) nofun
  | @keeps log session later hlog hkeeps ih =>
      rw [hkeeps.bindings.bound?] at hbound
      obtain ⟨hlt, -⟩ := hlog.labelled hstart _ _ _ hbound
      rw [hkeeps.bindings.kind id hlt (by simp)]
      exact ih hbound
  | @naming log last hlog hinside hruns ih =>
      have hlabelled := hlog.labelled hstart
      have hearlier (hold : last.before.table.bound? scope name = some id)
          (hkind : (last.after.table.entry id).kind = (last.before.table.entry id).kind) :
          ∃ naming ∈ log ++ [last], naming.refusal = none ∧ naming.scope = scope ∧ naming.key = name ∧
            naming.act.kind = (last.after.table.entry id).kind := by
        obtain ⟨naming, hmem, hnaming⟩ := ih hold
        exact ⟨naming, List.mem_append_left _ hmem, hkind ▸ hnaming⟩
      by_cases hrefusal : last.refusal = none
      · obtain ⟨found, hbinds⟩ := (hruns.binds hinside).entered hrefusal
        rw [hbinds.bound?] at hbound
        split at hbound
        · next hsame =>
            obtain rfl := Option.some.inj hbound
            exact ⟨last, by simp, hrefusal, hsame.1.symm, hsame.2.symm, hbinds.new_kind.symm⟩
        · next hne => exact hearlier hbound (hlabelled.kind_eq hbinds hbound hne)
      · have hsame : last.before.table.SameNames none last.after.table :=
          ((hruns.binds hinside).refused hrefusal).sameNames
        rw [hsame.bound?] at hbound
        exact hearlier hbound (hsame.kind id (hlabelled _ _ _ hbound).1 (by simp))

end Trail

end FrontEnd
