import FrontEnd.Compile.Routine
import FrontEnd.Proofs.Mirrors.Statement

/-!
# Routines side by side

Every production for routines is mirrored.  A routine that has no usable name is given an invented one,
whose number is part of the session; two compilations that correspond have invented the same names.
-/

namespace FrontEnd.Production

open Coupling

variable {c : Coupling}

/-! ## Names -/

theorem mirrors_inventName (stem : String) : c.Mirrors Eq (inventName stem) (inventName stem) := by
  refine mirrors_change (fun _ => .of_eq rfl rfl) fun session session' h => ?_
  rw [h.dummies]
  exact ⟨rfl, { h with dummies := rfl }⟩

theorem mirrors_routineKind : c.Mirrors Eq routineKind routineKind := by
  refine mirrors_currentKind.bind_eq fun kind => ?_
  split
  · exact mirrors_nextToken.bind fun _ _ _ => (mirrors_inventName _).bind_eq fun _ => .pure rfl
  · exact (mirrors_inventName _).bind_eq fun _ => .pure rfl
  · exact .pure rfl

theorem mirrors_namedRoutine {name name' : Token} (hname : c.token name name') :
    c.Mirrors Eq (namedRoutine name) (namedRoutine name') := by
  refine mirrors_table.bind fun table table' htable => ?_
  rw [htable.lookupLocal_eq (c.lower_eq hname)]
  cases table'.lookupLocal name'.text with
  | none => exact (mirrors_enterLocal (c.lower_eq hname)).bind_eq fun _ => .pure rfl
  | some id =>
      have hforward := (htable.entry id).routine?_eq Routine.isForward fun _ => rfl
      have hany : (table.entry id).routine?.any Routine.isForward =
          (table'.entry id).routine?.any Routine.isForward := by
        simpa [Option.any_map, Function.comp_def] using congrArg (Option.any fun forward => forward) hforward
      dsimp only
      rw [hany]
      exact .ite (fun _ => .pure rfl) fun _ => (mirrors_flag _).bind_eq fun _ => .pure rfl

theorem mirrors_givenName : c.Mirrors Eq givenName givenName := by
  refine mirrors_current.bind fun name name' hname => ?_
  rw [c.kind_eq hname]
  refine .ite (fun _ => ?_) fun _ => (mirrors_flag _).bind_eq fun _ => .pure rfl
  refine (mirrors_namedRoutine hname).bind_eq fun found => ?_
  have hlines : c.Mirrors Eq
      (found.forM fun found => changeEntry found.1 (·.addLine name.line))
      (found.forM fun found => changeEntry found.1 (·.addLine name'.line)) := by
    cases found with
    | none => exact .pure rfl
    | some found => exact mirrors_addLine found.1 hname
  refine hlines.bind_eq fun _ => mirrors_nextToken.bind fun _ _ _ => ?_
  exact (mirrors_synchronize _).bind fun _ _ _ => .pure rfl

theorem mirrors_routineName (invented : String) :
    c.Mirrors Eq (routineName invented) (routineName invented) := by
  refine mirrors_givenName.bind_eq fun found => ?_
  cases found with
  | some found => exact .pure rfl
  | none => exact (mirrors_enterOrDetach rfl).bind_eq fun _ => .pure rfl

/-! ## Parameters -/

theorem mirrors_typedParameter : c.Mirrors Eq typedParameter typedParameter := by
  refine mirrors_typeSpecifier.bind_eq fun type => ?_
  refine mirrors_current.bind fun name name' hname => ?_
  rw [c.kind_eq hname]
  refine .ite (fun _ => ?_) fun _ => (mirrors_flag _).bind_eq fun _ => .pure rfl
  refine (mirrors_declareStorage hname _ _).bind_eq fun _ => ?_
  exact mirrors_nextToken.bind fun _ _ _ => .pure rfl

theorem mirrors_untypedParameter : c.Mirrors Eq untypedParameter untypedParameter :=
  (mirrors_flag _).bind_eq fun _ => mirrors_nextToken.bind fun _ _ _ =>
    (mirrors_matchToken _).bind_eq fun _ => .pure rfl

theorem mirrors_parameterEntry : c.Mirrors Eq parameterEntry parameterEntry := by
  refine mirrors_currentKind.bind_eq fun kind => ?_
  split
  case h_4 => exact mirrors_untypedParameter.bind_eq fun _ => .pure rfl
  all_goals exact mirrors_typedParameter

theorem mirrors_parameterEnd : c.Mirrors Eq parameterEnd parameterEnd := by
  refine (mirrors_synchronize _).bind fun token token' htoken => ?_
  rw [c.kind_eq htoken]
  exact .ite (fun _ => mirrors_nextToken.bind fun _ _ _ => .pure rfl)
    fun _ => mirrors_ensure rfl htoken _

theorem mirrors_parameter (parameters : List EntryId) :
    c.Mirrors (Turned Eq) (parameter parameters) (parameter parameters) :=
  mirrors_currentKind.bind_eq fun _ => .ite
    (fun _ => mirrors_parameterEntry.bind_eq fun _ => mirrors_parameterEnd.bind_eq fun _ =>
      .pure (.yield rfl))
    fun _ => .pure (.done rfl)

theorem mirrors_loneVoid : c.Mirrors Eq loneVoid loneVoid := by
  have hlook : loneVoid = currentKind >>= fun kind =>
      if kind == .voidWord then do
        if (← peekKind) == .rightParen then
          let _ ← nextToken
      else pure () := rfl
  rw [hlook]
  refine mirrors_currentKind_bind fun kind => ?_
  by_cases hkind : kind = .voidWord
  · subst hkind
    exact .inr ⟨by simp, _, rfl, fun _ =>
      .ite (fun _ => mirrors_nextToken.bind fun _ _ _ => .pure rfl) fun _ => .pure rfl⟩
  · exact .inl (.ite (fun hsame => absurd (beq_iff_eq.mp hsame) hkind) fun _ => .pure rfl)

theorem mirrors_parameterList : c.Mirrors Eq parameterList parameterList := by
  refine mirrors_loneVoid.bind_eq fun _ => ?_
  refine (mirrors_synchronize _).bind fun _ _ _ => ?_
  refine (mirrors_loop (fun _ _ h => h ▸ mirrors_parameter _) rfl).bind_eq fun parameters => ?_
  exact (mirrors_expect _ _).bind_eq fun _ => .pure rfl

theorem mirrors_enclosedParameters : c.Mirrors Eq enclosedParameters enclosedParameters := by
  refine (mirrors_synchronize _).bind fun token token' htoken => ?_
  rw [c.kind_eq htoken]
  exact .ite (fun _ => mirrors_nextToken.bind fun _ _ _ => mirrors_parameterList)
    fun _ => (mirrors_flag _).bind_eq fun _ => .pure rfl

/-- What is known about a routine is changed without a look at the lines of its body. -/
theorem mirrors_amend (routine : EntryId) (change change' : Routine → Routine)
    (h : ∀ known, (change known).unlined = change' known.unlined) :
    c.Mirrors Eq (changeRoutine routine change) (changeRoutine routine change) :=
  mirrors_changeRoutine routine fun _ _ hknown =>
    ⟨by rw [h, h, hknown.unlined_eq], fun haligned => by rw [hknown.eq haligned]⟩

theorem mirrors_formalParameters (routine : EntryId) :
    c.Mirrors Eq (formalParameters routine) (formalParameters routine) :=
  mirrors_enclosedParameters.bind_eq fun parameters =>
    mirrors_amend routine _ (fun known => { known with parameters }) fun _ => rfl

/-! ## Headers and bodies -/

theorem mirrors_retype (id : EntryId) (type : Option DataType) :
    c.Mirrors Eq (changeEntry id fun entry => { entry with type })
      (changeEntry id fun entry => { entry with type }) :=
  mirrors_changeEntry id fun _ _ h =>
    h.change (fun entry => { entry with type }) (fun entry => { entry with type }) fun _ => rfl

theorem mirrors_functionType (routine : EntryId) (type : DataType) :
    c.Mirrors Eq (functionType routine type) (functionType routine type) := by
  refine mirrors_current.bind fun token token' htoken => ?_
  exact (mirrors_ensure rfl htoken _).bind_eq fun _ => mirrors_retype routine _

theorem mirrors_header (routine : EntryId) (kind : DefinitionKind) (type : Option DataType) :
    c.Mirrors Eq (header routine kind type) (header routine kind type) :=
  (mirrors_formalParameters routine).bind_eq fun _ =>
    .ite (fun _ => mirrors_functionType routine _) fun _ => .pure rfl

theorem mirrors_setStage (routine : EntryId) (stage : RoutineStage) :
    c.Mirrors Eq (setStage routine stage) (setStage routine stage) :=
  mirrors_amend routine _ (fun known => { known with stage := some stage }) fun _ => rfl

theorem mirrors_setBody (routine : EntryId) {body body' : Node} (hbody : c.Nodes body body') :
    c.Mirrors Eq (changeRoutine routine fun known => { known with body := some body })
      (changeRoutine routine fun known => { known with body := some body' }) := by
  refine mirrors_changeRoutine routine fun known known' h => ⟨?_, fun haligned => ?_⟩
  · have hknown := h.unlined_eq
    simp only [Routine.unlined, Routine.mk.injEq, Option.map_some, hbody.unlined_eq] at hknown ⊢
    simp [hknown]
  · rw [h.eq haligned, hbody.eq haligned]

theorem mirrors_bodyOrForward (routine : EntryId) :
    c.Mirrors Eq (bodyOrForward routine) (bodyOrForward routine) := by
  refine mirrors_currentKind.bind_eq fun kind => ?_
  split
  · refine (mirrors_setStage routine _).bind_eq fun _ => ?_
    exact (mirrors_compound routine).bind fun _ _ hbody => mirrors_setBody routine hbody
  · exact (mirrors_setStage routine _).bind_eq fun _ => mirrors_nextToken.bind fun _ _ _ => .pure rfl
  · exact mirrors_setStage routine _

theorem unlined_markedEntry (kind : DefinitionKind) (forwarded : Bool) (entry : Entry) :
    (markedEntry kind forwarded entry).unlined = markedEntry kind forwarded entry.unlined := by
  unfold markedEntry
  split
  · unfold Entry.setRoutineKind
    rw [Entry.routine?_unlined]
    cases entry.routine? <;> cases kind <;> rfl
  · cases kind <;> rfl

theorem mirrors_markRoutine (routine : EntryId) (kind : DefinitionKind) (forwarded : Bool) :
    c.Mirrors Eq (markRoutine routine kind forwarded) (markRoutine routine kind forwarded) := by
  refine (mirrors_changeEntry routine fun _ _ h => h.change (markedEntry kind forwarded)
    (markedEntry kind forwarded) (unlined_markedEntry kind forwarded)).bind_eq fun _ => ?_
  exact .ite (fun _ => mirrors_retype routine _) fun _ => .pure rfl

theorem mirrors_openScope (routine : EntryId) :
    c.Mirrors Eq (openScope routine) (openScope routine) := by
  refine (mirrors_onTable fun _ _ h => ⟨h.push_eq, h.push⟩).bind_eq fun scope => ?_
  exact mirrors_amend routine _
    (fun known => { known with scope := some scope, body := none, parameters := [] }) fun _ => rfl

theorem mirrors_beginProgram (main : EntryId) :
    c.Mirrors Eq (beginProgram main) (beginProgram main) := by
  refine mirrors_table.bind fun table table' htable => ?_
  rw [htable.program_eq]
  have hmain : c.Mirrors Eq
      (table'.program.forM fun program =>
        changeRoutine program fun known => { known with mainRoutine := some main })
      (table'.program.forM fun program =>
        changeRoutine program fun known => { known with mainRoutine := some main }) := by
    cases table'.program with
    | none => exact .pure rfl
    | some program =>
        exact mirrors_amend program _ (fun known => { known with mainRoutine := some main })
          fun _ => rfl
  exact hmain.bind_eq fun _ => mirrors_takeSlot.bind_eq fun _ => .pure rfl

theorem mirrors_openRoutine (parent routine : EntryId) (kind : DefinitionKind) (forwarded : Bool) :
    c.Mirrors Eq (openRoutine parent routine kind forwarded)
      (openRoutine parent routine kind forwarded) := by
  refine (mirrors_entry routine).bind fun entry entry' hentry => ?_
  rw [hentry.name_eq]
  refine (mirrors_openScope routine).bind_eq fun _ => ?_
  refine .ite (fun _ => mirrors_beginProgram routine) fun _ => .ite (fun _ => ?_) fun _ => .pure rfl
  exact mirrors_amend parent _ (fun known => { known with routines := known.routines ++ [routine] })
    fun _ => rfl

theorem mirrors_routine (parent : EntryId) (type : Option DataType) :
    c.Mirrors Eq (routine parent type) (routine parent type) := by
  refine mirrors_routineKind.bind_eq fun kind => ?_
  refine (mirrors_routineName kind.2).bind_eq fun named => ?_
  refine (mirrors_markRoutine named.1 kind.1 named.2).bind_eq fun _ => ?_
  refine (mirrors_openRoutine parent named.1 kind.1 named.2).bind_eq fun _ => ?_
  refine mirrors_current.bind fun token token' htoken => ?_
  rw [c.kind_eq htoken]
  refine (mirrors_ensure rfl htoken _).bind_eq fun _ => ?_
  refine (mirrors_header named.1 kind.1 type).bind_eq fun _ => ?_
  refine (mirrors_bodyOrForward named.1).bind_eq fun _ => ?_
  exact (mirrors_onTable fun _ _ h => ⟨h.pop_eq, h.pop⟩).bind_eq fun _ => .pure rfl

end FrontEnd.Production
