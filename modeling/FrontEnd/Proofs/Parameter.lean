import FrontEnd.Compile.Routine
import FrontEnd.Proofs.Declaration

/-!
# What lists of parameters leave behind

The productions for parameters run inside the scope of their routine, where the table only grows.  Their
answers are entries for parameters.

A turn of the loop consumes a token even on input that is no parameter, except where a word for a numeric
type does not name a type; with proper names this does not happen (`traced_parameter`).
-/

namespace FrontEnd

theorem SymbolTable.HasParameters.later {first second : SymbolTable} {parameters : List EntryId}
    (h : first.HasParameters parameters) (hgrows : first.Grows second) :
    second.HasParameters parameters := fun parameter hmem => by
  obtain ⟨hlt, hkind⟩ := h parameter hmem
  refine ⟨Nat.lt_of_lt_of_le hlt hgrows.size_le, ?_⟩
  rwa [(hgrows.agrees parameter hlt).kind]

namespace Production

variable {known : Token → Prop} {session : Session}

theorem traced_typedParameter (hlawful : session.Lawful known) :
    Traced known .declaration typedParameter session fun declared later =>
      later.table.HasParameters declared.toList ∧
        (¬ Improper known → session.cursor.current.kind ∈ numericWords →
          session.cursor.position < later.cursor.position) := by
  unfold typedParameter
  refine (traced_typeSpecifier hlawful).bind fun found typed _ htyped hmoved => ?_
  rw [traced_current_bind]
  split
  · next hname =>
      have hkind : typed.cursor.current.kind = .identifier := by simpa using hname
      refine (traced_declareStorage _ htyped htyped.current hkind (Or.inr rfl)).bind
        fun declared stored hfirst hstored hdeclared => ?_
      refine (traced_nextToken hstored).bind fun _ final hsecond hfinal _ => .pure hfinal ⟨?_, ?_⟩
      · refine SymbolTable.HasParameters.later (fun id hid => ?_) (hsecond.grows rfl)
        have hparameter := (hdeclared.2 id (by simpa using hid)).2
        exact ⟨SymbolTable.lt_of_kind hparameter (by simp), hparameter⟩
      · exact fun hproper hword => Nat.lt_of_lt_of_le (hmoved hproper hword)
          (hfirst.trans hsecond).position_le
  · refine (traced_flag _ htyped rfl).bind fun _ final hsteps hfinal _ => .pure hfinal ⟨?_, ?_⟩
    · simp [SymbolTable.HasParameters]
    · exact fun hproper hword => Nat.lt_of_lt_of_le (hmoved hproper hword) hsteps.position_le

theorem traced_untypedParameter (hlawful : session.Lawful known)
    (hend : session.cursor.current.isEnd = false) :
    Traced known .declaration untypedParameter session fun _ later =>
      session.cursor.position < later.cursor.position := by
  unfold untypedParameter
  refine (traced_flag _ hlawful rfl).bind fun _ flagged _ hflagged hflag => ?_
  refine (traced_nextToken hflagged).bind fun _ moved _ hmoved hnext => ?_
  refine (traced_matchToken (by simp) hmoved).bind fun _ final hsteps hfinal _ => .pure hfinal ?_
  have := hnext.2.2 (by rwa [hflag.1])
  rw [hflag.1] at this
  exact Nat.lt_of_lt_of_le this hsteps.position_le

theorem traced_parameterEntry (hlawful : session.Lawful known)
    (hend : session.cursor.current.isEnd = false) :
    Traced known .declaration parameterEntry session fun declared later =>
      later.table.HasParameters declared.toList ∧
        (¬ Improper known → session.cursor.position < later.cursor.position) := by
  have htyped (hword : session.cursor.current.kind ∈ numericWords) :
      Traced known .declaration typedParameter session fun declared later =>
        later.table.HasParameters declared.toList ∧
          (¬ Improper known → session.cursor.position < later.cursor.position) :=
    (traced_typedParameter hlawful).mono fun _ _ _ _ h => ⟨h.1, fun hproper => h.2 hproper hword⟩
  unfold parameterEntry
  rw [traced_currentKind_bind]
  split
  case h_1 hkind | h_2 hkind | h_3 hkind => exact htyped (by simp [hkind, numericWords])
  case h_4 =>
    exact (traced_untypedParameter hlawful hend).bind fun _ _ _ hfinal hmoved =>
      .pure hfinal ⟨by simp [SymbolTable.HasParameters], fun _ => hmoved⟩

theorem traced_parameterEnd (hlawful : session.Lawful known) :
    Traced known .declaration parameterEnd session fun _ _ => True := by
  unfold parameterEnd
  refine (traced_synchronize _ hlawful).bind fun token found _ hfound htoken => ?_
  obtain ⟨rfl, -⟩ := htoken
  split
  · exact (traced_nextToken hfound).bind fun _ _ _ hfinal _ => .pure hfinal trivial
  · exact (traced_ensure _ _ hfound hfound.current rfl).mono fun _ _ _ _ _ => trivial

/-- Each turn of a list of parameters adds an entry for a parameter, or none, and consumes a token. -/
theorem traced_parameter (parameters : List EntryId) (hlawful : session.Lawful known) :
    Traced known .declaration (parameter parameters) session
      (AfterTurn
        (fun listed later => listed = parameters ∧ later = session ∧
          parameterStart.contains later.cursor.current.kind = false)
        fun listed later =>
          (∃ declared, listed = parameters ++ declared ∧ later.table.HasParameters declared) ∧
            (Improper known ∨ session.cursor.position < later.cursor.position)) := by
  unfold parameter
  rw [traced_currentKind_bind]
  split
  · next hstart =>
      have hend : session.cursor.current.isEnd = false := by
        refine isEnd_of_kind rfl fun hkind => ?_
        simp [hkind, parameterStart] at hstart
      refine (traced_parameterEntry hlawful hend).bind fun declared entered hfirst hentered h => ?_
      refine (traced_parameterEnd hentered).bind fun _ final hsecond hfinal _ => .pure hfinal ⟨?_, ?_⟩
      · exact ⟨declared.toList, rfl, h.1.later (hsecond.grows rfl)⟩
      · by_cases himproper : Improper known
        · exact Or.inl himproper
        · exact Or.inr (Nat.lt_of_lt_of_le (h.2 himproper) hsecond.position_le)
  · next hstop => exact .pure hlawful ⟨rfl, rfl, by simpa using hstop⟩

theorem traced_parameters (hlawful : session.Lawful known) :
    Traced known .declaration (loop parameter []) session fun parameters later =>
      later.table.HasParameters parameters := by
  refine .loop (fun parameters later => later.table.HasParameters parameters) hlawful
    (by simp [SymbolTable.HasParameters]) fun parameters later _ hlater hparameters => ?_
  refine (traced_parameter parameters hlater).mono fun next final hmore _ hnext => ?_
  cases next with
  | done listed =>
      obtain ⟨rfl, rfl, -⟩ := hnext
      exact hparameters
  | yield listed =>
      obtain ⟨⟨declared, rfl, hdeclared⟩, hprogress⟩ := hnext
      refine ⟨fun id hid => ?_, hprogress⟩
      rcases List.mem_append.mp hid with hold | hnew
      · exact hparameters.later (hmore.grows rfl) id hold
      · exact hdeclared id hnew

theorem traced_parameterList (hlawful : session.Lawful known) :
    Traced known .declaration parameterList session fun parameters later =>
      later.table.HasParameters parameters := by
  have hvoid : Traced known .declaration loneVoid session fun _ _ => True := by
    unfold loneVoid
    rw [traced_check_bind]
    split
    · refine (traced_peekKind hlawful).bind fun _ looked _ hlooked _ => ?_
      split
      · exact (traced_nextToken hlooked).bind fun _ _ _ hlater _ => .pure hlater trivial
      · exact .pure hlooked trivial
    · exact .pure hlawful trivial
  unfold parameterList
  refine hvoid.bind fun _ opened _ hopened _ => ?_
  refine (traced_synchronize _ hopened).bind fun _ found _ hfound _ => ?_
  refine (traced_parameters hfound).bind fun parameters listed _ hlisted hparameters => ?_
  refine (traced_expect (by simp) _ hlisted rfl).bind fun _ final hsteps hfinal _ => .pure hfinal ?_
  exact hparameters.later (hsteps.grows rfl)

/-- Where a semicolon stands in the place of the parameters, it is reported that they are missing. -/
theorem traced_enclosedParameters (hlawful : session.Lawful known) :
    Traced known .declaration enclosedParameters session fun parameters later =>
      later.table.HasParameters parameters ∧
        (session.cursor.current.kind = .semicolon → later.Flagged .missingLeftParen) := by
  unfold enclosedParameters
  refine (traced_synchronize _ hlawful).bind fun token found _ hfound htoken => ?_
  obtain ⟨rfl, -, -, hstays⟩ := htoken
  split
  · next hparen =>
      refine (traced_nextToken hfound).bind fun _ opened _ hopened _ => ?_
      refine (traced_parameterList hopened).mono fun _ _ _ _ hparameters => ⟨hparameters, ?_⟩
      -- a parse can resume at a semicolon, so it would still be the current token
      intro hsemicolon
      have hsame : found = session := hstays (by rw [hsemicolon]; decide)
      simp [hsame, hsemicolon] at hparen
  · refine (traced_flag _ hfound rfl).bind fun _ _ _ hfinal hflagged => .pure hfinal ?_
    exact ⟨by simp [SymbolTable.HasParameters], fun _ => hflagged.2.2⟩

end Production

end FrontEnd
