import FrontEnd.Proofs.Mirrors.Unit
import Mathlib.Logic.Relation

/-!
# The turns of a compilation

A unit is compiled item by item.  Between two items a session holds all that the items before it have
left, and what is still to come of the compilation depends on nothing else (`compile_of_reached`): in
particular not on how many turns the loop over the items has made, and may still make.
-/

namespace FrontEnd

open Production

namespace Session

/-- One more item of the unit is compiled, and the loop over the items goes on. -/
def Turn (session later : Session) : Prop :=
  nextItem SymbolTable.programId session = .ok (.yield (), later)

/-- A session to which the loop over the items of a stream comes before one of its turns. -/
def Reached (stream : TokenStream) (session : Session) : Prop :=
  ∃ cursor, Cursor.start stream = .ok cursor ∧ Relation.ReflTransGen Turn (opened cursor) session

/-- A session from which the items of the program can be taken, whatever its tokens are. -/
structure Ready (session : Session) : Prop where
  lawful : session.Lawful fun _ => True
  hosts : session.Hosts SymbolTable.programId

variable {session later : Session} {stream : TokenStream}

theorem ready_opened (cursor : Cursor) : (opened cursor).Ready := by
  let session : Session := { cursor, diagnostics := cursor.current.reports }
  have hlawful : Session.Lawful (fun _ => True) { session with table := SymbolTable.unitTable } :=
    lawful_unitTable fun _ _ => trivial
  exact ⟨hlawful, SymbolTable.hosts_unitTable _⟩

/-- What a turn of the loop leads to. -/
theorem Ready.turn (h : session.Ready) {turn : ForInStep Unit}
    (hrun : nextItem SymbolTable.programId session = .ok (turn, later)) :
    turn = .done () ∨ turn = .yield () ∧ later.Ready ∧ later.cursor.ahead < session.cursor.ahead := by
  have htraced := traced_nextItem_lt h.lawful h.hosts
  rw [Traced, leads_of_ok hrun] at htraced
  obtain ⟨hsteps, hlawful, hturn⟩ := htraced
  cases turn with
  | done => exact .inl rfl
  | yield =>
      refine .inr ⟨rfl, ⟨hlawful, hturn.1⟩, ?_⟩
      have hsum := hsteps.position_add_ahead
      have hlt := hturn.2
      omega

theorem Ready.reached {start : Session} (h : start.Ready)
    (hturns : Relation.ReflTransGen Turn start session) : session.Ready := by
  induction hturns with
  | refl => exact h
  | tail _ hturn ih => exact ((ih.turn hturn).resolve_left nofun).2.1

/-! ## What is left to do -/

theorem loopWithin_of_turn (h : Turn session later) (budget : Nat) :
    loopWithin (fun _ => nextItem SymbolTable.programId) (budget + 1) () session =
      loopWithin (fun _ => nextItem SymbolTable.programId) budget () later :=
  bind_of_ok h

/-- Two budgets are equally good if both exceed what lies ahead. -/
theorem loopWithin_eq {budget budget' : Nat} (h : session.Ready) (hbudget : session.cursor.ahead < budget)
    (hbudget' : session.cursor.ahead < budget') :
    loopWithin (fun _ => nextItem SymbolTable.programId) budget () session =
      loopWithin (fun _ => nextItem SymbolTable.programId) budget' () session := by
  induction budget generalizing budget' session with
  | zero => exact absurd hbudget (Nat.not_lt_zero _)
  | succ budget ih =>
      obtain ⟨fewer, rfl⟩ : ∃ fewer, budget' = fewer + 1 := ⟨budget' - 1, by omega⟩
      cases hrun : nextItem SymbolTable.programId session with
      | error cause => rw [loopWithin, loopWithin, bind_of_error hrun, bind_of_error hrun]
      | ok outcome =>
          obtain ⟨turn, later⟩ := outcome
          rcases h.turn hrun with rfl | ⟨rfl, hready, hlt⟩
          · rw [loopWithin, loopWithin, bind_of_ok hrun, bind_of_ok hrun]
          · rw [loopWithin_of_turn hrun, loopWithin_of_turn hrun]
            exact ih hready (by omega) (by omega)

/-- After a turn, what is left to do is the same as before it. -/
theorem Ready.items_of_turn (h : session.Ready) (hturn : Turn session later) :
    items session = items later := by
  have hlater := (h.turn hturn).resolve_left nofun
  have hloop : loop (fun _ => nextItem SymbolTable.programId) () session =
      loop (fun _ => nextItem SymbolTable.programId) () later := by
    refine (loopWithin_of_turn hturn _).trans (loopWithin_eq hlater.2.1 ?_ ?_)
    · exact Nat.lt_of_lt_of_le hlater.2.2 session.cursor.ahead_le_remaining
    · exact Nat.lt_succ_of_le later.cursor.ahead_le_remaining
  simp only [items, bind, StateT.bind, hloop]

end Session

/-- What a compilation gives depends only on any of the sessions that it reaches. -/
theorem compile_of_reached {stream : TokenStream} {session : Session} (h : session.Reached stream) :
    compile stream = (items session).map CompilationUnit.ofOutcome := by
  obtain ⟨cursor, hstart, hturns⟩ := h
  rw [compile_eq hstart]
  induction hturns with
  | refl => rfl
  | tail hbefore hturn ih =>
      rw [ih, ((Session.ready_opened cursor).reached hbefore).items_of_turn hturn]

end FrontEnd
