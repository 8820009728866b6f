import FrontEnd.Proofs.Unit

/-!
# What a compilation gives

The trees of intermediate code that a compilation leaves in the table, for the program and for every
routine, are well formed, and their types come from those of their parts (`compile_wellFormed`).  If no
error was recorded, all operands, conditions, assignments and arguments fit too (`compile_wellTyped`).
-/

namespace FrontEnd

/-- A tree of a sound table is well formed, whether the program is accepted or not. -/
theorem SymbolTable.Sound.wellFormed {accepted : Prop} {table : SymbolTable}
    (h : table.Sound accepted) (hvalid : table.Valid) {id : EntryId} {body : Node}
    (hbody : body ∈ (table.entry id).body?) : StatementTree False table id body :=
  (h.bodies id body hbody).mono hvalid (lt_of_body? hbody) (.refl table) False.elim

/-- Every tree that a compilation makes is well formed, whether errors were recorded or not. -/
theorem compile_wellFormed {stream : TokenStream} {unit : CompilationUnit}
    (h : compile stream = .ok unit) (id : EntryId) :
    ∀ body ∈ (unit.table.entry id).body?, StatementTree False unit.table id body := by
  obtain ⟨hvalid, hsound⟩ := compile_sound h
  exact fun body hbody => hsound.wellFormed hvalid hbody

/-- The assignment in `f` has no value, and its target has no meaning. -/
theorem compile_wellFormed_incomplete :
    ∃ unit, compileText "void f() \x7b x = ; \x7d" = .ok unit ∧ unit.diagnostics ≠ [] ∧
      ∃ body ∈ (unit.table.entry 6).body?, StatementTree False unit.table 6 body := by
  have hcompiled : ∃ unit, compileText "void f() \x7b x = ; \x7d" = .ok unit ∧
      unit.diagnostics ≠ [] ∧ (unit.table.entry 6).body?.isSome = true := exists_compiled (by decide +kernel)
  obtain ⟨unit, hunit, hflagged, hsome⟩ := hcompiled
  obtain ⟨body, hbody⟩ := Option.isSome_iff_exists.mp hsome
  exact ⟨unit, hunit, hflagged, body, hbody, compile_wellFormed hunit 6 body hbody⟩

/-- If no error has been recorded, everything fits together: every operation, condition, assignment,
return and call is allowed for the types of its parts, no name is undefined, and every function has a
scalar type. -/
theorem compile_wellTyped {stream : TokenStream} {unit : CompilationUnit}
    (h : compile stream = .ok unit) (hclean : unit.diagnostics = []) :
    (∀ id, ∀ body ∈ (unit.table.entry id).body?, StatementTree True unit.table id body) ∧
      ∀ id, (unit.table.entry id).kind = .function →
        ∃ scalar, (unit.table.entry id).type = some (.scalar scalar) := by
  obtain ⟨-, hsound⟩ := compile_sound h
  rw [eq_true hclean] at hsound
  exact ⟨hsound.bodies, hsound.functions trivial⟩

/-- The function `main` calls the one before it. -/
theorem compile_wellTyped_twice :
    ∃ unit,
      compileText "int twice(int n) \x7b return n + n; \x7d int main() \x7b return twice(1); \x7d" = .ok unit ∧
        ∃ body ∈ (unit.table.entry 9).body?, body.countKind .call = 1 ∧ StatementTree True unit.table 9 body := by
  have hcompiled : ∃ unit,
      compileText "int twice(int n) \x7b return n + n; \x7d int main() \x7b return twice(1); \x7d" = .ok unit ∧
        unit.diagnostics = [] ∧ (unit.table.entry 9).body?.map (Node.countKind .call) = some 1 :=
    exists_compiled (by decide +kernel)
  obtain ⟨unit, hunit, hclean, hcall⟩ := hcompiled
  obtain ⟨body, hbody, hcount⟩ := Option.map_eq_some_iff.mp hcall
  exact ⟨unit, hunit, body, hbody, hcount, (compile_wellTyped hunit hclean).1 9 body hbody⟩

end FrontEnd
