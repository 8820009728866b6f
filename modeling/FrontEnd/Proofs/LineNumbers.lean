import FrontEnd.Proofs.Order.Routine

/-!
# The lines of errors, names and nodes

Whatever is compiled, every error is recorded at a token of the source, the lines of a name are strictly increasing,
and the line of a call is one of those of the routine that is called (`compile_lines`).

Errors are recorded in the order of their lines as far as they can be found when their token is read
(`compile_sorted`).  The others are those whose token is read before what they depend on, and these can follow errors
that stand after them (`compile_sorted_call`).
-/

namespace FrontEnd

open TokenStream (tokensOf)

/-- **Every line that is recorded is one of the source.**  An error has the place and the text of a token.  Lines are
counted from one up to the last line that was reached; those of a name are strictly increasing, and that of a call is
one of those of the name that is called. -/
theorem compile_lines {feed : LineFeed} {unit : CompilationUnit} (h : compile (Scanner.stream feed) = .ok unit) :
    (∀ report ∈ unit.diagnostics,
      (∃ token ∈ tokensOf ((Scanner.stream feed).answers 0),
        report.location = token.location ∧ report.text = token.text) ∧
      1 ≤ report.location.line ∧ report.location.line ≤ unit.lineCount) ∧
    ∀ id, (unit.table.entry id).lines.Pairwise (· < ·) ∧
      (∀ line ∈ (unit.table.entry id).lines, 1 ≤ line ∧ line ≤ unit.lineCount) ∧
      ∀ body ∈ (unit.table.entry id).body?, ∀ node ∈ body.nodes,
        (∀ line, node.line = some line → 1 ≤ line ∧ line ≤ unit.lineCount) ∧
        (node.kind = .call → ∃ callee line, node.entry = some callee ∧ node.line = some line ∧
          line ∈ (unit.table.entry callee).lines) := by
  obtain ⟨later, hordered, hunit⟩ := compile_ordered h
  rw [hunit]
  refine ⟨fun report hmem => ?_, fun id => ?_⟩
  · obtain ⟨token, htoken, hlocation, htext, hline⟩ := hordered.reports report hmem
    refine ⟨⟨token, htoken, hlocation, htext⟩, ?_⟩
    rw [hlocation]
    exact ⟨hordered.scanned.positive token htoken, hline⟩
  · have hplaced := hordered.entries id
    refine ⟨hplaced.sorted, hplaced.bounds, fun body hbody node hnode => ?_⟩
    exact ⟨(hplaced.body body hbody node hnode).line, (hplaced.body body hbody node hnode).call⟩

/-- A call on the third line, to a routine that was named on the first, whose argument is not defined. -/
theorem compile_lines_call :
    ∃ unit, compileText "void p(int a) \x7b\n\x7d\nvoid q() \x7b p(x); \x7d" = .ok unit ∧
      unit.lineCount = 3 ∧ unit.diagnostics.map (·.location) = [⟨3, 14⟩] ∧
      (∀ report ∈ unit.diagnostics, 1 ≤ report.location.line ∧ report.location.line ≤ unit.lineCount) ∧
      ∃ id ∈ unit.routineNamed? "p", (unit.table.entry id).lines = [1, 3] ∧
        (unit.table.entry id).lines.Pairwise (· < ·) := by
  have hcompiled : ∃ unit, compileText "void p(int a) \x7b\n\x7d\nvoid q() \x7b p(x); \x7d" = .ok unit ∧
      (unit.lineCount = 3 ∧ unit.diagnostics.map (·.location) = [⟨3, 14⟩] ∧
        ∃ id ∈ unit.routineNamed? "p", (unit.table.entry id).lines = [1, 3]) :=
    exists_compiled (by decide +kernel)
  obtain ⟨unit, hunit, hcount, hplaces, id, hid, hlines⟩ := hcompiled
  obtain ⟨hreports, hentries⟩ := compile_lines hunit
  exact ⟨unit, hunit, hcount, hplaces, fun report hmem => (hreports report hmem).2, id, hid, hlines,
    (hentries id).1⟩

/-- **Errors are recorded in the order of their lines**, except that a name that is declared again, types that do not
fit, a value that a procedure returns, and a wrong number of arguments may be found late, when errors on later lines
have been recorded. -/
theorem compile_sorted {feed : LineFeed} {unit : CompilationUnit} (h : compile (Scanner.stream feed) = .ok unit) :
    unit.diagnostics.Pairwise fun earlier later =>
      earlier.location.line ≤ later.location.line ∨
        later.kind ∈ [.identifierRedefined, .incompatibleTypes, .invalidAssignToVoid, .wrongParameterCount] := by
  obtain ⟨later, hordered, hunit⟩ := compile_ordered h
  rw [hunit]
  exact hordered.sorted

/-- Three errors of three kinds on three lines. -/
theorem compile_sorted_assignments :
    ∃ unit, compileText "void p() \x7b int x; x = y;\nx = \"s\";\nx = ; \x7d" = .ok unit ∧
      unit.diagnostics.map (fun report => (report.kind, report.location.line)) =
        [(.identifierUndefined, 1), (.incompatibleTypes, 2), (.missingExpression, 3)] ∧
      unit.diagnostics.Pairwise fun earlier later =>
        earlier.location.line ≤ later.location.line ∨
          later.kind ∈ [.identifierRedefined, .incompatibleTypes, .invalidAssignToVoid, .wrongParameterCount] := by
  have hcompiled : ∃ unit, compileText "void p() \x7b int x; x = y;\nx = \"s\";\nx = ; \x7d" = .ok unit ∧
      unit.diagnostics.map (fun report => (report.kind, report.location.line)) =
        [(.identifierUndefined, 1), (.incompatibleTypes, 2), (.missingExpression, 3)] :=
    exists_compiled (by decide +kernel)
  obtain ⟨unit, hunit, hreports⟩ := hcompiled
  exact ⟨unit, hunit, hreports, compile_sorted hunit⟩

/-- The number of the arguments is found to be wrong after they have been read, and an error in one of them stands on
a later line. -/
theorem compile_sorted_call :
    ∃ unit, compileText "void p(int a) \x7b \x7d\nvoid q() \x7b p(1,\ny); \x7d" = .ok unit ∧
      unit.diagnostics.map (fun report => (report.kind, report.location.line)) =
        [(.identifierUndefined, 3), (.wrongParameterCount, 2)] ∧
      ¬ unit.diagnostics.Pairwise fun earlier later => earlier.location.line ≤ later.location.line :=
  exists_compiled (by decide +kernel)

end FrontEnd
