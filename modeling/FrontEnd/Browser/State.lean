import FrontEnd.Code.Listing
import FrontEnd.Compile.Unit
import FrontEnd.Symbol.CrossReference

/-!
# The state of the browser

The browser shows a compiled unit in four panes: the source, the errors, the symbol tables and the
intermediate code.  One pane has the focus, and the keys for up and down act on it: they move the
selected line or the selected error, or scroll a listing.  Selecting an error also selects its line.
-/

namespace FrontEnd

/-- The panes of the browser. -/
inductive Pane where
  | source | diagnostics | symbols | code
deriving DecidableEq, Repr

namespace Pane

/-- The pane that gets the focus next. -/
def next : Pane → Pane
  | source => diagnostics
  | diagnostics => symbols
  | symbols => code
  | code => source

/-- The pane that had the focus before. -/
def previous : Pane → Pane
  | source => code
  | diagnostics => source
  | symbols => diagnostics
  | code => symbols

end Pane

/-- The keys that can be pressed; `left` stands for every key that does nothing. -/
inductive Key where
  | escape | tab | backTab | up | down | left | enter
  | character (c : Char)
deriving DecidableEq, Repr

/-- What the browser shows and where it stands in it.  Lines and errors are selected by number, lines
from one and errors from zero; line zero stands for none. -/
structure Browser where
  unit : CompilationUnit
  source : String
  symbolLines : List String
  codeLines : List String
  errorLines : List Nat
  focus : Pane := .source
  sourceScroll : Nat := 0
  symbolScroll : Nat := 0
  codeScroll : Nat := 0
  selectedError : Nat := 0
  selectedLine : Nat
  hasQuit : Bool := false
  status : String := "Ready!"

namespace Browser

/-- The lines on which errors were found, in ascending order and each once. -/
def linesOf (diagnostics : List Diagnostic) : List Nat :=
  ((diagnostics.map (·.location.line)).mergeSort fun a b => decide (a ≤ b)).eraseDups

/-- The browser for a unit and the source that it was compiled from, with the first error selected. -/
def ofUnit (unit : CompilationUnit) (source : String) : Browser where
  unit := unit
  source := source
  symbolLines := CrossReference.listing unit.table
  codeLines := Code.programLines unit.table
  errorLines := linesOf unit.diagnostics
  selectedLine := (unit.diagnostics.head?.map (·.location.line)).getD 0

/-- Selects an error and its line.  A number beyond the last error stands for the last one. -/
def selectError (browser : Browser) (index : Nat) : Browser :=
  let count := browser.unit.diagnostics.length
  let selected := min index (count - 1)
  match browser.unit.diagnostics[selected]? with
  | none => { browser with status := "No syntax errors" }
  | some diagnostic =>
    { browser with
        selectedError := selected
        selectedLine := diagnostic.location.line
        status := "Error " ++ toString (selected + 1) ++ "/" ++ toString count ++ ": " ++
          diagnostic.kind.message }

/-- The last line that can be selected. -/
def lastLine (browser : Browser) : Nat :=
  max (Text.lines browser.source).length 1

/-- Moves up in the pane that has the focus. -/
def moveUp (browser : Browser) : Browser :=
  match browser.focus with
  | .source => { browser with selectedLine := max (browser.selectedLine - 1) 1 }
  | .diagnostics => browser.selectError (browser.selectedError - 1)
  | .symbols => { browser with symbolScroll := browser.symbolScroll - 1 }
  | .code => { browser with codeScroll := browser.codeScroll - 1 }

/-- Moves down in the pane that has the focus.  A listing is scrolled on without regard to its length;
drawing it puts that right. -/
def moveDown (browser : Browser) : Browser :=
  match browser.focus with
  | .source => { browser with selectedLine := min (browser.selectedLine + 1) browser.lastLine }
  | .diagnostics => browser.selectError (browser.selectedError + 1)
  | .symbols => { browser with symbolScroll := browser.symbolScroll + 1 }
  | .code => { browser with codeScroll := browser.codeScroll + 1 }

/-- What a key does. -/
def press (browser : Browser) : Key → Browser
  | .escape | .character 'q' | .character 'Q' => { browser with hasQuit := true }
  | .tab => { browser with focus := browser.focus.next }
  | .backTab => { browser with focus := browser.focus.previous }
  | .up => browser.moveUp
  | .down => browser.moveDown
  | .enter => { browser.selectError browser.selectedError with focus := .source }
  | .left | .character _ => browser

end Browser

end FrontEnd
