import FrontEnd.Browser.Palette
import FrontEnd.Diagnostic.Log
import FrontEnd.Screen.Basic
import FrontEnd.Text.Layout

/-!
# The diagnostics pane

Shows the errors of a program in the order in which they were found, from the first one on as long as
the selected error has room, and otherwise so that it is the last one shown.
-/

namespace FrontEnd.DiagnosticsPane

/-- An error as it is written: its place, what is wrong, and the text at which it was found. -/
def written (diagnostic : Diagnostic) : List Span :=
  [.ofString
      (Text.padLeft 4 (toString diagnostic.location.line) ++ ":" ++
        Text.padRight 3 (toString diagnostic.location.column) ++ " ")
      (Palette.ink Palette.muted),
    .ofString diagnostic.kind.message (Palette.ink Palette.error),
    .ofString ("  at '" ++ diagnostic.text ++ "'") (Palette.ink Palette.text)]

/-- The style of the whole row of the selected error. -/
def selectedStyle : Style := { background := some Palette.selection, bold := true }

/-- Draws one error on a row. -/
def drawRow (selected : Nat) (screen : Screen) (row : Area) (index : Nat) (diagnostic : Diagnostic) :
    Screen :=
  let screen := if index = selected then screen.applyStyle row selectedStyle else screen
  screen.writeLine row (written diagnostic)

/-- Draws the pane. -/
def draw (screen : Screen) (area : Area) (diagnostics : List Diagnostic) (selected : Nat)
    (focused : Bool) : Screen :=
  let title := " Syntax Errors (" ++ toString diagnostics.length ++ ") "
  if diagnostics.isEmpty then
    let framed := (screen.applyStyle area (Palette.ink Palette.success)).border area title
      (Palette.border focused)
    framed.writeCaption (Screen.inside area) [.ofString "No syntax errors." (Palette.ink Palette.success)]
  else
    let offset := selected + 1 - Screen.visibleRows area.height
    let framed := screen.border area title (Palette.border focused)
    ((Screen.inside area).rows.zip (diagnostics.zipIdx.drop offset)).foldl
      (fun screen (row, diagnostic, index) => drawRow selected screen row index diagnostic) framed

end FrontEnd.DiagnosticsPane
