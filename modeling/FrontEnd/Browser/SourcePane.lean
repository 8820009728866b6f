import FrontEnd.Browser.Highlight
import FrontEnd.Screen.Basic
import FrontEnd.Text.Layout

/-!
# The source pane

Shows as many lines of the source as there is room for, with their numbers.  Lines with errors and the
selected line are marked, and the lines are chosen so that the selected line is among them.
-/

namespace FrontEnd.SourcePane

/-- How many lines to pass over: as few lines away from the previous number as possible so that the
selected line can be seen, and never so many that rows are left empty for nothing.  Line zero stands
for no selection. -/
def scroll (lineCount selected visible previous : Nat) : Nat :=
  let toSelection :=
    if selected = 0 then previous
    else if selected - 1 < previous then selected - 1
    else if previous + visible ≤ selected - 1 then selected - visible
    else previous
  min toSelection (lineCount - visible)

/-- One row of the pane: the number of a line, the mark beside it, and the text. -/
structure Row where
  number : Nat
  marker : Char
  markerStyle : Style
  spans : List Span

/-- The row for a line.  An error is marked before a selection is. -/
def row (selected : Nat) (errorLines : List Nat) (number : Nat) (line : String) : Row :=
  let isSelected := number == selected
  let (marker, markerStyle) :=
    if errorLines.contains number then ('!', Palette.boldInk Palette.error)
    else if isSelected then ('>', Palette.boldInk Palette.mark)
    else (' ', Palette.ink Palette.muted)
  let spans := Highlight.spans line.toList
  let background : Style := { background := some Palette.selection }
  { number, marker, markerStyle,
    spans := if isSelected then spans.map fun span => { span with style := span.style.patch background }
      else spans }

/-- The rows that are shown. -/
def rows (lines : List String) (selected : Nat) (errorLines : List Nat) (offset visible : Nat) :
    List Row :=
  ((lines.drop offset).take visible).mapIdx fun i line =>
    row selected errorLines (offset + i + 1) line

/-- A row as it is written: the number and the mark, a blank, and the text. -/
def Row.written (row : Row) : List Span :=
  .ofString (Text.padLeft 4 (toString row.number) ++ String.ofList [row.marker, ' ']) row.markerStyle ::
    row.spans

/-- Draws the pane.  Answers also with the number of lines passed over. -/
def draw (screen : Screen) (area : Area) (source : String) (selected : Nat) (errorLines : List Nat)
    (focused : Bool) (previous : Nat) : Screen × Nat :=
  let lines := Text.lines source
  let visible := Screen.visibleRows area.height
  let offset := scroll lines.length selected visible previous
  let framed := screen.border area " Source Code " (Palette.border focused)
  let written := (rows lines selected errorLines offset visible).map Row.written
  (((Screen.inside area).rows.zip written).foldl (fun screen row => screen.writeCaption row.1 row.2)
      framed,
    offset)

end FrontEnd.SourcePane
