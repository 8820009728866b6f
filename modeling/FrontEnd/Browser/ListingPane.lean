import FrontEnd.Browser.Palette
import FrontEnd.Screen.Basic
import FrontEnd.Text.Blank
import FrontEnd.Text.Layout

/-!
# Listing panes

Show the lines of a listing from some line on.  A line that holds line ends takes several rows, and is
shown only if all of them have room.  Headings and the lines of elements stand out.
-/

namespace FrontEnd.ListingPane

/-- How many lines to pass over: as many as before, but no more than leave the pane full. -/
def scroll (lineCount visible previous : Nat) : Nat :=
  min previous (lineCount - visible)

/-- The style of a line. -/
def lineStyle (line : String) : Style :=
  let characters := line.toList
  if "=====".toList.isPrefixOf characters then Palette.boldInk Palette.punctuation
  else if (characters.dropWhile Text.isBlank).head? = some '<' then Palette.ink Palette.typeName
  else Palette.ink Palette.text

/-- The rows of a line that may itself hold line ends; an empty line has a row all the same. -/
def rowsOf (line : String) : List String :=
  if line.isEmpty then [line] else Text.lines line

/-- The rows of the lines from the first on that fit as a whole into a height, each with the style of
its line. -/
def fittingRows : Nat → List String → List (String × Style)
  | _, [] => []
  | height, line :: rest =>
    let rows := rowsOf line
    if rows.length ≤ height then
      rows.map (fun row => (row, lineStyle line)) ++ fittingRows (height - rows.length) rest
    else []

/-- Draws one row in a style, all of which has that style. -/
def drawRow (screen : Screen) (area : Area) (row : String) (style : Style) : Screen :=
  (screen.applyStyle area style).writeLine area [.ofString row]

/-- Draws the pane.  Answers also with the number of lines passed over, which an empty listing leaves
as it was. -/
def draw (screen : Screen) (area : Area) (title : String) (lines : List String) (focused : Bool)
    (previous : Nat) : Screen × Nat :=
  let heading := " " ++ title ++ " "
  if lines.isEmpty then
    let framed := (screen.applyStyle area (Palette.ink Palette.muted)).border area heading
      (Palette.border focused)
    (framed.writeCaption (Screen.inside area) [.ofString "(empty)" (Palette.ink Palette.muted)], previous)
  else
    let offset := scroll lines.length (Screen.visibleRows area.height) previous
    let framed := screen.border area heading (Palette.border focused)
    let inside := (Screen.inside area).dropColumn
    ((inside.rows.zip (fittingRows inside.height (lines.drop offset))).foldl
        (fun screen (area, row, style) => drawRow screen area row style) framed,
      offset)

end FrontEnd.ListingPane
