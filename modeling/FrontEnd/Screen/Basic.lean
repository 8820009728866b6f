import FrontEnd.Screen.Style
import FrontEnd.Text.Layout

/-!
# The screen

A rectangle of cells.  What is painted outside of it is lost.
-/

namespace FrontEnd

/-- A rectangle on the screen, by its upper left corner and its size. -/
structure Area where
  x : Nat
  y : Nat
  width : Nat
  height : Nat
deriving DecidableEq, Repr

namespace Area

/-- Whether the area has no cells. -/
def isEmpty (area : Area) : Bool := area.width == 0 || area.height == 0

/-- The rows of an area, each as an area of its own. -/
def rows (area : Area) : List Area :=
  (List.range area.height).map fun i => { area with y := area.y + i, height := 1 }

/-- The upper part of an area, of the given height, and what is below it. -/
def splitRows (area : Area) (height : Nat) : Area × Area :=
  ({ area with height := height },
    { area with y := area.y + height, height := area.height - height })

/-- The left part of an area, of the given width, and what is beside it. -/
def splitColumns (area : Area) (width : Nat) : Area × Area :=
  ({ area with width := width }, { area with x := area.x + width, width := area.width - width })

/-- A share of a number of cells, in percent, to the nearest cell; half a cell counts as one. -/
def share (percent cells : Nat) : Nat := (cells * percent + 50) / 100

/-- The area without one column at its left. -/
def dropColumn (area : Area) : Area := (area.splitColumns 1).2

end Area

/-- A rectangle of cells, row by row. -/
structure Screen where
  width : Nat
  height : Nat
  rows : Array (Array Cell)

namespace Screen

/-- A screen without anything on it. -/
def blank (width height : Nat) : Screen :=
  ⟨width, height, Array.replicate height (Array.replicate width {})⟩

/-- All of the screen. -/
def area (screen : Screen) : Area := ⟨0, 0, screen.width, screen.height⟩

/-- Changes one cell. -/
def change (screen : Screen) (x y : Nat) (f : Cell → Cell) : Screen :=
  { screen with rows := screen.rows.modify y fun row => row.modify x f }

/-- Applies a style to all cells of an area. -/
def applyStyle (screen : Screen) (area : Area) (style : Style) : Screen :=
  (List.range area.height).foldl
    (fun screen i =>
      (List.range area.width).foldl
        (fun screen j => screen.change (area.x + j) (area.y + i) (Cell.applyStyle style)) screen)
    screen

/-- Writes one glyph. -/
def write (screen : Screen) (x y : Nat) (glyph : Text.Glyph) (style : Style) : Screen :=
  screen.change x y (Cell.write glyph style)

/-! ## Text

There are two ways to write pieces of text on a row, and they differ in glyphs that do not take one
column.  A *caption* leaves out glyphs without columns, and what a wide glyph covers stays as it was.  A
*line* puts a glyph without columns into the cell before it, and empties the cells that a wide glyph
covers. -/

/-- The glyphs from the first on that fit into a number of columns. -/
def fitting : Nat → List (Text.Glyph × Style) → List (Text.Glyph × Style)
  | _, [] => []
  | room, (glyph, style) :: rest =>
    if glyph.columns ≤ room then (glyph, style) :: fitting (room - glyph.columns) rest else []

/-- The glyphs of a caption in a number of columns.  A glyph too wide for the whole caption is left out
and does not end it. -/
def captionGlyphs (width : Nat) (spans : List Span) : List (Text.Glyph × Style) :=
  fitting width ((Span.styledGlyphs spans).filter fun (glyph, _) =>
    decide (0 < glyph.columns) && decide (glyph.columns ≤ width))

/-- Writes glyphs one after the other, from a place to the right. -/
def writeFrom (screen : Screen) (x y : Nat) : List (Text.Glyph × Style) → Screen
  | [] => screen
  | (glyph, style) :: rest => (screen.write x y glyph style).writeFrom (x + glyph.columns) y rest

/-- Writes a caption at the left end of an area's first row, cut off at its right end. -/
def writeCaption (screen : Screen) (area : Area) (spans : List Span) : Screen :=
  if area.isEmpty then screen
  else screen.writeFrom area.x area.y (captionGlyphs area.width spans)

/-- Writes a caption so that it ends at the right end of an area's first row.  If it is too long, it is
cut off there all the same. -/
def writeCaptionRight (screen : Screen) (area : Area) (spans : List Span) : Screen :=
  if area.isEmpty then screen
  else
    let glyphs := captionGlyphs area.width spans
    let width := glyphs.foldl (fun total (glyph, _) => total + glyph.columns) 0
    screen.writeFrom (area.x + (area.width - width)) area.y glyphs

/-- Empties the cells of a row from one column up to another, the looks included. -/
def clear (screen : Screen) (y start stop : Nat) : Screen :=
  (List.range (stop - start)).foldl (fun screen i => screen.change (start + i) y fun _ => {}) screen

/-- Writes the glyphs of one piece of a line, up to the right end of the row.  The first glyph is
always written at the left end of the piece; `atStart` says whether it is still to come. -/
def writePiece (screen : Screen) (y left right : Nat) (style : Style) (atStart : Bool) (x : Nat) :
    List Text.Glyph → Screen
  | [] => screen
  | glyph :: rest =>
    let next := x + glyph.columns
    if right < next then screen
    else
      let placed :=
        if !atStart && (x = left || glyph.columns = 0) then
          screen.change (max (x - 1) left) y (Cell.attach glyph style)
        else screen.write x y glyph style
      (placed.clear y (x + 1) next).writePiece y left right style false next rest

/-- Writes a line at the left end of an area's first row, cut off at its right end.  A piece without
columns is left out. -/
def writeLine (screen : Screen) (area : Area) : List Span → Screen
  | [] => screen
  | span :: rest =>
    if area.isEmpty then screen
    else if span.columns = 0 then screen.writeLine area rest
    else
      (screen.writePiece area.y area.x (area.x + area.width) span.style true area.x span.glyphs).writeLine
        (area.splitColumns span.columns).2 rest

/-! ## Borders -/

/-- What is inside the border of an area. -/
def inside (area : Area) : Area :=
  ⟨area.x + min 1 area.width, area.y + min 1 area.height, area.width - 2, area.height - 2⟩

/-- How many rows count as visible inside the border of an area of the given height; an area without
room counts as having one. -/
def visibleRows (height : Nat) : Nat := max (height - 2) 1

/-- Draws a border on the edge of an area, and a title on its upper side between the corners.  On an
area of one row, the upper side is all there is; on an area of one column, the left side. -/
def border (screen : Screen) (area : Area) (title : String) (style : Style) : Screen :=
  if area.isEmpty then screen
  else
    let right := area.x + area.width - 1
    let bottom := area.y + area.height - 1
    let across (screen : Screen) (y : Nat) : Screen :=
      (List.range area.width).foldl (fun screen i => screen.write (area.x + i) y ['─'] style) screen
    let down (screen : Screen) (x : Nat) : Screen :=
      (List.range area.height).foldl (fun screen i => screen.write x (area.y + i) ['│'] style) screen
    let sides := across (down (across (down screen area.x) area.y) right) bottom
    let corners :=
      (((sides.write right bottom ['┘'] style).write right area.y ['┐'] style).write
        area.x bottom ['└'] style).write area.x area.y ['┌'] style
    corners.writeLine ⟨area.x + 1, area.y, area.width - 2, 1⟩ ((Text.lines title).map (.ofString ·))

end Screen

end FrontEnd
