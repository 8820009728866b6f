import FrontEnd.Text.Glyph

/-!
# Styles

How a glyph looks on the screen.  A style can leave parts unsaid; applied to a cell, it changes the
parts that it does say and keeps the rest.
-/

namespace FrontEnd

/-- A colour; `reset` is the colour that the terminal uses if none is chosen. -/
inductive Colour where
  | reset
  | black
  | rgb (red green blue : Nat)
deriving DecidableEq, Repr

/-- What a piece of text or an area says about its looks. -/
structure Style where
  foreground : Option Colour := none
  background : Option Colour := none
  bold : Bool := false
deriving DecidableEq, Repr

/-- The style with the parts that another style says. -/
def Style.patch (style added : Style) : Style where
  foreground := added.foreground.or style.foreground
  background := added.background.or style.background
  bold := style.bold || added.bold

/-- One place of the screen: a glyph and its looks. -/
structure Cell where
  glyph : Text.Glyph := [' ']
  foreground : Colour := .reset
  background : Colour := .reset
  bold : Bool := false
deriving DecidableEq, Repr, Inhabited

namespace Cell

/-- The cell with a style applied to it. -/
def applyStyle (style : Style) (cell : Cell) : Cell :=
  { cell with
      foreground := style.foreground.getD cell.foreground
      background := style.background.getD cell.background
      bold := cell.bold || style.bold }

/-- The cell with another glyph, and a style applied to it. -/
def write (glyph : Text.Glyph) (style : Style) (cell : Cell) : Cell :=
  { cell.applyStyle style with glyph }

/-- The cell with one more glyph in it, and a style applied to it. -/
def attach (glyph : Text.Glyph) (style : Style) (cell : Cell) : Cell :=
  write (cell.glyph ++ glyph) style cell

end Cell

/-- A piece of text in one style. -/
structure Span where
  text : List Char
  style : Style := {}
deriving DecidableEq, Repr

namespace Span

/-- A piece of text from a string. -/
def ofString (text : String) (style : Style := {}) : Span := ⟨text.toList, style⟩

/-- The glyphs of a piece.  A line feed takes no place on a row, so it is left out. -/
def glyphs (span : Span) : List Text.Glyph :=
  (Text.glyphs span.text).filter (· != ['\n'])

/-- How many columns a piece takes, line feeds included. -/
def columns (span : Span) : Nat :=
  (Text.glyphs span.text).foldl (fun total glyph => total + glyph.columns) 0

/-- The glyphs of several pieces, each with its style. -/
def styledGlyphs (spans : List Span) : List (Text.Glyph × Style) :=
  spans.flatMap fun span => span.glyphs.map fun glyph => (glyph, span.style)

end Span

end FrontEnd
