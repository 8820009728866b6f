import FrontEnd.Screen.Style

/-!
# The palette of the browser

The colours that all panes share, and the styles made of them.
-/

namespace FrontEnd.Palette

/-- Plain text. -/
def text : Colour := .rgb 205 214 244

/-- Text of less importance, and comments. -/
def muted : Colour := .rgb 108 112 134

/-- The border of the pane that has the focus. -/
def focusedBorder : Colour := .rgb 249 226 175

/-- The border of any other pane. -/
def plainBorder : Colour := .rgb 108 112 134

/-- The background of what is selected. -/
def selection : Colour := .rgb 50 50 70

/-- The mark of the selected line. -/
def mark : Colour := .rgb 250 179 135

/-- Words that begin statements. -/
def keyword : Colour := .rgb 203 166 247

/-- Words for types. -/
def typeName : Colour := .rgb 148 226 213

/-- Names of routines where they are called. -/
def routine : Colour := .rgb 249 226 175

/-- Literals. -/
def literal : Colour := .rgb 250 179 135

/-- Brackets, and the headings of listings. -/
def punctuation : Colour := .rgb 137 180 250

/-- What went well. -/
def success : Colour := .rgb 166 227 161

/-- What went wrong. -/
def error : Colour := .rgb 243 139 168

/-- Text in a colour. -/
def ink (colour : Colour) : Style := { foreground := some colour }

/-- Bold text in a colour. -/
def boldInk (colour : Colour) : Style := { foreground := some colour, bold := true }

/-- Text in a colour on a background. -/
def inkOn (colour background : Colour) : Style :=
  { foreground := some colour, background := some background }

/-- The border of a pane. -/
def border (focused : Bool) : Style :=
  if focused then boldInk focusedBorder else ink plainBorder

end FrontEnd.Palette
