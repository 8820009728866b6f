import FrontEnd.Browser.Palette
import FrontEnd.Elapsed
import FrontEnd.Screen.Basic

/-!
# The status bar

The left half says how the compilation went, and shows a message; the right half says what the keys
do.
-/

namespace FrontEnd.StatusBar

/-- The style of text in a colour on the background of the bar. -/
def onBar (colour : Colour) : Style := Palette.inkOn colour Palette.selection

/-- How the compilation went, and a message. -/
def summary (errorCount lineCount milliseconds : Nat) (message : String) : List Span :=
  let badge :=
    if errorCount = 0 then Span.ofString " OK " { Palette.inkOn .black Palette.success with bold := true }
    else
      .ofString (" " ++ toString errorCount ++ " ERRORS ")
        { Palette.inkOn .black Palette.error with bold := true }
  [badge,
    .ofString (" " ++ toString lineCount ++ " lines, " ++ Elapsed.text 3 milliseconds ++ "s ")
      (onBar Palette.muted),
    .ofString (" " ++ message ++ " ") (onBar Palette.text)]

/-- A key and what it does. -/
def key (name action : String) : List Span :=
  [.ofString name (Palette.inkOn .black Palette.muted), .ofString action (onBar Palette.text)]

/-- What stands between the keys. -/
def separator : List Span :=
  [.ofString "│" (onBar Palette.muted), .ofString " " (onBar Palette.text)]

/-- What the keys do. -/
def keys : List Span :=
  key " ⇥ " " pane " ++ separator ++ key " ↑/↓ " " scroll/select " ++ separator ++
    key " ↵ " " go to error " ++ separator ++ key "q" " quit "

/-- Draws the bar. -/
def draw (screen : Screen) (area : Area) (errorCount lineCount milliseconds : Nat)
    (message : String) : Screen :=
  let (left, right) := area.splitColumns (Area.share 50 area.width)
  let background : Style := { background := some Palette.selection }
  let withLeft :=
    (screen.applyStyle left background).writeCaption left
      (summary errorCount lineCount milliseconds message)
  (withLeft.applyStyle right background).writeCaptionRight right keys

end FrontEnd.StatusBar
