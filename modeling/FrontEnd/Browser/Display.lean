import FrontEnd.Browser.DiagnosticsPane
import FrontEnd.Browser.ListingPane
import FrontEnd.Browser.SourcePane
import FrontEnd.Browser.State
import FrontEnd.Browser.StatusBar

/-!
# The display of the browser

The last row is the status bar.  Above it, the left side takes eleven twentieths of the width and holds
the source over the errors, seven rows to three; the right side holds the symbol tables over the
intermediate code, in equal parts.
-/

namespace FrontEnd.Browser

/-- Where the parts of the display are. -/
structure Layout where
  source : Area
  diagnostics : Area
  symbols : Area
  code : Area
  status : Area

/-- The layout of a display. -/
def layout (area : Area) : Layout :=
  let (panes, status) := area.splitRows (area.height - 1)
  let (left, right) := panes.splitColumns (Area.share 55 panes.width)
  let (source, diagnostics) := left.splitRows (Area.share 70 left.height)
  let (symbols, code) := right.splitRows (Area.share 50 right.height)
  { source, diagnostics, symbols, code, status }

/-- Draws the browser.  The scroll offsets become those with which the panes were drawn. -/
def draw (browser : Browser) (screen : Screen) (milliseconds : Nat) : Screen × Browser :=
  let layout := layout screen.area
  let (screen, sourceScroll) :=
    SourcePane.draw screen layout.source browser.source browser.selectedLine browser.errorLines
      (browser.focus == .source) browser.sourceScroll
  let screen :=
    DiagnosticsPane.draw screen layout.diagnostics browser.unit.diagnostics browser.selectedError
      (browser.focus == .diagnostics)
  let (screen, symbolScroll) :=
    ListingPane.draw screen layout.symbols "Symbol Tables" browser.symbolLines
      (browser.focus == .symbols) browser.symbolScroll
  let (screen, codeScroll) :=
    ListingPane.draw screen layout.code "Intermediate Code" browser.codeLines
      (browser.focus == .code) browser.codeScroll
  let screen :=
    StatusBar.draw screen layout.status browser.unit.diagnostics.length browser.unit.lineCount
      milliseconds browser.status
  (screen, { browser with sourceScroll, symbolScroll, codeScroll })

end FrontEnd.Browser
