/-!
# Blanks

The characters that separate words: those with the Unicode property `White_Space`.  They are the
five control characters from tab to carriage return, the space, next line, the no-break space, and
the spaces and separators beyond the first two blocks, twenty-five in all.
-/

namespace FrontEnd.Text

/-- Whether the character is white space. -/
def isBlank (c : Char) : Bool :=
  let code := c.toNat
  (decide (0x09 ≤ code) && decide (code ≤ 0x0d)) || code == 0x20 || code == 0x85 || code == 0xa0 ||
    code == 0x1680 || (decide (0x2000 ≤ code) && decide (code ≤ 0x200a)) || code == 0x2028 ||
    code == 0x2029 || code == 0x202f || code == 0x205f || code == 0x3000

end FrontEnd.Text
