/-!
# Columns and lines

Texts laid out in columns, and texts taken apart into lines.  Widths are counted in characters.
-/

namespace FrontEnd.Text

/-- The text followed by as many spaces as it needs to be `width` characters long. -/
def padRight (width : Nat) (text : String) : String :=
  text ++ String.ofList (List.replicate (width - text.length) ' ')

/-- The text with as many spaces before it as it needs to be `width` characters long. -/
def padLeft (width : Nat) (text : String) : String :=
  String.ofList (List.replicate (width - text.length) ' ') ++ text

/-- The number in decimal, with zeros before it up to `width` digits. -/
def padZeros (width : Nat) (number : Nat) : String :=
  let digits := toString number
  String.ofList (List.replicate (width - digits.length) '0') ++ digits

/-- The pieces of a text up to and including each line feed, and what follows the last one. -/
def splitAfterLineFeeds : List Char → List (List Char)
  | [] => []
  | c :: rest =>
    if c = '\n' then [c] :: splitAfterLineFeeds rest
    else
      match splitAfterLineFeeds rest with
      | [] => [[c]]
      | piece :: pieces => (c :: piece) :: pieces

/-- Nothing is lost or moved when a text is taken apart. -/
theorem flatten_splitAfterLineFeeds (characters : List Char) :
    (splitAfterLineFeeds characters).flatten = characters := by
  induction characters with
  | nil => rfl
  | cons c rest ih =>
    unfold splitAfterLineFeeds
    split
    · simp [ih]
    · split
      · rename_i h
        simp [h] at ih
        simp [← ih]
      · rename_i h
        simp [h] at ih
        simp [ih]

/-- A line without the line feed that ends it, nor the carriage return before that. -/
def stripLineEnd (line : List Char) : List Char :=
  match line.reverse with
  | '\n' :: '\r' :: rest => rest.reverse
  | '\n' :: rest => rest.reverse
  | _ => line

/-- The lines of a text, without their ends.  No line follows a final line feed. -/
def lines (text : String) : List String :=
  (splitAfterLineFeeds text.toList).map fun line => String.ofList (stripLineEnd line)

end FrontEnd.Text
