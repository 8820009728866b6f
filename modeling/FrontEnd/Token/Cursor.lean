import FrontEnd.Token.Stream

/-!
# A cursor over tokens

A cursor stands on one token of a stream and can look one token ahead.  It never moves past the end of
the file.  A request that fails leaves the cursor on its token; the answer that failed is used up.
-/

namespace FrontEnd

/-- A place in a stream of tokens: the current token, the token after it if it has been looked at, the
stream from there on, and how often the cursor has moved. -/
structure Cursor where
  stream : TokenStream
  current : Token
  lookahead : Option Token := none
  position : Nat := 0

namespace Cursor

/-- A cursor on the first token of a stream. -/
def start (stream : TokenStream) : Except ReadError Cursor :=
  match stream.next with
  | (.ok token, stream) => .ok { stream, current := token }
  | (.error failure, _) => .error failure

/-- The token after the current one; at the end of the file, the end of the file. -/
def peek (cursor : Cursor) : Except ReadError Token × Cursor :=
  match cursor.lookahead with
  | some token => (.ok token, cursor)
  | none =>
    if cursor.current.isEnd then (.ok cursor.current, { cursor with lookahead := cursor.current })
    else
      match cursor.stream.next with
      | (.ok token, stream) => (.ok token, { cursor with stream, lookahead := some token })
      | (.error failure, stream) => (.error failure, { cursor with stream })

/-- Moves to the next token and answers with it; at the end of the file the cursor stays. -/
def advance (cursor : Cursor) : Except ReadError Token × Cursor :=
  if cursor.current.isEnd then (.ok cursor.current, cursor)
  else
    match cursor.lookahead with
    | some token =>
      (.ok token,
        { cursor with current := token, lookahead := none, position := cursor.position + 1 })
    | none =>
      match cursor.stream.next with
      | (.ok token, stream) =>
        (.ok token, { cursor with stream, current := token, position := cursor.position + 1 })
      | (.error failure, stream) => (.error failure, { cursor with stream })

/-- How many listed answers lie ahead of the current token. -/
def remaining (cursor : Cursor) : Nat :=
  cursor.lookahead.toList.length + cursor.stream.events.length

end Cursor

end FrontEnd
