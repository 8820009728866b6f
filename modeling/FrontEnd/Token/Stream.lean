import FrontEnd.Source.LineFeed
import FrontEnd.Token.Basic

/-!
# Streams of tokens

The answers of a source of tokens, in the order in which they are asked for: tokens and failures as
listed, and after those, without end, either the end of the file or one and the same failure.
-/

namespace FrontEnd

/-- What the requests for tokens will answer. -/
structure TokenStream where
  events : List (Except ReadError Token)
  ending : Except ReadError Location

namespace TokenStream

/-- What every request answers once the listed events are used up. -/
def finalEvent (stream : TokenStream) : Except ReadError Token :=
  stream.ending.map Token.endOfFile

/-- The next answer, and the stream of the answers after it. -/
def next (stream : TokenStream) : Except ReadError Token × TokenStream :=
  match stream.events with
  | event :: events => (event, { stream with events })
  | [] => (stream.finalEvent, stream)

/-- The stream that answers with one event more. -/
def push (stream : TokenStream) (event : Except ReadError Token) : TokenStream :=
  { stream with events := event :: stream.events }

/-- A finite list of tokens, and after it the end of the file where the last token was. -/
def ofTokens (tokens : List Token) : TokenStream where
  events := tokens.map .ok
  ending := .ok ((tokens.getLast?.map Token.location).getD ⟨1, 1⟩)

/-- A finite list of tokens, and after it a failure. -/
def ofFailing (tokens : List Token) (failure : ReadError) : TokenStream where
  events := tokens.map .ok
  ending := .error failure

/-- Whether an answer is no token to go on from: a failure, or the end of the file. -/
def isFinal : Except ReadError Token → Bool
  | .ok token => token.isEnd
  | .error _ => true

/-- The answers to requests that go on until `extra` of them more than one were final. -/
def answersUntil (final : Except ReadError Token) :
    List (Except ReadError Token) → Nat → List (Except ReadError Token)
  | [], extra => List.replicate (extra + 1) final
  | event :: events, extra =>
    if isFinal event then
      match extra with
      | 0 => [event]
      | extra + 1 => event :: answersUntil final events extra
    else event :: answersUntil final events extra

/-- The answers up to the first final one, and through `extra` more final ones. -/
def answers (stream : TokenStream) (extra : Nat) : List (Except ReadError Token) :=
  answersUntil stream.finalEvent stream.events extra

end TokenStream

end FrontEnd
