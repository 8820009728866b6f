/-!
# Handles

Symbol entries and scopes are numbered in the order in which they are created, from zero; they refer
to each other by these numbers.  The scope with number zero is the global one.
-/

namespace FrontEnd

/-- The number of a symbol entry. -/
abbrev EntryId := Nat

/-- The number of a scope. -/
abbrev ScopeId := Nat

/-- The number of the global scope. -/
def globalScope : ScopeId := 0

end FrontEnd
