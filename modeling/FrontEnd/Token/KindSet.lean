import FrontEnd.Token.Kind

/-!
# Sets of token kinds

The points at which a parse can resume after an error are given as sets of token kinds.  A set is
known by its members: two sets are equal when each kind is in both or in neither.
-/

namespace FrontEnd

/-- A set of token kinds. -/
structure KindSet where
  contains : TokenKind → Bool

namespace KindSet

@[ext] theorem ext {first second : KindSet}
    (h : ∀ kind, first.contains kind = second.contains kind) : first = second := by
  cases first
  cases second
  congr
  exact funext h

/-- The set without members. -/
def empty : KindSet := ⟨fun _ => false⟩

/-- The set of the listed kinds. -/
def of (kinds : List TokenKind) : KindSet := ⟨fun kind => kinds.contains kind⟩

/-- The set with one more member. -/
def insert (set : KindSet) (added : TokenKind) : KindSet :=
  ⟨fun kind => kind == added || set.contains kind⟩

/-- The set without one of its members. -/
def erase (set : KindSet) (removed : TokenKind) : KindSet :=
  ⟨fun kind => kind != removed && set.contains kind⟩

/-- The members of either set. -/
def union (first second : KindSet) : KindSet :=
  ⟨fun kind => first.contains kind || second.contains kind⟩

/-- The members, in the order in which the kinds are declared. -/
def members (set : KindSet) : List TokenKind :=
  TokenKind.all.filter set.contains

@[simp] theorem contains_empty (kind : TokenKind) : empty.contains kind = false := rfl

@[simp] theorem contains_of (kinds : List TokenKind) (kind : TokenKind) :
    (of kinds).contains kind = kinds.contains kind := rfl

@[simp] theorem contains_insert (set : KindSet) (added kind : TokenKind) :
    (set.insert added).contains kind = (kind == added || set.contains kind) := rfl

@[simp] theorem contains_erase (set : KindSet) (removed kind : TokenKind) :
    (set.erase removed).contains kind = (kind != removed && set.contains kind) := rfl

@[simp] theorem contains_union (first second : KindSet) (kind : TokenKind) :
    (first.union second).contains kind = (first.contains kind || second.contains kind) := rfl

theorem mem_members {set : KindSet} {kind : TokenKind} :
    kind ∈ set.members ↔ set.contains kind = true := by
  simp [members, TokenKind.mem_all]

/-- Sets with the same members are equal. -/
theorem eq_of_members_eq {first second : KindSet} (h : first.members = second.members) :
    first = second := by
  ext kind
  rw [Bool.eq_iff_iff, ← mem_members, ← mem_members, h]

instance : DecidableEq KindSet := fun first second =>
  if h : first.members = second.members then isTrue (eq_of_members_eq h)
  else isFalse fun equal => h (equal ▸ rfl)

end KindSet

end FrontEnd
