import FrontEnd.Proofs.Ahead
import FrontEnd.Proofs.Names
import FrontEnd.Proofs.Outcome
import Mathlib.Logic.Relation

/-!
# The steps of a compilation

Whatever a production does to its session it does in single steps: it records an error at a token that
was supplied, consumes a token, looks one token ahead, or changes the table in one of the ways of
`Declares`.  What else it can do depends on its `Place`: an undefined name is reported in statements, the
name and the type of a routine are settled in its header, and tables are reshaped at the top level.

So what every step preserves holds wherever a run has come (`Steps`):

* no error is lost (`Steps.diagnostics_prefix`);
* the tokens consumed and those still ahead add up to the same number (`Steps.position_add_ahead`);
* the session stays lawful: its tokens are those that were supplied, and its table is valid and keeps the
  names of the numeric types (`Steps.lawful`);
* in declarations and statements the table grows (`Steps.grows`).

`Cut` says where a run can be interrupted: where the next token cannot be read, or, if the tokens are not
proper, in a loop that makes no progress.
-/

namespace FrontEnd

/-- What is asked of a session: it will be supplied with known tokens only, and its table is valid and, if
all known tokens are proper, has the names of the numeric types. -/
structure Session.Lawful (known : Token → Prop) (session : Session) : Prop where
  supplied : ∀ token, session.cursor.Answers (.ok token) → known token
  valid : session.table.Valid
  names : (∀ token, known token → token.Proper) → session.table.NamesTypes

theorem Session.Lawful.current {known : Token → Prop} {session : Session}
    (h : session.Lawful known) : known session.cursor.current :=
  h.supplied _ session.cursor.answers_current

/-! ## Places -/

/-- Whether the error says that a piece of the source is no token. -/
def ErrorKind.fromScan (kind : ErrorKind) : Bool :=
  [invalidCharacter, invalidNumber, integerOutOfRange, realOutOfRange, unexpectedEnd].contains kind

/-- The parts of a compilation, by what their steps can do. -/
inductive Place where
  | declaration | statement | header | topLevel
deriving DecidableEq

namespace Place

/-- Whether names are referred to, so that undefined ones are reported. -/
def refers : Place → Bool
  | statement | topLevel => true
  | declaration | header => false

/-- Whether the names and the types of routines are settled. -/
def settles : Place → Bool
  | header | topLevel => true
  | declaration | statement => false

/-- Whether an error of a kind can be recorded.  What is no token is reported when it is consumed, and
only then; a failure to read ends the run and is not recorded. -/
def flags (place : Place) (kind : ErrorKind) : Bool :=
  !kind.fromScan && !kind.isFatal && (kind != .identifierUndefined || place.refers)

/-- Whether all that can be done at a place can be done at another too. -/
inductive Within : Place → Place → Prop
  | refl (place : Place) : Within place place
  | declaration (place : Place) : Within declaration place
  | topLevel (place : Place) : Within place topLevel

variable {inner outer : Place}

theorem Within.flags (h : inner.Within outer) {kind : ErrorKind} (hkind : inner.flags kind = true) :
    outer.flags kind = true := by
  simp only [Place.flags, Bool.and_eq_true, Bool.or_eq_true] at hkind ⊢
  refine hkind.imp_right fun hnames => hnames.imp_right fun hrefers => ?_
  cases h with
  | refl => exact hrefers
  | declaration => simp [Place.refers] at hrefers
  | topLevel => rfl

theorem Within.settles (h : inner.Within outer) (hinner : inner.settles = true) :
    outer.settles = true := by
  cases h with
  | refl => exact hinner
  | declaration => simp [Place.settles] at hinner
  | topLevel => rfl

theorem Within.eq_topLevel (h : Place.topLevel.Within outer) : outer = .topLevel := by
  cases h <;> rfl

end Place

/-! ## Steps -/

/-- One step of a compilation at a place. -/
inductive Step (known : Token → Prop) (place : Place) (session : Session) : Session → Prop
  | flag {token : Token} {kind : ErrorKind} : place.flags kind = true → known token →
      Step known place session
        { session with diagnostics := session.diagnostics ++ [Diagnostic.atToken token kind] }
  | consume {token : Token} {cursor : Cursor} : session.cursor.advance = (.ok token, cursor) →
      Step known place session
        { session with cursor, diagnostics := session.diagnostics ++ cursor.current.reports }
  | look {token : Token} {cursor : Cursor} : session.cursor.peek = (.ok token, cursor) →
      Step known place session { session with cursor }
  | declare {table : SymbolTable} : session.table.Declares known table →
      Step known place session { session with table }
  | settle {table : SymbolTable} : place.settles = true → session.table.Settles known table →
      Step known place session { session with table }
  | invent : place.settles = true →
      Step known place session { session with dummies := session.dummies + 1 }
  | reshape {table : SymbolTable} : place = .topLevel → session.table.Reshapes known table →
      Step known place session { session with table }

/-- Any number of steps. -/
def Steps (known : Token → Prop) (place : Place) : Session → Session → Prop :=
  Relation.ReflTransGen (Step known place)

section

variable {known : Token → Prop} {place outer : Place} {session later : Session}

namespace Step

theorem diagnostics_prefix (h : Step known place session later) :
    session.diagnostics <+: later.diagnostics := by
  cases h with
  | flag | consume => exact List.prefix_append _ _
  | look | declare | settle | invent | reshape => exact List.prefix_refl _

theorem answers (h : Step known place session later) {event : Except ReadError Token}
    (hevent : later.cursor.Answers event) : session.cursor.Answers event := by
  cases h with
  | consume hadvance => exact .of_advance hadvance hevent
  | look hpeek => exact .of_peek hpeek hevent
  | flag | declare | settle | invent | reshape => exact hevent

theorem position_add_ahead (h : Step known place session later) :
    later.cursor.position + later.cursor.ahead = session.cursor.position + session.cursor.ahead := by
  cases h with
  | @consume token cursor hadvance =>
      cases hend : session.cursor.current.isEnd with
      | true => rw [Cursor.advance_of_isEnd hadvance hend]
      | false =>
          have := Cursor.advance_ahead hadvance hend
          simp only [Cursor.advance_position hadvance hend]
          omega
  | look hpeek => simp only [Cursor.peek_position hpeek, Cursor.peek_ahead hpeek]
  | flag | declare | settle | invent | reshape => rfl

theorem position_le (h : Step known place session later) :
    session.cursor.position ≤ later.cursor.position := by
  cases h with
  | @consume token cursor hadvance =>
      cases hend : session.cursor.current.isEnd with
      | true => exact Nat.le_of_eq (by rw [Cursor.advance_of_isEnd hadvance hend])
      | false => simp [Cursor.advance_position hadvance hend]
  | look hpeek => exact Nat.le_of_eq (Cursor.peek_position hpeek).symm
  | flag | declare | settle | invent | reshape => exact Nat.le_refl _

/-- What a step does to the table, if it does anything to it. -/
theorem reshapes (h : Step known place session later) :
    later.table = session.table ∨ session.table.Reshapes known later.table := by
  cases h with
  | flag | consume | look | invent => exact Or.inl rfl
  | declare htable => exact Or.inr (.declares htable)
  | settle hplace htable => exact Or.inr (.settles htable)
  | reshape hplace htable => exact Or.inr htable

theorem lawful (h : Step known place session later) (hlawful : session.Lawful known) :
    later.Lawful known where
  supplied token htoken := hlawful.supplied token (h.answers htoken)
  valid := by
    rcases h.reshapes with hsame | htable
    · rw [hsame]
      exact hlawful.valid
    · exact htable.valid hlawful.valid
  names hproper := by
    rcases h.reshapes with hsame | htable
    · rw [hsame]
      exact hlawful.names hproper
    · exact htable.namesTypes hproper (hlawful.names hproper)

theorem grows (h : Step known place session later) (hplace : place.settles = false) :
    session.table.Grows later.table := by
  cases h with
  | flag | consume | look => exact .refl _
  | declare htable => exact htable.grows
  | settle hsettles | invent hsettles => simp [hplace] at hsettles
  | reshape htop => simp [htop, Place.settles] at hplace

/-- A step at a place is one wherever more can be done. -/
theorem within (h : Step known place session later) (hwithin : place.Within outer) :
    Step known outer session later := by
  cases h with
  | flag hflags hknown => exact .flag (hwithin.flags hflags) hknown
  | consume hadvance => exact .consume hadvance
  | look hpeek => exact .look hpeek
  | declare htable => exact .declare htable
  | settle hsettles htable => exact .settle (hwithin.settles hsettles) htable
  | invent hsettles => exact .invent (hwithin.settles hsettles)
  | reshape htop htable =>
      subst htop
      exact .reshape hwithin.eq_topLevel htable

end Step

namespace Steps

@[refl] theorem refl (session : Session) : Steps known place session session :=
  Relation.ReflTransGen.refl

theorem single (h : Step known place session later) : Steps known place session later :=
  Relation.ReflTransGen.single h

/-- Two changes to the table in a row. -/
theorem declares {first second : SymbolTable} (h : session.table.Declares known first)
    (h' : first.Declares known second) :
    Steps known place session { session with table := second } := by
  have hfirst : Step known place session { session with table := first } := .declare h
  have hsecond : Step known place { session with table := first }
      { session with table := second } := .declare h'
  exact (Relation.ReflTransGen.single hfirst).tail hsecond

theorem trans {middle : Session} (h : Steps known place session middle)
    (h' : Steps known place middle later) : Steps known place session later :=
  Relation.ReflTransGen.trans h h'

theorem diagnostics_prefix (h : Steps known place session later) :
    session.diagnostics <+: later.diagnostics := by
  induction h with
  | refl => exact List.prefix_refl _
  | tail _ hstep ih => exact ih.trans hstep.diagnostics_prefix

/-- Where no error has been recorded, none was before. -/
theorem clean (h : Steps known place session later) (hlater : later.diagnostics = []) :
    session.diagnostics = [] :=
  List.prefix_nil.mp (hlater ▸ h.diagnostics_prefix)

theorem answers (h : Steps known place session later) {event : Except ReadError Token}
    (hevent : later.cursor.Answers event) : session.cursor.Answers event := by
  induction h with
  | refl => exact hevent
  | tail _ hstep ih => exact ih (hstep.answers hevent)

theorem position_add_ahead (h : Steps known place session later) :
    later.cursor.position + later.cursor.ahead = session.cursor.position + session.cursor.ahead := by
  induction h with
  | refl => rfl
  | tail _ hstep ih => exact hstep.position_add_ahead.trans ih

theorem position_le (h : Steps known place session later) :
    session.cursor.position ≤ later.cursor.position := by
  induction h with
  | refl => exact Nat.le_refl _
  | tail _ hstep ih => exact Nat.le_trans ih hstep.position_le

theorem ahead_le (h : Steps known place session later) :
    later.cursor.ahead ≤ session.cursor.ahead := by
  have := h.position_add_ahead
  have := h.position_le
  omega

theorem lawful (h : Steps known place session later) (hlawful : session.Lawful known) :
    later.Lawful known := by
  induction h with
  | refl => exact hlawful
  | tail _ hstep ih => exact hstep.lawful ih

theorem grows (h : Steps known place session later)
    (hplace : place.settles = false) : session.table.Grows later.table := by
  induction h with
  | refl => exact .refl _
  | tail _ hstep ih => exact ih.trans (hstep.grows hplace)

theorem within (h : Steps known place session later) (hwithin : place.Within outer) :
    Steps known outer session later :=
  Relation.ReflTransGen.mono (fun _ _ hstep => Step.within hstep hwithin) _ _ h

end Steps

/-- What can interrupt a run from a session on. -/
inductive Cut (known : Token → Prop) (place : Place) (session : Session) : Interruption → Prop
  | unreadable {later : Session} {failure : ReadError} : Steps known place session later →
      later.cursor.Fails failure →
      Cut known place session
        (.unreadable { line := later.cursor.current.line, cause := failure })
  | unfinished {token : Token} : known token → ¬ token.Proper → Cut known place session .unfinished

theorem Cut.of_steps {cause : Interruption} (h : Steps known place session later)
    (hcut : Cut known place later cause) : Cut known place session cause := by
  cases hcut with
  | unreadable hsteps hfailure => exact .unreadable (h.trans hsteps) hfailure
  | unfinished hknown hproper => exact .unfinished hknown hproper

theorem Cut.within {cause : Interruption} (h : Cut known place session cause)
    (hwithin : place.Within outer) : Cut known outer session cause := by
  cases h with
  | unreadable hsteps hfailure => exact .unreadable (hsteps.within hwithin) hfailure
  | unfinished hknown hproper => exact .unfinished hknown hproper

end

end FrontEnd
