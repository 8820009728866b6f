import FrontEnd.Compile.Declaration
import FrontEnd.Compile.Routine
import FrontEnd.Proofs.Rendering

/-!
# Outlines and how they are written

An outline is a program without statements: a sequence of declarations of variables, constants, types and
routines, without a trace of how it is written.  `Outline.meanings?` says what each name comes to mean, in
the order of the declarations.  It is computed from the declarations alone, and there is an answer if every
type is known where it is used and every constant fits the type that is declared for it.

`Outline.Renders` says which lists of tokens write an outline.  Where the language leaves a choice, every
choice is allowed: for the word before a record, for the sign before a number, and for the absence of
parameters.
-/

namespace FrontEnd

/-! ## Outlines -/

namespace Outline

/-- A type that is given by one word: by the word for a scalar, or by a name that stands for a type. -/
inductive TypeName where
  | word (scalar : Scalar)
  | named (name : String)
deriving DecidableEq, Repr

/-- What a name can be declared to stand for: a type, an array, or a record. -/
inductive TypeBody where
  | plain (type : TypeName)
  | array (element : TypeName) (count : Nat)
  | record (tag : String)
deriving DecidableEq, Repr

/-- The signs of numbers. -/
inductive Sign where
  | plus | minus
deriving DecidableEq, Repr

/-- The value that is given for a constant. -/
structure Value where
  sign : Option Sign := none
  literal : Literal
deriving DecidableEq, Repr

/-- A parameter of a routine. -/
structure Parameter where
  type : Scalar
  name : String
deriving DecidableEq, Repr

/-- A declaration.  A routine without a type is a procedure. -/
inductive Declaration where
  | variableList (type : TypeName) (names : List String)
  | constantList (type : Option TypeName) (definitions : List (String × Value))
  | typeDefinition (body : TypeBody) (name : String)
  | routine (type : Option TypeName) (name : String) (parameters : List Parameter) (hasBody : Bool)
deriving DecidableEq, Repr

end Outline

/-- A sequence of declarations. -/
abbrev Outline := List Outline.Declaration

/-! ## What the names mean -/

/-- What is declared of a routine: the names of its parameters with their types, the slot of the first of
them, and whether the routine has a body. -/
structure Header where
  kind : DefinitionKind
  type : DataType
  parameters : List (String × DataType)
  first : Nat
  hasBody : Bool

/-- What the name of a variable, a parameter, a constant or a type means, and what that of a routine. -/
inductive Meaning where
  | plain (definition : Definition) (type : DataType)
  | routine (header : Header)

/-- Names with consecutive slots, the first of which is given. -/
def Outline.stored (kind : DefinitionKind) (first : Nat) (names : List (String × DataType)) :
    List (String × Definition × DataType) :=
  (names.zipIdx first).map fun (name, slot) => (name.1, .ofStorage kind slot, name.2)

namespace Outline

theorem stored_concat (kind : DefinitionKind) (first : Nat) (names : List (String × DataType))
    (name : String × DataType) :
    stored kind first (names ++ [name]) =
      stored kind first names ++ [(name.1, .ofStorage kind (first + names.length), name.2)] := by
  simp [stored, List.zipIdx_append]

theorem map_fst_stored (kind : DefinitionKind) (first : Nat) (names : List (String × DataType)) :
    (stored kind first names).map Prod.fst = names.map Prod.fst := by
  rw [stored, List.map_map]
  calc (names.zipIdx first).map (Prod.fst ∘ fun name => (name.1.1, _, name.1.2))
      = ((names.zipIdx first).map Prod.fst).map Prod.fst := by rw [List.map_map]; rfl
    _ = names.map Prod.fst := by rw [List.zipIdx_map_fst]

theorem slot?_ofStorage (kind : DefinitionKind) (slot : Nat) :
    (Definition.ofStorage kind slot).slot? = some slot := by
  cases kind <;> rfl

/-- All of the names have slots. -/
theorem countP_stored (kind : DefinitionKind) (first : Nat) (names : List (String × DataType)) :
    (stored kind first names).countP (fun name => name.2.1.slot?.isSome) = names.length := by
  have hlength : (stored kind first names).length = names.length := by simp [stored]
  rw [← hlength, List.countP_eq_length]
  intro name hmem
  obtain ⟨⟨name, slot⟩, -, rfl⟩ := List.mem_map.mp hmem
  simp [slot?_ofStorage]

end Outline

/-- What the parameters of a routine are. -/
def Header.names (header : Header) : List (String × Definition × DataType) :=
  Outline.stored .valueParameter header.first header.parameters

/-- The type that a constant has by its value. -/
def ConstantValue.type : ConstantValue → DataType
  | integer _ => .int
  | real _ => .double
  | character _ => .char

/-- Names in lower case with their meanings, in the order of their declaration. -/
abbrev Meanings := List (String × Meaning)

namespace Outline

/-- The predefined types. -/
def scalars : List Scalar := [.int, .float, .double, .char, .void]

/-- The types that parameters can have. -/
def numbers : List Scalar := [.int, .float, .double]

theorem numbers_subset : numbers ⊆ scalars := by decide

/-- The words for the predefined types. -/
def typeWords : List String := scalars.map Scalar.name

/-- The type that a word stands for, if it does. -/
def TypeName.denotes? (known : Meanings) : TypeName → Option DataType
  | word scalar => if scalar ∈ scalars then some (.scalar scalar) else none
  | named name =>
    match known.lookup (Text.lower name) with
    | some (.plain .type type) => some type
    | _ => none

/-- The type that a name is declared to stand for; only scalars can be elements of arrays. -/
def TypeBody.denotes? (known : Meanings) : TypeBody → Option DataType
  | plain type => type.denotes? known
  | array element count => do
    let element ← (← element.denotes? known).scalar?
    return .array element count
  | record tag => some (.record (Text.lower tag))

/-- The constant that a value is: a number with its sign applied, or a character. -/
def Value.constant? : Value → Option ConstantValue
  | ⟨some .minus, .integer value⟩ => some (.integer (-value))
  | ⟨some .minus, .real value⟩ => some (.real value.negate)
  | ⟨_, .integer value⟩ => some (.integer value)
  | ⟨_, .real value⟩ => some (.real value)
  | ⟨none, .character value⟩ => some (.character value)
  | _ => none

/-- The name of a constant with what it means: it has the declared type, which its value has to fit, or else
the type of its value. -/
def constantMeaning? (declared : Option DataType) (definition : String × Value) :
    Option (String × Definition × DataType) := do
  let constant ← definition.2.constant?
  if declared.all (·.accepts constant.type) then
    some (Text.lower definition.1, .constant constant, declared.getD constant.type)
  else none

/-- The name and the type of a parameter, which has to be a number. -/
def Parameter.typed? (parameter : Parameter) : Option (String × DataType) :=
  if parameter.type ∈ numbers then
    some (Text.lower parameter.name, .scalar parameter.type)
  else none

/-- What a header declares.  The function `main` keeps the first slot of its frame. -/
def header? (known : Meanings) (type : Option TypeName) (name : String) (parameters : List Parameter)
    (hasBody : Bool) : Option Header := do
  let parameters ← parameters.mapM Parameter.typed?
  match type with
  | none => return { kind := .procedure, type := .void, parameters, first := 0, hasBody }
  | some word =>
    let type ← word.denotes? known
    if word ≠ .word .void ∧ type.form = .scalar then
      let first := if Text.lower name = Production.mainName then 1 else 0
      return { kind := .function, type, parameters, first, hasBody }
    else none

/-- Some names that stand for no routines, with their meanings. -/
def plainMeanings (names : List (String × Definition × DataType)) : Meanings :=
  names.map fun (name, definition, type) => (name, .plain definition type)

/-- How many slots the names have. -/
def slotCount (known : Meanings) : Nat :=
  known.countP fun (_, meaning) => match meaning with
    | .plain definition _ => definition.slot?.isSome
    | .routine _ => false

/-- What the names of a declaration mean where some names are known: variables are put into the next free
slots, and they have any type but `void`. -/
def Declaration.meanings? (known : Meanings) : Declaration → Option Meanings
  | variableList type names => do
    let type ← type.denotes? known
    if type = .void then none
    else some <| plainMeanings <| stored .plainVariable (slotCount known) <|
      names.map fun name => (Text.lower name, type)
  | constantList type definitions => do
    let declared ← match type with
      | none => some none
      | some type => (type.denotes? known).map some
    return plainMeanings (← definitions.mapM (constantMeaning? declared))
  | typeDefinition body name => do
    return plainMeanings [(Text.lower name, .type, ← body.denotes? known)]
  | routine type name parameters hasBody => do
    let header ← header? known type name parameters hasBody
    return [(Text.lower name, .routine header)]

/-- What the names mean after some declarations, if some names are known before. -/
def meaningsFrom? (known : Meanings) : Outline → Option Meanings
  | [] => some known
  | declaration :: outline => do
    let more ← declaration.meanings? known
    meaningsFrom? (known ++ more) outline

/-- What the names of an outline mean. -/
def meanings? (outline : Outline) : Option Meanings :=
  meaningsFrom? [] outline

/-- Whether some names differ from each other and from the words for the predefined types. -/
def Apart (names : List String) : Prop :=
  names.Nodup ∧ ∀ name ∈ names, name ∉ typeWords

instance (names : List String) : Decidable (Apart names) :=
  inferInstanceAs (Decidable (_ ∧ _))

/-! ## Lists of answers -/

section

variable {α β γ : Type} {answer? : α → Option β} {items : List α} {answers : List β}

/-- What is known of each answer is known of all. -/
theorem map_eq_of_mapM {view : β → γ} {key : α → γ}
    (hview : ∀ item answer, answer? item = some answer → view answer = key item)
    (h : items.mapM answer? = some answers) : answers.map view = items.map key := by
  induction items generalizing answers with
  | nil =>
      obtain rfl : [] = answers := by simpa using h
      rfl
  | cons item items ih =>
      simp only [List.mapM_cons, Option.bind_eq_bind, Option.bind_eq_some_iff, Option.pure_def,
        Option.some.injEq] at h
      obtain ⟨answer, hanswer, more, hmore, rfl⟩ := h
      rw [List.map_cons, List.map_cons, hview item answer hanswer, ih hmore]

/-- Where all items have answers, one in the middle has one. -/
theorem exists_of_mapM_append {done : List α} {item : α} (h : (done ++ item :: items).mapM answer? = some answers) :
    ∃ answer, answer? item = some answer := by
  simp only [List.mapM_append, List.mapM_cons, Option.bind_eq_bind, Option.bind_eq_some_iff] at h
  obtain ⟨-, -, -, ⟨answer, hanswer, -⟩, -⟩ := h
  exact ⟨answer, hanswer⟩

theorem mapM_concat {item : α} {answer : β} (h : items.mapM answer? = some answers)
    (hitem : answer? item = some answer) : (items ++ [item]).mapM answer? = some (answers ++ [answer]) := by
  simp [List.mapM_append, h, hitem]

theorem fst_of_constantMeaning? {declared : Option DataType} {definition : String × Value}
    {name : String × Definition × DataType} (h : constantMeaning? declared definition = some name) :
    name.1 = Text.lower definition.1 := by
  simp only [constantMeaning?, Option.bind_eq_bind, Option.bind_eq_some_iff,
    Option.ite_none_right_eq_some, Option.some.injEq] at h
  obtain ⟨constant, -, -, rfl⟩ := h
  rfl

theorem fst_of_typed? {parameter : Parameter} {name : String × DataType} (h : parameter.typed? = some name) :
    name.1 = Text.lower parameter.name := by
  simp only [Parameter.typed?, Option.ite_none_right_eq_some, Option.some.injEq] at h
  obtain ⟨-, rfl⟩ := h
  rfl

end

end Outline

/-! ## Tokens -/

/-- Whether a token is an identifier with a given text. -/
structure Token.Spells (token : Token) (name : String) : Prop extends token.Is .identifier where
  text : token.text = name

/-- Whether a token is the word for a scalar. -/
structure Token.Words (token : Token) (scalar : Scalar) : Prop where
  kind : (token.kind, scalar) ∈
    [(.intWord, .int), (.floatWord, .float), (.doubleWord, .double), (.charWord, .char), (.voidWord, .void)]
  text : Text.lower token.text = scalar.name
  clean : token.scanError? = none

namespace Outline

/-- The items of a list, each written by some tokens, with commas between them. -/
inductive Commas {α : Type} (renders : α → List Token → Prop) : List α → List Token → Prop
  | last {item : α} {tokens : List Token} : renders item tokens → Commas renders [item] tokens
  | more {item : α} {items : List α} {tokens rest : List Token} {comma : Token} : renders item tokens →
      comma.Is .comma → Commas renders items rest → Commas renders (item :: items) (tokens ++ comma :: rest)

/-- A word for a scalar, or the name of a type. -/
inductive TypeName.Renders : TypeName → Token → Prop
  | word {scalar : Scalar} {token : Token} : token.Words scalar → Renders (.word scalar) token
  | named {name : String} {token : Token} : token.Spells name → Renders (.named name) token

def Sign.symbol : Sign → TokenKind
  | plus => .plus
  | minus => .minus

/-- A literal, after its sign if it has one. -/
inductive Value.Renders : Value → List Token → Prop
  | plain {literal : Literal} {token : Token} : token.kind = literal.tokenKind →
      token.value = some literal.tokenValue → Renders { literal } [token]
  | signed {sign : Sign} {literal : Literal} {mark token : Token} : mark.Is sign.symbol →
      token.kind = literal.tokenKind → token.value = some literal.tokenValue →
      Renders { sign := some sign, literal } [mark, token]

/-- One name. -/
inductive NameRenders : String → List Token → Prop
  | intro {name : String} {token : Token} : token.Spells name → NameRenders name [token]

/-- The name of a constant and its value. -/
inductive DefinitionRenders : String × Value → List Token → Prop
  | intro {name : String} {value : Value} {token mark : Token} {tokens : List Token} : token.Spells name →
      mark.Is .equals → value.Renders tokens → DefinitionRenders (name, value) (token :: mark :: tokens)

/-- The word for the type of a parameter and its name. -/
inductive Parameter.Renders : Parameter → List Token → Prop
  | intro {parameter : Parameter} {word token : Token} : word.Words parameter.type →
      token.Spells parameter.name → Renders parameter [word, token]

/-- What stands between the parentheses of a header; the word `void` can stand for no parameters. -/
inductive ParametersRender : List Parameter → List Token → Prop
  | none : ParametersRender [] []
  | void {word : Token} : word.Is .voidWord → ParametersRender [] [word]
  | some {parameters : List Parameter} {tokens : List Token} :
      Commas Parameter.Renders parameters tokens → ParametersRender parameters tokens

/-- What stands after a header: an empty body, or a semicolon. -/
inductive EndRenders : Bool → List Token → Prop
  | forward {mark : Token} : mark.Is .semicolon → EndRenders false [mark]
  | body {opening closing : Token} : opening.Is .leftBrace → closing.Is .rightBrace →
      EndRenders true [opening, closing]

/-- The name of a routine, its parameters, and what stands after them. -/
inductive HeaderRenders (name : String) (parameters : List Parameter) (hasBody : Bool) : List Token → Prop
  | intro {token opening closing : Token} {inner ending : List Token} : token.Spells name →
      opening.Is .leftParen → ParametersRender parameters inner → closing.Is .rightParen →
      EndRenders hasBody ending →
      HeaderRenders name parameters hasBody (token :: opening :: (inner ++ closing :: ending))

/-- The lists of tokens that write a declaration. -/
inductive Declaration.Renders : Declaration → List Token → Prop
  | variableList {type : TypeName} {names : List String} {word mark : Token} {tokens : List Token} :
      type.Renders word → Commas NameRenders names tokens → mark.Is .semicolon →
      Renders (.variableList type names) (word :: (tokens ++ [mark]))
  | constantList {definitions : List (String × Value)} {word mark : Token} {tokens : List Token} :
      word.Is .constWord → Commas DefinitionRenders definitions tokens → mark.Is .semicolon →
      Renders (.constantList none definitions) (word :: (tokens ++ [mark]))
  | typedList {type : TypeName} {definitions : List (String × Value)} {word typeWord mark : Token}
      {tokens : List Token} : word.Is .constWord → type.Renders typeWord →
      Commas DefinitionRenders definitions tokens → mark.Is .semicolon →
      Renders (.constantList (some type) definitions) (word :: typeWord :: (tokens ++ [mark]))
  | plainType {type : TypeName} {name : String} {word typeWord token mark : Token} :
      word.Is .typedefWord → type.Renders typeWord → token.Spells name → mark.Is .semicolon →
      Renders (.typeDefinition (.plain type) name) [word, typeWord, token, mark]
  | arrayType {element : TypeName} {count : Nat} {name : String}
      {word typeWord token opening bound closing mark : Token} : word.Is .typedefWord →
      element.Renders typeWord → token.Spells name → opening.Is .leftBracket →
      bound.value = some (.integer count) → bound.kind = .integer → closing.Is .rightBracket →
      mark.Is .semicolon →
      Renders (.typeDefinition (.array element count) name) [word, typeWord, token, opening, bound, closing, mark]
  | recordType {tag name : String} {word kindWord tagToken token mark : Token} : word.Is .typedefWord →
      kindWord.Is .structWord ∨ kindWord.Is .unionWord → tagToken.Spells tag → token.Spells name →
      mark.Is .semicolon → Renders (.typeDefinition (.record tag) name) [word, kindWord, tagToken, token, mark]
  | procedure {name : String} {parameters : List Parameter} {hasBody : Bool} {word : Token}
      {tokens : List Token} : word.Is .voidWord → HeaderRenders name parameters hasBody tokens →
      Renders (.routine none name parameters hasBody) (word :: tokens)
  | function {type : TypeName} {name : String} {parameters : List Parameter} {hasBody : Bool}
      {word : Token} {tokens : List Token} : type.Renders word →
      HeaderRenders name parameters hasBody tokens →
      Renders (.routine (some type) name parameters hasBody) (word :: tokens)

/-- The lists of tokens that write an outline. -/
inductive Renders : Outline → List Token → Prop
  | nil : Renders [] []
  | cons {declaration : Declaration} {outline : Outline} {tokens rest : List Token} :
      declaration.Renders tokens → Renders outline rest → Renders (declaration :: outline) (tokens ++ rest)

end Outline

end FrontEnd
