import Mathlib.Data.List.Forall2
import FrontEnd.Compile.Statement
import FrontEnd.Proofs.Table

/-!
# Trees of intermediate code

What the trees look like that a compilation makes.  `ValueTree` describes those that stand for values and
`StatementTree` those that stand for statements; both say how many children a node of each kind has, which
entries it may refer to, and how its type comes from theirs.

Both depend on whether the program is accepted.  An expression may be missing from a program with errors,
and an operator may have operands that it refuses; then it has the undefined type.  In an accepted program
all operands, conditions, assignments and arguments fit, and no name is undefined.

A tree stays what it is while the table keeps what it has (`ValueTree.mono`, `StatementTree.mono`).  The
relation `Keeps` says what this takes: entries other than routines do not change, and in an accepted
program neither do the types and parameters of routines.
-/

namespace FrontEnd

namespace NodeKind

/-- The kinds of nodes for operations on two values. -/
def binary : List NodeKind :=
  [add, subtract, multiply, divide, modulo, and, or, equal, notEqual, less, lessOrEqual, greater,
   greaterOrEqual]

end NodeKind

namespace DefinitionKind

/-- The kinds of what an expression can refer to as a variable. -/
def referable : List DefinitionKind := [plainVariable, valueParameter, undefined]

/-- The kinds of what can be called. -/
def callables : List DefinitionKind := [procedure, function]

end DefinitionKind

/-- The node for a literal: its kind is that of the value, and so is its type. -/
def Literal.node (literal : Literal) : Node :=
  match literal with
  | .integer _ => { kind := .integerConstant, type := .int, value := some literal }
  | .real _ => { kind := .realConstant, type := .double, value := some literal }
  | .character _ => { kind := .charConstant, type := .char, value := some literal }
  | .string text => { kind := .stringConstant, type := .array .char (text.length + 1),
                      value := some literal }

/-- The literal that a constant stands for. -/
def ConstantValue.literal (value : ConstantValue) : Literal :=
  match value with
  | .integer value => .integer value
  | .real value => .real value
  | .character value => .character value

/-- The node for a use of a variable, which has the type of its entry. -/
def SymbolTable.variableNode (table : SymbolTable) (id : EntryId) : Node :=
  { kind := .variableUse, type := (table.entry id).resolvedType, entry := some id }

/-- The node for a use of a constant: it is the literal that the constant stands for, with the type of the
entry. -/
def SymbolTable.constantNode (table : SymbolTable) (id : EntryId) (value : ConstantValue) : Node :=
  { value.literal.node with type := (table.entry id).resolvedType, entry := some id }

/-- Whether a name can refer to an entry as a variable. -/
structure SymbolTable.Refers (accepted : Prop) (table : SymbolTable) (id : EntryId) : Prop where
  bound : table.Bound id
  kind : (table.entry id).kind ∈ DefinitionKind.referable
  defined : accepted → (table.entry id).kind ≠ .undefined

/-- Whether a call fits the routine that it is of.  Its type is that of the routine, and `void` for a procedure; there
is an argument for each parameter, which takes it. -/
structure SymbolTable.CallFits (table : SymbolTable) (id : EntryId) (type : DataType) (arguments : List Node) :
    Prop where
  type_eq : type = if (table.entry id).kind = .procedure then .void else (table.entry id).resolvedType
  arguments : ∃ routine, (table.entry id).routine? = some routine ∧
    List.Forall₂ (fun parameter argument => (table.entry parameter).resolvedType.accepts argument.type)
      routine.parameters arguments

/-- The trees that stand for values. -/
inductive ValueTree (accepted : Prop) (table : SymbolTable) : Node → Prop
  | missing : ¬ accepted → ValueTree accepted table { kind := .noOp }
  | literal (literal : Literal) : ValueTree accepted table literal.node
  | constant {id : EntryId} {value : ConstantValue} :
      (table.entry id).definition = .constant value →
      ValueTree accepted table (table.constantNode id value)
  | reference {id : EntryId} : table.Refers accepted id →
      ValueTree accepted table (table.variableNode id)
  | negate {operand : Node} (line : Nat) : ValueTree accepted table operand →
      (accepted → operand.type.negationResult?.isSome) →
      ValueTree accepted table
        { kind := .negate, children := [operand], line := some line
          type := operand.type.negationResult?.getD .undefined }
  | not {operand : Node} (line : Nat) : ValueTree accepted table operand →
      (accepted → operand.type.isCondition) →
      ValueTree accepted table
        { kind := .not, children := [operand], type := .int, line := some line }
  | binary {operator : NodeKind} {left right : Node} (line : Nat) : operator ∈ NodeKind.binary →
      ValueTree accepted table left → ValueTree accepted table right →
      (accepted → (Operator.resultType? operator left.type right.type).isSome) →
      ValueTree accepted table
        { kind := operator, children := [left, right], line := some line
          type := (Operator.resultType? operator left.type right.type).getD .undefined }
  /-- The arguments stand under a node of their own, if there are any. -/
  | call {id : EntryId} {type : DataType} {arguments : List Node} (line : Nat) :
      (table.entry id).kind ∈ DefinitionKind.callables →
      (∀ argument ∈ arguments, ValueTree accepted table argument) →
      (accepted → table.CallFits id type arguments) →
      ValueTree accepted table
        { kind := .call, entry := some id, type, line := some line
          children := if arguments.isEmpty then [] else [{ kind := .arguments, children := arguments }] }

/-- The trees that stand for statements of a routine, the owner. -/
inductive StatementTree (accepted : Prop) (table : SymbolTable) (owner : EntryId) : Node → Prop
  | nothing (line : Nat) : StatementTree accepted table owner { kind := .noOp, line := some line }
  | call {node : Node} : ValueTree accepted table node → node.kind = .call → node.line.isSome →
      StatementTree accepted table owner node
  | assign {id : EntryId} {value : Node} (line : Nat) :
      table.Refers accepted id → ValueTree accepted table value →
      (accepted → (table.entry id).resolvedType.accepts value.type) →
      StatementTree accepted table owner
        { kind := .assign, children := [table.variableNode id, value], line := some line
          type := (table.entry id).resolvedType }
  /-- A return assigns to an entry that no name leads to. -/
  | returned {id : EntryId} (value : Option Node) (line : Nat) :
      ¬ table.Bound id → (table.entry id).kind = .plainVariable →
      (∀ node ∈ value, ValueTree accepted table node) →
      (accepted → (∀ node ∈ value, (table.entry id).resolvedType.accepts node.type) ∧
        ((table.entry owner).kind = .function → value.isSome) ∧
        ((table.entry owner).kind = .procedure → value = none)) →
      StatementTree accepted table owner
        { kind := .assign, children := table.variableNode id :: value.toList, line := some line
          type := (table.entry id).resolvedType }
  | branch {condition consequent : Node} (alternative : Option Node) (line : Nat) :
      ValueTree accepted table condition → (accepted → condition.type.isCondition) →
      StatementTree accepted table owner consequent →
      (∀ node ∈ alternative, StatementTree accepted table owner node) →
      StatementTree accepted table owner
        { kind := .branch, children := condition :: consequent :: alternative.toList
          line := some line }
  | whileLoop {condition body : Node} (line : Nat) :
      ValueTree accepted table condition → (accepted → condition.type.isCondition) →
      StatementTree accepted table owner body →
      StatementTree accepted table owner
        { kind := .whileLoop, children := [condition, body], line := some line }
  | doWhileLoop {body : Node} (condition : Option Node) (line : Nat) :
      StatementTree accepted table owner body →
      (∀ node ∈ condition, ValueTree accepted table node) →
      (accepted → ∃ node ∈ condition, node.type.isCondition) →
      StatementTree accepted table owner
        { kind := .doWhileLoop, children := body :: condition.toList, line := some line }
  | compound {statements : List Node} (line : Nat) :
      (∀ node ∈ statements, StatementTree accepted table owner node) →
      StatementTree accepted table owner
        { kind := .compound, children := statements, line := some line }

/-! ## Tables that keep what they have -/

/-- The later table keeps what the trees over the first `count` entries of the earlier one rest on. -/
structure SymbolTable.Keeps (accepted : Prop) (count : Nat) (earlier later : SymbolTable) : Prop where
  size_le : earlier.entries.size ≤ later.entries.size
  agrees : ∀ id < count, (earlier.entry id).routine? = none →
    (earlier.entry id).Agrees (later.entry id)
  callable : ∀ id < count, (earlier.entry id).kind ∈ DefinitionKind.callables →
    (later.entry id).kind ∈ DefinitionKind.callables
  signature : accepted → ∀ id < count, (later.entry id).kind = (earlier.entry id).kind ∧
    (later.entry id).type = (earlier.entry id).type ∧
      (later.entry id).routine?.map Routine.parameters =
        (earlier.entry id).routine?.map Routine.parameters
  bound : ∀ id < count, later.Bound id ↔ earlier.Bound id

namespace Entry

variable {entry : Entry}

theorem kind_mem_callables (h : entry.kind ∈ DefinitionKind.callables) :
    entry.routine?.isSome := by
  simp only [Entry.kind, Entry.routine?] at h ⊢
  cases hdefinition : entry.definition <;>
    simp_all [Definition.kind, Definition.routine?, DefinitionKind.callables]

theorem routine?_eq_none (h : entry.kind ∈ DefinitionKind.referable) : entry.routine? = none := by
  simp only [Entry.kind, Entry.routine?] at h ⊢
  cases hdefinition : entry.definition <;>
    simp_all [Definition.kind, Definition.routine?, DefinitionKind.referable]

end Entry

/-- A constant is a leaf, as its literal is. -/
theorem SymbolTable.children_constantNode (table : SymbolTable) (id : EntryId) (value : ConstantValue) :
    (table.constantNode id value).children = [] := by
  cases value <;> rfl

/-- The parser makes the node of the literal and then gives it its type and its entry. -/
theorem SymbolTable.constantNode_eq (table : SymbolTable) (id : EntryId) (value : ConstantValue) :
    table.constantNode id value =
      { Production.constantNode value with type := (table.entry id).resolvedType, entry := some id } := by
  cases value <;> rfl

namespace SymbolTable

variable {accepted : Prop} {count : Nat} {first second third : SymbolTable}

/-- A call fits its routine if it fits what the parser reads of the entry before the arguments. -/
theorem callFits_iff {table : SymbolTable} {id : EntryId} {type : DataType} {arguments : List Node}
    (hcallable : (table.entry id).kind ∈ DefinitionKind.callables) :
    table.CallFits id type arguments ↔ type = (Production.signature table id).1 ∧
      List.Forall₂ (fun formal argument => formal.accepts argument.type) (Production.signature table id).2
        arguments := by
  obtain ⟨routine, hroutine⟩ := Option.isSome_iff_exists.mp (Entry.kind_mem_callables hcallable)
  simp only [Production.signature, beq_iff_eq, hroutine, Option.map_some, Option.getD_some, List.forall₂_map_left_iff]
  refine ⟨fun ⟨htype, known, hknown, harguments⟩ => ⟨htype, ?_⟩,
    fun ⟨htype, harguments⟩ => ⟨htype, routine, hroutine, harguments⟩⟩
  obtain rfl := Option.some.inj (hknown.symm.trans hroutine)
  exact harguments

theorem lt_of_callable {table : SymbolTable} {id : EntryId}
    (h : (table.entry id).kind ∈ DefinitionKind.callables) : id < table.entries.size := by
  refine lt_of_kind rfl fun hundefined => ?_
  rw [hundefined] at h
  simp [DefinitionKind.callables] at h

namespace Keeps

@[refl] theorem refl (table : SymbolTable) : table.Keeps accepted count table where
  size_le := Nat.le_refl _
  agrees _ _ _ := .refl _
  callable _ _ h := h
  signature _ _ _ := ⟨rfl, rfl, rfl⟩
  bound _ _ := Iff.rfl

/-- What is known about a routine can change in all but its parameters. -/
theorem modifyRoutine {table : SymbolTable} {id : EntryId} {change : Routine → Routine}
    (hparameters : ∀ routine, (change routine).parameters = routine.parameters) :
    table.Keeps accepted count (table.modifyRoutine id change) := by
  have hentry (other : EntryId) : (table.modifyRoutine id change).entry other = table.entry other ∨
      (table.modifyRoutine id change).entry other = (table.entry other).mapRoutine change := by
    rw [SymbolTable.modifyRoutine, entry_modifyEntry]
    split
    · next hsame => exact Or.inr (by rw [hsame.1])
    · exact Or.inl rfl
  refine ⟨by simp [SymbolTable.modifyRoutine], fun other _ hplain => ?_, fun other _ h => ?_,
    fun _ other _ => ?_, fun _ _ => Iff.rfl⟩
  · rcases hentry other with hsame | hchanged
    · rw [hsame]
    · rw [hchanged]
      exact Entry.agrees_mapRoutine hplain
  · rcases hentry other with hsame | hchanged
    · rwa [hsame]
    · rwa [hchanged, Entry.kind_mapRoutine]
  · rcases hentry other with hsame | hchanged
    · rw [hsame]
      exact ⟨rfl, rfl, rfl⟩
    · rw [hchanged, Entry.kind_mapRoutine, Entry.routine?_mapRoutine]
      refine ⟨rfl, rfl, ?_⟩
      cases (table.entry other).routine? <;> simp [hparameters]

end Keeps

/-- A table that grows keeps all that it has. -/
theorem Grows.keeps (h : first.Grows second) : first.Keeps accepted first.entries.size second where
  size_le := h.size_le
  agrees id hid _ := h.agrees id hid
  callable id hid hcallable := by rwa [(h.agrees id hid).kind]
  signature _ id hid :=
    ⟨(h.agrees id hid).kind, (h.agrees id hid).type, by rw [(h.agrees id hid).routine?]⟩
  bound := h.bound

/-- What a call of a routine is checked against stays the same. -/
theorem Keeps.signature_eq (h : first.Keeps accepted first.entries.size second)
    (hvalid : first.Valid) (haccepted : accepted) {id : EntryId} (hid : id < first.entries.size) :
    Production.signature second id = Production.signature first id := by
  obtain ⟨hkind, htype, hparameters⟩ := h.signature haccepted id hid
  simp only [Production.signature, hkind, Entry.resolvedType, htype, hparameters, Prod.mk.injEq, true_and]
  -- the parameters are entries themselves, and no routines, so they keep their types
  refine List.map_congr_left fun parameter hmem => ?_
  cases hroutine : (first.entry id).routine? with
  | none => simp [hroutine] at hmem
  | some routine =>
      obtain ⟨hlt, hparameter⟩ := hvalid.parameters id routine hroutine parameter
        (by simpa [hroutine] using hmem)
      have hplain : (first.entry parameter).routine? = none :=
        Entry.routine?_eq_none (by simp [hparameter, DefinitionKind.referable])
      rw [(h.agrees parameter hlt hplain).type]

end SymbolTable

/-! ## Trees stay what they are -/

variable {accepted accepted' : Prop} {first second : SymbolTable}

theorem SymbolTable.Keeps.variableNode {count : Nat} (h : first.Keeps accepted count second)
    {id : EntryId} (hid : id < count) (hplain : (first.entry id).routine? = none) :
    second.variableNode id = first.variableNode id := by
  simp only [SymbolTable.variableNode, (h.agrees id hid hplain).resolvedType]

theorem SymbolTable.Refers.mono {id : EntryId} (h : first.Refers accepted id) (hvalid : first.Valid)
    (hkeeps : first.Keeps accepted' first.entries.size second) (haccepted : accepted' → accepted) :
    second.Refers accepted' id ∧ second.variableNode id = first.variableNode id := by
  have hplain := Entry.routine?_eq_none h.kind
  have hid := hvalid.bound_lt id h.bound
  have hagrees := hkeeps.agrees id hid hplain
  refine ⟨⟨(hkeeps.bound id hid).mpr h.bound, ?_, fun hyes => ?_⟩, hkeeps.variableNode hid hplain⟩
  · rw [hagrees.kind]
    exact h.kind
  · rw [hagrees.kind]
    exact h.defined (haccepted hyes)

theorem ValueTree.mono {node : Node} (h : ValueTree accepted first node) (hvalid : first.Valid)
    (hkeeps : first.Keeps accepted' first.entries.size second) (haccepted : accepted' → accepted) :
    ValueTree accepted' second node := by
  induction h with
  | missing hrejected => exact .missing fun hyes => hrejected (haccepted hyes)
  | literal literal => exact .literal literal
  | @constant id value hvalue =>
      -- an entry with a meaning lies within the table, and one for a constant does not change
      have hplain : (first.entry id).routine? = none := by
        simp [Entry.routine?, hvalue, Definition.routine?]
      have hid : id < first.entries.size :=
        SymbolTable.lt_of_kind rfl (by simp [Entry.kind, hvalue, Definition.kind])
      have hagrees := hkeeps.agrees id hid hplain
      rw [SymbolTable.constantNode, ← hagrees.resolvedType]
      exact .constant (hagrees.definition.trans hvalue)
  | reference hrefers =>
      obtain ⟨hlater, hnode⟩ := hrefers.mono hvalid hkeeps haccepted
      rw [← hnode]
      exact .reference hlater
  | negate line _ hfits ih => exact .negate line ih fun hyes => hfits (haccepted hyes)
  | not line _ hfits ih => exact .not line ih fun hyes => hfits (haccepted hyes)
  | binary line hbinary _ _ hfits ihleft ihright =>
      exact .binary line hbinary ihleft ihright fun hyes => hfits (haccepted hyes)
  | @call id type arguments line hcallable _ hfits ih =>
      have hid := SymbolTable.lt_of_callable hcallable
      -- what the parser reads of the routine before the arguments has not changed
      have hcallable' := hkeeps.callable id hid hcallable
      refine .call line hcallable' ih fun hyes => ?_
      rw [SymbolTable.callFits_iff hcallable', hkeeps.signature_eq hvalid hyes hid]
      exact (SymbolTable.callFits_iff hcallable).mp (hfits (haccepted hyes))

theorem StatementTree.mono {owner : EntryId} {node : Node}
    (h : StatementTree accepted first owner node) (hvalid : first.Valid)
    (howner : owner < first.entries.size)
    (hkeeps : first.Keeps accepted' first.entries.size second) (haccepted : accepted' → accepted) :
    StatementTree accepted' second owner node := by
  induction h with
  | nothing line => exact .nothing line
  | call hcall hkind hline => exact .call (hcall.mono hvalid hkeeps haccepted) hkind hline
  | assign line hrefers hvalue hfits =>
      obtain ⟨hlater, hnode⟩ := hrefers.mono hvalid hkeeps haccepted
      have htype := congrArg Node.type hnode
      simp only [SymbolTable.variableNode] at htype
      rw [← hnode, ← htype]
      refine .assign line hlater (hvalue.mono hvalid hkeeps haccepted) fun hyes => ?_
      rw [htype]
      exact hfits (haccepted hyes)
  | @returned id value line hdetached hkind hvalue hfits =>
      have hplain : (first.entry id).routine? = none :=
        Entry.routine?_eq_none (by simp [hkind, DefinitionKind.referable])
      have hid := SymbolTable.lt_of_kind hkind (by simp)
      have hagrees := hkeeps.agrees id hid hplain
      -- the target stays out of reach of all names, since names keep what they lead to
      rw [← hkeeps.variableNode hid hplain, ← hagrees.resolvedType]
      refine .returned value line (fun hbound => hdetached ((hkeeps.bound id hid).mp hbound))
        (hagrees.kind.trans hkind) (fun node hmem => (hvalue node hmem).mono hvalid hkeeps haccepted)
        fun hyes => ?_
      rw [hagrees.resolvedType, (hkeeps.signature hyes owner howner).1]
      exact hfits (haccepted hyes)
  | branch alternative line hcondition hfits _ _ ihconsequent ihalternative =>
      exact .branch alternative line (hcondition.mono hvalid hkeeps haccepted)
        (fun hyes => hfits (haccepted hyes)) ihconsequent ihalternative
  | whileLoop line hcondition hfits _ ihbody =>
      exact .whileLoop line (hcondition.mono hvalid hkeeps haccepted)
        (fun hyes => hfits (haccepted hyes)) ihbody
  | doWhileLoop condition line _ hcondition hfits ihbody =>
      exact .doWhileLoop condition line ihbody
        (fun node hmem => (hcondition node hmem).mono hvalid hkeeps haccepted)
        fun hyes => hfits (haccepted hyes)
  | compound line _ ih => exact .compound line ih

end FrontEnd
