import FrontEnd.Proofs.Uses
import FrontEnd.Proofs.Untyped

/-!
# Values without a type

In a program without errors everything that is declared has a type, except for functions whose headers give
none.  Such a function is taken for the undefined type, which stands where an error has been reported: calls
of it are accepted everywhere, and so are sums and the like of which they are part.  These are the only values
without a type (`compile_typed`).

Since types come from below, it is enough to look at one node and the types of its children
(`SymbolTable.Untypable`): comparisons and logical operations have a type whatever their operands have, and
all else gets its type from what is declared.
-/

namespace FrontEnd

/-- The kinds of operations which have no type if an operand has none. -/
def NodeKind.arithmetic : List NodeKind := [negate, add, subtract, multiply, divide, modulo]

/-- Whether a value has no type although no error has been reported: it is a call of a function that has none,
or a sign or an arithmetic operation before or between operands of which one has none. -/
def SymbolTable.Untypable (table : SymbolTable) (node : Node) : Prop :=
  (node.kind = .call ∧ ∃ id ∈ node.entry,
      (table.entry id).kind = .function ∧ (table.entry id).resolvedType = .undefined) ∨
    node.kind ∈ NodeKind.arithmetic ∧ ∃ operand ∈ node.children, operand.type = .undefined

namespace SymbolTable

variable {table : SymbolTable} {node : Node}

theorem untypable_of_arithmetic (hkind : node.kind ∈ NodeKind.arithmetic) :
    table.Untypable node ↔ ∃ operand ∈ node.children, operand.type = .undefined := by
  have hcall : node.kind ≠ .call := by
    intro hcall
    simp [hcall, NodeKind.arithmetic] at hkind
  simp [Untypable, hcall, hkind]

theorem not_untypable (hcall : node.kind ≠ .call) (hkind : node.kind ∉ NodeKind.arithmetic) :
    ¬ table.Untypable node := by
  simp [Untypable, hcall, hkind]

end SymbolTable

/-! ## The types of operations -/

namespace DataType

theorem negationResult?_eq_undefined {operand : DataType} :
    operand.negationResult? = some undefined ↔ operand = undefined := by
  refine ⟨fun h => ?_, fun h => by rw [h]; rfl⟩
  unfold negationResult? at h
  split at h
  · rfl
  · simp at h
  · split at h
    · exact Option.some.inj h
    · simp at h

theorem arithmeticResult?_eq_undefined {left right : DataType} :
    left.arithmeticResult? right = some undefined ↔ left = undefined ∨ right = undefined := by
  unfold arithmeticResult? isUndefined
  split
  · next h => simpa using h
  · next h =>
      have hdefined : ¬ (left = undefined ∨ right = undefined) := by simpa using h
      simp only [hdefined, iff_false]
      split_ifs <;> simp

theorem moduloResult?_eq_undefined {left right : DataType} :
    left.moduloResult? right = some undefined ↔ left = undefined ∨ right = undefined := by
  unfold moduloResult? isUndefined
  split
  · next h => simpa using h
  · next h =>
      have hdefined : ¬ (left = undefined ∨ right = undefined) := by simpa using h
      simp only [hdefined, iff_false]
      split_ifs <;> simp

theorem comparisonResult?_ne_undefined (left right : DataType) :
    left.comparisonResult? right ≠ some undefined := by
  unfold comparisonResult?
  split_ifs <;> simp

theorem logicalResult?_ne_undefined (left right : DataType) :
    left.logicalResult? right ≠ some undefined := by
  unfold logicalResult?
  split_ifs <;> simp

end DataType

/-- The type of an operation is undefined only if it is arithmetic, and an operand has no type. -/
theorem Operator.resultType?_eq_undefined {operator : NodeKind} (h : operator ∈ NodeKind.binary)
    {left right : DataType} :
    Operator.resultType? operator left right = some .undefined ↔
      operator ∈ NodeKind.arithmetic ∧ (left = .undefined ∨ right = .undefined) := by
  unfold Operator.resultType?
  split
  case h_1 | h_2 | h_3 | h_4 => simp [NodeKind.arithmetic, DataType.arithmeticResult?_eq_undefined]
  case h_5 => simp [NodeKind.arithmetic, DataType.moduloResult?_eq_undefined]
  case h_6 | h_7 => simp [NodeKind.arithmetic, DataType.logicalResult?_ne_undefined]
  case h_8 =>
    have hother : operator ∉ NodeKind.arithmetic := by
      cases operator <;> simp_all [NodeKind.arithmetic, NodeKind.binary]
    simp [hother, DataType.comparisonResult?_ne_undefined]

/-! ## Values -/

section

variable {table : SymbolTable} {free : EntryId → Prop} {node : Node}

/-- A value in an accepted program has no type only if a function has none. -/
theorem ValueTree.type_eq_undefined (h : ValueTree True table node) (htyped : table.Typed free) :
    node.type = .undefined ↔ table.Untypable node := by
  cases h with
  | missing hrejected => exact absurd trivial hrejected
  | literal literal =>
      refine iff_of_false ?_ (SymbolTable.not_untypable ?_ ?_) <;> cases literal <;>
        simp [Literal.node, NodeKind.arithmetic]
  | @constant id value hvalue =>
      have hkind : (table.entry id).kind = .constant := by simp [Entry.kind, hvalue, Definition.kind]
      have htype : (table.entry id).resolvedType ≠ .undefined :=
        (htyped.entry id).value (by simp [hkind, DefinitionKind.typed]) (by simp [hkind])
      refine iff_of_false htype (SymbolTable.not_untypable ?_ ?_) <;> cases value <;>
        simp [SymbolTable.constantNode, ConstantValue.literal, Literal.node, NodeKind.arithmetic]
  | @reference id hrefers =>
      have hkind : (table.entry id).kind ∈ DefinitionKind.typed := by
        have hreferable := hrefers.kind
        have hdefined := hrefers.defined trivial
        cases hsame : (table.entry id).kind <;>
          simp_all [DefinitionKind.referable, DefinitionKind.typed]
      have htype : (table.entry id).resolvedType ≠ .undefined :=
        (htyped.entry id).value hkind fun _ => hrefers.bound
      exact iff_of_false htype
        (SymbolTable.not_untypable (by simp [SymbolTable.variableNode])
          (by simp [SymbolTable.variableNode, NodeKind.arithmetic]))
  | @negate operand line _ hfits =>
      obtain ⟨type, htype⟩ := Option.isSome_iff_exists.mp (hfits trivial)
      have hundefined := @DataType.negationResult?_eq_undefined operand.type
      rw [SymbolTable.untypable_of_arithmetic (by simp [NodeKind.arithmetic])]
      simpa [htype] using hundefined
  | not line _ _ =>
      exact iff_of_false (by simp) (SymbolTable.not_untypable (by simp) (by simp [NodeKind.arithmetic]))
  | @binary operator left right line hbinary _ _ hfits =>
      obtain ⟨type, htype⟩ := Option.isSome_iff_exists.mp (hfits trivial)
      have hundefined := @Operator.resultType?_eq_undefined operator hbinary left.type right.type
      by_cases harithmetic : operator ∈ NodeKind.arithmetic
      · rw [SymbolTable.untypable_of_arithmetic harithmetic]
        simpa [htype, harithmetic] using hundefined
      · refine iff_of_false ?_ (SymbolTable.not_untypable ?_ harithmetic)
        · simpa [htype, harithmetic] using hundefined
        · rintro rfl
          simp [NodeKind.binary] at hbinary
  | @call id type arguments line hcallable _ hfits =>
      obtain rfl := (hfits trivial).type_eq
      have hkind : (table.entry id).kind = .procedure ∨ (table.entry id).kind = .function := by
        simpa [DefinitionKind.callables] using hcallable
      rcases hkind with hkind | hkind <;> simp [SymbolTable.Untypable, NodeKind.arithmetic, hkind]

/-- What stands for a value in a statement is a value. -/
theorem StatementTree.values {accepted : Prop} {owner : EntryId} (h : StatementTree accepted table owner node) :
    ∀ inner ∈ node.nodes, ∀ value ∈ inner.values, ValueTree accepted table value := by
  refine h.forall_nodes ?_ fun id _ _ => by simp [Node.values, SymbolTable.variableNode, NodeKind.operators,
    NodeKind.binary]
  exact {
    plain := fun _ _ _ _ hvalues => hvalues
    constant := fun {id value} _ => by
      cases value <;>
        simp [Node.values, SymbolTable.constantNode, ConstantValue.literal, Literal.node, NodeKind.operators,
          NodeKind.binary]
    reference := fun _ => by
      simp [Node.values, SymbolTable.variableNode, NodeKind.operators, NodeKind.binary]
    call := fun _ _ _ _ => by
      simp [Node.values, NodeKind.operators, NodeKind.binary] }

end

/-! ## Units -/

/-- In a unit without errors all variables that have names, all parameters, constants and types have a type.
A function has none only if its header gives none, and a value has none only if it is a call of such a
function, or a sign or an arithmetic operation on an operand that has none. -/
theorem compile_typed {stream : TokenStream} {unit : CompilationUnit} (h : compile stream = .ok unit)
    (hclean : unit.diagnostics = []) :
    (∀ id, unit.table.Bound id →
      (unit.table.entry id).kind ∈ [.plainVariable, .valueParameter, .constant, .type] →
        (unit.table.entry id).resolvedType ≠ .undefined) ∧
    (∀ id, (unit.table.entry id).kind = .function → (unit.table.entry id).resolvedType = .undefined →
      stream.Untyped id) ∧
    ∀ id, ∀ body ∈ (unit.table.entry id).body?, ∀ node ∈ body.nodes, ∀ value ∈ node.values,
      value.type = .undefined ↔ unit.table.Untypable value := by
  have htyped := typed_of_compile h hclean
  obtain ⟨-, hsound⟩ := compile_sound h
  rw [eq_true hclean] at hsound
  refine ⟨fun id hbound hkind => ?_, fun id => (htyped.entry id).function, ?_⟩
  · exact (htyped.entry id).value hkind fun _ => hbound
  · intro id body hbody node hnode value hvalue
    have htree := (hsound.bodies id body hbody).values node hnode value hvalue
    exact htree.type_eq_undefined htyped

/-- The header of `f` gives no type, and `main` adds one to the negative of what `f` returns.  The variable has
a type all the same, and so have the constants. -/
theorem compile_typed_sum :
    ∃ unit, compileText "f() \x7b \x7d int main() \x7b int x; x = -f() + 1; return x; \x7d" = .ok unit ∧
      unit.diagnostics = [] ∧ (unit.table.entry 8).resolvedType ≠ .undefined ∧
      (Scanner.stream (.ofText "f() \x7b \x7d int main() \x7b int x; x = -f() + 1; return x; \x7d")).Untyped 6 ∧
        ∃ body ∈ (unit.table.entry 7).body?, ∃ node ∈ body.nodes, ∃ value ∈ node.values,
          value.kind = .add ∧ value.type = .undefined ∧ unit.table.Untypable value := by
  obtain ⟨unit, hunit, hclean, hscope, hvariable, hfunction, htype, hbody⟩ :
      ∃ unit, compileText "f() \x7b \x7d int main() \x7b int x; x = -f() + 1; return x; \x7d" = .ok unit ∧
        unit.diagnostics = [] ∧
        8 ∈ (unit.table.scope 3).entries ∧ (unit.table.entry 8).kind = .plainVariable ∧
        (unit.table.entry 6).kind = .function ∧ (unit.table.entry 6).resolvedType = .undefined ∧
        (unit.table.entry 7).body?.any (fun body => body.nodes.any fun node =>
          node.values.any fun value => value.kind == .add && value.type == .undefined) = true :=
    exists_compiled (by decide +kernel)
  obtain ⟨hvalues, hfunctions, hnodes⟩ := compile_typed hunit hclean
  refine ⟨unit, hunit, hclean, hvalues 8 ⟨3, hscope⟩ (by simp [hvariable]),
    hfunctions 6 hfunction htype, ?_⟩
  obtain ⟨body, hbody, hsum⟩ := (Option.any_eq_true _ _).mp hbody
  obtain ⟨node, hnode, hsum⟩ := List.any_eq_true.mp hsum
  obtain ⟨value, hvalue, hsum⟩ := List.any_eq_true.mp hsum
  obtain ⟨hadd, hundefined⟩ : value.kind = .add ∧ value.type = .undefined := by simpa using hsum
  exact ⟨body, hbody, node, hnode, value, hvalue, hadd, hundefined,
    (hnodes 7 body hbody node hnode value hvalue).mp hundefined⟩

/-- A function whose header gives no type is accepted, and has the undefined type. -/
theorem compile_function_undefined :
    ∃ unit, compileText "f() \x7b \x7d" = .ok unit ∧ unit.diagnostics = [] ∧ unit.table.Bound 6 ∧
      (unit.table.entry 6).kind = .function ∧ (unit.table.entry 6).resolvedType = .undefined := by
  obtain ⟨unit, hunit, hclean, hscope, hentry⟩ :
      ∃ unit, compileText "f() \x7b \x7d" = .ok unit ∧ unit.diagnostics = [] ∧
        6 ∈ (unit.table.scope 1).entries ∧
        (unit.table.entry 6).kind = .function ∧ (unit.table.entry 6).resolvedType = .undefined :=
    exists_compiled (by decide +kernel)
  exact ⟨unit, hunit, hclean, ⟨1, hscope⟩, hentry⟩

end FrontEnd
