import FrontEnd.Proofs.Expression
import FrontEnd.Proofs.Steady

/-!
# The uses of names in expressions

A production whose tree refers to some entries answers for each reference once: the entry lies within the
table, and either a scope that is open binds a name to it or, as the target of a return is, it is made for
the innermost scope; and an undefined name is reported just as often as its entry is used as a variable.
`Session.Uses` says this of what happens between two sessions, and every production for an expression does
it for the tree that it makes.

Uses add up (`Session.Uses.trans`), since an entry that is undefined stays so and no other becomes so.

## Strategy

It is of no interest here where a run may be interrupted, so the productions are traced for tokens that
need not be proper (`Improper`): a loop is then not asked for progress, and the depth of nesting does not
matter.
-/

namespace FrontEnd

/-! ## The nodes of a tree -/

/-- A reference to an entry: as a variable, or as what it has been declared as, a constant or a routine. -/
structure Reference where
  id : EntryId
  asVariable : Bool

/-- The kinds of nodes for operations on values. -/
def NodeKind.operators : List NodeKind := negate :: not :: binary

namespace Node

mutual

/-- The nodes of a tree, the root first. -/
def nodes : Node → List Node
  | node@⟨_, children, _, _, _, _⟩ => node :: nodesOfAll children

/-- The nodes of several trees. -/
def nodesOfAll : List Node → List Node
  | [] => []
  | node :: rest => nodes node ++ nodesOfAll rest

end

/-- The children of a node that stand for values which it needs: the operands of an operator, the value of an
assignment, the arguments of a call, the condition of a branch or a loop. -/
def values (node : Node) : List Node :=
  match node.kind with
  | .assign | .doWhileLoop => node.children.tail
  | .branch | .whileLoop => node.children.take 1
  | .arguments => node.children
  | kind => if kind ∈ NodeKind.operators then node.children else []

/-- The entry that a node refers to as a variable. -/
def use? (node : Node) : Option EntryId :=
  if node.kind = .variableUse then node.entry else none

/-- The entries that a tree refers to as variables, as often as it does. -/
def uses (node : Node) : List EntryId :=
  node.nodes.filterMap use?

/-- What a node itself refers to. -/
def reference? (node : Node) : Option Reference :=
  node.entry.map fun id => ⟨id, node.kind == .variableUse⟩

/-- What a tree refers to, as often as it does. -/
def references (node : Node) : List Reference :=
  node.nodes.filterMap reference?

theorem nodesOfAll_eq (trees : List Node) : nodesOfAll trees = trees.flatMap nodes := by
  induction trees with
  | nil => rfl
  | cons tree rest ih => rw [nodesOfAll, ih, List.flatMap_cons]

theorem nodes_eq (node : Node) : node.nodes = node :: node.children.flatMap nodes := by
  obtain ⟨kind, children, type, line, entry, value⟩ := node
  rw [nodes, nodesOfAll_eq]

/-- The nodes below a node of a tree are nodes of the tree. -/
theorem nodes_subset {inner : Node} : ∀ {node : Node}, inner ∈ node.nodes → inner.nodes ⊆ node.nodes
  | node@⟨_, children, _, _, _, _⟩, h => by
    rw [nodes_eq] at h
    rcases List.mem_cons.mp h with rfl | h
    · exact List.Subset.refl _
    · obtain ⟨child, hchild, hinner⟩ := List.mem_flatMap.mp h
      have := List.sizeOf_lt_of_mem hchild
      intro other hother
      rw [nodes_eq]
      exact List.mem_cons_of_mem _ (List.mem_flatMap.mpr ⟨child, hchild, nodes_subset hinner hother⟩)

theorem references_eq (node : Node) :
    node.references = node.reference?.toList ++ node.children.flatMap references := by
  rw [references, nodes_eq, List.filterMap_cons, List.filterMap_flatMap]
  cases node.reference? <;> rfl

/-- A node without an entry refers to what its children refer to. -/
theorem references_of_none {node : Node} (h : node.entry = none) :
    node.references = node.children.flatMap references := by
  simp [references_eq node, reference?, h]

/-- Each entry that a node of a tree has is referred to. -/
theorem mem_references {node inner : Node} {id : EntryId} (hinner : inner ∈ node.nodes)
    (hid : id ∈ inner.entry) : ⟨id, inner.kind == .variableUse⟩ ∈ node.references :=
  List.mem_filterMap.mpr ⟨inner, hinner, by simp [reference?, Option.mem_def.mp hid]⟩

theorem references_withLine (node : Node) (line : Option Nat) :
    { node with line }.references = node.references := by
  rw [references_eq, references_eq node]
  rfl

/-- The uses of variables are among the references. -/
theorem uses_eq_references (node : Node) :
    node.uses = (node.references.filter Reference.asVariable).map Reference.id := by
  rw [uses, references, ← List.filterMap_eq_map, ← List.filterMap_eq_filter, List.filterMap_filterMap,
    List.filterMap_filterMap]
  refine List.filterMap_congr fun other _ => ?_
  rw [use?, reference?]
  by_cases hkind : other.kind = .variableUse <;> cases other.entry <;> simp [hkind, Option.guard]

end Node

/-! ## What holds of every node -/

/-- What holds of a node, and of all nodes of its children, holds of all nodes of its tree. -/
theorem Node.forall_nodes {holds : Node → Prop} {node : Node} (hown : holds node)
    (hchildren : ∀ child ∈ node.children, ∀ inner ∈ child.nodes, holds inner) :
    ∀ inner ∈ node.nodes, holds inner := by
  intro inner hmem
  rw [Node.nodes_eq] at hmem
  rcases List.mem_cons.mp hmem with rfl | hmem
  · exact hown
  · obtain ⟨child, hchild, hinner⟩ := List.mem_flatMap.mp hmem
    exact hchildren child hchild inner hinner

/-- Whether a property holds of all nodes that a value can have, if what stands for a value below them is
one. -/
structure SymbolTable.HoldsOfNodes (accepted : Prop) (table : SymbolTable) (holds : Node → Prop) :
    Prop where
  plain {node : Node} : node.entry = none → node.kind ≠ .call → node.kind ≠ .variableUse →
    (∀ literal ∈ node.value, node.kind = literal.node.kind) →
      (∀ value ∈ node.values, ValueTree accepted table value) → holds node
  constant {id : EntryId} {value : ConstantValue} : (table.entry id).definition = .constant value →
    holds (table.constantNode id value)
  reference {id : EntryId} : table.Refers accepted id → holds (table.variableNode id)
  call {id : EntryId} (type : DataType) (line : Nat) (arguments : List Node) :
    (table.entry id).kind ∈ DefinitionKind.callables →
      holds { kind := .call, entry := some id, type, line := some line
              children := if arguments.isEmpty then [] else [{ kind := .arguments, children := arguments }] }

section

variable {accepted : Prop} {table : SymbolTable} {owner : EntryId} {node : Node} {holds : Node → Prop}

theorem SymbolTable.HoldsOfNodes.variableNode {id : EntryId} (h : holds (table.variableNode id)) :
    ∀ inner ∈ (table.variableNode id).nodes, holds inner :=
  Node.forall_nodes h (by simp [SymbolTable.variableNode])

theorem Node.values_of_operator {node : Node} (h : node.kind ∈ NodeKind.operators) :
    node.values = node.children := by
  unfold Node.values
  split <;> simp_all [NodeKind.operators, NodeKind.binary]

theorem ValueTree.forall_nodes (h : ValueTree accepted table node)
    (hholds : table.HoldsOfNodes accepted holds) : ∀ inner ∈ node.nodes, holds inner := by
  induction h with
  | missing hrejected =>
      exact Node.forall_nodes (hholds.plain rfl nofun nofun nofun (by simp [Node.values])) (by simp)
  | literal literal =>
      cases literal <;>
        exact Node.forall_nodes (hholds.plain rfl nofun nofun (by simp [Literal.node])
          (by simp [Node.values, Literal.node])) (by simp [Literal.node])
  | @constant id value hvalue =>
      refine Node.forall_nodes (hholds.constant hvalue) ?_
      rw [table.children_constantNode id value]
      exact List.forall_mem_nil _
  | reference hrefers => exact SymbolTable.HoldsOfNodes.variableNode (hholds.reference hrefers)
  | negate line hoperand _ ih =>
      refine Node.forall_nodes (hholds.plain rfl nofun nofun nofun ?_) (by simpa using ih)
      simpa [Node.values, NodeKind.operators] using hoperand
  | not line hoperand _ ih =>
      refine Node.forall_nodes (hholds.plain rfl nofun nofun nofun ?_) (by simpa using ih)
      simpa [Node.values, NodeKind.operators] using hoperand
  | @binary operator left right line hbinary hleft hright _ ihleft ihright =>
      refine Node.forall_nodes (hholds.plain rfl ?_ ?_ nofun fun value hvalue => ?_) fun child hchild => ?_
      · rintro rfl
        simp [NodeKind.binary] at hbinary
      · rintro rfl
        simp [NodeKind.binary] at hbinary
      · rw [Node.values_of_operator (by simp [NodeKind.operators, hbinary])] at hvalue
        rcases List.mem_pair.mp hvalue with rfl | rfl
        · exact hleft
        · exact hright
      · rcases List.mem_pair.mp hchild with rfl | rfl
        · exact ihleft
        · exact ihright
  | @call id type arguments line hcallable harguments _ ih =>
      refine Node.forall_nodes (hholds.call type line arguments hcallable) fun child hchild => ?_
      -- the arguments stand under a node of their own, if there are any
      have hsame : child = { kind := .arguments, children := arguments } := by
        dsimp only at hchild
        split at hchild
        · simp at hchild
        · exact List.mem_singleton.mp hchild
      rw [hsame]
      exact Node.forall_nodes (hholds.plain rfl nofun nofun nofun harguments) ih

/-- A statement has the nodes of values, and besides those of the targets of returns. -/
theorem StatementTree.forall_nodes (h : StatementTree accepted table owner node)
    (hholds : table.HoldsOfNodes accepted holds)
    (htarget : ∀ id, ¬ table.Bound id → (table.entry id).kind = .plainVariable →
      holds (table.variableNode id)) : ∀ inner ∈ node.nodes, holds inner := by
  induction h with
  | nothing line =>
      exact Node.forall_nodes (hholds.plain rfl nofun nofun nofun (by simp [Node.values])) (by simp)
  | call hcall _ _ => exact hcall.forall_nodes hholds
  | assign line hrefers hassigned _ =>
      refine Node.forall_nodes (hholds.plain rfl nofun nofun nofun ?_) fun child hchild => ?_
      · simpa [Node.values] using hassigned
      rcases List.mem_pair.mp hchild with rfl | rfl
      · exact SymbolTable.HoldsOfNodes.variableNode (hholds.reference hrefers)
      · exact hassigned.forall_nodes hholds
  | returned value line hdetached hkind hreturned _ =>
      refine Node.forall_nodes (hholds.plain rfl nofun nofun nofun ?_) fun child hchild => ?_
      · simpa [Node.values] using hreturned
      rcases List.mem_cons.mp hchild with rfl | hchild
      · exact SymbolTable.HoldsOfNodes.variableNode (htarget _ hdetached hkind)
      · exact (hreturned child (by simpa using hchild)).forall_nodes hholds
  | branch alternative line hcondition _ _ _ ihconsequent ihalternative =>
      refine Node.forall_nodes (hholds.plain rfl nofun nofun nofun ?_) fun child hchild => ?_
      · simpa [Node.values] using hcondition
      rcases List.mem_cons.mp hchild with rfl | hchild
      · exact hcondition.forall_nodes hholds
      rcases List.mem_cons.mp hchild with rfl | hchild
      · exact ihconsequent
      · exact ihalternative child (by simpa using hchild)
  | whileLoop line hcondition _ _ ihbody =>
      refine Node.forall_nodes (hholds.plain rfl nofun nofun nofun ?_) fun child hchild => ?_
      · simpa [Node.values] using hcondition
      rcases List.mem_pair.mp hchild with rfl | rfl
      · exact hcondition.forall_nodes hholds
      · exact ihbody
  | doWhileLoop condition line _ hcondition _ ihbody =>
      refine Node.forall_nodes (hholds.plain rfl nofun nofun nofun ?_) fun child hchild => ?_
      · simpa [Node.values] using hcondition
      rcases List.mem_cons.mp hchild with rfl | hchild
      · exact ihbody
      · exact (hcondition child (by simpa using hchild)).forall_nodes hholds
  | compound line _ ih =>
      exact Node.forall_nodes (hholds.plain rfl nofun nofun nofun (by simp [Node.values, NodeKind.operators,
        NodeKind.binary])) ih

end

/-! ## What is answered for -/

/-- Whether an entry has no usable definition. -/
def SymbolTable.isUndefined (table : SymbolTable) (id : EntryId) : Bool :=
  (table.entry id).kind == .undefined

/-- How often an undefined name has been reported. -/
def Session.misses (session : Session) : Nat :=
  Diagnostic.countOf session.diagnostics .identifierUndefined

/-- Whether a reference is the use of a variable without a usable definition. -/
def SymbolTable.lacks (table : SymbolTable) (reference : Reference) : Bool :=
  reference.asVariable && table.isUndefined reference.id

/-- Between two sessions some entries are referred to: they are within reach, and the undefined ones
among them have been reported, each use once. -/
structure Session.Uses (earlier later : Session) (references : List Reference) : Prop where
  lt : ∀ reference ∈ references, reference.id < later.table.entries.size
  owned : ∀ reference ∈ references, later.table.Visible reference.id ∨
    (later.table.entry reference.id).scope = later.table.localScopeId
  count : later.misses = earlier.misses + references.countP later.table.lacks

section

variable {known : Token → Prop} {place : Place} {session later : Session}

/-- Where no names are referred to, no undefined one is reported. -/
theorem Step.misses (h : Step known place session later) (hplace : place.refers = false) :
    later.misses = session.misses := by
  have happend {added : List Diagnostic} (hadded : ∀ report ∈ added, report.kind ≠ .identifierUndefined) :
      Diagnostic.countOf (session.diagnostics ++ added) .identifierUndefined = session.misses := by
    have hnone : added.countP (·.kind == .identifierUndefined) = 0 :=
      List.countP_eq_zero.mpr fun report hmem => by simpa using hadded report hmem
    rw [Diagnostic.countOf, List.countP_append, hnone]
    rfl
  cases h with
  | @flag token kind hflags hknown =>
      refine happend fun report hmem => ?_
      rw [List.mem_singleton.mp hmem]
      simp only [Place.flags, hplace, Bool.or_false, Bool.and_eq_true, bne_iff_ne] at hflags
      exact hflags.2
  | @consume token cursor hadvance =>
      refine happend fun report hmem => ?_
      obtain ⟨reason, -, rfl⟩ := List.mem_map.mp hmem
      cases reason <;> simp [ErrorKind.ofScanError]
  | look | declare | settle | invent | reshape => rfl

theorem Steps.misses (h : Steps known place session later) (hplace : place.refers = false) :
    later.misses = session.misses := by
  induction h with
  | refl => rfl
  | tail _ hstep ih => exact (hstep.misses hplace).trans ih

end

theorem SymbolTable.Steady.isUndefined {first second : SymbolTable} (h : first.Steady second)
    {id : EntryId} (hid : id < first.entries.size) : second.isUndefined id = first.isUndefined id := by
  rw [SymbolTable.isUndefined, (h.entry id hid).kind, SymbolTable.isUndefined]

namespace Session.Uses

variable {known : Token → Prop} {place : Place} {first second third : Session}
  {before after references : List Reference} {id : EntryId}

/-- Where no names are referred to, nothing is used. -/
theorem none (h : Steps known place first second) (hplace : place.refers = false) :
    first.Uses second [] :=
  ⟨by simp, by simp, by simp [h.misses hplace]⟩

theorem refl (session : Session) : session.Uses session [] :=
  ⟨by simp, by simp, by simp⟩

/-- One use after the other. -/
theorem trans (h : first.Uses second before) (h' : second.Uses third after)
    (hsteps : Steps known place second third) (hlawful : second.Lawful known)
    (hplace : place ≠ .topLevel) : first.Uses third (before ++ after) where
  lt reference hmem := by
    rcases List.mem_append.mp hmem with hbefore | hafter
    · exact Nat.lt_of_lt_of_le (h.lt reference hbefore) (hsteps.steady hlawful hplace).size_le
    · exact h'.lt reference hafter
  owned reference hmem := by
    have hsteady := hsteps.steady hlawful hplace
    rcases List.mem_append.mp hmem with hbefore | hafter
    · refine (h.owned reference hbefore).imp hsteady.visible fun hscope => ?_
      rw [(hsteady.entry reference.id (h.lt reference hbefore)).scope, hscope, hsteady.localScopeId]
    · exact h'.owned reference hafter
  count := by
    have hsteady := hsteps.steady hlawful hplace
    have hsame : before.countP third.table.lacks = before.countP second.table.lacks :=
      List.countP_congr fun reference hmem => by
        simp only [SymbolTable.lacks, hsteady.isUndefined (h.lt reference hmem)]
    have := h.count
    have := h'.count
    rw [List.countP_append]
    omega

/-- Nothing is used after some uses. -/
theorem thenNone (h : first.Uses second references) (h' : second.Uses third [])
    (hsteps : Steps known place second third) (hlawful : second.Lawful known)
    (hplace : place ≠ .topLevel) : first.Uses third references := by
  simpa using h.trans h' hsteps hlawful hplace

/-- What is visible can be referred to as what it has been declared as. -/
theorem declared {session : Session} (hlawful : session.Lawful known)
    (hvisible : session.table.Visible id) : session.Uses session [⟨id, false⟩] where
  lt := by simpa using hlawful.valid.bound_lt id hvisible.bound
  owned := by simpa using Or.inl hvisible
  count := rfl

/-- A reference to an entry that is defined answers for no report. -/
theorem asDeclared (h : first.Uses second [⟨id, true⟩])
    (hdefined : (second.table.entry id).kind ≠ .undefined) : first.Uses second [⟨id, false⟩] where
  lt := by simpa using h.lt
  owned := by simpa using h.owned
  count := by
    have hcount := h.count
    rwa [List.countP_cons_of_neg (by simpa [SymbolTable.lacks, SymbolTable.isUndefined] using hdefined)]
      at hcount

end Session.Uses

namespace Production

variable {α : Type} {known : Token → Prop} {place : Place} {session : Session}

/-- Two things that are traced of the same run. -/
theorem Traced.and {production : Production α} {first second : α → Session → Prop}
    (h : Traced known place production session first)
    (h' : Traced known place production session second) :
    Traced known place production session fun answer later =>
      first answer later ∧ second answer later := by
  unfold Traced Leads at h h' ⊢
  split
  · next hrun =>
      rw [hrun] at h h'
      exact ⟨h.1, h.2.1, h.2.2, h'.2.2⟩
  · next hrun =>
      rw [hrun] at h
      exact h

/-- What does not refer to names uses none. -/
theorem Traced.silent {production : Production α} {post : α → Session → Prop}
    (h : Traced known .declaration production session post) :
    Traced known .statement production session fun answer later =>
      session.Uses later [] ∧ post answer later :=
  (h.within (.declaration _)).mono fun _ _ _ _ hpost => ⟨.none hpost.1 rfl, hpost.2⟩

/-- Where tokens need not be proper, a run may be interrupted for want of a budget. -/
theorem Traced.unfinished {post : α → Session → Prop} (himproper : Improper known) :
    Traced known place (throw .unfinished) session post := by
  obtain ⟨token, hknown, htoken⟩ := himproper
  exact Cut.unfinished hknown htoken

/-- Whether a production answers for the references of the tree that it makes. -/
def Accounted (known : Token → Prop) (production : Production Node) : Prop :=
  ∀ session : Session, session.Lawful known →
    Traced known .statement production session fun node later => session.Uses later node.references

/-! ## Operators -/

theorem uses_binaryNode (operator : NodeKind) (left right : Node) (line : Nat)
    (hlawful : session.Lawful known) :
    Traced known .statement (binaryNode operator line left right) session fun node later =>
      session.Uses later [] ∧ node.references = left.references ++ right.references := by
  have hnode (type : DataType) :
      (Node.mk operator [left, right] type (some line) none none).references =
        left.references ++ right.references := by
    simp [Node.references_of_none]
  unfold binaryNode
  cases Operator.resultType? operator left.type right.type with
  | some type => exact .pure hlawful ⟨.refl _, hnode _⟩
  | none =>
      exact (traced_flag _ hlawful rfl).silent.bind fun _ _ _ hlater h => .pure hlater ⟨h.1, hnode _⟩

theorem accounted_operations (himproper : Improper known) {operand : Production Node}
    (h : Accounted known operand) :
    ∀ levels : List OperatorLevel, Accounted known (operations operand levels)
  | [] => h
  | level :: tighter => by
      have htighter := accounted_operations himproper h tighter
      intro session hlawful
      unfold operations
      refine (htighter session hlawful).bind fun left later _ hlater hleft => ?_
      refine .loop (fun left later => session.Uses later left.references) hlater hleft
        fun left current _ hcurrent hleft => ?_
      unfold operation
      rw [traced_current_bind]
      cases hlookup : level.lookup current.cursor.current.kind with
      | none => exact .pure hcurrent hleft
      | some operator =>
          refine (traced_nextToken hcurrent).silent.bind fun _ next hmove hnext hmoved => ?_
          refine (htighter next hnext).bind fun right read hread hreadable hright => ?_
          refine (uses_binaryNode operator left right _ hreadable).bind
            fun node final hlast hfinal hnode => .pure hfinal ⟨?_, Or.inl himproper⟩
          -- the left operand, the token between, the right operand
          rw [hnode.2]
          have huses := (hleft.thenNone hmoved.1 hmove hcurrent (by simp)).trans hright hread hnext (by simp)
          exact huses.thenNone hnode.1 hlast hreadable (by simp)

/-! ## Signs and negations -/

theorem uses_signed {sign : Token} (operand : Node) (hsign : known sign)
    (hlawful : session.Lawful known) :
    Traced known .statement (signed sign operand) session fun node later =>
      session.Uses later [] ∧ node.references = operand.references := by
  unfold signed
  refine (traced_ensure _ _ hlawful hsign rfl).silent.bind fun _ later _ hlater h => ?_
  split
  · exact .pure hlater ⟨h.1, rfl⟩
  · exact .pure hlater ⟨h.1, by simp [Node.references_of_none]⟩

theorem uses_negated {mark : Token} (operand : Node) (hmark : known mark)
    (hlawful : session.Lawful known) :
    Traced known .statement (negated mark operand) session fun node later =>
      session.Uses later [] ∧ node.references = operand.references := by
  unfold negated
  refine (traced_ensure _ _ hlawful hmark rfl).silent.bind fun _ later _ hlater h => ?_
  exact .pure hlater ⟨h.1, by simp [Node.references_of_none]⟩

theorem accounted_operandWithin (himproper : Improper known) {factor : Production Node}
    (h : Accounted known factor) : ∀ depth, Accounted known (operandWithin factor depth)
  | 0 => fun _ _ => .unfinished himproper
  | depth + 1 => by
      intro session hlawful
      have hprefixed {mark : Node → Production Node}
          (hmark : ∀ (operand : Node) (later : Session), later.Lawful known →
            Traced known .statement (mark operand) later fun node final =>
              later.Uses final [] ∧ node.references = operand.references) :
          Traced known .statement
            (do
              let _ ← nextToken
              mark (← operandWithin factor depth))
            session fun node later => session.Uses later node.references := by
        refine (traced_nextToken hlawful).silent.bind fun _ moved _ hmoved hmove => ?_
        refine (accounted_operandWithin himproper h depth moved hmoved).bind
          fun operand read hread hreadable hoperand => ?_
        refine (hmark operand read hreadable).mono fun node final hlast _ hnode => ?_
        rw [hnode.2]
        exact (hmove.1.trans hoperand hread hmoved nofun).thenNone hnode.1 hlast hreadable nofun
      unfold operandWithin
      rw [traced_current_bind]
      split
      · exact hprefixed fun operand _ hlater => uses_signed operand hlawful.current hlater
      · exact hprefixed fun operand _ hlater => uses_signed operand hlawful.current hlater
      · exact hprefixed fun operand _ hlater => uses_negated operand hlawful.current hlater
      · exact h session hlawful

/-! ## Names -/

theorem uses_identifierEntry (hlawful : session.Lawful known)
    (hkind : session.cursor.current.kind = .identifier) :
    Traced known .statement (identifierEntry session.cursor.current) session fun id later =>
      session.Uses later [⟨id, true⟩] := by
  unfold identifierEntry
  rw [traced_lookup_bind]
  cases hlookup : session.table.lookup session.cursor.current.text with
  | some id =>
      have hvisible := SymbolTable.visible_of_lookup hlookup
      have hlt := hlawful.valid.bound_lt id hvisible.bound
      dsimp only
      rw [traced_entry_bind]
      cases hdefined : (session.table.entry id).kind != .undefined with
      | true =>
          refine .pure hlawful ⟨by simpa using hlt, by simpa using Or.inl hvisible, ?_⟩
          have hnot : session.table.isUndefined id = false := by
            simpa [SymbolTable.isUndefined] using hdefined
          simp [SymbolTable.lacks, hnot]
      | false =>
          have hundefined : session.table.isUndefined id = true := by
            simpa [SymbolTable.isUndefined] using hdefined
          refine (Traced.of_step rfl hlawful (.flag rfl hlawful.current)).bind ?_
          rintro _ _ - hlater ⟨-, rfl⟩
          refine .pure hlater ⟨by simpa using hlt, by simpa using Or.inl hvisible, ?_⟩
          simp [SymbolTable.lacks, hundefined, Session.misses, Diagnostic.countOf, Diagnostic.atToken]
  | none =>
      refine (Traced.of_step rfl hlawful (.flag rfl hlawful.current)).bind ?_
      rintro _ flagged - hflagged ⟨-, rfl⟩
      refine (traced_enterUndefined hflagged hlawful.current hkind hlookup).mono
        fun id later _ hlater hid => ⟨?_, by simpa using Or.inl hid.2.2.1, ?_⟩
      · simpa using hlater.valid.bound_lt id hid.2.2.1.bound
      · have hundefined : later.table.isUndefined id = true := by
          simp [SymbolTable.isUndefined, hid.2.2.2]
        simp [SymbolTable.lacks, hundefined, Session.misses, hid.2.1, Diagnostic.countOf, Diagnostic.atToken]

theorem uses_resolveIdentifier (hlawful : session.Lawful known)
    (hkind : session.cursor.current.kind = .identifier) :
    Traced known .statement resolveIdentifier session fun id later =>
      session.Uses later [⟨id, true⟩] := by
  unfold resolveIdentifier
  rw [traced_current_bind]
  refine (uses_identifierEntry hlawful hkind).bind fun id later _ hlater hid => ?_
  refine (traced_addLine id hlater hlawful.current).silent.bind fun _ final hline hfinal h => ?_
  exact .pure hfinal (hid.thenNone h.1 hline hlater nofun)

theorem uses_variableReference (hlawful : session.Lawful known)
    (hkind : session.cursor.current.kind = .identifier) :
    Traced known .statement variableReference session fun node later =>
      session.Uses later node.references := by
  unfold variableReference
  refine (uses_resolveIdentifier hlawful hkind).bind fun id later _ hlater hid => ?_
  rw [traced_entry_bind]
  refine (traced_nextToken hlater).silent.bind fun _ final hmove hfinal h => ?_
  exact .pure hfinal (hid.thenNone h.1 hmove hlater nofun)

theorem uses_namedConstant {id : EntryId} (value : ConstantValue) (hlawful : session.Lawful known)
    (hvisible : session.table.Visible id) :
    Traced known .statement (namedConstant id value) session fun node later =>
      session.Uses later node.references := by
  unfold namedConstant
  rw [traced_current_bind]
  refine (traced_addLine id hlawful hlawful.current).silent.bind fun _ named hname hnamed hline => ?_
  rw [traced_entry_bind]
  refine (traced_nextToken hnamed).silent.bind fun _ final hmove hfinal h => .pure hfinal ?_
  have hnode : ({ constantNode value with
      type := (named.table.entry id).resolvedType, entry := some id } : Node).references =
        [⟨id, false⟩] := by
    cases value <;> simp [Node.references_eq, Node.reference?, constantNode]
  rw [hnode]
  have hdeclared := Session.Uses.declared hlawful hvisible
  exact (hdeclared.thenNone hline.1 hname hlawful nofun).thenNone h.1 hmove hnamed nofun

/-! ## Calls -/

theorem references_callNode (type : DataType) (line : Nat) (id : EntryId) (arguments : List Node) :
    (callNode type line id arguments).references =
      ⟨id, false⟩ :: arguments.flatMap Node.references := by
  rw [Node.references_eq]
  cases arguments <;> simp [callNode, Node.reference?, Node.references_of_none]

theorem uses_arguments (himproper : Improper known) {nested : Production Node}
    (h : Accounted known nested) (formals : List DataType) (hlawful : session.Lawful known) :
    Traced known .statement (arguments nested formals) session fun arguments later =>
      session.Uses later (arguments.flatMap Node.references) := by
  unfold arguments
  rw [traced_check_bind]
  split
  · exact .pure hlawful (.refl _)
  · refine .loop (fun arguments later => session.Uses later (arguments.flatMap Node.references)) hlawful
      (.refl _) fun arguments later _ hlater harguments => ?_
    unfold argument
    rw [traced_current_bind]
    refine (h later hlater).bind fun value read hread hreadable hvalue => ?_
    refine (traced_ensure _ _ hreadable hlater.current rfl).silent.bind
      fun _ checked hcheck hchecked hfits => ?_
    refine (traced_matchToken (by simp) hchecked).silent.bind
      fun matched final hmatch hfinal hmatched => ?_
    have huses : session.Uses final ((arguments ++ [value]).flatMap Node.references) := by
      have hboth := harguments.trans hvalue hread hlater nofun
      have hnow := (hboth.thenNone hfits.1 hcheck hreadable nofun).thenNone hmatched.1 hmatch hchecked nofun
      simpa using hnow
    cases matched with
    | true => exact .pure hfinal ⟨huses, Or.inl himproper⟩
    | false => exact .pure hfinal huses

/-- A call refers to its routine, and to what its arguments refer to. -/
theorem uses_call (himproper : Improper known) {nested : Production Node}
    (h : Accounted known nested) {id : EntryId} (hlawful : session.Lawful known)
    (hkind : session.cursor.current.kind = .identifier)
    (hlookup : session.table.lookup session.cursor.current.text = some id)
    (hcallable : (session.table.entry id).kind ∈ DefinitionKind.callables) :
    Traced known .statement (call nested) session fun node later =>
      session.Uses later node.references := by
  unfold call
  rw [traced_current_bind]
  refine ((uses_resolveIdentifier hlawful hkind).and (traced_resolveIdentifier hlawful hkind)).bind
    fun found resolved _ hresolved hfound => ?_
  -- the routine itself is defined
  have hdefined : (resolved.table.entry found).kind ≠ .undefined := by
    rcases hfound.2.cases with ⟨hsame, hagrees⟩ | ⟨hnone, -⟩
    · obtain rfl : found = id := Option.some.inj (hsame.symm.trans hlookup)
      rw [hagrees.kind]
      intro hundefined
      simp [hundefined, DefinitionKind.callables] at hcallable
    · simp [hlookup] at hnone
  have hcallee := hfound.1.asDeclared hdefined
  refine (traced_nextToken hresolved).silent.bind fun _ named hmove hnamed hnext => ?_
  rw [traced_table_bind]
  have hcallee := hcallee.thenNone hnext.1 hmove hresolved (by simp)
  refine (traced_matchToken (by simp) hnamed).silent.bind fun matched opened hopen hopened hmatched => ?_
  have hcallee := hcallee.thenNone hmatched.1 hopen hnamed (by simp)
  cases matched with
  | true =>
      refine (uses_arguments himproper h _ hopened).bind fun arguments read hread hreadable huses => ?_
      refine (traced_expect (by simp) _ hreadable rfl).silent.bind fun _ closed hclose hclosed hexpect => ?_
      refine (traced_ensure _ _ hclosed hlawful.current rfl).silent.bind
        fun _ final hcount hfinal hensure => .pure hfinal ?_
      rw [references_callNode]
      have hall := hcallee.trans huses hread hopened (by simp)
      exact (hall.thenNone hexpect.1 hclose hreadable (by simp)).thenNone hensure.1 hcount hclosed (by simp)
  | false =>
      refine (traced_flag _ hopened rfl).silent.bind fun _ final hflag hfinal hflagged => .pure hfinal ?_
      rw [references_callNode]
      exact hcallee.thenNone hflagged.1 hflag hopened (by simp)

/-! ## Factors -/

theorem uses_literalNode? {token : Token} {node : Node} (h : literalNode? token = some node) :
    node.references = [] := by
  unfold literalNode? at h
  split at h
  iterate 4
    · obtain rfl := Option.some.inj h
      rw [Node.references_of_none rfl]
      rfl
  · simp at h

/-- What uses nothing and makes a node that does nothing. -/
theorem uses_noOp {production : Production Unit} {post : Unit → Session → Prop}
    (h : Traced known .declaration production session post) :
    Traced known .statement
      (do
        production
        return ({ kind := .noOp } : Node))
      session fun node later => session.Uses later node.references := by
  refine h.silent.bind fun _ later _ hlater hnone => .pure hlater ?_
  rw [Node.references_of_none rfl]
  exact hnone.1

theorem traced_drop (hlawful : session.Lawful known) :
    Traced known place
      (do
        flag .unexpectedToken
        let _ ← nextToken)
      session fun _ _ => True := by
  refine (traced_flag _ hlawful rfl).bind fun _ flagged _ hflagged _ => ?_
  exact (traced_nextToken hflagged).bind fun _ _ _ hlater _ => .pure hlater trivial

theorem uses_identifierFactor (himproper : Improper known) {nested : Production Node}
    (h : Accounted known nested) (hlawful : session.Lawful known)
    (hkind : session.cursor.current.kind = .identifier) :
    Traced known .statement (identifierFactor nested) session fun node later =>
      session.Uses later node.references := by
  unfold identifierFactor
  rw [traced_current_bind, traced_lookup_bind]
  cases hlookup : session.table.lookup session.cursor.current.text with
  | none => exact uses_variableReference hlawful hkind
  | some id =>
      dsimp only
      rw [traced_entry_bind]
      cases hdefinition : (session.table.entry id).definition with
      | constant value =>
          exact uses_namedConstant value hlawful (SymbolTable.visible_of_lookup hlookup)
      | function _ | procedure _ =>
          refine uses_call himproper h hlawful hkind hlookup ?_
          simp [Entry.kind, hdefinition, Definition.kind, DefinitionKind.callables]
      | type | program _ => simpa using uses_noOp (traced_drop hlawful)
      | plainVariable _ | valueParameter _ | varParameter _ | undefined =>
          exact uses_variableReference hlawful hkind

theorem accounted_factor (himproper : Improper known) {nested : Production Node}
    (h : Accounted known nested) : Accounted known (factor nested) := by
  intro session hlawful
  unfold factor
  rw [traced_current_bind]
  cases hliteral : literalNode? session.cursor.current with
  | some node =>
      refine (traced_nextToken hlawful).silent.bind fun _ later _ hlater hnone => .pure hlater ?_
      rw [uses_literalNode? hliteral]
      exact hnone.1
  | none =>
      dsimp only
      split
      · next hkind => exact uses_identifierFactor himproper h hlawful hkind
      · refine (traced_nextToken hlawful).silent.bind fun _ opened _ hopened hnone => ?_
        refine (h opened hopened).bind fun node read hread hreadable hnode => ?_
        refine (traced_expect (by simp) _ hreadable rfl).silent.bind
          fun _ final hclose hfinal hexpect => .pure hfinal ?_
        exact (hnone.1.trans hnode hread hopened nofun).thenNone hexpect.1 hclose hreadable nofun
      · exact uses_noOp (traced_flag _ hlawful rfl)

/-! ## Expressions -/

theorem accounted_expressionWithin (himproper : Improper known) :
    ∀ depth, Accounted known (expressionWithin depth)
  | 0 => fun _ _ => .unfinished himproper
  | depth + 1 => by
      refine accounted_operations himproper (fun session hlawful => ?_) _
      have hfactor : Accounted known (factor (expressionWithin depth)) :=
        accounted_factor himproper (accounted_expressionWithin himproper depth)
      unfold operand
      rw [traced_budget_bind]
      exact accounted_operandWithin himproper hfactor _ session hlawful

/-- An expression answers for its uses, whatever tokens it is made of. -/
theorem accounted_expression (himproper : Improper known) : Accounted known expression := by
  intro session hlawful
  unfold expression
  rw [traced_budget_bind]
  exact accounted_expressionWithin himproper _ session hlawful

end Production

end FrontEnd
