import FrontEnd.Proofs.Compilation
import FrontEnd.Proofs.Uses
import FrontEnd.Proofs.Wording
import Mathlib

/-!
# What a listing tells

The listing of a tree of intermediate code tells everything about the tree but the handles of entries, of which
it has the names (`Node.named`).  Trees of any two units that are compiled from texts are the same up to this if
their listings are (`compile_listing_injective`), as far as reals can be told from their texts.

## Strategy

The line with which a node begins is read from left to right.  A space ends the kind, and an attribute that is
missing can be told from one that is not by what comes next, which never begins like the attribute
(`Code.quotedAttribute_append_inj`).  What is quoted may contain brackets, quotes, or what looks like an attribute;
its own quotes come after backslashes.  Only texts of types are not quoted in this way; they are read from the
end of the line.

The lines of a tree are then read together with any lines after them (`Code.nodeLines_append_inj`), by recursion
over one of the two trees.  Where children may end, the line with which the node around them ends is less
indented than that of any further child.
-/

namespace FrontEnd

/-! ## Trees with names -/

/-- A node of intermediate code that refers to an entry by its name. -/
structure NamedNode where
  kind : NodeKind
  children : List NamedNode
  type : DataType
  line : Option Nat
  name : Option String
  value : Option Literal
deriving Repr

namespace Node

mutual

/-- The tree with the names of the entries in the place of their handles. -/
def named (table : SymbolTable) : Node → NamedNode
  | ⟨kind, children, type, line, entry, value⟩ =>
    ⟨kind, namedAll table children, type, line, entry.map fun id => (table.entry id).name, value⟩

/-- Several trees with the names of the entries in the place of their handles. -/
def namedAll (table : SymbolTable) : List Node → List NamedNode
  | [] => []
  | node :: nodes => node.named table :: namedAll table nodes

end

/-- The node with the name of its entry and without its children. -/
def alone (table : SymbolTable) (node : Node) : NamedNode :=
  { node with children := [], name := node.entry.map fun id => (table.entry id).name }

theorem named_eq (table : SymbolTable) (node : Node) :
    node.named table = { node.alone table with children := namedAll table node.children } := by
  obtain ⟨kind, children, type, line, entry, value⟩ := node
  rfl

/-- The real that a node has as its value. -/
def real? (node : Node) : Option Binary64 :=
  match node.value with
  | some (.real value) => some value
  | _ => none

/-- The reals that are values in a tree. -/
def reals (node : Node) : List Binary64 :=
  node.nodes.filterMap real?

/-- Whether the attributes of a node can be told from its line in a listing: the kind of the node says what its
value is, and the name of its entry can stand between quotes. -/
structure Readable (table : SymbolTable) (node : Node) : Prop where
  value : ∀ literal ∈ node.value, node.kind = literal.node.kind
  name : ∀ id ∈ node.entry, Text.Quotable (table.entry id).name.toList

theorem nodes_eq_cons (node : Node) : node.nodes = node :: nodesOfAll node.children := by
  rw [nodes_eq, nodesOfAll_eq]

end Node

open Text (Quotable append_delimiter_inj)

/-! ## Kinds, types and values -/

/-- A space ends the name of a kind. -/
theorem NodeKind.notMem_name (kind : NodeKind) : ' ' ∉ kind.name.toList := by
  cases kind <;> decide

theorem NodeKind.name_injective {kind kind' : NodeKind} (h : kind.name = kind'.name) : kind = kind' := by
  have hall : ∀ kind ∈ NodeKind.all, ∀ kind' ∈ NodeKind.all, kind.name = kind'.name → kind = kind' := by
    decide
  exact hall kind kind.mem_all kind' kind'.mem_all h

theorem Scalar.name_injective {scalar scalar' : Scalar} (h : scalar.name = scalar'.name) :
    scalar = scalar' := by
  cases scalar <;> cases scalar' <;> first | rfl | simp [Scalar.name] at h

/-- What a type is made of, read off its text: a record begins with the letter of its word, as no scalar does,
and only arrays have a bracket. -/
def formOfText (text : List Char) : TypeForm :=
  if text.head? = some 's' then .record else if '[' ∈ text then .array else .scalar

theorem formOfText_text (type : DataType) : formOfText type.text.toList = type.form := by
  cases type with
  | scalar scalar => cases scalar <;> decide
  | array element count => cases element <;> simp [formOfText, DataType.text, Scalar.name, DataType.form]
  | record name => simp [formOfText, DataType.text, DataType.form]

theorem DataType.text_injective {type type' : DataType} (h : type.text = type'.text) : type = type' := by
  have hform : type.form = type'.form := by rw [← formOfText_text, h, formOfText_text]
  cases type <;> cases type' <;> simp only [DataType.form, reduceCtorEq] at hform
  case scalar scalar scalar' => rw [Scalar.name_injective h]
  case array element count element' count' =>
      have hbracket (scalar : Scalar) : '[' ∉ scalar.name.toList := by cases scalar <;> decide
      replace h := congrArg String.toList h
      simp only [DataType.text, String.toList_append, List.append_assoc] at h
      obtain ⟨hname, hcount⟩ := append_delimiter_inj (hbracket element) (hbracket element') h
      obtain ⟨hcount, -⟩ := List.append_singleton_inj.mp hcount
      rw [Scalar.name_injective (String.toList_inj.mp hname),
        Nat.repr_injective (String.toList_inj.mp hcount)]
  case record name name' => rw [(String.append_right_inj _).mp h]

/-- A literal is known from its text and the kind of its node, if reals are known from their texts. -/
theorem Literal.text_injective {literal literal' : Literal} (hkind : literal.node.kind = literal'.node.kind)
    (hreal : ∀ x x', literal = .real x → literal' = .real x' → x.text = x'.text → x = x')
    (h : literal.text = literal'.text) : literal = literal' := by
  cases literal <;> cases literal' <;> simp only [Literal.node, reduceCtorEq] at hkind
  case integer value value' => rw [Int.repr_injective h]
  case real value value' => rw [hreal value value' rfl rfl h]
  case character value value' => rw [Text.listedForm_injective h]
  case string value value' => rw [Text.listedText_injective h]

namespace Code

variable {table table' : SymbolTable} {node node' : Node} {rest rest' : List Char}

/-! ## Attributes -/

theorem toList_quotedAttribute (name value : String) :
    (quotedAttribute name (some value)).toList =
      ' ' :: name.toList ++ '=' :: '"' :: value.toList ++ ['"'] := by
  simp [quotedAttribute]

/-- An attribute that may be missing, and what follows it, are determined, unless what follows begins as the
attribute does. -/
theorem quotedAttribute_append_inj {name : String} {value value' : Option String}
    (h : ∀ text ∈ value, Quotable text.toList) (h' : ∀ text ∈ value', Quotable text.toList)
    (hrest : ¬ ' ' :: name.toList <+: rest) (hrest' : ¬ ' ' :: name.toList <+: rest')
    (heq : (quotedAttribute name value).toList ++ rest = (quotedAttribute name value').toList ++ rest') :
    value = value' ∧ rest = rest' := by
  cases value with
  | none =>
      cases value' with
      | none => exact ⟨rfl, heq⟩
      | some text' =>
          refine absurd ?_ hrest
          rw [show rest = _ from heq, toList_quotedAttribute]
          simp
  | some text =>
      cases value' with
      | none =>
          refine absurd ?_ hrest'
          rw [show rest' = _ from heq.symm, toList_quotedAttribute]
          simp
      | some text' =>
          rw [toList_quotedAttribute, toList_quotedAttribute] at heq
          obtain ⟨htext, hrest⟩ := (h text rfl).append_quote_inj (h' text' rfl) (by simpa using heq)
          exact ⟨congrArg some (String.toList_inj.mp htext), hrest⟩

/-! ## Lines -/

/-- The line with which a node begins. -/
def firstLine (table : SymbolTable) (depth : Nat) (node : Node) : String :=
  indentation depth ++ opening table node ++ if node.children.isEmpty then " />" else ">"

/-- The line with which a node with children ends. -/
def lastLine (depth : Nat) (kind : NodeKind) : String :=
  indentation depth ++ "</" ++ kind.name ++ ">"

theorem nodeLines_eq (table : SymbolTable) (depth : Nat) (node : Node) :
    nodeLines table depth node = firstLine table depth node ::
      if node.children.isEmpty then []
      else childLines table (depth + 1) node.children ++ [lastLine depth node.kind] := by
  obtain ⟨kind, children, type, line, entry, value⟩ := node
  unfold nodeLines firstLine lastLine
  cases children <;> simp

/-- What follows the type tells whether there are children. -/
theorem ending_inj {text text' : List Char} {closed closed' : Bool}
    (h : text ++ '"' :: (if closed then " />" else ">").toList =
      text' ++ '"' :: (if closed' then " />" else ">").toList) : text = text' ∧ closed = closed' := by
  -- the last character but one is a quote or a slash
  have hslash := congrArg (fun line => line.reverse[1]?) h
  cases closed <;> cases closed'
  case false.true | true.false => simp at hslash
  case false.false | true.true => exact ⟨by simpa using h, rfl⟩

/-- What stands between the kind of a node and the end of its line. -/
def attributes (table : SymbolTable) (node : Node) : String :=
  quotedAttribute "line" (node.line.map toString) ++
    (quotedAttribute "id" (node.entry.map fun id => (table.entry id).name) ++
      (quotedAttribute "value" (node.value.map Literal.text) ++
        quotedAttribute "type" (some node.type.text)))

theorem exists_attributes_eq (table : SymbolTable) (node : Node) :
    ∃ text, (attributes table node).toList = ' ' :: text := by
  unfold attributes
  cases node.line <;> cases node.entry <;> cases node.value <;> simp [quotedAttribute]

/-- The value of a node is known from its text, as the kind of the node says how to read that. -/
theorem value_inj (h : node.Readable table) (h' : node'.Readable table')
    (hkind : node.kind = node'.kind)
    (hreals : ∀ x ∈ node.real?, ∀ x' ∈ node'.real?, x.text = x'.text → x = x')
    (heq : node.value.map Literal.text = node'.value.map Literal.text) : node.value = node'.value := by
  cases hvalue : node.value with
  | none =>
      rw [hvalue] at heq
      exact (Option.map_eq_none_iff.mp heq.symm).symm
  | some literal =>
      rw [hvalue] at heq
      obtain ⟨literal', hvalue', htext⟩ := Option.map_eq_some_iff.mp heq.symm
      rw [hvalue']
      have hsame : literal.node.kind = literal'.node.kind := by
        rw [← h.value literal hvalue, hkind, h'.value literal' hvalue']
      refine congrArg some (Literal.text_injective hsame ?_ htext.symm)
      rintro x x' rfl rfl
      exact hreals x (by simp [Node.real?, hvalue]) x' (by simp [Node.real?, hvalue'])

/-- Each attribute begins with another letter, and the end of the type is where the line ends. -/
theorem attributes_append_inj {closed closed' : Bool} (h : node.Readable table) (h' : node'.Readable table')
    (heq : (attributes table node).toList ++ (if closed then " />" else ">").toList =
      (attributes table' node').toList ++ (if closed' then " />" else ">").toList) :
    node.line = node'.line ∧
      (node.entry.map fun id => (table.entry id).name) = node'.entry.map (fun id => (table'.entry id).name) ∧
      node.value.map Literal.text = node'.value.map Literal.text ∧ node.type = node'.type ∧
        closed = closed' := by
  have hlines (node : Node) : ∀ text ∈ node.line.map toString, Quotable text.toList := by
    simpa using fun line _ => Text.quotable_toString line
  have hvalues (node : Node) : ∀ text ∈ node.value.map Literal.text, Quotable text.toList := by
    simpa using fun literal _ => literal.quotable_text
  simp only [attributes, String.toList_append, List.append_assoc] at heq
  obtain ⟨hline, heq⟩ := quotedAttribute_append_inj (hlines node) (hlines node')
    (by cases node.entry <;> cases node.value <;> simp [quotedAttribute])
    (by cases node'.entry <;> cases node'.value <;> simp [quotedAttribute]) heq
  obtain ⟨hname, heq⟩ := quotedAttribute_append_inj (by simpa using h.name) (by simpa using h'.name)
    (by cases node.value <;> simp [quotedAttribute])
    (by cases node'.value <;> simp [quotedAttribute]) heq
  obtain ⟨hvalue, heq⟩ := quotedAttribute_append_inj (hvalues node) (hvalues node')
    (by simp [quotedAttribute]) (by simp [quotedAttribute]) heq
  simp only [toList_quotedAttribute, List.cons_append, List.append_assoc, List.cons.injEq, true_and,
    List.append_cancel_left_eq, List.nil_append] at heq
  obtain ⟨htype, hclosed⟩ := ending_inj heq
  refine ⟨?_, hname, hvalue, DataType.text_injective (String.toList_inj.mp htype), hclosed⟩
  exact Option.map_injective (fun _ _ => Nat.repr_injective) hline

theorem firstLine_injective {depth : Nat} (h : node.Readable table) (h' : node'.Readable table')
    (hreals : ∀ x ∈ node.real?, ∀ x' ∈ node'.real?, x.text = x'.text → x = x')
    (heq : firstLine table depth node = firstLine table' depth node') :
    node.alone table = node'.alone table' ∧ node.children.isEmpty = node'.children.isEmpty := by
  obtain ⟨text, htext⟩ := exists_attributes_eq table node
  obtain ⟨text', htext'⟩ := exists_attributes_eq table' node'
  have hopening (table : SymbolTable) (node : Node) :
      opening table node = "<" ++ (node.kind.name ++ attributes table node) := by
    simp only [opening, attributes, String.append_assoc]
  replace heq := congrArg String.toList heq
  simp only [firstLine, hopening, String.toList_append, List.append_assoc, List.append_cancel_left_eq] at heq
  obtain ⟨hname, hrest⟩ := append_delimiter_inj node.kind.notMem_name node'.kind.notMem_name
    (by rwa [htext, htext'] at heq)
  have hkind := NodeKind.name_injective (String.toList_inj.mp hname)
  have hattributes := List.append_cancel_left (hname ▸ heq)
  obtain ⟨hline, hname, hvalue, htype, hclosed⟩ := attributes_append_inj h h' hattributes
  have hvalue := value_inj h h' hkind hreals hvalue
  refine ⟨?_, hclosed⟩
  simp only [Node.alone, hkind, hline, hname, hvalue, htype]

/-! ## Trees -/

/-- A node does not begin with the line with which the node around it ends. -/
theorem firstLine_ne_lastLine (table : SymbolTable) (depth : Nat) (node : Node) (kind : NodeKind) :
    firstLine table (depth + 1) node ≠ lastLine depth kind := by
  intro heq
  -- one is indented where the other has its bracket
  replace heq := congrArg String.toList heq
  simp [firstLine, lastLine, indentation, Nat.mul_add, List.replicate_add] at heq

/-- Whether no real of some nodes is written as another real of some other nodes. -/
def RealsApart (nodes nodes' : List Node) : Prop :=
  ∀ x ∈ nodes.filterMap Node.real?, ∀ x' ∈ nodes'.filterMap Node.real?, x.text = x'.text → x = x'

namespace RealsApart

variable {nodes nodes' fewer fewer' : List Node}

theorem mono (h : RealsApart nodes nodes') (hfewer : fewer ⊆ nodes) (hfewer' : fewer' ⊆ nodes') :
    RealsApart fewer fewer' :=
  fun x hx x' hx' => h x (List.filterMap_subset _ hfewer hx) x' (List.filterMap_subset _ hfewer' hx')

theorem root (h : RealsApart (node :: nodes) (node' :: nodes')) :
    ∀ x ∈ node.real?, ∀ x' ∈ node'.real?, x.text = x'.text → x = x' :=
  fun x hx x' hx' => h x (List.mem_filterMap.mpr ⟨node, List.mem_cons_self, hx⟩) x'
    (List.mem_filterMap.mpr ⟨node', List.mem_cons_self, hx'⟩)

end RealsApart

mutual

/-- The lines of a tree and what follows them are determined. -/
theorem nodeLines_append_inj {depth : Nat} : ∀ {node node' : Node} {rest rest' : List String},
    (∀ inner ∈ node.nodes, inner.Readable table) → (∀ inner ∈ node'.nodes, inner.Readable table') →
    RealsApart node.nodes node'.nodes →
    nodeLines table depth node ++ rest = nodeLines table' depth node' ++ rest' →
    node.named table = node'.named table' ∧ rest = rest'
  | node@⟨_, children, _, _, _, _⟩, node', rest, rest', h, h', hreals, heq => by
    rw [nodeLines_eq, nodeLines_eq, List.cons_append, List.cons_append] at heq
    obtain ⟨hfirst, hlines⟩ := List.cons.inj heq
    rw [Node.nodes_eq_cons] at h h' hreals
    rw [Node.nodes_eq_cons node'] at hreals
    obtain ⟨hown, hchildren⟩ := List.forall_mem_cons.mp h
    obtain ⟨hown', hchildren'⟩ := List.forall_mem_cons.mp h'
    obtain ⟨halone, hempty⟩ := firstLine_injective hown hown' hreals.root hfirst
    rw [Node.named_eq, Node.named_eq, halone]
    rw [hempty] at hlines
    cases hleaf : node'.children.isEmpty with
    | true =>
        rw [hleaf] at hempty
        rw [List.isEmpty_iff.mp hempty, List.isEmpty_iff.mp hleaf]
        exact ⟨rfl, by simpa [hleaf] using hlines⟩
    | false =>
        rw [hleaf, if_neg (by simp), if_neg (by simp), List.append_assoc, List.append_assoc] at hlines
        have hbelow : RealsApart (Node.nodesOfAll children) (Node.nodesOfAll node'.children) :=
          hreals.mono (List.subset_cons_self _ _) (List.subset_cons_self _ _)
        obtain ⟨hnamed, hrest⟩ := childLines_append_inj hchildren hchildren' hbelow hlines
        exact ⟨by rw [hnamed], hrest⟩

/-- The lines of several trees are determined where the node around them ends behind them. -/
theorem childLines_append_inj {depth : Nat} {kind kind' : NodeKind} :
    ∀ {nodes nodes' : List Node} {rest rest' : List String},
    (∀ inner ∈ Node.nodesOfAll nodes, inner.Readable table) →
    (∀ inner ∈ Node.nodesOfAll nodes', inner.Readable table') →
    RealsApart (Node.nodesOfAll nodes) (Node.nodesOfAll nodes') →
    childLines table (depth + 1) nodes ++ lastLine depth kind :: rest =
      childLines table' (depth + 1) nodes' ++ lastLine depth kind' :: rest' →
    Node.namedAll table nodes = Node.namedAll table' nodes' ∧ rest = rest'
  | [], nodes', rest, rest', h, h', hreals, heq => by
    cases nodes' with
    | nil => exact ⟨rfl, (List.cons.inj heq).2⟩
    | cons node' nodes' =>
        rw [childLines, childLines, nodeLines_eq] at heq
        exact absurd (List.cons.inj heq).1.symm (firstLine_ne_lastLine table' depth node' kind)
  | node :: nodes, nodes', rest, rest', h, h', hreals, heq => by
    cases nodes' with
    | nil =>
        rw [childLines, childLines, nodeLines_eq] at heq
        exact absurd (List.cons.inj heq).1 (firstLine_ne_lastLine table depth node kind')
    | cons node' nodes' =>
        rw [childLines, childLines, List.append_assoc, List.append_assoc] at heq
        simp only [Node.nodesOfAll, List.forall_mem_append] at h h'
        obtain ⟨hnode, hrest⟩ := nodeLines_append_inj h.1 h'.1
          (hreals.mono (List.subset_append_left _ _) (List.subset_append_left _ _)) heq
        obtain ⟨hnodes, rfl⟩ := childLines_append_inj h.2 h'.2
          (hreals.mono (List.subset_append_right _ _) (List.subset_append_right _ _)) hrest
        exact ⟨by rw [Node.namedAll, Node.namedAll, hnode, hnodes], rfl⟩

end

theorem listing_injective (h : ∀ inner ∈ node.nodes, inner.Readable table)
    (h' : ∀ inner ∈ node'.nodes, inner.Readable table') (hreals : RealsApart node.nodes node'.nodes)
    (heq : listing table node = listing table' node') : node.named table = node'.named table' :=
  (nodeLines_append_inj h h' hreals (congrArg (· ++ []) heq)).1

end Code

/-! ## Units -/

/-- What the values of nodes are can be told from their kinds. -/
theorem SymbolTable.holdsOfNodes_value {accepted : Prop} {table : SymbolTable} :
    table.HoldsOfNodes accepted fun node => ∀ literal ∈ node.value, node.kind = literal.node.kind where
  plain _ _ _ hvalue _ := hvalue
  constant {id value} _ := by cases value <;> simp [SymbolTable.constantNode, ConstantValue.literal, Literal.node]
  reference _ := nofun
  call _ _ _ _ := nofun

/-- What stands in the bodies of a unit can be read off a listing. -/
theorem compile_readable {source : String} {unit : CompilationUnit} (h : compileText source = .ok unit)
    {id : EntryId} {body node : Node} (hbody : body ∈ (unit.table.entry id).body?) (hnode : node ∈ body.nodes) :
    ∀ inner ∈ node.nodes, inner.Readable unit.table := by
  intro inner hinner
  have hmem : inner ∈ body.nodes := Node.nodes_subset hnode hinner
  have hvalues := (compile_wellFormed h id body hbody).forall_nodes SymbolTable.holdsOfNodes_value
    fun _ _ _ => nofun
  exact ⟨hvalues inner hmem, fun id _ => (compile_worded h id).quotable⟩

/-- If two trees of intermediate code that have been compiled from texts, or parts of them, have the same listing,
then they are the same but for the handles of entries, whose names are the same.  Their reals are told apart by
their texts. -/
theorem compile_listing_injective {source source' : String} {unit unit' : CompilationUnit}
    (h : compileText source = .ok unit) (h' : compileText source' = .ok unit')
    {id id' : EntryId} {body body' node node' : Node}
    (hbody : body ∈ (unit.table.entry id).body?) (hbody' : body' ∈ (unit'.table.entry id').body?)
    (hnode : node ∈ body.nodes) (hnode' : node' ∈ body'.nodes)
    (hreals : ∀ x ∈ node.reals, ∀ x' ∈ node'.reals, x.text = x'.text → x = x')
    (hlisting : Code.listing unit.table node = Code.listing unit'.table node') :
    node.named unit.table = node'.named unit'.table :=
  Code.listing_injective (compile_readable h hbody hnode) (compile_readable h' hbody' hnode') hreals hlisting

/-- Another variable before `f` changes the handles in its body.  The text that is assigned contains what ends
a line of a listing. -/
theorem compile_listing_injective_renumbered :
    ∃ unit unit', compileText "void f() \x7b double x; x = 2.5; x = \"\\\" />\"; \x7d" = .ok unit ∧
      compileText "int n; void f() \x7b double x; x = 25e-1; x = \"\\\" />\"; \x7d" = .ok unit' ∧
      ∃ body ∈ (unit.table.entry 6).body?, ∃ body' ∈ (unit'.table.entry 7).body?,
        Code.listing unit.table body = Code.listing unit'.table body' ∧
          body.named unit.table = body'.named unit'.table := by
  obtain ⟨lines, ⟨unit, hunit, hbody⟩, unit', hunit', hbody'⟩ : ∃ lines : List String,
      (∃ unit, compileText "void f() \x7b double x; x = 2.5; x = \"\\\" />\"; \x7d" = .ok unit ∧
        (unit.table.entry 6).body?.map (fun body => (Code.listing unit.table body, body.reals)) =
          some (lines, [⟨4612811918334230528⟩])) ∧
      ∃ unit', compileText "int n; void f() \x7b double x; x = 25e-1; x = \"\\\" />\"; \x7d" = .ok unit' ∧
        (unit'.table.entry 7).body?.map (fun body => (Code.listing unit'.table body, body.reals)) =
          some (lines, [⟨4612811918334230528⟩]) := by
    refine ⟨["<COMPOUND line=\"1\" type=\"undefined\">",
        "    <NO_OP line=\"1\" type=\"undefined\" />",
        "    <ASSIGN line=\"1\" type=\"double\">",
        "        <VARIABLE id=\"x\" type=\"double\" />",
        "        <REAL_CONSTANT value=\"2.5\" type=\"double\" />",
        "    </ASSIGN>",
        "    <ASSIGN line=\"1\" type=\"double\">",
        "        <VARIABLE id=\"x\" type=\"double\" />",
        "        <STRING_CONSTANT value=\"\\\" />\" type=\"char[5]\" />",
        "    </ASSIGN>",
        "</COMPOUND>"], exists_compiled ?_, exists_compiled ?_⟩ <;> decide +kernel
  obtain ⟨body, hbody, hmade⟩ := Option.map_eq_some_iff.mp hbody
  obtain ⟨body', hbody', hmade'⟩ := Option.map_eq_some_iff.mp hbody'
  obtain ⟨hlines, hreals⟩ := Prod.mk.inj hmade
  obtain ⟨hlines', hreals'⟩ := Prod.mk.inj hmade'
  have hroot (root : Node) : root ∈ root.nodes := by simp [Node.nodes_eq root]
  have hsame := hlines.trans hlines'.symm
  have hapart : ∀ x ∈ body.reals, ∀ x' ∈ body'.reals, x.text = x'.text → x = x' := by
    simp [hreals, hreals']
  exact ⟨unit, unit', hunit, hunit', body, hbody, body', hbody', hsame,
    compile_listing_injective hunit hunit' hbody hbody' (hroot body) (hroot body') hapart hsame⟩

end FrontEnd
