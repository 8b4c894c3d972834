/-
Kinds that are called like known ones, in the markup. A kind of its own under a known name is mapped
as the known kind, so it has the same tag, the same style and the same text, and is imported alike.
Its content attribute is chosen by the kind itself, though: the placeholder of a text input and the
source of an image are written for the known kind only.
-/
import AppExport.Bundle.Documents
import AppExport.Proofs.Markup.ImportList

namespace AppExport.Markup

open Component (Forest Kind Node Props)

/-! ## What is the same -/

theorem ofKind_recognized (k : Kind) : Mapping.ofKind k.recognized = Mapping.ofKind k := by
  rw [ofKind_eq_direct, ofKind_eq_direct, Kind.ofName_name_recognized]

theorem imports_recognized (forest : Forest) : imports forest.recognized = imports forest := by
  have hwalk : forest.recognized.walk = forest.walk.map Node.recognized :=
    Node.walkAll_recognizedAll forest
  have hkind : ∀ node : Node, node.recognized.kind = node.kind.recognized := by
    rintro ⟨_, _, _, _, _, _⟩
    rw [Node.recognized]
  rw [imports_eq, imports_eq, hwalk, List.map_map]
  simp only [Function.comp_def, hkind, ofKind_recognized]

/-- The attributes that every kind has alike: the style. -/
def Head.styled (h : Head) : Head := { h with attributes := h.attributes.filter (·.name == "style") }

namespace Element

mutual
/-- An element with its style as its only attribute. -/
def styled : Element → Element
  | empty h => .empty h.styled
  | text h content => .text h.styled content
  | group h children => .group h.styled (styledAll children)

def styledAll : List Element → List Element
  | [] => []
  | e :: rest => e.styled :: styledAll rest
end

end Element

theorem filter_contentAttribute (kind : Kind) (p : Props) :
    (contentAttribute kind p).filter (·.name == "style") = [] := by
  unfold contentAttribute
  split <;> rfl

theorem styled_headOf (kind : Kind) (p : Props) :
    (headOf kind.recognized p).styled = (headOf kind p).styled := by
  simp only [Head.styled, headOf, ofKind_recognized, List.filter_append, filter_contentAttribute]

theorem styled_lowerLeaf (kind : Kind) (p : Props) :
    (lowerLeaf kind.recognized p).styled = (lowerLeaf kind p).styled := by
  rw [lowerLeaf, lowerLeaf, ofKind_recognized]
  split
  · split <;> simp only [Element.styled, styled_headOf]
  · simp only [Element.styled, styled_headOf]

mutual
theorem styled_lowerNode : ∀ node : Node, (lowerNode node.recognized).styled = (lowerNode node).styled
  | ⟨_, kind, p, [], _, _⟩ => by
    rw [Node.recognized, Node.recognizedAll, lowerNode, lowerNode, styled_lowerLeaf]
  | ⟨_, kind, p, child :: rest, _, _⟩ => by
    have hchildren := styledAll_lowerAll (child :: rest)
    rw [Node.recognizedAll] at hchildren
    rw [Node.recognized, Node.recognizedAll, lowerNode, lowerNode, Element.styled, Element.styled,
      styled_headOf, hchildren]

theorem styledAll_lowerAll : ∀ nodes : List Node,
    Element.styledAll (lowerAll (Node.recognizedAll nodes)) = Element.styledAll (lowerAll nodes)
  | [] => rfl
  | node :: rest => by
    rw [Node.recognizedAll, lowerAll, lowerAll, Element.styledAll, Element.styledAll,
      styled_lowerNode node, styledAll_lowerAll rest]
end

/-! ## What is lost -/

/-- Whether a node's kind is called like a text input or an image without being it, and the node has
what that kind would show. -/
def HidesContent (node : Node) : Prop :=
  ∃ name, node.kind = .other name ∧
    (Kind.ofName name = .textInput ∧ node.props.placeholder ≠ none ∨
      Kind.ofName name = .image ∧ node.props.source ≠ none)

theorem contentAttribute_ne_nil_iff (kind : Kind) (p : Props) :
    contentAttribute kind p ≠ [] ↔
      kind = .textInput ∧ p.placeholder ≠ none ∨ kind = .image ∧ p.source ≠ none := by
  cases kind with
  | textInput => cases h : p.placeholder <;> simp [contentAttribute, h]
  | image => cases h : p.source <;> simp [contentAttribute, h]
  | _ => simp [contentAttribute]

theorem headOf_recognized_iff (node : Node) :
    headOf node.kind.recognized node.props = headOf node.kind node.props ↔ ¬HidesContent node := by
  have hheads : headOf node.kind.recognized node.props = headOf node.kind node.props ↔
      contentAttribute node.kind.recognized node.props = contentAttribute node.kind node.props := by
    simp [headOf, ofKind_recognized]
  rw [hheads, HidesContent]
  cases hk : node.kind with
  | other name =>
    have hnone : contentAttribute (.other name) node.props = [] := rfl
    have hlost := contentAttribute_ne_nil_iff (Kind.ofName name) node.props
    rw [Kind.recognized, hnone, ← not_iff_not, not_not, ← ne_eq, hlost]
    simp
  | _ => simp [Kind.recognized]

theorem lowerLeaf_inj {kind kind' : Kind} (h : Mapping.ofKind kind = Mapping.ofKind kind')
    (p : Props) : lowerLeaf kind p = lowerLeaf kind' p ↔ headOf kind p = headOf kind' p := by
  rw [lowerLeaf, lowerLeaf, h]
  split
  · split <;> simp
  · simp

mutual
theorem lowerNode_recognized_iff : ∀ node : Node,
    lowerNode node.recognized = lowerNode node ↔ ∀ n ∈ node.walk, ¬HidesContent n
  | ⟨id, kind, p, [], position, size⟩ => by
    have hhead := headOf_recognized_iff ⟨id, kind, p, [], position, size⟩
    rw [Node.recognized, Node.recognizedAll, lowerNode, lowerNode,
      lowerLeaf_inj (ofKind_recognized kind), hhead, Node.walk, Node.walkAll,
      List.forall_mem_singleton]
  | ⟨id, kind, p, child :: rest, position, size⟩ => by
    have hhead := headOf_recognized_iff ⟨id, kind, p, child :: rest, position, size⟩
    have hchildren := lowerAll_recognized_iff (child :: rest)
    rw [Node.recognizedAll] at hchildren
    rw [Node.recognized, Node.recognizedAll, lowerNode, lowerNode, Element.group.injEq, hhead,
      hchildren, Node.walk, List.forall_mem_cons]

theorem lowerAll_recognized_iff : ∀ nodes : List Node,
    lowerAll (Node.recognizedAll nodes) = lowerAll nodes ↔
      ∀ n ∈ Node.walkAll nodes, ¬HidesContent n
  | [] => by simp [Node.recognizedAll, Node.walkAll]
  | node :: rest => by
    rw [Node.recognizedAll, lowerAll, lowerAll, List.cons.injEq, lowerNode_recognized_iff node,
      lowerAll_recognized_iff rest, Node.walkAll, List.forall_mem_append]
end

/-- A forest and the one whose kinds its names stand for import the same primitives and are lowered
to the same elements but for placeholders and sources. They are lowered to the same elements
altogether, and make the same entry module, unless a kind of its own is called like a text input and
has a placeholder, or is called like an image and has a source. -/
theorem lower_recognized_iff (forest : Forest) (config : Config) :
    imports forest.recognized = imports forest ∧
      Element.styledAll (lower forest.recognized) = Element.styledAll (lower forest) ∧
      (lower forest.recognized = lower forest ↔ ∀ node ∈ forest.walk, ¬HidesContent node) ∧
      (lower forest.recognized = lower forest →
        Bundle.entryModule forest.recognized config = Bundle.entryModule forest config) := by
  refine ⟨imports_recognized forest, styledAll_lowerAll forest, lowerAll_recognized_iff forest,
    fun h => ?_⟩
  simp only [Bundle.entryModule, h, imports_recognized]

/-- A kind of its own that is called `TextInput` loses its placeholder. -/
theorem placeholder_lost :
    let forest : Forest :=
      [⟨"a", .other "TextInput", { Props.empty with placeholder := some "x" }, [], none, none⟩]
    print (lower forest.recognized) 0 = "<TextInput placeholder=\"x\" />" ∧
      print (lower forest) 0 = "<TextInput />" ∧
      Bundle.entryModule forest.recognized .fresh ≠ Bundle.entryModule forest .fresh := by
  decide +kernel

end AppExport.Markup
