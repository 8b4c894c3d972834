/-
What the generated source shows of a component: its kind, its style with the shorthands on top, and its
text, placeholder or source where the kind has a use for it. Forests that agree in that, node by node,
are lowered to the same elements, import the same primitives and make the same entry module.
-/
import AppExport.Bundle.Documents
import AppExport.Proofs.Component.Resolved

namespace AppExport.Markup

open Component (Forest Kind Node Props Shorthand)

/-- Whether two nodes agree in all that is shown of them, their children aside. A shorthand that is
null counts as absent. -/
structure Alike (node other : Node) : Prop where
  kind : node.kind = other.kind
  style : node.props.style = other.props.style
  shorthands : ∀ s, node.props.shorthand? s = other.props.shorthand? s
  text : node.children = [] → (Mapping.ofKind node.kind).acceptsText = true →
    node.props.text = other.props.text
  placeholder : node.kind = .textInput → node.props.placeholder = other.props.placeholder
  source : node.kind = .image → node.props.source = other.props.source

mutual
/-- Whether two trees have the same shape and agree, node by node, in all that is shown. -/
def AlikeTree : Node → Node → Prop
  | ⟨id, kind, props, children, position, size⟩, other =>
    Alike ⟨id, kind, props, children, position, size⟩ other ∧ AlikeForest children other.children

def AlikeForest : List Node → List Node → Prop
  | [], [] => True
  | node :: rest, other :: others => AlikeTree node other ∧ AlikeForest rest others
  | _, _ => False
end

/-! ## One node -/

theorem contentAttribute_congr {kind : Kind} {p q : Props}
    (hplaceholder : kind = .textInput → p.placeholder = q.placeholder)
    (hsource : kind = .image → p.source = q.source) :
    contentAttribute kind p = contentAttribute kind q := by
  cases kind with
  | textInput =>
    unfold contentAttribute
    rw [hplaceholder rfl]
    cases q.placeholder <;> rfl
  | image =>
    unfold contentAttribute
    rw [hsource rfl]
    cases q.source <;> rfl
  | _ => rfl

theorem Alike.headOf_eq {node other : Node} (h : Alike node other) :
    headOf node.kind node.props = headOf other.kind other.props := by
  have hstyle := Props.resolvedStyle_congr h.style h.shorthands
  have hcontent := contentAttribute_congr h.placeholder h.source
  rw [headOf, headOf, styleAttribute, styleAttribute, ← h.kind, hstyle, hcontent]

theorem Alike.lowerLeaf_eq {node other : Node} (h : Alike node other) (hleaf : node.children = []) :
    lowerLeaf node.kind node.props = lowerLeaf other.kind other.props := by
  have hhead := h.headOf_eq
  rw [← h.kind] at hhead ⊢
  unfold lowerLeaf
  by_cases haccepts : (Mapping.ofKind node.kind).acceptsText = true
  · simp only [h.text hleaf haccepts, hhead]
  · simp only [haccepts, hhead, Bool.false_eq_true, if_false]
    split <;> split <;> rfl

/-! ## Whole forests -/

mutual
theorem AlikeTree.lowerNode_eq : ∀ {node other : Node}, AlikeTree node other →
    lowerNode node = lowerNode other
  | ⟨_, _, _, [], _, _⟩, ⟨_, _, _, [], _, _⟩, h => by
    rw [AlikeTree] at h
    rw [lowerNode, lowerNode]
    exact h.1.lowerLeaf_eq rfl
  | ⟨_, _, _, child :: rest, _, _⟩, ⟨_, _, _, child' :: rest', _, _⟩, h => by
    rw [AlikeTree] at h
    rw [lowerNode, lowerNode, h.1.headOf_eq, AlikeForest.lowerAll_eq h.2]
  | ⟨_, _, _, [], _, _⟩, ⟨_, _, _, _ :: _, _, _⟩, h => by
    rw [AlikeTree] at h
    cases h.2
  | ⟨_, _, _, _ :: _, _, _⟩, ⟨_, _, _, [], _, _⟩, h => by
    rw [AlikeTree] at h
    cases h.2

theorem AlikeForest.lowerAll_eq : ∀ {nodes others : List Node}, AlikeForest nodes others →
    lowerAll nodes = lowerAll others
  | [], [], _ => rfl
  | node :: rest, other :: others, h => by
    rw [AlikeForest] at h
    rw [lowerAll, lowerAll, h.1.lowerNode_eq, h.2.lowerAll_eq]
  | [], _ :: _, h => by cases h
  | _ :: _, [], h => by cases h
end

mutual
theorem AlikeTree.kinds_eq : ∀ {node other : Node}, AlikeTree node other →
    node.walk.map (·.kind) = other.walk.map (·.kind)
  | ⟨_, _, _, _, _, _⟩, ⟨_, _, _, _, _, _⟩, h => by
    rw [AlikeTree] at h
    simp only [Node.walk, List.map_cons, AlikeForest.kinds_eq h.2, List.cons.injEq, and_true]
    exact h.1.kind

theorem AlikeForest.kinds_eq : ∀ {nodes others : List Node}, AlikeForest nodes others →
    (Node.walkAll nodes).map (·.kind) = (Node.walkAll others).map (·.kind)
  | [], [], _ => rfl
  | node :: rest, other :: others, h => by
    rw [AlikeForest] at h
    simp only [Node.walkAll, List.map_append, h.1.kinds_eq, h.2.kinds_eq]
  | [], _ :: _, h => by cases h
  | _ :: _, [], h => by cases h
end

theorem AlikeForest.imports_eq {forest other : Forest} (h : AlikeForest forest other) :
    imports forest = imports other := by
  unfold imports Forest.walk
  rw [h.kinds_eq]

/-- Forests that agree in all that is shown are lowered alike, import alike, and make the same entry
module in any two configurations with the same background. -/
theorem entryModule_of_alike {forest other : Forest} (h : AlikeForest forest other) :
    lower forest = lower other ∧ imports forest = imports other ∧
      ∀ config config' : Config, config.theme.backgroundColor = config'.theme.backgroundColor →
        Bundle.entryModule forest config = Bundle.entryModule other config' := by
  have hlower : lower forest = lower other := h.lowerAll_eq
  refine ⟨hlower, h.imports_eq, fun config config' hbackground => ?_⟩
  unfold Bundle.entryModule
  rw [hlower, h.imports_eq, hbackground]

/-- Two projects with nothing in common but what is shown. -/
theorem entryModule_of_alike_relabelled :
    let forest : Forest :=
      [⟨"a", .container, { Props.empty with padding := some .null, text := some "unused" },
        [⟨"b", .text, { Props.empty with text := some "Hi", placeholder := some "p" }, [], none,
          some ⟨.zero false, .zero true⟩⟩], none, none⟩]
    let other : Forest :=
      [⟨"x", .container, { Props.empty with url := some "u", onPress := some "go" },
        [⟨"y", .text, { Props.empty with text := some "Hi", source := some "s" }, [], none, none⟩],
        some ⟨.zero true, .zero false⟩, none⟩]
    let renamed : Config := { Config.fresh with name := "Other", permissions := ["CAMERA"] }
    (AlikeForest forest other ∧
      Config.fresh.theme.backgroundColor = renamed.theme.backgroundColor) ∧
      Bundle.entryModule forest .fresh = Bundle.entryModule other renamed := by
  intro forest other renamed
  have halike : AlikeForest forest other := by
    refine ⟨⟨⟨rfl, rfl, fun s => ?_, nofun, nofun, nofun⟩, ⟨⟨rfl, rfl, fun s => ?_, fun _ _ => rfl,
      nofun, nofun⟩, trivial⟩, trivial⟩, trivial⟩
    · cases s <;> rfl
    · cases s <;> rfl
  exact ⟨⟨halike, rfl⟩, (entryModule_of_alike halike).2.2 .fresh renamed rfl⟩

end AppExport.Markup
