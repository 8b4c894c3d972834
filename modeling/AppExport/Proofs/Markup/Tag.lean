/-
The tag of a kind is one of nine, or the name of a kind that nothing knows by that name. Being known
is a matter of the name alone: a kind of its own that is called like a known one is written as it.
-/
import AppExport.Markup.Primitive
import AppExport.Proofs.Component.Kind

namespace AppExport.Markup

open Component (Forest Kind)

/-- The tag that a kind is written with. -/
def tagOf (k : Kind) : String := (Mapping.ofKind k).primitive.tag

theorem ofKind_eq_direct (k : Kind) : Mapping.ofKind k = Mapping.direct (Kind.ofName k.name) := by
  cases k <;> rfl

/-- The tags of known kinds. -/
def knownTags : List String := Primitive.importable.map (·.tag) ++ ["Switch", "Slider"]

theorem direct_tag_mem {k : Kind} (h : k.isOther = false) :
    (Mapping.direct k).primitive.tag ∈ knownTags := by
  cases k <;> first | decide | simp [Kind.isOther] at h

theorem tagOf_of_unknownName {k : Kind} {name : String} (h : k.unknownName? = some name) :
    tagOf k = name := by
  rw [tagOf, ofKind_eq_direct, Kind.unknownName?_eq_some.1 h]
  rfl

theorem tagOf_mem_of_known {k : Kind} (h : k.unknownName? = none) : tagOf k ∈ knownTags := by
  rw [tagOf, ofKind_eq_direct]
  refine direct_tag_mem ?_
  cases hk : Kind.ofName k.name with
  | other name => simp [Kind.unknownName?_eq_some.2 hk] at h
  | _ => rfl

/-- What holds of the nine tags and of the unknown names holds of every tag. -/
theorem tagOf_induction {P : String → Prop} {k : Kind} (known : ∀ tag ∈ knownTags, P tag)
    (unknown : ∀ name, k.unknownName? = some name → P name) : P (tagOf k) := by
  cases h : k.unknownName? with
  | none => exact known _ (tagOf_mem_of_known h)
  | some name => rw [tagOf_of_unknownName h]; exact unknown name h

/-- What holds of the nine tags and of the unknown names in a forest holds of every node's tag. -/
theorem forall_tagOf {P : String → Prop} {forest : Forest} (known : ∀ tag ∈ knownTags, P tag)
    (unknown : ∀ name ∈ forest.unknownNames, P name) : ∀ node ∈ forest.walk, P (tagOf node.kind) :=
  fun node hnode => tagOf_induction known fun name hname =>
    unknown name (List.mem_filterMap.2 ⟨node, hnode, hname⟩)

end AppExport.Markup
