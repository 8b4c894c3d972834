/-
Kinds and their names. A kind of its own can be called like a known one; as far as names go, it is
that one, and a tree whose kinds have been written and read has no such kinds left.
-/
import AppExport.Component.Node

namespace AppExport.Component

namespace Kind

/-- The name of a kind that is not known, neither as such nor by its name. -/
def unknownName? (k : Kind) : Option String :=
  match ofName k.name with
  | other name => some name
  | _ => none

theorem eq_of_ofName_eq_other {s name : String} (h : ofName s = other name) : name = s := by
  unfold ofName at h
  split at h <;> first | (exact (Kind.other.inj h).symm) | (cases h)

/-- A name and the canonical name of its kind stand for one kind. -/
theorem ofName_name_ofName (s : String) : ofName (ofName s).name = ofName s := by
  cases h : ofName s with
  | other t => exact (congrArg ofName (eq_of_ofName_eq_other h)).trans h
  | _ => rfl

/-- A kind has an unknown name if its name is read as a kind of its own. -/
theorem unknownName?_eq_some {k : Kind} {name : String} :
    k.unknownName? = some name ↔ ofName k.name = other name := by
  unfold unknownName?
  split <;> simp_all

/-- The kind that a kind's name stands for. -/
def recognized : Kind → Kind
  | other name => ofName name
  | kind => kind

theorem recognized_eq (k : Kind) : k.recognized = ofName k.name := by
  cases k <;> rfl

theorem ofName_name_recognized (k : Kind) : ofName k.recognized.name = ofName k.name := by
  rw [recognized_eq, ofName_name_ofName]

end Kind

namespace Node

mutual
/-- A node with every kind below it replaced by the one that its name stands for. -/
def recognized : Node → Node
  | ⟨id, kind, props, children, position, size⟩ =>
    ⟨id, kind.recognized, props, recognizedAll children, position, size⟩

def recognizedAll : List Node → List Node
  | [] => []
  | node :: rest => node.recognized :: recognizedAll rest
end

mutual
theorem walk_recognized : ∀ node : Node, node.recognized.walk = node.walk.map recognized
  | ⟨_, _, _, children, _, _⟩ => by
    rw [recognized, walk, walk, List.map_cons, walkAll_recognizedAll children, recognized]

theorem walkAll_recognizedAll : ∀ nodes : List Node,
    walkAll (recognizedAll nodes) = (walkAll nodes).map recognized
  | [] => rfl
  | node :: rest => by
    rw [recognizedAll, walkAll, walkAll, List.map_append, walk_recognized node,
      walkAll_recognizedAll rest]
end

end Node

def Forest.recognized (forest : Forest) : Forest := Node.recognizedAll forest

/-- The names of the nodes' kinds that are not known. -/
def Forest.unknownNames (forest : Forest) : List String :=
  forest.walk.filterMap (·.kind.unknownName?)

end AppExport.Component
