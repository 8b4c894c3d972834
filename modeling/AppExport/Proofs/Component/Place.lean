/-
Places in a forest. A node is found by a path: the index of a root, then those of children, level by
level. A forest without one of its nodes is a context, with another node in the place it is the same
forest elsewhere. In pre-order, nodes come in the order of their paths, and each path leads to one of
them, so ids are distinct if and only if no two places have the same one.
-/
import AppExport.Component.Node
import Mathlib.Data.List.Nodup

namespace AppExport.Component

/-- A node but for its children. -/
structure Shell where
  id : String
  kind : Kind
  props : Props
  position : Option Position
  size : Option Size

def Node.shell (node : Node) : Shell := ⟨node.id, node.kind, node.props, node.position, node.size⟩

def Shell.around (shell : Shell) (children : List Node) : Node :=
  ⟨shell.id, shell.kind, shell.props, children, shell.position, shell.size⟩

theorem Shell.around_shell (node : Node) (children : List Node) :
    node.shell.around children = { node with children := children } := rfl

theorem Shell.around_children (node : Node) : node.shell.around node.children = node := by
  cases node
  rfl

/-- A forest without one of its nodes: what stands before it and behind it, among the roots or among
the children of a node that has a context of its own. -/
inductive Context where
  | root (before after : List Node)
  | within (before : List Node) (parent : Shell) (inner : Context) (after : List Node)

namespace Context

/-- The forest with a node in the place that was left. -/
def fill (node : Node) : Context → Forest
  | root before after => before ++ node :: after
  | within before parent inner after => before ++ parent.around (inner.fill node) :: after

/-- How deep the place is. -/
def depth : Context → Nat
  | root _ _ => 0
  | within _ _ inner _ => inner.depth + 1

theorem fill_ne_nil (c : Context) (node : Node) : c.fill node ≠ [] := by
  cases c <;> simp [fill]

end Context

namespace Forest

/-- The node that a path leads to: the index of a root, then those of children, level by level. -/
def nodeAt? : (root : Nat) → (path : List Nat) → Forest → Option Node
  | root, [], forest => forest[root]?
  | root, index :: path, forest =>
    forest[root]?.bind fun node => nodeAt? index path node.children

/-- The forest with another node where a path leads. -/
def put (new : Node) : (root : Nat) → (path : List Nat) → Forest → Forest
  | root, [], forest => forest.set root new
  | root, index :: path, forest =>
    forest.modify root fun node => { node with children := put new index path node.children }

theorem nodeAt?_put {root : Nat} {path : List Nat} {forest : Forest} {old : Node}
    (h : forest.nodeAt? root path = some old) (new : Node) :
    (forest.put new root path).nodeAt? root path = some new := by
  induction path generalizing root forest with
  | nil =>
    obtain ⟨hroot, -⟩ := List.getElem?_eq_some_iff.1 h
    rw [put, nodeAt?, List.getElem?_set_self hroot]
  | cons index path ih =>
    obtain ⟨parent, hparent, hold⟩ := Option.bind_eq_some_iff.1 h
    rw [put, nodeAt?, List.getElem?_modify_eq, hparent]
    exact ih hold

/-- The rest of a forest is the same whatever is put where a path leads. -/
theorem exists_context {root : Nat} {path : List Nat} {forest : Forest} {old : Node}
    (h : forest.nodeAt? root path = some old) :
    ∃ c : Context, c.depth = path.length ∧ c.fill old = forest ∧
      ∀ new, forest.put new root path = c.fill new := by
  induction path generalizing root forest with
  | nil =>
    obtain ⟨hroot, hold⟩ := List.getElem?_eq_some_iff.1 h
    refine ⟨.root (forest.take root) (forest.drop (root + 1)), rfl, ?_, fun new => ?_⟩
    · rw [Context.fill, ← hold, ← List.drop_eq_getElem_cons hroot, List.take_append_drop]
    · rw [put, Context.fill, List.set_eq_take_append_cons_drop, if_pos hroot]
  | cons index path ih =>
    obtain ⟨parent, hparent, hold⟩ := Option.bind_eq_some_iff.1 h
    obtain ⟨hroot, rfl⟩ := List.getElem?_eq_some_iff.1 hparent
    obtain ⟨inner, hdepth, hfill, hput⟩ := ih hold
    refine ⟨.within (forest.take root) forest[root].shell inner (forest.drop (root + 1)),
      congrArg (· + 1) hdepth, ?_, fun new => ?_⟩
    · rw [Context.fill, hfill, Shell.around_children, ← List.drop_eq_getElem_cons hroot,
        List.take_append_drop]
    · rw [put, Context.fill, List.modify_eq_take_cons_drop hroot, hput, Shell.around_shell]

end Forest

/-! ## Places in pre-order -/

variable {first root index : Nat} {path : List Nat} {nodes : List Node}

namespace Node

mutual
/-- The paths to a node that is the one of its index among its siblings, and to all below it. -/
def places (index : Nat) : Node → List (List Nat)
  | ⟨_, _, _, children, _, _⟩ => [index] :: (placesAll 0 children).map (index :: ·)

/-- The paths to nodes, the first of which has the index `first`, and to all below them. -/
def placesAll (first : Nat) : List Node → List (List Nat)
  | [] => []
  | node :: rest => node.places first ++ placesAll (first + 1) rest
end

theorem places_eq (index : Nat) (node : Node) :
    node.places index = [index] :: (placesAll 0 node.children).map (index :: ·) := by
  obtain ⟨_, _, _, _, _, _⟩ := node
  rfl

theorem exists_cons_of_mem_places {node : Node} (h : path ∈ node.places index) :
    ∃ below, path = index :: below := by
  rw [places_eq, List.mem_cons, List.mem_map] at h
  rcases h with rfl | ⟨below, -, rfl⟩
  · exact ⟨[], rfl⟩
  · exact ⟨below, rfl⟩

theorem mem_placesAll : path ∈ placesAll first nodes ↔
    ∃ (i : Nat) (node : Node), nodes[i]? = some node ∧ path ∈ node.places (first + i) := by
  induction nodes generalizing first with
  | nil => simp [placesAll]
  | cons node rest ih =>
    rw [placesAll, List.mem_append, ih]
    constructor
    · rintro (h | ⟨i, other, hother, hpath⟩)
      · exact ⟨0, node, rfl, h⟩
      · exact ⟨i + 1, other, hother, by rwa [Nat.add_comm i 1, ← Nat.add_assoc]⟩
    · rintro ⟨i, other, hother, hpath⟩
      cases i with
      | zero =>
        cases hother
        exact .inl hpath
      | succ i => exact .inr ⟨i, other, hother, by rwa [Nat.add_assoc, Nat.add_comm 1 i]⟩

theorem exists_cons_of_mem_placesAll (h : path ∈ placesAll first nodes) :
    ∃ i below, path = i :: below ∧ first ≤ i := by
  obtain ⟨i, node, -, hpath⟩ := mem_placesAll.1 h
  obtain ⟨below, rfl⟩ := exists_cons_of_mem_places hpath
  exact ⟨first + i, below, rfl, Nat.le_add_right first i⟩

mutual
/-- A node comes before those below it and those below it come before its next sibling. -/
theorem pairwise_places : ∀ (node : Node) (index : Nat),
    (node.places index).Pairwise (List.Lex (· < ·))
  | ⟨_, _, _, children, _, _⟩, index => by
    rw [places, List.pairwise_cons, List.pairwise_map]
    refine ⟨fun path hpath => ?_, (pairwise_placesAll children 0).imp .cons⟩
    obtain ⟨below, hbelow, rfl⟩ := List.mem_map.1 hpath
    obtain ⟨i, rest, rfl, -⟩ := exists_cons_of_mem_placesAll hbelow
    exact .cons .nil

theorem pairwise_placesAll : ∀ (nodes : List Node) (first : Nat),
    (placesAll first nodes).Pairwise (List.Lex (· < ·))
  | [], _ => .nil
  | node :: rest, first => by
    rw [placesAll, List.pairwise_append]
    refine ⟨pairwise_places node first, pairwise_placesAll rest (first + 1),
      fun path hpath other hother => ?_⟩
    obtain ⟨below, rfl⟩ := exists_cons_of_mem_places hpath
    obtain ⟨i, behind, rfl, hi⟩ := exists_cons_of_mem_placesAll hother
    exact .rel hi
end

end Node

namespace Forest

/-- The node at a place. -/
def at? : (path : List Nat) → Forest → Option Node
  | [], _ => none
  | root :: path, forest => forest.nodeAt? root path

theorem at?_cons_of_ne_nil (h : path ≠ []) (forest : Forest) :
    forest.at? (root :: path) = forest[root]?.bind fun node => Forest.at? path node.children := by
  obtain ⟨index, path, rfl⟩ := List.exists_cons_of_ne_nil h
  rfl

/-- The places of a forest, in pre-order. -/
def places (forest : Forest) : List (List Nat) := Node.placesAll 0 forest

theorem nodup_places (forest : Forest) : forest.places.Nodup := by
  refine (Node.pairwise_placesAll forest 0).imp fun {path other} hlex heq => ?_
  subst heq
  exact absurd hlex (List.lex_irrefl Nat.lt_irrefl path)

end Forest

namespace Node

mutual
theorem map_at?_places : ∀ (node : Node) (forest : Forest) (index : Nat),
    forest[index]? = some node → (node.places index).map (Forest.at? · forest) = node.walk.map some
  | ⟨_, _, _, children, _, _⟩, forest, index, h => by
    rw [places, walk, List.map_cons, List.map_cons, List.map_map, Forest.at?, Forest.nodeAt?, h,
      ← map_at?_placesAll children [] ]
    congr 1
    refine List.map_congr_left fun path hpath => ?_
    obtain ⟨i, below, rfl, -⟩ := exists_cons_of_mem_placesAll hpath
    rw [Function.comp_apply, Forest.at?_cons_of_ne_nil (List.cons_ne_nil i below), h]
    rfl

theorem map_at?_placesAll : ∀ (nodes before : List Node),
    (placesAll before.length nodes).map (Forest.at? · (before ++ nodes)) = (walkAll nodes).map some
  | [], _ => rfl
  | node :: rest, before => by
    have hnode : (before ++ node :: rest)[before.length]? = some node := by simp
    have hrest := map_at?_placesAll rest (before ++ [node])
    rw [List.length_append, List.length_singleton, List.append_assoc, List.singleton_append] at hrest
    rw [placesAll, walkAll, List.map_append, List.map_append, map_at?_places node _ _ hnode, hrest]
end

end Node

namespace Forest

/-- The nodes at the places, one after the other, are those of the walk. -/
theorem map_at?_places (forest : Forest) :
    forest.places.map (at? · forest) = forest.walk.map some :=
  Node.map_at?_placesAll forest []

theorem exists_at?_of_mem_places {forest : Forest} (h : path ∈ forest.places) :
    ∃ node, forest.at? path = some node := by
  have hmem : forest.at? path ∈ forest.places.map (at? · forest) := List.mem_map_of_mem h
  rw [map_at?_places] at hmem
  obtain ⟨node, -, hnode⟩ := List.mem_map.1 hmem
  exact ⟨node, hnode.symm⟩

theorem mem_places_of_at? {forest : Forest} {node : Node} (h : forest.at? path = some node) :
    path ∈ forest.places := by
  induction path generalizing forest with
  | nil => cases h
  | cons root path ih =>
    cases path with
    | nil =>
      refine Node.mem_placesAll.2 ⟨root, node, h, ?_⟩
      rw [Nat.zero_add, Node.places_eq]
      exact List.mem_cons_self
    | cons index path =>
      obtain ⟨parent, hparent, hnode⟩ := Option.bind_eq_some_iff.1 h
      refine Node.mem_placesAll.2 ⟨root, parent, hparent, ?_⟩
      rw [Nat.zero_add, Node.places_eq]
      exact List.mem_cons_of_mem _ (List.mem_map_of_mem (ih hnode))

/-- Ids are distinct if and only if no two places have the same one. -/
theorem nodup_ids_iff {forest : Forest} : forest.ids.Nodup ↔
    ∀ p q a b, forest.at? p = some a → forest.at? q = some b → a.id = b.id → p = q := by
  have hids : forest.places.map (fun p => (forest.at? p).map (·.id)) = forest.ids.map some := by
    have hplaces := congrArg (List.map (Option.map (·.id))) forest.map_at?_places
    rw [List.map_map, List.map_map] at hplaces
    rw [ids, List.map_map]
    exact hplaces
  have hsome : Function.Injective (some : String → Option String) := fun _ _ => Option.some.inj
  rw [← List.nodup_map_iff hsome, ← hids, List.nodup_map_iff_inj_on forest.nodup_places]
  constructor
  · intro h p q a b hp hq hid
    refine h p (mem_places_of_at? hp) q (mem_places_of_at? hq) ?_
    rw [hp, hq, Option.map_some, Option.map_some, hid]
  · intro h p hp q hq hid
    obtain ⟨a, ha⟩ := exists_at?_of_mem_places hp
    obtain ⟨b, hb⟩ := exists_at?_of_mem_places hq
    rw [ha, hb] at hid
    exact h p q a b ha hb (Option.some.inj hid)

end Forest
end AppExport.Component
