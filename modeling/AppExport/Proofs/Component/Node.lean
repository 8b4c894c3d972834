/-
A component that is written is read with all its children, every number in it read again and every
kind the one that its name stands for. So it reads back if it is one that reading can give: kinds go by
their canonical names, properties are canonical, and numbers read back.
-/
import AppExport.Proofs.Component.Kind
import AppExport.Proofs.Component.Props

namespace AppExport.Component

open Decimal (Binary64)
open Json (Decoder Opens Reads Steps Value)

variable {room : Nat}

namespace Node

mutual
def Canonical : Node → Prop
  | ⟨_, kind, props, children, _, _⟩ =>
    Kind.ofName kind.name = kind ∧ props.Canonical ∧ AllCanonical children

def AllCanonical : List Node → Prop
  | [] => True
  | node :: rest => node.Canonical ∧ AllCanonical rest
end

theorem allCanonical_iff {nodes : List Node} : AllCanonical nodes ↔ ∀ node ∈ nodes, node.Canonical := by
  induction nodes with
  | nil => simp [AllCanonical]
  | cons node rest ih => rw [AllCanonical, ih, List.forall_mem_cons]

mutual
theorem Canonical.props : ∀ {node : Node}, node.Canonical → ∀ n ∈ node.walk, n.props.Canonical
  | ⟨_, _, _, _, _, _⟩, h => by
    rw [Canonical] at h
    rw [walk]
    exact List.forall_mem_cons.2 ⟨h.2.1, AllCanonical.props h.2.2⟩

theorem AllCanonical.props : ∀ {nodes : List Node}, AllCanonical nodes →
    ∀ n ∈ walkAll nodes, n.props.Canonical
  | [], _ => by simp [walkAll]
  | node :: rest, h => by
    rw [AllCanonical] at h
    rw [walkAll]
    exact List.forall_mem_append.2 ⟨h.1.props, AllCanonical.props h.2⟩
end

end Node

/-- What the text of a position is read as. -/
def Position.reread (p : Position) : Position := ⟨p.x.reread, p.y.reread⟩

def Size.reread (s : Size) : Size := ⟨s.width.reread, s.height.reread⟩

namespace Node

mutual
/-- What the text of a node is read as. -/
def reread : Node → Node
  | ⟨id, kind, props, children, position, size⟩ =>
    ⟨id, kind.recognized, props.reread, rereadAll children, position.map Position.reread,
      size.map Size.reread⟩

def rereadAll : List Node → List Node
  | [] => []
  | node :: rest => node.reread :: rereadAll rest
end

end Node

/-! ## Single fields -/

theorem reads_kind (k : Kind) : Reads (kind room) (Value.text k.name).chars k.recognized := by
  intro rest offset hrest
  obtain ⟨offset', he⟩ := Json.reads_string k.name rest offset hrest
  exact ⟨offset', by simp only [kind, he, Kind.recognized_eq, bind, Except.bind]⟩

/-- Two numbers under two names. -/
theorem reads_pair {α : Type} (label : String) {first second : String} (hne : first ≠ second)
    (make : Binary64 → Binary64 → α) {x y : Binary64} (hroom : 1 ≤ room) :
    Reads ((pairRecord label first second make).decoder room)
      (Value.object [(first, .number (.float x)), (second, .number (.float y))]).chars
      (make x.reread y.reread) := by
  obtain ⟨inner, rfl⟩ : ∃ inner, room = inner + 1 := ⟨room - 1, by omega⟩
  have hfirst : (pairRecord label first second make).fields.find? (·.answers first) =
      some (.slot first [] false (·.1) (fun d x => (some x, d.2)) fun _ => Json.binary64) := by
    simp [pairRecord, Json.Field.answers, Json.Field.slot]
  have hsecond : (pairRecord label first second make).fields.find? (·.answers second) =
      some (.slot second [] false (·.2) (fun d x => (d.1, some x)) fun _ => Json.binary64) := by
    simp [pairRecord, Json.Field.answers, Json.Field.slot, hne]
  have hreads : ∀ z : Binary64, Reads Json.binary64 (Value.number (.float z)).chars z.reread := by
    intro z
    rw [Value.chars]
    exact Json.reads_binary64 z
  have hfill := Json.steps_slot (pairRecord label first second make) inner (none, none) first
    hfirst rfl (hreads x)
  have hsteps := hfill.append
    (Json.steps_slot _ inner (some x.reread, none) second hsecond rfl (hreads y))
  rw [← Json.entriesChars_append] at hsteps
  rw [Value.chars]
  exact Json.reads_record hsteps rfl

theorem reads_position (p : Position) (hroom : 1 ≤ room) :
    Reads (Json.orNull position room) p.toJson.chars (some p.reread) :=
  Json.reads_orNull (Json.notNull_object _)
    (reads_pair "struct Position" (by decide) Position.mk hroom)

theorem reads_size (s : Size) (hroom : 1 ≤ room) :
    Reads (Json.orNull size room) s.toJson.chars (some s.reread) :=
  Json.reads_orNull (Json.notNull_object _)
    (reads_pair "struct Size" (by decide) Size.mk hroom)

/-! ## Nodes -/

/-- The draft that a node's fields make. -/
def NodeDraft.of (node : Node) : NodeDraft where
  id := some node.id
  kind := some node.kind
  props := some node.props
  children := if node.children.isEmpty then none else some node.children
  position := node.position.map some
  size := node.size.map some

theorem finish_of (node : Node) : (NodeDraft.of node).finish = some node := by
  obtain ⟨id, kind, props, children, position, size⟩ := node
  have hchildren : (if children.isEmpty then none else some children).getD [] = children := by
    cases children <;> rfl
  simp only [NodeDraft.finish, NodeDraft.of, hchildren, Json.getD_map_some]
  rfl

/-- The entries of a node, with those of its children. -/
def Node.entries (node : Node) : Json.Entries :=
  [("id", .text node.id)] ++ ([("type", .text node.kind.name)] ++ ([("props", node.props.toJson)] ++
    ((if node.children.isEmpty then [] else [("children", .list (allToJson node.children))]) ++
      (optionalEntry "position" (node.position.map Position.toJson) ++
        optionalEntry "size" (node.size.map Size.toJson)))))

theorem Node.toJson_eq (node : Node) : node.toJson = .object node.entries := by
  obtain ⟨id, kind, props, children, position, size⟩ := node
  cases children <;>
    simp only [toJson, entries, List.isEmpty_nil, List.isEmpty_cons, Bool.false_eq_true, if_true,
      if_false, List.cons_append, List.nil_append]

/-- The draft that a node's id and kind make. -/
def NodeDraft.named (id : String) (kind : Kind) : NodeDraft := { id := some id, kind := some kind }

/-- The draft that the entries make which are written for every node. -/
def NodeDraft.begun (id : String) (kind : Kind) (props : Props) : NodeDraft :=
  { id := some id, kind := some kind, props := some props }

theorem steps_named (child : Decoder Node) (room : Nat) (id : String) (kind : Kind) :
    Steps ((nodeRecord child).entry room) {}
      (Value.entriesChars ([("id", .text id)] ++ [("type", .text kind.name)]))
      (.named id kind.recognized) := by
  have hid := Json.steps_slot (nodeRecord child) room {} "id" rfl rfl (Json.reads_string id)
  have htype := Json.steps_slot (nodeRecord child) room { id := some id } "type" rfl rfl
    (reads_kind kind)
  rw [Json.entriesChars_append]
  exact hid.append htype

theorem steps_begun (child : Decoder Node) (id : String) (kind : Kind) {props : Props}
    (hprops : props.Canonical) (hdepth : props.toJson.depth ≤ room) :
    Steps ((nodeRecord child).entry room) {}
      (Value.entriesChars ([("id", .text id)] ++ [("type", .text kind.name)] ++
        [("props", props.toJson)])) (.begun id kind.recognized props.reread) := by
  have hproperties := Json.steps_slot (nodeRecord child) room (.named id kind.recognized) "props"
    rfl rfl (reads_props hprops hdepth)
  rw [Json.entriesChars_append]
  exact (steps_named child room id kind).append hproperties

theorem one_le_depth_toJson (p : Props) : 1 ≤ p.toJson.depth := by
  rw [Props.toJson_eq, Value.depth]
  exact Nat.succ_pos _

/-- A node is read entry by entry if its children are read by `child`. -/
theorem steps_node {child : Decoder Node} {node : Node} (hprops : node.props.Canonical)
    (hdepth : node.props.toJson.depth ≤ room)
    (hchildren : node.children.isEmpty = false → Reads (Json.listOf "a sequence" child room)
      (Value.list (Node.allToJson node.children)).chars (Node.rereadAll node.children)) :
    Steps ((nodeRecord child).entry room) {} (Value.entriesChars node.entries)
      (.of node.reread) := by
  obtain ⟨id, kind, props, children, position, size⟩ := node
  have hroom : 1 ≤ room := (one_le_depth_toJson props).trans hdepth
  have hbegun := steps_begun child id kind hprops hdepth
  have hlist : Steps ((nodeRecord child).entry room) (.begun id kind.recognized props.reread)
      (Value.entriesChars
        (if children.isEmpty then [] else [("children", .list (Node.allToJson children))]))
      (.of ⟨id, kind.recognized, props.reread, Node.rereadAll children, none, none⟩) := by
    cases children with
    | nil => exact .nil _
    | cons => exact Json.steps_slot (nodeRecord child) room _ "children" rfl rfl (hchildren rfl)
  have hposition := Json.steps_optional (nodeRecord child) room
    ({ NodeDraft.of ⟨id, kind.recognized, props.reread, Node.rereadAll children, none, none⟩ with
        position := · })
    "position" Position.reread rfl rfl (fun _ => rfl)
    fun p (_ : position = some p) => reads_position p hroom
  have hsize := Json.steps_optional (nodeRecord child) room
    ({ NodeDraft.of ⟨id, kind.recognized, props.reread, Node.rereadAll children,
        position.map Position.reread, none⟩ with size := · })
    "size" Size.reread rfl rfl (fun _ => rfl) fun s (_ : size = some s) => reads_size s hroom
  rw [← optionalEntry_map] at hposition hsize
  have hsteps : Steps ((nodeRecord child).entry room) {} _
      (.of ⟨id, kind.recognized, props.reread, Node.rereadAll children,
        position.map Position.reread, size.map Size.reread⟩) :=
    hbegun.append (hlist.append (hposition.append hsize))
  rw [Node.reread]
  simpa only [Node.entries, Json.entriesChars_append, List.append_assoc] using hsteps

theorem opens_toJson (n : Node) : Opens n.toJson.chars := by
  rw [Node.toJson_eq, Value.chars]
  exact ⟨'\x7b', _, rfl, by decide, by decide⟩

mutual
/-- A node is read with all its children: two brackets are opened on the way to each. -/
theorem reads_node : ∀ (n : Node) (room : Nat), (∀ m ∈ n.walk, m.props.Canonical) →
    n.toJson.depth ≤ room → Reads (node room) n.toJson.chars n.reread
  | ⟨id, kind, props, children, position, size⟩, room, hprops, hdepth => by
    rw [Node.walk, List.forall_mem_cons] at hprops
    rw [Node.toJson_eq] at hdepth ⊢
    obtain ⟨outer, rfl, hentries⟩ := Value.exists_room_of_object hdepth
    have hown : props.toJson.depth ≤ outer :=
      hentries ("props", props.toJson) (by simp [Node.entries])
    obtain ⟨inner, rfl⟩ : ∃ inner, outer = inner + 1 :=
      ⟨outer - 1, by have := one_le_depth_toJson props; omega⟩
    rw [node, Value.chars]
    refine Json.reads_record (steps_node hprops.1 hown fun hempty => ?_) (finish_of _)
    have hlist : (Value.list (Node.allToJson children)).depth ≤ inner + 1 :=
      hentries ("children", .list (Node.allToJson children)) (by simp_all [Node.entries])
    obtain ⟨_, hroom, hitems⟩ := Value.exists_room_of_list hlist
    obtain rfl := Nat.succ.inj hroom
    rw [Value.chars]
    exact Json.reads_listOf (reads_nodes children inner hprops.2 hitems)

theorem reads_nodes : ∀ (nodes : List Node) (room : Nat),
    (∀ m ∈ Node.walkAll nodes, m.props.Canonical) → (∀ v ∈ Node.allToJson nodes, v.depth ≤ room) →
    List.Forall₂ (fun text n => Opens text ∧ Reads (node room) text n)
      (Value.itemsChars (Node.allToJson nodes)) (Node.rereadAll nodes)
  | [], _, _, _ => .nil
  | n :: rest, room, hprops, hdepth => by
    rw [Node.walkAll, List.forall_mem_append] at hprops
    rw [Node.allToJson, List.forall_mem_cons] at hdepth
    rw [Node.allToJson, Value.itemsChars]
    exact .cons ⟨opens_toJson n, reads_node n room hprops.1 hdepth.1⟩
      (reads_nodes rest room hprops.2 hdepth.2)
end

/-- What is written for a node decodes, to the node read again. -/
theorem decode_toJson {n : Node} (hprops : ∀ m ∈ n.walk, m.props.Canonical)
    (hdepth : n.toJson.depth ≤ Json.startRoom) :
    Json.decode node n.toJson.compact = .ok n.reread :=
  Json.decode_of_reads (reads_node n _ hprops hdepth)

/-! ## Nodes that read back -/

theorem Position.reread_eq_self {p : Position} (h : ∀ x ∈ p.toJson.floats, x.ReadsBack) :
    p.reread = p := by
  have hx := (h p.x (by simp [toJson, Value.floats, Value.floatsEntries])).reread_eq
  have hy := (h p.y (by simp [toJson, Value.floats, Value.floatsEntries])).reread_eq
  rw [reread, hx, hy]

theorem Size.reread_eq_self {s : Size} (h : ∀ x ∈ s.toJson.floats, x.ReadsBack) :
    s.reread = s := by
  have hwidth := (h s.width (by simp [toJson, Value.floats, Value.floatsEntries])).reread_eq
  have hheight := (h s.height (by simp [toJson, Value.floats, Value.floatsEntries])).reread_eq
  rw [reread, hwidth, hheight]

namespace Node

mutual
theorem reread_eq_self : ∀ node : Node, node.Canonical →
    (∀ x ∈ node.toJson.floats, x.ReadsBack) → node.reread = node
  | ⟨id, kind, props, children, position, size⟩, hcanonical, hfloats => by
    rw [Canonical] at hcanonical
    rw [toJson_eq, Value.floats] at hfloats
    have hentries : ∀ e ∈ Node.entries ⟨id, kind, props, children, position, size⟩,
        ∀ x ∈ e.2.floats, x.ReadsBack := fun e he x hx =>
      hfloats x (Value.mem_floatsEntries.2 ⟨e, he, hx⟩)
    have hkind : kind.recognized = kind := (Kind.recognized_eq kind).trans hcanonical.1
    have hprops : props.reread = props :=
      Props.reread_eq_self (hentries ("props", props.toJson) (by simp [entries]))
    have hchildren : rereadAll children = children := by
      refine rereadAll_eq_self children hcanonical.2.2 fun x hx => ?_
      refine hentries ("children", .list (allToJson children)) ?_ x (by rwa [Value.floats])
      cases children with
      | nil => exact absurd hx List.not_mem_nil
      | cons => simp [entries]
    have hposition : position.map Position.reread = position := by
      cases position with
      | none => rfl
      | some p =>
        exact congrArg some (Position.reread_eq_self
          (hentries ("position", p.toJson) (by simp [entries, optionalEntry])))
    have hsize : size.map Size.reread = size := by
      cases size with
      | none => rfl
      | some s =>
        exact congrArg some (Size.reread_eq_self
          (hentries ("size", s.toJson) (by simp [entries, optionalEntry])))
    rw [reread, hkind, hprops, hchildren, hposition, hsize]

theorem rereadAll_eq_self : ∀ nodes : List Node, AllCanonical nodes →
    (∀ x ∈ Value.floatsAll (allToJson nodes), x.ReadsBack) → rereadAll nodes = nodes
  | [], _, _ => rfl
  | node :: rest, hcanonical, hfloats => by
    rw [AllCanonical] at hcanonical
    rw [allToJson, Value.floatsAll, List.forall_mem_append] at hfloats
    rw [rereadAll, reread_eq_self node hcanonical.1 hfloats.1,
      rereadAll_eq_self rest hcanonical.2 hfloats.2]
end

end Node

/-- A forest reads back. -/
theorem reads_forest {nodes : Forest} (hcanonical : Node.AllCanonical nodes)
    (hfits : nodes.toJson.Fits room) : Reads (forest room) nodes.toJson.chars nodes := by
  obtain ⟨inner, rfl, hitems⟩ := Value.exists_room_of_list hfits.depth_le
  have hfloats := hfits.readsBack
  rw [Forest.toJson, Value.floats] at hfloats
  have hreads := reads_nodes nodes inner hcanonical.props hitems
  rw [Node.rereadAll_eq_self nodes hcanonical hfloats] at hreads
  rw [Forest.toJson, Value.chars]
  exact Json.reads_listOf hreads

end AppExport.Component
