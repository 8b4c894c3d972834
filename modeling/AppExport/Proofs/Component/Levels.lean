/-
How deep components may nest to be read again. A node opens a bracket and its list of children
another, so the bracket of a node on level `n` is the one numbered `2 * n - 1`. Its properties, which
a text may leave out but which are always written, take the next one. As an odd number of brackets
may be open, a node on the deepest level that is reached can be read, but not read again.
-/
import AppExport.Proofs.Component.Decoded
import AppExport.Proofs.Json.Refusal

namespace AppExport.Component

open Json (Reads Refuses Settled Value)

variable {room : Nat}

namespace Node

mutual
/-- How many levels of nodes there are, the node's own one included. -/
def levels : Node → Nat
  | ⟨_, _, _, children, _, _⟩ => levelsAll children + 1

def levelsAll : List Node → Nat
  | [] => 0
  | node :: rest => max node.levels (levelsAll rest)
end

mutual
theorem Fitting.levels_le : ∀ {n : Node} {room : Nat}, n.Fitting room → 2 * n.levels ≤ room + 1
  | ⟨_, _, _, _, _, _⟩, _, h => by
    rw [Fitting] at h
    have hchildren := AllFitting.levels_le h.2.2.2.2
    rw [levels]
    omega

theorem AllFitting.levels_le : ∀ {nodes : List Node} {room : Nat}, AllFitting room nodes →
    2 * levelsAll nodes ≤ room + 1
  | [], _, _ => by simp [levelsAll]
  | _ :: _, _, h => by
    rw [AllFitting] at h
    have hfirst := h.1.levels_le
    have hrest := AllFitting.levels_le h.2
    rw [levelsAll]
    omega
end

mutual
/-- A node that fits takes no more brackets than are left if its deepest level leaves one for its
properties. -/
theorem Fitting.depth_toJson_le : ∀ {n : Node} {room : Nat}, n.Fitting room → 2 * n.levels ≤ room →
    n.toJson.depth ≤ room
  | ⟨id, kind, props, children, position, size⟩, room, h, hlevels => by
    rw [Fitting] at h
    rw [levels] at hlevels
    obtain ⟨-, -, -, hprops, hchildren⟩ := h
    obtain ⟨inner, rfl⟩ : ∃ inner, room = inner + 2 := ⟨room - 2, by omega⟩
    have hlist : Value.depthAll (allToJson children) ≤ inner :=
      AllFitting.depth_allToJson_le hchildren (by omega)
    rw [toJson_eq, Value.depth]
    refine Nat.succ_le_succ (Value.depthEntries_le_iff.2 ?_)
    simp only [entries, List.forall_mem_append, List.forall_mem_singleton]
    refine ⟨Nat.zero_le _, Nat.zero_le _, by omega, fun e he => ?_, fun e he => ?_, fun e he => ?_⟩
    · cases children with
      | nil => cases he
      | cons => exact List.mem_singleton.1 he ▸ Nat.succ_le_succ hlist
    · cases position with
      | none => cases he
      | some p => exact List.mem_singleton.1 he ▸ Nat.succ_le_succ (Nat.zero_le inner)
    · cases size with
      | none => cases he
      | some s => exact List.mem_singleton.1 he ▸ Nat.succ_le_succ (Nat.zero_le inner)

theorem AllFitting.depth_allToJson_le : ∀ {nodes : List Node} {room : Nat}, AllFitting room nodes →
    2 * levelsAll nodes ≤ room → Value.depthAll (allToJson nodes) ≤ room
  | [], _, _, _ => Nat.zero_le _
  | _ :: _, _, h, hlevels => by
    rw [AllFitting] at h
    rw [levelsAll] at hlevels
    rw [allToJson, Value.depthAll]
    exact Nat.max_le.2 ⟨h.1.depth_toJson_le (by omega),
      AllFitting.depth_allToJson_le h.2 (by omega)⟩
end

end Node

/-! ## Nodes that are refused -/

/-- A node is refused where its own bracket is the last that may be opened. -/
theorem refuses_props (child : Json.Decoder Node) (node : Node) :
    Refuses ((nodeRecord child).decoder 1) node.toJson.chars := by
  obtain ⟨id, kind, props, children, position, size⟩ := node
  have hprops : Refuses (propsRecord.decoder 0) props.toJson.chars := by
    rw [Props.toJson_eq, Value.chars]
    exact Json.refuses_record_zero propsRecord _
  have hentry : Refuses ((nodeRecord child).entry 0 "props" (.named id kind.recognized))
      (':' :: props.toJson.chars) := Json.refuses_slot rfl _ hprops
  rw [Node.toJson_eq, Node.entries, ← List.append_assoc]
  exact Json.refuses_record (steps_named child 0 id kind) hentry _

/-- A node whose properties are read is refused with its children. -/
theorem refuses_children {child : Json.Decoder Node} {node : Node} (hprops : node.props.Canonical)
    (hdepth : node.props.toJson.depth ≤ room) (hpresent : node.children.isEmpty = false)
    (hchildren : Refuses (Json.listOf "a sequence" child room)
      (Value.list (Node.allToJson node.children)).chars) :
    Refuses ((nodeRecord child).decoder (room + 1)) node.toJson.chars := by
  obtain ⟨id, kind, props, children, position, size⟩ := node
  have hentry : Refuses ((nodeRecord child).entry room "children"
      (.begun id kind.recognized props.reread))
      (':' :: (Value.list (Node.allToJson children)).chars) := Json.refuses_slot rfl _ hchildren
  rw [Node.toJson_eq, Node.entries, hpresent, ← List.append_assoc, ← List.append_assoc]
  exact Json.refuses_record (steps_begun child id kind hprops hdepth) hentry _

mutual
theorem refuses_node : ∀ {n : Node} {room : Nat}, n.Fitting room → room < 2 * n.levels →
    Refuses (node room) n.toJson.chars
  | ⟨id, kind, props, children, position, size⟩, room, h, hdeep => by
    rw [Node.Fitting] at h
    rw [Node.levels] at hdeep
    obtain ⟨hroom, -, hcanonical, hprops, hfitting⟩ := h
    obtain rfl | ⟨inner, rfl⟩ : room = 1 ∨ ∃ inner, room = inner + 2 := by
      rcases Nat.eq_or_lt_of_le hroom with h | h
      · exact .inl h.symm
      · exact .inr ⟨room - 2, by omega⟩
    · exact refuses_props _ _
    · have hbelow : inner < 2 * Node.levelsAll children := by omega
      have hpresent : children.isEmpty = false := by
        cases children with
        | nil => cases hbelow
        | cons => rfl
      have hown : props.toJson.depth ≤ inner + 1 := by omega
      obtain ⟨hsettled, hrefused⟩ := refuses_nodes hfitting
      have hlist : Refuses (Json.listOf "a sequence" (fun _ => node inner) (inner + 1))
          (Value.list (Node.allToJson children)).chars := by
        rw [Value.chars]
        exact Json.refuses_listOf hsettled (hrefused hbelow)
      rw [node]
      exact refuses_children hcanonical hown hpresent hlist

/-- Every node of a list is read or refused, and one is refused if the nodes go too deep. -/
theorem refuses_nodes : ∀ {nodes : List Node} {room : Nat}, Node.AllFitting room nodes →
    (∀ text ∈ Value.itemsChars (Node.allToJson nodes), Settled (node room) text) ∧
      (room < 2 * Node.levelsAll nodes →
        ∃ text ∈ Value.itemsChars (Node.allToJson nodes), Refuses (node room) text)
  | [], _, _ => by simp [Node.allToJson, Value.itemsChars, Node.levelsAll]
  | n :: rest, room, h => by
    rw [Node.AllFitting] at h
    obtain ⟨hsettled, hrefused⟩ := refuses_nodes h.2
    rw [Node.allToJson, Value.itemsChars, Node.levelsAll]
    by_cases hdeep : room < 2 * n.levels
    · have hfirst := refuses_node h.1 hdeep
      exact ⟨List.forall_mem_cons.2 ⟨⟨opens_toJson n, .inr hfirst⟩, hsettled⟩,
        fun _ => ⟨_, List.mem_cons_self, hfirst⟩⟩
    · have hfirst := reads_node n room h.1.canonical.props (h.1.depth_toJson_le (by omega))
      refine ⟨List.forall_mem_cons.2 ⟨⟨opens_toJson n, .inl ⟨_, hfirst⟩⟩, hsettled⟩,
        fun hlevels => ?_⟩
      obtain ⟨text, htext, hrefuses⟩ := hrefused (by omega)
      exact ⟨text, List.mem_cons_of_mem _ htext, hrefuses⟩
end

/-! ## Nodes that have been read -/

theorem fitting_of_decode {text : String} {n : Node} (h : Json.decode node text = .ok n) :
    n.Fitting Json.startRoom := by
  obtain ⟨_, hread, -⟩ := Json.decode_eq_ok_iff.1 h
  exact node_gives _ hread

/-- A node that has been read has at most 64 levels, and it is read again from its own text if and
only if it has at most 63. -/
theorem decode_toJson_iff_levels {text : String} {n : Node} (h : Json.decode node text = .ok n) :
    n.levels ≤ 64 ∧ ((∃ m, Json.decode node n.toJson.compact = .ok m) ↔ n.levels ≤ 63) := by
  have hfitting := fitting_of_decode h
  have hlevels := hfitting.levels_le
  have hroom : Json.startRoom = 127 := rfl
  refine ⟨by omega, fun ⟨m, hm⟩ => ?_, fun hlow => ⟨n.reread, ?_⟩⟩
  · by_contra hhigh
    exact Json.decode_ne_ok_of_refuses (refuses_node hfitting (by omega)) m hm
  · exact decode_toJson hfitting.canonical.props (hfitting.depth_toJson_le (by omega))

/-- A node with a child, the child's place given as a list of two numbers. -/
def placed : String :=
  "\x7b\"id\":\"a\",\"type\":\"View\",\"children\":[" ++
    "\x7b\"id\":\"b\",\"type\":\"Chart\",\"position\":[1,2.5]\x7d]\x7d"

theorem decode_toJson_iff_levels_placed : ∃ n, Json.decode node placed = .ok n ∧ n.levels = 2 ∧
    ∃ m, Json.decode node n.toJson.compact = .ok m := by
  have hchecked : ((Json.decode node placed).toOption.any fun n => n.levels == 2) = true := by
    decide +kernel
  cases hdecode : Json.decode node placed with
  | error e =>
    rw [hdecode] at hchecked
    cases hchecked
  | ok n =>
    rw [hdecode] at hchecked
    have hlevels : n.levels = 2 := beq_iff_eq.1 hchecked
    exact ⟨n, rfl, hlevels, (decode_toJson_iff_levels hdecode).2.2 (by omega)⟩

/-! ## Nodes that are read once -/

/-- A node with a child that has a child, and so on, so many below the first. -/
def Node.nested : Nat → Node
  | 0 => .new "n" .text
  | below + 1 => ⟨"n", .text, .empty, [nested below], none, none⟩

theorem Node.levels_nested (below : Nat) : (nested below).levels = below + 1 := by
  induction below with
  | zero => rfl
  | succ below ih => rw [nested, levels, levelsAll, levelsAll, ih, Nat.max_zero]

/-- Such a node in JSON, without the properties. -/
def bareJson : Nat → Value
  | 0 => .object ([("id", .text "n")] ++ [("type", .text "text")])
  | below + 1 =>
    .object ([("id", .text "n")] ++ [("type", .text "text")] ++
      [("children", .list [bareJson below])])

theorem opens_bareJson (below : Nat) : Json.Opens (bareJson below).chars := by
  cases below <;>
    · rw [bareJson, Value.chars]
      exact ⟨'\x7b', _, rfl, by decide, by decide⟩

/-- Without properties, the last bracket that may be opened can be that of a node. -/
theorem reads_bareJson (below : Nat) :
    Reads (node (2 * below + 1)) (bareJson below).chars (.nested below) := by
  induction below with
  | zero =>
    rw [bareJson, Value.chars]
    exact Json.reads_record (steps_named _ 0 "n" .text) rfl
  | succ below ih =>
    have hlist : Reads (Json.listOf "a sequence" (fun _ => node (2 * below + 1)) (2 * below + 2))
        (Value.list [bareJson below]).chars [.nested below] := by
      rw [Value.chars]
      exact Json.reads_listOf (.cons ⟨opens_bareJson below, ih⟩ .nil)
    have hsteps := (steps_named (fun _ => node (2 * below + 1)) (2 * below + 2) "n" .text).append
      (Json.steps_slot _ _ _ "children" rfl rfl hlist)
    rw [← Json.entriesChars_append] at hsteps
    rw [bareJson, Value.chars]
    exact Json.reads_record hsteps rfl

/-- A node on level 64 is read if its properties are left out, but not read again. -/
theorem not_decode_toJson_bareJson :
    ∃ n, Json.decode node (bareJson 63).compact = .ok n ∧
      ∀ m, Json.decode node n.toJson.compact ≠ .ok m := by
  have hdecode : Json.decode node (bareJson 63).compact = .ok (.nested 63) :=
    Json.decode_of_reads (reads_bareJson 63)
  have hdeep : Json.startRoom < 2 * (Node.nested 63).levels := by
    rw [Node.levels_nested]
    decide
  exact ⟨.nested 63, hdecode,
    Json.decode_ne_ok_of_refuses (refuses_node (fitting_of_decode hdecode) hdeep)⟩

end AppExport.Component
