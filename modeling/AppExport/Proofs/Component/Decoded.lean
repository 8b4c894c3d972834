/-
Every component that is read is canonical, whether its record stood there as an object, with its
fields in any order and under any of their names, or as a list. And it fits where it was read: its
properties, and its children two brackets further in, are no deeper than the reader could go there.
-/
import AppExport.Proofs.Component.Node
import AppExport.Proofs.Json.Draft

namespace AppExport.Component

open Json (Decoder Entries Gives Members Value)

variable {room : Nat}

/-! ## Properties -/

/-- The value read for a shorthand. -/
def PropsDraft.stored (d : PropsDraft) : Shorthand → Option (Option Value)
  | .backgroundColor => d.backgroundColor
  | .color => d.color
  | .fontSize => d.fontSize
  | .padding => d.padding
  | .margin => d.margin
  | .borderRadius => d.borderRadius

/-- What holds of the properties read so far with so many brackets left. -/
structure PropsDraft.Legible (room : Nat) (d : PropsDraft) : Prop where
  stored : ∀ s v, d.stored s = some (some v) → v.isNull = false ∧ v.Legible room
  style : ∀ m, d.style = some m → m.isEmpty = false → (Value.object m.entries).Legible room
  extra : ∀ e ∈ d.extra.entries, e.2.Legible room
  extra_unknown : ∀ key ∈ d.extra.entries.keys, propsRecord.fields.find? (·.answers key) = none

theorem style_gives : Gives (style room) fun m =>
    m.isEmpty = false → (Value.object m.entries).Legible room := by
  intro c m behind hread
  obtain ⟨⟨v, c'⟩, hvalue, hread⟩ := bind_eq_ok_iff.1 hread
  cases hread
  have hlegible := Json.value_gives room hvalue
  cases v with
  | object entries =>
    have hkeyed := hlegible.keyed
    rw [Value.Keyed] at hkeyed
    have hentries : Members.ofEntries entries = ⟨entries, hkeyed.1⟩ := ofEntries_entries ⟨entries, _⟩
    rw [styleOf_object, hentries]
    exact fun _ => hlegible
  | _ =>
    intro hpresent
    cases hpresent

/-- The reader of a shorthand fills its own slot and leaves the others alone. -/
theorem PropsDraft.Legible.fill {d next : PropsDraft} (h : d.Legible room) (own : Shorthand)
    {x : Option Value} (hx : ∀ v, x = some v → v.isNull = false ∧ v.Legible room)
    (hstored : ∀ s, next.stored s = if s = own then some x else d.stored s)
    (hstyle : next.style = d.style) (hextra : next.extra = d.extra) : next.Legible room := by
  refine ⟨fun s v hs => ?_, hstyle ▸ h.style, hextra ▸ h.extra, hextra ▸ h.extra_unknown⟩
  rw [hstored] at hs
  split at hs
  · exact hx v (Option.some.inj hs)
  · exact h.stored s v hs

theorem field_gives {d : PropsDraft} (h : d.Legible room) :
    ∀ field ∈ propsRecord.fields, Gives (field.read d room) (PropsDraft.Legible room) := by
  intro field hfield
  have hcontent : Gives (content room) fun _ => True := fun _ _ _ _ => trivial
  have hvalue : Gives (Json.orNull styleValue room) fun x =>
      ∀ v, x = some v → v.isNull = false ∧ v.Legible room := by
    rw [styleValue_eq_value]
    exact Json.orNull_value_gives
  simp only [propsRecord, List.mem_cons, List.not_mem_nil, or_false] at hfield
  rcases hfield with rfl | rfl | rfl | rfl | rfl | hfield
  -- content properties have no part in what is kept
  iterate 5
    exact Json.slot_gives hcontent fun _ _ => ⟨h.stored, h.style, h.extra, h.extra_unknown⟩
  rcases hfield with rfl | rfl | rfl | rfl | rfl | rfl | rfl
  · exact Json.slot_gives hvalue fun x hx => h.fill .color hx (fun s => by cases s <;> rfl) rfl rfl
  · exact Json.slot_gives hvalue fun x hx =>
      h.fill .backgroundColor hx (fun s => by cases s <;> rfl) rfl rfl
  · exact Json.slot_gives hvalue fun x hx => h.fill .fontSize hx (fun s => by cases s <;> rfl) rfl rfl
  · exact Json.slot_gives hvalue fun x hx =>
      h.fill .borderRadius hx (fun s => by cases s <;> rfl) rfl rfl
  · exact Json.slot_gives hvalue fun x hx => h.fill .padding hx (fun s => by cases s <;> rfl) rfl rfl
  · exact Json.slot_gives hvalue fun x hx => h.fill .margin hx (fun s => by cases s <;> rfl) rfl rfl
  · exact Json.slot_gives style_gives fun m hm =>
      ⟨h.stored, fun _ hs => Option.some.inj hs ▸ hm, h.extra, h.extra_unknown⟩

theorem legible_insert {d : PropsDraft} (h : d.Legible room) {key : String}
    (hkey : propsRecord.fields.find? (·.answers key) = none) {v : Value} (hv : v.Legible room) :
    PropsDraft.Legible room { d with extra := d.extra.insert key v } := by
  refine ⟨h.stored, h.style, fun e he => ?_, fun k hk => ?_⟩
  · rcases Json.Entries.mem_insert he with rfl | he
    · exact hv
    · exact h.extra e he
  · obtain ⟨e, he, rfl⟩ := List.mem_map.1 hk
    rcases Json.Entries.mem_insert he with rfl | he
    · exact hkey
    · exact h.extra_unknown e.1 (List.mem_map_of_mem he)

theorem keeps_props (room : Nat) : propsRecord.KeepsIn room (PropsDraft.Legible room) where
  start := by
    refine ⟨fun s v h => ?_, fun m h => ?_, fun e h => ?_, fun key h => ?_⟩
    · cases s <;> cases h
    · cases h
    · cases h
    · cases h
  fields field hfield _ h := field_gives h field hfield
  others rule hrule key hkey d h := by
    intro c next behind hread
    cases hrule
    obtain ⟨⟨v, c'⟩, hvalue, hread⟩ := bind_eq_ok_iff.1 hread
    rw [styleValue_eq_value] at hvalue
    cases hread
    exact legible_insert h hkey (Json.value_gives room hvalue)

theorem stored_finish {d : PropsDraft} {s : Shorthand} {v : Value}
    (h : d.finish.stored s = some v) : d.stored s = some (some v) := by
  cases s <;>
    simp only [Props.stored, PropsDraft.finish, Option.getD_eq_iff] at h <;>
    simpa [PropsDraft.stored] using h

theorem style_finish {d : PropsDraft} (h : d.finish.style.isEmpty = false) :
    d.style = some d.finish.style := by
  unfold PropsDraft.finish at h ⊢
  cases hstyle : d.style with
  | none =>
    rw [hstyle] at h
    cases h
  | some m => rfl

theorem PropsDraft.Legible.canonical_finish {d : PropsDraft} (h : d.Legible room) :
    d.finish.Canonical := by
  refine ⟨fun s v hs => (h.stored s v (stored_finish hs)).1,
    fun s v hs => (h.stored s v (stored_finish hs)).2.keyed, fun e he => ?_,
    fun e he => (h.extra e he).keyed, h.extra_unknown⟩
  have hpresent : d.finish.style.isEmpty = false := by
    refine Bool.eq_false_iff.2 fun hempty => ?_
    rw [List.isEmpty_iff.1 hempty] at he
    cases he
  have hkeyed := (h.style _ (style_finish hpresent) hpresent).keyed
  rw [Value.Keyed, Value.keyedEntries_iff] at hkeyed
  exact hkeyed.2 e he

theorem PropsDraft.Legible.depth_finish {d : PropsDraft} (h : d.Legible room) :
    d.finish.toJson.depth ≤ room + 1 := by
  rw [Props.toJson_eq, Value.depth]
  refine Nat.succ_le_succ (Value.depthEntries_le_iff.2 ?_)
  simp only [List.forall_mem_append]
  refine ⟨fun e he => ?_, fun e he => ?_, fun e he => ?_, fun e he => (h.extra e he).depth_le⟩
  · rw [Props.depth_contentEntries _ he]
    exact Nat.zero_le room
  · obtain ⟨s, v, hs, rfl⟩ := Props.exists_stored he
    exact (h.stored s v (stored_finish hs)).2.depth_le
  · unfold Props.styleEntries at he
    cases hpresent : d.finish.style.isEmpty with
    | true => simp [hpresent] at he
    | false =>
      rw [hpresent] at he
      rw [List.mem_singleton.1 he]
      exact (h.style _ (style_finish hpresent) hpresent).depth_le

theorem props_gives :
    Gives (propsRecord.decoder room) fun p => p.Canonical ∧ p.toJson.depth ≤ room := by
  intro c p behind hread
  obtain ⟨inner, rfl, d, hd, hfinish⟩ :=
    Json.Record.decoder_gives (fun inner _ => keeps_props inner) hread
  cases hfinish
  exact ⟨hd.canonical_finish, hd.depth_finish⟩

/-! ## Nodes -/

namespace Node

mutual
/-- Whether a node can be read with so many brackets left. -/
def Fitting (room : Nat) : Node → Prop
  | ⟨_, kind, props, children, _, _⟩ =>
    1 ≤ room ∧ Kind.ofName kind.name = kind ∧ props.Canonical ∧
      props.toJson.depth ≤ max 1 (room - 1) ∧ AllFitting (room - 2) children

def AllFitting (room : Nat) : List Node → Prop
  | [] => True
  | node :: rest => node.Fitting room ∧ AllFitting room rest
end

theorem allFitting_iff {nodes : List Node} :
    AllFitting room nodes ↔ ∀ node ∈ nodes, node.Fitting room := by
  induction nodes with
  | nil => simp [AllFitting]
  | cons node rest ih => rw [AllFitting, ih, List.forall_mem_cons]

mutual
theorem Fitting.canonical : ∀ {node : Node} {room : Nat}, node.Fitting room → node.Canonical
  | ⟨_, _, _, _, _, _⟩, _, h => by
    rw [Fitting] at h
    rw [Canonical]
    exact ⟨h.2.1, h.2.2.1, AllFitting.canonical h.2.2.2.2⟩

theorem AllFitting.canonical : ∀ {nodes : List Node} {room : Nat}, AllFitting room nodes →
    AllCanonical nodes
  | [], _, _ => trivial
  | node :: rest, _, h => by
    rw [AllFitting] at h
    exact ⟨h.1.canonical, AllFitting.canonical h.2⟩
end

end Node

/-- What holds of the fields read so far with so many brackets left. -/
structure NodeDraft.Fitting (room : Nat) (d : NodeDraft) : Prop where
  kind : ∀ k, d.kind = some k → Kind.ofName k.name = k
  props : ∀ p, d.props = some p → p.Canonical ∧ p.toJson.depth ≤ room
  children : ∀ ns, d.children = some ns → ∀ n ∈ ns, n.Fitting (room - 1)

theorem canonical_empty : Props.empty.Canonical := by
  refine ⟨fun s v h => ?_, fun s v h => ?_, fun e h => ?_, fun e h => ?_, fun key h => ?_⟩
  · cases s <;> cases h
  · cases s <;> cases h
  all_goals cases h

theorem kind_gives : Gives (kind room) fun k => Kind.ofName k.name = k := by
  intro c k behind hread
  obtain ⟨⟨s, c'⟩, -, hread⟩ := bind_eq_ok_iff.1 hread
  cases hread
  exact Kind.ofName_name_ofName s

theorem keeps_node {child : Decoder Node}
    (hchild : ∀ inner, room = inner + 1 → Gives (child inner) (Node.Fitting inner)) :
    (nodeRecord child).KeepsIn room (NodeDraft.Fitting room) where
  start := by
    refine ⟨fun k h => ?_, fun p h => ?_, fun ns h => ?_⟩ <;> cases h
  others rule hrule := by cases hrule
  fields field hfield d h := by
    have hany : ∀ {β : Type} (reader : Json.Reader β), Gives reader fun _ => True :=
      fun _ _ _ _ _ => trivial
    have hlist : Gives (Json.listOf "a sequence" child room) fun ns =>
        ∀ n ∈ ns, n.Fitting (room - 1) :=
      Json.listOf_gives fun inner hinner => by
        rw [hinner, Nat.add_sub_cancel]
        exact hchild inner hinner
    simp only [nodeRecord, List.mem_cons, List.not_mem_nil, or_false] at hfield
    rcases hfield with rfl | rfl | rfl | rfl | rfl | rfl
    · exact Json.slot_gives (hany _) fun _ _ => ⟨h.kind, h.props, h.children⟩
    · exact Json.slot_gives kind_gives fun k hk =>
        ⟨fun _ hs => Option.some.inj hs ▸ hk, h.props, h.children⟩
    · exact Json.slot_gives props_gives fun p hp =>
        ⟨h.kind, fun _ hs => Option.some.inj hs ▸ hp, h.children⟩
    · exact Json.slot_gives hlist fun ns hns =>
        ⟨h.kind, h.props, fun _ hs => Option.some.inj hs ▸ hns⟩
    · exact Json.slot_gives (hany _) fun _ _ => ⟨h.kind, h.props, h.children⟩
    · exact Json.slot_gives (hany _) fun _ _ => ⟨h.kind, h.props, h.children⟩

theorem NodeDraft.Fitting.finish {d : NodeDraft} (h : d.Fitting room) {n : Node}
    (hn : d.finish = some n) : n.Fitting (room + 1) := by
  obtain ⟨id, kind, props, children, position, size⟩ := d
  cases id with
  | none => cases hn
  | some id =>
    cases kind with
    | none => cases hn
    | some kind =>
      cases hn
      have hprops : (props.getD .empty).Canonical ∧
          (props.getD .empty).toJson.depth ≤ max 1 room := by
        cases props with
        | none => exact ⟨canonical_empty, Nat.le_max_left 1 room⟩
        | some p =>
          obtain ⟨hcanonical, hdepth⟩ := h.props p rfl
          exact ⟨hcanonical, hdepth.trans (Nat.le_max_right 1 room)⟩
      have hchildren : ∀ n ∈ children.getD [], n.Fitting (room - 1) := by
        cases children with
        | none => intro n hn; cases hn
        | some ns => exact h.children ns rfl
      exact ⟨Nat.succ_pos room, h.kind kind rfl, hprops.1, hprops.2, Node.allFitting_iff.2 hchildren⟩

theorem record_gives {child : Decoder Node}
    (hchild : ∀ inner, room = inner + 2 → Gives (child inner) (Node.Fitting inner)) :
    Gives ((nodeRecord child).decoder room) (Node.Fitting room) := by
  intro c n behind hread
  obtain ⟨outer, rfl, d, hd, hfinish⟩ := Json.Record.decoder_gives
    (fun outer houter => keeps_node fun inner hinner => hchild inner (by omega)) hread
  exact hd.finish hfinish

/-- Every node that is read fits where it was read, and so do all nodes below it. -/
theorem node_gives : ∀ room : Nat, Gives (node room) (Node.Fitting room)
  | 0 => record_gives fun inner h => by omega
  | 1 => record_gives fun inner h => by omega
  | room + 2 => record_gives fun inner h => Nat.add_right_cancel h ▸ node_gives room

theorem forest_gives : Gives (forest room) Node.AllCanonical := by
  intro c nodes behind hread
  refine Node.allCanonical_iff.2 ?_
  exact Json.listOf_gives (fun inner _ => fun _ _ _ h => (node_gives inner h).canonical) hread

end AppExport.Component
