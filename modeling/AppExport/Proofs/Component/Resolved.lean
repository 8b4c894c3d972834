/-
The resolved style of a component. It is the nested style with the present shorthands written over it
in their fixed order, so a nested key keeps its place and a shorthand without one goes to the end.
-/
import AppExport.Proofs.Component.Edit

namespace AppExport.Component

open Json (Entries Members Value)

namespace Shorthand

theorem mem_all (s : Shorthand) : s ∈ all := by
  cases s <;> decide

theorem nodup_keys_all : (all.map key).Nodup := by decide

end Shorthand

namespace Props

/-! ## The shorthands that are given -/

/-- The present shorthands as entries of a style. -/
def given (p : Props) : Entries := Shorthand.all.filterMap fun s => (p.shorthand? s).map (s.key, ·)

theorem keys_given (p : Props) :
    p.given.keys = (Shorthand.all.filter fun s => (p.shorthand? s).isSome).map Shorthand.key := by
  unfold given Entries.keys
  induction Shorthand.all with
  | nil => rfl
  | cons s rest ih =>
    rw [List.filterMap_cons, List.filter_cons]
    cases p.shorthand? s with
    | none => exact ih
    | some value => exact congrArg (s.key :: ·) ih

theorem nodup_keys_given (p : Props) : p.given.keys.Nodup := by
  rw [keys_given]
  exact Shorthand.nodup_keys_all.sublist (List.filter_sublist.map Shorthand.key)

theorem mem_given {p : Props} {s : Shorthand} {value : Value} (h : p.shorthand? s = some value) :
    (s.key, value) ∈ p.given :=
  List.mem_filterMap.2 ⟨s, s.mem_all, by rw [h]; rfl⟩

theorem not_mem_keys_given {p : Props} {key : String}
    (h : ∀ s : Shorthand, s.key = key → p.shorthand? s = none) : key ∉ p.given.keys := by
  rw [keys_given, List.mem_map]
  rintro ⟨s, hs, hkey⟩
  have hpresent := (List.mem_filter.1 hs).2
  rw [h s hkey] at hpresent
  cases hpresent

/-! ## The style with them on top -/

theorem resolvedStyle_eq (p : Props) : p.resolvedStyle = p.style.insertAll p.given := by
  unfold resolvedStyle Members.insertAll given
  rw [List.foldl_filterMap]
  congr 1
  funext style s
  cases p.shorthand? s <;> rfl

theorem resolvedStyle_congr {p q : Props} (hstyle : p.style = q.style)
    (hshorthands : ∀ s, p.shorthand? s = q.shorthand? s) : p.resolvedStyle = q.resolvedStyle := by
  unfold resolvedStyle
  simp only [hstyle, hshorthands]

theorem keys_resolvedStyle (p : Props) :
    p.resolvedStyle.entries.keys = p.style.entries.keys ++
      (Shorthand.all.filter fun s =>
        (p.shorthand? s).isSome && decide (s.key ∉ p.style.entries.keys)).map Shorthand.key := by
  have hnew : p.given.keys.removeAll p.style.entries.keys =
      (Shorthand.all.filter fun s =>
        (p.shorthand? s).isSome && decide (s.key ∉ p.style.entries.keys)).map Shorthand.key := by
    rw [keys_given, List.removeAll, List.filter_map, List.filter_filter]
    congr 1
    refine List.filter_congr fun s _ => ?_
    simp [Bool.and_comm, Function.comp]
  have hdistinct : (p.given.keys.removeAll p.style.entries.keys).Nodup :=
    p.nodup_keys_given.filter _
  rw [resolvedStyle_eq, Members.keys_insertAll, List.eraseDups_append,
    List.eraseDups_of_nodup p.style.distinct, List.eraseDups_of_nodup hdistinct, hnew]

/-- A present shorthand wins over the nested style. -/
theorem get?_resolvedStyle_of_shorthand {p : Props} {s : Shorthand} {value : Value}
    (h : p.shorthand? s = some value) : p.resolvedStyle.get? s.key = some value := by
  have hlookup : p.given.reverse.lookup s.key = some value := by
    refine Entries.lookup_eq_some ?_ (List.mem_reverse.2 (mem_given h))
    rw [Entries.keys, List.map_reverse]
    exact List.nodup_reverse.2 p.nodup_keys_given
  rw [resolvedStyle_eq, Members.get?_insertAll, hlookup, Option.some_or]

theorem get?_resolvedStyle_of_none {p : Props} {key : String}
    (h : ∀ s : Shorthand, s.key = key → p.shorthand? s = none) :
    p.resolvedStyle.get? key = p.style.get? key := by
  have hlookup : p.given.reverse.lookup key = none := by
    refine Entries.lookup_eq_none ?_
    rw [Entries.keys, List.map_reverse, List.mem_reverse]
    exact not_mem_keys_given h
  rw [resolvedStyle_eq, Members.get?_insertAll, hlookup, Option.none_or]

/-- The shorthands say nothing new about a style that has them on top already. -/
theorem resolvedStyle_resolved (p : Props) :
    { p with style := p.resolvedStyle }.resolvedStyle = p.resolvedStyle := by
  have hgiven : { p with style := p.resolvedStyle }.given = p.given := rfl
  rw [resolvedStyle_eq, hgiven]
  show p.resolvedStyle.insertAll p.given = _
  rw [resolvedStyle_eq, Members.insertAll_insertAll_self]

end Props

/-! ## After edits -/

/-- Runs of edits that differ in where they set the shorthands, but not in what each is set to last,
end in the same resolved style. -/
theorem resolvedStyle_edit_congr {edits others : List Edit}
    (hrest : edits.filter (!·.setsShorthand) = others.filter (!·.setsShorthand))
    (hlast : ∀ s : Shorthand, (edits.filterMap (Edit.setting? s)).getLast? =
      (others.filterMap (Edit.setting? s)).getLast?) (node : Node) :
    (node.edit edits).props.resolvedStyle = (node.edit others).props.resolvedStyle := by
  apply Props.resolvedStyle_congr
  · rw [style_edit_eq_foldl, style_edit_eq_foldl, ← foldl_onStyle_filter, hrest, foldl_onStyle_filter]
  · intro s
    rw [Props.shorthand?, Props.shorthand?, stored_edit, stored_edit, hlast s]

/-- The resolved style of a node has the nested keys in their order and behind them, in a fixed order,
the keys of the present shorthands that are not among them, each key once. A present shorthand gives
the value at its key, and the nested style every other. When a shorthand is set among other edits makes
no difference, and neither does resolving again. -/
theorem resolvedStyle_of_node (node : Node) :
    node.props.resolvedStyle.entries.keys = node.props.style.entries.keys ++
        ([.backgroundColor, .color, .fontSize, .padding, .margin, .borderRadius].filter
          fun s : Shorthand => (node.props.shorthand? s).isSome &&
            decide (s.key ∉ node.props.style.entries.keys)).map Shorthand.key ∧
      node.props.resolvedStyle.entries.keys.Nodup ∧
      (∀ s value, node.props.shorthand? s = some value →
        node.props.resolvedStyle.get? s.key = some value) ∧
      (∀ key, (∀ s : Shorthand, s.key = key → node.props.shorthand? s = none) →
        node.props.resolvedStyle.get? key = node.props.style.get? key) ∧
      (∀ edits others : List Edit,
        edits.filter (!·.setsShorthand) = others.filter (!·.setsShorthand) →
        (∀ s : Shorthand, (edits.filterMap (Edit.setting? s)).getLast? =
          (others.filterMap (Edit.setting? s)).getLast?) →
        (node.edit edits).props.resolvedStyle = (node.edit others).props.resolvedStyle) ∧
      { node.props with style := node.props.resolvedStyle }.resolvedStyle =
        node.props.resolvedStyle :=
  ⟨node.props.keys_resolvedStyle, node.props.resolvedStyle.distinct,
    fun _ _ => Props.get?_resolvedStyle_of_shorthand, fun _ => Props.get?_resolvedStyle_of_none,
    fun _ _ hrest hlast => resolvedStyle_edit_congr hrest hlast node,
    node.props.resolvedStyle_resolved⟩

/-- A button whose nested width and font size are set in two orders, with a padding that is null. -/
theorem resolvedStyle_of_node_interleaved :
    let node : Node := ⟨"1", .button,
      { Props.empty with
        color := some (.text "red")
        backgroundColor := some (.text "white")
        style := .ofEntries [("color", .text "blue"), ("width", .text "50%")] }, [], none, none⟩
    let edits : List Edit :=
      [.shorthand .fontSize (.ofUInt32 16), .styleEntry "width" (.text "100%"),
        .shorthand .padding .null]
    let others : List Edit :=
      [.shorthand .padding .null, .shorthand .fontSize .null, .styleEntry "width" (.text "100%"),
        .shorthand .fontSize (.ofUInt32 16)]
    (edits.filter (!·.setsShorthand) = others.filter (!·.setsShorthand) ∧
      ∀ s : Shorthand, (edits.filterMap (Edit.setting? s)).getLast? =
        (others.filterMap (Edit.setting? s)).getLast?) ∧
      (node.edit edits).props.resolvedStyle = (node.edit others).props.resolvedStyle ∧
      (node.edit edits).props.resolvedStyle.entries =
        [("color", .text "red"), ("width", .text "100%"), ("backgroundColor", .text "white"),
          ("fontSize", .ofUInt32 16)] ∧
      node.props.resolvedStyle.get? "color" = some (.text "red") ∧
      node.props.resolvedStyle.get? "width" = some (.text "50%") := by
  intro node edits others
  obtain ⟨-, -, hshorthand, hnested, hedits, -⟩ := resolvedStyle_of_node node
  have hlast (s : Shorthand) : (edits.filterMap (Edit.setting? s)).getLast? =
      (others.filterMap (Edit.setting? s)).getLast? := by
    cases s <;> rfl
  refine ⟨⟨rfl, hlast⟩, hedits edits others rfl hlast, rfl, hshorthand .color _ rfl,
    hnested "width" fun s hkey => ?_⟩
  cases s <;> first | rfl | exact absurd hkey (by decide)

end AppExport.Component
