/-
Runs of edits, one part of a node at a time. The nested style is made by the style entries that have
been set behind the last style typed in, and what is stored for a shorthand is what it was set to last.
-/
import AppExport.Component.Edit
import AppExport.Proofs.Json.Overwrite

namespace AppExport.Component

open Json (Entries Value)

namespace Edit

/-- The style that an edit types in, if it is accepted. -/
def typed? : Edit → Option Style
  | styleText raw => styleOfText? raw
  | _ => none

/-- The style entry that an edit sets. -/
def pair? : Edit → Option (String × Value)
  | styleEntry key value => some (key, value)
  | _ => none

/-- What an edit sets a shorthand to. -/
def setting? (s : Shorthand) : Edit → Option Value
  | shorthand which value => if which = s then some value else none
  | _ => none

def setsShorthand : Edit → Bool
  | shorthand _ _ => true
  | _ => false

/-- What an edit makes of the nested style. -/
def onStyle (style : Style) : Edit → Style
  | styleEntry key value => style.insert key value
  | styleText raw => (styleOfText? raw).getD style
  | _ => style

/-! ## One edit -/

theorem applyToProps_styleText (p : Props) (raw : String) :
    (styleText raw).applyToProps p = { p with style := (styleOfText? raw).getD p.style } := by
  simp only [applyToProps]
  cases styleOfText? raw <;> rfl

theorem style_apply (node : Node) (e : Edit) :
    (e.apply node).props.style = e.onStyle node.props.style := by
  cases e with
  | styleText raw =>
    show ((styleText raw).applyToProps node.props).style = _
    rw [applyToProps_styleText]
    rfl
  | shorthand which value => cases which <;> rfl
  | _ => rfl

theorem stored_apply (node : Node) (e : Edit) (s : Shorthand) :
    (e.apply node).props.stored s = (e.setting? s).or (node.props.stored s) := by
  cases e with
  | styleText raw =>
    show ((styleText raw).applyToProps node.props).stored s = _
    rw [applyToProps_styleText]
    cases s <;> rfl
  | shorthand which value => cases which <;> cases s <;> rfl
  | _ => cases s <;> rfl

/-- An edit that is not accepted changes nothing at all. -/
theorem apply_of_not_accepted {e : Edit} (h : e.accepted = false) (node : Node) :
    e.apply node = node := by
  cases e with
  | styleText raw =>
    have hnone : styleOfText? raw = none := by
      rw [accepted] at h
      exact Option.isSome_eq_false_iff.1 h |> Option.isNone_iff_eq_none.1
    cases node
    unfold apply
    simp only [applyToProps_styleText, hnone, Option.getD_none]
  | _ => cases h

theorem onStyle_of_typed {e : Edit} {style : Style} (h : e.typed? = some style) (before : Style) :
    e.onStyle before = style := by
  cases e with
  | styleText raw =>
    have hraw : styleOfText? raw = some style := h
    unfold onStyle
    simp only [hraw, Option.getD_some]
  | _ => cases h

theorem onStyle_of_not_typed {e : Edit} (h : e.typed? = none) (style : Style) :
    e.onStyle style = style.insertAll e.pair?.toList := by
  cases e with
  | styleText raw =>
    have hraw : styleOfText? raw = none := h
    unfold onStyle
    simp only [hraw, Option.getD_none]
    rfl
  | _ => rfl

theorem onStyle_of_setsShorthand {e : Edit} (h : e.setsShorthand = true) (style : Style) :
    e.onStyle style = style := by
  cases e with
  | shorthand which value => rfl
  | _ => cases h

end Edit

/-! ## Runs -/

theorem style_edit_eq_foldl (node : Node) (edits : List Edit) :
    (node.edit edits).props.style = edits.foldl Edit.onStyle node.props.style := by
  induction edits generalizing node with
  | nil => rfl
  | cons e rest ih =>
    rw [List.foldl_cons, ← Edit.style_apply, ← ih]
    rfl

/-- What is stored for a shorthand in the end. -/
theorem stored_edit (node : Node) (edits : List Edit) (s : Shorthand) :
    (node.edit edits).props.stored s =
      (edits.filterMap (Edit.setting? s)).getLast?.or (node.props.stored s) := by
  induction edits generalizing node with
  | nil => rfl
  | cons e rest ih =>
    have hrest := ih (e.apply node)
    rw [Edit.stored_apply] at hrest
    show ((e.apply node).edit rest).props.stored s = _
    rw [hrest, List.filterMap_cons]
    cases e.setting? s with
    | none => rfl
    | some value =>
      show _ = (value :: rest.filterMap (Edit.setting? s)).getLast?.or _
      rw [List.getLast?_cons]
      cases (rest.filterMap (Edit.setting? s)).getLast? <;> rfl

theorem foldl_onStyle_of_not_typed {edits : List Edit} (h : ∀ e ∈ edits, e.typed? = none)
    (start : Style) :
    edits.foldl Edit.onStyle start = start.insertAll (edits.filterMap Edit.pair?) := by
  induction edits generalizing start with
  | nil => rfl
  | cons e rest ih =>
    obtain ⟨he, hrest⟩ := List.forall_mem_cons.1 h
    rw [List.foldl_cons, Edit.onStyle_of_not_typed he, ih hrest, ← Json.Members.insertAll_append,
      List.filterMap_cons]
    cases e.pair? <;> rfl

/-- A run of edits ends in the last style that was typed in and accepted, with the entries set behind
it, or in the style at the start with all entries that were set. -/
theorem foldl_onStyle (edits : List Edit) (start : Style) :
    (∃ before raw style after, edits = before ++ .styleText raw :: after ∧
      styleOfText? raw = some style ∧ (∀ e ∈ after, e.typed? = none) ∧
      edits.foldl Edit.onStyle start = style.insertAll (after.filterMap Edit.pair?)) ∨
    ((∀ e ∈ edits, e.typed? = none) ∧
      edits.foldl Edit.onStyle start = start.insertAll (edits.filterMap Edit.pair?)) := by
  induction edits generalizing start with
  | nil => exact .inr ⟨by simp, rfl⟩
  | cons e rest ih =>
    rcases ih (e.onStyle start) with ⟨before, raw, style, after, rfl, hraw, hafter, hfold⟩ | ⟨hrest, -⟩
    · exact .inl ⟨e :: before, raw, style, after, rfl, hraw, hafter, hfold⟩
    · -- no style is typed in later, so it is this edit or none
      cases htyped : e.typed? with
      | none =>
        have hnone : ∀ e' ∈ e :: rest, e'.typed? = none := List.forall_mem_cons.2 ⟨htyped, hrest⟩
        exact .inr ⟨hnone, foldl_onStyle_of_not_typed hnone start⟩
      | some style =>
        have hfold : (e :: rest).foldl Edit.onStyle start =
            style.insertAll (rest.filterMap Edit.pair?) := by
          rw [List.foldl_cons, Edit.onStyle_of_typed htyped, foldl_onStyle_of_not_typed hrest]
        cases e with
        | styleText raw => exact .inl ⟨[], raw, style, rest, rfl, htyped, hrest, hfold⟩
        | _ => cases htyped

/-- Setting shorthands has no part in the nested style. -/
theorem foldl_onStyle_filter (edits : List Edit) (start : Style) :
    (edits.filter (!·.setsShorthand)).foldl Edit.onStyle start =
      edits.foldl Edit.onStyle start := by
  induction edits generalizing start with
  | nil => rfl
  | cons e rest ih =>
    cases hsets : e.setsShorthand with
    | true =>
      rw [List.filter_cons_of_neg (by simp [hsets]), List.foldl_cons,
        Edit.onStyle_of_setsShorthand hsets, ih]
    | false => rw [List.filter_cons_of_pos (by simp [hsets]), List.foldl_cons, List.foldl_cons, ih]

end AppExport.Component
