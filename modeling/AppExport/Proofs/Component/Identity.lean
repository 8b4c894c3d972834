/-
The ids of a forest. Looking for a repeated one finds the first node, in pre-order, whose id an
earlier node has, and nothing if the ids are distinct.
-/
import AppExport.Component.Node
import Mathlib.Data.List.Nodup

namespace AppExport.Component

variable {seen ids : List String} {id other : String}

/-- Whether `id` stands in a list where an element repeats an earlier one for the first time. -/
def FirstRepeat (id : String) (ids : List String) : Prop :=
  ∃ before after, ids = before ++ id :: after ∧ id ∈ before ∧ before.Nodup

theorem FirstRepeat.not_nodup (h : FirstRepeat id ids) : ¬ids.Nodup := by
  obtain ⟨before, after, rfl, hmem, -⟩ := h
  exact fun hnodup => (List.nodup_append.1 hnodup).2.2 id hmem id List.mem_cons_self rfl

theorem FirstRepeat.unique (h : FirstRepeat id ids) (hother : FirstRepeat other ids) :
    id = other := by
  obtain ⟨before, after, rfl, hmem, hnodup⟩ := h
  obtain ⟨before', after', heq, hmem', hnodup'⟩ := hother
  rcases List.append_eq_append_iff.1 heq with ⟨between, rfl, hrest⟩ | ⟨between, rfl, hrest⟩
  · cases between with
    | nil => exact (List.cons.inj hrest).1
    | cons x between =>
      obtain ⟨rfl, -⟩ := List.cons.inj hrest
      exact absurd hnodup' (FirstRepeat.not_nodup ⟨before, between, rfl, hmem, hnodup⟩)
  · cases between with
    | nil => exact (List.cons.inj hrest).1.symm
    | cons x between =>
      obtain ⟨rfl, -⟩ := List.cons.inj hrest
      exact absurd hnodup (FirstRepeat.not_nodup ⟨before', between, rfl, hmem', hnodup'⟩)

/-- The elements that have been seen are those before, the last one first. -/
theorem firstRepeated?_spec (h : seen.Nodup) :
    match firstRepeated? seen ids with
    | some id => FirstRepeat id (seen.reverse ++ ids)
    | none => (seen.reverse ++ ids).Nodup := by
  induction ids generalizing seen with
  | nil => simpa [firstRepeated?] using h
  | cons first rest ih =>
    rw [firstRepeated?]
    by_cases hseen : first ∈ seen
    · rw [if_pos hseen]
      exact ⟨seen.reverse, rest, rfl, List.mem_reverse.2 hseen, List.nodup_reverse.2 h⟩
    · rw [if_neg hseen]
      have hrest := ih (List.nodup_cons.2 ⟨hseen, h⟩)
      rwa [List.reverse_cons, List.append_assoc, List.singleton_append] at hrest

theorem Forest.repeatedId?_spec (forest : Forest) :
    match forest.repeatedId? with
    | some id => FirstRepeat id forest.ids
    | none => forest.ids.Nodup :=
  firstRepeated?_spec List.nodup_nil

theorem Forest.repeatedId?_eq_some_iff {forest : Forest} :
    forest.repeatedId? = some id ↔ FirstRepeat id forest.ids := by
  have hspec := forest.repeatedId?_spec
  cases hfound : forest.repeatedId? with
  | none =>
    rw [hfound] at hspec
    exact ⟨nofun, fun h => absurd hspec h.not_nodup⟩
  | some found =>
    rw [hfound] at hspec
    exact ⟨fun h => Option.some.inj h ▸ hspec, fun h => congrArg some (hspec.unique h)⟩

theorem Forest.repeatedId?_eq_none_iff {forest : Forest} :
    forest.repeatedId? = none ↔ forest.ids.Nodup := by
  have hspec := forest.repeatedId?_spec
  cases hfound : forest.repeatedId? with
  | none =>
    rw [hfound] at hspec
    exact ⟨fun _ => hspec, fun _ => rfl⟩
  | some found =>
    rw [hfound] at hspec
    exact ⟨nofun, fun h => absurd h hspec.not_nodup⟩

end AppExport.Component
