/-
Literals of values without binary64 numbers. Such a literal is the JSON text of the value, and the
value is read back from it, with the keys of every object in their order, if and only if it nests no
deeper than a reader goes.
-/
import AppExport.Markup.StyleObject
import AppExport.Proofs.Component.StyleValue
import AppExport.Proofs.Json.Value

namespace AppExport.Json

open Component (styleValue styleValue_eq_value)

namespace Value

-- A binary64 number that is an integer is the only thing that a literal writes in a way of its own.
mutual
theorem literalChars_eq_chars : ∀ v : Value, v.floats = [] → v.literalChars = v.chars
  | null, _ | bool _, _ | text _, _ | number (.integer _ _ _), _ => rfl
  | number (.float x), h => by
    rw [floats] at h
    cases h
  | list items, h => by
    rw [floats] at h
    rw [literalChars, chars, itemLiterals_eq_itemsChars items h]
  | object entries, h => by
    rw [floats] at h
    rw [literalChars, chars, entryLiterals_eq_entriesChars entries h]

theorem itemLiterals_eq_itemsChars : ∀ items : List Value, floatsAll items = [] →
    itemLiterals items = itemsChars items
  | [], _ => rfl
  | v :: rest, h => by
    rw [floatsAll, List.append_eq_nil_iff] at h
    rw [itemLiterals, itemsChars, literalChars_eq_chars v h.1, itemLiterals_eq_itemsChars rest h.2]

theorem entryLiterals_eq_entriesChars : ∀ entries : List (String × Value),
    floatsEntries entries = [] → entryLiterals entries = entriesChars entries
  | [], _ => rfl
  | (key, v) :: rest, h => by
    rw [floatsEntries, List.append_eq_nil_iff] at h
    rw [entryLiterals, entriesChars, literalChars_eq_chars v h.1,
      entryLiterals_eq_entriesChars rest h.2]
end

end Value

/-- What is read from a whole text nests no deeper than its reader goes. -/
theorem depth_le_of_decode {text : String} {v : Value} (h : decode value text = .ok v) :
    v.depth ≤ startRoom := by
  obtain ⟨behind, hread, -⟩ := decode_eq_ok_iff.1 h
  exact (value_gives startRoom hread).depth_le

/-- A value without binary64 numbers is written as its JSON text. It is read back as it is, unless its
brackets nest too deep to be read at all. -/
theorem literal_eq_compact (v : Value) (hfloats : v.floats = []) :
    v.literal = v.compact ∧
      (v.Keyed → (decode styleValue v.literal = .ok v ↔ v.depth ≤ startRoom)) := by
  have htext : v.literal = v.compact := by
    rw [Value.literal, Value.compact, Value.literalChars_eq_chars v hfloats]
  refine ⟨htext, fun hkeyed => ?_⟩
  rw [styleValue_eq_value, htext]
  constructor
  · exact depth_le_of_decode
  · intro hdepth
    have hreread : v.reread = v := Value.reread_eq_self v (by simp [hfloats])
    rw [decode_compact hkeyed hdepth, hreread]

/-- The least and the greatest integer, a text with escapes and keys that are not in any order. -/
theorem literal_eq_compact_nested :
    let v : Value := .list [.object [("b\"", .number (.integer Number.least (by decide) (by decide))),
      ("a", .list [.null, .bool true, .object []]), ("é", .text "\\\n, \x7d"),
      ("c", .number (.integer Number.greatest (by decide) (by decide)))], .list []]
    (v.floats = [] ∧ v.Keyed ∧ v.depth ≤ startRoom) ∧ v.literal = v.compact ∧
      decode styleValue v.literal = .ok v := by
  intro v
  have hfloats : v.floats = [] := rfl
  have hkeyed : v.Keyed := by simp [v, Value.Keyed, Value.KeyedAll, Value.KeyedEntries, Entries.keys]
  have hdepth : v.depth ≤ startRoom := by decide
  obtain ⟨htext, hdecode⟩ := literal_eq_compact v hfloats
  exact ⟨⟨hfloats, hkeyed, hdepth⟩, htext, (hdecode hkeyed).2 hdepth⟩

end AppExport.Json
