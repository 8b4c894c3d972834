/-
Every JSON value is a style value, just as it is: exactly one shape takes it, and nothing in it is left
out. So a style value is read wherever a value is, and the style of an object has all of its entries.
-/
import AppExport.Component.Codec

namespace AppExport.Component

open Json (Entries Members Value)

mutual
theorem styleValue?_eq_some : ∀ v : Value, styleValue? v = some v
  | .null | .bool _ | .number _ | .text _ => rfl
  | .list items => by
    rw [styleValue?, styleValues?_eq_some items]
    rfl
  | .object entries => by
    rw [styleValue?, styleEntries?_eq_some entries]
    rfl

theorem styleValues?_eq_some : ∀ items : List Value, styleValues? items = some items
  | [] => rfl
  | v :: rest => by
    rw [styleValues?, styleValue?_eq_some v, styleValues?_eq_some rest]
    rfl

theorem styleEntries?_eq_some : ∀ entries : List (String × Value),
    styleEntries? entries = some entries
  | [] => rfl
  | (key, v) :: rest => by
    rw [styleEntries?, styleValue?_eq_some v, styleEntries?_eq_some rest]
    rfl
end

/-- A style value is read as any value is. -/
theorem styleValue_eq_value : styleValue = Json.value := by
  funext room c
  cases hread : Json.value room c with
  | error fault => simp only [styleValue, hread, bind, Except.bind]
  | ok read => simp only [styleValue, hread, bind, Except.bind, styleValue?_eq_some]

/-- No entry of an object is left out of the style that it stands for. -/
theorem styleOf_object (entries : Entries) : styleOf (.object entries) = .ofEntries entries := by
  have hentry : (fun e : String × Value => (styleValue? e.2).map fun v => (e.1, v)) = some := by
    funext e
    rw [styleValue?_eq_some, Option.map_some]
  rw [styleOf, hentry, List.filterMap_some]

end AppExport.Component
