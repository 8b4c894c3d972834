/-
The readers of projects are exact, down to the properties of the innermost components, so what is made
of a component or of a configuration does not depend on the text around it.
-/
import AppExport.Document
import AppExport.Proofs.Component.StyleValue
import AppExport.Proofs.Json.Exact.Record

namespace AppExport

open Json (Decoder Exact IsSpaced Record exact_binary64 exact_choice exact_listOf exact_orNull
  exact_text exact_uint32 exact_value)

/-! ## Components -/

namespace Component

theorem exact_content (room : Nat) : Exact (content room) IsSpaced :=
  (exact_value room).bind_ok contentOf

theorem exact_style (room : Nat) : Exact (style room) IsSpaced :=
  (exact_value room).bind_ok styleOf

theorem exact_styleValue (room : Nat) : Exact (styleValue room) IsSpaced := by
  rw [styleValue_eq_value]
  exact exact_value room

theorem exact_kind (room : Nat) : Exact (kind room) IsSpaced :=
  (exact_text "a string").bind_ok Kind.ofName

theorem propsRecord_readsExactly : propsRecord.ReadsExactly where
  fields := by
    have hvalue (room : Nat) : Exact (Json.orNull styleValue room) IsSpaced :=
      exact_orNull (exact_styleValue room)
    simp only [propsRecord, List.forall_mem_cons, List.not_mem_nil, false_implies, implies_true,
      and_true]
    exact ⟨.slot exact_content, .slot exact_content, .slot exact_content, .slot exact_content,
      .slot exact_content, .slot hvalue, .slot hvalue, .slot hvalue, .slot hvalue, .slot hvalue,
      .slot hvalue, .slot exact_style⟩
  others := by
    rintro _ ⟨⟩ key draft room
    exact (exact_styleValue room).bind_ok fun v => { draft with extra := draft.extra.insert key v }

theorem pairRecord_readsExactly {α : Type} (label first second : String)
    (make : Decimal.Binary64 → Decimal.Binary64 → α) :
    (pairRecord label first second make).ReadsExactly where
  fields := by
    simp only [pairRecord, List.forall_mem_cons, List.not_mem_nil, false_implies, implies_true,
      and_true]
    exact ⟨.slot fun _ => exact_binary64, .slot fun _ => exact_binary64⟩
  others := nofun

theorem nodeRecord_readsExactly {child : Decoder Node} (h : ∀ room, Exact (child room) IsSpaced) :
    (nodeRecord child).ReadsExactly where
  fields := by
    simp only [nodeRecord, List.forall_mem_cons, List.not_mem_nil, false_implies, implies_true,
      and_true]
    exact ⟨.slot fun _ => exact_text "a string", .slot exact_kind,
      .slot propsRecord_readsExactly.decoder, .slot (exact_listOf h),
      .slot fun room => exact_orNull ((pairRecord_readsExactly _ _ _ _).decoder room),
      .slot fun room => exact_orNull ((pairRecord_readsExactly _ _ _ _).decoder room)⟩
  others := nofun

theorem exact_node : ∀ room : Nat, Exact (node room) IsSpaced
  | 0 => (nodeRecord_readsExactly fun _ => Json.exact_refuse "" _).decoder 0
  | 1 => (nodeRecord_readsExactly fun _ => Json.exact_refuse "" _).decoder 1
  | room + 2 => (nodeRecord_readsExactly fun _ => exact_node room).decoder (room + 2)

theorem exact_forest (room : Nat) : Exact (forest room) IsSpaced := exact_listOf exact_node room

end Component

/-! ## Configurations -/

theorem Theme.record_readsExactly : Theme.record.ReadsExactly where
  fields := by
    have htext (room : Nat) : Exact (Theme.text room) IsSpaced := exact_text "a string"
    simp only [Theme.record, List.forall_mem_cons, List.not_mem_nil, false_implies, implies_true,
      and_true]
    exact ⟨.slot htext, .slot htext, .slot htext, .slot htext⟩
  others := nofun

theorem Config.record_readsExactly : Config.record.ReadsExactly where
  fields := by
    have htext (room : Nat) : Exact (Config.text room) IsSpaced := exact_text "a string"
    have hchoice (room : Nat) : Exact (Orientation.decoder room) IsSpaced := exact_choice _ room
    simp only [Config.record, List.forall_mem_cons, List.not_mem_nil, false_implies, implies_true,
      and_true]
    exact ⟨.slot htext, .slot htext, .slot htext, .slot htext,
      .slot fun room => exact_orNull (htext room), .slot fun room => exact_orNull (htext room),
      .slot Theme.record_readsExactly.decoder, .slot (exact_listOf htext), .slot hchoice,
      .slot fun _ => exact_uint32, .slot fun _ => exact_uint32⟩
  others := nofun

theorem Config.exact_decoder (room : Nat) : Exact (Config.decoder room) IsSpaced :=
  Config.record_readsExactly.decoder room

end AppExport
