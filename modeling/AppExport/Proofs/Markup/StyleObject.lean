/-
Style objects close every brace they open and hold no control character, whatever keys and values
they are made of. So the text of a style object shows where it ends.
-/
import AppExport.Markup.StyleObject
import AppExport.Proofs.Decimal.Notation
import AppExport.Proofs.Json.Text

namespace AppExport.Json

/-- Items between commas are items joined by a comma. -/
theorem commaSeparated_eq_intercalate (items : List (List Char)) :
    commaSeparated items = [','].intercalate items := by
  induction items with
  | nil => rfl
  | cons item rest ih =>
    cases rest with
    | nil => simp [commaSeparated]
    | cons next rest => simp [commaSeparated, ih, List.intercalate_cons_cons]

end AppExport.Json

namespace AppExport.Markup

open Decimal (isDigit isNumeral)
open Json (Value boolChars commaSeparated)
open Text (Shown quoteChars quoteChars_append_inj quoteChars_shown)

/-- A character that neither opens nor closes anything. -/
def Inert (c : Char) : Prop := 0x20 ≤ c.toNat ∧ c ≠ '\x7b' ∧ c ≠ '\x7d' ∧ c ≠ '"'

instance (c : Char) : Decidable (Inert c) := inferInstanceAs (Decidable (_ ∧ _))

/-- Source text in which every brace is closed. What quoted texts hold does not count. -/
inductive Closed : List Char → Prop
  | nil : Closed []
  | inert {c : Char} {cs : List Char} : Inert c → Closed cs → Closed (c :: cs)
  | quoted (s : List Char) {cs : List Char} : Closed cs → Closed (quoteChars s ++ cs)
  | braced {inner cs : List Char} : Closed inner → Closed cs →
    Closed ('\x7b' :: inner ++ '\x7d' :: cs)

namespace Closed

theorem append {xs ys : List Char} (hx : Closed xs) (hy : Closed ys) : Closed (xs ++ ys) := by
  induction hx with
  | nil => exact hy
  | inert hc _ ih => exact .inert hc ih
  | quoted s _ ih => rw [List.append_assoc]; exact .quoted s ih
  | braced hinner _ _ ih => simpa using Closed.braced hinner ih

theorem of_inert {cs : List Char} (h : ∀ c ∈ cs, Inert c) : Closed cs := by
  induction cs with
  | nil => exact .nil
  | cons c cs ih => exact .inert (h c (by simp)) (ih fun d hd => h d (by simp [hd]))

theorem of_quoted (s : List Char) : Closed (quoteChars s) := by
  simpa using Closed.quoted s .nil

theorem of_braced {inner : List Char} (h : Closed inner) : Closed ('\x7b' :: inner ++ ['\x7d']) :=
  .braced h .nil

theorem shown {cs : List Char} (h : Closed cs) : Shown cs := by
  induction h with
  | nil => exact Text.shown_nil
  | inert hc _ ih => exact Text.shown_cons.2 ⟨hc.1, ih⟩
  | quoted s _ ih => exact Text.shown_append.2 ⟨quoteChars_shown s, ih⟩
  | braced _ _ ihi ihc =>
    rw [List.cons_append, Text.shown_cons, Text.shown_append, Text.shown_cons]
    exact ⟨by decide, ihi, by decide, ihc⟩

/-- The brace behind a closed text is the first one that the text does not open itself. -/
theorem append_inj {xs ys r r' : List Char} (hx : Closed xs) (hy : Closed ys)
    (h : xs ++ '\x7d' :: r = ys ++ '\x7d' :: r') : xs = ys ∧ r = r' := by
  induction hx generalizing ys r r' with
  | nil =>
    cases hy with
    | nil => simpa using h
    | inert hc _ => simp only [List.nil_append, List.cons_append, List.cons.injEq] at h
                    exact absurd h.1.symm hc.2.2.1
    | quoted s _ => simp [quoteChars] at h
    | braced _ _ => simp at h
  | @inert c cs hc _ ih =>
    cases hy with
    | nil => simp only [List.nil_append, List.cons_append, List.cons.injEq] at h
             exact absurd h.1 hc.2.2.1
    | inert _ hy =>
      simp only [List.cons_append, List.cons.injEq] at h
      obtain ⟨rfl, hr⟩ := ih hy h.2
      exact ⟨by rw [h.1], hr⟩
    | quoted s _ =>
      simp only [quoteChars, List.cons_append, List.cons.injEq] at h
      exact absurd h.1 hc.2.2.2
    | braced _ _ =>
      simp only [List.cons_append, List.cons.injEq] at h
      exact absurd h.1 hc.2.1
  | @quoted s cs _ ih =>
    cases hy with
    | nil => simp [quoteChars] at h
    | inert hc _ =>
      simp only [quoteChars, List.cons_append, List.cons.injEq] at h
      exact absurd h.1.symm hc.2.2.2
    | quoted t hy =>
      rw [List.append_assoc, List.append_assoc] at h
      obtain ⟨rfl, hrest⟩ := quoteChars_append_inj h
      obtain ⟨rfl, hr⟩ := ih hy hrest
      exact ⟨rfl, hr⟩
    | braced _ _ => simp [quoteChars] at h
  | @braced inner cs _ _ ihi ihc =>
    cases hy with
    | nil => simp at h
    | inert hc _ =>
      simp only [List.cons_append, List.cons.injEq] at h
      exact absurd h.1.symm hc.2.1
    | quoted t _ => simp [quoteChars] at h
    | braced hinner hy =>
      simp only [List.cons_append, List.append_assoc, List.cons.injEq, true_and] at h
      obtain ⟨rfl, hrest⟩ := ihi hinner h
      obtain ⟨rfl, hr⟩ := ihc hy hrest
      exact ⟨rfl, hr⟩

theorem intercalate {separator : List Char} (hs : Closed separator) {items : List (List Char)}
    (h : ∀ item ∈ items, Closed item) : Closed (separator.intercalate items) := by
  induction items with
  | nil => exact .nil
  | cons item rest ih =>
    have hitem := h item (by simp)
    have hrest := ih fun i hi => h i (by simp [hi])
    cases rest with
    | nil => simpa using hitem
    | cons next rest =>
      rw [List.intercalate_cons_cons]
      exact (hitem.append hs).append hrest

theorem commaSeparated {items : List (List Char)} (h : ∀ item ∈ items, Closed item) :
    Closed (commaSeparated items) := by
  rw [Json.commaSeparated_eq_intercalate]
  exact intercalate (.inert (by decide) .nil) h

end Closed

/-! ## Literals -/

theorem inert_of_toNat {c : Char} (hcontrol : 0x20 ≤ c.toNat)
    (h : c.toNat ∉ [0x22, 0x7b, 0x7d]) : Inert c := by
  refine ⟨hcontrol, ?_, ?_, ?_⟩ <;> rintro rfl <;> exact h (by decide)

/-- The codes of a range of characters without the three that open or close. -/
theorem inert_of_range (first last : Char) {c : Char} (h : first ≤ c ∧ c ≤ last)
    (hfirst : 0x23 ≤ first.toNat) (hlast : last.toNat ≤ 0x7a) : Inert c := by
  have hlow : first.toNat ≤ c.toNat := UInt32.le_iff_toNat_le.1 h.1
  have hhigh : c.toNat ≤ last.toNat := UInt32.le_iff_toNat_le.1 h.2
  refine inert_of_toNat (by omega) ?_
  simp only [List.mem_cons, List.not_mem_nil, or_false, not_or]
  omega

theorem inert_of_isDigit {c : Char} (h : isDigit c) : Inert c :=
  inert_of_range '0' '9' (by simpa [isDigit] using h) (by decide) (by decide)

theorem inert_of_isNumeral {c : Char} (h : isNumeral c) : Inert c := by
  simp only [isNumeral, Bool.or_eq_true, beq_iff_eq] at h
  rcases h with (((h | rfl) | rfl) | rfl) | rfl
  · exact inert_of_isDigit h
  all_goals decide

theorem isNumeral_of_mem_literalChars {n : Json.Number} {c : Char} (h : c ∈ n.literalChars) :
    isNumeral c := by
  cases n with
  | integer i _ _ =>
    rw [Json.Number.literalChars] at h
    exact Decimal.isNumeral_of_mem_intChars h
  | float x =>
    cases hx : x.toInt? with
    | some i =>
      simp only [Json.Number.literalChars, hx] at h
      exact Decimal.isNumeral_of_mem_intChars h
    | none =>
      simp only [Json.Number.literalChars, hx] at h
      exact Decimal.Binary64.isNumeral_of_mem_chars h

theorem closed_number (n : Json.Number) : Closed n.literalChars :=
  .of_inert fun _ hc => inert_of_isNumeral (isNumeral_of_mem_literalChars hc)

mutual
theorem closed_literal : ∀ v : Value, Closed v.literalChars
  | .null => by
    rw [Value.literalChars]
    exact .of_inert (List.all_iff_forall_prop.1 (by decide))
  | .bool b => by
    rw [Value.literalChars]
    exact .of_inert (List.all_iff_forall_prop.1 (by cases b <;> decide))
  | .number n => by
    rw [Value.literalChars]
    exact closed_number n
  | .text s => by
    rw [Value.literalChars]
    exact .of_quoted s.toList
  | .list items => by
    rw [Value.literalChars]
    have hitems := Closed.commaSeparated (closed_itemLiterals items)
    exact .inert (by decide) (hitems.append (.inert (by decide) .nil))
  | .object entries => by
    rw [Value.literalChars]
    exact .of_braced (Closed.commaSeparated (closed_entryLiterals entries))

theorem closed_itemLiterals : ∀ items : List Value, ∀ t ∈ Value.itemLiterals items, Closed t
  | [], t, ht => by simp [Value.itemLiterals] at ht
  | v :: rest, t, ht => by
    simp only [Value.itemLiterals, List.mem_cons] at ht
    rcases ht with rfl | ht
    · exact closed_literal v
    · exact closed_itemLiterals rest t ht

theorem closed_entryLiterals :
    ∀ entries : List (String × Value), ∀ t ∈ Value.entryLiterals entries, Closed t
  | [], t, ht => by simp [Value.entryLiterals] at ht
  | (key, v) :: rest, t, ht => by
    simp only [Value.entryLiterals, List.mem_cons] at ht
    rcases ht with rfl | ht
    · exact .quoted _ (.inert (by decide) (closed_literal v))
    · exact closed_entryLiterals rest t ht
end

/-! ## Style objects -/

theorem inert_of_isIdentifierStart {c : Char} (h : isIdentifierStart c) : Inert c := by
  simp only [isIdentifierStart, Bool.or_eq_true, Bool.and_eq_true, decide_eq_true_eq,
    beq_iff_eq] at h
  rcases h with ((h | h) | rfl) | rfl
  · exact inert_of_range 'a' 'z' h (by decide) (by decide)
  · exact inert_of_range 'A' 'Z' h (by decide) (by decide)
  all_goals decide

theorem closed_keyChars (key : List Char) : Closed (keyChars key) := by
  unfold keyChars
  split
  · next h =>
    refine .of_inert fun c hc => ?_
    cases key with
    | nil => simp at hc
    | cons k rest =>
      simp only [isIdentifier, Bool.and_eq_true, List.all_eq_true, Bool.or_eq_true] at h
      rcases List.mem_cons.1 hc with rfl | hc
      · exact inert_of_isIdentifierStart h.1
      · rcases h.2 c hc with h | h
        · exact inert_of_isIdentifierStart h
        · exact inert_of_isDigit (by simpa [isDigit] using h)
  · exact .of_quoted key

theorem closed_styleObject (style : Component.Style) : Closed (styleObject style).toList := by
  have hentry : ∀ t ∈ style.entries.map styleEntryChars, Closed t := fun t ht => by
    obtain ⟨entry, -, rfl⟩ := List.mem_map.1 ht
    exact (closed_keyChars _).append
      (.inert (by decide) (.inert (by decide) (closed_literal entry.2)))
  rw [styleObject, String.toList_ofList]
  exact .of_braced (.intercalate (.inert (by decide) (.inert (by decide) .nil)) hentry)

end AppExport.Markup
