/-
The text of a style object determines its keys and the literals of its values. Behind a key stands a
colon, which no bare key has in it, and a literal is a JSON text, which shows where it ends; so what a
key or a text holds is never taken for a separator.
-/
import AppExport.Proofs.Json.Float
import AppExport.Proofs.Json.Written
import AppExport.Proofs.Markup.Attribute

namespace AppExport.Decimal.Binary64

/-- An integer that a number is equal to is one of 64 bits. -/
theorem bounds_of_toInt? {x : Binary64} {i : Int} (h : x.toInt? = some i) :
    Json.Number.least ≤ i ∧ i ≤ Json.Number.greatest := by
  unfold toInt? at h
  split at h
  · next hsmall =>
    obtain ⟨-, hlt⟩ := hsmall
    have hblock : 2 * block = 0x20_0000_0000_0000 := rfl
    rw [hblock] at hlt
    generalize x.scaled / one = magnitude at h hlt
    cases h
    unfold Json.Number.least Json.Number.greatest
    split <;> omega
  · cases h

end AppExport.Decimal.Binary64

namespace AppExport.Json

open Text (quoteChars)

/-! ## Literals are JSON texts -/

theorem exists_numberText_literal (n : Number) : ∃ m, NumberText n.literalChars m := by
  cases n with
  | integer i lower upper => exact ⟨_, numberText_integer i lower upper⟩
  | float x =>
    cases hx : x.toInt? with
    | some i =>
      obtain ⟨lower, upper⟩ := x.bounds_of_toInt? hx
      simp only [Number.literalChars, hx]
      exact ⟨_, numberText_integer i lower upper⟩
    | none =>
      simp only [Number.literalChars, hx]
      exact ⟨_, x.numberText_reread⟩

namespace Value

mutual
theorem isValueText_literal : ∀ v : Value, IsValueText v.literalChars
  | null => isValueText_word (by simp)
  | bool true => isValueText_word (by simp)
  | bool false => isValueText_word (by simp)
  | number n => by
    obtain ⟨m, h⟩ := exists_numberText_literal n
    exact isValueText_number h
  | text s => isValueText_quoted s.toList
  | list items => isValueText_list (isValueText_itemLiterals items)
  | object entries => isValueText_object (isEntryText_entryLiterals entries)

theorem isValueText_itemLiterals : ∀ items : List Value, ∀ t ∈ itemLiterals items, IsValueText t
  | [], _, ht => absurd ht List.not_mem_nil
  | v :: rest, t, ht => by
    rw [itemLiterals, List.mem_cons] at ht
    rcases ht with rfl | ht
    · exact isValueText_literal v
    · exact isValueText_itemLiterals rest t ht

theorem isEntryText_entryLiterals :
    ∀ entries : List (String × Value), ∀ t ∈ entryLiterals entries, IsEntryText t
  | [], _, ht => absurd ht List.not_mem_nil
  | (key, v) :: rest, t, ht => by
    rw [entryLiterals, List.mem_cons] at ht
    rcases ht with rfl | ht
    · exact ⟨key.toList, v.literalChars, rfl, isValueText_literal v⟩
    · exact isEntryText_entryLiterals rest t ht
end

/-- Only a text has the literal of a text. -/
theorem eq_text_of_literalChars {v : Value} {s : String}
    (h : v.literalChars = quoteChars s.toList) : v = text s := by
  have hfirst : v.literalChars.head? = some '"' := by rw [h]; rfl
  cases v with
  | text t =>
    have hquoted : quoteChars t.toList ++ [] = quoteChars s.toList ++ [] := congrArg (· ++ []) h
    rw [String.toList_injective (Text.quoteChars_append_inj hquoted).1]
  | number n =>
    obtain ⟨m, c, cs, htext, hc⟩ := exists_numberText_literal n
    rw [literalChars, htext, List.head?_cons, Option.some.injEq] at hfirst
    subst hfirst
    rcases hc with ⟨hc, -⟩ | ⟨hc, -⟩
    · cases hc
    · exact absurd hc (by decide)
  | bool b => cases b <;> cases hfirst
  | null | list | object => cases hfirst

end Value
end AppExport.Json

namespace AppExport.Markup

open Component (Style)
open Json (Stops Value stops_cons)
open Text (quoteChars quoteChars_append_inj)

/-! ## Keys -/

/-- A character of an identifier that is not its first one. -/
def IsIdentifierChar (c : Char) : Prop := isIdentifierStart c = true ∨ '0' ≤ c ∧ c ≤ '9'

instance (c : Char) : Decidable (IsIdentifierChar c) := inferInstanceAs (Decidable (_ ∨ _))

theorem isIdentifier_eq_true {key : List Char} : isIdentifier key = true ↔
    (∃ c ∈ key.head?, isIdentifierStart c = true) ∧ ∀ c ∈ key, IsIdentifierChar c := by
  cases key with
  | nil => simp [isIdentifier]
  | cons c rest =>
    simp only [isIdentifier, Bool.and_eq_true, List.all_eq_true, Bool.or_eq_true, decide_eq_true_eq,
      List.head?_cons, Option.mem_some_iff, exists_eq_left', List.forall_mem_cons, IsIdentifierChar]
    constructor
    · rintro ⟨hstart, hrest⟩
      exact ⟨hstart, .inl hstart, hrest⟩
    · rintro ⟨hstart, -, hrest⟩
      exact ⟨hstart, hrest⟩

/-- A bare key never begins as a quoted one does. -/
theorem ne_quoteChars_of_isIdentifier {key other r r' : List Char} (h : isIdentifier key = true) :
    key ++ r ≠ quoteChars other ++ r' := by
  obtain ⟨⟨c, hc, hstart⟩, -⟩ := isIdentifier_eq_true.1 h
  obtain ⟨rest, rfl⟩ := List.head?_eq_some_iff.1 hc
  intro heq
  obtain ⟨rfl, -⟩ := List.cons.inj heq
  exact absurd hstart (by decide)

theorem keyChars_append_inj {key other r r' : List Char}
    (h : keyChars key ++ ':' :: r = keyChars other ++ ':' :: r') : key = other ∧ r = r' := by
  unfold keyChars at h
  split at h
  · next hkey =>
    split at h
    · next hother =>
      obtain ⟨rfl, hr⟩ := run_append_inj (isIdentifier_eq_true.1 hkey).2
        (isIdentifier_eq_true.1 hother).2 (by decide) (by decide) h
      exact ⟨rfl, (List.cons.inj hr).2⟩
    · exact absurd h (ne_quoteChars_of_isIdentifier hkey)
  · split at h
    · next hother => exact absurd h.symm (ne_quoteChars_of_isIdentifier hother)
    · obtain ⟨rfl, hr⟩ := quoteChars_append_inj h
      exact ⟨rfl, (List.cons.inj hr).2⟩

theorem objectKey_injective : Function.Injective objectKey := by
  intro key other h
  have hchars : keyChars key.toList = keyChars other.toList := by
    simpa only [objectKey, String.toList_ofList] using congrArg String.toList h
  have hcolon : keyChars key.toList ++ ':' :: [] = keyChars other.toList ++ ':' :: [] := by
    rw [hchars]
  exact String.toList_injective (keyChars_append_inj hcolon).1

/-! ## Entries -/

theorem styleEntryChars_append_inj {e f : String × Value} {r r' : List Char} (hr : Stops r)
    (hr' : Stops r') (h : styleEntryChars e ++ r = styleEntryChars f ++ r') :
    e.1 = f.1 ∧ e.2.literal = f.2.literal ∧ r = r' := by
  simp only [styleEntryChars, List.append_assoc, List.cons_append] at h
  obtain ⟨hkey, hvalue⟩ := keyChars_append_inj h
  obtain ⟨hliteral, hrest⟩ := e.2.isValueText_literal.append_inj f.2.isValueText_literal hr hr'
    (List.cons.inj hvalue).2
  exact ⟨String.toList_injective hkey, congrArg String.ofList hliteral, hrest⟩

/-- Further entries and the closing brace. -/
def furtherChars (entries : List (String × Value)) : List Char :=
  entries.flatMap (fun e => ',' :: ' ' :: styleEntryChars e) ++ ['\x7d']

theorem stops_furtherChars (entries : List (String × Value)) : Stops (furtherChars entries) := by
  cases entries with
  | nil => exact stops_cons (by decide) _
  | cons e rest => exact stops_cons (by decide) _

theorem intercalate_styleEntryChars (e : String × Value) (rest : List (String × Value)) :
    [',', ' '].intercalate ((e :: rest).map styleEntryChars) ++ ['\x7d'] =
      styleEntryChars e ++ furtherChars rest := by
  induction rest generalizing e with
  | nil => simp [furtherChars]
  | cons f rest ih =>
    rw [List.map_cons, List.map_cons, List.intercalate_cons_cons, List.append_assoc,
      List.append_assoc, ← List.map_cons, ih f]
    simp [furtherChars]

/-- Keys and literals of entries are determined by their text. -/
def SameLiterals (entries others : List (String × Value)) : Prop :=
  entries.map (·.1) = others.map (·.1) ∧ entries.map (·.2.literal) = others.map (·.2.literal)

theorem SameLiterals.cons {e f : String × Value} {rest others : List (String × Value)}
    (hkey : e.1 = f.1) (hliteral : e.2.literal = f.2.literal) (h : SameLiterals rest others) :
    SameLiterals (e :: rest) (f :: others) :=
  ⟨congrArg₂ List.cons hkey h.1, congrArg₂ List.cons hliteral h.2⟩

theorem sameLiterals_of_furtherChars : ∀ {entries others : List (String × Value)},
    furtherChars entries = furtherChars others → SameLiterals entries others
  | [], [], _ => ⟨rfl, rfl⟩
  | [], f :: others, h => by simp [furtherChars] at h
  | e :: rest, [], h => by simp [furtherChars] at h
  | e :: rest, f :: others, h => by
    have hentry : styleEntryChars e ++ furtherChars rest =
        styleEntryChars f ++ furtherChars others := by
      simpa [furtherChars] using h
    obtain ⟨hkey, hliteral, hrest⟩ := styleEntryChars_append_inj (stops_furtherChars rest)
      (stops_furtherChars others) hentry
    exact .cons hkey hliteral (sameLiterals_of_furtherChars hrest)

theorem entries_ne_closing (e : String × Value) (rest : List (String × Value)) :
    styleEntryChars e ++ furtherChars rest ≠ ['\x7d'] := by
  intro h
  have hlength := congrArg List.length h
  simp only [styleEntryChars, furtherChars, List.length_append, List.length_cons,
    List.length_nil] at hlength
  omega

/-! ## Style objects -/

theorem sameLiterals_of_styleObject {s t : Style} (h : styleObject s = styleObject t) :
    SameLiterals s.entries t.entries := by
  have hchars : [',', ' '].intercalate (s.entries.map styleEntryChars) ++ ['\x7d'] =
      [',', ' '].intercalate (t.entries.map styleEntryChars) ++ ['\x7d'] := by
    have hlists := congrArg String.toList h
    simp only [styleObject, String.toList_ofList] at hlists
    exact (List.cons.inj hlists).2
  cases hs : s.entries with
  | nil =>
    cases ht : t.entries with
    | nil => exact ⟨rfl, rfl⟩
    | cons f others =>
      rw [hs, ht, intercalate_styleEntryChars] at hchars
      exact absurd hchars.symm (entries_ne_closing f others)
  | cons e rest =>
    cases ht : t.entries with
    | nil =>
      rw [hs, ht, intercalate_styleEntryChars] at hchars
      exact absurd hchars (entries_ne_closing e rest)
    | cons f others =>
      rw [hs, ht, intercalate_styleEntryChars, intercalate_styleEntryChars] at hchars
      obtain ⟨hkey, hliteral, hrest⟩ := styleEntryChars_append_inj (stops_furtherChars rest)
        (stops_furtherChars others) hchars
      exact .cons hkey hliteral (sameLiterals_of_furtherChars hrest)

theorem styleObject_of_sameLiterals {s t : Style} (h : SameLiterals s.entries t.entries) :
    styleObject s = styleObject t := by
  have hpairs : s.entries.map (fun e => (e.1, e.2.literal)) =
      t.entries.map fun e => (e.1, e.2.literal) := by
    rw [← List.zip_map', ← List.zip_map', h.1, h.2]
  have hentries : s.entries.map styleEntryChars = t.entries.map styleEntryChars := by
    have hchars := congrArg (List.map fun p : String × String =>
      keyChars p.1.toList ++ ':' :: ' ' :: p.2.toList) hpairs
    simp only [List.map_map, Function.comp_def, Value.literal, String.toList_ofList] at hchars
    exact hchars
  rw [styleObject, styleObject, hentries]

/-- Two styles have the same text if and only if they have the same keys, in the same order, and the
same literal at each of them. No two keys are written alike, a bare one never as a quoted one, and the
literal of a text is that of no other value. -/
theorem styleObject_eq_iff :
    (∀ s t : Style, styleObject s = styleObject t ↔
      s.entries.keys = t.entries.keys ∧
        s.entries.map (·.2.literal) = t.entries.map (·.2.literal)) ∧
      Function.Injective objectKey ∧
      (∀ bare other : String, isIdentifier bare.toList = true →
        isIdentifier other.toList = false → objectKey bare ≠ objectKey other) ∧
      ∀ (v : Value) (s : String), v.literal = (Value.text s).literal → v = .text s := by
  refine ⟨fun s t => ?_, objectKey_injective, fun bare other hbare hother heq => ?_, fun v s h => ?_⟩
  · exact ⟨sameLiterals_of_styleObject, styleObject_of_sameLiterals⟩
  · rw [objectKey_injective heq, hother] at hbare
    cases hbare
  · have hchars : v.literalChars = quoteChars s.toList := by
      simpa only [Value.literal, String.toList_ofList, Value.literalChars] using
        congrArg String.toList h
    exact Value.eq_text_of_literalChars hchars

end AppExport.Markup
