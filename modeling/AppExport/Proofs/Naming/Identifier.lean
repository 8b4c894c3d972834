/-
Which names are package identifiers: two segments or more with a dot between each two, where a segment
is a letter with letters, digits and underscores behind it. All of it is ASCII. Nothing stands before
the first segment or behind the last one, so no identifier has a blank, and none begins or ends with a
dot or has two dots in a row.
-/
import AppExport.Naming
import AppExport.Proofs.Text.Pieces

namespace AppExport.Naming

open Decimal (isDigit)
open Text (isBlank pieces)

/-! ## Segments -/

/-- What may stand behind the first letter of a segment. -/
def IsWordChar (c : Char) : Prop := isLetter c = true ∨ isDigit c = true ∨ c = '_'

/-- The texts between the dots of an identifier. -/
inductive Segment : List Char → Prop
  | mk {c : Char} {rest : List Char} (hc : isLetter c = true) (hrest : ∀ d ∈ rest, IsWordChar d) :
    Segment (c :: rest)

theorem isSegment_iff {s : List Char} : isSegment s = true ↔ Segment s := by
  cases s with
  | nil => exact ⟨nofun, nofun⟩
  | cons c rest =>
    have hword : ∀ d : Char, (isLetter d || isDigit d || d == '_') = true ↔ IsWordChar d := by
      intro d
      simp [IsWordChar, or_assoc]
    simp only [isSegment, Bool.and_eq_true, List.all_eq_true, hword]
    exact ⟨fun ⟨hc, hrest⟩ => .mk hc hrest, fun ⟨hc, hrest⟩ => ⟨hc, hrest⟩⟩

theorem Segment.isWordChar {s : List Char} (h : Segment s) {c : Char} (hc : c ∈ s) :
    IsWordChar c := by
  obtain ⟨hfirst, hrest⟩ := h
  rcases List.mem_cons.1 hc with rfl | hc
  · exact .inl hfirst
  · exact hrest c hc

theorem not_isWordChar_dot : ¬IsWordChar '.' := by
  rintro (h | h | h) <;> exact absurd h (by decide)

theorem Segment.dot_not_mem {s : List Char} (h : Segment s) : '.' ∉ s :=
  fun hmem => not_isWordChar_dot (h.isWordChar hmem)

/-- The codes of the characters that identifiers are made of. -/
theorem toNat_of_isWordChar {c : Char} (h : IsWordChar c) :
    (97 ≤ c.toNat ∧ c.toNat ≤ 122) ∨ (65 ≤ c.toNat ∧ c.toNat ≤ 90) ∨
      (48 ≤ c.toNat ∧ c.toNat ≤ 57) ∨ c.toNat = 95 := by
  simp only [IsWordChar, isLetter, isDigit, Bool.or_eq_true, Bool.and_eq_true, decide_eq_true_eq,
    Char.le_def, UInt32.le_iff_toNat_le] at h
  rcases h with (h | h) | h | rfl
  · exact .inl h
  · exact .inr (.inl h)
  · exact .inr (.inr (.inl h))
  · exact .inr (.inr (.inr rfl))

theorem ascii_of_isWordChar {c : Char} (h : IsWordChar c ∨ c = '.') :
    c.toNat < 0x80 ∧ isBlank c = false := by
  rcases h with h | rfl
  · have hcode := toNat_of_isWordChar h
    refine ⟨by omega, ?_⟩
    simp only [isBlank, Bool.or_eq_false_iff, Bool.and_eq_false_iff, decide_eq_false_iff_not,
      beq_eq_false_iff_ne]
    omega
  · decide

/-! ## Segments between dots -/

theorem mem_intercalate_segments {segments : List (List Char)} (h : ∀ s ∈ segments, Segment s)
    {c : Char} (hc : c ∈ ['.'].intercalate segments) : IsWordChar c ∨ c = '.' := by
  induction segments with
  | nil => cases hc
  | cons s rest ih =>
    obtain ⟨hs, hrest⟩ := List.forall_mem_cons.1 h
    cases rest with
    | nil =>
      rw [List.intercalate_singleton] at hc
      exact .inl (hs.isWordChar hc)
    | cons next others =>
      rw [List.intercalate_cons_cons, List.append_assoc, List.mem_append, List.singleton_append,
        List.mem_cons] at hc
      rcases hc with hc | hc | hc
      · exact .inl (hs.isWordChar hc)
      · exact .inr hc
      · exact ih hrest hc

theorem isPackageIdentifier_eq_true {name : String} :
    isPackageIdentifier name = true ↔
      2 ≤ (pieces '.' name.toList).length ∧ ∀ s ∈ pieces '.' name.toList, Segment s := by
  simp only [isPackageIdentifier, Bool.and_eq_true, decide_eq_true_eq, List.all_eq_true,
    isSegment_iff]

/-- A dot with no segment on one side of it leaves an empty piece. -/
theorem nil_mem_pieces_of_dots {cs : List Char}
    (h : cs.head? = some '.' ∨ cs.getLast? = some '.' ∨ ['.', '.'] <:+: cs) : [] ∈ pieces '.' cs := by
  have hempty : pieces '.' [] = [[]] := rfl
  rcases h with h | h | h
  · obtain ⟨rest, rfl⟩ := List.head?_eq_some_iff.1 h
    have hpieces := Text.pieces_append_cons '.' [] rest
    rw [List.nil_append, hempty] at hpieces
    simp [hpieces]
  · obtain ⟨first, rfl⟩ := List.getLast?_eq_some_iff.1 h
    simp [Text.pieces_append_cons, hempty]
  · obtain ⟨first, rest, rfl⟩ := h
    have hpieces := Text.pieces_append_cons '.' [] rest
    rw [List.nil_append, hempty] at hpieces
    rw [List.append_assoc, List.cons_append, Text.pieces_append_cons]
    simp [hpieces]

/-- A name is a package identifier if and only if it is two segments or more with a dot between each
two. -/
theorem isPackageIdentifier_iff (name : String) :
    (isPackageIdentifier name = true ↔ ∃ segments : List (List Char), 2 ≤ segments.length ∧
        (∀ s ∈ segments, Segment s) ∧ name.toList = ['.'].intercalate segments) ∧
      (isPackageIdentifier name = true →
        (∀ c ∈ name.toList, c.toNat < 0x80 ∧ isBlank c = false) ∧
        name.toList.head? ≠ some '.' ∧ name.toList.getLast? ≠ some '.' ∧
        ¬['.', '.'] <:+: name.toList) := by
  refine ⟨⟨fun h => ?_, fun ⟨segments, hlength, hsegments, hname⟩ => ?_⟩, fun h => ?_⟩
  · obtain ⟨hlength, hsegments⟩ := isPackageIdentifier_eq_true.1 h
    exact ⟨_, hlength, hsegments, (Text.intercalate_pieces '.' name.toList).symm⟩
  · have hne : segments ≠ [] := by
      rintro rfl
      simp at hlength
    have hpieces : pieces '.' name.toList = segments := by
      rw [hname]
      exact Text.pieces_intercalate hne fun s hs => (hsegments s hs).dot_not_mem
    rw [isPackageIdentifier_eq_true, hpieces]
    exact ⟨hlength, hsegments⟩
  · obtain ⟨-, hsegments⟩ := isPackageIdentifier_eq_true.1 h
    have hdots : [] ∉ pieces '.' name.toList := fun hmem => nomatch hsegments [] hmem
    refine ⟨fun c hc => ?_, fun hfirst => ?_, fun hlast => ?_, fun hdoubled => ?_⟩
    · rw [← Text.intercalate_pieces '.' name.toList] at hc
      exact ascii_of_isWordChar (mem_intercalate_segments hsegments hc)
    · exact hdots (nil_mem_pieces_of_dots (.inl hfirst))
    · exact hdots (nil_mem_pieces_of_dots (.inr (.inl hlast)))
    · exact hdots (nil_mem_pieces_of_dots (.inr (.inr hdoubled)))

theorem isPackageIdentifier_iff_mycompany : isPackageIdentifier "com.mycompany.my_app2" = true ∧
    isPackageIdentifier "com.mycompany.my_app2\n" = false ∧
    ¬['.', '.'] <:+: "com.mycompany.my_app2".toList := by
  have hidentifier : isPackageIdentifier "com.mycompany.my_app2" = true := by decide
  refine ⟨hidentifier, by decide, ?_⟩
  exact ((isPackageIdentifier_iff "com.mycompany.my_app2").2 hidentifier).2.2.2

end AppExport.Naming
