/-
Pieces of joined lines are those lines. The pieces of a text are what the library calls splitting
on a separator, so its facts on splitting and joining carry over.
-/
import AppExport.Text.Pieces

namespace AppExport.Text

theorem pieces_eq_splitOn (separator : Char) (cs : List Char) :
    pieces separator cs = cs.splitOn separator := by
  induction cs with
  | nil => simp [pieces, List.splitOn_nil]
  | cons c rest ih =>
    rw [List.splitOn_cons_eq_if_modifyHead, pieces, ih]
    by_cases hc : c = separator
    · simp [hc]
    · have hne := List.splitOn_ne_nil separator rest
      simp only [hc, if_false, beq_iff_eq]
      cases h : rest.splitOn separator with
      | nil => exact absurd h hne
      | cons piece others => rfl

theorem intercalate_pieces (separator : Char) (cs : List Char) :
    [separator].intercalate (pieces separator cs) = cs := by
  rw [pieces_eq_splitOn, List.intercalate_splitOn]

theorem pieces_append_cons (separator : Char) (first rest : List Char) :
    pieces separator (first ++ separator :: rest) =
      pieces separator first ++ pieces separator rest := by
  simp only [pieces_eq_splitOn, List.splitOn_append_cons_self]

theorem pieces_intercalate {separator : Char} {lines : List (List Char)} (hne : lines ≠ [])
    (h : ∀ line ∈ lines, separator ∉ line) :
    pieces separator ([separator].intercalate lines) = lines := by
  rw [pieces_eq_splitOn]
  exact List.splitOn_intercalate separator h hne

theorem pieces_of_not_mem {separator : Char} {cs : List Char} (h : separator ∉ cs) :
    pieces separator cs = [cs] := by
  rw [pieces_eq_splitOn, List.splitOn_eq_singleton h]

theorem pieces_append {separator : Char} {line : List Char} (h : separator ∉ line)
    (rest : List Char) : pieces separator (line ++ separator :: rest) = line :: pieces separator rest := by
  rw [pieces_eq_splitOn, pieces_eq_splitOn]
  exact List.splitOn_append_cons_self_of_not_mem h rest

theorem pieces_cons_of_ne {separator c : Char} (hc : c ≠ separator) (rest : List Char) :
    pieces separator (c :: rest) = (pieces separator rest).modifyHead (c :: ·) := by
  simp [pieces_eq_splitOn, List.splitOn_cons_eq_if_modifyHead, hc]

/-- Text without a separator goes in front of the first piece. -/
theorem pieces_append_left {separator : Char} {front : List Char} (h : separator ∉ front)
    (cs : List Char) :
    pieces separator (front ++ cs) = (pieces separator cs).modifyHead (front ++ ·) := by
  induction front with
  | nil => exact (congrFun List.modifyHead_id (pieces separator cs)).symm
  | cons c front ih =>
    have hc : c ≠ separator := fun e => h (e ▸ List.mem_cons_self)
    rw [List.cons_append, pieces_cons_of_ne hc, ih fun hmem => h (List.mem_cons_of_mem c hmem),
      List.modifyHead_modifyHead]
    rfl

/-- A piece holds characters of the text, and no separator. -/
theorem mem_of_mem_pieces {separator c : Char} {cs piece : List Char}
    (hpiece : piece ∈ pieces separator cs) (hc : c ∈ piece) : c ∈ cs ∧ c ≠ separator := by
  induction cs generalizing piece with
  | nil =>
    rw [pieces, List.mem_singleton] at hpiece
    rw [hpiece] at hc
    cases hc
  | cons x rest ih =>
    have hrest {piece : List Char} (hpiece : piece ∈ pieces separator rest) (hc : c ∈ piece) :
        c ∈ x :: rest ∧ c ≠ separator := (ih hpiece hc).imp_left (List.mem_cons_of_mem x)
    by_cases hx : x = separator
    · rw [pieces, if_pos hx] at hpiece
      rcases List.mem_cons.1 hpiece with rfl | hpiece
      · cases hc
      · exact hrest hpiece hc
    · rw [pieces_cons_of_ne hx] at hpiece
      cases hpieces : pieces separator rest with
      | nil => simp [hpieces] at hpiece
      | cons first others =>
        rw [hpieces] at hpiece hrest
        rcases List.mem_cons.1 hpiece with rfl | hpiece
        · rcases List.mem_cons.1 hc with rfl | hc
          · exact ⟨List.mem_cons_self, hx⟩
          · exact hrest List.mem_cons_self hc
        · exact hrest (List.mem_cons_of_mem first hpiece) hc

theorem separator_not_mem_of_mem_pieces {separator : Char} {cs piece : List Char}
    (h : piece ∈ pieces separator cs) : separator ∉ piece :=
  fun hmem => (mem_of_mem_pieces h hmem).2 rfl

/-- The pieces of joined texts are the pieces of each of them. -/
theorem pieces_intercalate_flatMap {separator : Char} {texts : List (List Char)} (hne : texts ≠ []) :
    pieces separator ([separator].intercalate texts) = texts.flatMap (pieces separator) := by
  induction texts with
  | nil => exact absurd rfl hne
  | cons text rest ih =>
    cases rest with
    | nil => rw [List.intercalate_singleton, List.flatMap_singleton]
    | cons other others =>
      have hrest := ih (List.cons_ne_nil other others)
      rw [List.intercalate_cons_cons, List.append_assoc, List.singleton_append, pieces_eq_splitOn,
        List.splitOn_append_cons_self, ← pieces_eq_splitOn, ← pieces_eq_splitOn, hrest,
        ← List.flatMap_cons]

/-- Lines ahead of other text are its first pieces. -/
theorem pieces_intercalate_append {separator : Char} {lines : List (List Char)}
    (line : List Char) (others : List (List Char)) (h : ∀ line ∈ lines, separator ∉ line) :
    pieces separator ([separator].intercalate (lines ++ line :: others)) =
      lines ++ pieces separator ([separator].intercalate (line :: others)) := by
  induction lines with
  | nil => rfl
  | cons first rest ih =>
    have hrest := ih fun line hline => h line (List.mem_cons_of_mem _ hline)
    rw [List.cons_append, List.cons_append, ← hrest]
    cases rest <;>
      simp only [List.nil_append, List.cons_append, List.intercalate_cons_cons, List.append_assoc] <;>
      exact pieces_append (h first List.mem_cons_self) _

end AppExport.Text
