/-
Lines that end in a visible character. Such a line is not blank and has no carriage return to lose,
so joined lines of this kind are read back as they are, and moved right without a loss. Each of them
is then moved as one line exactly if it has no line break of its own.
-/
import AppExport.Proofs.Text.Pieces
import AppExport.Text.Lines

namespace AppExport.Text

/-- Text whose last character is not blank. -/
def EndsVisible (cs : List Char) : Prop := ∃ front c, cs = front ++ [c] ∧ isBlank c = false

namespace EndsVisible

variable {cs : List Char}

theorem append_left (front : List Char) (h : EndsVisible cs) : EndsVisible (front ++ cs) := by
  obtain ⟨inner, c, rfl, hc⟩ := h
  exact ⟨front ++ inner, c, (List.append_assoc front inner [c]).symm, hc⟩

theorem ne_nil (h : EndsVisible cs) : cs ≠ [] := by
  obtain ⟨front, c, rfl, -⟩ := h
  exact List.append_ne_nil_of_right_ne_nil front (List.cons_ne_nil c [])

theorem dropReturn_eq (h : EndsVisible cs) : dropReturn cs = cs := by
  obtain ⟨front, c, rfl, hc⟩ := h
  have hne : c ≠ '\r' := by
    rintro rfl
    exact absurd hc (by decide)
  simp [dropReturn, hne]

theorem indentLine_eq (h : EndsVisible cs) (width : Nat) :
    indentLine width cs = List.replicate width ' ' ++ cs := by
  obtain ⟨front, c, rfl, hc⟩ := h
  simp [indentLine, hc]

/-- A visible end is the end of the last piece. -/
theorem lastPiece (h : EndsVisible cs) :
    ∃ others last, pieces '\n' cs = others ++ [last] ∧ EndsVisible last := by
  obtain ⟨front, c, rfl, hc⟩ := h
  have hbreak : c ≠ '\n' := by
    rintro rfl
    exact absurd hc (by decide)
  induction front with
  | nil => exact ⟨[], [c], by simp [pieces, hbreak], [], c, rfl, hc⟩
  | cons d front ih =>
    obtain ⟨others, last, hpieces, hlast⟩ := ih
    rw [List.cons_append, pieces, hpieces]
    by_cases hd : d = '\n'
    · exact ⟨[] :: others, last, by simp [hd], hlast⟩
    · cases others with
      | nil => exact ⟨[], d :: last, by simp [hd], hlast.append_left [d]⟩
      | cons piece others => exact ⟨(d :: piece) :: others, last, by simp [hd], hlast⟩

end EndsVisible

/-! ## Lines of a text -/

theorem linesOfPieces_cons {rest : List (List Char)} (h : rest ≠ []) (piece : List Char) :
    linesOfPieces (piece :: rest) = dropReturn piece :: linesOfPieces rest := by
  cases rest with
  | nil => exact absurd rfl h
  | cons next rest => rfl

theorem linesOfPieces_append {last : List Char} (h : last ≠ []) (others : List (List Char)) :
    linesOfPieces (others ++ [last]) = others.map dropReturn ++ [last] := by
  induction others with
  | nil => simp [linesOfPieces, h]
  | cons piece others ih =>
    have hrest : others ++ [last] ≠ [] :=
      List.append_ne_nil_of_right_ne_nil others (List.cons_ne_nil last [])
    rw [List.cons_append, linesOfPieces_cons hrest, ih, List.map_cons, List.cons_append]

theorem EndsVisible.lines_eq {cs : List Char} (h : EndsVisible cs) :
    lines cs = (pieces '\n' cs).map dropReturn := by
  obtain ⟨others, last, hpieces, hlast⟩ := h.lastPiece
  rw [lines, hpieces, linesOfPieces_append hlast.ne_nil, List.map_append, List.map_singleton,
    hlast.dropReturn_eq]

/-! ## Joined lines -/

variable {joined : List (List Char)}

theorem endsVisible_intercalate (hne : joined ≠ []) (h : ∀ line ∈ joined, EndsVisible line) :
    EndsVisible (['\n'].intercalate joined) := by
  induction joined with
  | nil => exact absurd rfl hne
  | cons line rest ih =>
    cases rest with
    | nil => simpa [List.intercalate_singleton] using h line List.mem_cons_self
    | cons next rest =>
      rw [List.intercalate_cons_cons]
      exact (ih (List.cons_ne_nil next rest) fun l hl => h l (List.mem_cons_of_mem line hl)).append_left _

/-- Lines that end in visible characters, without line breaks of their own, move right as they are. -/
theorem indentChars_intercalate (hvisible : ∀ line ∈ joined, EndsVisible line)
    (hbreak : ∀ line ∈ joined, '\n' ∉ line) (width : Nat) :
    indentChars width (['\n'].intercalate joined) =
      ['\n'].intercalate (joined.map (List.replicate width ' ' ++ ·)) := by
  by_cases hne : joined = []
  · subst hne
    rfl
  · have hlines : lines (['\n'].intercalate joined) = joined := by
      rw [(endsVisible_intercalate hne hvisible).lines_eq, pieces_intercalate hne hbreak]
      exact (List.map_congr_left fun line hline => (hvisible line hline).dropReturn_eq).trans
        (List.map_id joined)
    have hmoved : joined.map (indentLine width) = joined.map (List.replicate width ' ' ++ ·) :=
      List.map_congr_left fun line hline => (hvisible line hline).indentLine_eq width
    rw [indentChars, hlines, hmoved]

/-! ## Line breaks within a line -/

/-- What moving a text does to each of its pieces. -/
def indentPiece (width : Nat) (piece : List Char) : List Char := indentLine width (dropReturn piece)

theorem newline_not_mem_spaces (width : Nat) : '\n' ∉ List.replicate width ' ' := fun h =>
  absurd (List.eq_of_mem_replicate h) (by decide)

theorem newline_not_mem_indentPiece {piece : List Char} (h : '\n' ∉ piece) (width : Nat) :
    '\n' ∉ indentPiece width piece := by
  have hdrop : '\n' ∉ dropReturn piece := by
    unfold dropReturn
    split
    · exact fun hmem => h (List.dropLast_subset piece hmem)
    · exact h
  unfold indentPiece indentLine
  split
  · exact List.not_mem_nil
  · exact fun hmem => (List.mem_append.1 hmem).elim (newline_not_mem_spaces width) hdrop

theorem EndsVisible.pieces_indentChars {cs : List Char} (h : EndsVisible cs) (width : Nat) :
    pieces '\n' (indentChars width cs) = (pieces '\n' cs).map (indentPiece width) := by
  have hne : (pieces '\n' cs).map (indentPiece width) ≠ [] := by
    obtain ⟨others, last, hpieces, -⟩ := h.lastPiece
    simp [hpieces]
  have hbreak : ∀ piece ∈ (pieces '\n' cs).map (indentPiece width), '\n' ∉ piece :=
    List.forall_mem_map.2 fun piece hpiece =>
      newline_not_mem_indentPiece (separator_not_mem_of_mem_pieces hpiece) width
  rw [indentChars, h.lines_eq, List.map_map]
  exact pieces_intercalate hne hbreak

/-- Spaces go in front of each piece that ends in a visible character, so a line that gets them in front
of its first piece only has no other. -/
theorem EndsVisible.newline_not_mem {line : List Char} (h : EndsVisible line) {width : Nat}
    (hwidth : 0 < width)
    (hmoved : (pieces '\n' line).map (indentPiece width) =
      (pieces '\n' line).modifyHead (List.replicate width ' ' ++ ·)) : '\n' ∉ line := by
  obtain ⟨others, last, hpieces, hlast⟩ := h.lastPiece
  cases others with
  | nil =>
    have hline : line = last := by
      rw [← intercalate_pieces '\n' line, hpieces, List.nil_append, List.intercalate_singleton]
    have hmem : last ∈ pieces '\n' line := by simp [hpieces]
    exact hline ▸ separator_not_mem_of_mem_pieces hmem
  | cons first others =>
    rw [hpieces] at hmoved
    have htails : others.map (indentPiece width) ++ [indentPiece width last] = others ++ [last] := by
      simpa using congrArg List.tail hmoved
    have hlasts : indentPiece width last = last := by
      simpa using (List.append_inj' htails rfl).2
    rw [indentPiece, hlast.dropReturn_eq, hlast.indentLine_eq] at hlasts
    have hlength := congrArg List.length hlasts
    rw [List.length_append, List.length_replicate] at hlength
    omega

/-- If joined lines that end in visible characters move right as they are, none has a line break of
its own. -/
theorem newline_not_mem_of_indentChars_eq (hvisible : ∀ line ∈ joined, EndsVisible line)
    {width : Nat} (hwidth : 0 < width)
    (hmoved : indentChars width (['\n'].intercalate joined) =
      ['\n'].intercalate (joined.map (List.replicate width ' ' ++ ·))) :
    ∀ line ∈ joined, '\n' ∉ line := by
  by_cases hne : joined = []
  · simp [hne]
  · have hpieces := congrArg (pieces '\n') hmoved
    simp only [(endsVisible_intercalate hne hvisible).pieces_indentChars,
      pieces_intercalate_flatMap hne, pieces_intercalate_flatMap (mt List.map_eq_nil_iff.1 hne),
      List.map_flatMap, List.flatMap_map, pieces_append_left (newline_not_mem_spaces width)] at hpieces
    -- A line has as many pieces on either side, so the sides agree line by line.
    have heach : joined.map (fun line => (pieces '\n' line).map (indentPiece width)) =
        joined.map (fun line => (pieces '\n' line).modifyHead (List.replicate width ' ' ++ ·)) :=
      List.eq_iff_flatten_eq.2 ⟨hpieces, by simp [Function.comp_def]⟩
    intro line hline
    exact (hvisible line hline).newline_not_mem hwidth (List.map_inj_left.1 heach line hline)

end AppExport.Text
