/-
Markup at a deeper level is the same markup moved right as a text. Every printed line ends in `>`, so
none is blank and none loses its end when the text is read line by line again. Only a tag can bring a
line break along, and only if it is an unknown name: the two ways of indenting agree exactly if no
unknown name has a line break.
-/
import AppExport.Proofs.Markup.Outline
import AppExport.Proofs.Text.Lines

namespace AppExport.Markup

open Component (Forest)
open Text (EndsVisible)

/-! ## Lines at a deeper level -/

theorem margin_add (level more : Nat) : margin (level + more) = margin more ++ margin level := by
  rw [margin, margin, margin, Nat.add_comm, List.replicate_add, List.flatten_append]

namespace Head

theorem opening_add (h : Head) (level more : Nat) :
    h.opening (level + more) = margin more ++ h.opening level := by
  rw [opening, opening, margin_add, List.append_assoc, List.append_assoc, List.append_assoc]

theorem closing_add (h : Head) (level more : Nat) :
    h.closing (level + more) = margin more ++ h.closing level := by
  simp [closing, margin_add]

theorem selfClosing_add (h : Head) (level more : Nat) :
    h.selfClosing (level + more) = margin more ++ h.selfClosing level := by
  simp [selfClosing, margin_add]

theorem around_add (h : Head) (level more : Nat) (content : String) :
    h.around (level + more) content = margin more ++ h.around level content := by
  simp [around, opening_add]

end Head

namespace Element

mutual
theorem lines_add : ∀ (e : Element) (level more : Nat),
    lines (level + more) e = (lines level e).map (margin more ++ ·)
  | empty h, level, more => by
    rw [lines, lines, h.selfClosing_add, List.map_singleton]
  | text h content, level, more => by
    rw [lines, lines, h.around_add, List.map_singleton]
  | group h [], level, more => by
    rw [lines, lines, h.selfClosing_add, List.map_singleton]
  | group h (child :: rest), level, more => by
    have hinner := linesAll_add (child :: rest) (level + 1) more
    rw [lines, lines, Nat.add_right_comm, hinner, h.opening_add, h.closing_add, List.map_append,
      List.map_cons, List.map_singleton]

theorem linesAll_add : ∀ (elements : List Element) (level more : Nat),
    linesAll (level + more) elements = (linesAll level elements).map (margin more ++ ·)
  | [], _, _ => rfl
  | e :: rest, level, more => by
    rw [linesAll, linesAll, lines_add e, linesAll_add rest, List.map_append]
end

end Element

/-! ## Ends of lines -/

namespace Head

theorem endsVisible_opening (h : Head) (level : Nat) : EndsVisible (h.opening level) :=
  ⟨margin level ++ '<' :: h.chars, '>', rfl, by decide⟩

theorem endsVisible_closing (h : Head) (level : Nat) : EndsVisible (h.closing level) :=
  ⟨margin level ++ '<' :: '/' :: h.tag.toList, '>', rfl, by decide⟩

theorem endsVisible_selfClosing (h : Head) (level : Nat) : EndsVisible (h.selfClosing level) :=
  have hend : EndsVisible [' ', '/', '>'] := ⟨[' ', '/'], '>', rfl, by decide⟩
  hend.append_left (margin level ++ '<' :: h.chars)

theorem endsVisible_around (h : Head) (level : Nat) (content : String) :
    EndsVisible (h.around level content) :=
  ((h.endsVisible_closing 0).append_left ['\x7d']).append_left _

end Head

namespace Element

mutual
theorem endsVisible_lines : ∀ (e : Element) (level : Nat), ∀ line ∈ lines level e, EndsVisible line
  | empty h, level => by
    simpa [lines] using h.endsVisible_selfClosing level
  | text h content, level => by
    simpa [lines] using h.endsVisible_around level content
  | group h [], level => by
    simpa [lines] using h.endsVisible_selfClosing level
  | group h (child :: rest), level => by
    have hinner := endsVisible_linesAll (child :: rest) (level + 1)
    intro line hline
    simp only [lines, List.cons_append, List.mem_cons, List.mem_append, List.not_mem_nil,
      or_false] at hline
    rcases hline with rfl | hline | rfl
    · exact h.endsVisible_opening level
    · exact hinner line hline
    · exact h.endsVisible_closing level

theorem endsVisible_linesAll : ∀ (elements : List Element) (level : Nat),
    ∀ line ∈ linesAll level elements, EndsVisible line
  | [], _ => by simp [linesAll]
  | e :: rest, level => by
    rw [linesAll, List.forall_mem_append]
    exact ⟨endsVisible_lines e level, endsVisible_linesAll rest level⟩
end

end Element

/-! ## Printed elements -/

variable {elements : List Element} {level more : Nat}

theorem indent_print (h : ∀ line ∈ Element.linesAll level elements, '\n' ∉ line) :
    Text.indent (2 * more) (print elements level) = print elements (level + more) := by
  rw [print, print, Text.indent, String.toList_ofList, Element.linesAll_add, margin_eq,
    Text.indentChars_intercalate (Element.endsVisible_linesAll elements level) h]

theorem newline_not_mem_of_indent_print (hmore : 0 < more)
    (h : Text.indent (2 * more) (print elements level) = print elements (level + more)) :
    ∀ line ∈ Element.linesAll level elements, '\n' ∉ line := by
  have hwidth : 0 < 2 * more := by omega
  rw [print, print, Text.indent, String.toList_ofList, Element.linesAll_add, margin_eq] at h
  exact Text.newline_not_mem_of_indentChars_eq (Element.endsVisible_linesAll elements level) hwidth
    (String.ofList_injective h)

/-! ## Printed forests -/

theorem newline_not_mem_linesAll_iff (forest : Forest) (level : Nat) :
    (∀ line ∈ Element.linesAll level (lower forest), '\n' ∉ line) ↔
      ∀ name ∈ forest.unknownNames, '\n' ∉ name.toList := by
  refine ⟨fun hlines name hname => ?_, fun hnames => newline_not_mem_linesAll hnames level⟩
  obtain ⟨n, hn, hunknown⟩ := List.mem_filterMap.1 hname
  obtain ⟨own, line, hline, next, rest, rfl, -⟩ :=
    (framed_lowerAll forest level).exists_begins n hn
  rw [tagOf_of_unknownName hunknown] at hline
  intro hmem
  exact hlines _ hline (by simp [hmem])

/-- To print a forest at a deeper level, or to print it and move the text right by two spaces for each
level, comes to the same exactly if no unknown name in the forest has a line break. -/
theorem print_add_eq_indent_iff (forest : Forest) (level : Nat) :
    (∀ more, print (lower forest) (level + more) =
        Text.indent (2 * more) (print (lower forest) level)) ↔
      ∀ name ∈ forest.unknownNames, '\n' ∉ name.toList := by
  rw [← newline_not_mem_linesAll_iff forest level]
  exact ⟨fun h => newline_not_mem_of_indent_print Nat.one_pos (h 1).symm,
    fun h _ => (indent_print h).symm⟩

/-- A name with a line break: printed deeper its second half stays where it is, and moved right it
does not. -/
example :
    let forest : Forest := [.new "m" (.other "Map\nView")]
    print (lower forest) 1 = "  <Map\nView />" ∧
      Text.indent 2 (print (lower forest) 0) = "  <Map\n  View />" := by decide

end AppExport.Markup
