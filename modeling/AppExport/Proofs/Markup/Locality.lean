/-
An edit of one component is local in the markup. A forest is a context, everything that stands around
one of its nodes, with that node in its place. The lines of the markup are those that the context has
ahead of the place, those of the node alone, as deep as it stands, and those that the context has
behind it; so another node in the same place changes the block in the middle and no other line.
-/
import AppExport.Proofs.Component.Place
import AppExport.Proofs.Markup.Outline

/-! ## Lines around a place -/

namespace AppExport.Markup

open Component (Context Forest Node Props Shell)

/-- The lines ahead of the place that a context leaves: nodes before it and the opening tags of the
nodes it is within. -/
def linesBefore (level : Nat) : Context → List (List Char)
  | .root before _ => Element.linesAll level (lowerAll before)
  | .within before parent inner _ =>
    Element.linesAll level (lowerAll before) ++
      (headOf parent.kind parent.props).opening level :: linesBefore (level + 1) inner

/-- The lines behind it: nodes after it and the closing tags of the nodes it is within. -/
def linesAfter (level : Nat) : Context → List (List Char)
  | .root _ after => Element.linesAll level (lowerAll after)
  | .within _ parent inner after =>
    linesAfter (level + 1) inner ++
      (headOf parent.kind parent.props).closing level :: Element.linesAll level (lowerAll after)

theorem linesAll_append (first second : List Node) (level : Nat) :
    Element.linesAll level (lowerAll (first ++ second)) =
      Element.linesAll level (lowerAll first) ++ Element.linesAll level (lowerAll second) := by
  induction first with
  | nil => rfl
  | cons node rest ih =>
    rw [List.cons_append, lowerAll, lowerAll, Element.linesAll, Element.linesAll, ih,
      List.append_assoc]

theorem linesAll_cons (node : Node) (rest : List Node) (level : Nat) :
    Element.linesAll level (lowerAll (node :: rest)) =
      Element.lines level (lowerNode node) ++ Element.linesAll level (lowerAll rest) := by
  rw [lowerAll, Element.linesAll]

theorem lines_around (shell : Shell) {children : List Node} (h : children ≠ []) (level : Nat) :
    Element.lines level (lowerNode (shell.around children)) =
      (headOf shell.kind shell.props).opening level ::
        Element.linesAll (level + 1) (lowerAll children) ++
        [(headOf shell.kind shell.props).closing level] := by
  cases children with
  | nil => exact absurd rfl h
  | cons child rest => rw [Shell.around, lowerNode, lowerAll, Element.lines]

/-- The lines of a forest are those of one node in the midst of those that its context has. -/
theorem linesAll_fill (c : Context) (node : Node) (level : Nat) :
    Element.linesAll level (lowerAll (c.fill node)) =
      linesBefore level c ++ Element.lines (level + c.depth) (lowerNode node) ++
        linesAfter level c := by
  induction c generalizing level with
  | root before after =>
    rw [Context.fill, linesAll_append, linesAll_cons, linesBefore, linesAfter, Context.depth,
      Nat.add_zero, List.append_assoc]
  | within before parent inner after ih =>
    have hdepth : level + 1 + inner.depth = level + (inner.depth + 1) := by omega
    rw [Context.fill, linesAll_append, linesAll_cons, lines_around parent (inner.fill_ne_nil node),
      ih, linesBefore, linesAfter, Context.depth, hdepth]
    simp only [List.append_assoc, List.cons_append, List.nil_append]

/-! ## The printed text -/

/-- Lines with a line break behind each. -/
def ended (lines : List (List Char)) : String := String.ofList (lines.flatMap (· ++ ['\n']))

/-- Lines with a line break before each. -/
def begun (lines : List (List Char)) : String := String.ofList (lines.flatMap ('\n' :: ·))

theorem intercalate_begun (line : List Char) (rest : List (List Char)) :
    ['\n'].intercalate (line :: rest) = line ++ rest.flatMap ('\n' :: ·) := by
  induction rest generalizing line with
  | nil => simp
  | cons next rest ih => simp [List.intercalate_cons_cons, ih]

theorem intercalate_ended (lines : List (List Char)) (line : List Char) (rest : List (List Char)) :
    ['\n'].intercalate (lines ++ line :: rest) =
      lines.flatMap (· ++ ['\n']) ++ ['\n'].intercalate (line :: rest) := by
  induction lines with
  | nil => rfl
  | cons first lines ih => cases lines <;> simp_all [List.intercalate_cons_cons]

theorem intercalate_block {own : List (List Char)} (h : own ≠ []) (before after : List (List Char)) :
    String.ofList (['\n'].intercalate (before ++ own ++ after)) =
      ended before ++ String.ofList (['\n'].intercalate own) ++ begun after := by
  obtain ⟨line, rest, rfl⟩ := List.exists_cons_of_ne_nil h
  rw [List.append_assoc, List.cons_append, intercalate_ended, intercalate_begun, intercalate_begun,
    List.flatMap_append, ended, begun, ← String.ofList_append, ← String.ofList_append]
  simp only [List.append_assoc]

/-- Where a path leads to a node of a forest, the rest of the forest has lines of its own ahead of the
node and behind it: whatever node is put there, the markup is those lines with the markup of that node
alone between them, at the level that the path reaches. -/
theorem print_put {forest : Forest} {root : Nat} {path : List Nat} {old : Node}
    (h : forest.nodeAt? root path = some old) (level : Nat) :
    ∃ c : Context, c.fill old = forest ∧ ∀ new : Node, forest.put new root path = c.fill new ∧
      (c.fill new).nodeAt? root path = some new ∧
      Element.linesAll level (lower (c.fill new)) =
        linesBefore level c ++ Element.linesAll (level + path.length) (lower [new]) ++
          linesAfter level c ∧
      print (lower (c.fill new)) level =
        ended (linesBefore level c) ++ print (lower [new]) (level + path.length) ++
          begun (linesAfter level c) := by
  obtain ⟨c, hdepth, hfill, hput⟩ := Forest.exists_context h
  refine ⟨c, hfill, fun new => ⟨hput new, hput new ▸ Forest.nodeAt?_put h new, ?_⟩⟩
  have hsingle : Element.linesAll (level + path.length) (lower [new]) =
      Element.lines (level + c.depth) (lowerNode new) := by
    rw [lower, linesAll_cons, lowerAll, Element.linesAll, List.append_nil, hdepth]
  have hne : Element.linesAll (level + path.length) (lower [new]) ≠ [] :=
    linesAll_ne_nil (List.cons_ne_nil new []) (level + path.length)
  have hlines : Element.linesAll level (lower (c.fill new)) =
      linesBefore level c ++ Element.linesAll (level + path.length) (lower [new]) ++
        linesAfter level c := by
    rw [hsingle]
    exact linesAll_fill c new level
  exact ⟨hlines, by rw [print, print, hlines, intercalate_block hne]⟩

/-- A text in the middle of a row, in the place of a button. -/
theorem print_put_middle :
    let button : Node := ⟨"b", .button, { Props.empty with text := some "Go" }, [], none, none⟩
    let row : Node := ⟨"r", .container, .empty, [.new "a" .image, button, .new "c" .icon], none, none⟩
    Forest.nodeAt? 1 [1] [.new "h" .header, row] = some button ∧
      ∃ c : Context, c.fill button = [.new "h" .header, row] ∧ ∀ new : Node,
        print (lower (c.fill new)) 0 =
          ended (linesBefore 0 c) ++ print (lower [new]) 1 ++ begun (linesAfter 0 c) := by
  intro button row
  have hplace : Forest.nodeAt? 1 [1] [.new "h" .header, row] = some button := rfl
  obtain ⟨c, hfill, hprint⟩ := print_put hplace 0
  exact ⟨hplace, c, hfill, fun new => (hprint new).2.2.2⟩

end AppExport.Markup
