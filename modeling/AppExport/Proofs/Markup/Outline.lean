/-
The lines of the generated markup trace the component tree. Every node begins one line, in pre-order
and indented by its depth; a node with children has one line more, which closes it behind the last
line of its last child, and any other node closes on the line it begins. Texts, keys and values
never add a line of their own.
-/
import AppExport.Proofs.Markup.Attribute
import AppExport.Proofs.Markup.Tag
import AppExport.Proofs.Text.Lines
import Mathlib.Data.List.Forall2

namespace AppExport.Component.Node

mutual
/-- The nodes in pre-order, each with its depth. -/
def walkAt (depth : Nat) : Node → List (Nat × Node)
  | ⟨id, kind, props, children, position, size⟩ =>
    (depth, ⟨id, kind, props, children, position, size⟩) :: walkAllAt (depth + 1) children

def walkAllAt (depth : Nat) : List Node → List (Nat × Node)
  | [] => []
  | node :: rest => node.walkAt depth ++ walkAllAt depth rest
end

mutual
theorem map_snd_walkAt : ∀ (node : Node) (depth : Nat), (node.walkAt depth).map Prod.snd = node.walk
  | ⟨_, _, _, children, _, _⟩, depth => by
    simp only [walkAt, walk, List.map_cons, map_snd_walkAllAt children (depth + 1)]

theorem map_snd_walkAllAt :
    ∀ (nodes : List Node) (depth : Nat), (walkAllAt depth nodes).map Prod.snd = walkAll nodes
  | [], _ => rfl
  | node :: rest, depth => by
    simp only [walkAllAt, walkAll, List.map_append, map_snd_walkAt node depth,
      map_snd_walkAllAt rest depth]
end

theorem mem_walk_self (node : Node) : node ∈ node.walk := by
  obtain ⟨_, _, _, _, _, _⟩ := node
  simp [walk]

end AppExport.Component.Node

namespace AppExport.Markup

open Component (Forest Kind Node Props)
open Text (Shown quoteChars pieces)

/-! ## The outline of a tree -/

/-- A line that a node begins: an indentation of `2 * level`, `<` and the node's tag. -/
def Begins (level : Nat) (kind : Kind) (line : List Char) : Prop :=
  ∃ next rest, line = List.replicate (2 * level) ' ' ++ '<' :: (tagOf kind).toList ++ next :: rest ∧
    (next = ' ' ∨ next = '>')

def closingTag (kind : Kind) : List Char := '<' :: '/' :: (tagOf kind).toList ++ ['>']

/-- A line on which a node closes. -/
def Finishes (kind : Kind) (line : List Char) : Prop :=
  [' ', '/', '>'] <:+ line ∨ closingTag kind <:+ line

mutual
/-- Lines that open and close nodes as the tree nests them. -/
def Framed (level : Nat) : Node → List (List Char) → Prop
  | ⟨_, kind, _, [], _, _⟩, lines => ∃ line, lines = [line] ∧ Begins level kind line ∧ Finishes kind line
  | ⟨_, kind, _, child :: rest, _, _⟩, lines => ∃ first inner,
    lines = first :: inner ++ [List.replicate (2 * level) ' ' ++ closingTag kind] ∧
      Begins level kind first ∧ FramedAll (level + 1) (child :: rest) inner

def FramedAll (level : Nat) : List Node → List (List Char) → Prop
  | [], lines => lines = []
  | node :: rest, lines => ∃ own others,
    lines = own ++ others ∧ Framed level node own ∧ FramedAll level rest others
end

/-- Whether a line holds a closing tag only. -/
def isClosing (line : List Char) : Bool := (line.dropWhile (· == ' ')).take 2 == ['<', '/']

theorem dropWhile_replicate_blank (n : Nat) (c : Char) (rest : List Char) (hc : c ≠ ' ') :
    (List.replicate n ' ' ++ c :: rest).dropWhile (· == ' ') = c :: rest := by
  induction n with
  | zero => simp [hc]
  | succ n ih => simpa [List.replicate_succ] using ih

theorem isClosing_closingTag (n : Nat) (kind : Kind) :
    isClosing (List.replicate n ' ' ++ closingTag kind) = true := by
  rw [isClosing, closingTag, List.cons_append, dropWhile_replicate_blank n '<' _ (by decide)]
  rfl

theorem Begins.isClosing_eq_false {level : Nat} {kind : Kind} {line : List Char}
    (h : Begins level kind line) (htag : (tagOf kind).toList.head? ≠ some '/') :
    isClosing line = false := by
  obtain ⟨next, rest, rfl, hnext⟩ := h
  rw [isClosing, List.append_assoc, List.cons_append,
    dropWhile_replicate_blank _ '<' _ (by decide)]
  cases ht : (tagOf kind).toList with
  | nil => rcases hnext with rfl | rfl <;> rfl
  | cons c cs =>
    have hc : c ≠ '/' := fun e => htag (by simp [ht, e])
    simpa using hc

/-! ## What an outline says of its lines -/

def hasChildren (node : Node) : Bool := !node.children.isEmpty

mutual
theorem Framed.length : ∀ {node : Node} {level : Nat} {lines : List (List Char)},
    Framed level node lines → lines.length = node.count + (node.walk.filter hasChildren).length
  | ⟨_, _, _, [], _, _⟩, _, _, h => by
    obtain ⟨line, rfl, -, -⟩ := h
    simp [Node.count, Node.countAll, Node.walk, Node.walkAll, hasChildren]
  | ⟨_, _, _, child :: rest, _, _⟩, _, _, h => by
    obtain ⟨first, inner, rfl, -, hinner⟩ := h
    have hlen := hinner.length
    simp only [Node.count, Node.walk, hasChildren, List.filter_cons, List.isEmpty_cons,
      Bool.not_false, if_true, List.length_cons, List.length_append, List.length_nil]
    omega

theorem FramedAll.length : ∀ {nodes : List Node} {level : Nat} {lines : List (List Char)},
    FramedAll level nodes lines →
      lines.length = Node.countAll nodes + ((Node.walkAll nodes).filter hasChildren).length
  | [], _, _, h => by
    rw [FramedAll] at h
    simp [h, Node.countAll, Node.walkAll]
  | node :: rest, _, _, h => by
    obtain ⟨own, others, rfl, hown, hothers⟩ := h
    have hnode := hown.length
    have hrest := hothers.length
    simp only [Node.countAll, Node.walkAll, List.filter_append, List.length_append]
    omega
end

/-- Whether the tags of nodes keep their lines from looking like closing tags. -/
def TagsOpen (nodes : List Node) : Prop :=
  ∀ node ∈ nodes, (tagOf node.kind).toList.head? ≠ some '/'

theorem TagsOpen.root {node : Node} (h : TagsOpen node.walk) :
    (tagOf node.kind).toList.head? ≠ some '/' := h node node.mem_walk_self

theorem TagsOpen.append {xs ys : List Node} (h : TagsOpen (xs ++ ys)) : TagsOpen xs ∧ TagsOpen ys :=
  ⟨fun node hn => h node (List.mem_append_left _ hn),
    fun node hn => h node (List.mem_append_right _ hn)⟩

/-- The line that a node of the walk begins, the roots standing at a level. -/
def BeginsAt (level : Nat) (line : List Char) (entry : Nat × Node) : Prop :=
  Begins (level + entry.1) entry.2.kind line

mutual
theorem Framed.openings : ∀ {node : Node} {own level depth : Nat} {lines : List (List Char)},
    Framed own node lines → own = level + depth → TagsOpen node.walk →
      List.Forall₂ (BeginsAt level) (lines.filter (!isClosing ·)) (node.walkAt depth)
  | ⟨_, kind, _, [], _, _⟩, _, _, _, _, h, hown, htags => by
    obtain ⟨line, rfl, hbegins, -⟩ := h
    have hopen := hbegins.isClosing_eq_false htags.root
    simp only [List.filter_cons, hopen, Bool.not_false, if_true, List.filter_nil, Node.walkAt,
      Node.walkAllAt]
    rw [hown] at hbegins
    exact .cons hbegins .nil
  | ⟨_, kind, _, child :: rest, _, _⟩, own, level, depth, _, h, hown, htags => by
    obtain ⟨first, inner, rfl, hbegins, hinner⟩ := h
    have hopen := hbegins.isClosing_eq_false htags.root
    have hrest : TagsOpen (Node.walkAll (child :: rest)) := fun node hn =>
      htags node (by simp [Node.walk, hn])
    have hdeeper : own + 1 = level + (depth + 1) := by omega
    simp only [List.cons_append, List.filter_cons, hopen, Bool.not_false, if_true,
      List.filter_append, isClosing_closingTag, Bool.not_true, Bool.false_eq_true, if_false,
      List.filter_nil, List.append_nil, Node.walkAt]
    rw [hown] at hbegins
    exact .cons hbegins (hinner.openings hdeeper hrest)

theorem FramedAll.openings :
    ∀ {nodes : List Node} {own level depth : Nat} {lines : List (List Char)},
      FramedAll own nodes lines → own = level + depth → TagsOpen (Node.walkAll nodes) →
        List.Forall₂ (BeginsAt level) (lines.filter (!isClosing ·)) (Node.walkAllAt depth nodes)
  | [], _, _, _, _, h, _, _ => by
    rw [FramedAll] at h
    subst h
    exact .nil
  | node :: rest, _, _, _, _, h, hown, htags => by
    obtain ⟨lines, others, rfl, hlines, hothers⟩ := h
    rw [List.filter_append]
    exact List.rel_append (hlines.openings hown htags.append.1)
      (hothers.openings hown htags.append.2)
end

mutual
/-- Every node begins a line. -/
theorem Framed.exists_begins : ∀ {node : Node} {level : Nat} {lines : List (List Char)},
    Framed level node lines → ∀ n ∈ node.walk, ∃ own, ∃ line ∈ lines, Begins own n.kind line
  | ⟨_, _, _, [], _, _⟩, level, _, h, n, hn => by
    obtain ⟨line, rfl, hbegins, -⟩ := h
    obtain rfl : n = _ := by simpa [Node.walk, Node.walkAll] using hn
    exact ⟨level, line, List.mem_singleton_self line, hbegins⟩
  | ⟨_, _, _, child :: rest, _, _⟩, level, _, h, n, hn => by
    obtain ⟨first, inner, rfl, hbegins, hinner⟩ := h
    rw [Node.walk] at hn
    rcases List.mem_cons.1 hn with rfl | hn
    · exact ⟨level, first, by simp, hbegins⟩
    · obtain ⟨own, line, hline, hn⟩ := hinner.exists_begins n hn
      exact ⟨own, line, by simp [hline], hn⟩

theorem FramedAll.exists_begins : ∀ {nodes : List Node} {level : Nat} {lines : List (List Char)},
    FramedAll level nodes lines →
      ∀ n ∈ Node.walkAll nodes, ∃ own, ∃ line ∈ lines, Begins own n.kind line
  | [], _, _, _, n, hn => by simp [Node.walkAll] at hn
  | node :: rest, _, _, h, n, hn => by
    obtain ⟨own, others, rfl, hown, hothers⟩ := h
    rw [Node.walkAll] at hn
    rcases List.mem_append.1 hn with hn | hn
    · obtain ⟨level, line, hline, hbegins⟩ := hown.exists_begins n hn
      exact ⟨level, line, List.mem_append_left others hline, hbegins⟩
    · obtain ⟨level, line, hline, hbegins⟩ := hothers.exists_begins n hn
      exact ⟨level, line, List.mem_append_right own hline, hbegins⟩
end

/-! ## The outline of generated markup -/

/-- A margin is two blanks for each level. -/
theorem margin_eq (level : Nat) : margin level = List.replicate (2 * level) ' ' := by
  have hstep : indentStep.toList = List.replicate 2 ' ' := by decide
  rw [margin, hstep, List.flatten_replicate_replicate, Nat.mul_comm]

theorem begins_chars {h : Head} {kind : Kind} (htag : h.tag = tagOf kind) (level : Nat)
    {next : Char} (rest : List Char) (hnext : next = ' ' ∨ next = '>') :
    Begins level kind (margin level ++ '<' :: h.chars ++ next :: rest) := by
  cases ha : h.attributes with
  | nil =>
    refine ⟨next, rest, ?_, hnext⟩
    simp [Head.chars, ha, margin_eq, htag]
  | cons a as =>
    have hline : margin level ++ '<' :: h.chars ++ next :: rest =
        List.replicate (2 * level) ' ' ++ '<' :: (tagOf kind).toList ++ ' ' ::
          (a.name.toList ++ '=' :: a.value.chars ++ as.flatMap Attribute.chars ++ next :: rest) := by
      simp [Head.chars, ha, margin_eq, htag, Attribute.chars]
    exact ⟨' ', _, hline, .inl rfl⟩

theorem Head.around_eq (h : Head) (level : Nat) (content : String) :
    h.around level content = margin level ++ '<' :: h.chars ++
      '>' :: ('\x7b' :: quoteChars content.toList ++ '\x7d' :: h.closing 0) := by
  simp [around, opening]

theorem Head.closing_eq {h : Head} {kind : Kind} (htag : h.tag = tagOf kind) (level : Nat) :
    h.closing level = List.replicate (2 * level) ' ' ++ closingTag kind := by
  simp [closing, closingTag, margin_eq, htag]

theorem finishes_selfClosing (h : Head) (level : Nat) (kind : Kind) :
    Finishes kind (h.selfClosing level) := .inl (List.suffix_append _ _)

theorem finishes_around {h : Head} {kind : Kind} (htag : h.tag = tagOf kind) (level : Nat)
    (content : String) : Finishes kind (h.around level content) := by
  have hline : h.opening level ++ '\x7b' :: quoteChars content.toList ++ ['\x7d'] ++
      closingTag kind = h.around level content := by
    simp [Head.around, Head.closing_eq htag]
  exact .inr ⟨_, hline⟩

/-- A node without children is lowered to an element without any, which has its text or nothing. -/
theorem lowerLeaf_cases (kind : Kind) (p : Props) :
    lowerLeaf kind p = .empty (headOf kind p) ∨ ∃ s, lowerLeaf kind p = .text (headOf kind p) s := by
  unfold lowerLeaf
  split
  · next s _ =>
    split
    · exact .inr ⟨s, rfl⟩
    · exact .inl rfl
  · exact .inl rfl

theorem framed_lowerLeaf (level : Nat) (kind : Kind) (p : Props) :
    ∃ line, Element.lines level (lowerLeaf kind p) = [line] ∧ Begins level kind line ∧
      Finishes kind line := by
  obtain hleaf | ⟨s, hleaf⟩ := lowerLeaf_cases kind p <;> rw [hleaf, Element.lines]
  · exact ⟨_, rfl, begins_chars rfl level ['/', '>'] (.inl rfl), finishes_selfClosing _ level kind⟩
  · have hbegins : Begins level kind ((headOf kind p).around level s) := by
      rw [Head.around_eq]
      exact begins_chars rfl level _ (.inr rfl)
    exact ⟨_, rfl, hbegins, finishes_around rfl level s⟩

mutual
theorem framed_lowerNode : ∀ (node : Node) (level : Nat),
    Framed level node (Element.lines level (lowerNode node))
  | ⟨_, kind, p, [], _, _⟩, level => by
    rw [lowerNode]
    exact framed_lowerLeaf level kind p
  | ⟨_, kind, p, child :: rest, _, _⟩, level => by
    have hinner := framed_lowerAll (child :: rest) (level + 1)
    have hclosing : (headOf kind p).closing level =
        List.replicate (2 * level) ' ' ++ closingTag kind := Head.closing_eq rfl level
    rw [lowerNode, lowerAll, Element.lines, ← lowerAll, hclosing]
    exact ⟨(headOf kind p).opening level, _, rfl, begins_chars rfl level [] (.inr rfl), hinner⟩

theorem framed_lowerAll : ∀ (nodes : List Node) (level : Nat),
    FramedAll level nodes (Element.linesAll level (lowerAll nodes))
  | [], _ => rfl
  | node :: rest, level =>
    ⟨_, _, rfl, framed_lowerNode node level, framed_lowerAll rest level⟩
end

/-! ## Lines of the printed text -/

theorem newline_not_mem_margin (level : Nat) : '\n' ∉ margin level :=
  margin_eq level ▸ Text.newline_not_mem_spaces (2 * level)

theorem newline_not_mem_chars {kind : Kind} (htag : '\n' ∉ (tagOf kind).toList) (p : Props) :
    '\n' ∉ (headOf kind p).chars := by
  rw [Head.chars, List.mem_append, not_or]
  exact ⟨htag, (shown_attributes kind p).newline_not_mem⟩

theorem newline_not_mem_closing {kind : Kind} (htag : '\n' ∉ (tagOf kind).toList) (p : Props)
    (level : Nat) : '\n' ∉ (headOf kind p).closing level := by
  have htag : '\n' ∉ (headOf kind p).tag.toList := htag
  simpa [Head.closing, newline_not_mem_margin] using htag

theorem newline_not_mem_lowerLeaf {kind : Kind} (htag : '\n' ∉ (tagOf kind).toList) (p : Props)
    (level : Nat) : ∀ line ∈ Element.lines level (lowerLeaf kind p), '\n' ∉ line := by
  have hchars := newline_not_mem_chars htag p
  obtain hleaf | ⟨s, hleaf⟩ := lowerLeaf_cases kind p <;> rw [hleaf]
  · simp [Element.lines, Head.selfClosing, newline_not_mem_margin, hchars]
  · have hquote := (Text.quoteChars_shown s.toList).newline_not_mem
    have hclosing := newline_not_mem_closing htag p 0
    simp [Element.lines, Head.around, Head.opening, newline_not_mem_margin, hchars, hquote, hclosing]

mutual
theorem newline_not_mem_lowerNode : ∀ (node : Node) (level : Nat),
    (∀ n ∈ node.walk, '\n' ∉ (tagOf n.kind).toList) →
      ∀ line ∈ Element.lines level (lowerNode node), '\n' ∉ line
  | ⟨_, kind, p, [], _, _⟩, level, h => by
    rw [lowerNode]
    exact newline_not_mem_lowerLeaf (h _ (Node.mem_walk_self _)) p level
  | ⟨id, kind, p, child :: rest, position, size⟩, level, h => by
    have htag : '\n' ∉ (tagOf kind).toList :=
      h ⟨id, kind, p, child :: rest, position, size⟩ (Node.mem_walk_self _)
    have hinner := newline_not_mem_lowerAll (child :: rest) (level + 1) fun n hn =>
      h n (by simp [Node.walk, hn])
    rw [lowerNode, lowerAll, Element.lines, ← lowerAll]
    intro line hline
    simp only [List.cons_append, List.mem_cons, List.mem_append, List.not_mem_nil, or_false] at hline
    rcases hline with rfl | hline | rfl
    · simp [Head.opening, newline_not_mem_margin, newline_not_mem_chars htag p]
    · exact hinner line hline
    · exact newline_not_mem_closing htag p level

theorem newline_not_mem_lowerAll : ∀ (nodes : List Node) (level : Nat),
    (∀ n ∈ Node.walkAll nodes, '\n' ∉ (tagOf n.kind).toList) →
      ∀ line ∈ Element.linesAll level (lowerAll nodes), '\n' ∉ line
  | [], _, _ => by simp [lowerAll, Element.linesAll]
  | node :: rest, level, h => by
    intro line hline
    rw [lowerAll, Element.linesAll, List.mem_append] at hline
    rcases hline with hline | hline
    · exact newline_not_mem_lowerNode node level (fun n hn => h n (by simp [Node.walkAll, hn]))
        line hline
    · exact newline_not_mem_lowerAll rest level (fun n hn => h n (by simp [Node.walkAll, hn]))
        line hline
end

theorem linesAll_ne_nil {nodes : List Node} (h : nodes ≠ []) (level : Nat) :
    Element.linesAll level (lowerAll nodes) ≠ [] := by
  cases nodes with
  | nil => exact absurd rfl h
  | cons node rest =>
    intro hnil
    have hlen := (framed_lowerAll (node :: rest) level).length
    rw [hnil] at hlen
    obtain ⟨_, _, _, _, _, _⟩ := node
    simp only [Node.countAll, Node.count, List.length_nil] at hlen
    omega

/-- The lines of the markup that a forest is printed as. -/
def markupLines (forest : Forest) (level : Nat) : List (List Char) :=
  pieces '\n' (print (lower forest) level).toList

/-- No tag has a line break if no unknown name has one. -/
theorem newline_not_mem_linesAll {forest : Forest}
    (hnames : ∀ name ∈ forest.unknownNames, '\n' ∉ name.toList) (level : Nat) :
    ∀ line ∈ Element.linesAll level (lower forest), '\n' ∉ line :=
  newline_not_mem_lowerAll forest level
    (forall_tagOf (P := fun tag => '\n' ∉ tag.toList) (by decide) hnames)

/-- The printed lines are those of the elements. -/
theorem markupLines_eq {forest : Forest} (hne : forest ≠ [])
    (hnames : ∀ name ∈ forest.unknownNames, '\n' ∉ name.toList) (level : Nat) :
    markupLines forest level = Element.linesAll level (lower forest) := by
  rw [markupLines, print, String.toList_ofList]
  exact Text.pieces_intercalate (linesAll_ne_nil hne level) (newline_not_mem_linesAll hnames level)

/-- The printed markup of a forest, line by line: as many lines as there are nodes and nodes with
children; without the closing tags one line for each node of the walk, indented by its depth; and
lines that open and close as the nodes nest. -/
theorem markupLines_outline (forest : Forest) (level : Nat) (hne : forest ≠ [])
    (hnames : ∀ name ∈ forest.unknownNames, '\n' ∉ name.toList ∧ name.toList.head? ≠ some '/') :
    (markupLines forest level).length = forest.count + (forest.walk.filter hasChildren).length ∧
      List.Forall₂ (fun line (entry : Nat × Node) => Begins (level + entry.1) entry.2.kind line)
        ((markupLines forest level).filter (!isClosing ·)) (Node.walkAllAt 0 forest) ∧
      (Node.walkAllAt 0 forest).map Prod.snd = forest.walk ∧
      FramedAll level forest (markupLines forest level) := by
  have htags : TagsOpen forest.walk := fun n hn =>
    tagOf_induction (P := fun tag => tag.toList.head? ≠ some '/') (by decide) fun name hname =>
      (hnames name (List.mem_filterMap.2 ⟨n, hn, hname⟩)).2
  rw [markupLines_eq hne (fun name hname => (hnames name hname).1) level]
  have hframed := framed_lowerAll forest level
  exact ⟨hframed.length, hframed.openings rfl htags, Node.map_snd_walkAllAt forest 0, hframed⟩

/-- A text that looks like markup stays on the line of its node. -/
theorem markupLines_outline_mapView :
    let forest : Forest := [⟨"m", .other "MapView", .empty,
      [⟨"t", .text, { Props.empty with text := some "\n</MapView>" }, [], none, none⟩], none, none⟩]
    (forest ≠ [] ∧ ∀ name ∈ forest.unknownNames,
      '\n' ∉ name.toList ∧ name.toList.head? ≠ some '/') ∧ (markupLines forest 1).length = 3 := by
  intro forest
  have hnames : ∀ name ∈ forest.unknownNames,
      '\n' ∉ name.toList ∧ name.toList.head? ≠ some '/' := by decide
  exact ⟨⟨by decide, hnames⟩, (markupLines_outline forest 1 (by decide) hnames).1⟩

end AppExport.Markup
