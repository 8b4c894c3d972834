/-
The placeholder of a text input, read as a quoted attribute is read: what is behind the opening quote
stands for itself up to the next one. A placeholder is written with escapes, which mean nothing there,
so it is read as itself exactly if it needs none.
-/
import AppExport.Proofs.Markup.Recovery

namespace AppExport.Markup

open Component (Forest Kind Node Props)
open Text (IsVerbatim escape flatMap_escape_eq_self_iff quoteChars quote_not_mem_flatMap_escape)

/-! ## Reading a quoted attribute -/

/-- The text up to the next quote, and what is behind it. -/
def upToQuote? : List Char → Option (List Char × List Char)
  | [] => none
  | '"' :: rest => some ([], rest)
  | c :: rest => (upToQuote? rest).map fun (text, behind) => (c :: text, behind)

/-- What a quoted attribute stands for, and what is behind it. -/
def attributeText? : List Char → Option (List Char × List Char)
  | '"' :: rest => upToQuote? rest
  | _ => none

theorem upToQuote?_append {text : List Char} (h : '"' ∉ text) (rest : List Char) :
    upToQuote? (text ++ '"' :: rest) = some (text, rest) := by
  induction text with
  | nil => rfl
  | cons c text ih =>
    rw [List.mem_cons, not_or] at h
    rw [List.cons_append, upToQuote?, ih h.2, Option.map_some]
    exact fun e => h.1 e.symm

theorem attributeText?_quoteChars {cs : List Char} (h : '"' ∉ cs) (behind : List Char) :
    attributeText? (quoteChars cs ++ behind) = some (cs.flatMap escape, behind) := by
  have hchars : quoteChars cs ++ behind = '"' :: (cs.flatMap escape ++ '"' :: behind) := by
    simp [quoteChars]
  rw [hchars, attributeText?, upToQuote?_append (quote_not_mem_flatMap_escape h)]

/-- The first quote of a text ends the attribute, behind the backslash that is to escape it. -/
theorem attributeText?_quoteChars_quote {before : List Char} (h : '"' ∉ before)
    (after behind : List Char) :
    attributeText? (quoteChars (before ++ '"' :: after) ++ behind) =
      some (before.flatMap escape ++ ['\\'], after.flatMap escape ++ '"' :: behind) := by
  have hquote : escape '"' = ['\\', '"'] := rfl
  have hchars : quoteChars (before ++ '"' :: after) ++ behind =
      '"' :: (before.flatMap escape ++ ['\\'] ++ '"' :: (after.flatMap escape ++ '"' :: behind)) := by
    simp [quoteChars, hquote]
  have hnone : '"' ∉ before.flatMap escape ++ ['\\'] := by
    simpa using quote_not_mem_flatMap_escape h
  rw [hchars, attributeText?, upToQuote?_append hnone]

theorem attributeText?_quoteChars_eq_self_iff (cs behind : List Char) :
    attributeText? (quoteChars cs ++ behind) = some (cs, behind) ↔ ∀ c ∈ cs, IsVerbatim c := by
  by_cases hquote : '"' ∈ cs
  · obtain ⟨before, after, rfl, hbefore⟩ := List.eq_append_cons_of_mem hquote
    rw [attributeText?_quoteChars_quote hbefore]
    refine ⟨fun h => ?_, fun h => absurd rfl (h '"' hquote).1⟩
    -- A quote in the text would be one in what is read, which ends ahead of the first one.
    have hread : before.flatMap escape ++ ['\\'] = before ++ '"' :: after :=
      (Prod.mk.inj (Option.some.inj h)).1
    have hnone : '"' ∉ before.flatMap escape ++ ['\\'] := by
      simpa using quote_not_mem_flatMap_escape hbefore
    exact absurd (hread ▸ hquote) hnone
  · rw [attributeText?_quoteChars hquote, ← flatMap_escape_eq_self_iff]
    simp

/-! ## The line of a node -/

theorem head_lowerNode (node : Node) : (lowerNode node).head = headOf node.kind node.props := by
  obtain ⟨_, kind, p, children, _, _⟩ := node
  cases children with
  | nil =>
    rw [lowerNode]
    obtain hleaf | ⟨_, hleaf⟩ := lowerLeaf_cases kind p <;> rw [hleaf, Element.head]
  | cons child rest => rw [lowerNode, Element.head]

theorem lowerNode_ne_group_nil (node : Node) (h : Head) : lowerNode node ≠ .group h [] := by
  obtain ⟨_, kind, p, children, _, _⟩ := node
  cases children with
  | nil =>
    rw [lowerNode]
    obtain hleaf | ⟨_, hleaf⟩ := lowerLeaf_cases kind p <;> simp [hleaf]
  | cons child rest => simp [lowerNode, lowerAll]

-- The level of a node is that of the roots and its depth, as for the outline.
mutual
theorem mem_lines_of_mem_walkAt : ∀ {node n : Node} {own level depth d : Nat} {line : List Char},
    own = level + depth → (d, n) ∈ node.walkAt depth →
      line ∈ Element.lines (level + d) (lowerNode n) → line ∈ Element.lines own (lowerNode node)
  | ⟨id, kind, p, children, position, size⟩, n, own, level, depth, d, line, hown, hn, hline => by
    rw [Node.walkAt, List.mem_cons] at hn
    rcases hn with hn | hn
    · obtain ⟨rfl, rfl⟩ := Prod.mk.inj hn
      rwa [hown]
    · have hdeeper : own + 1 = level + (depth + 1) := by omega
      have hinner := mem_linesAll_of_mem_walkAllAt hdeeper hn hline
      cases children with
      | nil => simp [Node.walkAllAt] at hn
      | cons child rest =>
        rw [lowerNode, lowerAll, Element.lines, ← lowerAll]
        exact List.mem_append_left _ (List.mem_cons_of_mem _ hinner)

theorem mem_linesAll_of_mem_walkAllAt :
    ∀ {nodes : List Node} {n : Node} {own level depth d : Nat} {line : List Char},
      own = level + depth → (d, n) ∈ Node.walkAllAt depth nodes →
        line ∈ Element.lines (level + d) (lowerNode n) →
          line ∈ Element.linesAll own (lowerAll nodes)
  | [], n, _, _, _, _, _, _, hn, _ => by simp [Node.walkAllAt] at hn
  | node :: rest, n, own, level, depth, d, line, hown, hn, hline => by
    rw [Node.walkAllAt, List.mem_append] at hn
    rw [lowerAll, Element.linesAll, List.mem_append]
    rcases hn with hn | hn
    · exact .inl (mem_lines_of_mem_walkAt hown hn hline)
    · exact .inr (mem_linesAll_of_mem_walkAllAt hown hn hline)
end

theorem chars_headOf_textInput {p : Props} {s : String} (h : p.placeholder = some s) :
    (headOf .textInput p).chars = "TextInput".toList ++
      (styleAttribute p).flatMap Attribute.chars ++ " placeholder=".toList ++
        quoteChars s.toList := by
  have hcontent : contentAttribute .textInput p = [⟨"placeholder", .literal s⟩] := by
    simp [contentAttribute, h]
  have htag : (Mapping.ofKind .textInput).primitive.tag = "TextInput" := rfl
  simp [Head.chars, headOf, hcontent, htag, Attribute.chars, AttributeValue.chars]

/-- The line that a text input with a placeholder begins ends its tag with the quoted placeholder.
Read as a quoted attribute it stands for the placeholder, and ends where the attribute does, exactly
if the placeholder has no quote, no backslash and no control character. Without a quote it still
ends there, but stands for the escaped text; and the first quote ends it early, with the escaped text
ahead of it and a backslash. -/
theorem placeholder_denoted_iff (forest : Forest) (level : Nat) {depth : Nat} {node : Node}
    {placeholder : String} (hnode : (depth, node) ∈ Node.walkAllAt 0 forest)
    (hkind : node.kind = .textInput) (hplaceholder : node.props.placeholder = some placeholder) :
    ∃ behind, Stop behind ∧
      margin (level + depth) ++ '<' :: ("TextInput".toList ++
          (styleAttribute node.props).flatMap Attribute.chars ++ " placeholder=".toList ++
            quoteChars placeholder.toList ++ behind) ∈ Element.linesAll level (lower forest) ∧
      (attributeText? (quoteChars placeholder.toList ++ behind) =
          some (placeholder.toList, behind) ↔
        ∀ c ∈ placeholder.toList, c ≠ '"' ∧ c ≠ '\\' ∧ 0x20 ≤ c.toNat) ∧
      ('"' ∉ placeholder.toList →
        attributeText? (quoteChars placeholder.toList ++ behind) =
          some (placeholder.toList.flatMap escape, behind)) ∧
      ∀ before after, '"' ∉ before → placeholder.toList = before ++ '"' :: after →
        attributeText? (quoteChars placeholder.toList ++ behind) =
          some (before.flatMap escape ++ ['\\'], after.flatMap escape ++ '"' :: behind) := by
  have hline := Element.lines_eq (lowerNode_ne_group_nil node) (level + depth)
  rw [head_lowerNode, hkind, chars_headOf_textInput hplaceholder] at hline
  refine ⟨(lowerNode node).behind, Element.stop_behind _, ?_,
    attributeText?_quoteChars_eq_self_iff _ _, fun h => attributeText?_quoteChars h _,
    fun before after hbefore heq => ?_⟩
  · have hown : level = level + 0 := rfl
    refine mem_linesAll_of_mem_walkAllAt hown hnode ?_
    rw [hline]
    exact List.mem_cons_self
  · rw [heq]
    exact attributeText?_quoteChars_quote hbefore after _

/-- The placeholder of a nested text input is cut off at a quote. -/
theorem placeholder_denoted_iff_quote :
    let input : Node :=
      ⟨"i", .textInput, { Props.empty with placeholder := some "5\" nail" }, [], none, none⟩
    let forest : Forest := [⟨"c", .container, .empty, [input], none, none⟩]
    (1, input) ∈ Node.walkAllAt 0 forest ∧ input.kind = .textInput ∧
      input.props.placeholder = some "5\" nail" ∧
      ∃ behind, Stop behind ∧
        attributeText? (quoteChars "5\" nail".toList ++ behind) =
          some ("5\\".toList, " nail\"".toList ++ behind) := by
  intro input forest
  have hnode : (1, input) ∈ Node.walkAllAt 0 forest := by
    simp [forest, input, Node.walkAllAt, Node.walkAt]
  obtain ⟨behind, hbehind, -, -, -, hread⟩ := placeholder_denoted_iff forest 0 hnode rfl rfl
  exact ⟨hnode, rfl, rfl, behind, hbehind, hread ['5'] " nail".toList (by decide) rfl⟩

/-- A backslash is read as two. -/
theorem backslash_doubled :
    let forest : Forest :=
      [⟨"a", .textInput, { Props.empty with placeholder := some "C:\\new" }, [], none, none⟩]
    print (lower forest) 0 = "<TextInput placeholder=\"C:\\\\new\" />" ∧
      attributeText? "\"C:\\\\new\" />".toList = some ("C:\\\\new".toList, " />".toList) ∧
      "C:\\\\new".toList ≠ "C:\\new".toList := by
  decide +kernel

end AppExport.Markup
