/-
Styles that are typed in. A text is accepted if it is a JSON object, and it is then the style that a
node has whose document holds this object under `style`. Over a run of edits, the last accepted text
counts, with the style entries that are set behind it.
-/
import AppExport.Proofs.Component.Edit
import AppExport.Proofs.Component.Node
import AppExport.Proofs.Json.Object
import AppExport.Proofs.Json.Room
import AppExport.Proofs.Json.Slot
import AppExport.Proofs.Project.Exact

namespace AppExport.Component

open Json (Blanks Decoder Entries HasMember HasMembers IsObject IsSpaced Member Members Record Takes
  Value Yields innerRoom startRoom)
open Text (Glyph glyphsOfString)

variable {room : Nat}

/-! ## What a text is accepted as -/

theorem styleOfText?_eq_some_iff {raw : String} {style : Style} :
    styleOfText? raw = some style ↔
      ∃ es, Json.decode Json.value raw = .ok (.object es) ∧ Members.ofEntries es = style := by
  simp only [← Json.decode_objectOf_eq_ok_iff "a map"]
  unfold styleOfText?
  cases Json.decode (Json.objectOf "a map") raw with
  | error fault => simp
  | ok es => simp

theorem ofEntries_insertAll_nil (es : Entries) :
    Members.ofEntries (Entries.insertAll [] es) = Members.ofEntries es := by
  rw [← Members.entries_ofEntries, ofEntries_entries]

/-- The entries of an accepted text are those of its members, a repeated key with its last value. -/
theorem styleOfText?_eq_some_iff_members {raw : String} {style : Style} :
    styleOfText? raw = some style ↔ ∃ ms es, IsObject (glyphsOfString raw) ms ∧
      ms.mapM Member.pair? = some es ∧ Members.ofEntries es = style := by
  rw [styleOfText?_eq_some_iff]
  simp only [← Json.decode_objectOf_eq_ok_iff "a map",
    Json.decode_objectOf_eq_ok_iff_members]
  constructor
  · rintro ⟨_, ⟨ms, es, hobject, hes, rfl⟩, rfl⟩
    exact ⟨ms, es, hobject, hes, (ofEntries_insertAll_nil es).symm⟩
  · rintro ⟨ms, es, hobject, hes, rfl⟩
    exact ⟨_, ⟨ms, es, hobject, hes, rfl⟩, ofEntries_insertAll_nil es⟩

/-- What a text is accepted as is what its value stands for as a style. -/
theorem getD_styleOfText? {raw : String} {v : Value} (h : Json.decode Json.value raw = .ok v) :
    (styleOfText? raw).getD .empty = styleOf v := by
  cases hstyle : styleOfText? raw with
  | some style =>
    obtain ⟨es, hes, rfl⟩ := styleOfText?_eq_some_iff.1 hstyle
    rw [h] at hes
    cases hes
    exact (styleOf_object es).symm
  | none =>
    cases v with
    | object es =>
      rw [styleOfText?_eq_some_iff.2 ⟨es, h, rfl⟩] at hstyle
      cases hstyle
    | _ => rfl

theorem accepted_styleText_iff {raw : String} :
    (Edit.styleText raw).accepted = true ↔ ∃ es, Json.decode Json.value raw = .ok (.object es) := by
  rw [Edit.accepted, Option.isSome_iff_exists]
  constructor
  · rintro ⟨style, hstyle⟩
    obtain ⟨es, hes, -⟩ := styleOfText?_eq_some_iff.1 hstyle
    exact ⟨es, hes⟩
  · rintro ⟨es, hes⟩
    exact ⟨_, styleOfText?_eq_some_iff.2 ⟨es, hes, rfl⟩⟩

/-! ## Styles in documents -/

theorem propsRecord_retains_style : propsRecord.Retains (·.style) where
  fields := by
    simp only [propsRecord, List.forall_mem_cons, List.not_mem_nil, false_implies, implies_true,
      and_true]
    exact ⟨.other fun _ _ => rfl, .other fun _ _ => rfl, .other fun _ _ => rfl,
      .other fun _ _ => rfl, .other fun _ _ => rfl, .other fun _ _ => rfl, .other fun _ _ => rfl,
      .other fun _ _ => rfl, .other fun _ _ => rfl, .other fun _ _ => rfl, .other fun _ _ => rfl,
      .slot⟩
  others := by
    rintro _ ⟨⟩ key draft room c d behind hread
    obtain ⟨⟨v, c'⟩, -, hd⟩ := bind_eq_ok_iff.1 hread
    cases hd
    exact fun _ hb => hb

theorem nodeRecord_retains_props (child : Decoder Node) : (nodeRecord child).Retains (·.props) where
  fields := by
    simp only [nodeRecord, List.forall_mem_cons, List.not_mem_nil, false_implies, implies_true,
      and_true]
    exact ⟨.other fun _ _ => rfl, .other fun _ _ => rfl, .slot, .other fun _ _ => rfl,
      .other fun _ _ => rfl, .other fun _ _ => rfl⟩
  others := nofun

theorem exists_node_eq : ∀ room : Nat, ∃ child : Decoder Node,
    (nodeRecord child).ReadsExactly ∧ node room = (nodeRecord child).decoder room
  | 0 => ⟨_, nodeRecord_readsExactly fun _ => Json.exact_refuse "" _, rfl⟩
  | 1 => ⟨_, nodeRecord_readsExactly fun _ => Json.exact_refuse "" _, rfl⟩
  | room + 2 => ⟨_, nodeRecord_readsExactly fun _ => exact_node room, rfl⟩

/-- Whether the text of a node has another text as its style, blanks around that aside. -/
def HasStyle (document : List Glyph) (raw : String) : Prop :=
  ∃ key props before text after, (key = "props" ∨ key = "properties") ∧
    HasMember document key props ∧ HasMember props "style" text ∧
    glyphsOfString raw = before ++ text ++ after ∧ Blanks before ∧ Blanks after

theorem props_of_finish {d : NodeDraft} {n : Node} {p : Props} (h : d.finish = some n)
    (hp : d.props = some p) : n.props = p := by
  obtain ⟨id, kind, props, children, position, size⟩ := d
  obtain ⟨id', -, h⟩ := Option.bind_eq_some_iff.1 h
  obtain ⟨kind', -, h⟩ := Option.bind_eq_some_iff.1 h
  cases h
  exact congrArg (·.getD .empty) hp

/-- A text is decoded to what it is read as elsewhere, blanks around it aside. -/
theorem decode_value_of_takes {raw : String} {before text after : List Glyph} {inner : Nat}
    {v : Value}
    (hraw : glyphsOfString raw = before ++ text ++ after) (hbefore : Blanks before)
    (hafter : Blanks after) (hinner : inner ≤ startRoom) (h : Takes (Json.value inner) text v) :
    Json.decode Json.value raw = .ok v := by
  obtain ⟨offset, hread⟩ := h after hafter.ends (0 + before.length)
  refine Json.decodeGlyphs_eq_ok_iff.2
    ⟨⟨after, offset⟩, ?_, Json.skipBlanks_rest_eq_nil_iff.2 hafter⟩
  rw [hraw, List.append_assoc, Json.Cursor.start, Json.value_blanks_append hbefore]
  exact Json.value_extends hinner hread

/-- The style of a node is what the text under `style` is decoded to by itself. -/
theorem style_of_read {document rest : List Glyph} {raw : String} (h : HasStyle document raw)
    (hroom : room ≤ startRoom) {offset : Nat} {n : Node} {behind : Json.Cursor}
    (hread : node room ⟨document ++ rest, offset⟩ = .ok (n, behind)) :
    ∃ v, Json.decode Json.value raw = .ok v ∧ n.props.style = styleOf v := by
  obtain ⟨key, props, before, text, after, hkey, hprops, hstyle, hraw, hbefore, hafter⟩ := h
  obtain ⟨child, hexact, hnode⟩ := exists_node_eq room
  rw [hnode] at hread
  have hfind : (nodeRecord child).fields.find? (·.answers key) =
      some (.slot "props" ["properties"] true (·.props) ({ · with props := some · })
        propsRecord.decoder) := by
    rcases hkey with rfl | rfl <;> rfl
  -- each of the two records hands on what it has read under the key
  obtain ⟨inner, d, p, blanks, rfl, hfinish, hp, hblanks, offset₁, offset₂, hread⟩ :=
    (nodeRecord_retains_props child).exists_get hexact hprops hfind (fun _ _ => rfl) hread
  rw [← List.append_nil (blanks ++ props)] at hread
  obtain ⟨within, d', s, blanks', rfl, hfinish', hs, hblanks', offset₃, offset₄, hread⟩ :=
    propsRecord_retains_style.exists_get propsRecord_readsExactly (hstyle.blanks_append hblanks) rfl
      (fun _ _ => rfl) hread
  obtain ⟨⟨v, c⟩, hvalue, hv⟩ := bind_eq_ok_iff.1 hread
  cases hv
  rw [Json.value_blanks_append hblanks'] at hvalue
  obtain ⟨taken, htaken, -, htakes⟩ := Json.exact_value within hvalue Json.ends_nil
  obtain rfl : text = taken := by rwa [List.append_nil] at htaken
  refine ⟨v, decode_value_of_takes hraw hbefore hafter (by omega) htakes, ?_⟩
  cases hfinish'
  rw [props_of_finish hfinish hp]
  exact congrArg (·.getD .empty) hs

/-! ## A document around a style -/

/-- A node with an id, a kind and a style. -/
def styledDocument (id : String) (kind : Kind) (raw : String) : String :=
  "\x7b\"id\":" ++ (Value.text id).compact ++ ",\"type\":" ++ (Value.text kind.name).compact ++
    ",\"props\":\x7b\"style\":" ++ raw ++ "\x7d\x7d"

theorem yields_style {text : List Glyph} {v : Value} (h : Takes (Json.value room) text v) :
    Yields (style room) text (styleOf v) [] := by
  intro offset
  obtain ⟨offset', hread⟩ := h [] Json.ends_nil offset
  rw [List.append_nil] at hread
  exact ⟨offset', by simp only [style, hread, bind, Except.bind]⟩

/-- The text of properties with a style and blanks behind it. -/
def styledProps (text after : List Glyph) : List Glyph :=
  .char '\x7b' :: ((Member.holding "style" text).text ++ (after ++ [.char '\x7d']))

theorem key?_style (text : List Glyph) : (Member.holding "style" text).key? = some "style" :=
  Member.key?_holding (by decide +kernel) text

theorem hasMembers_styledProps {text after : List Glyph} (htext : IsSpaced text)
    (hafter : Blanks after) :
    HasMembers true ((Member.holding "style" text).text ++ (after ++ [.char '\x7d']))
      [.holding "style" text] := by
  have hcons := HasMembers.cons .first Json.blanks_nil (Member.isQuoted_of_key? (key?_style text))
    (.mk Json.blanks_nil htext) (.none hafter)
  simpa [Member.text] using hcons

theorem hasMember_styledProps {text after : List Glyph} (htext : IsSpaced text)
    (hafter : Blanks after) : HasMember (styledProps text after) "style" text := by
  have hobject := IsObject.mk Json.blanks_nil (hasMembers_styledProps htext hafter) Json.blanks_nil
  rw [List.nil_append, List.append_nil] at hobject
  exact ⟨_, .holding "style" text, [], [], hobject, List.mem_singleton_self _, key?_style text,
    Json.blanks_nil, Json.blanks_nil, rfl⟩

theorem yields_styledProps {text after : List Glyph} {v : Value} (htext : IsSpaced text)
    (hafter : Blanks after) (h : Takes (Json.value room) text v) :
    Yields (propsRecord.decoder (room + 1)) (styledProps text after)
      { Props.empty with style := styleOf v } [] := by
  have hdraft : [Member.holding "style" text].foldlM (Member.add (propsRecord.entry room)) {} =
      some { style := some (styleOf v) } := by
    rw [List.foldlM_cons, Member.add_slot (key?_style text) rfl,
      Member.valueBy_holding (yields_style h)]
    rfl
  exact propsRecord_readsExactly.yields_decoder (hasMembers_styledProps htext hafter) hdraft rfl

/-- The members of a node with an id, a kind and properties. -/
def styledMembers (id : String) (kind : Kind) (props : List Glyph) : List Member :=
  [.holding "id" (glyphsOfString (Value.text id).compact),
    .holding "type" (glyphsOfString (Value.text kind.name).compact), .holding "props" props]

section StyledMembers

variable (id : String) (kind : Kind) {text : List Glyph} {p : Props}

theorem yields_id :
    Yields (Json.text "a string") (glyphsOfString (Value.text id).compact) id [] :=
  Json.yields_of_reads (by simpa [Value.compact] using Json.reads_string id)

theorem yields_type : Yields (Component.kind room) (glyphsOfString (Value.text kind.name).compact)
    kind.recognized [] :=
  Json.yields_of_reads (by simpa [Value.compact] using reads_kind kind)

theorem wellFormed_styledMembers (h : Yields (propsRecord.decoder innerRoom) text p []) :
    ∀ m ∈ styledMembers id kind text, m.WellFormed := by
  simp only [styledMembers, List.forall_mem_cons, List.not_mem_nil, false_implies, implies_true,
    and_true]
  exact ⟨Member.wellFormed_of_valueBy (Json.exact_text _) (Member.key?_holding (by decide +kernel) _)
      (Member.valueBy_holding (yields_id id)),
    Member.wellFormed_of_valueBy (exact_kind innerRoom) (Member.key?_holding (by decide +kernel) _)
      (Member.valueBy_holding (yields_type kind)),
    Member.wellFormed_of_valueBy (propsRecord_readsExactly.decoder _)
      (Member.key?_holding (by decide +kernel) _) (Member.valueBy_holding h)⟩

theorem draftOf_styledMembers (child : Decoder Node)
    (h : Yields (propsRecord.decoder innerRoom) text p []) :
    (nodeRecord child).draftOf (styledMembers id kind text) =
      some { id := some id, kind := some kind.recognized, props := some p } := by
  have hid : Member.add ((nodeRecord child).entry innerRoom) {}
      (.holding "id" (glyphsOfString (Value.text id).compact)) = some { id := some id } := by
    rw [Member.add_slot (Member.key?_holding (by decide +kernel) _) rfl,
      Member.valueBy_holding (yields_id id)]
    rfl
  have htype : Member.add ((nodeRecord child).entry innerRoom) { id := some id }
      (.holding "type" (glyphsOfString (Value.text kind.name).compact)) =
        some { id := some id, kind := some kind.recognized } := by
    rw [Member.add_slot (Member.key?_holding (by decide +kernel) _) rfl,
      Member.valueBy_holding (yields_type kind)]
    rfl
  have hprops : Member.add ((nodeRecord child).entry innerRoom)
      { id := some id, kind := some kind.recognized } (.holding "props" text) =
        some { id := some id, kind := some kind.recognized, props := some p } := by
    rw [Member.add_slot (Member.key?_holding (by decide +kernel) _) rfl, Member.valueBy_holding h]
    rfl
  have hstart : (nodeRecord child).start = {} := rfl
  simp only [Record.draftOf, styledMembers, hstart, List.foldlM_cons, List.foldlM_nil,
    Option.bind_eq_bind, hid, htype, hprops, Option.bind_some]
  rfl

end StyledMembers

/-- An object that can be read with two brackets fewer is the style of a node around it. -/
theorem decode_styledDocument {raw : String} {es : Entries}
    (h : Json.decode (fun _ => Json.value (startRoom - 2)) raw = .ok (.object es)) (id : String)
    (kind : Kind) :
    HasStyle (glyphsOfString (styledDocument id kind raw)) raw ∧
      Json.decode node (styledDocument id kind raw) = .ok
        { Node.new id kind.recognized with
          props := { Props.empty with style := .ofEntries es } } := by
  obtain ⟨⟨after, offset⟩, hread, hend⟩ := Json.decodeGlyphs_eq_ok_iff.1 h
  have hblanks : Blanks after := Json.skipBlanks_rest_eq_nil_iff.1 hend
  obtain ⟨text, hraw, hspaced, htakes⟩ := Json.exact_value _ hread hblanks.ends
  have hglyphs : raw.toList.map Glyph.char = text ++ after := hraw
  -- blanks behind the object are those before the closing brace of the properties
  have hdocument : glyphsOfString (styledDocument id kind raw) =
      Json.objectText (styledMembers id kind (styledProps text after)) := by
    simp [styledDocument, glyphsOfString, styledMembers, styledProps, Json.objectText,
      Json.othersText, Member.text, Member.holding, hglyphs]
  have hprops := yields_styledProps hspaced hblanks htakes
  have hobject := Json.isObject_objectText (wellFormed_styledMembers id kind hprops)
  rw [← hdocument] at hobject
  constructor
  · exact ⟨"props", styledProps text after, [], text, after, .inl rfl,
      ⟨_, .holding "props" (styledProps text after), [], [], hobject, by simp [styledMembers],
        Member.key?_holding (by decide +kernel) _, Json.blanks_nil, Json.blanks_nil, rfl⟩,
      hasMember_styledProps hspaced hblanks, hraw, Json.blanks_nil, hblanks⟩
  · obtain ⟨child, hexact, hnode⟩ := exists_node_eq startRoom
    have hdecoder : Json.decode node (styledDocument id kind raw) =
        Json.decode (nodeRecord child).decoder (styledDocument id kind raw) := by
      simp only [Json.decode, Json.decodeGlyphs, hnode]
    have hdraft := draftOf_styledMembers id kind child hprops
    rw [hdecoder, ← styleOf_object es]
    exact Record.decodeGlyphs_decoder.2 ⟨_, (hexact.decodeGlyphs_draft hobject _).2 hdraft, rfl⟩

/-! ## Runs of edits -/

/-- After any edits, the nested style is the last one that was typed in and accepted, or else the one
at the start, with the style entries that were set later: each in the place of its key, or at the end.
A text is accepted if and only if it is a JSON object, with a repeated key in its first place and with
its last value. A node that is read, wherever it stands, from a text with this object as its style has
just this style, and there is such a text around every object that leaves room for two more brackets.
What is not accepted changes nothing. -/
theorem style_after_edits (start : Node) (edits : List Edit) :
    ((∃ before raw style after, edits = before ++ .styleText raw :: after ∧
          styleOfText? raw = some style ∧ (∀ e ∈ after, e.typed? = none) ∧
          (start.edit edits).props.style = style.insertAll (after.filterMap Edit.pair?)) ∨
        ((∀ e ∈ edits, e.typed? = none) ∧
          (start.edit edits).props.style =
            start.props.style.insertAll (edits.filterMap Edit.pair?))) ∧
      (∀ (style : Style) key value,
        (style.insert key value).entries.keys =
          (if key ∈ style.entries.keys then style.entries.keys else style.entries.keys ++ [key]) ∧
        ∀ other, (style.insert key value).get? other =
          if other = key then some value else style.get? other) ∧
      (∀ raw, (Edit.styleText raw).accepted = true ↔
        ∃ es, Json.decode Json.value raw = .ok (.object es)) ∧
      (∀ raw style, styleOfText? raw = some style ↔
        ∃ ms es, IsObject (glyphsOfString raw) ms ∧ ms.mapM Member.pair? = some es ∧
          style.entries.keys = (Entries.keys es).eraseDups ∧
          ∀ key, style.get? key = es.reverse.lookup key) ∧
      (∀ raw document rest offset room n behind, HasStyle document raw → room ≤ startRoom →
        node room ⟨document ++ rest, offset⟩ = .ok (n, behind) →
        n.props.style = (styleOfText? raw).getD .empty) ∧
      (∀ raw es, Json.decode (fun _ => Json.value (startRoom - 2)) raw = .ok (.object es) →
        ∀ id kind, HasStyle (glyphsOfString (styledDocument id kind raw)) raw ∧
          Json.decode node (styledDocument id kind raw) = .ok
            { Node.new id kind.recognized with
              props := { Props.empty with style := .ofEntries es } }) ∧
      ∀ raw, (Edit.styleText raw).accepted = false →
        ∀ n : Node, (Edit.styleText raw).apply n = n := by
  refine ⟨?_, ?_, fun _ => accepted_styleText_iff, ?_, ?_, ?_, ?_⟩
  · rw [style_edit_eq_foldl]
    exact foldl_onStyle edits start.props.style
  · exact fun style key value =>
      ⟨Entries.keys_insert key value style.entries, Members.get?_insert key value style⟩
  · intro raw style
    rw [styleOfText?_eq_some_iff_members]
    constructor
    · rintro ⟨ms, es, hobject, hes, rfl⟩
      exact ⟨ms, es, hobject, hes, Members.keys_ofEntries es, Members.get?_ofEntries es⟩
    · rintro ⟨ms, es, hobject, hes, hkeys, hget⟩
      refine ⟨ms, es, hobject, hes, Members.eq_of_get?_eq ?_ fun key => ?_⟩
      · rw [Members.keys_ofEntries, hkeys]
      · rw [Members.get?_ofEntries, hget]
  · intro raw document rest offset room n behind hstyle hroom hread
    obtain ⟨v, hdecode, hn⟩ := style_of_read hstyle hroom hread
    rw [hn, getD_styleOfText? hdecode]
  · exact fun raw es h id kind => decode_styledDocument h id kind
  · exact fun raw h n => Edit.apply_of_not_accepted h n

/-- A style with a repeated key is typed in over another one, and then `null`. -/
theorem style_after_edits_repeated :
    let start : Node := ⟨"1", .button,
      { Props.empty with style := .ofEntries [("color", .text "blue")] }, [], none, none⟩
    let raw : String := " \x7b\"gap\":1,\"flex\":null,\"gap\":2\x7d"
    let entries : Entries := [("gap", .ofUInt32 2), ("flex", .null)]
    let edits : List Edit := [.styleEntry "width" (.text "50%"), .styleText raw, .text "Hi",
      .styleText "null", .styleEntry "margin" (.ofUInt32 8), .styleEntry "gap" (.ofUInt32 3)]
    let document : String := styledDocument "2" .text raw
    (Json.decode (fun _ => Json.value (startRoom - 2)) raw = .ok (.object entries) ∧
      HasStyle (glyphsOfString document) raw ∧ (Edit.styleText "null").accepted = false) ∧
      (start.edit edits).props.style.entries =
        [("gap", .ofUInt32 3), ("flex", .null), ("margin", .ofUInt32 8)] ∧
      (∃ n, Json.decode node document = .ok n ∧ n.props.style = .ofEntries entries ∧
        n.props.style = (styleOfText? raw).getD .empty) ∧
      (Edit.styleText "null").apply start = start := by
  intro start raw entries edits document
  have hdecode : Json.decode (fun _ => Json.value (startRoom - 2)) raw = .ok (.object entries) := by
    simp only [raw, entries]
    rfl
  have hnull : (Edit.styleText "null").accepted = false := rfl
  have hrun : (start.edit edits).props.style.entries =
      [("gap", .ofUInt32 3), ("flex", .null), ("margin", .ofUInt32 8)] := by
    simp only [start, edits, raw]
    rfl
  obtain ⟨-, -, -, -, hread, hstyled, hrejected⟩ := style_after_edits start edits
  obtain ⟨hstyle, hdocument⟩ := hstyled raw entries hdecode "2" .text
  obtain ⟨behind, hnode, -⟩ := Json.decodeGlyphs_eq_ok_iff.1 hdocument
  have hagree := hread raw (glyphsOfString document) [] 0 startRoom _ behind hstyle (Nat.le_refl _)
    (by rwa [List.append_nil])
  exact ⟨⟨hdecode, hstyle, hnull⟩, hrun, ⟨_, hdocument, rfl, hagree⟩, hrejected "null" hnull start⟩

end AppExport.Component
