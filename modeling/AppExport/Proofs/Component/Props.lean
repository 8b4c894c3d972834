/-
Properties that are written are read with every number in them read again, if they are such as
reading can give: no shorthand is null, no key that is kept for later has a meaning of its own, and no
object in their values has a key twice.
-/
import AppExport.Proofs.Component.StyleValue
import AppExport.Proofs.Json.Record

namespace AppExport.Component

open Json (Decoder Entries Members Opens Reads Steps Value NotNull)
open Decimal (Binary64)

variable {room : Nat}

/-! ## Canonical properties -/

structure Props.Canonical (p : Props) : Prop where
  stored_ne_null : ∀ s v, p.stored s = some v → v.isNull = false
  stored_keyed : ∀ s v, p.stored s = some v → v.Keyed
  style_keyed : ∀ e ∈ p.style.entries, e.2.Keyed
  extra_keyed : ∀ e ∈ p.extra.entries, e.2.Keyed
  extra_unknown : ∀ key ∈ p.extra.entries.keys, propsRecord.fields.find? (·.answers key) = none

/-- What the text of properties is read as. -/
def Props.reread (p : Props) : Props :=
  { p with
    color := p.color.map Value.reread
    backgroundColor := p.backgroundColor.map Value.reread
    fontSize := p.fontSize.map Value.reread
    borderRadius := p.borderRadius.map Value.reread
    padding := p.padding.map Value.reread
    margin := p.margin.map Value.reread
    style := p.style.reread
    extra := p.extra.reread }

/-! ## Single entries -/

theorem optionalEntry_eq (key : String) (x : Option Value) :
    optionalEntry key x = (x.map fun v => (key, v)).toList := by
  cases x <;> rfl

theorem optionalEntry_map {β : Type} (key : String) (x : Option β) (json : β → Value) :
    optionalEntry key (x.map json) = (x.map fun b => (key, json b)).toList := by
  rw [optionalEntry_eq, Option.map_map]
  rfl

theorem reads_content (s : String) : Reads (content room) (Value.text s).chars (some s) := by
  intro rest offset hrest
  obtain ⟨offset', h⟩ :=
    (Json.reads_value (.text s) room trivial (Nat.zero_le room)).2 rest offset hrest
  exact ⟨offset', by simp only [content, h, Value.reread, contentOf, bind, Except.bind]⟩

theorem reads_shorthand {v : Value} (hnull : v.isNull = false) (hkeyed : v.Keyed)
    (hdepth : v.depth ≤ room) :
    Reads (Json.orNull styleValue room) v.chars (some v.reread) := by
  obtain ⟨hopens, hread⟩ := Json.reads_value v room hkeyed hdepth
  rw [styleValue_eq_value]
  exact Json.reads_orNull (Json.notNull_chars hopens hnull) hread

theorem foldl_insert (entries acc : Entries) (h : (Entries.keys (acc ++ entries)).Nodup) :
    ∀ hacc, entries.foldl (fun m e => m.insert e.1 e.2) (⟨acc, hacc⟩ : Members) =
      ⟨acc ++ entries, h⟩ := by
  induction entries generalizing acc with
  | nil => simp
  | cons e rest ih =>
    intro hacc
    have hkey : e.1 ∉ Entries.keys acc := by
      rw [Entries.keys, List.map_append, List.nodup_append] at h
      exact fun hmem => h.2.2 e.1 hmem e.1 (by simp) rfl
    have hsplit : acc ++ e :: rest = (acc ++ [e]) ++ rest := by simp
    simp only [hsplit] at h ⊢
    rw [List.foldl_cons, ← ih (acc ++ [e]) h (by
      rw [← Json.Entries.insert_of_not_mem hkey]
      exact Entries.nodup_keys_insert hacc)]
    congr 1
    simp only [Members.insert, Json.Entries.insert_of_not_mem hkey]

theorem ofEntries_entries (m : Members) : Members.ofEntries m.entries = m :=
  foldl_insert m.entries [] m.distinct _

theorem reads_style {m : Members} (hkeyed : ∀ e ∈ m.entries, e.2.Keyed)
    (hdepth : (Value.object m.entries).depth ≤ room) :
    Reads (style room) (Value.object m.entries).chars m.reread := by
  have hobject : (Value.object m.entries).Keyed := by
    rw [Value.Keyed, Value.keyedEntries_iff]
    exact ⟨m.distinct, hkeyed⟩
  intro rest offset hrest
  obtain ⟨offset', h⟩ := (Json.reads_value _ room hobject hdepth).2 rest offset hrest
  refine ⟨offset', ?_⟩
  simp only [style, h, Value.reread, styleOf_object, bind, Except.bind]
  rw [← ofEntries_entries m.reread]
  rfl

theorem steps_contentProperty (room : Nat) (key : String) (x : Option String)
    (put : Option (Option String) → PropsDraft) {get : PropsDraft → Option (Option String)}
    {set : PropsDraft → Option String → PropsDraft}
    (hfind : propsRecord.fields.find? (·.answers key) = some (.slot key [] true get set content))
    (hempty : get (put none) = none) (hset : ∀ b, set (put none) b = put (some b)) :
    Steps (propsRecord.entry room) (put none) (Value.entriesChars (optionalText key x))
      (put (x.map some)) := by
  have hsteps := Json.steps_optional _ room put key id hfind hempty hset fun s (_ : x = some s) =>
    reads_content s
  rwa [Option.map_id_apply, ← optionalEntry_map] at hsteps

theorem steps_shorthandProperty {room : Nat} (key : String) {x : Option Value}
    (hread : ∀ v, x = some v → v.isNull = false ∧ v.Keyed ∧ v.depth ≤ room)
    (put : Option (Option Value) → PropsDraft) {get : PropsDraft → Option (Option Value)}
    {set : PropsDraft → Option Value → PropsDraft}
    (hfind : propsRecord.fields.find? (·.answers key) =
      some (.slot key [] true get set (Json.orNull styleValue)))
    (hempty : get (put none) = none) (hset : ∀ b, set (put none) b = put (some b)) :
    Steps (propsRecord.entry room) (put none) (Value.entriesChars (optionalEntry key x))
      (put ((x.map Value.reread).map some)) := by
  rw [optionalEntry_eq]
  refine Json.steps_optional _ room put key Value.reread hfind hempty hset fun v hv => ?_
  obtain ⟨hnull, hkeyed, hdepth⟩ := hread v hv
  exact reads_shorthand hnull hkeyed hdepth

/-! ## All properties -/

/-- The entries of the content properties. -/
def Props.contentEntries (p : Props) : Entries :=
  optionalText "text" p.text ++ optionalText "placeholder" p.placeholder ++
    optionalText "source" p.source ++ optionalText "url" p.url ++ optionalText "onPress" p.onPress

/-- The draft that they make. -/
def PropsDraft.ofContent (p : Props) : PropsDraft where
  text := p.text.map some
  placeholder := p.placeholder.map some
  source := p.source.map some
  url := p.url.map some
  onPress := p.onPress.map some

theorem steps_content (room : Nat) (p : Props) : Steps (propsRecord.entry room) {}
    (Value.entriesChars p.contentEntries) (.ofContent p) := by
  have htext := steps_contentProperty room "text" p.text ({ text := · }) rfl rfl fun _ => rfl
  have hplaceholder := steps_contentProperty room "placeholder" p.placeholder
    ({ text := p.text.map some, placeholder := · }) rfl rfl fun _ => rfl
  have hsource := steps_contentProperty room "source" p.source
    ({ text := p.text.map some, placeholder := p.placeholder.map some, source := · })
    rfl rfl fun _ => rfl
  have hurl := steps_contentProperty room "url" p.url
    ({ PropsDraft.ofContent p with url := ·, onPress := none }) rfl rfl fun _ => rfl
  have honPress := steps_contentProperty room "onPress" p.onPress
    ({ PropsDraft.ofContent p with onPress := · }) rfl rfl fun _ => rfl
  simp only [Props.contentEntries, Json.entriesChars_append]
  exact (((htext.append hplaceholder).append hsource).append hurl).append honPress

/-- The entries of the shorthands. -/
def Props.shorthandEntries (p : Props) : Entries :=
  optionalEntry "color" p.color ++ optionalEntry "backgroundColor" p.backgroundColor ++
    optionalEntry "fontSize" p.fontSize ++ optionalEntry "borderRadius" p.borderRadius ++
    optionalEntry "padding" p.padding ++ optionalEntry "margin" p.margin

/-- The draft that they make behind the content properties. -/
def PropsDraft.ofShorthands (p : Props) : PropsDraft :=
  { ofContent p with
    color := p.color.map some
    backgroundColor := p.backgroundColor.map some
    fontSize := p.fontSize.map some
    borderRadius := p.borderRadius.map some
    padding := p.padding.map some
    margin := p.margin.map some }

theorem steps_shorthands {p : Props} (hcanonical : p.Canonical)
    (hdepth : ∀ s v, p.stored s = some v → v.depth ≤ room) :
    Steps (propsRecord.entry room) (.ofContent p) (Value.entriesChars p.shorthandEntries)
      (.ofShorthands p.reread) := by
  have hread : ∀ s v, p.stored s = some v → v.isNull = false ∧ v.Keyed ∧ v.depth ≤ room :=
    fun s v h => ⟨hcanonical.stored_ne_null s v h, hcanonical.stored_keyed s v h, hdepth s v h⟩
  have hcolor := steps_shorthandProperty "color" (hread .color)
    ({ PropsDraft.ofContent p with color := · }) rfl rfl fun _ => rfl
  have hbackground := steps_shorthandProperty "backgroundColor" (hread .backgroundColor)
    ({ PropsDraft.ofContent p with color := p.reread.color.map some, backgroundColor := · })
    rfl rfl fun _ => rfl
  have hfontSize := steps_shorthandProperty "fontSize" (hread .fontSize)
    ({ PropsDraft.ofContent p with
        color := p.reread.color.map some
        backgroundColor := p.reread.backgroundColor.map some
        fontSize := · })
    rfl rfl fun _ => rfl
  have hborderRadius := steps_shorthandProperty "borderRadius" (hread .borderRadius)
    ({ PropsDraft.ofShorthands p.reread with borderRadius := ·, padding := none, margin := none })
    rfl rfl fun _ => rfl
  have hpadding := steps_shorthandProperty "padding" (hread .padding)
    ({ PropsDraft.ofShorthands p.reread with padding := ·, margin := none }) rfl rfl fun _ => rfl
  have hmargin := steps_shorthandProperty "margin" (hread .margin)
    ({ PropsDraft.ofShorthands p.reread with margin := · }) rfl rfl fun _ => rfl
  simp only [Props.shorthandEntries, Json.entriesChars_append]
  exact ((((hcolor.append hbackground).append hfontSize).append hborderRadius).append
    hpadding).append hmargin

/-- The entry of the nested style, which is left out if it is empty. -/
def Props.styleEntries (p : Props) : Entries :=
  if p.style.isEmpty then [] else [("style", .object p.style.entries)]

def PropsDraft.ofStyle (p : Props) : PropsDraft :=
  { ofShorthands p with style := if p.style.isEmpty then none else some p.style }

theorem steps_style {p : Props} (hcanonical : p.Canonical)
    (hdepth : p.style.isEmpty = false → (Value.object p.style.entries).depth ≤ room) :
    Steps (propsRecord.entry room) (.ofShorthands p.reread) (Value.entriesChars p.styleEntries)
      (.ofStyle p.reread) := by
  have hagain : p.reread.style.isEmpty = p.style.isEmpty := p.style.isEmpty_reread
  unfold Props.styleEntries PropsDraft.ofStyle
  rw [hagain]
  cases hempty : p.style.isEmpty with
  | true => exact .nil _
  | false =>
    exact Json.steps_slot propsRecord room (.ofShorthands p.reread) "style" rfl rfl
      (reads_style hcanonical.style_keyed (hdepth hempty))

/-- A property without a meaning joins those that are kept. -/
theorem reads_extra {key : String} (hkey : propsRecord.fields.find? (·.answers key) = none)
    (draft : PropsDraft) {v : Value} (hkeyed : v.Keyed) (hdepth : v.depth ≤ room) :
    Reads (propsRecord.entry room key draft) (':' :: v.chars)
      { draft with extra := draft.extra.insert key v.reread } := by
  intro rest offset hrest
  obtain ⟨offset', h⟩ := (Json.reads_value v room hkeyed hdepth).2 rest (offset + 1) hrest
  refine ⟨offset', ?_⟩
  have hothers : propsRecord.others = some _ := rfl
  rw [Json.Record.entry_of_rule hkey hothers, List.cons_append, Json.colon_before]
  simp only [styleValue_eq_value, h, bind, Except.bind]

theorem steps_extra {entries : Entries} (hunknown : ∀ key ∈ Entries.keys entries,
      propsRecord.fields.find? (·.answers key) = none)
    (hkeyed : ∀ e ∈ entries, e.2.Keyed) (hdepth : ∀ e ∈ entries, e.2.depth ≤ room)
    (draft : PropsDraft) : Steps (propsRecord.entry room) draft (Value.entriesChars entries)
      { draft with
        extra := (Value.rereadEntries entries).foldl (fun m e => m.insert e.1 e.2) draft.extra } := by
  induction entries generalizing draft with
  | nil => exact .nil draft
  | cons e rest ih =>
    obtain ⟨key, v⟩ := e
    obtain ⟨hkey, hkeys⟩ := List.forall_mem_cons.1 hunknown
    obtain ⟨hv, hrest⟩ := List.forall_mem_cons.1 hkeyed
    obtain ⟨hv', hrest'⟩ := List.forall_mem_cons.1 hdepth
    exact .cons (reads_extra hkey draft hv hv') (ih hkeys hrest hrest' _)

theorem Props.toJson_eq (p : Props) : p.toJson =
    .object (p.contentEntries ++ (p.shorthandEntries ++ (p.styleEntries ++ p.extra.entries))) := by
  simp only [toJson, contentEntries, shorthandEntries, styleEntries, List.append_assoc]

theorem getD_style (style : Style) :
    (if style.isEmpty then none else some style).getD .empty = style := by
  obtain ⟨entries, hdistinct⟩ := style
  cases entries <;> rfl

theorem finish_ofStyle (p : Props) :
    PropsDraft.finish { PropsDraft.ofStyle p with extra := p.extra } = p := by
  obtain ⟨text, placeholder, source, url, onPress, color, backgroundColor, fontSize, borderRadius,
    padding, margin, style, extra⟩ := p
  simp only [PropsDraft.finish, PropsDraft.ofStyle, PropsDraft.ofShorthands, PropsDraft.ofContent,
    Json.getD_map_some, getD_style]

theorem Props.mem_shorthandEntries (p : Props) {s : Shorthand} {v : Value}
    (hs : p.stored s = some v) : (s.key, v) ∈ p.shorthandEntries := by
  cases s <;>
    simp only [stored] at hs <;>
    simp [shorthandEntries, optionalEntry, Shorthand.key, hs]

theorem Props.exists_stored {p : Props} {e : String × Value} (h : e ∈ p.shorthandEntries) :
    ∃ s v, p.stored s = some v ∧ e = (s.key, v) := by
  simp only [shorthandEntries, optionalEntry_eq, List.mem_append, Option.mem_toList,
    Option.map_eq_some_iff] at h
  rcases h with ((((⟨v, hv, rfl⟩ | ⟨v, hv, rfl⟩) | ⟨v, hv, rfl⟩) | ⟨v, hv, rfl⟩) | ⟨v, hv, rfl⟩) |
    ⟨v, hv, rfl⟩
  · exact ⟨.color, v, hv, rfl⟩
  · exact ⟨.backgroundColor, v, hv, rfl⟩
  · exact ⟨.fontSize, v, hv, rfl⟩
  · exact ⟨.borderRadius, v, hv, rfl⟩
  · exact ⟨.padding, v, hv, rfl⟩
  · exact ⟨.margin, v, hv, rfl⟩

theorem Props.depth_contentEntries (p : Props) {e : String × Value} (h : e ∈ p.contentEntries) :
    e.2.depth = 0 := by
  have htext : ∀ (key : String) (x : Option String), e ∈ optionalText key x → e.2.depth = 0 := by
    intro key x he
    rw [optionalText, optionalEntry_map, Option.mem_toList, Option.map_eq_some_iff] at he
    obtain ⟨s, -, rfl⟩ := he
    rfl
  simp only [contentEntries, List.mem_append] at h
  rcases h with (((h | h) | h) | h) | h <;> exact htext _ _ h

/-- The properties of a component are read from their text. -/
theorem reads_props {p : Props} (hcanonical : p.Canonical) (hdepth : p.toJson.depth ≤ room) :
    Reads (propsRecord.decoder room) p.toJson.chars p.reread := by
  rw [Props.toJson_eq] at hdepth ⊢
  obtain ⟨inner, rfl, hentries⟩ := Value.exists_room_of_object hdepth
  simp only [List.forall_mem_append] at hentries
  obtain ⟨-, hshorthands, hstyle, hextra⟩ := hentries
  have hnested : p.style.isEmpty = false → (Value.object p.style.entries).depth ≤ inner := by
    intro hempty
    refine hstyle ("style", _) ?_
    simp [Props.styleEntries, hempty]
  have hstored : ∀ s v, p.stored s = some v → v.depth ≤ inner :=
    fun s v hs => hshorthands (s.key, v) (p.mem_shorthandEntries hs)
  have hsteps := (steps_content inner p).append
    ((steps_shorthands hcanonical hstored).append
      ((steps_style hcanonical hnested).append
        (steps_extra hcanonical.extra_unknown hcanonical.extra_keyed hextra (.ofStyle p.reread))))
  simp only [← Json.entriesChars_append] at hsteps
  have hextras : (Value.rereadEntries p.extra.entries).foldl (fun m e => m.insert e.1 e.2)
      (PropsDraft.ofStyle p.reread).extra = p.reread.extra := ofEntries_entries p.reread.extra
  rw [hextras] at hsteps
  rw [Value.chars]
  exact Json.reads_record hsteps (congrArg some (finish_ofStyle p.reread))

theorem Props.reread_eq_self {p : Props} (h : ∀ x ∈ p.toJson.floats, x.ReadsBack) :
    p.reread = p := by
  rw [Props.toJson_eq, Value.floats] at h
  have hentries : ∀ e ∈ p.contentEntries ++ (p.shorthandEntries ++ (p.styleEntries ++
      p.extra.entries)), ∀ x ∈ e.2.floats, x.ReadsBack := fun e he x hx =>
    h x (Value.mem_floatsEntries.2 ⟨e, he, hx⟩)
  simp only [List.forall_mem_append] at hentries
  obtain ⟨-, hshorthands, hstyle, hextra⟩ := hentries
  have hstored : ∀ s, (p.stored s).map Value.reread = p.stored s := by
    intro s
    cases hs : p.stored s with
    | none => rfl
    | some v =>
      exact congrArg some (Value.reread_eq_self v (hshorthands _ (p.mem_shorthandEntries hs)))
  have hnested : p.style.reread = p.style := Members.reread_eq_self fun x hx => by
    have hpresent : p.style.isEmpty = false := by
      refine Bool.eq_false_iff.2 fun hempty => ?_
      rw [List.isEmpty_iff.1 hempty, Value.floatsEntries] at hx
      exact absurd hx List.not_mem_nil
    refine hstyle ("style", .object p.style.entries) ?_ x (by rwa [Value.floats])
    simp [styleEntries, hpresent]
  have hothers : p.extra.reread = p.extra := Members.reread_eq_self fun x hx => by
    obtain ⟨e, he, hx⟩ := Value.mem_floatsEntries.1 hx
    exact hextra e he x hx
  have hcolor := hstored .color
  have hbackground := hstored .backgroundColor
  have hfontSize := hstored .fontSize
  have hborderRadius := hstored .borderRadius
  have hpadding := hstored .padding
  have hmargin := hstored .margin
  simp only [stored] at hcolor hbackground hfontSize hborderRadius hpadding hmargin
  simp only [reread, hnested, hothers, hcolor, hbackground, hfontSize, hborderRadius, hpadding,
    hmargin]

end AppExport.Component
