/-
The readers of values are exact: texts, numbers, choices, lists and values of any kind. Each decides
by the first glyph that is no blank, which the value itself has to begin with.
-/
import AppExport.Json.Typed
import AppExport.Proofs.Json.Exact.Loop

namespace AppExport.Json

open Decimal (Binary64 isDigit)
open Text (Glyph)

variable {α β : Type} {room : Nat}

/-! ## Combinations -/

theorem Exact.congr {reader reader' : Reader α} {P : List Glyph → Prop} (h : Exact reader P)
    (heq : ∀ c, reader' c = reader c) : Exact reader' P :=
  (funext heq : reader' = reader) ▸ h

theorem Exact.map {reader : Reader α} {P : List Glyph → Prop} (f : α → β) (h : Exact reader P) :
    Exact (fun c => (reader c).map fun read => (f read.1, read.2)) P := by
  intro c b behind hread hbehind
  obtain ⟨⟨a, c'⟩, hreader, hb⟩ := map_eq_ok_iff.1 hread
  cases hb
  obtain ⟨taken, hc, htaken, htakes⟩ := h hreader hbehind
  refine ⟨taken, hc, htaken, fun rest hrest offset => ?_⟩
  obtain ⟨offset', hagain⟩ := htakes rest hrest offset
  exact ⟨offset', by simp only [hagain]; rfl⟩

/-- A check of what has been read takes nothing. -/
theorem Exact.check {reader : Reader α} {P : List Glyph → Prop} (h : Exact reader P)
    {check : α → Reader β}
    (hcheck : ∀ a, (∃ b, ∀ c, check a c = .ok (b, c)) ∨ ∀ c, ∃ fault, check a c = .error fault) :
    Exact (fun c => reader c >>= fun read => check read.1 read.2) P := by
  intro c b behind hread hbehind
  obtain ⟨⟨a, c'⟩, hreader, hb⟩ := bind_eq_ok_iff.1 hread
  obtain ⟨b', hok⟩ | herror := hcheck a
  · simp only [hok] at hb
    cases hb
    obtain ⟨taken, hc, htaken, htakes⟩ := h hreader hbehind
    refine ⟨taken, hc, htaken, fun rest hrest offset => ?_⟩
    obtain ⟨offset', hagain⟩ := htakes rest hrest offset
    exact ⟨offset', by simp only [hagain, bind, Except.bind, hok]⟩
  · obtain ⟨fault, hfault⟩ := herror c'
    simp only [hfault] at hb
    cases hb

theorem Cursor.skipBlanks_skipBlanks (c : Cursor) : c.skipBlanks.skipBlanks = c.skipBlanks := by
  obtain ⟨-, -, -, hsolid⟩ := c.exists_blanks
  exact skipBlanks_of_solid hsolid

/-- A reader that passes blanks first need only be looked at where there are none. -/
theorem exact_of_solid {reader : Reader α} (hblanks : ∀ c, reader c = reader c.skipBlanks)
    (h : ∀ ⦃c a behind⦄, Solid c.rest → reader c = .ok (a, behind) → Ends behind.rest →
      ∃ taken, c.rest = taken ++ behind.rest ∧ IsValue taken ∧ Takes reader taken a) :
    Exact reader IsSpaced := by
  intro c a behind hread hbehind
  obtain ⟨blanks, hisBlanks, hc, hsolid⟩ := c.exists_blanks
  rw [hblanks] at hread
  obtain ⟨v, hrest, hv, htakes⟩ := h hsolid hread hbehind
  refine ⟨blanks ++ v, by rw [hc, hrest, List.append_assoc], ⟨blanks, v, rfl, hisBlanks, hv⟩, ?_⟩
  intro rest hends offset
  obtain ⟨g, gs, rfl, hg⟩ := hv.exists_cons
  have hsolid' : Solid (g :: gs ++ rest) := solid_cons.2 (isBlank_of_isOpening hg)
  rw [hblanks, List.append_assoc, Cursor.skipBlanks_append hisBlanks hsolid']
  exact htakes rest hends _

theorem comes_append {blanks : List Glyph} (hblanks : Blanks blanks) {g : Glyph}
    (hg : Cursor.isBlank g = false) (x : Char) (gs : List Glyph) (offset : Nat) :
    comes x ⟨blanks ++ g :: gs, offset⟩ = decide (g = .char x) := by
  rw [comes, Cursor.skipBlanks_append hblanks (solid_cons.2 hg)]
  simp

/-- Which glyph comes next does not depend on what is behind a value. -/
theorem comes_spaced {taken : List Glyph} (h : IsSpaced taken) (x : Char) (rest rest' : List Glyph)
    (offset offset' : Nat) :
    comes x ⟨taken ++ rest, offset⟩ = comes x ⟨taken ++ rest', offset'⟩ := by
  obtain ⟨blanks, v, rfl, hblanks, hv⟩ := h
  obtain ⟨g, gs, rfl, hg⟩ := hv.exists_cons
  have hblank := isBlank_of_isOpening hg
  rw [List.append_assoc, List.append_assoc, List.cons_append, List.cons_append,
    comes_append hblanks hblank, comes_append hblanks hblank]

/-- A choice between readers by the glyph that comes next. -/
theorem exact_ite_comes {reader otherwise : Reader α} {P : List Glyph → Prop} (x : Char)
    (hP : ∀ gs, P gs → IsSpaced gs) (h : Exact reader P) (hotherwise : Exact otherwise P) :
    Exact (fun c => if comes x c then reader c else otherwise c) P := by
  rintro ⟨text, offset⟩ a behind hread hbehind
  cases hcomes : comes x ⟨text, offset⟩ with
  | true =>
    simp only [hcomes, if_true] at hread
    obtain ⟨taken, rfl, htaken, htakes⟩ := h hread hbehind
    refine ⟨taken, rfl, htaken, fun rest hrest offset' => ?_⟩
    rw [comes_spaced (hP taken htaken) x _ rest offset offset'] at hcomes
    simp only [hcomes, if_true]
    exact htakes rest hrest offset'
  | false =>
    simp only [hcomes, Bool.false_eq_true, if_false] at hread
    obtain ⟨taken, rfl, htaken, htakes⟩ := hotherwise hread hbehind
    refine ⟨taken, rfl, htaken, fun rest hrest offset' => ?_⟩
    rw [comes_spaced (hP taken htaken) x _ rest offset offset'] at hcomes
    simp only [hcomes, Bool.false_eq_true, if_false]
    exact htakes rest hrest offset'

/-- What a glyph leads, blanks before it included. -/
inductive IsLed (x : Char) (P : List Glyph → Prop) : List Glyph → Prop
  | mk {blanks gs : List Glyph} (hblanks : Blanks blanks) (h : P gs) :
    IsLed x P (blanks ++ .char x :: gs)

theorem IsLed.spaced {x : Char} {P : List Glyph → Prop} (hP : ∀ gs, P gs → IsValue (.char x :: gs))
    (gs : List Glyph) (h : IsLed x P gs) : IsSpaced gs := by
  obtain ⟨hblanks, h⟩ := h
  exact ⟨_, _, rfl, hblanks, hP _ h⟩

/-- The reader of what a glyph leads, as far as it applies. -/
def behindGlyph (x : Char) (body : Reader α) : Reader α := fun c =>
  if comes x c then body c.skipBlanks.next else .error (c.fault .endInValue)

theorem exact_behindGlyph {x : Char} (hx : Cursor.isBlank (.char x) = false) {body : Reader α}
    {P : List Glyph → Prop} (hbody : Exact body P) : Exact (behindGlyph x body) (IsLed x P) := by
  intro c a behind hread hbehind
  obtain ⟨blanks, hblanks, hc, hsolid⟩ := c.exists_blanks
  rw [behindGlyph] at hread
  split at hread
  next hcomes =>
    rw [comes, decide_eq_true_eq] at hcomes
    obtain ⟨gs, hgs⟩ := List.head?_eq_some_iff.1 hcomes
    obtain ⟨taken, hnext, htaken, htakes⟩ := hbody hread hbehind
    rw [Cursor.next, hgs] at hnext
    refine ⟨blanks ++ .char x :: taken, ?_, .mk hblanks htaken, fun rest hrest offset => ?_⟩
    · rw [hc, hgs, List.append_assoc]
      exact congrArg (blanks ++ .char x :: ·) hnext
    · have hsolid' : Solid (.char x :: (taken ++ rest)) := solid_cons.2 hx
      rw [List.append_assoc, List.cons_append, behindGlyph, comes_append hblanks hx,
        Cursor.skipBlanks_append hblanks hsolid', Cursor.next_cons, if_pos (by simp)]
      exact htakes rest hrest _
  next => cases hread

theorem ite_comes_eq (x : Char) (body otherwise : Reader α) :
    (fun c => if comes x c then body c.skipBlanks.next else otherwise c) =
      fun c => if comes x c then behindGlyph x body c else otherwise c := by
  funext c
  split
  next hcomes => rw [behindGlyph, if_pos hcomes]
  next => rfl

theorem Exact.mono {reader : Reader α} {P Q : List Glyph → Prop} (h : Exact reader P)
    (hPQ : ∀ gs, P gs → Q gs) : Exact reader Q := by
  intro c a behind hread hbehind
  obtain ⟨taken, hc, htaken, htakes⟩ := h hread hbehind
  exact ⟨taken, hc, hPQ taken htaken, htakes⟩

/-- A reader of what a glyph leads, or else of something else. -/
theorem exact_comes {x : Char} {body otherwise : Reader α} {P : List Glyph → Prop}
    (hbody : Exact body P) (hx : Cursor.isBlank (.char x) = false)
    (hP : ∀ gs, P gs → IsValue (.char x :: gs)) (hotherwise : Exact otherwise IsSpaced) :
    Exact (fun c => if comes x c then body c.skipBlanks.next else otherwise c) IsSpaced := by
  rw [ite_comes_eq]
  have hled := (exact_behindGlyph hx hbody).mono (IsLed.spaced hP)
  exact exact_ite_comes x (fun _ => id) hled hotherwise

theorem exact_refuse (expected : String) (P : List Glyph → Prop) :
    Exact (refuse (α := α) expected) P :=
  fun _ _ _ hread => absurd (refuse_gives expected (fun _ => False) hread) id

/-! ## Texts, numbers, options and lists -/

/-- A text with blanks before it. -/
abbrev IsText : List Glyph → Prop := IsLed '"' IsQuoted

theorem IsLed.text {gs : List Glyph} (h : IsText gs) : IsSpaced gs := IsLed.spaced (fun _ => .text) gs h

theorem exact_text_led (expected : String) : Exact (text expected) IsText :=
  (exact_ite_comes '"' (fun _ => IsLed.text) (exact_behindGlyph (by decide) exact_textBody)
    (exact_refuse expected _)).congr fun c => congrFun (ite_comes_eq '"' textBody (refuse expected)) c

theorem exact_text (expected : String) : Exact (text expected) IsSpaced :=
  (exact_text_led expected).mono fun _ => IsLed.text

theorem exact_word (letters : List Char) : Exact (word letters) (· = letters.map .char) := by
  intro c a behind h _
  exact ⟨_, rest_of_word h, rfl, fun rest _ => word_append letters rest⟩

theorem exact_null (expected : String) : Exact (null expected) IsSpaced := by
  refine exact_comes (exact_word ['u', 'l', 'l']) (by decide) ?_ (exact_refuse expected _)
  rintro gs rfl
  exact isValue_word (by decide)

/-- What has been read, in another form. -/
theorem Exact.bind_ok {reader : Reader α} {P : List Glyph → Prop} (h : Exact reader P) (f : α → β) :
    Exact (fun c => reader c >>= fun read => .ok (f read.1, read.2)) P :=
  (h.map f).congr fun c => by cases reader c <;> rfl

theorem exact_orNull {decoder : Decoder α} (h : Exact (decoder room) IsSpaced) :
    Exact (orNull decoder room) IsSpaced :=
  exact_ite_comes 'n' (fun _ => id) ((exact_null "").bind_ok fun _ => none) (h.bind_ok some)

theorem exact_error (fault : Cursor → Fault) (P : List Glyph → Prop) :
    Exact (fun c => (.error (fault c) : Except Fault (α × Cursor))) P :=
  fun _ _ _ hread => nomatch hread

/-- What stands in brackets, if there is room for them, or else something else. -/
theorem exact_enter (body : Decoder α) {x : Char} {otherwise : Reader α} {P : List Glyph → Prop}
    (hbody : ∀ room, Exact (body room) P) (hx : Cursor.isBlank (.char x) = false)
    (hP : ∀ gs, P gs → IsValue (.char x :: gs)) (hotherwise : Exact otherwise IsSpaced)
    (room : Nat) :
    Exact (fun c => if comes x c then enter room c.skipBlanks >>= fun inner => body inner.1 inner.2
      else otherwise c) IsSpaced := by
  cases room with
  | zero => exact exact_ite_comes x (fun _ => id) (exact_error _ _) hotherwise
  | succ room => exact exact_comes (hbody room) hx hP hotherwise

theorem exact_listOf {expected : String} {item : Decoder α} (h : ∀ room, Exact (item room) IsSpaced)
    (room : Nat) : Exact (listOf expected item room) IsSpaced :=
  exact_enter (fun room => items (item room)) (fun room => exact_items (h room)) (by decide)
    (fun _ => .list) (exact_refuse expected _) room

/-- A number that begins with a digit. -/
theorem exact_natural {otherwise : Reader Number} (hotherwise : ∀ c read, otherwise c ≠ .ok read) :
    Exact (fun c => if (c.skipBlanks.rest.head?.bind Glyph.digit?).isSome
      then numberBody false c.skipBlanks else otherwise c) IsSpaced := by
  intro c n behind hread hbehind
  obtain ⟨blanks, hblanks, hc, -⟩ := c.exists_blanks
  beta_reduce at hread
  split at hread
  next hdigit =>
    obtain ⟨taken, hrest, htaken, htakes⟩ := exact_numberBody false hread hbehind
    refine ⟨blanks ++ taken, by rw [hc, hrest, List.append_assoc],
      ⟨blanks, taken, rfl, hblanks, .natural htaken⟩, fun rest hends offset => ?_⟩
    obtain ⟨g, gs, rfl, hg⟩ := htaken.exists_cons
    have hsolid' : Solid (g :: gs ++ rest) :=
      solid_cons.2 (isBlank_of_isOpening (isOpening_of_digit hg))
    simp only [List.append_assoc, Cursor.skipBlanks_append hblanks hsolid']
    rw [if_pos (by simpa using hg)]
    exact htakes rest hends _
  next => exact absurd hread (hotherwise c _)

theorem refuse_ne_ok (expected : String) (c : Cursor) (read : α × Cursor) :
    refuse expected c ≠ .ok read :=
  fun h => refuse_gives expected (fun _ => False) h

theorem comes_skipBlanks (x : Char) (c : Cursor) : comes x c.skipBlanks = comes x c := by
  obtain ⟨-, -, -, hsolid⟩ := c.exists_blanks
  rw [comes, comes, Cursor.skipBlanks_of_solid hsolid]

theorem exact_number (expected : String) : Exact (number expected) IsSpaced := by
  have hexact := exact_comes (x := '-') (exact_numberBody true) (by decide) (fun _ => .negative)
    (exact_natural fun c => refuse_ne_ok expected c.skipBlanks)
  refine hexact.congr fun c => ?_
  simp only [number, comes_skipBlanks]

/-- The natural of 32 bits that a number is. -/
def uint32Of (n : Number) : Reader UInt32 := fun c =>
  match n with
  | .integer i _ _ =>
    if 0 ≤ i ∧ i < 0x1_0000_0000 then .ok (UInt32.ofNat i.toNat, c)
    else .error (c.fault (.outOfRange i "u32"))
  | .float x => .error (c.fault (.wrongKind (.number (.float x)) "u32"))

theorem uint32_eq (c : Cursor) :
    uint32 c = number "u32" c >>= fun read => uint32Of read.1 read.2 := by
  rw [uint32]
  cases number "u32" c with
  | error fault => rfl
  | ok read =>
    obtain ⟨n, behind⟩ := read
    cases n <;> rfl

theorem exact_uint32 : Exact uint32 IsSpaced := by
  refine ((exact_number "u32").check fun n => ?_).congr uint32_eq
  cases n with
  | float x => exact .inr fun c => ⟨_, rfl⟩
  | integer i _ _ =>
    by_cases hrange : 0 ≤ i ∧ i < 0x1_0000_0000
    · exact .inl ⟨_, fun c => if_pos hrange⟩
    · exact .inr fun c => ⟨_, if_neg hrange⟩

theorem exact_binary64 : Exact binary64 IsSpaced :=
  (exact_number "f64").bind_ok Number.toBinary64

/-! ## Values of any kind -/

theorem exact_entryOf {value : Reader Value} (h : Exact value IsSpaced) (key : String)
    (acc : Entries) : Exact (entryOf value key acc) IsColoned :=
  exact_colon (h.bind_ok fun v => acc.insert key v)

/-- What is read behind a glyph, once it has been seen. -/
theorem exact_lead {body : Reader β} {P : List Glyph → Prop} (hbody : Exact body P) {g : Glyph}
    (hP : ∀ gs, P gs → IsValue (g :: gs)) (f : β → α) {reader : Reader α}
    (hlead : ∀ gs offset, reader ⟨g :: gs, offset⟩ =
      (body ⟨gs, offset + g.size⟩).map fun read => (f read.1, read.2)) {gs : List Glyph}
    {offset : Nat} {a : α} {behind : Cursor} (h : reader ⟨g :: gs, offset⟩ = .ok (a, behind))
    (hbehind : Ends behind.rest) :
    ∃ taken, g :: gs = taken ++ behind.rest ∧ IsValue taken ∧ Takes reader taken a := by
  rw [hlead] at h
  obtain ⟨⟨b, c'⟩, hread, ha⟩ := map_eq_ok_iff.1 h
  cases ha
  obtain ⟨taken, hgs, htaken, htakes⟩ := hbody hread hbehind
  refine ⟨g :: taken, congrArg _ hgs, hP taken htaken, fun rest hrest offset' => ?_⟩
  obtain ⟨offset'', hagain⟩ := htakes rest hrest (offset' + g.size)
  exact ⟨offset'', by rw [List.cons_append, hlead, hagain]; rfl⟩

theorem valueWith_skipBlanks (inner : Option (Reader Value)) (c : Cursor) :
    valueWith inner c.skipBlanks = valueWith inner c := by
  obtain ⟨-, -, -, hsolid⟩ := c.exists_blanks
  unfold valueWith
  rw [Cursor.skipBlanks_of_solid hsolid]

theorem valueWith_digit (inner : Option (Reader Value)) {g : Glyph} (hg : g.digit?.isSome = true)
    (gs : List Glyph) (offset : Nat) : valueWith inner ⟨g :: gs, offset⟩ =
      (numberBody false ⟨g :: gs, offset⟩).map fun read => (.number read.1, read.2) := by
  have hsolid : Solid (g :: gs) := solid_cons.2 (isBlank_of_isOpening (isOpening_of_digit hg))
  have hne : ∀ x : Char, isDigit x = false → g ≠ .char x := fun _ => ne_of_digit hg
  unfold valueWith
  rw [Cursor.skipBlanks_of_solid hsolid]
  simp only [hne 'n' (by decide), hne 't' (by decide), hne 'f' (by decide), hne '-' (by decide),
    if_false, hg, if_true]

theorem exact_valueWith {inner : Option (Reader Value)}
    (h : ∀ value, inner = some value → Exact value IsSpaced) : Exact (valueWith inner) IsSpaced := by
  refine exact_of_solid (fun c => (valueWith_skipBlanks inner c).symm)
    fun c a behind hsolid hread hbehind => ?_
  obtain ⟨text, offset⟩ := c
  cases text with
  | nil => cases hread
  | cons g gs =>
    have hword : ∀ letter letters, String.ofList (letter :: letters) ∈ ["null", "true", "false"] →
        ∀ gs : List Glyph, gs = letters.map .char → IsValue (.char letter :: gs) :=
      fun _ _ hmem gs hgs => hgs ▸ isValue_word hmem
    by_cases hnull : g = .char 'n'
    · subst hnull
      exact exact_lead (exact_word ['u', 'l', 'l']) (hword 'n' _ (by decide)) (fun _ => .null)
        (fun _ _ => rfl) hread hbehind
    by_cases htrue : g = .char 't'
    · subst htrue
      exact exact_lead (exact_word ['r', 'u', 'e']) (hword 't' _ (by decide)) (fun _ => .bool true)
        (fun _ _ => rfl) hread hbehind
    by_cases hfalse : g = .char 'f'
    · subst hfalse
      exact exact_lead (exact_word ['a', 'l', 's', 'e']) (hword 'f' _ (by decide))
        (fun _ => .bool false) (fun _ _ => rfl) hread hbehind
    by_cases hminus : g = .char '-'
    · subst hminus
      exact exact_lead (exact_numberBody true) (fun _ => .negative) .number (fun _ _ => rfl) hread
        hbehind
    by_cases hdigit : g.digit?.isSome = true
    · rw [valueWith_digit inner hdigit] at hread
      obtain ⟨⟨n, c'⟩, hnumber, hn⟩ := map_eq_ok_iff.1 hread
      cases hn
      obtain ⟨taken, hgs, htaken, htakes⟩ := exact_numberBody false hnumber hbehind
      refine ⟨taken, hgs, .natural htaken, fun rest hrest offset' => ?_⟩
      obtain ⟨x, xs, rfl, hx⟩ := htaken.exists_cons
      obtain ⟨offset'', hagain⟩ := htakes rest hrest offset'
      rw [List.cons_append] at hagain
      exact ⟨offset'', by rw [List.cons_append, valueWith_digit inner hx, hagain]; rfl⟩
    by_cases htext : g = .char '"'
    · subst htext
      exact exact_lead exact_textBody (fun _ => .text) .text (fun _ _ => rfl) hread hbehind
    by_cases hlist : g = .char '['
    · subst hlist
      cases inner with
      | none => cases hread
      | some value =>
        exact exact_lead (exact_items (h value rfl)) (fun _ => .list) .list (fun _ _ => rfl) hread
          hbehind
    by_cases hobject : g = .char '\x7b'
    · subst hobject
      cases inner with
      | none => cases hread
      | some value =>
        exact exact_lead (exact_entries (exact_entryOf (h value rfl)) []) (fun _ => .object) .object
          (fun _ _ => rfl) hread hbehind
    · unfold valueWith at hread
      rw [Cursor.skipBlanks_of_solid hsolid] at hread
      simp only [hnull, htrue, hfalse, hminus, hdigit, htext, hlist, hobject, if_false] at hread
      cases hread

theorem exact_value : ∀ room : Nat, Exact (value room) IsSpaced
  | 0 => exact_valueWith nofun
  | room + 1 => exact_valueWith fun _ h => Option.some.inj h ▸ exact_value room

end AppExport.Json
