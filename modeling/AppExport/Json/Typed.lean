/-
Decoders of texts, numbers, choices, lists and records. Each says what it expects; a value of
another kind is read as far as its message needs and then refused: a scalar whole, a list or an
object not at all.
-/
import AppExport.Json.Reader

namespace AppExport.Json

open Text (Glyph)
open Decimal (Binary64)

/-- The refusal of the value that comes next. -/
def refuse {α : Type} (expected : String) : Reader α := fun c =>
  let c := c.skipBlanks
  let wrong (found : Found) (c : Cursor) : Except Fault (α × Cursor) :=
    .error (c.fault (.wrongKind found expected))
  match c.rest with
  | [] => .error (c.fault .endInValue)
  | g :: _ =>
    if g = .char '[' then wrong .list c
    else if g = .char '\x7b' then wrong .object c
    else do
      match ← valueWith none c with
      | (.bool b, c) => wrong (.bool b) c
      | (.number n, c) => wrong (.number n) c
      | (.text s, c) => wrong (.text s) c
      | (_, c) => wrong .null c

/-- Whether a glyph comes next, blanks aside. -/
def comes (g : Char) (c : Cursor) : Bool := c.skipBlanks.rest.head? = some (.char g)

def text (expected : String) : Reader String := fun c =>
  if comes '"' c then textBody c.skipBlanks.next else refuse expected c

def number (expected : String) : Reader Number := fun c =>
  let c := c.skipBlanks
  if comes '-' c then numberBody true c.next
  else if (c.rest.head?.bind Glyph.digit?).isSome then numberBody false c
  else refuse expected c

def uint32 : Reader UInt32 := fun c => do
  match ← number "u32" c with
  | (.integer i _ _, c) =>
    if 0 ≤ i ∧ i < 0x1_0000_0000 then .ok (UInt32.ofNat i.toNat, c)
    else .error (c.fault (.outOfRange i "u32"))
  | (.float x, c) => .error (c.fault (.wrongKind (.number (.float x)) "u32"))

/-- The nearest binary64 number; integers of 64 bits all have one. -/
def Number.toBinary64 : Number → Binary64
  | .float x => x
  | .integer i _ _ =>
    let x := (Binary64.ofNat? i.natAbs).getD (.zero false)
    if i < 0 then x.negate else x

def binary64 : Reader Binary64 := fun c => do
  let (n, c) ← number "f64" c
  .ok (n.toBinary64, c)

def null (expected : String) : Reader Unit := fun c =>
  if comes 'n' c then word ['u', 'l', 'l'] c.skipBlanks.next else refuse expected c

/-- A value, or nothing for null. -/
def orNull {α : Type} (decoder : Decoder α) : Decoder (Option α) := fun room c =>
  if comes 'n' c then do
    let ((), c) ← null "" c
    .ok (none, c)
  else do
    let (a, c) ← decoder room c
    .ok (some a, c)

/-- The cursor behind an opening bracket and the room within. -/
def enter (room : Nat) (c : Cursor) : Except Fault (Nat × Cursor) :=
  match room with
  | 0 => .error (c.faultAhead .tooDeep)
  | room + 1 => .ok (room, c.next)

def listOf {α : Type} (expected : String) (item : Decoder α) : Decoder (List α) := fun room c => do
  if comes '[' c then
    let (room, c) ← enter room c.skipBlanks
    items (item room) c
  else refuse expected c

def objectOf (expected : String) : Decoder Entries := fun room c => do
  if comes '\x7b' c then
    let (room, c) ← enter room c.skipBlanks
    entries (entryOf (value room)) [] c
  else refuse expected c

/-! ## Choices -/

/-- The value a name stands for. -/
def named {α : Type} (choices : List (String × α)) (name : String) : Except Cause α :=
  match choices.lookup name with
  | some a => .ok a
  | none => .error (.unknownName name (choices.map Prod.fst))

/-- A name among several, as a text or as the only key of an object, whose value is null. -/
def choice {α : Type} (choices : List (String × α)) : Decoder α := fun room c => do
  let name (c : Cursor) : Except Fault (α × Cursor) := do
    let (s, c) ← text "variant identifier" c
    match named choices s with
    | .ok a => .ok (a, c)
    | .error cause => .error (c.fault cause)
  let c := c.skipBlanks
  match c.rest with
  | [] => .error (c.fault .endInValue)
  | g :: _ =>
    if g = .char '"' then name c
    else if g = .char '\x7b' then
      let (_, c) ← enter room c
      let (a, c) ← name c
      let ((), c) ← colon c
      let ((), c) ← null "unit" c
      let c := c.skipBlanks
      match c.rest with
      | [] => .error (c.fault .endInObject)
      | g :: _ => if g = .char '\x7d' then .ok (a, c.next) else .error (c.fault .expectedValue)
    else .error (c.faultAhead .expectedValue)

/-! ## Records -/

/-- One field of a record that is being read into a `σ`. -/
structure Field (σ : Type) where
  name : String
  /-- Other keys for the same field. -/
  aliases : List String
  /-- Whether the record may lack the field. -/
  optional : Bool
  given : σ → Bool
  read : σ → Decoder σ

/-- A field kept in one slot of a draft. -/
def Field.slot {σ α : Type} (name : String) (aliases : List String) (optional : Bool)
    (get : σ → Option α) (set : σ → α → σ) (decoder : Decoder α) : Field σ where
  name := name
  aliases := aliases
  optional := optional
  given draft := (get draft).isSome
  read draft room c := do
    let (a, c) ← decoder room c
    .ok (set draft a, c)

def Field.answers {σ : Type} (field : Field σ) (key : String) : Bool :=
  field.name == key || field.aliases.contains key

structure Record (σ α : Type) where
  /-- What a message calls the record. -/
  label : String
  fields : List (Field σ)
  /-- What is done with the value of a key that no field has; without a rule it is skipped. -/
  others : Option (String → σ → Decoder σ)
  /-- Whether a list of the fields in order stands for the record too. -/
  positional : Bool
  start : σ
  finish : σ → Option α

namespace Record

variable {σ α : Type}

/-- An entry of the record; a second one for the same field is refused. -/
def entry (r : Record σ α) (room : Nat) (key : String) (draft : σ) : Reader σ := fun c =>
  match r.fields.find? (·.answers key) with
  | some field =>
    if field.given draft then
      .error ((c.pastClosing '\x7d').fault (.repeatedField field.name))
    else do
      let ((), c) ← colon c
      field.read draft room c
  | none => do
    let ((), c) ← colon c
    match r.others with
    | some rule => rule key draft room c
    | none => .ok (draft, ← skipValue c)

/-- The finished record, or the first field it lacks. -/
def complete (r : Record σ α) (draft : σ) : Reader α := fun c =>
  match r.finish draft with
  | some a => .ok (a, c)
  | none =>
    let missing := r.fields.find? fun field => !field.optional && !field.given draft
    .error (c.fault (.missingField ((missing.map Field.name).getD "")))

def lengthText (r : Record σ α) : String :=
  r.label ++ " with " ++ toString r.fields.length ++ " elements"

/-- The fields from the one at `index` on, as items of a list. -/
def itemsOf (r : Record σ α) (room : Nat) :
    (index : Nat) → List (Field σ) → σ → Reader σ
  | _, [], draft, c => .ok (draft, c)
  | index, field :: rest, draft, c => do
    match ← nextItem (index = 0) c with
    | (some c, _) =>
      let (draft, c) ← field.read draft room c
      itemsOf r room (index + 1) rest draft c
    | (none, c) =>
      if field.optional then itemsOf r room index rest draft c
      else .error (c.next.fault (.wrongLength (r.fields.length - rest.length - 1) r.lengthText))

/-- The closing bracket behind the last field. -/
def closeList (c : Cursor) : Except Fault Cursor :=
  let c := c.skipBlanks
  match c.rest with
  | [] => .error (c.fault .endInList)
  | g :: _ =>
    if g = .char ']' then .ok c.next
    else if g = .char ',' then
      let c := c.next.skipBlanks
      .error (c.faultAhead (if comes ']' c then .trailingComma else .trailingInput))
    else .error (c.faultAhead .trailingInput)

def decoder (r : Record σ α) : Decoder α := fun room c => do
  if comes '\x7b' c then
    let (room, c) ← enter room c.skipBlanks
    let (draft, c) ← entries (r.entry room) r.start c
    r.complete draft c
  else if r.positional ∧ comes '[' c then
    let (room, c) ← enter room c.skipBlanks
    let (draft, c) ← r.itemsOf room 0 r.fields r.start c
    let c ← closeList c
    r.complete draft c
  else refuse r.label c

end Record
end AppExport.Json
