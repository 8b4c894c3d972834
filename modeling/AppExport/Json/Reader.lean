/-
Readers of values. Lists and objects are read by loops that know nothing of what they hold, so the
readers of typed documents share them. `room` is the number of brackets that may still be opened;
a whole text starts with 127.
-/
import AppExport.Json.Members
import AppExport.Json.Skip

namespace AppExport.Json

open Text (Glyph glyphsOfString)
open Decimal (Binary64)

/-- A reader that may open `room` brackets. -/
abbrev Decoder (α : Type) := (room : Nat) → Reader α

/-! ## Loops -/

/-- The cursor before the next item of a list, or none before its closing bracket. -/
def nextItem (first : Bool) (c : Cursor) : Except Fault (Option Cursor × Cursor) :=
  let c := c.skipBlanks
  match c.rest with
  | [] => .error (c.fault .endInList)
  | g :: _ =>
    if g = .char ']' then .ok (none, c)
    else if first then .ok (some c, c)
    else if g = .char ',' then
      let c := c.next.skipBlanks
      match c.rest with
      | [] => .error (c.fault .endInValue)
      | g :: _ =>
        if g = .char ']' then .error (c.faultAhead .trailingComma) else .ok (some c, c)
    else .error (c.faultAhead .expectedListEnd)

/-- The items of a list whose bracket has been opened, and the cursor behind its closing one. Every
round reads a glyph. -/
def itemsFrom {α : Type} (item : Reader α) : (rounds : Nat) → (first : Bool) → Reader (List α)
  | 0, _, c => .error (c.fault .endInList)
  | rounds + 1, first, c => do
    match ← nextItem first c with
    | (none, c) => .ok ([], c.next)
    | (some c, _) =>
      let (a, c) ← item c
      let (rest, c) ← itemsFrom item rounds false c
      .ok (a :: rest, c)

def items {α : Type} (item : Reader α) : Reader (List α) := fun c =>
  itemsFrom item c.rest.length true c

/-- The next key of an object, or none at its closing bracket; the cursor is behind either. -/
def nextKey (first : Bool) (c : Cursor) : Except Fault (Option String × Cursor) :=
  let c := c.skipBlanks
  let key (c : Cursor) (atEnd : Cause) : Except Fault (Option String × Cursor) :=
    match c.rest with
    | [] => .error (c.fault atEnd)
    | g :: _ =>
      if g = .char '"' then (textBody c.next).map fun (k, c) => (some k, c)
      else if g = .char '\x7d' then .error (c.faultAhead .trailingComma)
      else .error (c.faultAhead .keyNotText)
  match c.rest with
  | [] => .error (c.fault .endInObject)
  | g :: _ =>
    if g = .char '\x7d' then .ok (none, c.next)
    else if first then key c .endInObject
    else if g = .char ',' then key c.next.skipBlanks .endInValue
    else .error (c.faultAhead .expectedObjectEnd)

def colon : Reader Unit := fun c =>
  let c := c.skipBlanks
  match c.rest with
  | [] => .error (c.fault .endInObject)
  | g :: _ => if g = .char ':' then .ok ((), c.next) else .error (c.faultAhead .expectedColon)

/-- The entries of an object whose bracket has been opened: `entry` reads on behind each key, its
colon included. Every round reads a glyph. -/
def entriesFrom {σ : Type} (entry : String → σ → Reader σ) :
    (rounds : Nat) → (first : Bool) → σ → Reader σ
  | 0, _, _, c => .error (c.fault .endInObject)
  | rounds + 1, first, acc, c => do
    match ← nextKey first c with
    | (none, c) => .ok (acc, c)
    | (some key, c) =>
      let (acc, c) ← entry key acc c
      entriesFrom entry rounds false acc c

def entries {σ : Type} (entry : String → σ → Reader σ) (start : σ) : Reader σ := fun c =>
  entriesFrom entry c.rest.length true start c

/-! ## Any value -/

/-- An entry added to those read before; a repeated key gets the later value. -/
def entryOf (value : Reader Value) (key : String) (acc : Entries) : Reader Entries := fun c => do
  let ((), c) ← colon c
  let (v, c) ← value c
  .ok (acc.insert key v, c)

/-- A value whose items are read by `inner`, which is none if no bracket may be opened. -/
def valueWith (inner : Option (Reader Value)) : Reader Value := fun c =>
  let c := c.skipBlanks
  match c.rest with
  | [] => .error (c.fault .endInValue)
  | g :: _ =>
    if g = .char 'n' then (word ['u', 'l', 'l'] c.next).map fun (_, c) => (.null, c)
    else if g = .char 't' then (word ['r', 'u', 'e'] c.next).map fun (_, c) => (.bool true, c)
    else if g = .char 'f' then
      (word ['a', 'l', 's', 'e'] c.next).map fun (_, c) => (.bool false, c)
    else if g = .char '-' then (numberBody true c.next).map fun (n, c) => (.number n, c)
    else if g.digit?.isSome then (numberBody false c).map fun (n, c) => (.number n, c)
    else if g = .char '"' then (textBody c.next).map fun (s, c) => (.text s, c)
    else if g = .char '[' then
      match inner with
      | none => .error (c.faultAhead .tooDeep)
      | some value => (items value c.next).map fun (vs, c) => (.list vs, c)
    else if g = .char '\x7b' then
      match inner with
      | none => .error (c.faultAhead .tooDeep)
      | some value => (entries (entryOf value) [] c.next).map fun (es, c) => (.object es, c)
    else .error (c.faultAhead .expectedValue)

def value : Decoder Value
  | 0 => valueWith none
  | room + 1 => valueWith (some (value room))

/-! ## Whole texts -/

/-- Brackets that a whole text may have open at once. -/
def startRoom : Nat := 127

def decodeGlyphs {α : Type} (decoder : Decoder α) (input : List Glyph) : Except DecodeError α :=
  let located (f : Fault) : DecodeError := ⟨f.cause, .after input f.offset⟩
  match decoder startRoom (.start input) with
  | .error f => .error (located f)
  | .ok (a, c) =>
    let c := c.skipBlanks
    if c.rest.isEmpty then .ok a else .error (located (c.faultAhead .trailingInput))

def decode {α : Type} (decoder : Decoder α) (text : String) : Except DecodeError α :=
  decodeGlyphs decoder (glyphsOfString text)

end AppExport.Json
