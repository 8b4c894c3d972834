/-
Bytes read as UTF-8. A glyph is a character or a byte that belongs to no character, so every byte
sequence has a reading and sizes add up to its length.
-/
namespace AppExport.Text

inductive Glyph where
  | char (c : Char)
  | stray (byte : UInt8)
deriving DecidableEq, Repr

namespace Glyph

def size : Glyph → Nat
  | char c => c.utf8Size
  | stray _ => 1

def digit? : Glyph → Option Nat
  | char c => if '0' ≤ c ∧ c ≤ '9' then some (c.toNat - 48) else none
  | stray _ => none

def hexDigit? : Glyph → Option Nat
  | char c =>
    if '0' ≤ c ∧ c ≤ '9' then some (c.toNat - 48)
    else if 'a' ≤ c ∧ c ≤ 'f' then some (c.toNat - 87)
    else if 'A' ≤ c ∧ c ≤ 'F' then some (c.toNat - 55)
    else none
  | stray _ => none

end Glyph

/-- The six bits of a continuation byte. -/
def tailBits? (b : UInt8) : Option Nat :=
  if 0x80 ≤ b ∧ b ≤ 0xBF then some (b.toNat - 0x80) else none

/-- The character of a code point, if it is one and `least` or more. -/
def charFrom? (least code : Nat) : Option Char :=
  if h : least ≤ code ∧ code.isValidChar then some (Char.ofNatAux code h.2) else none

/-- The character a byte sequence begins with, and how many bytes it takes. -/
def firstChar? : List UInt8 → Option (Char × Nat)
  | [] => none
  | a :: rest =>
    let lead := a.toNat
    if a < 0x80 then (charFrom? 0 lead).map (·, 1)
    else match rest with
      | b :: rest =>
        if 0xC0 ≤ a ∧ a < 0xE0 then do
          let c ← charFrom? 0x80 ((lead - 0xC0) * 0x40 + (← tailBits? b))
          return (c, 2)
        else match rest with
          | c :: rest =>
            if 0xE0 ≤ a ∧ a < 0xF0 then do
              let high := (lead - 0xE0) * 0x1000 + (← tailBits? b) * 0x40
              let c ← charFrom? 0x800 (high + (← tailBits? c))
              return (c, 3)
            else match rest with
              | d :: _ =>
                if 0xF0 ≤ a ∧ a < 0xF8 then do
                  let high := (lead - 0xF0) * 0x40000 + (← tailBits? b) * 0x1000
                  let c ← charFrom? 0x10000 (high + (← tailBits? c) * 0x40 + (← tailBits? d))
                  return (c, 4)
                else none
              | [] => none
          | [] => none
      | [] => none

/-- The reading of the first `count` bytes at most. -/
def glyphsWithin : Nat → List UInt8 → List Glyph
  | 0, _ => []
  | _ + 1, [] => []
  | count + 1, b :: rest =>
    match firstChar? (b :: rest) with
    | some (c, taken) => .char c :: glyphsWithin count (rest.drop (taken - 1))
    | none => .stray b :: glyphsWithin count rest

def glyphsOfBytes (bytes : List UInt8) : List Glyph := glyphsWithin bytes.length bytes

def glyphsOfString (s : String) : List Glyph := s.toList.map .char

end AppExport.Text
