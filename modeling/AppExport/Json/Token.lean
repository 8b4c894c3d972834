/-
Readers of single tokens: the three words, texts and numbers.

Digits of a number gather in a natural as long as it fits 64 bits. From the first digit that does
not fit on, digits before the point count as powers of ten only, and digits behind it not at all.
A number with a fraction or an exponent, one that does not fit, and `-0` are binary64 numbers: the
gathered natural, rounded, times or divided by a rounded power of ten, rounded again.
-/
import AppExport.Json.Cursor

namespace AppExport.Json

open Text (Glyph)
open Decimal (Binary64)

/-! ## Words -/

/-- The letters of a word, the first of which has been read. -/
def word : (letters : List Char) → Reader Unit
  | [], c => .ok ((), c)
  | letter :: letters, c =>
    match c.rest with
    | [] => .error (c.fault .endInValue)
    | g :: _ =>
      if g = .char letter then word letters c.next else .error (c.faultAhead .expectedWord)

/-! ## Texts -/

/-- Four hexadecimal digits. -/
def fourDigits (c : Cursor) : Except Fault (Nat × Cursor) :=
  match c.rest with
  | a :: b :: d :: e :: rest =>
    match a.hexDigit?, b.hexDigit?, d.hexDigit?, e.hexDigit? with
    | some w, some x, some y, some z =>
      .ok (((w * 16 + x) * 16 + y) * 16 + z, ⟨rest, c.offset + 4⟩)
    | _, _, _, _ => .error ⟨.unknownEscape, c.offset + 4⟩
  | _ =>
    if c.bytesLeft < 4 then .error ⟨.endInText, c.offset + c.bytesLeft⟩
    else .error ⟨.unknownEscape, c.offset + 4⟩

/-- One given character within a surrogate pair. -/
def pairSign (sign : Char) : Reader Unit := fun c =>
  match c.rest with
  | [] => .error (c.fault .endInText)
  | g :: _ =>
    if g = .char sign then .ok ((), c.next) else .error (c.faultAhead .unfinishedSurrogate)

/-- What follows `\u`: a code point, or the two halves of a surrogate pair. -/
def codePoint : Reader Char := fun c => do
  let (first, c) ← fourDigits c
  if 0xDC00 ≤ first ∧ first ≤ 0xDFFF then
    .error (c.fault .loneSurrogate)
  else if 0xD800 ≤ first ∧ first ≤ 0xDBFF then
    let ((), c) ← pairSign '\\' c
    let ((), c) ← pairSign 'u' c
    let (second, c) ← fourDigits c
    if 0xDC00 ≤ second ∧ second ≤ 0xDFFF then
      .ok (Char.ofNat ((first - 0xD800) * 0x400 + (second - 0xDC00) + 0x10000), c)
    else .error (c.fault .loneSurrogate)
  else .ok (Char.ofNat first, c)

/-- The character a letter behind a backslash stands for. -/
def letterEscape? : Glyph → Option Char
  | .char '"' => some '"'
  | .char '\\' => some '\\'
  | .char '/' => some '/'
  | .char 'b' => some '\x08'
  | .char 'f' => some '\x0c'
  | .char 'n' => some '\n'
  | .char 'r' => some '\r'
  | .char 't' => some '\t'
  | _ => none

/-- What follows a backslash. -/
def escapeSequence : Reader Char := fun c =>
  match c.rest with
  | [] => .error (c.fault .endInText)
  | g :: _ =>
    if g = .char 'u' then codePoint c.next
    else match letterEscape? g with
      | some ch => .ok (ch, c.next)
      | none => .error (c.faultAhead .unknownEscape)

def isControl : Glyph → Bool
  | .char c => c.toNat < 0x20
  | .stray _ => false

/-- The rest of a text whose opening quote has been read; `done` holds the characters so far, the
last one first. A stray byte counts only when the text is complete: the fault then stands before
everything the text holds from its first stray byte on, which takes `strayed` bytes. Every round
reads a glyph, so no text has more rounds than glyphs. -/
def textFrom : (rounds : Nat) → (done : List Char) → (strayed : Nat) → Reader String
  | 0, _, _, c => .error (c.fault .endInText)
  | rounds + 1, done, strayed, c =>
    match c.rest with
    | [] => .error (c.fault .endInText)
    | g :: _ =>
      if g = .char '"' then
        if strayed = 0 then .ok (String.ofList done.reverse, c.next)
        else .error ⟨.notUtf8, c.next.offset - strayed⟩
      else if g = .char '\\' then
        match escapeSequence c.next with
        | .ok (ch, c) =>
          textFrom rounds (ch :: done) (if strayed = 0 then 0 else strayed + ch.utf8Size) c
        | .error e => .error e
      else if isControl g then .error (c.next.fault .controlCharacter)
      else match g with
        | .char ch =>
          textFrom rounds (ch :: done) (if strayed = 0 then 0 else strayed + g.size) c.next
        | .stray _ => textFrom rounds done (strayed + 1) c.next

def textBody : Reader String := fun c => textFrom c.rest.length [] 0 c

/-! ## Numbers -/

/-- The digits that come next. -/
def digitRun (c : Cursor) : List Nat × Cursor :=
  let run := c.rest.takeWhile (·.digit?.isSome)
  (run.filterMap Glyph.digit?, ⟨c.rest.drop run.length, c.offset + run.length⟩)

/-- Digits behind those of `gathered`, as long as they fit 64 bits; those from the first that does
not on are left over. -/
def gather (gathered : Nat) : List Nat → Nat × List Nat
  | [] => (gathered, [])
  | d :: ds =>
    if gathered * 10 + d < 0x1_0000_0000_0000_0000 then gather (gathered * 10 + d) ds
    else (gathered, d :: ds)

/-- A power of ten up to `10^308`. -/
def tenTo (exponent : Nat) : Binary64 :=
  (Binary64.ofNat? (Nat.pow 10 exponent)).getD (.zero false)

/-- `x / 10^exponent`, in steps of `10^308` at most. -/
def divideByTens : (steps : Nat) → Binary64 → (exponent : Nat) → Binary64
  | 0, x, _ => x
  | steps + 1, x, exponent =>
    if exponent ≤ 308 then (x.div? (tenTo exponent)).getD x
    else if x.isZero then x
    else divideByTens steps ((x.div? (tenTo 308)).getD x) (exponent - 308)

/-- `digits * 10^exponent`, rounded step by step; none if it is too large. Two divisions by `10^308`
leave nothing of 64 bits, so three steps do. -/
def floatOf? (digits : Nat) (exponent : Int) : Option Binary64 := do
  let x ← Binary64.ofNat? digits
  if exponent < 0 then return divideByTens 3 x exponent.natAbs
  else if exponent ≤ 308 then x.mul? (tenTo exponent.toNat)
  else if x.isZero then return x
  else none

def floatNumber (negative : Bool) (digits : Nat) (exponent : Int) : Reader Number := fun c =>
  match floatOf? digits exponent with
  | some x => .ok (.float (if negative then x.negate else x), c)
  | none => .error (c.fault .numberTooLarge)

/-- How many digits make an exponent that 31 bits cannot hold, if they all together do. -/
def overlong? (exponent : Nat) : (count : Nat) → List Nat → Option Nat
  | _, [] => none
  | count, d :: ds =>
    if exponent * 10 + d < 0x8000_0000 then overlong? (exponent * 10 + d) (count + 1) ds
    else some (count + 1)

/-- What follows the letter of an exponent. -/
def exponentPart (negative : Bool) (digits : Nat) (scale : Int) : Reader Number := fun c =>
  let lowering := c.rest.head? = some (.char '-')
  let c := if lowering ∨ c.rest.head? = some (.char '+') then c.next else c
  match c.rest with
  | [] => .error (c.fault .endInValue)
  | g :: _ =>
    if g.digit?.isNone then .error (c.faultAhead .malformedNumber)
    else
      let (ds, behind) := digitRun c
      match overlong? 0 0 ds with
      | some count =>
        if digits ≠ 0 ∧ ¬lowering then .error ⟨.numberTooLarge, c.offset + count⟩
        else .ok (.float (.zero negative), behind)
      | none =>
        let exponent : Int := (gather 0 ds).1
        floatNumber negative digits (if lowering then scale - exponent else scale + exponent) behind

def isExponentLetter (g : Option Glyph) : Bool := g = some (.char 'e') || g = some (.char 'E')

/-- What follows the point. -/
def fractionPart (negative : Bool) (digits : Nat) (scale : Int) : Reader Number := fun c =>
  let (ds, behind) := digitRun c
  if ds.isEmpty then
    .error (c.faultAhead (if c.rest.isEmpty then .endInValue else .malformedNumber))
  else
    let (gathered, left) := gather digits ds
    let scale := scale - (ds.length - left.length : Nat)
    if isExponentLetter behind.rest.head? then
      exponentPart negative gathered scale behind.next
    else floatNumber negative gathered scale behind

/-- A natural with its sign; what 64 bits cannot hold, and `-0`, becomes a binary64 number. -/
def integerNumber (negative : Bool) (digits : Nat) : Reader Number := fun c =>
  let value : Int := if negative then -digits else digits
  if h : (negative → digits ≠ 0) ∧ Number.least ≤ value ∧ value ≤ Number.greatest then
    .ok (.integer value h.2.1 h.2.2, c)
  else floatNumber negative digits 0 c

/-- What follows the digits before the point, `left` of which were left over. -/
def numberBehind (negative : Bool) (digits left : Nat) : Reader Number := fun c =>
  if c.rest.head? = some (.char '.') then fractionPart negative digits left c.next
  else if isExponentLetter c.rest.head? then exponentPart negative digits left c.next
  else if left = 0 then integerNumber negative digits c
  else floatNumber negative digits left c

/-- A number behind its minus sign, if it has one. -/
def numberBody (negative : Bool) : Reader Number := fun c =>
  match c.rest with
  | [] => .error (c.fault .endInValue)
  | g :: _ =>
    match g.digit? with
    | none => .error (c.faultAhead .malformedNumber)
    | some 0 =>
      if (c.next.rest.head?.bind Glyph.digit?).isSome then
        .error (c.next.faultAhead .malformedNumber)
      else numberBehind negative 0 0 c.next
    | some _ =>
      let (ds, behind) := digitRun c
      let (gathered, left) := gather 0 ds
      numberBehind negative gathered left.length behind

end AppExport.Json
