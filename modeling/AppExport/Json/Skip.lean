/-
Passing over a value without reading it. Only its shape counts: nesting has no limit, and neither
surrogates, stray bytes nor the size of numbers are looked at.
-/
import AppExport.Json.Token

namespace AppExport.Json

open Text (Glyph)

inductive Bracket where
  | list
  | object
deriving DecidableEq, Repr

namespace Bracket

def closing : Bracket → Char
  | list => ']'
  | object => '\x7d'

/-- What is wrong where the text ends in an open bracket. -/
def endCause : Bracket → Cause
  | list => .endInList
  | object => .endInObject

/-- What is wrong where neither a comma nor the closing bracket stands. -/
def separatorCause : Bracket → Cause
  | list => .expectedListEnd
  | object => .expectedObjectEnd

end Bracket

/-- The rest of a text whose opening quote has been read; rounds as in reading one. -/
def skipText : (rounds : Nat) → Cursor → Except Fault Cursor
  | 0, c => .error (c.fault .endInText)
  | rounds + 1, c =>
    match c.rest with
    | [] => .error (c.fault .endInText)
    | g :: _ =>
      if g = .char '"' then .ok c.next
      else if g = .char '\\' then
        match c.next.rest with
        | [] => .error (c.next.fault .endInText)
        | e :: _ =>
          if e = .char 'u' then
            match fourDigits c.next.next with
            | .ok (_, c) => skipText rounds c
            | .error e => .error e
          else if (letterEscape? e).isSome then skipText rounds c.next.next
          else .error (c.next.faultAhead .unknownEscape)
      else if isControl g then .error (c.fault .controlCharacter)
      else skipText rounds c.next

/-- At least one digit, the first of which counts as read even if it is none. -/
def skipDigits (c : Cursor) : Except Fault Cursor :=
  match c.rest.head?.bind Glyph.digit? with
  | some _ => .ok (digitRun c).2
  | none => .error (c.faultAhead .malformedNumber)

def skipExponent (c : Cursor) : Except Fault Cursor :=
  let signed := c.rest.head? = some (.char '-') ∨ c.rest.head? = some (.char '+')
  skipDigits (if signed then c.next else c)

/-- What may follow the digits before the point. -/
def skipFraction (c : Cursor) : Except Fault Cursor :=
  if c.rest.head? = some (.char '.') then do
    let c ← skipDigits c.next
    if isExponentLetter c.rest.head? then skipExponent c.next else .ok c
  else if isExponentLetter c.rest.head? then skipExponent c.next
  else .ok c

def skipNumber (c : Cursor) : Except Fault Cursor :=
  if c.rest.head? = some (.char '0') then
    if (c.next.rest.head?.bind Glyph.digit?).isSome then
      .error (c.next.faultAhead .malformedNumber)
    else skipFraction c.next
  else do skipFraction (← skipDigits c)

/-- What a value begins with: a bracket that is opened, or a whole scalar. -/
def skipStart (c : Cursor) : Except Fault (Option Bracket × Cursor) :=
  match c.rest with
  | [] => .error (c.fault .endInValue)
  | g :: _ =>
    if g = .char 'n' then (word ['u', 'l', 'l'] c.next).map (none, ·.2)
    else if g = .char 't' then (word ['r', 'u', 'e'] c.next).map (none, ·.2)
    else if g = .char 'f' then (word ['a', 'l', 's', 'e'] c.next).map (none, ·.2)
    else if g = .char '-' then (skipNumber c.next).map (none, ·)
    else if g.digit?.isSome then (skipNumber c).map (none, ·)
    else if g = .char '"' then (skipText c.next.rest.length c.next).map (none, ·)
    else if g = .char '[' then .ok (some .list, c.next)
    else if g = .char '\x7b' then .ok (some .object, c.next)
    else .error (c.faultAhead .expectedValue)

/-- A key and its colon. -/
def skipKey (c : Cursor) : Except Fault Cursor :=
  let c := c.skipBlanks
  match c.rest with
  | [] => .error (c.fault .endInObject)
  | g :: _ =>
    if g = .char '"' then do
      let c := (← skipText c.next.rest.length c.next).skipBlanks
      match c.rest with
      | [] => .error (c.fault .endInObject)
      | g :: _ => if g = .char ':' then .ok c.next else .error (c.faultAhead .expectedColon)
    else .error (c.faultAhead .keyNotText)

/-- Closing brackets and then the comma before the next value, or the end of the outermost bracket.
`opened` tells that the innermost bracket has just been opened, so that no comma is due. The result
holds the brackets still open where another value follows. -/
def skipClosings (opened : Bool) :
    (brackets : List Bracket) → Cursor → Except Fault (List Bracket × Cursor)
  | [], c => .ok ([], c)
  | b :: outer, c =>
    let c := c.skipBlanks
    match c.rest with
    | [] => .error (c.fault b.endCause)
    | g :: _ =>
      if g = .char ',' ∧ ¬opened then .ok (b :: outer, c.next)
      else if g = .char b.closing then skipClosings false outer c.next
      else if opened then .ok (b :: outer, c)
      else .error (c.faultAhead b.separatorCause)

/-- Values until the outermost bracket is closed. Every round reads a glyph. -/
def skipFrom : (rounds : Nat) → (brackets : List Bracket) → Cursor → Except Fault Cursor
  | 0, _, c => .error (c.fault .endInValue)
  | rounds + 1, brackets, c => do
    let (opened, c) ← skipStart c.skipBlanks
    let (brackets, c) ← skipClosings opened.isSome (opened.toList ++ brackets) c
    match brackets with
    | [] => .ok c
    | .list :: _ => skipFrom rounds brackets c
    | .object :: _ => skipFrom rounds brackets (← skipKey c)

def skipValue (c : Cursor) : Except Fault Cursor := skipFrom c.rest.length [] c

end AppExport.Json
