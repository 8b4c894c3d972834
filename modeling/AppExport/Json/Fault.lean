/-
Why a JSON text is refused, and where. A fault holds the number of bytes read when it was found;
`Position.at?` turns that into a line, counted from one, and a number of bytes within the line.
-/
import AppExport.Json.Printer
import AppExport.Text.Escaped
import AppExport.Text.Glyph

namespace AppExport.Json

open Text (Glyph)

/-- A value of the wrong kind, as far as a message tells it. -/
inductive Found where
  | null
  | bool (b : Bool)
  | number (n : Number)
  | text (s : String)
  | list
  | object
deriving DecidableEq, Repr

inductive Cause where
  | endInValue
  | endInList
  | endInObject
  | endInText
  | expectedValue
  | expectedWord
  | expectedListEnd
  | expectedObjectEnd
  | expectedColon
  | keyNotText
  | trailingComma
  | trailingInput
  | malformedNumber
  | numberTooLarge
  | tooDeep
  | unknownEscape
  | loneSurrogate
  | unfinishedSurrogate
  | controlCharacter
  | notUtf8
  | wrongKind (found : Found) (expected : String)
  | outOfRange (value : Int) (expected : String)
  | unknownName (name : String) (known : List String)
  | missingField (name : String)
  | repeatedField (name : String)
  | wrongLength (length : Nat) (expected : String)
  | noShape (label : String)
deriving DecidableEq, Repr

structure Fault where
  cause : Cause
  /-- Bytes read, the offending one included where it counts as read. -/
  offset : Nat
deriving DecidableEq, Repr

def ticked (s : String) : String := "`" ++ s ++ "`"

def Found.message : Found → String
  | .null => "null"
  | .bool b => "boolean " ++ ticked (String.ofList (boolChars b))
  | .number (.integer i _ _) => "integer " ++ ticked (String.ofList (Decimal.intChars i))
  | .number (.float x) => "floating point " ++ ticked (String.ofList x.chars)
  | .text s => "string " ++ Text.escaped s
  | .list => "sequence"
  | .object => "map"

/-- The names a choice could have had: two joined by "or", more listed. -/
def alternatives : List String → String
  | [a, b] => "expected " ++ ticked a ++ " or " ++ ticked b
  | names => "expected one of " ++ ", ".intercalate (names.map ticked)

def Cause.message : Cause → String
  | .endInValue => "EOF while parsing a value"
  | .endInList => "EOF while parsing a list"
  | .endInObject => "EOF while parsing an object"
  | .endInText => "EOF while parsing a string"
  | .expectedValue => "expected value"
  | .expectedWord => "expected ident"
  | .expectedListEnd => "expected `,` or `]`"
  | .expectedObjectEnd => "expected `,` or `\x7d`"
  | .expectedColon => "expected `:`"
  | .keyNotText => "key must be a string"
  | .trailingComma => "trailing comma"
  | .trailingInput => "trailing characters"
  | .malformedNumber => "invalid number"
  | .numberTooLarge => "number out of range"
  | .tooDeep => "recursion limit exceeded"
  | .unknownEscape => "invalid escape"
  | .loneSurrogate => "lone leading surrogate in hex escape"
  | .unfinishedSurrogate => "unexpected end of hex escape"
  | .controlCharacter => "control character (\\u0000-\\u001F) found while parsing a string"
  | .notUtf8 => "invalid unicode code point"
  | .wrongKind found expected => "invalid type: " ++ found.message ++ ", expected " ++ expected
  | .outOfRange value expected =>
    "invalid value: integer " ++ ticked (String.ofList (Decimal.intChars value)) ++
      ", expected " ++ expected
  | .unknownName name known => "unknown variant " ++ ticked name ++ ", " ++ alternatives known
  | .missingField name => "missing field " ++ ticked name
  | .repeatedField name => "duplicate field " ++ ticked name
  | .wrongLength length expected =>
    "invalid length " ++ toString length ++ ", expected " ++ expected
  | .noShape label => "data did not match any variant of untagged enum " ++ label

structure Position where
  line : Nat
  column : Nat
deriving DecidableEq, Repr

/-- The position after `offset` bytes, going on from a position. -/
def Position.advance (p : Position) : List Glyph → (offset : Nat) → Position
  | [], _ => p
  | g :: rest, offset =>
    if offset = 0 then p
    else if g = .char '\n' then Position.advance ⟨p.line + 1, 0⟩ rest (offset - 1)
    else Position.advance ⟨p.line, p.column + min g.size offset⟩ rest (offset - g.size)

def Position.after (input : List Glyph) (offset : Nat) : Position :=
  Position.advance ⟨1, 0⟩ input offset

/-- A text that was refused. -/
structure DecodeError where
  cause : Cause
  position : Position
deriving DecidableEq, Repr

def DecodeError.message (e : DecodeError) : String :=
  e.cause.message ++ " at line " ++ toString e.position.line ++
    " column " ++ toString e.position.column

end AppExport.Json
