/-
Where a reader stands in a text: the glyphs that are left and the number of bytes before them.
A reader takes a cursor to a value and a later cursor, or to a fault.
-/
import AppExport.Json.Fault

namespace AppExport.Json

open Text (Glyph)

structure Cursor where
  rest : List Glyph
  offset : Nat
deriving Repr

abbrev Reader (α : Type) := Cursor → Except Fault (α × Cursor)

namespace Cursor

def start (input : List Glyph) : Cursor := ⟨input, 0⟩

/-- The cursor behind the next glyph. -/
def next (c : Cursor) : Cursor :=
  match c.rest with
  | [] => c
  | g :: rest => ⟨rest, c.offset + g.size⟩

/-- A fault at the bytes read so far. -/
def fault (c : Cursor) (cause : Cause) : Fault := ⟨cause, c.offset⟩

/-- A fault at the next byte, which counts as read; at the end of the text, at the end. -/
def faultAhead (c : Cursor) (cause : Cause) : Fault :=
  ⟨cause, if c.rest.isEmpty then c.offset else c.offset + 1⟩

def isBlank : Glyph → Bool
  | .char c => c = ' ' || c = '\n' || c = '\t' || c = '\r'
  | .stray _ => false

/-- The cursor before the next glyph that is no blank. -/
def skipBlanks (c : Cursor) : Cursor :=
  let blanks := c.rest.takeWhile isBlank
  ⟨c.rest.drop blanks.length, c.offset + blanks.length⟩

/-- The bytes that are left. -/
def bytesLeft (c : Cursor) : Nat := c.rest.foldr (fun g n => g.size + n) 0

/-- Behind a closing bracket, if one comes next; blanks before it are passed either way. -/
def pastClosing (c : Cursor) (closing : Char) : Cursor :=
  let c := c.skipBlanks
  if c.rest.head? = some (.char closing) then c.next else c

end Cursor
end AppExport.Json
