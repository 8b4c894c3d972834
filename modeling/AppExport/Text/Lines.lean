/-
Lines of a text and their indentation. A line ends at a line feed, or at a carriage return with a
line feed behind it; an end of line at the end of the text begins no further line.
-/
import AppExport.Text.Blank
import AppExport.Text.Pieces

namespace AppExport.Text

def dropReturn (line : List Char) : List Char :=
  if line.getLast? = some '\r' then line.dropLast else line

/-- A piece that a line feed ends loses a carriage return before it; a last piece without a line
feed keeps it, and is no line if it is empty. -/
def linesOfPieces : List (List Char) → List (List Char)
  | [] => []
  | [last] => if last.isEmpty then [] else [last]
  | piece :: rest => dropReturn piece :: linesOfPieces rest

def lines (cs : List Char) : List (List Char) := linesOfPieces (pieces '\n' cs)

/-- Blank lines become empty, all others get `width` spaces in front. -/
def indentLine (width : Nat) (line : List Char) : List Char :=
  if line.all isBlank then [] else List.replicate width ' ' ++ line

def indentChars (width : Nat) (cs : List Char) : List Char :=
  ['\n'].intercalate ((lines cs).map (indentLine width))

def indent (width : Nat) (s : String) : String := String.ofList (indentChars width s.toList)

end AppExport.Text
