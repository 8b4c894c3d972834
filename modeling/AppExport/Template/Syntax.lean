/-
Templates: text with tags in braces. A tag holds a path into the data, or the name of a helper with
its arguments, and knows the line and the column, in characters, of its first brace.
-/
import AppExport.Json.Value

namespace AppExport.Template

open Json (Value)

/-- A line and a column, both counted from one. -/
structure Mark where
  line : Nat
  column : Nat
deriving DecidableEq, Repr

def Mark.start : Mark := ⟨1, 1⟩

def Mark.after (m : Mark) : List Char → Mark
  | [] => m
  | c :: rest => Mark.after (if c = '\n' then ⟨m.line + 1, 1⟩ else ⟨m.line, m.column + 1⟩) rest

structure Path where
  /-- Whether the path leads to a variable of a block, which no template here has, and not into
  the data. -/
  ofBlock : Bool
  segments : List String
  /-- The path as it is written. -/
  written : String
deriving DecidableEq, Repr

inductive Argument where
  | path (p : Path)
  | constant (v : Value)
deriving Repr

inductive Piece where
  | text (s : String)
  | tag (mark : Mark) (head : Path) (arguments : List Argument)
deriving Repr

end AppExport.Template

namespace AppExport

/-- A template that has been read. -/
abbrev Template := List Template.Piece

end AppExport
