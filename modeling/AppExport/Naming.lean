/-
Names derived from a project: its token, which stands for the project wherever a file or a package
needs a name, and the identifiers a package may have.
-/
import AppExport.Decimal.Digits
import AppExport.Text.Blank
import AppExport.Text.Pieces

namespace AppExport.Naming

open Decimal (isDigit)

/-- The name with one underscore for each run of blanks. -/
def token (name : String) : String := Text.underscored name

def isLetter (c : Char) : Bool := ('a' ≤ c && c ≤ 'z') || ('A' ≤ c && c ≤ 'Z')

/-- A letter, then letters, digits and underscores, all ASCII. -/
def isSegment : List Char → Bool
  | [] => false
  | c :: rest => isLetter c && rest.all fun c => isLetter c || isDigit c || c == '_'

/-- Two segments or more with a dot between each two. -/
def isPackageIdentifier (name : String) : Bool :=
  let segments := Text.pieces '.' name.toList
  2 ≤ segments.length && segments.all isSegment

end AppExport.Naming
