/-
Blank characters, those with the Unicode property White_Space, and runs of them.

`underscored` puts one underscore for each maximal run of blanks.
-/
namespace AppExport.Text

def isBlank (c : Char) : Bool :=
  let n := c.toNat
  (0x09 ≤ n && n ≤ 0x0D) || n == 0x20 || n == 0x85 || n == 0xA0 || n == 0x1680 ||
    (0x2000 ≤ n && n ≤ 0x200A) || n == 0x2028 || n == 0x2029 || n == 0x202F || n == 0x205F ||
    n == 0x3000

/-- `afterBlank` tells whether the character before was blank, its run being written already. -/
def underscoredChars (afterBlank : Bool) : List Char → List Char
  | [] => []
  | c :: rest =>
    if isBlank c then
      if afterBlank then underscoredChars true rest else '_' :: underscoredChars true rest
    else c :: underscoredChars false rest

def underscored (s : String) : String :=
  String.ofList (underscoredChars false s.toList)

end AppExport.Text
