/-
Sets of characters as closed ranges of code points, ascending and apart.
-/
namespace AppExport.Text

abbrev Ranges := Array (Nat × Nat)

namespace Ranges

/-- The last range that begins at `code` or before, by halving; `count` bounds the steps. -/
def find? (ranges : Ranges) (code : Nat) : (count low high : Nat) → Option (Nat × Nat)
  | 0, _, _ => none
  | count + 1, low, high =>
    if low < high then
      let middle := (low + high) / 2
      match ranges[middle]? with
      | none => none
      | some (first, last) =>
        if code < first then find? ranges code count low middle
        else if last < code then find? ranges code count (middle + 1) high
        else some (first, last)
    else none

def contains (ranges : Ranges) (c : Char) : Bool :=
  (ranges.find? c.toNat (Nat.log2 (ranges.size + 1) + 1) 0 ranges.size).isSome

end Ranges
end AppExport.Text
