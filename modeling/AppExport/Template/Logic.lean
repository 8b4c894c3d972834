/-
Truth and sameness of data, as helpers ask about them.
-/
import AppExport.Json.Value

namespace AppExport.Template

open Json (Number Value)
open Decimal (Binary64)

/-- Null, nothing and zero are false; so are numbers too small for a full unit. -/
def holds : Value → Bool
  | .null => false
  | .bool b => b
  | .number (.integer i _ _) => i != 0
  | .number (.float x) => Binary64.block ≤ x.position
  | .text s => s != ""
  | .list items => !items.isEmpty
  | .object entries => !entries.isEmpty

/-- An integer is never the same as a binary64 number. The two zeros of these are. -/
def sameNumber : Number → Number → Bool
  | .integer i _ _, .integer j _ _ => i == j
  | .float x, .float y => x == y || (x.isZero && y.isZero)
  | _, _ => false

mutual
/-- Whether two values are the same, whatever the order of entries. -/
def same : Value → Value → Bool
  | .null, .null => true
  | .bool b, .bool c => b == c
  | .number m, .number n => sameNumber m n
  | .text s, .text t => s == t
  | .list xs, .list ys => sameItems xs ys
  | .object xs, .object ys => xs.length == ys.length && sameEntries xs ys
  | _, _ => false

def sameItems : List Value → List Value → Bool
  | [], [] => true
  | x :: xs, y :: ys => same x y && sameItems xs ys
  | _, _ => false

/-- Whether each entry has its like among the others. -/
def sameEntries : List (String × Value) → List (String × Value) → Bool
  | [], _ => true
  | (key, x) :: xs, ys =>
    (match ys.lookup key with
      | some y => same x y
      | none => false) && sameEntries xs ys
end

end AppExport.Template
