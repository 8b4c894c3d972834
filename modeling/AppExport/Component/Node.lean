/-
Component trees. A forest is walked in pre-order; no two of its nodes may have the same id.
-/
import AppExport.Component.Kind
import AppExport.Component.Props

namespace AppExport.Component

open Decimal (Binary64)

/-- Where an editor shows a node. -/
structure Position where
  x : Binary64
  y : Binary64
deriving DecidableEq, Repr

structure Size where
  width : Binary64
  height : Binary64
deriving DecidableEq, Repr

structure Node where
  id : String
  kind : Kind
  props : Props
  children : List Node
  position : Option Position
  size : Option Size
deriving Repr

abbrev Forest := List Node

namespace Node

/-- A node with nothing in it. -/
def new (id : String) (kind : Kind) : Node := ⟨id, kind, .empty, [], none, none⟩

mutual
def walk : Node → List Node
  | ⟨id, kind, props, children, position, size⟩ =>
    ⟨id, kind, props, children, position, size⟩ :: walkAll children

def walkAll : List Node → List Node
  | [] => []
  | node :: rest => node.walk ++ walkAll rest
end

mutual
def count : Node → Nat
  | ⟨_, _, _, children, _, _⟩ => 1 + countAll children

def countAll : List Node → Nat
  | [] => 0
  | node :: rest => node.count + countAll rest
end

end Node

namespace Forest

def walk (forest : Forest) : List Node := Node.walkAll forest

def count (forest : Forest) : Nat := Node.countAll forest

def ids (forest : Forest) : List String := forest.walk.map (·.id)

end Forest

/-- The first element that one of `seen` or an element before it equals. -/
def firstRepeated? (seen : List String) : List String → Option String
  | [] => none
  | id :: rest => if id ∈ seen then some id else firstRepeated? (id :: seen) rest

/-- The id of the first node, in pre-order, that repeats an earlier one. -/
def Forest.repeatedId? (forest : Forest) : Option String := firstRepeated? [] forest.ids

end AppExport.Component
