/-
What stands between the braces of a tag: a path, or a word with arguments, which are constants and
paths. Blanks matter only where they end a word.

A path has segments between dots or slashes; a segment is a word or anything in square brackets.
Before the first one a path may say where it starts, which is the whole of the data in any case.
-/
import AppExport.Template.Constant
import AppExport.Template.Syntax

namespace AppExport.Template

/-! ## Paths -/

/-- A segment and what follows it. -/
def segment? (cs : List Char) : Option (String × List Char) :=
  match cs with
  | [] => none
  | c :: rest =>
    if c = '[' then
      let inner := rest.takeWhile (· ≠ ']')
      match rest.drop inner.length with
      | [] => none
      | _ :: rest => some (String.ofList inner, rest)
    else
      let word := cs.takeWhile isWordChar
      if word.isEmpty then none else some (String.ofList word, cs.drop word.length)

def isJoint (c : Char) : Bool := c = '.' || c = '/'

/-- The segments behind a first one, each behind a dot or a slash; each round reads one. -/
def segments : (rounds : Nat) → List Char → List String × List Char
  | 0, cs => ([], cs)
  | rounds + 1, cs =>
    match if cs.head?.any isJoint then segment? (cs.drop 1) else none with
    | some (s, rest) =>
      let (others, rest) := segments rounds rest
      (s :: others, rest)
    | none => ([], cs)

/-- What follows `word` and a dot or a slash. -/
def behindJoint? (word : List Char) (cs : List Char) : Option (List Char) :=
  (behind? word cs).bind fun cs => if cs.head?.any isJoint then some (cs.drop 1) else none

/-- What follows the words for the place a path starts at anyway. -/
def behindHere : List Char → List Char
  | '.' :: '/' :: rest => behindHere rest
  | cs => (behindJoint? ['t', 'h', 'i', 's'] cs).getD cs

/-- What follows the dots that lead out of a block. -/
def behindParents : List Char → List Char
  | '.' :: '.' :: c :: rest => if isJoint c then behindParents rest else '.' :: '.' :: c :: rest
  | cs => cs

/-- A path and what follows it. A segment `this` stays where it is. -/
def path? (cs : List Char) : Option (Path × List Char) := do
  let start := behindHere cs
  let rooted := behindJoint? ['@', 'r', 'o', 'o', 't'] start
  let start := rooted.getD start
  let marked := behind? ['@'] start
  let (first, rest) ← segment? (behindParents (marked.getD start))
  let (others, rest) := segments rest.length rest
  let written := String.ofList (readBefore rest cs)
  return (⟨rooted.isNone && marked.isSome, (first :: others).filter (· ≠ "this"), written⟩, rest)

/-! ## Arguments -/

/-- Whether one of the words comes next that are no arguments, with no word behind it. -/
def isReserved (cs : List Char) : Bool :=
  [['a', 's'], ['e', 'l', 's', 'e']].any fun word =>
    ((behind? word cs).bind fun cs => atWordEnd? (dropSpaces cs)).isSome

/-- An argument and what follows it. What is delimited as a constant is no path. -/
def argument? (cs : List Char) : Option (Argument × List Char) :=
  if isReserved cs then none
  else
    match behindConstant? (cs.length + 1) cs with
    | some rest => (constantValue? (readBefore rest cs)).map (.constant ·, rest)
    | none => (path? cs).map fun (p, rest) => (.path p, rest)

/-- The arguments that come next; each round reads one. -/
def arguments : (rounds : Nat) → List Char → List Argument × List Char
  | 0, cs => ([], cs)
  | rounds + 1, cs =>
    match argument? (dropSpaces cs) with
    | some (a, rest) =>
      let (others, rest) := arguments rounds rest
      (a :: others, rest)
    | none => ([], cs)

/-! ## Tags -/

/-- A path or, if it is a single word, that word with the arguments behind it. -/
def call? (cs : List Char) : Option (Path × List Argument × List Char) := do
  let (head, rest) ← path? cs
  if head.written.toList.all isWordChar then return (head, arguments rest.length rest)
  else return (head, [], rest)

/-- What follows a sign that may have blanks before it. -/
def closed? (sign : List Char) (cs : List Char) : Option (List Char) := behind? sign (dropSpaces cs)

def closing : List Char := ['\x7d', '\x7d']

/-- Whether a tag is for the inside of blocks: `else`, alone or before a word with arguments; a word
may follow at once. -/
def dividesBlock (cs : List Char) : Bool :=
  match behind? ['e', 'l', 's', 'e'] cs with
  | none => false
  | some rest =>
    let rest := dropSpaces rest
    let word := rest.takeWhile isWordChar
    let rest := rest.drop word.length
    (closed? closing (if word.isEmpty then rest else (arguments rest.length rest).2)).isSome

/-- A tag behind its first two braces, and what follows its closing ones. A third pair of braces
or an ampersand changes nothing, except that `else` means nothing then. -/
def tag? (cs : List Char) : Option (Path × List Argument × List Char) :=
  match dropSpaces cs with
  | '\x7b' :: rest => do
    let (head, arguments, rest) ← call? (dropSpaces rest)
    return (head, arguments, ← closed? closing (← closed? ['\x7d'] rest))
  | '&' :: rest => do
    let (head, rest) ← path? (dropSpaces rest)
    return (head, [], ← closed? closing rest)
  | cs => do
    if dividesBlock cs then none
    else
      let (head, arguments, rest) ← call? cs
      return (head, arguments, ← closed? closing rest)

end AppExport.Template
