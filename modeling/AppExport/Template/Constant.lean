/-
Constants in tags: texts in double or single quotes, numbers, the words of JSON, and lists and
objects of these. A constant is first delimited and then read as JSON, so one may be delimited well
and still say nothing (`01` is delimited as a number). The exponent of a number has a capital letter
and no plus sign, and a number or a word ends where no word goes on: `1e5` and `trueish` are none.
-/
import AppExport.Json.Reader
import AppExport.Naming

namespace AppExport.Template

open Json (Value)
open Decimal (isDigit)

def isSpace (c : Char) : Bool := c = ' ' || c = '\t' || c = '\n' || c = '\r'

def isWordChar (c : Char) : Bool :=
  Naming.isLetter c || isDigit c || c = '_' || c = '-' || c = '$' || 0x80 ≤ c.toNat

def dropSpaces (cs : List Char) : List Char := cs.dropWhile isSpace

/-- The characters of `cs` that come before `rest`, with which it ends. -/
def readBefore (rest cs : List Char) : List Char := cs.take (cs.length - rest.length)

/-- What follows `word`, if it comes first. -/
def behind? (word : List Char) (cs : List Char) : Option (List Char) :=
  if word.isPrefixOf cs then some (cs.drop word.length) else none

/-- What follows `word`, or all if it does not come first. -/
def behindOptional (word : List Char) (cs : List Char) : List Char := (behind? word cs).getD cs

/-- The text, unless a word goes on with it. -/
def atWordEnd? (cs : List Char) : Option (List Char) :=
  if cs.head?.any isWordChar then none else some cs

/-! ## Where a constant ends -/

def isEscapeLetter (c : Char) : Bool := ['\\', '/', 'b', 'f', 'n', 'r', 't'].contains c

def isHexDigit (c : Char) : Bool := (Text.Glyph.char c).hexDigit?.isSome

/-- What follows a quoted text, from behind its opening quote. -/
def behindQuoted? (quote : Char) : List Char → Option (List Char)
  | [] => none
  | c :: rest =>
    if c = quote then some rest
    else if c = '\\' then
      match rest with
      | 'u' :: p :: q :: r :: s :: rest =>
        if [p, q, r, s].all isHexDigit then behindQuoted? quote rest else none
      | d :: rest => if d = quote ∨ isEscapeLetter d then behindQuoted? quote rest else none
      | [] => none
    else behindQuoted? quote rest

/-- What follows digits, of which there is one at least. -/
def behindDigits? (cs : List Char) : Option (List Char) :=
  if cs.head?.any isDigit then some (cs.dropWhile isDigit) else none

def behindNumber? (cs : List Char) : Option (List Char) := do
  let cs ← behindDigits? (behindOptional ['-'] cs)
  let cs := (behindOptional ['.'] cs).dropWhile isDigit
  let raised := (behind? ['E'] cs).bind fun cs => behindDigits? (behindOptional ['-'] cs)
  atWordEnd? (raised.getD cs)

def behindWord? (word : List Char) (cs : List Char) : Option (List Char) :=
  (behind? word cs).bind atWordEnd?

mutual
/-- What follows a constant; each round goes on by a character. -/
def behindConstant? : (rounds : Nat) → List Char → Option (List Char)
  | 0, _ => none
  | _, [] => none
  | rounds + 1, c :: rest =>
    if c = '"' ∨ c = '\x27' then behindQuoted? c rest
    else if c = '[' ∨ c = '\x7b' then
      let rest := dropSpaces rest
      behindMembers? (c = '\x7b') rounds ((behindMember? (c = '\x7b') rounds rest).getD rest)
    else
      behindNumber? (c :: rest) <|> behindWord? ['n', 'u', 'l', 'l'] (c :: rest) <|>
        behindWord? ['t', 'r', 'u', 'e'] (c :: rest) <|>
        behindWord? ['f', 'a', 'l', 's', 'e'] (c :: rest)

/-- What follows an item of a list, or an entry of an object. -/
def behindMember? (keyed : Bool) : (rounds : Nat) → List Char → Option (List Char)
  | 0, _ => none
  | rounds + 1, cs =>
    if keyed then
      match cs with
      | [] => none
      | c :: rest =>
        if c = '"' ∨ c = '\x27' then do
          let rest ← behind? [':'] (dropSpaces (← behindQuoted? c rest))
          behindConstant? rounds (dropSpaces rest)
        else none
    else behindConstant? rounds cs

/-- What follows the other members and the bracket behind them. -/
def behindMembers? (keyed : Bool) : (rounds : Nat) → List Char → Option (List Char)
  | 0, _ => none
  | rounds + 1, cs =>
    match dropSpaces cs with
    | [] => none
    | c :: rest =>
      if c = (if keyed then '\x7d' else ']') then some rest
      else if c = ',' then do
        behindMembers? keyed rounds (← behindMember? keyed rounds (dropSpaces rest))
      else none
end

/-! ## What a constant says -/

/-- A text for single quotes as it stands between double ones. -/
def requoted : List Char → List Char
  | [] => []
  | '\\' :: '\x27' :: rest => '\x27' :: requoted rest
  | c :: rest => if c = '"' then '\\' :: c :: requoted rest else c :: requoted rest

/-- The value of a constant, if it is JSON. -/
def constantValue? (cs : List Char) : Option Value :=
  let json := match cs with
    | '\x27' :: rest => '"' :: requoted rest.dropLast ++ ['"']
    | _ => cs
  (Json.decode Json.value (String.ofList json)).toOption

end AppExport.Template
