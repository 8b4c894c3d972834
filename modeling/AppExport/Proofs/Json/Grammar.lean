/-
The grammar of JSON. It says which texts are values without regard to what they hold: brackets may
nest to any depth, numbers may be of any size and texts may have escapes that stand for nothing.
-/
import AppExport.Proofs.Json.Reads

namespace AppExport.Json

open Text (Glyph)

/-! ## Tokens -/

def Blanks (gs : List Glyph) : Prop := ∀ g ∈ gs, Cursor.isBlank g = true

/-- One digit or more. -/
structure IsDigits (gs : List Glyph) : Prop where
  ne_nil : gs ≠ []
  digits : ∀ g ∈ gs, g.digit?.isSome = true

/-- The digits before the point; a zero stands alone. -/
inductive IsWhole : List Glyph → Prop
  | zero : IsWhole [.char '0']
  | digits {gs : List Glyph} (h : IsDigits gs) (hzero : gs.head? ≠ some (.char '0')) : IsWhole gs

inductive IsFraction : List Glyph → Prop
  | absent : IsFraction []
  | present {gs : List Glyph} (h : IsDigits gs) : IsFraction (.char '.' :: gs)

inductive IsExponent : List Glyph → Prop
  | absent : IsExponent []
  | present {letter : Char} {sign gs : List Glyph} (hletter : letter = 'e' ∨ letter = 'E')
    (hsign : sign = [] ∨ sign = [.char '-'] ∨ sign = [.char '+']) (h : IsDigits gs) :
    IsExponent (.char letter :: (sign ++ gs))

/-- What follows the digits before the point. -/
inductive IsScale : List Glyph → Prop
  | mk {fraction exponent : List Glyph} (hfraction : IsFraction fraction)
    (hexponent : IsExponent exponent) : IsScale (fraction ++ exponent)

/-- A number without its sign. -/
inductive IsNatural : List Glyph → Prop
  | mk {whole scale : List Glyph} (hwhole : IsWhole whole) (hscale : IsScale scale) :
    IsNatural (whole ++ scale)

/-- What follows the opening quote of a text, its closing quote included. -/
inductive IsQuoted : List Glyph → Prop
  | closing : IsQuoted [.char '"']
  | plain {g : Glyph} {gs : List Glyph} (hquote : g ≠ .char '"') (hslash : g ≠ .char '\\')
    (hcontrol : isControl g = false) (h : IsQuoted gs) : IsQuoted (g :: gs)
  | letter {g : Glyph} {gs : List Glyph} (hletter : (letterEscape? g).isSome = true)
    (h : IsQuoted gs) : IsQuoted (.char '\\' :: g :: gs)
  | code {a b d e : Glyph} {gs : List Glyph}
    (hdigits : ∀ g ∈ [a, b, d, e], g.hexDigit?.isSome = true) (h : IsQuoted gs) :
    IsQuoted (.char '\\' :: .char 'u' :: a :: b :: d :: e :: gs)

/-! ## Values -/

/-- What stands before an item: nothing before the first one, else a comma. -/
inductive IsComma : Bool → List Glyph → Prop
  | first : IsComma true []
  | next {blanks : List Glyph} (h : Blanks blanks) : IsComma false (blanks ++ [.char ','])

/-- The kinds of texts that make up values. The items of a list and the entries of an object are
what follows the opening bracket, or an item or entry in it, up to the closing bracket. -/
inductive Part where
  | value
  | items (first : Bool)
  | entries (first : Bool)

inductive IsPart : Part → List Glyph → Prop
  | word {letters : String} (h : letters ∈ ["null", "true", "false"]) :
    IsPart .value (letters.toList.map .char)
  | natural {gs : List Glyph} (h : IsNatural gs) : IsPart .value gs
  | negative {gs : List Glyph} (h : IsNatural gs) : IsPart .value (.char '-' :: gs)
  | text {gs : List Glyph} (h : IsQuoted gs) : IsPart .value (.char '"' :: gs)
  | list {gs : List Glyph} (h : IsPart (.items true) gs) : IsPart .value (.char '[' :: gs)
  | object {gs : List Glyph} (h : IsPart (.entries true) gs) :
    IsPart .value (.char '\x7b' :: gs)
  | noItem {first : Bool} {blanks : List Glyph} (hblanks : Blanks blanks) :
    IsPart (.items first) (blanks ++ [.char ']'])
  | item {first : Bool} {comma blanks v gs : List Glyph} (hcomma : IsComma first comma)
    (hblanks : Blanks blanks) (hv : IsPart .value v) (h : IsPart (.items false) gs) :
    IsPart (.items first) (comma ++ (blanks ++ v) ++ gs)
  | noEntry {first : Bool} {blanks : List Glyph} (hblanks : Blanks blanks) :
    IsPart (.entries first) (blanks ++ [.char '\x7d'])
  | entry {first : Bool} {comma before key between blanks v gs : List Glyph}
    (hcomma : IsComma first comma) (hbefore : Blanks before) (hkey : IsQuoted key)
    (hbetween : Blanks between) (hblanks : Blanks blanks) (hv : IsPart .value v)
    (h : IsPart (.entries false) gs) :
    IsPart (.entries first)
      (comma ++ (before ++ .char '"' :: key) ++ (between ++ .char ':' :: (blanks ++ v)) ++ gs)

abbrev IsValue (gs : List Glyph) : Prop := IsPart .value gs

/-- A value with blanks before it. -/
def IsSpaced (gs : List Glyph) : Prop := ∃ blanks v, gs = blanks ++ v ∧ Blanks blanks ∧ IsValue v

end AppExport.Json
