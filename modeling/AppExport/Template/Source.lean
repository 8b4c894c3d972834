/-
The text of a template. Two opening braces begin a tag, unless a single backslash stands before
them: it goes away, and the braces are text. Of several backslashes before a tag the first goes
away.
-/
import AppExport.Template.Tag

namespace AppExport.Template

/-- Two opening braces. -/
def opening : List Char := ['\x7b', '\x7b']

/-- Whether a backslash stays, and how many of the characters behind it are text in any case: the
other backslashes or, of a single one that goes away, as many braces as there are, up to four. -/
def backslash (cs : List Char) : Bool × Nat :=
  let others := (cs.takeWhile (· = '\\')).length
  let braces := cs.drop others
  if !opening.isPrefixOf braces then (true, others)
  else if 0 < others then (false, others)
  else (false, if (opening ++ opening).isPrefixOf braces then 4 else 2)

/-- The text before the first tag, and what comes from the tag on. The first `escaped` characters
are text in any case. -/
def plain : (escaped : Nat) → List Char → List Char × List Char
  | _, [] => ([], [])
  | escaped + 1, c :: rest =>
    let (text, tags) := plain escaped rest
    (c :: text, tags)
  | 0, c :: rest =>
    if opening.isPrefixOf (c :: rest) then ([], c :: rest)
    else
      let (stays, escaped) := if c = '\\' then backslash rest else (true, 0)
      let (text, tags) := plain escaped rest
      (if stays then c :: text else text, tags)

/-- The pieces of the text at a mark; each round reads a tag. -/
def piecesFrom? : (rounds : Nat) → Mark → List Char → Option Template
  | 0, _, _ => none
  | rounds + 1, mark, cs => do
    let (text, rest) := plain 0 cs
    let before : Template := if text.isEmpty then [] else [.text (String.ofList text)]
    let mark := mark.after (readBefore rest cs)
    match rest with
    | [] => return before
    | _ =>
      let (head, arguments, behind) ← tag? (rest.drop opening.length)
      let others ← piecesFrom? rounds (mark.after (readBefore behind rest)) behind
      return before ++ .tag mark head arguments :: others

/-- The template that a text is, if its tags are well formed. -/
def ofText? (s : String) : Option Template := piecesFrom? (s.toList.length + 1) .start s.toList

end AppExport.Template
