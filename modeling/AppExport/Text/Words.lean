/-
Words of a name, and the ways to join them again.

A name is cut at hyphens, underscores and spaces, which go away, and between two clusters where a
small letter meets a capital, where a letter meets a digit, and before the last of a run of capitals
that a small letter follows (`HTTPRequest` has the words `HTTP` and `Request`).
-/
import AppExport.Text.Case
import AppExport.Text.Cluster

namespace AppExport.Text

abbrev Cluster := List Char

namespace Cluster

/-- A cluster has a case if its upper and its lower form differ. -/
def isCapital (c : Cluster) : Bool := upperChars c != lowerChars c && c == upperChars c

def isSmall (c : Cluster) : Bool := upperChars c != lowerChars c && c == lowerChars c

def isDigit (c : Cluster) : Bool := c.all Char.isDigit

def isSeparator (c : Cluster) : Bool := c == ['-'] || c == ['_'] || c == [' ']

end Cluster

/-- Whether a word ends between two neighbouring clusters, by themselves. -/
def cutBetween (a b : Cluster) : Bool :=
  (a.isSmall && b.isCapital) || (a.isCapital && b.isDigit) || (a.isDigit && b.isCapital) ||
    (a.isDigit && b.isSmall) || (a.isSmall && b.isDigit)

/-- Whether a word ends before `b`, which stands behind `a` and has `next` behind it. -/
def cutBefore (a b : Cluster) (next : Option Cluster) : Bool :=
  cutBetween a b ||
    match next with
    | some c => a.isCapital && b.isCapital && c.isSmall
    | none => false

/-- The words, empty ones included. `previous` is the cluster before, and `word` holds what the
current word has so far, the last cluster first. -/
def cutWords (previous : Option Cluster) (word : List Cluster) : List Cluster → List (List Char)
  | [] => [word.reverse.flatten]
  | b :: rest =>
    if b.isSeparator then word.reverse.flatten :: cutWords (some b) [] rest
    else
      match previous with
      | some a =>
        if cutBefore a b rest.head? then word.reverse.flatten :: cutWords (some b) [b] rest
        else cutWords (some b) (b :: word) rest
      | none => cutWords (some b) (b :: word) rest

def words (cs : List Char) : List (List Char) :=
  (cutWords none [] (clusters cs)).filter (!·.isEmpty)

/-- The first character in upper case and the rest in lower case. -/
def capitalized : List Char → List Char
  | [] => []
  | c :: rest => upperChar c ++ lowerChars rest

def pascalCase (s : String) : String :=
  String.ofList ((words s.toList).flatMap capitalized)

def camelCase (s : String) : String :=
  match words s.toList with
  | [] => ""
  | w :: rest => String.ofList (lowerChars w ++ rest.flatMap capitalized)

def snakeCase (s : String) : String :=
  String.ofList (['_'].intercalate ((words s.toList).map lowerChars))

def kebabCase (s : String) : String :=
  String.ofList (['-'].intercalate ((words s.toList).map lowerChars))

end AppExport.Text
