/-
Clusters: the characters that a reader sees as one. A mark goes with the character before it and a
sign written ahead with the one behind it; Hangul letters join into syllables, flags are pairs of
letters, pictures go on behind a joiner, and consonants behind a mark that links them.
-/
import AppExport.Text.ClusterTable

namespace AppExport.Text

/-- What a character can join, apart from consonants. -/
inductive Joining where
  | control
  | ahead
  | mark
  | spacing
  | joiner
  | picture
  | flag
  /-- A Hangul letter that begins a syllable. -/
  | lead
  | vowel
  /-- A Hangul letter that ends a syllable. -/
  | trail
  | openSyllable
  | closedSyllable
  | other
deriving DecidableEq, Repr

namespace Joining

/-- Hangul letters and syllables. A syllable is open if no letter ends it. -/
def ofHangul? (code : Nat) : Option Joining :=
  let between (first last : Nat) : Bool := first ≤ code && code ≤ last
  if between 0x1100 0x115F || between 0xA960 0xA97C then some lead
  else if between 0x1160 0x11A7 || between 0xD7B0 0xD7C6 then some vowel
  else if between 0x11A8 0x11FF || between 0xD7CB 0xD7FB then some trail
  else if between 0xAC00 0xD7A3 then
    some (if (code - 0xAC00) % 28 = 0 then openSyllable else closedSyllable)
  else none

/-- Vowel signs of the Kirat Rai script join as Hangul vowels do. -/
def isKiratRaiVowel (code : Nat) : Bool :=
  code == 0x16D63 || (0x16D67 ≤ code && code ≤ 0x16D6A)

def ofChar (c : Char) : Joining :=
  if c = '\u200d' then joiner
  else if attachedRanges.contains c then if spacingRanges.contains c then spacing else mark
  else if controlRanges.contains c then control
  else if aheadRanges.contains c then ahead
  else if pictureRanges.contains c then picture
  else if 0x1F1E6 ≤ c.toNat ∧ c.toNat ≤ 0x1F1FF then flag
  else if isKiratRaiVowel c.toNat then vowel
  else (ofHangul? c.toNat).getD other

end Joining

/-- Whether a consonant and a link to the next one come first, before marks and joiners. The
characters are those before that next one, the nearest first. -/
def endsLinked (before : List Char) : Bool :=
  let linking (c : Char) : Bool :=
    c != '\u200c' && (Joining.ofChar c = .mark || Joining.ofChar c = .joiner)
  let run := before.takeWhile linking
  run.any linkerRanges.contains && (before.drop run.length).head?.any consonantRanges.contains

/-- Whether `b` goes on the cluster of `a`, with the characters before `a`, the nearest first. -/
def joins (before : List Char) (a b : Char) : Bool :=
  if a = '\r' then b = '\n'
  else
    match Joining.ofChar a, Joining.ofChar b with
    | .control, _ => false
    | _, .control => false
    | _, .mark | _, .spacing | _, .joiner | .ahead, _ => true
    | .lead, .lead | .lead, .vowel | .lead, .openSyllable | .lead, .closedSyllable => true
    | .openSyllable, .vowel | .openSyllable, .trail | .vowel, .vowel | .vowel, .trail => true
    | .closedSyllable, .trail | .trail, .trail => true
    | .joiner, .picture =>
      (before.dropWhile (Joining.ofChar · = .mark)).head?.any (Joining.ofChar · = .picture)
    | .flag, .flag => (before.takeWhile (Joining.ofChar · = .flag)).length % 2 = 0
    | _, _ => consonantRanges.contains b && endsLinked (a :: before)

/-- The clusters of a text that goes on behind `a`. -/
def clustersFrom (before cluster : List Char) (a : Char) : List Char → List (List Char)
  | [] => [(a :: cluster).reverse]
  | b :: rest =>
    if joins before a b then clustersFrom (a :: before) (a :: cluster) b rest
    else (a :: cluster).reverse :: clustersFrom (a :: before) [] b rest

def clusters : List Char → List (List Char)
  | [] => []
  | a :: rest => clustersFrom [] [] a rest

end AppExport.Text
