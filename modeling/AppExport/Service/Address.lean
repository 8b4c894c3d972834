/-
Hosts that can be listened on: an IPv4 address, or an IPv6 address in brackets, with the number of
a zone behind it or not.
-/
import AppExport.Decimal.Digits
import AppExport.Text.Pieces

namespace AppExport.Service

open Decimal (isDigit ofDigits)

/-- A number up to 255 without needless zeros. -/
def isOctet (piece : List Char) : Bool :=
  !piece.isEmpty && piece.length ≤ 3 && piece.all isDigit && ofDigits piece ≤ 255 &&
    (piece.length == 1 || piece.head? != some '0')

def isIpv4 (host : List Char) : Bool :=
  let octets := Text.pieces '.' host
  octets.length == 4 && octets.all isOctet

def isGroup (piece : List Char) : Bool :=
  !piece.isEmpty && piece.length ≤ 4 &&
    piece.all fun c => isDigit c || ('a' ≤ c && c ≤ 'f') || ('A' ≤ c && c ≤ 'F')

/-- How many groups of 16 bits colons separate; an IPv4 address at the end makes two. -/
def groups? (ipv4 : Bool) (text : List Char) : Option Nat :=
  if text.isEmpty then some 0
  else
    let pieces := Text.pieces ':' text
    if pieces.all isGroup then some pieces.length
    else if ipv4 && pieces.dropLast.all isGroup && pieces.getLast?.any isIpv4 then
      some (pieces.length + 1)
    else none

/-- The texts before and behind the first double colon. -/
def aroundGap? : List Char → Option (List Char × List Char)
  | ':' :: ':' :: rest => some ([], rest)
  | c :: rest => (aroundGap? rest).map fun (before, behind) => (c :: before, behind)
  | [] => none

/-- Eight groups, or fewer with a gap in the place of at least one. -/
def isIpv6 (text : List Char) : Bool :=
  match aroundGap? text with
  | none => groups? true text == some 8
  | some (before, behind) =>
    match groups? false before, groups? true behind with
    | some a, some b => a + b ≤ 7
    | _, _ => false

def isZone (text : List Char) : Bool :=
  !text.isEmpty && text.all isDigit && ofDigits text < 0x1_0000_0000

def isAddress (host : String) : Bool :=
  match host.toList with
  | '[' :: rest =>
    let text := rest.dropLast
    let address := text.takeWhile (· ≠ '%')
    let zone := text.drop address.length
    rest.getLast? == some ']' && isIpv6 address && (zone.isEmpty || isZone (zone.drop 1))
  | cs => isIpv4 cs

end AppExport.Service
