/-
The bytes of an archive: a local record for each entry, then a directory of all of them, then a
closing record. Contents are deflate streams of stored blocks, which any reader expands without
loss; names are UTF-8.
-/
import AppExport.Archive.Entry

namespace AppExport.Archive

/-- A number in `width` bytes, the lowest first. -/
def littleEndian (width n : Nat) : List UInt8 :=
  (List.range width).map fun i => UInt8.ofNat (n >>> (8 * i))

/-- How contents are stored. -/
structure Method where
  code : Nat
  name : String

def deflated : Method := ⟨8, "Deflated"⟩

/-- The time of a change as an archive has it, in years since 1980 and to two seconds. -/
structure Stamp where
  year : Nat
  month : Nat
  day : Nat
  hour : Nat
  minute : Nat
  second : Nat

namespace Stamp

/-- The earliest time there is, which stands for none. -/
def earliest : Stamp := ⟨1980, 1, 1, 0, 0, 0⟩

def time (s : Stamp) : Nat := s.hour * 2048 + s.minute * 32 + s.second / 2

def date (s : Stamp) : Nat := (s.year - 1980) * 512 + s.month * 32 + s.day

/-- A number with a zero in front of a single digit. -/
def twoDigits (n : Nat) : String := if n < 10 then "0" ++ toString n else toString n

def text (s : Stamp) : String :=
  "-".intercalate [toString s.year, twoDigits s.month, twoDigits s.day] ++ " " ++
    ":".intercalate [twoDigits s.hour, twoDigits s.minute, twoDigits s.second]

end Stamp

/-! ## Contents -/

/-- The largest stored block. -/
def blockSize : Nat := 65535

def storedBlock (last : Bool) (bytes : List UInt8) : List UInt8 :=
  (if last then 1 else 0) :: littleEndian 2 bytes.length ++
    littleEndian 2 (65535 - bytes.length) ++ bytes

def stream (bytes : List UInt8) : List UInt8 :=
  if bytes.length ≤ blockSize then storedBlock true bytes
  else storedBlock false (bytes.take blockSize) ++ stream (bytes.drop blockSize)
termination_by bytes.length
decreasing_by simp only [List.length_drop, blockSize] at *; omega

/-! ## Records -/

/-- What the local record and the directory both say of an entry. -/
def description (e : Entry) : List UInt8 :=
  littleEndian 2 20 ++ littleEndian 2 0x0800 ++ littleEndian 2 deflated.code ++
    littleEndian 2 Stamp.earliest.time ++ littleEndian 2 Stamp.earliest.date ++
    littleEndian 4 e.checksum.toNat ++ littleEndian 4 (stream e.bytes).length ++
    littleEndian 4 e.size ++ littleEndian 2 e.name.utf8ByteSize

def localRecord (e : Entry) : List UInt8 :=
  littleEndian 4 0x04034B50 ++ description e ++ littleEndian 2 0 ++ e.name.toUTF8.toList ++
    stream e.bytes

/-- The directory's record of an entry whose local record begins at an offset. -/
def directoryRecord (e : Entry) (offset : Nat) : List UInt8 :=
  littleEndian 4 0x02014B50 ++ littleEndian 2 20 ++ description e ++ littleEndian 2 0 ++
    littleEndian 2 0 ++ littleEndian 2 0 ++ littleEndian 2 0 ++ littleEndian 4 0 ++
    littleEndian 4 offset ++ e.name.toUTF8.toList

def directory (offset : Nat) : List Entry → List UInt8
  | [] => []
  | e :: rest => directoryRecord e offset ++ directory (offset + (localRecord e).length) rest

def closingRecord (count size offset : Nat) : List UInt8 :=
  littleEndian 4 0x06054B50 ++ littleEndian 2 0 ++ littleEndian 2 0 ++ littleEndian 2 count ++
    littleEndian 2 count ++ littleEndian 4 size ++ littleEndian 4 offset ++ littleEndian 2 0

def container (entries : List Entry) : List UInt8 :=
  let records := entries.flatMap localRecord
  let listing := directory 0 entries
  records ++ listing ++ closingRecord entries.length listing.length records.length

end AppExport.Archive
