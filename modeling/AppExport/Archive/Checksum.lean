/-
The CRC-32 of bytes: the remainder of a polynomial over two elements, lowest power first, with the
register inverted before and after.
-/
namespace AppExport.Archive

/-- The divisor without its leading power. -/
def divisor : UInt32 := 0xEDB88320

/-- The register after one bit. -/
def checksumBit (r : UInt32) : UInt32 :=
  if r &&& 1 = 1 then (r >>> 1) ^^^ divisor else r >>> 1

def checksumByte (r : UInt32) (b : UInt8) : UInt32 := Nat.repeat checksumBit 8 (r ^^^ b.toUInt32)

def checksum (bytes : List UInt8) : UInt32 := bytes.foldl checksumByte 0xFFFFFFFF ^^^ 0xFFFFFFFF

end AppExport.Archive
