/-!
# Words in byte sequences

Words are read and written with their lowest byte first; bytes behind the end count as zero.
-/

namespace Diaporama.Digest

def byteAt (b : ByteArray) (i : Nat) : UInt64 :=
  if h : i < b.size then b[i].toUInt64 else 0

def word32 (b : ByteArray) (i : Nat) : UInt64 :=
  byteAt b i ||| byteAt b (i + 1) <<< 8 ||| byteAt b (i + 2) <<< 16 ||| byteAt b (i + 3) <<< 24

def word64 (b : ByteArray) (i : Nat) : UInt64 :=
  word32 b i ||| word32 b (i + 4) <<< 32

def littleEndian (w : UInt64) : List UInt8 :=
  (List.range 8).map fun i => (w >>> (8 * i.toUInt64)).toUInt8

/-- The low 32 bits with their bytes in the opposite order. -/
def swap32 (w : UInt64) : UInt64 :=
  (w &&& 0xFF) <<< 24 ||| (w >>> 8 &&& 0xFF) <<< 16 ||| (w >>> 16 &&& 0xFF) <<< 8 |||
    (w >>> 24 &&& 0xFF)

def swap64 (w : UInt64) : UInt64 :=
  swap32 w <<< 32 ||| swap32 (w >>> 32)

end Diaporama.Digest
