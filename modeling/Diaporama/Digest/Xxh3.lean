import Diaporama.Digest.Bytes

/-!
# XXH3 with 128 bits

A seeded, non-cryptographic hash of a byte sequence. Up to 240 bytes are mixed with a fixed secret,
in one of five ways by length; longer sequences run through eight lanes in blocks of 16 stripes of
64 bytes, under a secret that depends on the seed.
-/

namespace Diaporama.Digest

structure Wide where
  high : UInt64
  low : UInt64
  deriving DecidableEq, Repr

namespace Xxh3

def prime32a : UInt64 := 0x9E3779B1
def prime32b : UInt64 := 0x85EBCA77
def prime32c : UInt64 := 0xC2B2AE3D
def prime64a : UInt64 := 0x9E3779B185EBCA87
def prime64b : UInt64 := 0xC2B2AE3D27D4EB4F
def prime64c : UInt64 := 0x165667B19E3779F9
def prime64d : UInt64 := 0x85EBCA77C2B2AE63
def prime64e : UInt64 := 0x27D4EB2F165667C5
def primeMixA : UInt64 := 0x165667919E3779F9
def primeMixB : UInt64 := 0x9FB21C651E98DF25

/-- The fixed secret, as words. -/
def secretWords : List UInt64 := [
  0xbe4ba423396cfeb8, 0x1cad21f72c81017c, 0xdb979083e96dd4de, 0x1f67b3b7a4a44072,
  0x78e5c0cc4ee679cb, 0x2172ffcc7dd05a82, 0x8e2443f7744608b8, 0x4c263a81e69035e0,
  0xcb00c391bb52283c, 0xa32e531b8b65d088, 0x4ef90da297486471, 0xd8acdea946ef1938,
  0x3f349ce33f76faa8, 0x1d4f0bc7c7bbdcf9, 0x3159b4cd4be0518a, 0x647378d9c97e9fc8,
  0xc3ebd33483acc5ea, 0xeb6313faffa081c5, 0x49daf0b751dd0d17, 0x9e68d429265516d3,
  0xfca1477d58be162b, 0xce31d07ad1b8f88f, 0x280416958f3acb45, 0x7e404bbbcafbd7af]

def secret : ByteArray :=
  (secretWords.flatMap littleEndian).toByteArray

def multiply (a b : UInt64) : Wide :=
  let product := a.toNat * b.toNat
  ⟨(product >>> 64).toUInt64, product.toUInt64⟩

def fold (a b : UInt64) : UInt64 :=
  let w := multiply a b
  w.high ^^^ w.low

def xorShift (w : UInt64) (n : UInt64) : UInt64 :=
  w ^^^ (w >>> n)

def avalanche (h : UInt64) : UInt64 :=
  xorShift (xorShift h 37 * primeMixA) 32

/-- The stronger final mix for the shortest inputs. -/
def avalancheShort (h : UInt64) : UInt64 :=
  xorShift (xorShift (xorShift h 33 * prime64b) 29 * prime64c) 32

def low32 (w : UInt64) : UInt64 := w &&& 0xFFFFFFFF

def hashEmpty (seed : UInt64) : Wide where
  high := avalancheShort (seed ^^^ word64 secret 80 ^^^ word64 secret 88)
  low := avalancheShort (seed ^^^ word64 secret 64 ^^^ word64 secret 72)

def hash3 (b : ByteArray) (seed : UInt64) : Wide :=
  let size := b.size
  let joined := byteAt b 0 <<< 16 ||| byteAt b (size / 2) <<< 24 ||| byteAt b (size - 1) |||
    size.toUInt64 <<< 8
  let swapped := swap32 joined
  let turned := low32 (swapped <<< 13 ||| swapped >>> 19)
  let flipLow := (word32 secret 0 ^^^ word32 secret 4) + seed
  let flipHigh := (word32 secret 8 ^^^ word32 secret 12) - seed
  ⟨avalancheShort (turned ^^^ flipHigh), avalancheShort (joined ^^^ flipLow)⟩

def hash8 (b : ByteArray) (seed : UInt64) : Wide :=
  let size := b.size
  let seed := seed ^^^ swap32 seed <<< 32
  let joined := word32 b 0 + word32 b (size - 4) <<< 32
  let keyed := joined ^^^ ((word64 secret 16 ^^^ word64 secret 24) + seed)
  let m := multiply keyed (prime64a + size.toUInt64 <<< 2)
  let high := m.high + m.low <<< 1
  let low := m.low ^^^ high >>> 3
  ⟨avalanche high, xorShift (xorShift low 35 * primeMixB) 28⟩

def hash16 (b : ByteArray) (seed : UInt64) : Wide :=
  let size := b.size
  let flipLow := (word64 secret 32 ^^^ word64 secret 40) - seed
  let flipHigh := (word64 secret 48 ^^^ word64 secret 56) + seed
  let first := word64 b 0
  let last := word64 b (size - 8)
  let m := multiply (first ^^^ last ^^^ flipLow) prime64a
  let low := m.low + (size - 1).toUInt64 <<< 54
  let keyed := last ^^^ flipHigh
  let high := m.high + (keyed + low32 keyed * (prime32b - 1))
  let low := low ^^^ swap64 high
  let h := multiply low prime64b
  ⟨avalanche (h.high + high * prime64b), avalanche h.low⟩

def mix16 (b : ByteArray) (i : Nat) (k : Nat) (seed : UInt64) : UInt64 :=
  fold (word64 b i ^^^ (word64 secret k + seed))
    (word64 b (i + 8) ^^^ (word64 secret (k + 8) - seed))

def mix32 (b : ByteArray) (seed : UInt64) (acc : Wide) (i j k : Nat) : Wide where
  low := (acc.low + mix16 b i k seed) ^^^ (word64 b j + word64 b (j + 8))
  high := (acc.high + mix16 b j (k + 16) seed) ^^^ (word64 b i + word64 b (i + 8))

def finishMiddle (acc : Wide) (size : UInt64) (seed : UInt64) : Wide where
  low := avalanche (acc.low + acc.high)
  high := 0 - avalanche
    (acc.low * prime64a + acc.high * prime64d + (size - seed) * prime64b)

/-- 17 to 128 bytes, from both ends inwards. -/
def hash128 (b : ByteArray) (seed : UInt64) : Wide :=
  let size := b.size
  let rounds := (size - 1) / 32
  let acc := (List.range (rounds + 1)).foldr
    (fun r acc => mix32 b seed acc (16 * r) (size - 16 * r - 16) (32 * r))
    ⟨0, size.toUInt64 * prime64a⟩
  finishMiddle acc size.toUInt64 seed

/-- 129 to 240 bytes, from left to right, the end once more. -/
def hash240 (b : ByteArray) (seed : UInt64) : Wide :=
  let size := b.size
  let acc := (List.range 4).foldl
    (fun acc r => mix32 b seed acc (32 * r) (32 * r + 16) (32 * r))
    ⟨0, size.toUInt64 * prime64a⟩
  let acc : Wide := ⟨avalanche acc.high, avalanche acc.low⟩
  let acc := (List.range (size / 32 - 4)).foldl
    (fun acc r => mix32 b seed acc (32 * r + 128) (32 * r + 144) (32 * r + 3)) acc
  finishMiddle (mix32 b (0 - seed) acc (size - 16) (size - 32) 103) size.toUInt64 seed

/-- The secret for long inputs: its words moved up and down by the seed in turn. -/
def seededSecret (seed : UInt64) : ByteArray :=
  let words := secretWords.zipIdx.map fun (word, i) =>
    if i % 2 = 0 then word + seed else word - seed
  (words.flatMap littleEndian).toByteArray

abbrev Lanes := Vector UInt64 8

def startLanes : Lanes :=
  #v[prime32c, prime64a, prime64b, prime64c, prime64d, prime32b, prime64e, prime32a]

def stripe (b key : ByteArray) (lanes : Lanes) (i k : Nat) : Lanes :=
  Vector.ofFn fun lane =>
    let keyed := word64 b (i + 8 * lane) ^^^ word64 key (k + 8 * lane)
    let other := if lane.val % 2 = 0 then lane.val + 1 else lane.val - 1
    lanes[lane] + word64 b (i + 8 * other) + low32 keyed * (keyed >>> 32)

def stripes (b key : ByteArray) (lanes : Lanes) (i count : Nat) : Lanes :=
  (List.range count).foldl (fun lanes n => stripe b key lanes (i + 64 * n) (8 * n)) lanes

def scramble (key : ByteArray) (lanes : Lanes) : Lanes :=
  Vector.ofFn fun lane =>
    (xorShift lanes[lane] 47 ^^^ word64 key (128 + 8 * lane)) * prime32a

def merge (key : ByteArray) (lanes : Lanes) (k : Nat) (start : UInt64) : UInt64 :=
  avalanche <| start +
    fold (lanes[0] ^^^ word64 key k) (lanes[1] ^^^ word64 key (k + 8)) +
    fold (lanes[2] ^^^ word64 key (k + 16)) (lanes[3] ^^^ word64 key (k + 24)) +
    fold (lanes[4] ^^^ word64 key (k + 32)) (lanes[5] ^^^ word64 key (k + 40)) +
    fold (lanes[6] ^^^ word64 key (k + 48)) (lanes[7] ^^^ word64 key (k + 56))

def hashLong (b : ByteArray) (seed : UInt64) : Wide :=
  let size := b.size
  let key := seededSecret seed
  let blocks := (size - 1) / 1024
  let lanes := (List.range blocks).foldl
    (fun lanes n => scramble key (stripes b key lanes (1024 * n) 16)) startLanes
  let lanes := stripes b key lanes (1024 * blocks) ((size - 1 - 1024 * blocks) / 64)
  let lanes := stripe b key lanes (size - 64) 121
  ⟨merge key lanes 117 (~~~(size.toUInt64 * prime64b)),
    merge key lanes 11 (size.toUInt64 * prime64a)⟩

def hash (seed : UInt64) (b : ByteArray) : Wide :=
  if b.size = 0 then hashEmpty seed
  else if b.size ≤ 3 then hash3 b seed
  else if b.size ≤ 8 then hash8 b seed
  else if b.size ≤ 16 then hash16 b seed
  else if b.size ≤ 128 then hash128 b seed
  else if b.size ≤ 240 then hash240 b seed
  else hashLong b seed

end Xxh3

end Diaporama.Digest
