import Diaporama.Digest.Xxh3
import Diaporama.Job

/-!
# Fingerprints

The fingerprint of a job is a hash of its arguments. They are framed first: their number, and then
each with its length before it, so that no two lists of arguments give the same bytes.
-/

namespace Diaporama

structure Fingerprint where
  high : UInt64
  low : UInt64
  deriving DecidableEq, Repr

namespace Fingerprint

def seed : UInt64 := 0x5f1de3a790c24b68

def frameOne (arg : String) : List UInt8 :=
  Digest.littleEndian arg.utf8ByteSize.toUInt64 ++ arg.toUTF8.toList

def frame (args : List String) : List UInt8 :=
  Digest.littleEndian args.length.toUInt64 ++ args.flatMap frameOne

def ofArgs (args : List String) : Fingerprint :=
  let w := Digest.Xxh3.hash seed (frame args).toByteArray
  ⟨w.high, w.low⟩

def hexWord (w : UInt64) : String :=
  let digits := Nat.toDigits 16 w.toNat
  String.ofList (List.replicate (16 - digits.length) '0' ++ digits)

def text (f : Fingerprint) : String :=
  hexWord f.high ++ hexWord f.low

end Fingerprint

def Job.fingerprint (j : Job Float) : Fingerprint :=
  .ofArgs j.args

end Diaporama
