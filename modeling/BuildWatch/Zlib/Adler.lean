/-!
The Adler-32 checksum: two sums modulo the largest prime below `2 ^ 16`.
-/

namespace BuildWatch.Zlib

def adlerModulus : Nat := 65521

def adlerStep (sums : Nat × Nat) (byte : UInt8) : Nat × Nat :=
  let first := (sums.1 + byte.toNat) % adlerModulus
  (first, (sums.2 + first) % adlerModulus)

def adler (bytes : ByteArray) : Nat :=
  let sums := bytes.foldl adlerStep (1, 0)
  sums.2 * 65536 + sums.1

end BuildWatch.Zlib
