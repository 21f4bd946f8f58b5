import BuildWatch.Zlib.Adler

/-!
Writing a zlib stream.  The bytes are stored as they are, in blocks of at most
65535 bytes: any inflater gives them back.
-/

namespace BuildWatch.Zlib

def blockLimit : Nat := 65535

def littleEndian16 (value : Nat) : List UInt8 :=
  [UInt8.ofNat (value % 256), UInt8.ofNat (value / 256 % 256)]

def bigEndian32 (value : Nat) : List UInt8 :=
  [UInt8.ofNat (value / 16777216 % 256), UInt8.ofNat (value / 65536 % 256),
   UInt8.ofNat (value / 256 % 256), UInt8.ofNat (value % 256)]

def stored (final : Bool) (bytes : List UInt8) : List UInt8 :=
  (if final then 1 else 0) :: littleEndian16 bytes.length ++
    littleEndian16 (blockLimit - bytes.length) ++ bytes

def storedBlocks (bytes : List UInt8) : List UInt8 :=
  if blockLimit < bytes.length then
    stored false (bytes.take blockLimit) ++ storedBlocks (bytes.drop blockLimit)
  else stored true bytes
termination_by bytes.length
decreasing_by
  simp only [List.length_drop, blockLimit] at *
  omega

/-- The two bytes before the blocks: a window of 32 KiB, the usual level. -/
def headerBytes : List UInt8 := [120, 156]

def deflate (bytes : List UInt8) : List UInt8 :=
  headerBytes ++ storedBlocks bytes ++ bigEndian32 (adler ⟨bytes.toArray⟩)

end BuildWatch.Zlib
