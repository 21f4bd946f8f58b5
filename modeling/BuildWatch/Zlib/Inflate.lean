import BuildWatch.Zlib.Adler
import BuildWatch.Zlib.Huffman

/-!
Inflating a zlib stream.  The inflater runs until it has to write past the room
it is given; all that goes wrong before that is noticed.  A stream that ends
early is told apart from one that is broken.
-/

namespace BuildWatch.Zlib

inductive Halt where
  /-- The next byte does not fit. -/
  | full
  /-- The stream is not well formed. -/
  | broken
  /-- The stream ends too early. -/
  | cutShort
deriving Repr, DecidableEq

/-- The next bit to read, and the bytes written so far. -/
structure State where
  position : Nat := 0
  output : ByteArray := ByteArray.empty

/-- The inflater reads `input` and writes at most `room` bytes. -/
structure Task where
  input : ByteArray
  room : Nat

/-- A step of the inflater; what was written stays also when it stops. -/
abbrev Step := ReaderT Task (EStateM Halt State)

/-! ### Bits -/

def bit : Step Nat := do
  let task ← read
  let position ← modifyGet fun state => (state.position, { state with position := state.position + 1 })
  if position / 8 < task.input.size then
    let byte := task.input.get! (position / 8)
    return (byte.toNat >>> (position % 8)) % 2
  else throw .cutShort

def bits : Nat → Step Nat
  | 0 => return 0
  | count + 1 => do
      let low ← bit
      let high ← bits count
      return low + 2 * high

def align : Step Unit :=
  modify fun state => { state with position := (state.position + 7) / 8 * 8 }

/-! ### Output -/

def emit (byte : UInt8) : Step Unit := do
  let task ← read
  if (← get).output.size < task.room then
    modify fun state => { state with output := state.output.push byte }
  else throw .full

/-- Write bytes that already stand `distance` bytes back.  Before the first byte
there are zeros. -/
def copyBack (output : ByteArray) (distance : Nat) : Nat → ByteArray
  | 0 => output
  | count + 1 =>
      let byte := if distance ≤ output.size then output.get! (output.size - distance) else 0
      copyBack (output.push byte) distance count

def emitMatch (distance count : Nat) : Step Unit := do
  let task ← read
  let fits := (← get).output.size + count ≤ task.room
  if fits then
    modify fun state =>
      let output := state.output
      let state := { state with output := ByteArray.empty }
      { state with output := copyBack output distance count }
  else throw .full

/-! ### Code words -/

/-- Read a code word bit by bit.  Of the words of the present length, `first` is
the least and stands at `index` in the list of symbols. -/
def wordFrom (code : Code) (word first index : Nat) : List Nat → Step Nat
  | [] => throw .broken
  | count :: longer => do
      let next ← bit
      let word := 2 * word + next
      if word < first + count then return code.symbols[index + (word - first)]?.getD 0
      else wordFrom code word (2 * (first + count)) (index + count) longer

def word (code : Code) : Step Nat :=
  wordFrom code 0 0 0 code.counts

/-- The base and the number of extra bits of the lengths. -/
def lengthTable : Array (Nat × Nat) :=
  #[(3, 0), (4, 0), (5, 0), (6, 0), (7, 0), (8, 0), (9, 0), (10, 0), (11, 1), (13, 1), (15, 1),
    (17, 1), (19, 2), (23, 2), (27, 2), (31, 2), (35, 3), (43, 3), (51, 3), (59, 3), (67, 4),
    (83, 4), (99, 4), (115, 4), (131, 5), (163, 5), (195, 5), (227, 5), (258, 0)]

def distanceTable : Array (Nat × Nat) :=
  #[(1, 0), (2, 0), (3, 0), (4, 0), (5, 1), (7, 1), (9, 2), (13, 2), (17, 3), (25, 3), (33, 4),
    (49, 4), (65, 5), (97, 5), (129, 6), (193, 6), (257, 7), (385, 7), (513, 8), (769, 8),
    (1025, 9), (1537, 9), (2049, 10), (3073, 10), (4097, 11), (6145, 11), (8193, 12), (12289, 12),
    (16385, 13), (24577, 13)]

def tabled (table : Array (Nat × Nat)) (index : Nat) : Step Nat := do
  match table[index]? with
  | some (base, extra) => return base + (← bits extra)
  | none => throw .broken

/-- Read literals and matches up to the end of a block.  Every one takes a bit at
least, which bounds their number. -/
def symbols (literals distances : Code) : Nat → Step Unit
  | 0 => throw .cutShort
  | bound + 1 => do
      let symbol ← word literals
      if symbol < 256 then
        emit (UInt8.ofNat symbol)
        symbols literals distances bound
      else if symbol = 256 then return ()
      else
        let length ← tabled lengthTable (symbol - 257)
        let distance ← tabled distanceTable (← word distances)
        emitMatch distance length
        symbols literals distances bound

/-! ### Blocks -/

def fixedLiterals : List Nat :=
  List.replicate 144 8 ++ List.replicate 112 9 ++ List.replicate 24 7 ++ List.replicate 8 8

def fixedDistances : List Nat := List.replicate 32 5

/-- The order in which the lengths of the length code are written. -/
def lengthOrder : List Nat :=
  [16, 17, 18, 0, 8, 7, 9, 6, 10, 5, 11, 4, 12, 3, 13, 2, 14, 1, 15]

def codeOf (lengths : List Nat) (sparse : Bool) : Step Code :=
  match Code.ofLengths? lengths sparse with
  | some code => return code
  | none => throw .broken

def readOrderLengths : List Nat → Step (List (Nat × Nat))
  | [] => return []
  | symbol :: rest => do
      let length ← bits 3
      let lengths ← readOrderLengths rest
      return (symbol, length) :: lengths

/-- Read `wanted` code lengths, those read so far in reverse. -/
def readLengths (code : Code) (wanted : Nat) : Nat → List Nat → Step (List Nat)
  | 0, done => return done.reverse
  | bound + 1, done => do
      if wanted ≤ done.length then
        if done.length = wanted then return done.reverse else throw .broken
      else
        let symbol ← word code
        if symbol < 16 then readLengths code wanted bound (symbol :: done)
        else if symbol = 16 then
          match done with
          | [] => throw .broken
          | previous :: _ =>
              let count ← bits 2
              readLengths code wanted bound (List.replicate (3 + count) previous ++ done)
        else if symbol = 17 then
          let count ← bits 3
          readLengths code wanted bound (List.replicate (3 + count) 0 ++ done)
        else
          let count ← bits 7
          readLengths code wanted bound (List.replicate (11 + count) 0 ++ done)

def literalLimit : Nat := 286

def distanceLimit : Nat := 30

def readCodes : Step (Code × Code) := do
  let literalCount := 257 + (← bits 5)
  let distanceCount := 1 + (← bits 5)
  let orderCount := 4 + (← bits 4)
  if literalLimit < literalCount || distanceLimit < distanceCount then throw .broken
  let given ← readOrderLengths (lengthOrder.take orderCount)
  let lengthCode ← codeOf ((List.range 19).map fun symbol => (given.lookup symbol).getD 0) false
  let wanted := literalCount + distanceCount
  let lengths ← readLengths lengthCode wanted (wanted + 1) []
  let literals ← codeOf (lengths.take literalCount) true
  let distances ← codeOf (lengths.drop literalCount) true
  return (literals, distances)

def copyStored : Nat → Step Unit
  | 0 => return ()
  | count + 1 => do
      let task ← read
      if task.room ≤ (← get).output.size then throw .full
      let position ← modifyGet fun state =>
        (state.position, { state with position := state.position + 8 })
      if position / 8 < task.input.size then
        emit (task.input.get! (position / 8))
        copyStored count
      else throw .cutShort

def storedBlock : Step Unit := do
  align
  let length ← bits 16
  let complement ← bits 16
  if length + complement ≠ 65535 then throw .broken
  copyStored length

/-- One block; the answer says whether it is the last. -/
def block (bound : Nat) : Step Bool := do
  let final ← bit
  match ← bits 2 with
  | 0 => storedBlock
  | 1 => symbols (← codeOf fixedLiterals true) (← codeOf fixedDistances true) bound
  | 2 =>
      let (literals, distances) ← readCodes
      symbols literals distances bound
  | _ => throw .broken
  return final == 1

/-- Blocks up to the last one; each takes three bits at least. -/
def blocks (bound : Nat) : Nat → Step Unit
  | 0 => throw .cutShort
  | count + 1 => do
      if ← block bound then return () else blocks bound count

/-! ### Streams -/

/-- The two bytes before the blocks: the method is deflate, the window is at most
32 KiB, no dictionary is preset, and the pair is a multiple of 31. -/
def header : Step Unit := do
  let first ← bits 8
  let second ← bits 8
  if first % 16 ≠ 8 || 7 < first / 16 || second / 32 % 2 ≠ 0 || (first * 256 + second) % 31 ≠ 0 then
    throw .broken

def bigEndian : Nat → Nat → Step Nat
  | value, 0 => return value
  | value, count + 1 => do
      let byte ← bits 8
      bigEndian (value * 256 + byte) count

def stream : Step Unit := do
  let task ← read
  let bound := 8 * task.input.size + 1
  header
  blocks bound bound
  align
  let checksum ← bigEndian 0 4
  let output := (← get).output
  if adler output ≠ checksum then throw .broken

structure Inflation where
  bytes : ByteArray
  halt : Option Halt

/-- Inflate a stream into some room.  What follows the stream is ignored. -/
def inflate (input : ByteArray) (room : Nat) : Inflation :=
  match (stream.run { input := input, room := room }).run {} with
  | .ok _ state => { bytes := state.output, halt := none }
  | .error halt state => { bytes := state.output, halt := some halt }

end BuildWatch.Zlib
