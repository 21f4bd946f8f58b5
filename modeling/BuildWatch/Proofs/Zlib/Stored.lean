import Mathlib.Tactic.Basic
import BuildWatch.Proofs.Bytes
import BuildWatch.Proofs.Zlib.Steps
import BuildWatch.Zlib.Deflate

/-!
Inflating gives back the bytes that were deflated.
-/

namespace BuildWatch.Zlib

/-! ### Bits of a byte -/

variable {input : ByteArray} {room : Nat}

theorem byte_ahead {index : Nat} {byte : UInt8} {rest : List UInt8}
    (hAhead : input.data.toList.drop index = byte :: rest) :
    index < input.size ∧ input.get! index = byte ∧ input.data.toList.drop (index + 1) = rest := by
  have hInside : index < input.data.toList.length := by
    apply Nat.lt_of_not_le
    intro hOutside
    rw [List.drop_eq_nil_of_le hOutside] at hAhead
    exact absurd hAhead.symm (List.cons_ne_nil _ _)
  rw [List.drop_eq_getElem_cons hInside] at hAhead
  injection hAhead with hByte hRest
  exact ⟨hInside, by rw [Bytes.get!_eq hInside, hByte], hRest⟩

theorem perform_bit_ahead {index offset : Nat} {byte : UInt8} {rest : List UInt8}
    (hAhead : input.data.toList.drop index = byte :: rest) (hOffset : offset < 8)
    (output : ByteArray) :
    perform bit input room { position := 8 * index + offset, output := output } =
      .ok (byte.toNat / Nat.pow 2 offset % 2)
        { position := 8 * index + (offset + 1), output := output } := by
  obtain ⟨hInside, hByte, -⟩ := byte_ahead hAhead
  have hIndex : (8 * index + offset) / 8 = index := by omega
  have hPlace : (8 * index + offset) % 8 = offset := by omega
  rw [perform_bit]
  simp only [hIndex, hPlace]
  rw [if_pos hInside, hByte, Nat.shiftRight_eq_div_pow]
  rfl

theorem perform_bits {index offset count : Nat} {byte : UInt8} {rest : List UInt8}
    (hAhead : input.data.toList.drop index = byte :: rest) (hCount : offset + count ≤ 8)
    (output : ByteArray) :
    perform (bits count) input room { position := 8 * index + offset, output := output } =
      .ok (byte.toNat / Nat.pow 2 offset % Nat.pow 2 count)
        { position := 8 * index + offset + count, output := output } := by
  induction count generalizing offset with
  | zero => simp [bits, Nat.mod_one]
  | succ count ih =>
      have hDouble : Nat.pow 2 (count + 1) = 2 * Nat.pow 2 count := Nat.pow_succ'
      have hNext : Nat.pow 2 (offset + 1) = Nat.pow 2 offset * 2 := rfl
      have hValue : byte.toNat / Nat.pow 2 offset % 2 +
          2 * (byte.toNat / Nat.pow 2 (offset + 1) % Nat.pow 2 count) =
            byte.toNat / Nat.pow 2 offset % Nat.pow 2 (count + 1) := by
        rw [hDouble, Nat.mod_mul, hNext, Nat.div_div_eq_div_mul]
      rw [bits, perform_bind_ok (perform_bit_ahead hAhead (by omega) output),
        perform_bind_ok (ih (by omega)), perform_pure, hValue]
      rw [show 8 * index + (offset + 1) + count = 8 * index + offset + (count + 1) by omega]

theorem perform_bits_add {low high first second : Nat} {state between last : State}
    (hLow : perform (bits first) input room state = .ok low between)
    (hHigh : perform (bits second) input room between = .ok high last) :
    perform (bits (first + second)) input room state = .ok (low + Nat.pow 2 first * high) last := by
  induction first generalizing low state with
  | zero =>
      cases hLow
      simpa using hHigh
  | succ first ih =>
      rw [bits] at hLow
      obtain ⟨lowest, next, hBit, hRest⟩ := perform_bind_eq_ok hLow
      obtain ⟨others, end', hBits, hDone⟩ := perform_bind_eq_ok hRest
      cases hDone
      rw [Nat.succ_add, bits, perform_bind_ok hBit, perform_bind_ok (ih hBits), perform_pure]
      rw [show Nat.pow 2 (first + 1) = Nat.pow 2 first * 2 from rfl, Nat.mul_add,
        Nat.mul_comm (Nat.pow 2 first) 2, Nat.mul_assoc, Nat.add_assoc]

/-! ### Whole bytes -/

/-- The inflater between two bytes of its input. -/
def between (index : Nat) (written : List UInt8) : State :=
  { position := 8 * index, output := ⟨written.toArray⟩ }

theorem perform_byte {index : Nat} {byte : UInt8} {rest written : List UInt8}
    (hAhead : input.data.toList.drop index = byte :: rest) :
    perform (bits 8) input room (between index written) =
      .ok byte.toNat (between (index + 1) written) := by
  have hCount : 0 + 8 ≤ 8 := Nat.le_refl 8
  have hBits : perform (bits 8) input room (between index written) = _ :=
    perform_bits hAhead hCount ⟨written.toArray⟩
  rw [show Nat.pow 2 0 = 1 from rfl, Nat.div_one, Nat.mod_eq_of_lt (UInt8.toNat_lt byte)] at hBits
  exact hBits

theorem perform_pair {index : Nat} {first second : UInt8} {rest written : List UInt8}
    (hAhead : input.data.toList.drop index = first :: second :: rest) :
    perform (bits 16) input room (between index written) =
      .ok (first.toNat + 256 * second.toNat) (between (index + 2) written) := by
  obtain ⟨-, -, hNext⟩ := byte_ahead hAhead
  exact perform_bits_add (perform_byte hAhead) (perform_byte hNext)

theorem perform_align_between (index : Nat) (written : List UInt8) :
    perform align input room (between index written) = .ok () (between index written) := by
  rw [perform_align]
  have hAligned : (8 * index + 7) / 8 * 8 = 8 * index := by omega
  simp only [between, hAligned]

theorem perform_bigEndian {bytes : List UInt8} {index value : Nat} {rest written : List UInt8}
    (hAhead : input.data.toList.drop index = bytes ++ rest) :
    perform (bigEndian value bytes.length) input room (between index written) =
      .ok (bytes.foldl (fun value byte => value * 256 + byte.toNat) value)
        (between (index + bytes.length) written) := by
  induction bytes generalizing index value with
  | nil => rfl
  | cons byte bytes ih =>
      obtain ⟨-, -, hNext⟩ := byte_ahead hAhead
      rw [List.length_cons, bigEndian, perform_bind_ok (perform_byte hAhead), ih hNext,
        List.foldl_cons, Nat.add_right_comm]
      rfl

theorem perform_copyStored_ahead {bytes : List UInt8} {index : Nat} {rest written : List UInt8}
    (hAhead : input.data.toList.drop index = bytes ++ rest)
    (hRoom : written.length + bytes.length ≤ room) :
    perform (copyStored bytes.length) input room (between index written) =
      .ok () (between (index + bytes.length) (written ++ bytes)) := by
  induction bytes generalizing index written with
  | nil =>
      rw [List.append_nil]
      rfl
  | cons byte bytes ih =>
      obtain ⟨hInside, hByte, hNext⟩ := byte_ahead hAhead
      have hSize : (between index written).output.size = written.length := Bytes.size_mk written
      have hIndex : (between index written).position / 8 = index := by
        simp only [between]
        omega
      have hState : State.mk ((between index written).position + 8)
          ((between index written).output.push byte) = between (index + 1) (written ++ [byte]) := by
        have hPushed : ByteArray.push ⟨written.toArray⟩ byte = ⟨(written ++ [byte]).toArray⟩ :=
          congrArg ByteArray.mk (List.push_toArray written byte)
        simp only [between, hPushed]
        rfl
      rw [List.length_cons] at hRoom
      rw [List.length_cons, perform_copyStored, hSize, hIndex, if_neg (by omega), if_pos hInside,
        hByte, hState, ih hNext (by rw [List.length_append, List.length_singleton]; omega),
        List.append_assoc, List.singleton_append, Nat.add_right_comm]
      rfl

/-! ### Stored blocks -/

theorem toNat_ofNat_mod (value : Nat) : (UInt8.ofNat (value % 256)).toNat = value % 256 := by
  exact Bytes.toNat_ofNat_of_lt (Nat.mod_lt _ (by decide))

theorem perform_littleEndian16 {value index : Nat} {rest written : List UInt8}
    (hValue : value ≤ blockLimit)
    (hAhead : input.data.toList.drop index = littleEndian16 value ++ rest) :
    perform (bits 16) input room (between index written) =
      .ok value (between (index + 2) written) := by
  rw [blockLimit] at hValue
  have hPair : perform (bits 16) input room (between index written) = _ := perform_pair hAhead
  rw [toNat_ofNat_mod, toNat_ofNat_mod,
    show value % 256 + 256 * (value / 256 % 256) = value by omega] at hPair
  exact hPair

theorem drop_ahead {index : Nat} {front rest : List UInt8}
    (hAhead : input.data.toList.drop index = front ++ rest) :
    input.data.toList.drop (index + front.length) = rest := by
  rw [← List.drop_drop, hAhead, List.drop_left]

theorem length_stored (final : Bool) (part : List UInt8) :
    (stored final part).length = part.length + 5 := by
  simp [stored, littleEndian16]

theorem perform_storedBlock {index : Nat} {part rest written : List UInt8}
    (hAhead : input.data.toList.drop index = littleEndian16 part.length ++
      (littleEndian16 (blockLimit - part.length) ++ (part ++ rest)))
    (hLimit : part.length ≤ blockLimit) (hRoom : written.length + part.length ≤ room)
    {state : State}
    (hAligned : perform align input room state = .ok () (between index written)) :
    perform storedBlock input room state =
      .ok () (between (index + 4 + part.length) (written ++ part)) := by
  have hComplement : input.data.toList.drop (index + 2) =
      littleEndian16 (blockLimit - part.length) ++ (part ++ rest) := drop_ahead hAhead
  have hPart : input.data.toList.drop (index + 4) = part ++ rest := drop_ahead hComplement
  have hSum : ¬ part.length + (blockLimit - part.length) ≠ 65535 := by
    rw [blockLimit] at hLimit ⊢
    omega
  rw [storedBlock, perform_bind_ok hAligned, perform_bind_ok (perform_littleEndian16 hLimit hAhead),
    perform_bind_ok (perform_littleEndian16 (Nat.sub_le _ _) hComplement)]
  dsimp only
  rw [if_neg hSum]
  exact perform_copyStored_ahead hPart hRoom

theorem perform_block {bound index : Nat} {final : Bool} {part rest written : List UInt8}
    (hAhead : input.data.toList.drop index = stored final part ++ rest)
    (hLimit : part.length ≤ blockLimit) (hRoom : written.length + part.length ≤ room) :
    perform (block bound) input room (between index written) =
      .ok final (between (index + (stored final part).length) (written ++ part)) := by
  have hBody : input.data.toList.drop index = (if final then 1 else 0) ::
      (littleEndian16 part.length ++
        (littleEndian16 (blockLimit - part.length) ++ (part ++ rest))) := by
    rw [hAhead, stored]
    simp
  -- Three bits of the first byte are read, the others are skipped.
  have hSkipped : (8 * index + 3 + 7) / 8 * 8 = 8 * (index + 1) := by omega
  have hAlign : perform align input room
      { position := 8 * index + 3, output := ⟨written.toArray⟩ } =
        .ok () (between (index + 1) written) := by
    rw [perform_align, between, hSkipped]
  have hStored := perform_storedBlock (byte_ahead hBody).2.2 hLimit hRoom hAlign
  have hLast : perform bit input room (between index written) = _ :=
    perform_bit_ahead hBody (show 0 < 8 by decide) ⟨written.toArray⟩
  have hKind : perform (bits 2) input room
      { position := 8 * index + 1, output := ⟨written.toArray⟩ } = _ :=
    perform_bits hBody (show 1 + 2 ≤ 8 by decide) ⟨written.toArray⟩
  rw [length_stored, block, perform_bind_ok hLast, perform_bind_ok hKind]
  have hIndex : index + 1 + 4 + part.length = index + (part.length + 5) := by omega
  rw [hIndex] at hStored
  cases final with
  | false => exact perform_bind_ok hStored
  | true => exact perform_bind_ok hStored

theorem perform_blocks {bound count index : Nat} {bytes rest written : List UInt8}
    (hAhead : input.data.toList.drop index = storedBlocks bytes ++ rest)
    (hCount : bytes.length < count) (hRoom : written.length + bytes.length ≤ room) :
    perform (blocks bound count) input room (between index written) =
      .ok () (between (index + (storedBlocks bytes).length) (written ++ bytes)) := by
  fun_induction storedBlocks bytes generalizing index count written with
  | case1 bytes hLong ih =>
      obtain ⟨count, rfl⟩ := Nat.exists_eq_succ_of_ne_zero (Nat.ne_of_gt (Nat.zero_lt_of_lt hCount))
      have hPositive : 0 < blockLimit := by decide
      have hPart : (bytes.take blockLimit).length = blockLimit :=
        List.length_take_of_le (Nat.le_of_lt hLong)
      have hTotal : blockLimit + (bytes.drop blockLimit).length = bytes.length := by
        rw [List.length_drop]
        omega
      rw [List.append_assoc] at hAhead
      have hBlock : perform (block bound) input room (between index written) = _ :=
        perform_block hAhead (Nat.le_of_eq hPart) (by omega)
      have hRoomLeft : (written ++ bytes.take blockLimit).length +
          (bytes.drop blockLimit).length ≤ room := by
        rw [List.length_append]
        omega
      have hOthers := ih (drop_ahead hAhead) (show _ < count by omega) hRoomLeft
      rw [blocks, perform_bind_ok hBlock, if_neg Bool.false_ne_true, hOthers, List.append_assoc,
        List.take_append_drop, List.length_append, Nat.add_assoc]
  | case2 bytes hShort =>
      obtain ⟨count, rfl⟩ := Nat.exists_eq_succ_of_ne_zero (Nat.ne_of_gt (Nat.zero_lt_of_lt hCount))
      rw [blocks, perform_bind_ok (perform_block hAhead (Nat.le_of_not_lt hShort) hRoom)]
      rfl

/-! ### Streams -/

theorem perform_header {index : Nat} {rest written : List UInt8}
    (hAhead : input.data.toList.drop index = headerBytes ++ rest) :
    perform header input room (between index written) = .ok () (between (index + 2) written) := by
  obtain ⟨-, -, hSecond⟩ := byte_ahead hAhead
  rw [header, perform_bind_ok (perform_byte hAhead), perform_bind_ok (perform_byte hSecond)]
  rfl

theorem adlerStep_lt (sums : Nat × Nat) (byte : UInt8) :
    (adlerStep sums byte).1 < adlerModulus ∧ (adlerStep sums byte).2 < adlerModulus :=
  ⟨Nat.mod_lt _ (by decide), Nat.mod_lt _ (by decide)⟩

theorem foldl_adlerStep_lt {bytes : List UInt8} {sums : Nat × Nat}
    (hSums : sums.1 < adlerModulus ∧ sums.2 < adlerModulus) :
    (bytes.foldl adlerStep sums).1 < adlerModulus ∧
      (bytes.foldl adlerStep sums).2 < adlerModulus := by
  induction bytes generalizing sums with
  | nil => exact hSums
  | cons byte rest ih => exact ih (adlerStep_lt sums byte)

theorem adler_lt (bytes : ByteArray) : adler bytes < 4294967296 := by
  have hStart : (1, 0).1 < adlerModulus ∧ (1, 0).2 < adlerModulus := by decide
  have hSums := @foldl_adlerStep_lt bytes.data.toList (1, 0) hStart
  rw [adlerModulus] at hSums
  rw [adler, Bytes.foldl_eq]
  omega

theorem perform_checksum {value index : Nat} {rest written : List UInt8}
    (hValue : value < 4294967296)
    (hAhead : input.data.toList.drop index = bigEndian32 value ++ rest) :
    perform (bigEndian 0 4) input room (between index written) =
      .ok value (between (index + 4) written) := by
  have hRead : perform (bigEndian 0 4) input room (between index written) = _ :=
    perform_bigEndian hAhead
  simp only [bigEndian32, List.foldl_cons, List.foldl_nil, toNat_ofNat_mod] at hRead
  rw [show (((0 * 256 + value / 16777216 % 256) * 256 + value / 65536 % 256) * 256 +
    value / 256 % 256) * 256 + value % 256 = value by omega] at hRead
  exact hRead

theorem length_le_storedBlocks (bytes : List UInt8) :
    bytes.length ≤ (storedBlocks bytes).length := by
  fun_induction storedBlocks bytes with
  | case1 bytes hLong ih =>
      rw [List.length_drop] at ih
      rw [List.length_append, length_stored, List.length_take_of_le (Nat.le_of_lt hLong)]
      omega
  | case2 bytes hShort =>
      rw [length_stored]
      omega

/-- Deflated bytes inflate to what they were, in no more room than they take. -/
theorem inflate_deflate (bytes : List UInt8) :
    inflate ⟨(deflate bytes).toArray⟩ bytes.length =
      { bytes := ⟨bytes.toArray⟩, halt := none } := by
  generalize hInput : ByteArray.mk (deflate bytes).toArray = input
  have hAhead : input.data.toList.drop 0 = headerBytes ++
      (storedBlocks bytes ++ (bigEndian32 (adler ⟨bytes.toArray⟩) ++ [])) := by
    rw [← hInput, List.drop_zero, deflate, List.append_assoc, List.append_nil]
  have hBlocks : input.data.toList.drop 2 =
      storedBlocks bytes ++ (bigEndian32 (adler ⟨bytes.toArray⟩) ++ []) := drop_ahead hAhead
  have hChecksum := drop_ahead hBlocks
  have hCount : bytes.length < 8 * input.size + 1 := by
    have hSize : input.size = (deflate bytes).length := by
      rw [← hInput, Bytes.size_mk]
    have hLength := length_le_storedBlocks bytes
    rw [hSize, deflate, List.length_append, List.length_append]
    omega
  have hRoom : ([] : List UInt8).length + bytes.length ≤ bytes.length :=
    Nat.le_of_eq (Nat.zero_add _)
  have hStart : ({} : State) = between 0 [] := rfl
  rw [inflate_eq, hStart, stream, perform_bind_ok (perform_read _ _ _)]
  dsimp only
  rw [perform_bind_ok (perform_header hAhead),
    perform_bind_ok (perform_blocks hBlocks hCount hRoom),
    perform_bind_ok (perform_align_between _ _),
    perform_bind_ok (perform_checksum (adler_lt _) hChecksum), perform_bind_ok (perform_get _ _ _)]
  have hAdler : ∀ index, ¬ adler (between index bytes).output ≠ adler ⟨bytes.toArray⟩ :=
    fun _ => not_not_intro rfl
  rw [List.nil_append, perform_ite, if_neg (hAdler _)]
  rfl

/-- Whether inflating gives back all that a compressor is given, if there is room. -/
def Restores (compress : List UInt8 → List UInt8) : Prop :=
  ∀ bytes, ∃ room,
    inflate ⟨(compress bytes).toArray⟩ room = { bytes := ⟨bytes.toArray⟩, halt := none }

theorem restores_deflate : Restores deflate :=
  fun bytes => ⟨bytes.length, inflate_deflate bytes⟩

end BuildWatch.Zlib
