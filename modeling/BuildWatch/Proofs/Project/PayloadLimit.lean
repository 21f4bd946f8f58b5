import BuildWatch.Proofs.Project.Payload

/-!
The limit of a payload is exact.  A payload that is whole is refused as too large exactly if it
inflates to more bytes than the limit allows, whatever they are, and is read as they are if not; and
what is read within a limit is read within any greater one.
-/

namespace BuildWatch.Payload

open BuildWatch.Json

theorem wanted_eq {limit : Nat} (hLimit : limit < countBound - 1) :
    (limit + 1) % countBound = limit + 1 := by
  apply Nat.mod_eq_of_lt
  omega

theorem inflate_of_unpack {stream bytes : ByteArray} {limit : Nat}
    (hLimit : limit < countBound - 1) (hOk : unpack stream limit = .ok bytes) :
    Zlib.inflate stream (roomFor (limit + 1)) = { bytes := bytes, halt := none } ∧
      bytes.size ≤ limit := by
  rw [unpack, wanted_eq hLimit] at hOk
  dsimp only at hOk
  rw [if_neg (Nat.succ_ne_zero limit)] at hOk
  generalize Zlib.inflate stream (roomFor (limit + 1)) = inflation at hOk ⊢
  obtain ⟨found, halt⟩ := inflation
  cases halt with
  | none =>
      dsimp only at hOk
      split at hOk
      · cases hOk
      · rename_i hFits
        cases hOk
        exact ⟨rfl, Nat.le_of_not_lt hFits⟩
  | some halt =>
      cases halt with
      | full => cases hOk
      | broken => cases hOk
      | cutShort =>
          dsimp only at hOk
          split at hOk <;> cases hOk

theorem decodeLimited_eq_ok {message : String} {limit : Nat} {events : List ChangeEvent}
    (hOk : decodeLimited message limit = .ok events) :
    ∃ stream bytes, Base64.decode? (Text.trim message) = some stream ∧
      unpack ⟨stream.toArray⟩ limit = .ok bytes ∧ eventsOf bytes = .ok events := by
  unfold decodeLimited at hOk
  split at hOk
  · cases hOk
  · rename_i stream hStream
    cases hUnpack : unpack ⟨stream.toArray⟩ limit with
    | error error =>
        rw [hUnpack] at hOk
        cases hOk
    | ok bytes =>
        rw [hUnpack] at hOk
        exact ⟨stream, bytes, hStream, hUnpack, hOk⟩

theorem decodeLimited_of_inflate {message : String} {stream : List UInt8} {bytes : ByteArray}
    {room limit : Nat} (hStream : Base64.decode? (Text.trim message) = some stream)
    (hInflates : Zlib.inflate ⟨stream.toArray⟩ room = { bytes := bytes, halt := none })
    (hLimit : limit < countBound - 1) :
    decodeLimited message limit =
      if bytes.size ≤ limit then eventsOf bytes else .error (.tooLarge limit) := by
  rw [decodeLimited, hStream]
  dsimp only
  rw [unpack_eq hInflates hLimit]
  split <;> rfl

theorem eventsOf_ne_tooLarge (bytes : ByteArray) (limit : Nat) :
    eventsOf bytes ≠ .error (.tooLarge limit) := by
  unfold eventsOf
  split <;> exact nofun

theorem eventsOf_empty : eventsOf ByteArray.empty = .error .json := by
  have hDecoded : Text.Utf8.decode [] = [] := by decide
  have hTokens : tokens? [] = some [] := by
    rw [tokens?, tokensFrom?]
    rfl
  have hNone : Document.ofBytes? ByteArray.empty.toList = none := by
    rw [Bytes.toList_eq, show ByteArray.empty.data.toList = [] from rfl, Document.ofBytes?,
      hDecoded, Document.ofSource?, hTokens]
    rfl
  rw [eventsOf, hNone, Option.bind_none]

theorem decodeLimited_mono {message : String} {limit larger : Nat} {events : List ChangeEvent}
    (hLarger : limit ≤ larger) (hLimit : larger < countBound - 1)
    (hOk : decodeLimited message limit = .ok events) :
    decodeLimited message larger = .ok events := by
  obtain ⟨stream, bytes, hStream, hUnpack, hEvents⟩ := decodeLimited_eq_ok hOk
  obtain ⟨hInflates, hFits⟩ := inflate_of_unpack (Nat.lt_of_le_of_lt hLarger hLimit) hUnpack
  rw [decodeLimited_of_inflate hStream hInflates hLimit, if_pos (Nat.le_trans hFits hLarger)]
  exact hEvents

/-- Below the greatest number a limit is exact, and raising it takes nothing away. -/
theorem limit_is_exact (message : String) :
    (∀ limit larger events, limit ≤ larger → larger < countBound - 1 →
      decodeLimited message limit = .ok events → decodeLimited message larger = .ok events) ∧
    (∀ stream bytes room limit, Base64.decode? (Text.trim message) = some stream →
      Zlib.inflate ⟨stream.toArray⟩ room = { bytes := bytes, halt := none } →
      limit < countBound - 1 →
      (decodeLimited message limit = .error (.tooLarge limit) ↔ limit < bytes.size) ∧
      (bytes.size ≤ limit → decodeLimited message limit = eventsOf bytes)) := by
  constructor
  · intro limit larger events hLarger hLimit hOk
    exact decodeLimited_mono hLarger hLimit hOk
  · intro stream bytes room limit hStream hInflates hLimit
    rw [decodeLimited_of_inflate hStream hInflates hLimit]
    by_cases hFits : bytes.size ≤ limit
    · rw [if_pos hFits]
      exact ⟨iff_of_false (eventsOf_ne_tooLarge bytes limit) (Nat.not_lt_of_le hFits), fun _ => rfl⟩
    · rw [if_neg hFits]
      exact ⟨iff_of_true rfl (Nat.lt_of_not_le hFits), fun hSmall => absurd hSmall hFits⟩

/-- The JSON text of no events, packed with the fixed codes. -/
def noEvents : String := "eJyLjgUAARUAuQ=="

def noEventsStream : List UInt8 :=
  [0x78, 0x9c, 0x8b, 0x8e, 0x05, 0x00, 0x01, 0x15, 0x00, 0xb9]

theorem decode?_noEvents : Base64.decode? (Text.trim noEvents) = some noEventsStream := by
  decide +kernel

theorem inflate_noEvents :
    Zlib.inflate ⟨noEventsStream.toArray⟩ 2 =
      { bytes := ⟨(plain []).toArray⟩, halt := none } := by
  have hHalt : (Zlib.inflate ⟨noEventsStream.toArray⟩ 2).halt = none := by decide +kernel
  have hBytes : (Zlib.inflate ⟨noEventsStream.toArray⟩ 2).bytes = ⟨(plain []).toArray⟩ := by
    decide +kernel
  generalize Zlib.inflate ⟨noEventsStream.toArray⟩ 2 = inflation at hHalt hBytes ⊢
  obtain ⟨bytes, halt⟩ := inflation
  rw [← hHalt, ← hBytes]

theorem size_noEvents : (ByteArray.mk (plain []).toArray).size = 2 := by
  decide +kernel

theorem limit_is_exact_noEvents :
    Base64.decode? (Text.trim noEvents) = some noEventsStream ∧
      Zlib.inflate ⟨noEventsStream.toArray⟩ 2 =
        { bytes := ⟨(plain []).toArray⟩, halt := none } ∧
      decodeLimited noEvents 1 = .error (.tooLarge 1) ∧
      decodeLimited noEvents 2 = .ok [] ∧
      decodeLimited noEvents (countBound - 2) = .ok [] := by
  obtain ⟨hRaised, hExact⟩ := limit_is_exact noEvents
  obtain ⟨hLarge, _⟩ := hExact _ _ 2 1 decode?_noEvents inflate_noEvents (by decide)
  obtain ⟨_, hFits⟩ := hExact _ _ 2 2 decode?_noEvents inflate_noEvents (by decide)
  rw [size_noEvents] at hLarge hFits
  have hRead : decodeLimited noEvents 2 = .ok [] := (hFits (by decide)).trans (eventsOf_plain [])
  exact ⟨decode?_noEvents, inflate_noEvents, hLarge.mpr (by decide), hRead,
    hRaised 2 (countBound - 2) [] (by decide) (by decide) hRead⟩

/-- At the greatest number the count of bytes that are asked for starts again at zero: nothing is
inflated, and nothing is no JSON text. -/
theorem greatest_limit_reads_nothing :
    decodeLimited noEvents 2 = .ok [] ∧
      decodeLimited noEvents (countBound - 1) = .error .json := by
  constructor
  · rw [decodeLimited_of_inflate decode?_noEvents inflate_noEvents (by decide), size_noEvents,
      if_pos (Nat.le_refl 2)]
    exact eventsOf_plain []
  · rw [decodeLimited, decode?_noEvents]
    exact eventsOf_empty

end BuildWatch.Payload
