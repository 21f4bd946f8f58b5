import BuildWatch.Project.Payload
import BuildWatch.Proofs.Base64
import BuildWatch.Proofs.Json.Written
import BuildWatch.Proofs.Text.Utf8
import BuildWatch.Proofs.Zlib.Room
import BuildWatch.Proofs.Zlib.Stored

/-!
A payload gives back the events it was made of, up to the exact number of bytes their
text has, by whatever compressor they were packed.
-/

namespace BuildWatch

open BuildWatch.Json

/-! ### Events -/

namespace ChangeEvent

theorem ofDocument?_written (event : ChangeEvent) :
    ofDocument? event.toJson.written = some event := by
  have hFields : Document.fields? fields event.toJson.written =
      some [some (Value.string event.path).written,
        some (Value.number (.int event.timestamp.toNat)).written,
        some (Value.string event.kind).written, some (Value.bool event.directory).written] := by
    rw [toJson, fields?_written]
    rfl
  rw [ofDocument?, hFields]
  simp [required, orElse, string?_written, uint64?_written, bool?_written]

theorem isWhole_listJson (events : List ChangeEvent) :
    (Value.array (events.map toJson)).isWhole = true := by
  rw [Value.isWhole, Value.areWhole_iff]
  intro item hItem
  obtain ⟨event, hEvent, rfl⟩ := List.mem_map.mp hItem
  rfl

end ChangeEvent

namespace Payload

/-! ### Unpacking -/

theorem le_roomFor (wanted : Nat) : wanted ≤ roomFor wanted := by
  rw [roomFor, windowSize]
  omega

/-- The limit is exact, though the inflater is given the room of whole windows. -/
theorem unpack_eq {stream bytes : ByteArray} {room limit : Nat}
    (hInflates : Zlib.inflate stream room = { bytes := bytes, halt := none })
    (hLimit : limit < countBound - 1) :
    unpack stream limit = if bytes.size ≤ limit then .ok bytes else .error (.tooLarge limit) := by
  have hWanted : (limit + 1) % countBound = limit + 1 := by
    apply Nat.mod_eq_of_lt
    omega
  have hRoom := le_roomFor (limit + 1)
  rw [unpack, hWanted]
  dsimp only
  rw [if_neg (Nat.succ_ne_zero limit)]
  by_cases hFits : bytes.size ≤ roomFor (limit + 1)
  · rw [Zlib.inflate_fits hInflates hFits]
    by_cases hSmall : bytes.size ≤ limit
    · rw [if_pos hSmall]
      exact if_neg (Nat.not_lt_of_le hSmall)
    · rw [if_neg hSmall]
      exact if_pos (Nat.lt_of_not_le hSmall)
  · have hLarge : ¬ bytes.size ≤ limit := by omega
    rw [Zlib.inflate_fills hInflates (Nat.lt_of_not_le hFits), if_neg hLarge]

/-! ### Decoding -/

theorem eventsOf_plain (events : List ChangeEvent) :
    eventsOf ⟨(plain events).toArray⟩ = .ok events := by
  have hDocument := Document.ofText?_text (ChangeEvent.isWhole_listJson events)
  have hEvents := list?_written ChangeEvent.ofDocument? ChangeEvent.toJson
    ChangeEvent.ofDocument?_written events
  have hText : Document.ofBytes? (plain events) =
      some (Value.array (events.map ChangeEvent.toJson)).written := by
    rw [Document.ofBytes?, plain, Text.Utf8.decode_bytesOf]
    exact hDocument
  rw [eventsOf, Bytes.toList_mk, hText, Option.bind_some, hEvents]

theorem decode?_trim_encode {before after : String} (bytes : List UInt8)
    (hBefore : Text.isBlankText before = true) (hAfter : Text.isBlankText after = true) :
    Base64.decode? (Text.trim (before ++ Base64.encode bytes ++ after)) = some bytes := by
  have hTrim : Text.trimList (Base64.encode bytes).toList = (Base64.encode bytes).toList := by
    apply Text.trimList_of_none
    intro char hChar
    rw [Base64.encode, String.toList_ofList] at hChar
    exact Base64.isBlank_encodeList hChar
  rw [Text.isBlankText, List.all_eq_true] at hBefore hAfter
  rw [Text.trim, String.toList_append, String.toList_append,
    Text.trimList_surrounded _ hBefore hAfter, hTrim, String.ofList_toList, Base64.decode?_encode]

theorem decodeLimited_encodeWith {compress : List UInt8 → List UInt8}
    (hRestores : Zlib.Restores compress) {before after : String}
    (hBefore : Text.isBlankText before = true) (hAfter : Text.isBlankText after = true)
    (events : List ChangeEvent) {limit : Nat} (hLimit : limit < countBound - 1) :
    decodeLimited (before ++ encodeWith compress events ++ after) limit =
      if (plain events).length ≤ limit then .ok events else .error (.tooLarge limit) := by
  obtain ⟨room, hInflates⟩ := hRestores (plain events)
  have hSize := Bytes.size_mk (plain events)
  rw [decodeLimited, encodeWith, decode?_trim_encode _ hBefore hAfter, packWith]
  dsimp only
  rw [unpack_eq hInflates hLimit, hSize]
  split
  · exact eventsOf_plain events
  · rfl

theorem decode_encodeWith {compress : List UInt8 → List UInt8}
    (hRestores : Zlib.Restores compress) {events : List ChangeEvent}
    (hSize : (plain events).length ≤ defaultLimit) :
    decode (encodeWith compress events) = .ok events := by
  have hBlank : Text.isBlankText "" = true := by decide
  have hDecoded := decodeLimited_encodeWith hRestores hBlank hBlank events
    (show defaultLimit < countBound - 1 by decide)
  rw [String.empty_append, String.append_empty, if_pos hSize] at hDecoded
  exact hDecoded

theorem decode_encode {events : List ChangeEvent}
    (hSize : (plain events).length ≤ defaultLimit) : decode (encode events) = .ok events :=
  decode_encodeWith Zlib.restores_deflate hSize

/-- Payloads are read back by the events they were made of, up to the exact limit, and
white space around them does not matter. -/
theorem payload_round_trip {compress : List UInt8 → List UInt8}
    (hRestores : Zlib.Restores compress) (events : List ChangeEvent) :
    (∀ before after limit, Text.isBlankText before = true → Text.isBlankText after = true →
      limit < countBound - 1 →
      decodeLimited (before ++ encodeWith compress events ++ after) limit =
        if (plain events).length ≤ limit then .ok events else .error (.tooLarge limit)) ∧
    ((plain events).length ≤ defaultLimit →
      decode (encodeWith compress events) = .ok events) := by
  constructor
  · intro before after limit hBefore hAfter hLimit
    exact decodeLimited_encodeWith hRestores hBefore hAfter events hLimit
  · intro hSize
    exact decode_encodeWith hRestores hSize

def twoEvents : List ChangeEvent :=
  [{ path := "/work/é \"1\"\n", timestamp := 18446744073709551615, kind := "modify" },
   { path := "", timestamp := 0, kind := "\x00", directory := true }]

theorem length_plain_twoEvents : (plain twoEvents).length = 155 := by
  rw [plain, Text.bytesOf_eq]
  decide +kernel

theorem payload_round_trip_atTheLimit :
    Zlib.Restores Zlib.deflate ∧ Text.isBlankText " \t" = true ∧ Text.isBlankText "\n" = true ∧
      decodeLimited (" \t" ++ encodeWith Zlib.deflate twoEvents ++ "\n") 155 = .ok twoEvents ∧
      decodeLimited (" \t" ++ encodeWith Zlib.deflate twoEvents ++ "\n") 154 =
        .error (.tooLarge 154) ∧
      decode (encodeWith Zlib.deflate twoEvents) = .ok twoEvents := by
  have hBefore : Text.isBlankText " \t" = true := by decide
  have hAfter : Text.isBlankText "\n" = true := by decide
  have hLength := length_plain_twoEvents
  obtain ⟨hLimited, hPlain⟩ := payload_round_trip Zlib.restores_deflate twoEvents
  have hFits := hLimited " \t" "\n" 155 hBefore hAfter (by decide)
  have hLarge := hLimited " \t" "\n" 154 hBefore hAfter (by decide)
  rw [hLength] at hFits hLarge hPlain
  exact ⟨Zlib.restores_deflate, hBefore, hAfter, hFits, hLarge, hPlain (by decide)⟩

end Payload

end BuildWatch
