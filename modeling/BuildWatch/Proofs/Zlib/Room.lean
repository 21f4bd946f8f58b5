import Mathlib.Tactic.SplitIfs
import BuildWatch.Proofs.Zlib.Steps

/-!
The room of the inflater only limits it.  What it writes within some room it writes
within every room that holds it, and with less room it stops because it is full.
-/

namespace BuildWatch.Zlib

/-- The room only limits a step: if the step ends with some room, it has kept what was
written before, ends in the same way with any room for what is written then, and is
stopped by any less. -/
structure Limited {α : Type} (input : ByteArray) (step : Step α) : Prop where
  grows : ∀ {room state value next}, perform step input room state = .ok value next →
    state.output.size ≤ next.output.size
  fits : ∀ {room state value next other}, perform step input room state = .ok value next →
    next.output.size ≤ other → perform step input other state = .ok value next
  fills : ∀ {room state value next other}, perform step input room state = .ok value next →
    state.output.size ≤ other → other < next.output.size →
    ∃ stopped, perform step input other state = .error .full stopped

namespace Limited

variable {α β : Type} {input : ByteArray}

theorem of_silent {step : Step α} {run : State → EStateM.Result Halt State α}
    (hRun : ∀ room state, perform step input room state = run state)
    (hSilent : ∀ {state value next}, run state = .ok value next → next.output = state.output) :
    Limited input step where
  grows := by
    intro room state value next hOk
    rw [hRun] at hOk
    exact Nat.le_of_eq (congrArg ByteArray.size (hSilent hOk).symm)
  fits := by
    intro room state value next other hOk _
    rw [hRun] at hOk ⊢
    exact hOk
  fills := by
    intro room state value next other hOk hLeast hMost
    rw [hRun] at hOk
    rw [hSilent hOk] at hMost
    omega

theorem of_write {step : Step Unit} (count : Nat) (write : ByteArray → ByteArray)
    (hStep : ∀ room state, perform step input room state =
      if state.output.size + count ≤ room then
        .ok () { state with output := write state.output }
      else .error .full state)
    (hSize : ∀ output, (write output).size = output.size + count) : Limited input step where
  grows := by
    intro room state value next hOk
    rw [hStep] at hOk
    split_ifs at hOk
    cases hOk
    rw [hSize]
    exact Nat.le_add_right _ _
  fits := by
    intro room state value next other hOk hRoom
    rw [hStep] at hOk ⊢
    split_ifs at hOk
    cases hOk
    rw [hSize] at hRoom
    exact if_pos hRoom
  fills := by
    intro room state value next other hOk hLeast hMost
    rw [hStep] at hOk ⊢
    split_ifs at hOk
    cases hOk
    rw [hSize] at hMost
    exact ⟨state, if_neg (Nat.not_le_of_lt hMost)⟩

theorem pure (value : α) : Limited input (Pure.pure value : Step α) := by
  apply of_silent (perform_pure input · · value)
  rintro state value next ⟨⟩
  rfl

theorem throw (halt : Halt) : Limited input (MonadExcept.throw halt : Step α) := by
  apply of_silent (perform_throw input · · halt)
  rintro state value next ⟨⟩

theorem bind {first : Step α} {second : α → Step β} (hFirst : Limited input first)
    (hSecond : ∀ value, Limited input (second value)) : Limited input (first >>= second) where
  grows := by
    intro room state value next hOk
    obtain ⟨mid, between, hMid, hEnd⟩ := perform_bind_eq_ok hOk
    exact Nat.le_trans (hFirst.grows hMid) ((hSecond mid).grows hEnd)
  fits := by
    intro room state value next other hOk hRoom
    obtain ⟨mid, between, hMid, hEnd⟩ := perform_bind_eq_ok hOk
    have hGrows := (hSecond mid).grows hEnd
    rw [perform_bind_ok (hFirst.fits hMid (Nat.le_trans hGrows hRoom))]
    exact (hSecond mid).fits hEnd hRoom
  fills := by
    intro room state value next other hOk hLeast hMost
    obtain ⟨mid, between, hMid, hEnd⟩ := perform_bind_eq_ok hOk
    by_cases hFit : between.output.size ≤ other
    · rw [perform_bind_ok (hFirst.fits hMid hFit)]
      exact (hSecond mid).fills hEnd hFit hMost
    · obtain ⟨stopped, hStopped⟩ := hFirst.fills hMid hLeast (by omega)
      exact ⟨stopped, perform_bind_error hStopped⟩

theorem ite {condition : Prop} [Decidable condition] {first second : Step α}
    (hFirst : Limited input first) (hSecond : Limited input second) :
    Limited input (if condition then first else second) := by
  split_ifs
  · exact hFirst
  · exact hSecond

theorem guard {condition : Prop} [Decidable condition] {halt : Halt} {rest : PUnit → Step α}
    (hRest : Limited input (rest ())) :
    Limited input (if condition then MonadExcept.throw halt >>= rest else rest ()) :=
  ite (bind (throw halt) fun _ => hRest) hRest

theorem ask (step : ByteArray → Step α) (hStep : Limited input (step input)) :
    Limited input (do let task ← read; step task.input) :=
  ⟨hStep.grows, hStep.fits, hStep.fills⟩

theorem look {step : State → Step α} (hStep : ∀ state, Limited input (step state)) :
    Limited input (get >>= step) :=
  ⟨fun {_ state} => (hStep state).grows, fun {_ state} => (hStep state).fits,
    fun {_ state} => (hStep state).fills⟩

end Limited

variable {input : ByteArray}

/-! ### Bits -/

theorem limited_bit : Limited input bit := by
  apply Limited.of_silent (fun room state => perform_bit input room state)
  intro state value next hOk
  split_ifs at hOk
  cases hOk
  rfl

theorem limited_bits (count : Nat) : Limited input (bits count) := by
  induction count with
  | zero => exact Limited.pure 0
  | succ count ih =>
      rw [bits]
      apply Limited.bind limited_bit
      intro low
      apply Limited.bind ih
      intro high
      exact Limited.pure _

theorem limited_align : Limited input align := by
  apply Limited.of_silent (fun room state => perform_align input room state)
  rintro state value next ⟨⟩
  rfl

/-! ### Output -/

theorem limited_emit (byte : UInt8) : Limited input (emit byte) := by
  apply Limited.of_write 1 (fun output => output.push byte)
  · intro room state
    exact perform_emit input room state byte
  · intro output
    exact ByteArray.size_push

theorem size_copyBack (output : ByteArray) (distance count : Nat) :
    (copyBack output distance count).size = output.size + count := by
  induction count generalizing output with
  | zero => rfl
  | succ count ih =>
      rw [copyBack, ih, ByteArray.size_push]
      omega

theorem limited_emitMatch (distance count : Nat) : Limited input (emitMatch distance count) := by
  apply Limited.of_write count (fun output => copyBack output distance count)
  · intro room state
    exact perform_emitMatch input room state distance count
  · intro output
    exact size_copyBack output distance count

/-! ### Code words -/

theorem limited_wordFrom (code : Code) (word first index : Nat) (counts : List Nat) :
    Limited input (wordFrom code word first index counts) := by
  induction counts generalizing word first index with
  | nil => exact Limited.throw .broken
  | cons count longer ih =>
      rw [wordFrom]
      apply Limited.bind limited_bit
      intro next
      apply Limited.ite
      · exact Limited.pure _
      · exact ih _ _ _

theorem limited_tabled (table : Array (Nat × Nat)) (index : Nat) :
    Limited input (tabled table index) := by
  unfold tabled
  split
  · apply Limited.bind (limited_bits _)
    intro value
    exact Limited.pure _
  · exact Limited.throw .broken

theorem limited_symbols (literals distances : Code) (bound : Nat) :
    Limited input (symbols literals distances bound) := by
  induction bound with
  | zero => exact Limited.throw .cutShort
  | succ bound ih =>
      rw [symbols]
      apply Limited.bind (limited_wordFrom _ _ _ _ _)
      intro symbol
      apply Limited.ite
      · apply Limited.bind (limited_emit _)
        intro _
        exact ih
      apply Limited.ite
      · exact Limited.pure ()
      apply Limited.bind (limited_tabled _ _)
      intro length
      apply Limited.bind (limited_wordFrom _ _ _ _ _)
      intro index
      apply Limited.bind (limited_tabled _ _)
      intro distance
      apply Limited.bind (limited_emitMatch _ _)
      intro _
      exact ih

/-! ### Blocks -/

theorem limited_codeOf (lengths : List Nat) (sparse : Bool) :
    Limited input (codeOf lengths sparse) := by
  unfold codeOf
  split
  · exact Limited.pure _
  · exact Limited.throw .broken

theorem limited_readOrderLengths (order : List Nat) :
    Limited input (readOrderLengths order) := by
  induction order with
  | nil => exact Limited.pure []
  | cons symbol rest ih =>
      rw [readOrderLengths]
      apply Limited.bind (limited_bits 3)
      intro length
      apply Limited.bind ih
      intro lengths
      exact Limited.pure _

theorem limited_readLengths (code : Code) (wanted bound : Nat) (done : List Nat) :
    Limited input (readLengths code wanted bound done) := by
  induction bound generalizing done with
  | zero => exact Limited.pure _
  | succ bound ih =>
      unfold readLengths
      apply Limited.ite
      · apply Limited.ite
        · exact Limited.pure _
        · exact Limited.throw .broken
      apply Limited.bind (limited_wordFrom _ _ _ _ _)
      intro symbol
      apply Limited.ite
      · exact ih _
      apply Limited.ite
      · split
        · exact Limited.throw .broken
        · apply Limited.bind (limited_bits 2)
          intro count
          exact ih _
      apply Limited.ite
      · apply Limited.bind (limited_bits 3)
        intro count
        exact ih _
      · apply Limited.bind (limited_bits 7)
        intro count
        exact ih _

theorem limited_readCodes : Limited input readCodes := by
  unfold readCodes
  apply Limited.bind (limited_bits 5)
  intro literalCount
  apply Limited.bind (limited_bits 5)
  intro distanceCount
  apply Limited.bind (limited_bits 4)
  intro orderCount
  apply Limited.guard
  apply Limited.bind (limited_readOrderLengths _)
  intro given
  apply Limited.bind (limited_codeOf _ _)
  intro lengthCode
  apply Limited.bind (limited_readLengths _ _ _ _)
  intro lengths
  apply Limited.bind (limited_codeOf _ _)
  intro literals
  apply Limited.bind (limited_codeOf _ _)
  intro distances
  exact Limited.pure _

theorem limited_copyStored (count : Nat) : Limited input (copyStored count) := by
  induction count with
  | zero => exact Limited.pure ()
  | succ count ih =>
      constructor
      · intro room state value next hOk
        rw [perform_copyStored] at hOk
        split_ifs at hOk with hFull hInside
        have hGrows := ih.grows hOk
        rw [ByteArray.size_push] at hGrows
        exact Nat.le_of_succ_le hGrows
      · intro room state value next other hOk hRoom
        rw [perform_copyStored] at hOk ⊢
        split_ifs at hOk with hFull hInside
        have hGrows := ih.grows hOk
        rw [ByteArray.size_push] at hGrows
        rw [if_neg (by omega), if_pos hInside]
        exact ih.fits hOk hRoom
      · intro room state value next other hOk hLeast hMost
        rw [perform_copyStored] at hOk ⊢
        split_ifs at hOk with hFull hInside
        by_cases hNow : other ≤ state.output.size
        · exact ⟨state, if_pos hNow⟩
        · rw [if_neg hNow, if_pos hInside]
          apply ih.fills hOk _ hMost
          rw [ByteArray.size_push]
          exact Nat.lt_of_not_le hNow

theorem limited_storedBlock : Limited input storedBlock := by
  unfold storedBlock
  apply Limited.bind limited_align
  intro _
  apply Limited.bind (limited_bits 16)
  intro length
  apply Limited.bind (limited_bits 16)
  intro complement
  apply Limited.guard
  exact limited_copyStored length

theorem limited_block (bound : Nat) : Limited input (block bound) := by
  unfold block
  apply Limited.bind limited_bit
  intro final
  apply Limited.bind (limited_bits 2)
  intro kind
  split
  · apply Limited.bind limited_storedBlock
    intro _
    exact Limited.pure _
  · apply Limited.bind (limited_codeOf _ _)
    intro literals
    apply Limited.bind (limited_codeOf _ _)
    intro distances
    apply Limited.bind (limited_symbols _ _ _)
    intro _
    exact Limited.pure _
  · apply Limited.bind limited_readCodes
    intro codes
    apply Limited.bind (limited_symbols _ _ _)
    intro _
    exact Limited.pure _
  · apply Limited.bind (Limited.throw .broken)
    intro _
    exact Limited.pure _

theorem limited_blocks (bound count : Nat) : Limited input (blocks bound count) := by
  induction count with
  | zero => exact Limited.throw .cutShort
  | succ count ih =>
      rw [blocks]
      apply Limited.bind (limited_block bound)
      intro last
      apply Limited.ite
      · exact Limited.pure ()
      · exact ih

/-! ### Streams -/

theorem limited_header : Limited input header := by
  unfold header
  apply Limited.bind (limited_bits 8)
  intro first
  apply Limited.bind (limited_bits 8)
  intro second
  apply Limited.ite
  · exact Limited.throw .broken
  · exact Limited.pure ()

theorem limited_bigEndian (value count : Nat) : Limited input (bigEndian value count) := by
  induction count generalizing value with
  | zero => exact Limited.pure value
  | succ count ih =>
      rw [bigEndian]
      apply Limited.bind (limited_bits 8)
      intro byte
      exact ih _

theorem limited_stream : Limited input stream := by
  apply Limited.ask (fun input => do
    let bound := 8 * input.size + 1
    header
    blocks bound bound
    align
    let checksum ← bigEndian 0 4
    let output := (← get).output
    if adler output ≠ checksum then throw .broken)
  apply Limited.bind limited_header
  intro _
  apply Limited.bind (limited_blocks _ _)
  intro _
  apply Limited.bind limited_align
  intro _
  apply Limited.bind (limited_bigEndian 0 4)
  intro checksum
  apply Limited.look
  intro state
  apply Limited.ite
  · exact Limited.throw .broken
  · exact Limited.pure ()

/-! ### Inflating -/

theorem perform_of_inflate {input bytes : ByteArray} {room : Nat}
    (hEnds : inflate input room = { bytes := bytes, halt := none }) :
    ∃ state, perform stream input room {} = .ok () state ∧ state.output = bytes := by
  rw [inflate_eq] at hEnds
  split at hEnds
  · next state hOk =>
      exact ⟨state, hOk, congrArg Inflation.bytes hEnds⟩
  · exact absurd (congrArg Inflation.halt hEnds) (by simp)

/-- A stream that inflates within some room inflates to the same bytes within any room
that holds them. -/
theorem inflate_fits {input bytes : ByteArray} {room other : Nat}
    (hEnds : inflate input room = { bytes := bytes, halt := none }) (hRoom : bytes.size ≤ other) :
    inflate input other = { bytes := bytes, halt := none } := by
  obtain ⟨state, hOk, rfl⟩ := perform_of_inflate hEnds
  rw [inflate_eq, limited_stream.fits hOk hRoom]

theorem inflate_fills {input bytes : ByteArray} {room other : Nat}
    (hEnds : inflate input room = { bytes := bytes, halt := none }) (hRoom : other < bytes.size) :
    (inflate input other).halt = some .full := by
  obtain ⟨state, hOk, rfl⟩ := perform_of_inflate hEnds
  obtain ⟨stopped, hStopped⟩ := limited_stream.fills hOk (Nat.zero_le other) hRoom
  rw [inflate_eq, hStopped]

end BuildWatch.Zlib
