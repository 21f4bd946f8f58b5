import BuildWatch.Coordinator.Batches
import BuildWatch.Coordinator.Notification
import Mathlib.Data.List.Induction

/-!
The countdowns of chunks that arrive one after the other.  A batch is counted down from
its first chunk on, so what is left of it is what has not arrived yet; and nothing is left
exactly when every batch that has begun has arrived as a whole.
-/

namespace BuildWatch

theorem eq_singleton_of_mem {α : Type} {values : List α} {value : α}
    (hShort : values.length ≤ 1) (hMember : value ∈ values) : values = [value] := by
  have hOne : values.length = 1 := Nat.le_antisymm hShort (List.length_pos_of_mem hMember)
  obtain ⟨only, hOnly⟩ := List.length_eq_one_iff.mp hOne
  rw [hOnly] at hMember ⊢
  rw [List.mem_singleton.mp hMember]

theorem eq_nil_of_split {α : Type} {values after : List α} {value : α} (hOnly : values = [value])
    (hSplit : ∃ before later, values = before ++ value :: later ∧ after = before ++ later) :
    after = [] := by
  obtain ⟨before, later, hValues, hAfter⟩ := hSplit
  have hLength := congrArg List.length (hValues.symm.trans hOnly)
  rw [List.length_append, List.length_cons, List.length_singleton] at hLength
  rw [hAfter, List.length_eq_zero_iff.mp (show before.length = 0 by omega),
    List.length_eq_zero_iff.mp (show later.length = 0 by omega)]
  rfl

def countdownsAfter (chunks : List Change) : List Countdown :=
  chunks.foldl (fun countdowns chunk =>
    Batches.arrive chunk.timestamp chunk.chunkTotal.toNat countdowns) []

theorem countdownsAfter_concat (chunks : List Change) (chunk : Change) :
    countdownsAfter (chunks ++ [chunk]) =
      Batches.arrive chunk.timestamp chunk.chunkTotal.toNat (countdownsAfter chunks) := by
  simp [countdownsAfter]

def arrivals (timestamp : UInt64) (chunks : List Change) : Nat :=
  chunks.countP fun chunk => chunk.timestamp == timestamp

theorem arrivals_concat_self (chunks : List Change) (chunk : Change) :
    arrivals chunk.timestamp (chunks ++ [chunk]) = arrivals chunk.timestamp chunks + 1 := by
  simp [arrivals]

theorem arrivals_concat_ne (chunks : List Change) {chunk : Change} {timestamp : UInt64}
    (hOther : chunk.timestamp ≠ timestamp) :
    arrivals timestamp (chunks ++ [chunk]) = arrivals timestamp chunks := by
  simp [arrivals, hOther]

theorem arrivals_pos_iff (timestamp : UInt64) (chunks : List Change) :
    0 < arrivals timestamp chunks ↔ ∃ chunk ∈ chunks, chunk.timestamp = timestamp := by
  simp [arrivals, List.countP_pos_iff]

/-- Every batch that has begun among some chunks has arrived as a whole. -/
def AllArrived (chunks : List Change) : Prop :=
  ∀ chunk ∈ chunks, arrivals chunk.timestamp chunks = chunk.chunkTotal.toNat

instance (chunks : List Change) : Decidable (AllArrived chunks) :=
  inferInstanceAs (Decidable
    (∀ chunk ∈ chunks, arrivals chunk.timestamp chunks = chunk.chunkTotal.toNat))

/-- Chunks with one timestamp are of one batch, and there are no more of them than it has. -/
structure OfBatches (chunks : List Change) : Prop where
  total : ∀ chunk ∈ chunks, ∀ other ∈ chunks, other.timestamp = chunk.timestamp →
    other.chunkTotal = chunk.chunkTotal
  enough : ∀ chunk ∈ chunks, arrivals chunk.timestamp chunks ≤ chunk.chunkTotal.toNat

theorem OfBatches.left {chunks more : List Change} (hBatches : OfBatches (chunks ++ more)) :
    OfBatches chunks where
  total := fun chunk hChunk other hOther =>
    hBatches.total chunk (List.mem_append_left _ hChunk) other (List.mem_append_left _ hOther)
  enough := by
    intro chunk hChunk
    refine Nat.le_trans ?_ (hBatches.enough chunk (List.mem_append_left _ hChunk))
    exact (List.sublist_append_left chunks more).countP_le

/-! ### The countdowns of one timestamp -/

/-- The countdowns of a timestamp; there is one at most. -/
def ofTimestamp (timestamp : UInt64) (countdowns : List Countdown) : List Countdown :=
  countdowns.filter fun countdown => countdown.timestamp == timestamp

theorem any_eq_isEmpty_ofTimestamp (timestamp : UInt64) (countdowns : List Countdown) :
    (countdowns.any fun countdown => countdown.timestamp == timestamp) =
      !(ofTimestamp timestamp countdowns).isEmpty := by
  unfold ofTimestamp
  induction countdowns with
  | nil => rfl
  | cons first rest ih =>
      cases hFirst : first.timestamp == timestamp <;> simp [hFirst, ih]

theorem ofTimestamp_countDown_self (timestamp : UInt64) (countdowns : List Countdown) :
    ofTimestamp timestamp (Batches.countDown timestamp countdowns) =
      Batches.countDown timestamp (ofTimestamp timestamp countdowns) := by
  induction countdowns with
  | nil => rfl
  | cons first rest ih =>
      unfold ofTimestamp at ih ⊢
      by_cases hFirst : first.timestamp = timestamp
      · by_cases hLast : first.remaining - 1 = 0 <;> simp [Batches.countDown, hFirst, hLast]
      · simp [Batches.countDown_other hFirst, hFirst, ih]

theorem ofTimestamp_countDown_ne {timestamp other : UInt64} (hOther : other ≠ timestamp)
    (countdowns : List Countdown) :
    ofTimestamp timestamp (Batches.countDown other countdowns) =
      ofTimestamp timestamp countdowns := by
  induction countdowns with
  | nil => rfl
  | cons first rest ih =>
      unfold ofTimestamp at ih ⊢
      by_cases hFirst : first.timestamp = other
      · by_cases hLast : first.remaining - 1 = 0 <;>
          simp [Batches.countDown, hFirst, hLast, hOther]
      · simp only [Batches.countDown_other hFirst, List.filter_cons, ih]

theorem ofTimestamp_arrive_ne {timestamp other : UInt64} (hOther : other ≠ timestamp)
    (total : Nat) (countdowns : List Countdown) :
    ofTimestamp timestamp (Batches.arrive other total countdowns) =
      ofTimestamp timestamp countdowns := by
  unfold Batches.arrive
  split
  · rfl
  · split
    · exact ofTimestamp_countDown_ne hOther countdowns
    · simp [ofTimestamp, hOther]

theorem ofTimestamp_arrive_self (timestamp : UInt64) (total : Nat)
    (countdowns : List Countdown) :
    ofTimestamp timestamp (Batches.arrive timestamp total countdowns) =
      Batches.arrive timestamp total (ofTimestamp timestamp countdowns) := by
  have hAny : ((ofTimestamp timestamp countdowns).any fun countdown =>
      countdown.timestamp == timestamp) = countdowns.any fun countdown =>
        countdown.timestamp == timestamp := by
    rw [any_eq_isEmpty_ofTimestamp, any_eq_isEmpty_ofTimestamp]
    unfold ofTimestamp
    rw [List.filter_filter]
    simp
  unfold Batches.arrive
  rw [hAny]
  split
  · rfl
  · split
    · exact ofTimestamp_countDown_self timestamp countdowns
    · simp [ofTimestamp]

theorem ofTimestamp_cases {countdowns : List Countdown}
    (hDistinct : (countdowns.map Countdown.timestamp).Nodup) (timestamp : UInt64) :
    ofTimestamp timestamp countdowns = [] ∨
      ∃ remaining, ofTimestamp timestamp countdowns =
        [{ timestamp := timestamp, remaining := remaining }] := by
  cases hOwn : ofTimestamp timestamp countdowns with
  | nil => exact Or.inl rfl
  | cons first rest =>
      have hStamp (countdown : Countdown) (hCountdown : countdown ∈ first :: rest) :
          countdown.timestamp = timestamp := by
        rw [← hOwn] at hCountdown
        exact beq_iff_eq.mp (List.mem_filter.mp hCountdown).2
      have hApart : ((first :: rest).map Countdown.timestamp).Nodup :=
        hOwn ▸ (List.filter_sublist.map Countdown.timestamp).nodup hDistinct
      have hRest : rest = [] := by
        refine List.eq_nil_iff_forall_not_mem.mpr ?_
        intro other hOther
        apply (List.nodup_cons.mp hApart).1
        rw [hStamp first List.mem_cons_self, ← hStamp other (List.mem_cons_of_mem first hOther)]
        exact List.mem_map_of_mem hOther
      refine Or.inr ⟨first.remaining, ?_⟩
      rw [hRest, ← hStamp first List.mem_cons_self]

/-- The countdown of a batch of `total` chunks of which some have arrived. -/
def leftOf (timestamp : UInt64) (total arrived : Nat) : List Countdown :=
  if 0 < arrived ∧ arrived < total then
    [{ timestamp := timestamp, remaining := total - arrived }]
  else []

theorem leftOf_eq_nil_iff (timestamp : UInt64) (total arrived : Nat) :
    leftOf timestamp total arrived = [] ↔ arrived = 0 ∨ total ≤ arrived := by
  unfold leftOf
  split <;> simp <;> omega

theorem arrive_leftOf (timestamp : UInt64) {total arrived : Nat} (hEnough : arrived + 1 ≤ total) :
    Batches.arrive timestamp total (leftOf timestamp total arrived) =
      leftOf timestamp total (arrived + 1) := by
  unfold Batches.arrive
  by_cases hSingle : total ≤ 1
  · rw [if_pos hSingle, (leftOf_eq_nil_iff ..).mpr (by omega), (leftOf_eq_nil_iff ..).mpr (by omega)]
  · rw [if_neg hSingle]
    by_cases hFirst : arrived = 0
    · subst hFirst
      have hLeft : 0 < 0 + 1 ∧ 0 + 1 < total := by omega
      simp only [leftOf, if_pos hLeft]
      simp
    · have hBegun : 0 < arrived ∧ arrived < total := by omega
      rw [leftOf, if_pos hBegun, if_pos (by simp), Batches.countDown_own]
      unfold leftOf
      by_cases hLast : total - arrived - 1 = 0
      · rw [if_pos hLast, if_neg (by omega)]
      · rw [if_neg hLast, if_pos (by omega), Nat.sub_sub]

theorem ofTimestamp_countdownsAfter {chunks : List Change} {timestamp : UInt64} {total : Nat}
    (hTotal : ∀ chunk ∈ chunks, chunk.timestamp = timestamp → chunk.chunkTotal.toNat = total)
    (hEnough : arrivals timestamp chunks ≤ total) :
    ofTimestamp timestamp (countdownsAfter chunks) =
      leftOf timestamp total (arrivals timestamp chunks) := by
  induction chunks using List.reverseRecOn with
  | nil => rfl
  | append_singleton chunks chunk ih =>
      have hBefore : ∀ other ∈ chunks, other.timestamp = timestamp →
          other.chunkTotal.toNat = total :=
        fun other hOther => hTotal other (List.mem_append_left _ hOther)
      rw [countdownsAfter_concat]
      by_cases hSame : chunk.timestamp = timestamp
      · subst hSame
        have hOwn := hTotal chunk (List.mem_append_right _ List.mem_cons_self) rfl
        rw [arrivals_concat_self] at hEnough ⊢
        rw [ofTimestamp_arrive_self, ih hBefore (Nat.le_of_succ_le hEnough), hOwn]
        exact arrive_leftOf chunk.timestamp hEnough
      · rw [arrivals_concat_ne _ hSame] at hEnough ⊢
        rw [ofTimestamp_arrive_ne hSame]
        exact ih hBefore hEnough

theorem OfBatches.ofTimestamp_countdownsAfter {chunks : List Change}
    (hBatches : OfBatches chunks) {chunk : Change} (hChunk : chunk ∈ chunks) :
    ofTimestamp chunk.timestamp (countdownsAfter chunks) =
      leftOf chunk.timestamp chunk.chunkTotal.toNat (arrivals chunk.timestamp chunks) := by
  refine BuildWatch.ofTimestamp_countdownsAfter ?_ (hBatches.enough chunk hChunk)
  intro other hOther hSame
  rw [hBatches.total chunk hChunk other hOther hSame]

/-- No batch is waited for exactly when all that have begun have arrived. -/
theorem OfBatches.countdownsAfter_eq_nil_iff {chunks : List Change}
    (hBatches : OfBatches chunks) : countdownsAfter chunks = [] ↔ AllArrived chunks := by
  constructor
  · intro hNone chunk hChunk
    have hLeft := hBatches.ofTimestamp_countdownsAfter hChunk
    rw [hNone] at hLeft
    have hBegun := (arrivals_pos_iff chunk.timestamp chunks).mpr ⟨chunk, hChunk, rfl⟩
    have hEnough := hBatches.enough chunk hChunk
    rcases (leftOf_eq_nil_iff ..).mp hLeft.symm with hZero | hFull
    · omega
    · exact Nat.le_antisymm hEnough hFull
  · intro hAll
    refine List.eq_nil_iff_forall_not_mem.mpr ?_
    intro countdown hCountdown
    have hOwn : countdown ∈ ofTimestamp countdown.timestamp (countdownsAfter chunks) :=
      List.mem_filter.mpr ⟨hCountdown, beq_self_eq_true _⟩
    by_cases hBegun : ∃ chunk ∈ chunks, chunk.timestamp = countdown.timestamp
    · obtain ⟨chunk, hChunk, hSame⟩ := hBegun
      rw [← hSame, hBatches.ofTimestamp_countdownsAfter hChunk,
        (leftOf_eq_nil_iff ..).mpr (Or.inr (Nat.le_of_eq (hAll chunk hChunk).symm))] at hOwn
      cases hOwn
    · -- What counts down for a timestamp that no chunk has would be a batch of no chunks.
      have hZero : arrivals countdown.timestamp chunks = 0 := by
        rw [← Nat.le_zero, ← Nat.not_lt, arrivals_pos_iff]
        exact hBegun
      have hLeft : ofTimestamp countdown.timestamp (countdownsAfter chunks) =
          leftOf countdown.timestamp 0 (arrivals countdown.timestamp chunks) := by
        refine BuildWatch.ofTimestamp_countdownsAfter ?_ (Nat.le_of_eq hZero)
        intro chunk hChunk hSame
        exact absurd ⟨chunk, hChunk, hSame⟩ hBegun
      rw [hLeft, (leftOf_eq_nil_iff ..).mpr (Or.inl hZero)] at hOwn
      cases hOwn

/-! ### What a chunk is told -/

namespace Batches

/-- So many chunks are to come of the batch of a chunk once the chunk has arrived. -/
def leftToCome (timestamp : UInt64) (total : Nat) (countdowns : List Countdown) : Nat :=
  match countdowns.find? (fun countdown => countdown.timestamp == timestamp) with
  | some countdown => countdown.remaining - 1
  | none => total - 1

theorem leftToCome_eq_zero_iff {countdowns : List Countdown}
    (hDistinct : (countdowns.map Countdown.timestamp).Nodup) (timestamp : UInt64) {total : Nat}
    (hSeveral : ¬ total ≤ 1) :
    leftToCome timestamp total countdowns = 0 ↔
      ofTimestamp timestamp (arrive timestamp total countdowns) = [] := by
  have hFirst : countdowns.find? (fun countdown => countdown.timestamp == timestamp) =
      (ofTimestamp timestamp countdowns).head? := List.head?_filter.symm
  rw [ofTimestamp_arrive_self]
  unfold leftToCome arrive
  rw [hFirst, if_neg hSeveral]
  rcases ofTimestamp_cases hDistinct timestamp with hNone | ⟨remaining, hOwn⟩
  · rw [hNone]
    simp only [List.head?_nil, List.any_nil, Bool.false_eq_true, if_false, List.nil_append,
      List.cons_ne_nil, iff_false]
    omega
  · rw [hOwn]
    simp [countDown_own]

theorem isLast_status_iff (batches : Batches) (project : String) (timestamp : UInt64)
    (total : Nat) :
    (batches.status project timestamp total).isLast = true ↔
      total ≤ 1 ∨ ofTimestamp timestamp (batches.progress project) = [] := by
  unfold status
  rw [any_eq_isEmpty_ofTimestamp]
  simp

/-- A chunk is told that it completes its batch exactly if it is the only one or none is to come
after it is counted. -/
theorem isLast_status_record (batches : Batches) (project : String) (timestamp : UInt64)
    (total : Nat) :
    ((batches.record project timestamp total).status project timestamp total).isLast =
      (total ≤ 1 || leftToCome timestamp total (batches.progress project) == 0) := by
  rw [Bool.eq_iff_iff, isLast_status_iff, progress_record, if_pos rfl, Bool.or_eq_true,
    decide_eq_true_eq, beq_iff_eq]
  by_cases hSingle : total ≤ 1
  · simp only [hSingle, true_or]
  · rw [leftToCome_eq_zero_iff (batches.distinct_progress project) timestamp hSingle]

theorem othersWaiting_status_iff (batches : Batches) (project : String) (timestamp : UInt64)
    (total : Nat) :
    (batches.status project timestamp total).othersWaiting = true ↔
      ∃ countdown ∈ batches.progress project, countdown.timestamp ≠ timestamp := by
  unfold status hasOther
  simp

/-- A chunk completes all batches exactly when it leaves none to be waited for. -/
theorem isComplete_status_iff (batches : Batches) (project : String)
    (timestamp : UInt64) (total : Nat)
    (hSingle : total ≤ 1 → ofTimestamp timestamp (batches.progress project) = []) :
    (batches.status project timestamp total).isComplete = true ↔
      batches.progress project = [] := by
  have hLast : (batches.status project timestamp total).isLast = true ↔
      ofTimestamp timestamp (batches.progress project) = [] := by
    rw [isLast_status_iff]
    exact or_iff_right_of_imp hSingle
  unfold ChunkStatus.isComplete
  rw [Bool.and_eq_true, hLast, Bool.not_eq_true', Bool.eq_false_iff, ne_eq,
    othersWaiting_status_iff]
  constructor
  · rintro ⟨hOwn, hAlone⟩
    refine List.eq_nil_iff_forall_not_mem.mpr ?_
    intro countdown hCountdown
    have hSame : countdown.timestamp = timestamp := by
      by_contra hOther
      exact hAlone ⟨countdown, hCountdown, hOther⟩
    have hMember : countdown ∈ ofTimestamp timestamp (batches.progress project) :=
      List.mem_filter.mpr ⟨hCountdown, beq_iff_eq.mpr hSame⟩
    rw [hOwn] at hMember
    cases hMember
  · intro hNone
    rw [hNone]
    exact ⟨rfl, nofun⟩

end Batches

end BuildWatch
