import BuildWatch.Table

/-!
Batches on their way.  Of each batch of a project it is known how many chunks
are still to come; chunks count by their arrival only, so one that is sent again
counts again.
-/

namespace BuildWatch

/-- The chunks still to come of the batch with a timestamp. -/
structure Countdown where
  timestamp : UInt64
  remaining : Nat
deriving Repr, DecidableEq

structure ChunkStatus where
  /-- The chunk completes its own batch. -/
  isLast : Bool
  /-- Another batch of the project is incomplete. -/
  othersWaiting : Bool
deriving Repr, DecidableEq

def ChunkStatus.isComplete (status : ChunkStatus) : Bool :=
  status.isLast && !status.othersWaiting

namespace Batches

/-! ### The countdowns of a project -/

/-- Count down the batch of a timestamp, the first that is found of it; it is dropped when
nothing is to come. -/
def countDown (timestamp : UInt64) : List Countdown → List Countdown
  | [] => []
  | countdown :: rest =>
      if countdown.timestamp = timestamp then
        let remaining := countdown.remaining - 1
        if remaining = 0 then rest else { countdown with remaining := remaining } :: rest
      else countdown :: countDown timestamp rest

/-- The incomplete batches after the arrival of a chunk of a batch of `total` chunks.
The first chunk of a timestamp begins a batch. -/
def arrive (timestamp : UInt64) (total : Nat) (countdowns : List Countdown) : List Countdown :=
  if total ≤ 1 then countdowns
  else if countdowns.any (fun countdown => countdown.timestamp == timestamp) then
    countDown timestamp countdowns
  else countdowns ++ [{ timestamp := timestamp, remaining := total - 1 }]

theorem countDown_own (timestamp : UInt64) (remaining : Nat) (rest : List Countdown) :
    countDown timestamp ({ timestamp := timestamp, remaining := remaining } :: rest) =
      if remaining - 1 = 0 then rest
      else { timestamp := timestamp, remaining := remaining - 1 } :: rest :=
  if_pos rfl

theorem countDown_other {timestamp : UInt64} {countdown : Countdown}
    (hOther : countdown.timestamp ≠ timestamp) (rest : List Countdown) :
    countDown timestamp (countdown :: rest) = countdown :: countDown timestamp rest :=
  if_neg hOther

theorem timestamps_countDown_sublist (timestamp : UInt64) (countdowns : List Countdown) :
    ((countDown timestamp countdowns).map Countdown.timestamp).Sublist
      (countdowns.map Countdown.timestamp) := by
  induction countdowns with
  | nil => exact List.Sublist.refl _
  | cons first rest ih =>
      unfold countDown
      split
      · dsimp only
        split
        · exact List.sublist_cons_self _ _
        · exact List.Sublist.refl _
      · exact ih.cons_cons first.timestamp

theorem distinct_arrive {countdowns : List Countdown}
    (hDistinct : (countdowns.map Countdown.timestamp).Nodup) (timestamp : UInt64) (total : Nat) :
    ((arrive timestamp total countdowns).map Countdown.timestamp).Nodup := by
  unfold arrive
  split
  · exact hDistinct
  · split
    · exact (timestamps_countDown_sublist timestamp countdowns).nodup hDistinct
    · rename_i hNew
      rw [List.map_append, List.nodup_append]
      refine ⟨hDistinct, List.pairwise_singleton _ timestamp, ?_⟩
      intro before hBefore own hOwn hSame
      obtain ⟨countdown, hCountdown, rfl⟩ := List.mem_map.mp hBefore
      obtain rfl := List.mem_singleton.mp hOwn
      exact hNew (List.any_eq_true.mpr ⟨countdown, hCountdown, beq_iff_eq.mpr hSame⟩)

theorem distinct_empty (project : String) (countdowns : List Countdown)
    (hKept : ({} : Table (List Countdown)).get? project = some countdowns) :
    (countdowns.map Countdown.timestamp).Nodup := by
  cases hKept

end Batches

/-! ### The countdowns of all projects -/

structure Batches where
  inFlight : Table (List Countdown) := {}
  /-- A batch has one countdown only, so it does not matter which is found first. -/
  distinct : ∀ project countdowns, inFlight.get? project = some countdowns →
    (countdowns.map Countdown.timestamp).Nodup := by exact Batches.distinct_empty
deriving Repr, DecidableEq

namespace Batches

instance : Inhabited Batches := ⟨{}⟩

/-- The incomplete batches of a project, in the order in which they began. -/
def progress (batches : Batches) (project : String) : List Countdown :=
  (batches.inFlight.get? project).getD []

theorem distinct_progress (batches : Batches) (project : String) :
    ((batches.progress project).map Countdown.timestamp).Nodup := by
  unfold progress
  cases hKept : batches.inFlight.get? project with
  | none => exact List.nodup_nil
  | some countdowns => exact batches.distinct project countdowns hKept

def outstanding (batches : Batches) (project : String) : Nat :=
  (batches.progress project).length

/-- Whether a batch with another timestamp is incomplete. -/
def hasOther (batches : Batches) (project : String) (timestamp : UInt64) : Bool :=
  (batches.progress project).any (fun countdown => countdown.timestamp != timestamp)

/-- Keep the incomplete batches of a project; an empty list is not kept. -/
def setProgress (batches : Batches) (project : String) (countdowns : List Countdown)
    (hDistinct : (countdowns.map Countdown.timestamp).Nodup) : Batches where
  inFlight := batches.inFlight.put project (if countdowns.isEmpty then none else some countdowns)
  distinct other kept hKept := by
    rw [Table.get?_put] at hKept
    by_cases hSame : other = project
    · cases countdowns with
      | nil =>
          rw [if_pos hSame] at hKept
          cases hKept
      | cons first rest =>
          rw [if_pos hSame] at hKept
          exact Option.some.inj hKept ▸ hDistinct
    · rw [if_neg hSame] at hKept
      exact batches.distinct other kept hKept

def record (batches : Batches) (project : String) (timestamp : UInt64) (total : Nat) : Batches :=
  if total ≤ 1 then batches
  else
    batches.setProgress project (arrive timestamp total (batches.progress project))
      (distinct_arrive (batches.distinct_progress project) timestamp total)

/-- Where a project stands once a chunk of a batch of `total` chunks is taken in. -/
def status (batches : Batches) (project : String) (timestamp : UInt64) (total : Nat) :
    ChunkStatus :=
  { isLast := total ≤ 1 ||
      !(batches.progress project).any (fun countdown => countdown.timestamp == timestamp)
    othersWaiting := batches.hasOther project timestamp }

def clear (batches : Batches) (project : String) : Batches where
  inFlight := batches.inFlight.erase project
  distinct other kept hKept := by
    rw [Table.get?_erase] at hKept
    by_cases hSame : other = project
    · rw [if_pos hSame] at hKept
      cases hKept
    · rw [if_neg hSame] at hKept
      exact batches.distinct other kept hKept

/-! ### What the operations do to the batches kept -/

theorem progress_setProgress (batches : Batches) (project other : String)
    {countdowns : List Countdown} (hDistinct : (countdowns.map Countdown.timestamp).Nodup) :
    (batches.setProgress project countdowns hDistinct).progress other =
      if other = project then countdowns else batches.progress other := by
  unfold setProgress progress
  rw [Table.get?_put]
  by_cases hSame : other = project
  · rw [if_pos hSame, if_pos hSame]
    cases countdowns <;> rfl
  · rw [if_neg hSame, if_neg hSame]

theorem progress_record (batches : Batches) (project other : String) (timestamp : UInt64)
    (total : Nat) :
    (batches.record project timestamp total).progress other =
      if other = project then arrive timestamp total (batches.progress project)
      else batches.progress other := by
  unfold record
  split
  · rename_i hSingle
    by_cases hSame : other = project
    · rw [if_pos hSame, hSame, arrive, if_pos hSingle]
    · rw [if_neg hSame]
  · exact progress_setProgress batches project other _

theorem progress_clear (batches : Batches) (project other : String) :
    (batches.clear project).progress other =
      if other = project then [] else batches.progress other := by
  unfold clear progress
  rw [Table.get?_erase]
  by_cases hSame : other = project
  · rw [if_pos hSame, if_pos hSame]
    rfl
  · rw [if_neg hSame, if_neg hSame]

end Batches

end BuildWatch
