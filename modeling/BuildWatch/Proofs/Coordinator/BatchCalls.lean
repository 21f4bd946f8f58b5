import BuildWatch.Proofs.Coordinator.Countdowns
import Mathlib.Data.List.Nodup

/-!
Whatever is asked of the batches of projects, each timestamp counts down once and has something
to come.  A chunk that is counted down is told that all batches have arrived exactly if none is
left; a batch of one chunk is not counted, and leaves what its timestamp counts down already.
-/

namespace BuildWatch

inductive BatchCall where
  | record (project : String) (timestamp : UInt64) (chunk total : UInt32)
  | clear (project : String)
deriving Repr, DecidableEq

namespace BatchCall

def project : BatchCall → String
  | .record project .. => project
  | .clear project => project

def change : BatchCall → List Countdown → List Countdown
  | .record _ timestamp _ total, countdowns => Batches.arrive timestamp total.toNat countdowns
  | .clear _, _ => []

end BatchCall

namespace Batches

def call (batches : Batches) : BatchCall → Batches
  | .record project timestamp _ total => batches.record project timestamp total.toNat
  | .clear project => batches.clear project

def after (calls : List BatchCall) : Batches :=
  calls.foldl call {}

def statusAfter (calls : List BatchCall) (project : String) (timestamp : UInt64)
    (chunk total : UInt32) : ChunkStatus :=
  (after (calls ++ [.record project timestamp chunk total])).status project timestamp total.toNat

theorem progress_call (batches : Batches) (call : BatchCall) (project : String) :
    (batches.call call).progress project =
      if project = call.project then call.change (batches.progress call.project)
      else batches.progress project := by
  cases call with
  | record other timestamp chunk total => exact progress_record ..
  | clear other => exact progress_clear ..

theorem after_concat (calls : List BatchCall) (call : BatchCall) :
    after (calls ++ [call]) = (after calls).call call := by
  simp [after]

theorem progress_after_concat (calls : List BatchCall) (call : BatchCall) (project : String) :
    (after (calls ++ [call])).progress project =
      if project = call.project then call.change ((after calls).progress call.project)
      else (after calls).progress project := by
  rw [after_concat, progress_call]

theorem progress_after_record (calls : List BatchCall) (project : String) (timestamp : UInt64)
    (chunk total : UInt32) :
    (after (calls ++ [.record project timestamp chunk total])).progress project =
      arrive timestamp total.toNat ((after calls).progress project) :=
  (progress_after_concat ..).trans (if_pos rfl)

theorem progress_after_clear (calls : List BatchCall) (project : String) :
    (after (calls ++ [.clear project])).progress project = [] :=
  (progress_after_concat ..).trans (if_pos rfl)

theorem progress_after_other {call : BatchCall} {project : String}
    (hOther : call.project ≠ project) (calls : List BatchCall) :
    (after (calls ++ [call])).progress project = (after calls).progress project :=
  (progress_after_concat ..).trans (if_neg fun hSame => hOther hSame.symm)

theorem progress_after_filter (calls : List BatchCall) (project : String) :
    (after (calls.filter fun call => call.project = project)).progress project =
      (after calls).progress project := by
  induction calls using List.reverseRecOn with
  | nil => rfl
  | append_singleton calls call ih =>
      rw [List.filter_append, List.filter_singleton]
      by_cases hOwn : call.project = project
      · rw [decide_eq_true hOwn, cond_true, progress_after_concat, progress_after_concat, hOwn, ih]
      · rw [decide_eq_false hOwn, cond_false, List.append_nil, ih, progress_after_other hOwn]

theorem outstanding_after_filter (calls : List BatchCall) (project : String) :
    (after (calls.filter fun call => call.project = project)).outstanding project =
      (after calls).outstanding project :=
  congrArg List.length (progress_after_filter calls project)

theorem status_congr {batches other : Batches} {project : String}
    (hSame : batches.progress project = other.progress project) (timestamp : UInt64)
    (total : Nat) :
    batches.status project timestamp total = other.status project timestamp total := by
  unfold status hasOther
  rw [hSame]

theorem statusAfter_filter (calls : List BatchCall) (project : String) (timestamp : UInt64)
    (chunk total : UInt32) :
    statusAfter (calls.filter fun call => call.project = project) project timestamp chunk total =
      statusAfter calls project timestamp chunk total := by
  apply status_congr
  rw [progress_after_record, progress_after_record, progress_after_filter]

end Batches

/-! ### What is kept -/

/-- Countdowns as they are kept: one for each timestamp, and each with something to come. -/
structure AreKept (countdowns : List Countdown) : Prop where
  distinct : (countdowns.map Countdown.timestamp).Nodup
  positive : ∀ countdown ∈ countdowns, 0 < countdown.remaining

namespace Batches

theorem mem_countDown {timestamp : UInt64} {countdowns : List Countdown} {countdown : Countdown}
    (hCountdown : countdown ∈ countDown timestamp countdowns) :
    countdown ∈ countdowns ∨ 0 < countdown.remaining := by
  induction countdowns with
  | nil => exact Or.inl hCountdown
  | cons first rest ih =>
      unfold countDown at hCountdown
      split at hCountdown
      · dsimp only at hCountdown
        split at hCountdown
        · exact Or.inl (List.mem_cons_of_mem first hCountdown)
        · rename_i hMore
          rcases List.mem_cons.mp hCountdown with rfl | hRest
          · exact Or.inr (Nat.pos_of_ne_zero hMore)
          · exact Or.inl (List.mem_cons_of_mem first hRest)
      · rcases List.mem_cons.mp hCountdown with rfl | hRest
        · exact Or.inl List.mem_cons_self
        · exact (ih hRest).imp_left (List.mem_cons_of_mem first)

end Batches

namespace AreKept

theorem nil : AreKept [] :=
  ⟨List.nodup_nil, fun _ hNone => absurd hNone List.not_mem_nil⟩

theorem arrive {countdowns : List Countdown} (hKept : AreKept countdowns) (timestamp : UInt64)
    (total : Nat) : AreKept (Batches.arrive timestamp total countdowns) where
  distinct := Batches.distinct_arrive hKept.distinct timestamp total
  positive := by
    unfold Batches.arrive
    split
    · exact hKept.positive
    · rename_i hMany
      intro countdown hCountdown
      split at hCountdown
      · rcases Batches.mem_countDown hCountdown with hBefore | hMore
        · exact hKept.positive countdown hBefore
        · exact hMore
      · rcases List.mem_append.mp hCountdown with hBefore | hLast
        · exact hKept.positive countdown hBefore
        · rw [List.mem_singleton.mp hLast]
          exact Nat.sub_pos_of_lt (Nat.lt_of_not_le hMany)

theorem change {countdowns : List Countdown} (hKept : AreKept countdowns) (call : BatchCall) :
    AreKept (call.change countdowns) := by
  cases call with
  | record project timestamp chunk total => exact hKept.arrive timestamp total.toNat
  | clear project => exact nil

theorem ofTimestamp_cases {countdowns : List Countdown} (hKept : AreKept countdowns)
    (timestamp : UInt64) :
    ofTimestamp timestamp countdowns = [] ∨
      ∃ remaining, 0 < remaining ∧
        ofTimestamp timestamp countdowns =
          [{ timestamp := timestamp, remaining := remaining }] := by
  rcases BuildWatch.ofTimestamp_cases hKept.distinct timestamp with hNone | ⟨remaining, hOwn⟩
  · exact Or.inl hNone
  · have hMember : { timestamp := timestamp, remaining := remaining } ∈
        ofTimestamp timestamp countdowns := by
      rw [hOwn]
      exact List.mem_singleton_self _
    exact Or.inr ⟨remaining, hKept.positive _ (List.mem_filter.mp hMember).1, hOwn⟩

end AreKept

namespace Batches

theorem areKept_after (calls : List BatchCall) (project : String) :
    AreKept ((after calls).progress project) := by
  induction calls using List.reverseRecOn generalizing project with
  | nil => exact AreKept.nil
  | append_singleton calls call ih =>
      rw [progress_after_concat]
      split
      · exact (ih call.project).change call
      · exact ih project

/-! ### What a chunk is told -/

def IsUnderWay (batches : Batches) (project : String) (timestamp : UInt64) : Prop :=
  ∃ countdown ∈ batches.progress project, countdown.timestamp = timestamp

instance (batches : Batches) (project : String) (timestamp : UInt64) :
    Decidable (batches.IsUnderWay project timestamp) :=
  inferInstanceAs (Decidable (∃ countdown ∈ batches.progress project, _))

theorem not_isUnderWay_iff (batches : Batches) (project : String) (timestamp : UInt64) :
    ¬ batches.IsUnderWay project timestamp ↔
      ofTimestamp timestamp (batches.progress project) = [] := by
  unfold IsUnderWay ofTimestamp
  rw [List.filter_eq_nil_iff]
  simp

/-- A chunk completes its batch if it is the only one, or the one that its timestamp lacks. -/
theorem isLast_statusAfter_iff (calls : List BatchCall) (project : String) (timestamp : UInt64)
    (chunk total : UInt32) :
    (statusAfter calls project timestamp chunk total).isLast = true ↔
      total.toNat ≤ 1 ∨ ofTimestamp timestamp ((after calls).progress project) =
        [{ timestamp := timestamp, remaining := 1 }] := by
  unfold statusAfter
  rw [isLast_status_iff, progress_after_record, ofTimestamp_arrive_self]
  by_cases hSingle : total.toNat ≤ 1
  · simp [hSingle]
  · rcases (areKept_after calls project).ofTimestamp_cases timestamp with
      hNone | ⟨remaining, hMore, hOwn⟩
    · simp [hNone, arrive, hSingle]
    · have hLeast : remaining - 1 = 0 ↔ remaining = 1 := by omega
      simp [hOwn, arrive, hSingle, countDown_own, hLeast]

theorem outstanding_eq_one_iff {calls : List BatchCall} {project : String} {timestamp : UInt64}
    (hUnderWay : (after calls).IsUnderWay project timestamp) :
    (after calls).outstanding project = 1 ↔
      ∀ countdown ∈ (after calls).progress project, countdown.timestamp = timestamp := by
  obtain ⟨own, hOwn, hStamp⟩ := hUnderWay
  unfold outstanding
  constructor
  · intro hOne countdown hCountdown
    rw [eq_singleton_of_mem (Nat.le_of_eq hOne) hOwn, List.mem_singleton] at hCountdown
    rw [hCountdown, hStamp]
  · intro hAll
    have hFilter : ofTimestamp timestamp ((after calls).progress project) =
        (after calls).progress project := by
      refine List.filter_eq_self.mpr ?_
      intro countdown hCountdown
      exact beq_iff_eq.mpr (hAll countdown hCountdown)
    rcases (areKept_after calls project).ofTimestamp_cases timestamp with
      hNone | ⟨remaining, _, hOnly⟩
    · rw [hFilter] at hNone
      rw [hNone] at hOwn
      cases hOwn
    · rw [← hFilter, hOnly]
      rfl

/-- A chunk is told that all batches have arrived exactly if none is left.  Only a batch of one
chunk whose timestamp counts down already is left out of account: then it is told so exactly if
nothing but this countdown is left. -/
theorem complete_iff_outstanding (calls : List BatchCall) (project : String)
    (timestamp : UInt64) (chunk total : UInt32) :
    (statusAfter calls project timestamp chunk total).isComplete = true ↔
      (after (calls ++ [.record project timestamp chunk total])).outstanding project =
        if total.toNat ≤ 1 ∧ (after calls).IsUnderWay project timestamp then 1 else 0 := by
  unfold statusAfter
  split
  · rename_i hAside
    obtain ⟨hSingle, hUnderWay⟩ := hAside
    have hProgress := progress_after_record calls project timestamp chunk total
    rw [arrive, if_pos hSingle] at hProgress
    have hStill : (after (calls ++ [.record project timestamp chunk total])).IsUnderWay project
        timestamp := by
      unfold IsUnderWay
      rw [hProgress]
      exact hUnderWay
    rw [outstanding_eq_one_iff hStill]
    have hLast := (isLast_status_iff
      (after (calls ++ [.record project timestamp chunk total])) project timestamp
      total.toNat).mpr (Or.inl hSingle)
    rw [ChunkStatus.isComplete, hLast, Bool.true_and, Bool.not_eq_true', Bool.eq_false_iff, ne_eq,
      othersWaiting_status_iff]
    simp
  · rename_i hCounted
    rw [isComplete_status_iff, outstanding, List.length_eq_zero_iff]
    intro hSingle
    rw [progress_after_record, arrive, if_pos hSingle, ← not_isUnderWay_iff]
    exact fun hUnderWay => hCounted ⟨hSingle, hUnderWay⟩

/-- A batch of one chunk is told that all batches have arrived, though its timestamp lacks one. -/
theorem complete_whileUnderWay :
    let calls : List BatchCall := [.record "p1" 100 1 2]
    (statusAfter calls "p1" 100 1 1).isComplete = true ∧
      (after (calls ++ [.record "p1" 100 1 1])).outstanding "p1" = 1 := by
  decide

end Batches

end BuildWatch
