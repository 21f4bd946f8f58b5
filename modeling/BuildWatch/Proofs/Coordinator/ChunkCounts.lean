import BuildWatch.Proofs.Coordinator.BatchCalls
import Mathlib.Data.List.DropRight
import Mathlib.Data.Set.Card

/-!
Counting chunks down is counting them.  Where the chunks of a timestamp agree on their number,
what is left to come of it follows from how many have arrived since its project was last
cleared: whenever their number divides this count nothing is left, and the next one begins anew.
-/

namespace BuildWatch

namespace BatchCall

def brings (project : String) (timestamp : UInt64) : BatchCall → Bool
  | .record other stamp _ _ => other == project && stamp == timestamp
  | .clear _ => false

theorem brings_eq_false {call : BatchCall} {project : String} (hOther : call.project ≠ project)
    (timestamp : UInt64) : call.brings project timestamp = false := by
  cases call with
  | record other stamp chunk count =>
      have hNot : other ≠ project := hOther
      simp [brings, hNot]
  | clear other => rfl

end BatchCall

/-- How many chunks of a timestamp some calls bring since they last clear the project. -/
def arrivedSince (project : String) (timestamp : UInt64) (calls : List BatchCall) : Nat :=
  (calls.rtakeWhile fun call => call != .clear project).countP (BatchCall.brings project timestamp)

/-- Chunks of one timestamp of a project come with one number of chunks, which is not zero. -/
def AgreeOn (total : String → UInt64 → UInt32) (calls : List BatchCall) : Prop :=
  ∀ project timestamp chunk count, .record project timestamp chunk count ∈ calls →
    count = total project timestamp ∧ 0 < count

theorem AgreeOn.left {total : String → UInt64 → UInt32} {calls more : List BatchCall}
    (hAgree : AgreeOn total (calls ++ more)) : AgreeOn total calls :=
  fun project timestamp chunk count hCall =>
    hAgree project timestamp chunk count (List.mem_append_left more hCall)

/-! ### Counting -/

theorem arrivedSince_clear (project : String) (timestamp : UInt64) (calls : List BatchCall) :
    arrivedSince project timestamp (calls ++ [.clear project]) = 0 := by
  unfold arrivedSince
  rw [List.rtakeWhile_concat_neg _ _ _ (by simp)]
  rfl

theorem arrivedSince_concat {project : String} {call : BatchCall}
    (hKeeps : call ≠ .clear project) (timestamp : UInt64) (calls : List BatchCall) :
    arrivedSince project timestamp (calls ++ [call]) =
      arrivedSince project timestamp calls +
        if call.brings project timestamp then 1 else 0 := by
  unfold arrivedSince
  rw [List.rtakeWhile_concat_pos _ _ _ (by simpa using hKeeps), List.countP_append,
    List.countP_singleton]

theorem arrivedSince_record (project : String) (timestamp : UInt64) (chunk count : UInt32)
    (calls : List BatchCall) :
    arrivedSince project timestamp (calls ++ [.record project timestamp chunk count]) =
      arrivedSince project timestamp calls + 1 := by
  rw [arrivedSince_concat (by simp)]
  simp [BatchCall.brings]

theorem arrivedSince_stamp {timestamp stamp : UInt64} (hOther : stamp ≠ timestamp)
    (project : String) (chunk count : UInt32) (calls : List BatchCall) :
    arrivedSince project timestamp (calls ++ [.record project stamp chunk count]) =
      arrivedSince project timestamp calls := by
  rw [arrivedSince_concat (by simp)]
  simp [BatchCall.brings, hOther]

theorem arrivedSince_other {project : String} {call : BatchCall}
    (hOther : call.project ≠ project) (timestamp : UInt64) (calls : List BatchCall) :
    arrivedSince project timestamp (calls ++ [call]) = arrivedSince project timestamp calls := by
  have hKeeps : call ≠ .clear project := by
    rintro rfl
    exact hOther rfl
  rw [arrivedSince_concat hKeeps, BatchCall.brings_eq_false hOther]
  rfl

theorem exists_record_of_arrived {project : String} {timestamp : UInt64}
    {calls : List BatchCall} (hArrived : 0 < arrivedSince project timestamp calls) :
    ∃ chunk count, .record project timestamp chunk count ∈ calls := by
  obtain ⟨call, hCall, hBrings⟩ := List.countP_pos_iff.mp hArrived
  have hMember := (List.rtakeWhile_suffix _ calls).mem hCall
  cases call with
  | record other stamp chunk count =>
      simp only [BatchCall.brings, Bool.and_eq_true, beq_iff_eq] at hBrings
      rw [hBrings.1, hBrings.2] at hMember
      exact ⟨chunk, count, hMember⟩
  | clear other => exact absurd hBrings Bool.false_ne_true

/-! ### Counting down -/

theorem leftOf_mod (timestamp : UInt64) {total : Nat} (hSome : 0 < total) (arrived : Nat) :
    leftOf timestamp total (arrived % total + 1) =
      leftOf timestamp total ((arrived + 1) % total) := by
  have hBelow := Nat.mod_lt arrived hSome
  rw [← Nat.mod_add_mod arrived total 1]
  by_cases hLast : arrived % total + 1 = total
  · rw [hLast, Nat.mod_self, (leftOf_eq_nil_iff ..).mpr (Or.inr (Nat.le_refl _)),
      (leftOf_eq_nil_iff ..).mpr (Or.inl rfl)]
  · rw [Nat.mod_eq_of_lt (show arrived % total + 1 < total by omega)]

theorem leftOf_eq_last_iff (timestamp : UInt64) (total arrived : Nat) :
    leftOf timestamp total arrived = [{ timestamp := timestamp, remaining := 1 }] ↔
      0 < arrived ∧ arrived + 1 = total := by
  unfold leftOf
  split <;> simp <;> omega

namespace Batches

variable {total : String → UInt64 → UInt32} {calls : List BatchCall}

/-- What is left of a timestamp, by how many of its chunks have arrived. -/
theorem ofTimestamp_after (hAgree : AgreeOn total calls) (project : String)
    (timestamp : UInt64) :
    ofTimestamp timestamp ((after calls).progress project) =
      leftOf timestamp (total project timestamp).toNat
        (arrivedSince project timestamp calls % (total project timestamp).toNat) := by
  induction calls using List.reverseRecOn with
  | nil =>
      have hNone : arrivedSince project timestamp [] = 0 := rfl
      rw [hNone, Nat.zero_mod, (leftOf_eq_nil_iff ..).mpr (Or.inl rfl)]
      rfl
  | append_singleton calls call ih =>
      have hBefore := ih hAgree.left
      by_cases hOwn : call.project = project
      · cases call with
        | record other stamp chunk count =>
            obtain rfl : other = project := hOwn
            rw [progress_after_record]
            by_cases hStamp : stamp = timestamp
            · subst hStamp
              obtain ⟨hCount, hSome⟩ := hAgree other stamp chunk count (by simp)
              have hPositive : 0 < count.toNat := hSome
              rw [← hCount] at hBefore ⊢
              rw [ofTimestamp_arrive_self, hBefore, arrive_leftOf stamp (Nat.mod_lt _ hPositive),
                leftOf_mod stamp hPositive, arrivedSince_record]
            · rw [ofTimestamp_arrive_ne hStamp, hBefore, arrivedSince_stamp hStamp]
        | clear other =>
            obtain rfl : other = project := hOwn
            rw [progress_after_clear, arrivedSince_clear, Nat.zero_mod,
              (leftOf_eq_nil_iff ..).mpr (Or.inl rfl)]
            rfl
      · rw [progress_after_other hOwn, arrivedSince_other hOwn, hBefore]

/-- A timestamp counts down unless its chunks have arrived in full, once or several times. -/
theorem ofTimestamp_after_eq_nil_iff (hAgree : AgreeOn total calls) (project : String)
    (timestamp : UInt64) :
    ofTimestamp timestamp ((after calls).progress project) = [] ↔
      (total project timestamp).toNat ∣ arrivedSince project timestamp calls := by
  rw [ofTimestamp_after hAgree, leftOf_eq_nil_iff, Nat.dvd_iff_mod_eq_zero]
  constructor
  · rintro (hNone | hFull)
    · exact hNone
    · by_cases hArrived : 0 < arrivedSince project timestamp calls
      · obtain ⟨chunk, count, hCall⟩ := exists_record_of_arrived hArrived
        obtain ⟨rfl, hSome⟩ := hAgree project timestamp chunk count hCall
        exact absurd (Nat.mod_lt _ (show 0 < (total project timestamp).toNat from hSome))
          (Nat.not_lt_of_le hFull)
      · rw [Nat.eq_zero_of_not_pos hArrived, Nat.zero_mod]
  · exact Or.inl

/-- A chunk is the last of its timestamp whenever the number of chunks divides their count. -/
theorem isLast_statusAfter_iff_dvd (hAgree : AgreeOn total calls) {project : String}
    {timestamp : UInt64} {count : UInt32} (hCount : count = total project timestamp)
    (hSome : 0 < count) (chunk : UInt32) :
    (statusAfter calls project timestamp chunk count).isLast = true ↔
      count.toNat ∣ arrivedSince project timestamp calls + 1 := by
  have hPositive : 0 < count.toNat := hSome
  have hBelow := Nat.mod_lt (arrivedSince project timestamp calls) hPositive
  rw [isLast_statusAfter_iff, ofTimestamp_after hAgree, ← hCount, leftOf_eq_last_iff,
    Nat.dvd_iff_mod_eq_zero, ← Nat.mod_add_mod (arrivedSince project timestamp calls) _ 1]
  generalize arrivedSince project timestamp calls % count.toNat = arrived at hBelow ⊢
  by_cases hLast : arrived + 1 = count.toNat
  · rw [hLast, Nat.mod_self]
    omega
  · rw [Nat.mod_eq_of_lt (show arrived + 1 < count.toNat by omega)]
    omega

theorem mem_timestamps_iff (batches : Batches) (project : String) (timestamp : UInt64) :
    timestamp ∈ (batches.progress project).map Countdown.timestamp ↔
      ofTimestamp timestamp (batches.progress project) ≠ [] := by
  unfold ofTimestamp
  rw [List.mem_map, ne_eq, List.filter_eq_nil_iff]
  simp

def incomplete (total : String → UInt64 → UInt32) (calls : List BatchCall) (project : String) :
    Set UInt64 :=
  {timestamp |
    ¬ (total project timestamp).toNat ∣ arrivedSince project timestamp calls}

theorem mem_incomplete_iff (hAgree : AgreeOn total calls) (project : String)
    (timestamp : UInt64) :
    timestamp ∈ incomplete total calls project ↔
      timestamp ∈ ((after calls).progress project).map Countdown.timestamp := by
  rw [mem_timestamps_iff, ne_eq, ofTimestamp_after_eq_nil_iff hAgree]
  rfl

theorem outstanding_after (hAgree : AgreeOn total calls) (project : String) :
    (after calls).outstanding project = (incomplete total calls project).ncard := by
  have hDistinct := (areKept_after calls project).distinct
  have hSet : incomplete total calls project =
      (((after calls).progress project).map Countdown.timestamp).toFinset := by
    ext timestamp
    rw [mem_incomplete_iff hAgree, Finset.mem_coe, List.mem_toFinset]
  rw [hSet, Set.ncard_coe_finset, List.toFinset_card_of_nodup hDistinct, List.length_map]
  rfl

theorem othersWaiting_after (hAgree : AgreeOn total calls) (project : String)
    (timestamp : UInt64) (count : Nat) :
    ((after calls).status project timestamp count).othersWaiting = true ↔
      ∃ other ∈ incomplete total calls project, other ≠ timestamp := by
  rw [othersWaiting_status_iff]
  simp only [mem_incomplete_iff hAgree, List.mem_map]
  constructor
  · rintro ⟨countdown, hCountdown, hOther⟩
    exact ⟨countdown.timestamp, ⟨countdown, hCountdown, rfl⟩, hOther⟩
  · rintro ⟨_, ⟨countdown, hCountdown, rfl⟩, hOther⟩
    exact ⟨countdown, hCountdown, hOther⟩

/-! ### The reference -/

/-- Chunks are told what counting them tells.  A chunk completes its timestamp whenever the number
of its chunks divides how many have arrived since its project was last cleared; others are waited
for if some timestamp of the project has chunks that are not whole batches; as many batches are
outstanding as there are such timestamps; and calls for other projects make no difference. -/
theorem chunks_counted_down (total : String → UInt64 → UInt32) (calls : List BatchCall)
    (hAgree : AgreeOn total calls) :
    (∀ before project timestamp chunk count later,
      calls = before ++ .record project timestamp chunk count :: later →
        let upTo := before ++ [.record project timestamp chunk count]
        let status := statusAfter before project timestamp chunk count
        (status.isLast = true ↔
          (total project timestamp).toNat ∣ arrivedSince project timestamp upTo) ∧
        (status.othersWaiting = true ↔
          ∃ other, other ≠ timestamp ∧
            ¬ (total project other).toNat ∣ arrivedSince project other upTo)) ∧
    (∀ project, (after calls).outstanding project =
      Set.ncard {timestamp |
        ¬ (total project timestamp).toNat ∣ arrivedSince project timestamp calls}) ∧
    (∀ project,
      let own := calls.filter fun call => call.project = project
      (after own).outstanding project = (after calls).outstanding project ∧
        ∀ timestamp chunk count,
          statusAfter own project timestamp chunk count =
            statusAfter calls project timestamp chunk count) := by
  refine ⟨?_, outstanding_after hAgree, ?_⟩
  · intro before project timestamp chunk count later hCalls
    have hCall : .record project timestamp chunk count ∈ calls := by
      rw [hCalls]
      simp
    obtain ⟨hCount, hSome⟩ := hAgree project timestamp chunk count hCall
    have hUpTo : AgreeOn total (before ++ [.record project timestamp chunk count]) := by
      rw [hCalls, ← List.singleton_append, ← List.append_assoc] at hAgree
      exact hAgree.left
    constructor
    · rw [arrivedSince_record, ← hCount]
      exact isLast_statusAfter_iff_dvd hUpTo.left hCount hSome chunk
    · rw [statusAfter, othersWaiting_after hUpTo]
      exact exists_congr fun other => And.comm
  · intro project own
    exact ⟨outstanding_after_filter calls project, statusAfter_filter calls project⟩

/-- A timestamp is begun anew by a chunk that is sent again, while another one is waited for. -/
theorem chunks_counted_down_sentAgain :
    let total : String → UInt64 → UInt32 := fun _ timestamp => if timestamp = 100 then 2 else 3
    let before : List BatchCall :=
      [.record "p" 100 1 2, .clear "p", .record "p" 100 1 2, .record "p" 200 1 3,
       .record "q" 100 7 2]
    let later : List BatchCall := [.record "p" 100 1 2, .clear "q"]
    let calls := before ++ .record "p" 100 1 2 :: later
    AgreeOn total calls ∧
      (statusAfter before "p" 100 1 2).isLast = true ∧
      (statusAfter before "p" 100 1 2).othersWaiting = true ∧
      (after calls).outstanding "p" = Set.ncard {timestamp |
        ¬ (total "p" timestamp).toNat ∣ arrivedSince "p" timestamp calls} ∧
      (after calls).outstanding "p" = 2 ∧
      (after (calls.filter fun call => call.project = "p")).outstanding "p" = 2 := by
  intro total before later calls
  have hAgree : AgreeOn total calls := by
    intro project timestamp chunk count hCall
    simp only [calls, before, later, List.cons_append, List.nil_append, List.mem_cons,
      BatchCall.record.injEq, reduceCtorEq, List.not_mem_nil, or_false, false_or] at hCall
    rcases hCall with ⟨_, rfl, _, rfl⟩ | ⟨_, rfl, _, rfl⟩ | ⟨_, rfl, _, rfl⟩ | ⟨_, rfl, _, rfl⟩ |
      ⟨_, rfl, _, rfl⟩ | ⟨_, rfl, _, rfl⟩ <;> exact ⟨rfl, by decide⟩
  obtain ⟨hTold, hOutstanding, hOwn⟩ := chunks_counted_down total calls hAgree
  obtain ⟨hLast, hOthers⟩ := hTold before "p" 100 1 2 later rfl
  have hTwo : (after calls).outstanding "p" = 2 := by decide
  refine ⟨hAgree, hLast.mpr (by decide), hOthers.mpr ⟨200, by decide, by decide⟩,
    hOutstanding "p", hTwo, ?_⟩
  rw [(hOwn "p").1, hTwo]

end Batches

end BuildWatch
