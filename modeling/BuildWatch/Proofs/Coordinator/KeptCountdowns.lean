import BuildWatch.Proofs.Coordinator.BatchCalls

/-!
What is kept of the batches on their way.  A project is kept only while it has a countdown, each
of its timestamps counts down once, and every countdown has something to come.  A chunk of several
touches the one countdown of its timestamp, or begins it; a lone chunk touches none.
-/

namespace BuildWatch

namespace Batches

/-! ### Projects that are kept -/

/-- No project is kept with an empty list. -/
def KeepsNoEmpty (batches : Batches) : Prop :=
  ∀ project countdowns, batches.inFlight.get? project = some countdowns → countdowns ≠ []

theorem KeepsNoEmpty.setProgress {batches : Batches} (hSome : batches.KeepsNoEmpty)
    (project : String) {countdowns : List Countdown}
    (hDistinct : (countdowns.map Countdown.timestamp).Nodup) :
    (batches.setProgress project countdowns hDistinct).KeepsNoEmpty := by
  intro other kept hKept
  unfold Batches.setProgress at hKept
  rw [Table.get?_put] at hKept
  by_cases hSame : other = project
  · rw [if_pos hSame] at hKept
    cases countdowns with
    | nil => cases hKept
    | cons first rest =>
        rw [← Option.some.inj hKept]
        exact List.cons_ne_nil first rest
  · rw [if_neg hSame] at hKept
    exact hSome other kept hKept

theorem KeepsNoEmpty.clear {batches : Batches} (hSome : batches.KeepsNoEmpty)
    (project : String) : (batches.clear project).KeepsNoEmpty := by
  intro other kept hKept
  unfold Batches.clear at hKept
  rw [Table.get?_erase] at hKept
  by_cases hSame : other = project
  · rw [if_pos hSame] at hKept
    cases hKept
  · rw [if_neg hSame] at hKept
    exact hSome other kept hKept

theorem KeepsNoEmpty.call {batches : Batches} (hSome : batches.KeepsNoEmpty)
    (call : BatchCall) : (batches.call call).KeepsNoEmpty := by
  cases call with
  | record project timestamp chunk total =>
      unfold Batches.call record
      dsimp only
      split
      · exact hSome
      · exact hSome.setProgress project _
  | clear project => exact hSome.clear project

theorem keepsNoEmpty_after (calls : List BatchCall) : (after calls).KeepsNoEmpty := by
  induction calls using List.reverseRecOn with
  | nil =>
      intro project countdowns hKept
      cases hKept
  | append_singleton calls call ih =>
      rw [after_concat]
      exact ih.call call

theorem progress_of_get? {batches : Batches} {project : String} {countdowns : List Countdown}
    (hKept : batches.inFlight.get? project = some countdowns) :
    batches.progress project = countdowns := by
  unfold progress
  rw [hKept]
  rfl

/-! ### What one chunk changes -/

/-- What a chunk of a batch of `total` chunks makes of the countdowns of its project: the one of
its timestamp is lowered by one, or is dropped as nothing is left to come, or a new one begins.
All others stay what and where they are. -/
inductive Counted (timestamp : UInt64) (total : Nat) : List Countdown → List Countdown → Prop where
  | lower (before later : List Countdown) (remaining : Nat) (hMore : 0 < remaining) :
      Counted timestamp total
        (before ++ { timestamp := timestamp, remaining := remaining + 1 } :: later)
        (before ++ { timestamp := timestamp, remaining := remaining } :: later)
  | drop (before later : List Countdown) :
      Counted timestamp total (before ++ { timestamp := timestamp, remaining := 1 } :: later)
        (before ++ later)
  | start (countdowns : List Countdown)
      (hNew : ∀ countdown ∈ countdowns, countdown.timestamp ≠ timestamp) :
      Counted timestamp total countdowns
        (countdowns ++ [{ timestamp := timestamp, remaining := total - 1 }])

theorem countDown_append_of_absent {timestamp : UInt64} {before : List Countdown}
    (hBefore : ∀ countdown ∈ before, countdown.timestamp ≠ timestamp) (later : List Countdown) :
    countDown timestamp (before ++ later) = before ++ countDown timestamp later := by
  induction before with
  | nil => rfl
  | cons first rest ih =>
      obtain ⟨hFirst, hRest⟩ := List.forall_mem_cons.mp hBefore
      rw [List.cons_append, countDown_other hFirst, ih hRest, List.cons_append]

/-- The countdown of a timestamp that is found first is the one at the position of the first. -/
theorem countDown_of_findIdx? {timestamp : UInt64} {countdowns : List Countdown} {position : Nat}
    (hFound : countdowns.findIdx? (fun countdown => countdown.timestamp == timestamp) =
      some position) :
    ∃ own, countdowns[position]? = some own ∧
      countDown timestamp countdowns =
        if own.remaining - 1 = 0 then countdowns.eraseIdx position
        else countdowns.set position { own with remaining := own.remaining - 1 } := by
  induction countdowns generalizing position with
  | nil => cases hFound
  | cons first rest ih =>
      rw [List.findIdx?_cons] at hFound
      by_cases hOwn : first.timestamp = timestamp
      · rw [if_pos (beq_iff_eq.mpr hOwn)] at hFound
        obtain rfl := Option.some.inj hFound
        refine ⟨first, rfl, ?_⟩
        unfold countDown
        rw [if_pos hOwn]
        rfl
      · rw [if_neg (by simpa using hOwn)] at hFound
        obtain ⟨index, hIndex, rfl⟩ := Option.map_eq_some_iff.mp hFound
        obtain ⟨own, hThere, hCounted⟩ := ih hIndex
        refine ⟨own, hThere, ?_⟩
        rw [countDown_other hOwn, hCounted]
        split <;> rfl

end Batches

theorem AreKept.exists_before {countdowns : List Countdown} (hKept : AreKept countdowns)
    {own : Countdown} (hOwn : own ∈ countdowns) :
    ∃ before later, countdowns = before ++ own :: later ∧
      ∀ countdown ∈ before, countdown.timestamp ≠ own.timestamp := by
  obtain ⟨before, later, hAround⟩ := List.append_of_mem hOwn
  have hDistinct := hKept.distinct
  rw [hAround, List.map_append, List.map_cons, List.nodup_append] at hDistinct
  obtain ⟨_, _, hApart⟩ := hDistinct
  refine ⟨before, later, hAround, ?_⟩
  intro countdown hCountdown
  exact hApart _ (List.mem_map_of_mem hCountdown) _ List.mem_cons_self

namespace Batches

theorem counted_countDown {countdowns : List Countdown} (hKept : AreKept countdowns)
    {own : Countdown} (hOwn : own ∈ countdowns) (total : Nat) :
    Counted own.timestamp total countdowns (countDown own.timestamp countdowns) := by
  have hPositive := hKept.positive own hOwn
  obtain ⟨before, later, rfl, hBefore⟩ := hKept.exists_before hOwn
  obtain ⟨timestamp, remaining⟩ := own
  change 0 < remaining at hPositive
  rw [countDown_append_of_absent hBefore, countDown_own]
  by_cases hLast : remaining = 1
  · subst hLast
    exact .drop before later
  · obtain ⟨left, rfl⟩ : ∃ left, remaining = left + 1 := ⟨remaining - 1, by omega⟩
    have hMore : 0 < left := by omega
    rw [Nat.add_sub_cancel, if_neg (Nat.ne_of_gt hMore)]
    exact .lower before later left hMore

theorem counted_arrive {countdowns : List Countdown} (hKept : AreKept countdowns)
    (timestamp : UInt64) {total : Nat} (hSeveral : 1 < total) :
    Counted timestamp total countdowns (arrive timestamp total countdowns) := by
  unfold arrive
  rw [if_neg (Nat.not_le_of_lt hSeveral)]
  split
  · rename_i hUnderWay
    obtain ⟨own, hOwn, hStamp⟩ := List.any_eq_true.mp hUnderWay
    obtain rfl := beq_iff_eq.mp hStamp
    exact counted_countDown hKept hOwn total
  · rename_i hNew
    apply Counted.start
    intro countdown hCountdown hStamp
    exact hNew (List.any_eq_true.mpr ⟨countdown, hCountdown, beq_iff_eq.mpr hStamp⟩)

theorem get?_record_of_ne (batches : Batches) {project other : String} (hOther : other ≠ project)
    (timestamp : UInt64) (total : Nat) :
    (batches.record project timestamp total).inFlight.get? other =
      batches.inFlight.get? other := by
  unfold record
  split
  · rfl
  · unfold setProgress
    rw [Table.get?_put, if_neg hOther]

/-- Whatever was asked before, each project that is kept has countdowns, one for each timestamp and
each with something to come.  A chunk of several lowers the countdown of its timestamp by one,
drops it when nothing is left to come, or begins it with one less than its number of chunks, and
changes nothing else of any project; a lone chunk, and one of none, changes nothing. -/
theorem one_countdown_touched (calls : List BatchCall) :
    (∀ project countdowns, (after calls).inFlight.get? project = some countdowns →
      countdowns ≠ [] ∧ (countdowns.map Countdown.timestamp).Nodup ∧
        ∀ countdown ∈ countdowns, 1 ≤ countdown.remaining) ∧
    ∀ project timestamp chunk total,
      let next := after (calls ++ [.record project timestamp chunk total])
      (total ≤ 1 → next = after calls) ∧
      (1 < total →
        Counted timestamp total.toNat ((after calls).progress project) (next.progress project) ∧
          ∀ other, other ≠ project →
            next.inFlight.get? other = (after calls).inFlight.get? other) := by
  refine ⟨?_, ?_⟩
  · intro project countdowns hGet
    have hKept := areKept_after calls project
    rw [progress_of_get? hGet] at hKept
    exact ⟨keepsNoEmpty_after calls project countdowns hGet, hKept.distinct, hKept.positive⟩
  · intro project timestamp chunk total next
    have hNext : next = (after calls).record project timestamp total.toNat := after_concat ..
    refine ⟨?_, ?_⟩
    · intro hSingle
      have hAside : total.toNat ≤ 1 := hSingle
      rw [hNext, record, if_pos hAside]
    · intro hSeveral
      refine ⟨?_, ?_⟩
      · rw [show next.progress project = _ from progress_after_record ..]
        exact counted_arrive (areKept_after calls project) timestamp hSeveral
      · intro other hOther
        rw [hNext]
        exact get?_record_of_ne _ hOther timestamp total.toNat

/-- A chunk that claims another number of chunks than the batch began with completes the batch. -/
theorem one_countdown_touched_otherTotal :
    let calls : List BatchCall :=
      [.record "p" 100 1 2, .record "p" 200 1 3, .record "q" 100 1 2]
    let next := after (calls ++ [.record "p" 100 9 7])
    let kept : List Countdown :=
      [{ timestamp := 100, remaining := 1 }, { timestamp := 200, remaining := 2 }]
    ((after calls).inFlight.get? "p" = some kept ∧ kept ≠ [] ∧
        (kept.map Countdown.timestamp).Nodup ∧ ∀ countdown ∈ kept, 1 ≤ countdown.remaining) ∧
      ((1 : UInt32) < 7 ∧ Counted 100 7 kept (next.progress "p") ∧
        next.progress "p" = [{ timestamp := 200, remaining := 2 }] ∧
          next.inFlight.get? "q" = (after calls).inFlight.get? "q") ∧
      ((0 : UInt32) ≤ 1 ∧ after (calls ++ [.record "p" 200 1 0]) = after calls) := by
  intro calls next kept
  obtain ⟨hKept, hTouched⟩ := one_countdown_touched calls
  have hPresent : (after calls).inFlight.get? "p" = some kept := by decide
  obtain ⟨hCounted, hOthers⟩ := (hTouched "p" 100 9 7).2 (by decide)
  rw [progress_of_get? hPresent] at hCounted
  exact ⟨⟨hPresent, hKept "p" kept hPresent⟩,
    ⟨by decide, hCounted, by decide, hOthers "q" (by decide)⟩,
    by decide, (hTouched "p" 200 1 0).1 (by decide)⟩

end Batches

end BuildWatch
