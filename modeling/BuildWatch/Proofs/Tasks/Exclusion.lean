import BuildWatch.Proofs.Tasks.Acquisitions

/-!
Who has which lock.  A lock is taken as long as one task has it, be it that the task has all
it claims or that it waits for others still, and a lock that nobody has is free.  Groups of
locks that have no name in common do not get in each other's way.
-/

namespace BuildWatch.Tasks

def LockEvent.isLeaving (task : Nat) : LockEvent → Bool
  | .leave other => other == task
  | .letGo other => other == task
  | _ => false

namespace Locks

variable {locks : Locks}

/-! ### Who has a lock -/

def Locked (locks : Locks) (name : String) : Prop :=
  (locks.holder? name).isSome = true

/-- A task has taken a lock, or it was handed the next lock it waits for and has not had its
turn since. -/
def Has (locks : Locks) (task : Nat) (name : String) : Prop :=
  ∃ claim, locks.claim? task = some claim ∧
    (name ∈ claim.taken ∨
      claim.wanted.head? = some name ∧ locks.holder? name = some task)

theorem mem_queued_iff (claim : Claim) (name : String) :
    name ∈ claim.queued ↔ name ∈ claim.taken ∨ claim.wanted.head? = some name := by
  unfold Claim.queued
  cases claim.wanted with
  | nil => simp
  | cons next rest => simp [eq_comm]

theorem Sound.has_iff (hSound : locks.Sound) (task : Nat) (name : String) :
    locks.Has task name ↔ locks.holder? name = some task := by
  constructor
  · intro hHas
    obtain ⟨claim, hClaim, hTaken | hHanded⟩ := hHas
    · obtain ⟨hMember, hOwner⟩ := mem_of_claim? hClaim
      rw [hSound.held claim hMember name hTaken, hOwner]
    · exact hHanded.2
  · intro hHolder
    obtain ⟨claim, hMember, hOwner, hQueued⟩ :=
      (hSound.stands name task).mp (List.mem_of_head? hHolder)
    have hClaim := (hSound.claim?_eq_some_iff task claim).mpr ⟨hMember, hOwner⟩
    cases (mem_queued_iff claim name).mp hQueued with
    | inl hTaken => exact ⟨claim, hClaim, Or.inl hTaken⟩
    | inr hNext => exact ⟨claim, hClaim, Or.inr ⟨hNext, hHolder⟩⟩

theorem Sound.locked_iff (hSound : locks.Sound) (name : String) :
    locks.Locked name ↔ ∃! task, locks.Has task name := by
  unfold Locked
  simp only [hSound.has_iff]
  constructor
  · intro hLocked
    obtain ⟨task, hHolder⟩ := Option.isSome_iff_exists.mp hLocked
    apply ExistsUnique.intro task hHolder
    intro other hOther
    exact Option.some.inj (hOther.symm.trans hHolder)
  · intro hOne
    obtain ⟨task, hHolder⟩ := hOne.exists
    exact Option.isSome_of_eq_some hHolder

/-- Where nobody can go on, a task has what it has taken and nothing else. -/
theorem has_iff_taken (hNobody : ∀ task, locks.take? task = none) (task : Nat) (name : String) :
    locks.Has task name ↔ ∃ claim, locks.claim? task = some claim ∧ name ∈ claim.taken := by
  constructor
  · intro hHas
    obtain ⟨claim, hClaim, hTaken | hHanded⟩ := hHas
    · exact ⟨claim, hClaim, hTaken⟩
    · obtain ⟨rest, hWanted⟩ := List.head?_eq_some_iff.mp hHanded.1
      have hTakes := take?_of_holder hClaim hWanted hHanded.2
      rw [hNobody task] at hTakes
      cases hTakes
  · intro hTaken
    obtain ⟨claim, hClaim, hName⟩ := hTaken
    exact ⟨claim, hClaim, Or.inl hName⟩

theorem exists_complete {task : Nat} (hHolds : locks.holds task = true) :
    ∃ claim, locks.claim? task = some claim ∧ claim.wanted = [] := by
  unfold holds at hHolds
  cases hClaim : locks.claim? task with
  | none => simp [hClaim] at hHolds
  | some claim =>
      rw [hClaim] at hHolds
      exact ⟨claim, rfl, List.isEmpty_iff.mp hHolds⟩

/-! ### Groups that are acquired -/

/-- A task has set about acquiring some names and has not begun to leave them. -/
def Acquiring (events : List LockEvent) (task : Nat) (names : List String) : Prop :=
  ∃ earlier later, events = earlier ++ .acquire task names :: later ∧
    (after earlier).claim? task = none ∧ ∀ event ∈ later, event.isLeaving task = false

theorem after_concat (events : List LockEvent) (event : LockEvent) :
    after (events ++ [event]) = (after events).happen event :=
  List.foldl_append

theorem after_append (events more : List LockEvent) :
    after (events ++ more) = more.foldl happen (after events) :=
  List.foldl_append

theorem claim?_shrink (locks : Locks) (owner : Nat) (gone : String) (kept : List String)
    (task : Nat) : (locks.shrink owner gone kept).claim? task =
      if task = owner then some { owner := owner, taken := kept, wanted := [] }
      else locks.claim? task :=
  claim?_setClaim locks _ task

theorem Sound.claim?_letGo (hSound : locks.Sound) {owner task : Nat} (hOther : task ≠ owner) :
    (locks.letGo owner).claim? task = locks.claim? task := by
  unfold Locks.letGo
  split
  · rw [claim?_shrink, if_neg hOther]
  · rw [claim?_shrink, if_neg hOther]
  · exact hSound.claim?_release hOther
  · rfl

/-- What a task claims stays the same until it leaves. -/
theorem Sound.claim_happen (hSound : locks.Sound) {event : LockEvent} {task : Nat}
    (hStays : event.isLeaving task = false) {claim : Claim}
    (hClaim : locks.claim? task = some claim) :
    ∃ later, (locks.happen event).claim? task = some later ∧
      later.taken ++ later.wanted = claim.taken ++ claim.wanted := by
  have hKept {next : Locks} (hSame : next.claim? task = locks.claim? task) :
      ∃ later, next.claim? task = some later ∧
        later.taken ++ later.wanted = claim.taken ++ claim.wanted :=
    ⟨claim, hSame.trans hClaim, rfl⟩
  cases event with
  | acquire owner names =>
      simp only [Locks.happen]
      split
      · exact hKept rfl
      · rename_i hNone
        apply hKept
        rw [claim?_begin, if_neg]
        intro hSame
        rw [← hSame, hClaim] at hNone
        cases hNone
  | take owner =>
      simp only [Locks.happen]
      cases hTake : locks.take? owner with
      | none => exact hKept rfl
      | some taken =>
          obtain ⟨held, name, rest, hHeld, hWanted, _, hTaken⟩ := take?_eq_some hTake
          have hAfter : taken.claim? task = if task = owner then
              some { owner := owner, taken := held.taken ++ [name], wanted := rest }
              else locks.claim? task := by
            rw [hTaken, claim?_enqueueFirst, claim?_setClaim]
          by_cases hSame : task = owner
          · rw [hSame, hHeld] at hClaim
            cases hClaim
            rw [if_pos hSame] at hAfter
            exact ⟨_, hAfter, by simp [hWanted]⟩
          · rw [if_neg hSame] at hAfter
            exact hKept hAfter
  | leave owner =>
      apply hKept
      apply hSound.claim?_release
      intro hSame
      simp [LockEvent.isLeaving, hSame] at hStays
  | letGo owner =>
      apply hKept
      apply hSound.claim?_letGo
      intro hSame
      simp [LockEvent.isLeaving, hSame] at hStays

theorem Acquiring.exists_claim {events : List LockEvent} {task : Nat} {names : List String}
    (hAcquiring : Acquiring events task names) :
    ∃ claim, (after events).claim? task = some claim ∧
      claim.taken ++ claim.wanted = orderedNames names := by
  obtain ⟨earlier, later, hEvents, hNone, hStays⟩ := hAcquiring
  subst hEvents
  induction later using List.reverseRecOn with
  | nil =>
      refine ⟨{ owner := task, wanted := orderedNames names }, ?_, rfl⟩
      rw [after_concat]
      simp only [happen, hNone]
      rw [claim?_begin, if_pos rfl]
  | append_singleton later event ih =>
      obtain ⟨claim, hClaim, hGroup⟩ :=
        ih fun other hOther => hStays other (List.mem_append_left _ hOther)
      obtain ⟨next, hNext, hSame⟩ := (sound_after _).claim_happen
        (hStays event (List.mem_append_right _ List.mem_cons_self)) hClaim
      refine ⟨next, ?_, hSame.trans hGroup⟩
      rw [← List.cons_append, ← List.append_assoc, after_concat]
      exact hNext

theorem Acquiring.mem_iff {events : List LockEvent} {task : Nat} {names : List String}
    (hAcquiring : Acquiring events task names) {claim : Claim}
    (hClaim : (after events).claim? task = some claim) (name : String) :
    name ∈ names ↔ name ∈ claim.taken ++ claim.wanted := by
  obtain ⟨same, hSame, hGroup⟩ := hAcquiring.exists_claim
  rw [hClaim] at hSame
  cases hSame
  rw [hGroup, mem_orderedNames]

theorem Acquiring.has_iff {events : List LockEvent} {task : Nat} {names : List String}
    (hAcquiring : Acquiring events task names) (hHolds : (after events).holds task = true)
    (name : String) : (after events).Has task name ↔ name ∈ names := by
  obtain ⟨claim, hClaim, hComplete⟩ := exists_complete hHolds
  rw [hAcquiring.mem_iff hClaim, hComplete, List.append_nil]
  unfold Has
  simp [hClaim, hComplete]

/-! ### Groups that have no name in common -/

theorem Acquiring.mem_of_stands {events : List LockEvent} {task : Nat} {names : List String}
    (hAcquiring : Acquiring events task names) {name : String}
    (hStands : task ∈ (after events).queue name) : name ∈ names := by
  obtain ⟨claim, hClaim, _⟩ := hAcquiring.exists_claim
  rw [hAcquiring.mem_iff hClaim]
  have hQueued := ((sound_after events).stands_iff hClaim name).mp hStands
  unfold Claim.queued at hQueued
  cases List.mem_append.mp hQueued with
  | inl hTaken => exact List.mem_append_left _ hTaken
  | inr hNext => exact List.mem_append_right _ (List.mem_of_mem_take hNext)

/-- A group that shares no name with what others claim is had at once. -/
theorem Sound.acquires_at_once (hSound : locks.Sound) {task : Nat} {names : List String}
    (hNone : locks.claim? task = none)
    (hApart : ∀ claim ∈ locks.claims, ∀ name ∈ names, name ∉ claim.taken ++ claim.wanted) :
    ((locks.happen (.acquire task names)).settle task).holds task = true := by
  have hFree : ∀ name ∈ orderedNames names, locks.queue name = [] := by
    intro name hName
    apply List.eq_nil_iff_forall_not_mem.mpr
    intro owner hStands
    obtain ⟨claim, hClaim, _, hQueued⟩ := (hSound.stands name owner).mp hStands
    apply hApart claim hClaim name ((mem_orderedNames name names).mp hName)
    cases List.mem_append.mp hQueued with
    | inl hTaken => exact List.mem_append_left _ hTaken
    | inr hNext => exact List.mem_append_right _ (List.mem_of_mem_take hNext)
  have hBegun := hSound.begin ((claim?_eq_none_iff locks task).mp hNone) names
  have hClaim : (locks.begin task names).claim? task =
      some { owner := task, wanted := orderedNames names } := by
    rw [claim?_begin, if_pos rfl]
  have hQueue (name : String) : (locks.begin task names).queue name =
      if name ∈ (orderedNames names).take 1 then locks.queue name ++ [task]
      else locks.queue name :=
    queue_enqueueFirst _ (orderedNames names) name task
  simp only [Locks.happen, hNone]
  apply hBegun.settle_holds (mem_of_claim? hClaim).1
  · intro name hNext
    have hMember : name ∈ (orderedNames names).take 1 := by
      rw [List.take_one]
      exact Option.mem_toList.mpr hNext
    unfold holder?
    rw [hQueue, if_pos hMember, hFree name (List.mem_of_mem_take hMember)]
    rfl
  · intro name hLater
    have hLaterName : name ∈ (orderedNames names).tail := hLater
    rw [hQueue, if_neg]
    · exact hFree name (List.mem_of_mem_tail hLaterName)
    · -- The first of the names is not among the others.
      intro hFirst
      have hOrdered := orderedNames_ordered names
      cases hNames : orderedNames names with
      | nil => simp [hNames] at hFirst
      | cons next rest =>
          rw [hNames] at hFirst hLaterName hOrdered
          rw [List.mem_singleton.mp hFirst] at hLaterName
          exact lt_irrefl next ((List.pairwise_cons.mp hOrdered).1 next hLaterName)

/-! ### Leaving to the end -/

/-- Whoever leaves one lock at a time has left them all after as many steps as it stands in
queues, and one more. -/
theorem gone_of_letGo {task : Nat} {claim : Claim} (hClaim : locks.claim? task = some claim) :
    ((List.replicate (claim.queued.length + 1) (LockEvent.letGo task)).foldl happen
      locks).claim? task = none := by
  have hTaken (taken : List String) : ∀ {locks : Locks} {owner : Nat},
      locks.claim? task = some { owner := owner, taken := taken, wanted := [] } →
        ((List.replicate (taken.length + 1) (LockEvent.letGo task)).foldl happen
          locks).claim? task = none := by
    induction taken with
    | nil =>
        intro locks owner hClaim
        simp only [List.length_nil, List.replicate_succ, List.replicate_zero, List.foldl_cons,
          List.foldl_nil, happen, letGo, hClaim]
        rw [claim?_eq_none_iff, claimed_release]
        exact fun hStill => hStill.1 rfl
    | cons name rest ih =>
        intro locks owner hClaim
        rw [List.length_cons, List.replicate_succ, List.foldl_cons]
        apply ih
        · simp only [happen, letGo, hClaim]
          rw [claim?_shrink, if_pos rfl]
  obtain ⟨owner, taken, wanted⟩ := claim
  cases wanted with
  | nil =>
      have hAll := hTaken taken hClaim
      simpa [Claim.queued] using hAll
  | cons next rest =>
      have hStops : (locks.happen (.letGo task)).claim? task =
          some { owner := task, taken := taken, wanted := [] } := by
        simp only [happen, letGo, hClaim]
        rw [claim?_shrink, if_pos rfl]
      have hAll := hTaken taken hStops
      have hLength : Claim.queued { owner := owner, taken := taken, wanted := next :: rest } =
          taken ++ [next] := rfl
      rw [hLength, List.length_append, List.length_singleton, List.replicate_succ,
        List.foldl_cons]
      exact hAll

/-- Locks exclude, and none is taken for ever.  After any events: two tasks that have all they
acquired have no name in common; a lock is taken exactly if one task has it, and a task that
has all it acquired has just those names, while one that waits has what it has taken and what
it was handed; once nobody claims anything every lock is free, and whatever group is acquired
then is had at once, as is any group that shares no name with what others claim; tasks that
acquire groups without a common name do not stand in each other's way; and whoever leaves,
even one lock at a time, comes to claim nothing. -/
theorem locks_exclude_and_come_free (events : List LockEvent) :
    (∀ task other names others, task ≠ other →
      Acquiring events task names → (after events).holds task = true →
        Acquiring events other others → (after events).holds other = true →
          names.Disjoint others) ∧
    (∀ name, (after events).Locked name ↔ ∃! task, (after events).Has task name) ∧
    (∀ task names, Acquiring events task names → (after events).holds task = true →
      ∀ name, (after events).Has task name ↔ name ∈ names) ∧
    ((∀ task, (after events).take? task = none) → ∀ task name, (after events).Has task name ↔
      ∃ claim, (after events).claim? task = some claim ∧ name ∈ claim.taken) ∧
    ((∀ task, (after events).claim? task = none) → (∀ name, ¬ (after events).Locked name) ∧
      ∀ task names,
        ((after (events ++ [.acquire task names])).settle task).holds task = true) ∧
    (∀ task names, (after events).claim? task = none →
      (∀ claim ∈ (after events).claims, ∀ name ∈ names, name ∉ claim.taken ++ claim.wanted) →
        ((after (events ++ [.acquire task names])).settle task).holds task = true) ∧
    (∀ task other names others, Acquiring events task names → Acquiring events other others →
      names.Disjoint others → ¬ (after events).WaitsOn task other ∧
        ∀ name ∈ names, other ∉ (after events).queue name) ∧
    (∀ task claim, (after events).claim? task = some claim →
      (after (events ++ [.leave task])).claim? task = none ∧
        (after (events ++ List.replicate (claim.queued.length + 1) (.letGo task))).claim? task =
          none) := by
  have hSound := sound_after events
  have hHad {task : Nat} {names : List String} (hAcquiring : Acquiring events task names)
      (hHolds : (after events).holds task = true) {name : String} (hName : name ∈ names) :
      (after events).holder? name = some task :=
    (hSound.has_iff task name).mp ((hAcquiring.has_iff hHolds name).mpr hName)
  have hAtOnce (task : Nat) (names : List String) (hNone : (after events).claim? task = none)
      (hApart : ∀ claim ∈ (after events).claims, ∀ name ∈ names,
        name ∉ claim.taken ++ claim.wanted) :
      ((after (events ++ [.acquire task names])).settle task).holds task = true := by
    rw [after_concat]
    exact hSound.acquires_at_once hNone hApart
  refine ⟨?exclusive, hSound.locked_iff, ?complete, has_iff_taken, ?free, hAtOnce, ?apart, ?gone⟩
  case exclusive =>
    intro task other names others hDistinct hTask hHolds hOther hOtherHolds name hName hShared
    have hHolder := hHad hTask hHolds hName
    rw [hHad hOther hOtherHolds hShared] at hHolder
    exact hDistinct (Option.some.inj hHolder).symm
  case complete =>
    intro task names hAcquiring hHolds
    exact hAcquiring.has_iff hHolds
  case free =>
    intro hNone
    have hNoClaims : (after events).claims = [] := by
      apply List.eq_nil_iff_forall_not_mem.mpr
      intro claim hClaim
      exact (claim?_eq_none_iff _ claim.owner).mp (hNone claim.owner) ⟨claim, hClaim, rfl⟩
    constructor
    · intro name hLocked
      obtain ⟨task, hHas⟩ := ((hSound.locked_iff name).mp hLocked).exists
      obtain ⟨claim, hClaim, _⟩ := hHas
      rw [hNone task] at hClaim
      cases hClaim
    · intro task names
      apply hAtOnce task names (hNone task)
      rw [hNoClaims]
      exact List.forall_mem_nil _
  case apart =>
    intro task other names others hTask hOther hApart
    constructor
    · intro hWaits
      obtain ⟨claim, name, hClaim, hNext, hHolder, _⟩ := hWaits
      have hName : name ∈ names := by
        rw [hTask.mem_iff hClaim]
        exact List.mem_append_right _ (List.mem_of_mem_head? hNext)
      exact hApart hName (hOther.mem_of_stands (List.mem_of_head? hHolder))
    · intro name hName hStands
      exact hApart hName (hOther.mem_of_stands hStands)
  case gone =>
    intro task claim hClaim
    constructor
    · rw [after_concat]
      simp only [happen]
      rw [claim?_eq_none_iff, claimed_release]
      exact fun hStill => hStill.1 rfl
    · rw [after_append]
      exact gone_of_letGo hClaim

/-- A task that was handed a lock leaves before its turn: the lock goes on to the next, which
has it although it has not taken it, and then nobody claims anything. -/
example :
    let handed := after [.acquire 0 ["a"], .take 0, .acquire 1 ["a", "b"], .acquire 2 ["a"],
      .leave 0, .leave 1]
    handed.holder? "a" = some 2 ∧ handed.holder? "b" = none ∧ handed.holds 2 = false ∧
      (handed.release 2).holder? "a" = none := by
  decide +kernel

end Locks

end BuildWatch.Tasks
