import BuildWatch.Proofs.Tasks.Locks
import Mathlib.Algebra.GroupWithZero.Nat
import Mathlib.Logic.Relation

/-!
Any number of tasks that acquire groups of locks time and again, leave them, or
leave before they have them all.  Whatever the order of their steps, they never
come to a standstill.
-/

namespace BuildWatch.Tasks

inductive LockEvent where
  /-- A task that has no claim acquires a group of locks. -/
  | acquire (task : Nat) (names : List String)
  /-- A task takes the next lock it waits for, if it is its turn. -/
  | take (task : Nat)
  /-- A task leaves the locks it holds, or no longer waits for them. -/
  | leave (task : Nat)
  /-- The same one lock at a time: others may come in between. -/
  | letGo (task : Nat)
deriving Repr, DecidableEq

namespace Locks

/-- Leave one queue and keep only some of the locks. -/
def shrink (locks : Locks) (task : Nat) (gone : String) (kept : List String) : Locks :=
  (locks.setClaim { owner := task, taken := kept, wanted := [] }).dequeue gone task

/-- A task on its way out stops waiting, then gives up its locks in the order it took them. -/
def letGo (locks : Locks) (task : Nat) : Locks :=
  match locks.claim? task with
  | some { owner := _, taken := taken, wanted := next :: _ } => locks.shrink task next taken
  | some { owner := _, taken := name :: rest, wanted := [] } => locks.shrink task name rest
  | some { owner := _, taken := [], wanted := [] } => locks.release task
  | none => locks

def happen (locks : Locks) : LockEvent → Locks
  | .acquire task names =>
      match locks.claim? task with
      | some _ => locks
      | none => locks.begin task names
  | .take task => (locks.take? task).getD locks
  | .leave task => locks.release task
  | .letGo task => locks.letGo task

def after (events : List LockEvent) : Locks :=
  events.foldl happen {}

/-- A task waits as long as it wants a lock. -/
def Waiting (locks : Locks) (task : Nat) : Prop :=
  ∃ claim, locks.claim? task = some claim ∧ claim.wanted ≠ []

/-- A task wants another lock before it goes on, and a task comes first for it. -/
def WaitsOn (locks : Locks) (task first : Nat) : Prop :=
  ∃ claim name, locks.claim? task = some claim ∧ claim.wanted.head? = some name ∧
    locks.holder? name = some first ∧ first ≠ task

/-- A task takes the next lock it waits for, or leaves those it holds. -/
def Proceeds (locks later : Locks) : Prop :=
  (∃ task, locks.take? task = some later) ∨
    ∃ task, locks.holds task = true ∧ later = locks.release task

variable {locks : Locks}

/-! ### Leaving one lock at a time -/

theorem queue_shrink (locks : Locks) (task : Nat) (gone : String) (kept : List String)
    (name : String) : (locks.shrink task gone kept).queue name =
      if name = gone then (locks.queue name).erase task else locks.queue name :=
  queue_dequeue _ gone name task

theorem mem_claims_shrink (locks : Locks) (task : Nat) (gone : String) (kept : List String)
    (claim : Claim) : claim ∈ (locks.shrink task gone kept).claims ↔
      claim = { owner := task, taken := kept, wanted := [] } ∨
        claim ∈ locks.claims ∧ claim.owner ≠ task :=
  mem_claims_setClaim locks _ claim

section

variable {task : Nat} {claim : Claim} {gone : String} {kept : List String}

theorem Sound.mem_queue_shrink (hSound : locks.Sound) (hClaim : locks.claim? task = some claim)
    (hQueued : ∀ name, name ∈ claim.queued ↔ name = gone ∨ name ∈ kept) (hGone : gone ∉ kept)
    (name : String) (owner : Nat) : owner ∈ (locks.shrink task gone kept).queue name ↔
      if owner = task then name ∈ kept else owner ∈ locks.queue name := by
  rw [queue_shrink]
  by_cases hSelf : owner = task
  · rw [if_pos hSelf, hSelf]
    split
    · rename_i hSame
      rw [(hSound.once name).mem_erase_iff, hSame]
      exact iff_of_false (fun hOut => hOut.1 rfl) hGone
    · rename_i hOther
      rw [hSound.stands_iff hClaim, hQueued, or_iff_right hOther]
  · rw [if_neg hSelf]
    split
    · exact List.mem_erase_of_ne hSelf
    · rfl

theorem Sound.shrink (hSound : locks.Sound) (hClaim : locks.claim? task = some claim)
    (hQueued : ∀ name, name ∈ claim.queued ↔ name = gone ∨ name ∈ kept) (hGone : gone ∉ kept)
    (hKept : kept.Sublist claim.taken) : (locks.shrink task gone kept).Sound := by
  obtain ⟨hMember, hOwner⟩ := mem_of_claim? hClaim
  constructor
  case owners =>
    apply List.nodup_cons.mpr
    constructor
    · intro hAgain
      obtain ⟨other, hOther, hSame⟩ := List.mem_map.mp hAgain
      simp [hSame] at hOther
    · exact hSound.owners.sublist (List.filter_sublist.map Claim.owner)
  case stands =>
    intro name owner
    rw [hSound.mem_queue_shrink hClaim hQueued hGone]
    simp only [mem_claims_shrink]
    split
    · rename_i hSelf
      constructor
      · intro hTaken
        exact ⟨_, Or.inl rfl, hSelf.symm, by simpa [Claim.queued] using hTaken⟩
      · intro hOne
        obtain ⟨other, hNew | hOld, hOther, hOtherQueued⟩ := hOne
        · rw [hNew] at hOtherQueued
          simpa [Claim.queued] using hOtherQueued
        · exact absurd (hOther.trans hSelf) hOld.2
    · rename_i hSelf
      rw [hSound.stands]
      constructor
      · intro hOne
        obtain ⟨other, hMemberToo, hOther, hOtherQueued⟩ := hOne
        exact ⟨other, Or.inr ⟨hMemberToo, hOther ▸ hSelf⟩, hOther, hOtherQueued⟩
      · intro hOne
        obtain ⟨other, hNew | hOld, hOther, hOtherQueued⟩ := hOne
        · exact absurd (hOther.symm.trans (congrArg Claim.owner hNew)) hSelf
        · exact ⟨other, hOld.1, hOther, hOtherQueued⟩
  case once =>
    intro name
    rw [queue_shrink]
    split
    · exact (hSound.once name).erase task
    · exact hSound.once name
  case held =>
    intro other hOther name hTaken
    have hBefore : locks.holder? name = some other.owner ∧ (name = gone → other.owner ≠ task) := by
      cases (mem_claims_shrink locks task gone kept other).mp hOther with
      | inl hNew =>
          subst hNew
          constructor
          · rw [hSound.held claim hMember name (hKept.subset hTaken), hOwner]
          · intro hSame
            exact absurd (hSame ▸ hTaken) hGone
      | inr hOld => exact ⟨hSound.held other hOld.1 name hTaken, fun _ => hOld.2⟩
    unfold holder?
    rw [queue_shrink]
    split
    · rename_i hSame
      obtain ⟨rest, hFront⟩ := List.head?_eq_some_iff.mp hBefore.1
      rw [hFront, List.erase_cons_tail (by simpa using hBefore.2 hSame)]
      rfl
    · exact hBefore.1
  case ordered =>
    intro other hOther
    cases (mem_claims_shrink locks task gone kept other).mp hOther with
    | inl hNew =>
        subst hNew
        have hOrdered := (List.pairwise_append.mp (hSound.ordered claim hMember)).1
        simpa using hOrdered.sublist hKept
    | inr hOld => exact hSound.ordered other hOld.1

end

theorem Sound.letGo (hSound : locks.Sound) (task : Nat) : (locks.letGo task).Sound := by
  unfold Locks.letGo
  split
  · rename_i owner taken next later hClaim
    have hOrdered := (List.pairwise_append.mp
      (hSound.ordered _ (mem_of_claim? hClaim).1)).2.2
    apply hSound.shrink hClaim
    · intro name
      simp [Claim.queued, or_comm]
    · intro hTaken
      exact lt_irrefl next (hOrdered next hTaken next List.mem_cons_self)
    · exact List.Sublist.refl taken
  · rename_i owner name rest hClaim
    have hOrdered := hSound.ordered _ (mem_of_claim? hClaim).1
    apply hSound.shrink hClaim
    · intro other
      simp [Claim.queued]
    · intro hLater
      rw [List.append_nil] at hOrdered
      exact lt_irrefl name ((List.pairwise_cons.mp hOrdered).1 name hLater)
    · exact List.sublist_cons_self name rest
  · exact hSound.release task
  · exact hSound

/-! ### What every step and every run preserves -/

theorem Sound.happen (hSound : locks.Sound) (event : LockEvent) : (locks.happen event).Sound := by
  cases event with
  | acquire task names =>
      simp only [Locks.happen]
      split
      · exact hSound
      · rename_i hNone
        exact hSound.begin ((claim?_eq_none_iff locks task).mp hNone) names
  | take task =>
      simp only [Locks.happen]
      cases hTake : locks.take? task with
      | none => exact hSound
      | some taken => exact hSound.take? hTake
  | leave task => exact hSound.release task
  | letGo task => exact hSound.letGo task

theorem Sound.foldl_happen (hSound : locks.Sound) (events : List LockEvent) :
    (events.foldl Locks.happen locks).Sound := by
  induction events generalizing locks with
  | nil => exact hSound
  | cons event rest ih => exact ih (hSound.happen event)

theorem sound_after (events : List LockEvent) : (after events).Sound :=
  sound_start.foldl_happen events

/-! ### Who can take a lock -/

theorem Waiting.exists_next {task : Nat} (hWaiting : locks.Waiting task) :
    ∃ claim name rest, locks.claim? task = some claim ∧ claim.wanted = name :: rest := by
  obtain ⟨claim, hClaim, hWants⟩ := hWaiting
  obtain ⟨name, rest, hWanted⟩ := List.exists_cons_of_ne_nil hWants
  exact ⟨claim, name, rest, hClaim, hWanted⟩

theorem Waiting.not_holds {task : Nat} (hWaiting : locks.Waiting task) :
    locks.holds task = false := by
  obtain ⟨claim, name, rest, hClaim, hWanted⟩ := hWaiting.exists_next
  unfold holds
  simp [hClaim, hWanted]

theorem waiting_of_claimed {task : Nat} (hClaimed : locks.Claimed task)
    (hNot : locks.holds task = false) : locks.Waiting task := by
  cases hClaim : locks.claim? task with
  | none => exact absurd hClaimed ((claim?_eq_none_iff locks task).mp hClaim)
  | some claim =>
      constructor
      constructor
      · exact hClaim
      · intro hNone
        rw [holds_of_claim? hClaim hNone] at hNot
        cases hNot

theorem Waiting.claims_ne_nil {task : Nat} (hWaiting : locks.Waiting task) :
    locks.claims ≠ [] := by
  obtain ⟨claim, hClaim, _⟩ := hWaiting
  exact List.ne_nil_of_mem (mem_of_claim? hClaim).1

theorem Waiting.take?_isSome {task : Nat} (hWaiting : locks.Waiting task)
    (hGranted : (locks.settle task).holds task = true) : (locks.take? task).isSome = true := by
  obtain ⟨claim, name, rest, hClaim, hWanted⟩ := hWaiting.exists_next
  cases hTake : locks.take? task with
  | some taken => rfl
  | none =>
      have hStill : locks.settle task = locks := by
        unfold settle
        simp [hClaim, hWanted, takeAll, hTake]
      rw [hStill, hWaiting.not_holds] at hGranted
      cases hGranted

/-- Where nobody holds all it claims, one of those who wait can take its next lock. -/
theorem Sound.exists_take (hSound : locks.Sound) (hClaims : locks.claims ≠ [])
    (hNobody : ∀ task, locks.holds task = false) :
    ∃ task, locks.Waiting task ∧ (locks.take? task).isSome = true := by
  obtain ⟨task, hClaimed, hGranted⟩ := hSound.exists_granted hClaims
  have hWaiting := waiting_of_claimed hClaimed (hNobody task)
  exact ⟨task, hWaiting, hWaiting.take?_isSome hGranted⟩

theorem Sound.next_not_taken (hSound : locks.Sound) {task : Nat} {claim : Claim} {name : String}
    (hClaim : locks.claim? task = some claim) (hNext : claim.wanted.head? = some name) :
    name ∉ claim.taken := by
  intro hTaken
  have hOrdered := (List.pairwise_append.mp (hSound.ordered claim (mem_of_claim? hClaim).1)).2.2
  exact lt_irrefl name (hOrdered name hTaken name (List.mem_of_mem_head? hNext))

/-- Whoever is waited for and waits itself wants a greater lock. -/
theorem Sound.waitsOn_lt (hSound : locks.Sound) {first later : Nat} {claim : Claim}
    {name next : String} (hHolder : locks.holder? name = some first)
    (hClaim : locks.claim? first = some claim) (hNext : claim.wanted.head? = some next)
    (hWaitsOn : locks.WaitsOn first later) : name < next := by
  obtain ⟨same, wanted, hSame, hWanted, hLater, hOther⟩ := hWaitsOn
  rw [hClaim] at hSame
  cases hSame
  rw [hNext] at hWanted
  cases hWanted
  have hQueued := (hSound.stands_iff hClaim name).mp (List.mem_of_head? hHolder)
  have hOrdered := (List.pairwise_append.mp (hSound.ordered claim (mem_of_claim? hClaim).1)).2.2
  cases List.mem_append.mp hQueued with
  | inl hTaken => exact hOrdered name hTaken next (List.mem_of_mem_head? hNext)
  | inr hFirst =>
      rw [List.take_one, hNext] at hFirst
      rw [List.mem_singleton.mp hFirst, hLater] at hHolder
      exact absurd (Option.some.inj hHolder) hOther

theorem Sound.chain_lt (hSound : locks.Sound) {task last : Nat}
    (hChain : Relation.TransGen locks.WaitsOn task last) {claim lastClaim : Claim}
    {name next : String} (hClaim : locks.claim? task = some claim)
    (hName : claim.wanted.head? = some name) (hLast : locks.claim? last = some lastClaim)
    (hNext : lastClaim.wanted.head? = some next) {beyond : Nat}
    (hWaitsOn : locks.WaitsOn last beyond) : name < next := by
  induction hChain generalizing lastClaim next beyond with
  | single hOne =>
      obtain ⟨same, wanted, hSame, hWanted, hHolder, _⟩ := hOne
      rw [hClaim] at hSame
      cases hSame
      rw [hName] at hWanted
      cases hWanted
      exact hSound.waitsOn_lt hHolder hLast hNext hWaitsOn
  | tail _ hOne ih =>
      have hLink := hOne
      obtain ⟨middle, wanted, hMiddle, hWanted, hHolder, _⟩ := hOne
      have hSooner := ih hMiddle hWanted hLink
      exact lt_trans hSooner (hSound.waitsOn_lt hHolder hLast hNext hWaitsOn)

theorem Sound.no_circle (hSound : locks.Sound) (task : Nat) :
    ¬ Relation.TransGen locks.WaitsOn task task := by
  intro hCircle
  obtain ⟨next, hWaitsOn, _⟩ := Relation.TransGen.head'_iff.mp hCircle
  have hLink := hWaitsOn
  obtain ⟨claim, name, hClaim, hName, _⟩ := hWaitsOn
  exact lt_irrefl name (hSound.chain_lt hCircle hClaim hName hClaim hName hLink)

/-! ### When those leave who hold their locks -/

theorem Sound.claim?_foldl_release (hSound : locks.Sound) {owners : List Nat} {task : Nat}
    (hOther : task ∉ owners) : (owners.foldl Locks.release locks).claim? task =
      locks.claim? task := by
  induction owners generalizing locks with
  | nil => rfl
  | cons owner rest ih =>
      obtain ⟨hFirst, hRest⟩ := not_or.mp (mt List.mem_cons.mpr hOther)
      rw [List.foldl_cons, ih (hSound.release owner) hRest, hSound.claim?_release hFirst]

/-- When all have left who hold their locks, one of those who still wait can take its next. -/
theorem Sound.exists_take_of_left (hSound : locks.Sound) {leaving : List Nat}
    (hLeaving : ∀ task, task ∈ leaving ↔ locks.holds task = true) {waiter : Nat}
    (hWaiter : locks.Waiting waiter) :
    ∃ task, (leaving.foldl Locks.release locks).Waiting task ∧
      ((leaving.foldl Locks.release locks).take? task).isSome = true := by
  have hLater := hSound.foldl_release leaving
  apply hLater.exists_take
  · have hStays : waiter ∉ leaving := by
      rw [hLeaving, hWaiter.not_holds]
      exact Bool.false_ne_true
    obtain ⟨claim, hClaim, hWants⟩ := hWaiter
    apply Waiting.claims_ne_nil
    exact ⟨claim, (hSound.claim?_foldl_release hStays).trans hClaim, hWants⟩
  · intro task
    by_cases hLeft : task ∈ leaving
    · have hGone : (leaving.foldl Locks.release locks).claim? task = none := by
        rw [claim?_eq_none_iff, claimed_foldl_release]
        exact fun hStill => hStill.1 hLeft
      simp [holds, hGone]
    · have hNot : ¬ locks.holds task = true := mt (hLeaving task).mpr hLeft
      unfold holds at hNot ⊢
      rw [hSound.claim?_foldl_release hLeft]
      exact Bool.not_eq_true _ ▸ hNot

/-! ### Everyone who waits can be served -/

def stepsLeft (locks : Locks) : Nat :=
  (locks.claims.map fun claim => claim.wanted.length + 1).sum

theorem Sound.stepsLeft_eq (hSound : locks.Sound) {task : Nat} {claim : Claim}
    (hClaim : locks.claim? task = some claim) :
    locks.stepsLeft = claim.wanted.length + 1 + (locks.release task).stepsLeft := by
  obtain ⟨hMember, hOwner⟩ := mem_of_claim? hClaim
  have hSame : locks.claims.Perm
      (claim :: locks.claims.filter (fun other => other.owner != task)) := by
    have hDistinct := hSound.owners.of_map
    apply (List.perm_ext_iff_of_nodup hDistinct ?_).mpr
    · intro other
      rw [List.mem_cons, List.mem_filter, bne_iff_ne]
      constructor
      · intro hOther
        by_cases hSelf : other.owner = task
        · exact Or.inl (List.inj_on_of_nodup_map hSound.owners hOther hMember
            (hSelf.trans hOwner.symm))
        · exact Or.inr ⟨hOther, hSelf⟩
      · intro hEither
        cases hEither with
        | inl hEqual => exact hEqual ▸ hMember
        | inr hKept => exact hKept.1
    · apply List.nodup_cons.mpr
      constructor
      · simp [hOwner]
      · exact hDistinct.filter _
  unfold stepsLeft
  rw [(hSame.map _).sum_nat, claims_release]
  rfl

theorem Sound.stepsLeft_take? (hSound : locks.Sound) {taken : Locks} {task : Nat}
    (hTake : locks.take? task = some taken) : taken.stepsLeft + 1 = locks.stepsLeft := by
  obtain ⟨claim, name, rest, hClaim, hWanted, _, hTaken⟩ := take?_eq_some hTake
  have hBefore := hSound.stepsLeft_eq hClaim
  have hAfter : taken.stepsLeft = rest.length + 1 + (locks.release task).stepsLeft := by
    unfold stepsLeft
    rw [hTaken, claims_enqueueFirst, claims_release]
    rfl
  rw [hWanted, List.length_cons] at hBefore
  omega

/-- The induction is on the steps that are left: as long as the task waits, someone else can
leave, or someone can take a lock. -/
theorem Sound.served (hSound : locks.Sound) {task : Nat} (hClaimed : locks.Claimed task) :
    ∃ later, Relation.ReflTransGen Proceeds locks later ∧ later.holds task = true := by
  induction hLeft : locks.stepsLeft using Nat.strong_induction_on generalizing locks with
  | _ left ih =>
      by_cases hHolds : locks.holds task = true
      · exact ⟨locks, Relation.ReflTransGen.refl, hHolds⟩
      · have hOnward (next : Locks) (hNext : locks.Proceeds next) (hSoundNext : next.Sound)
            (hStill : next.Claimed task) (hFewer : next.stepsLeft < left) :
            ∃ later, Relation.ReflTransGen Proceeds locks later ∧ later.holds task = true := by
          obtain ⟨later, hSteps, hServed⟩ := ih _ hFewer hSoundNext hStill rfl
          exact ⟨later, Relation.ReflTransGen.head hNext hSteps, hServed⟩
        by_cases hOther : ∃ other, locks.holds other = true
        · obtain ⟨other, hOther⟩ := hOther
          apply hOnward (locks.release other) (Or.inr ⟨other, hOther, rfl⟩)
          · exact hSound.release other
          · apply (claimed_release locks other task).mpr
            constructor
            · intro hSame
              exact hHolds (hSame ▸ hOther)
            · exact hClaimed
          · cases hClaim : locks.claim? other with
            | none => simp [holds, hClaim] at hOther
            | some claim =>
                have hMore := hSound.stepsLeft_eq hClaim
                omega
        · have hNobody (other : Nat) : locks.holds other = false :=
            Bool.not_eq_true _ ▸ fun hOne => hOther ⟨other, hOne⟩
          have hWaiting := waiting_of_claimed hClaimed (hNobody task)
          obtain ⟨first, _, hTake⟩ := hSound.exists_take hWaiting.claims_ne_nil hNobody
          obtain ⟨taken, hTaken⟩ := Option.isSome_iff_exists.mp hTake
          apply hOnward taken (Or.inl ⟨first, hTaken⟩)
          · exact hSound.take? hTaken
          · exact (claimed_take? hTaken task).mpr hClaimed
          · have hFewer := hSound.stepsLeft_take? hTaken
            omega

/-- Acquisitions of groups of locks do not block one another.  After any events: where some
wait and nobody holds what it claims, one of those who wait can take its next lock; nobody
waits for a lock it has taken, and whoever comes first for a lock it waits for can take it;
nobody waits in a circle; when those leave who hold their locks, one of those who wait can
take its next; and everyone who waits has its locks after steps of which each takes a lock
or leaves the locks of someone who holds them. -/
theorem acquisitions_proceed (events : List LockEvent) :
    ((∃ task, (after events).Waiting task) → (∀ task, (after events).holds task = false) →
      ∃ task, (after events).Waiting task ∧ ((after events).take? task).isSome = true) ∧
    (∀ task claim name, (after events).claim? task = some claim →
      claim.wanted.head? = some name →
        name ∉ claim.taken ∧ ((after events).holder? name = some task →
          ((after events).take? task).isSome = true)) ∧
    (∀ task, ¬ Relation.TransGen (after events).WaitsOn task task) ∧
    (∀ leaving : List Nat, (∀ task, task ∈ leaving ↔ (after events).holds task = true) →
      (∃ task, (after events).Waiting task) →
        ∃ task, (leaving.foldl release (after events)).Waiting task ∧
          ((leaving.foldl release (after events)).take? task).isSome = true) ∧
    (∀ task, (after events).Waiting task →
      ∃ later, Relation.ReflTransGen Proceeds (after events) later ∧
        later.holds task = true) := by
  have hSound := sound_after events
  apply And.intro
  · intro hSome hNobody
    obtain ⟨task, hWaiting⟩ := hSome
    exact hSound.exists_take hWaiting.claims_ne_nil hNobody
  apply And.intro
  · intro task claim name hClaim hNext
    constructor
    · exact hSound.next_not_taken hClaim hNext
    · intro hFirst
      obtain ⟨rest, hWanted⟩ := List.head?_eq_some_iff.mp hNext
      rw [take?_of_holder hClaim hWanted hFirst]
      rfl
  apply And.intro hSound.no_circle
  apply And.intro
  · intro leaving hLeaving hSome
    obtain ⟨waiter, hWaiter⟩ := hSome
    exact hSound.exists_take_of_left hLeaving hWaiter
  · intro task hWaiting
    obtain ⟨claim, hClaim, _⟩ := hWaiting
    exact hSound.served ⟨claim, mem_of_claim? hClaim⟩

/-- Two groups that overlap, one of them with a name twice: the second task waits for the
first although it has a lock already. -/
example :
    let locks := after [.acquire 0 ["b", "a", "b"], .take 0, .acquire 1 ["c", "b"], .take 0,
      .take 1]
    locks.holds 0 = true ∧ locks.holds 1 = false ∧ locks.take? 1 = none ∧
      ((locks.release 0).take? 1).isSome = true := by
  decide +kernel

end Locks

end BuildWatch.Tasks
