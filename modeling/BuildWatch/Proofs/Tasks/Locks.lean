import BuildWatch.Tasks.Locks
import Mathlib.Data.Finset.Max
import Mathlib.Data.List.Nodup
import Mathlib.Data.String.Basic

/-!
Claims that take their locks in the order of the names never wait for one another
in a circle: whoever waits for the greatest name waits for a task that has all it
claims, or can have it at once.
-/

namespace BuildWatch.Tasks

/-! ### Groups of names -/

theorem mem_insertName (name other : String) (names : List String) :
    other ∈ insertName name names ↔ other = name ∨ other ∈ names := by
  induction names with
  | nil => simp [insertName]
  | cons first rest ih =>
      unfold insertName
      split
      · exact List.mem_cons
      · split
        · rename_i hSame
          simp [hSame]
        · rw [List.mem_cons, ih, List.mem_cons]
          exact or_left_comm

theorem mem_orderedNames (name : String) (names : List String) :
    name ∈ orderedNames names ↔ name ∈ names := by
  induction names with
  | nil => rfl
  | cons first rest ih =>
      change name ∈ insertName first (orderedNames rest) ↔ _
      rw [mem_insertName, ih, List.mem_cons]

theorem insertName_ordered (name : String) {names : List String}
    (hOrdered : names.Pairwise (· < ·)) : (insertName name names).Pairwise (· < ·) := by
  induction names with
  | nil => exact List.pairwise_singleton _ _
  | cons first rest ih =>
      obtain ⟨hFirst, hRest⟩ := List.pairwise_cons.mp hOrdered
      unfold insertName
      split
      · rename_i hBefore
        refine List.pairwise_cons.mpr ⟨?_, hOrdered⟩
        intro other hOther
        rcases List.mem_cons.mp hOther with hSame | hLater
        · rw [hSame]
          exact hBefore
        · exact lt_trans hBefore (hFirst other hLater)
      · rename_i hNotBefore
        split
        · exact hOrdered
        · rename_i hDistinct
          refine List.pairwise_cons.mpr ⟨?_, ih hRest⟩
          intro other hOther
          rcases (mem_insertName name other rest).mp hOther with hSame | hLater
          · rw [hSame]
            exact lt_of_le_of_ne (not_lt.mp hNotBefore) (Ne.symm hDistinct)
          · exact hFirst other hLater

theorem orderedNames_ordered (names : List String) : (orderedNames names).Pairwise (· < ·) := by
  induction names with
  | nil => exact List.Pairwise.nil
  | cons name rest ih => exact insertName_ordered name ih

namespace Locks

/-! ### Queues and claims after an operation -/

theorem queue_enqueue (locks : Locks) (name other : String) (owner : Nat) :
    (locks.enqueue name owner).queue other =
      if other = name then locks.queue other ++ [owner] else locks.queue other := by
  unfold queue enqueue
  rw [Table.get?_set]
  by_cases hSame : other = name
  · rw [if_pos hSame, if_pos hSame, hSame]
    rfl
  · rw [if_neg hSame, if_neg hSame]

theorem queue_enqueueFirst (locks : Locks) (names : List String) (other : String) (owner : Nat) :
    (locks.enqueueFirst names owner).queue other =
      if other ∈ names.take 1 then locks.queue other ++ [owner] else locks.queue other := by
  cases names with
  | nil => simp [enqueueFirst]
  | cons name rest =>
      rw [enqueueFirst, queue_enqueue]
      simp

theorem mem_queue_enqueueFirst (locks : Locks) (names : List String) (name : String)
    (owner other : Nat) :
    other ∈ (locks.enqueueFirst names owner).queue name ↔
      other ∈ locks.queue name ∨ other = owner ∧ name ∈ names.take 1 := by
  rw [queue_enqueueFirst]
  split
  · rename_i hFirst
    simp [hFirst]
  · rename_i hLater
    simp [hLater]

theorem claims_enqueueFirst (locks : Locks) (names : List String) (owner : Nat) :
    (locks.enqueueFirst names owner).claims = locks.claims := by
  cases names <;> rfl

/-- A task that is put into a queue does not take a lock from its holder. -/
theorem holder?_enqueueFirst {locks : Locks} {name : String} {holder : Nat}
    (hHolder : locks.holder? name = some holder) (names : List String) (owner : Nat) :
    (locks.enqueueFirst names owner).holder? name = some holder := by
  unfold holder? at hHolder ⊢
  rw [queue_enqueueFirst]
  split
  · rw [List.head?_append, hHolder]
    rfl
  · exact hHolder

theorem queue_dequeue (locks : Locks) (name other : String) (owner : Nat) :
    (locks.dequeue name owner).queue other =
      if other = name then (locks.queue other).erase owner else locks.queue other := by
  have hKept (rest : List Nat) : (if rest.isEmpty then none else some rest).getD [] = rest := by
    cases rest <;> rfl
  unfold dequeue
  simp only [queue]
  rw [Table.get?_put]
  by_cases hSame : other = name
  · rw [if_pos hSame, if_pos hSame, hSame]
    exact hKept _
  · rw [if_neg hSame, if_neg hSame]

theorem claims_foldl_dequeue (names : List String) (owner : Nat) (locks : Locks) :
    (names.foldl (fun locks name => locks.dequeue name owner) locks).claims = locks.claims := by
  induction names generalizing locks with
  | nil => rfl
  | cons name rest ih =>
      rw [List.foldl_cons, ih]
      rfl

theorem queue_foldl_dequeue {names : List String} (hNames : names.Nodup) (owner : Nat)
    (locks : Locks) (other : String) :
    (names.foldl (fun locks name => locks.dequeue name owner) locks).queue other =
      if other ∈ names then (locks.queue other).erase owner else locks.queue other := by
  induction names generalizing locks with
  | nil => simp
  | cons name rest ih =>
      obtain ⟨hName, hRest⟩ := List.nodup_cons.mp hNames
      rw [List.foldl_cons, ih hRest, queue_dequeue]
      by_cases hSame : other = name
      · rw [hSame, if_neg hName, if_pos rfl, if_pos List.mem_cons_self]
      · simp [hSame]

/-! ### Who claims locks -/

def Claimed (locks : Locks) (owner : Nat) : Prop :=
  ∃ claim ∈ locks.claims, claim.owner = owner

theorem mem_claims_setClaim (locks : Locks) (claim other : Claim) :
    other ∈ (locks.setClaim claim).claims ↔
      other = claim ∨ other ∈ locks.claims ∧ other.owner ≠ claim.owner := by
  unfold setClaim
  rw [List.mem_cons, List.mem_filter, bne_iff_ne]

theorem claimed_setClaim (locks : Locks) (claim : Claim) (owner : Nat) :
    (locks.setClaim claim).Claimed owner ↔ owner = claim.owner ∨ locks.Claimed owner := by
  unfold Claimed
  simp only [mem_claims_setClaim]
  constructor
  · rintro ⟨other, hNew | ⟨hOld, _⟩, hOwner⟩
    · exact Or.inl (hOwner.symm.trans (congrArg Claim.owner hNew))
    · exact Or.inr ⟨other, hOld, hOwner⟩
  · intro hEither
    by_cases hSame : owner = claim.owner
    · exact ⟨claim, Or.inl rfl, hSame.symm⟩
    · obtain ⟨other, hOther, hOwner⟩ := hEither.resolve_left hSame
      exact ⟨other, Or.inr ⟨hOther, hOwner ▸ hSame⟩, hOwner⟩

theorem claimed_enqueueFirst (locks : Locks) (names : List String) (owner other : Nat) :
    (locks.enqueueFirst names owner).Claimed other ↔ locks.Claimed other := by
  unfold Claimed
  rw [claims_enqueueFirst]

theorem claimed_begin (locks : Locks) (owner : Nat) (names : List String) (other : Nat) :
    (locks.begin owner names).Claimed other ↔ other = owner ∨ locks.Claimed other := by
  unfold begin
  rw [claimed_enqueueFirst, claimed_setClaim]

theorem claim?_eq_none_iff (locks : Locks) (owner : Nat) :
    locks.claim? owner = none ↔ ¬ locks.Claimed owner := by
  unfold claim? Claimed
  rw [List.find?_eq_none]
  simp

theorem mem_of_claim? {locks : Locks} {owner : Nat} {claim : Claim}
    (hClaim : locks.claim? owner = some claim) : claim ∈ locks.claims ∧ claim.owner = owner :=
  ⟨List.mem_of_find?_eq_some hClaim, by simpa using List.find?_some hClaim⟩

theorem claims_release (locks : Locks) (owner : Nat) :
    (locks.release owner).claims = locks.claims.filter (fun claim => claim.owner != owner) := by
  unfold release
  cases hClaim : locks.claim? owner with
  | none =>
      have hAbsent := (claim?_eq_none_iff locks owner).mp hClaim
      refine (List.filter_eq_self.mpr ?_).symm
      intro claim hMember
      exact bne_iff_ne.mpr fun hOwner => hAbsent ⟨claim, hMember, hOwner⟩
  | some claim => exact claims_foldl_dequeue _ _ _

theorem mem_claims_release (locks : Locks) (owner : Nat) (claim : Claim) :
    claim ∈ (locks.release owner).claims ↔ claim ∈ locks.claims ∧ claim.owner ≠ owner := by
  rw [claims_release, List.mem_filter, bne_iff_ne]

theorem claimed_release (locks : Locks) (owner other : Nat) :
    (locks.release owner).Claimed other ↔ other ≠ owner ∧ locks.Claimed other := by
  constructor
  · rintro ⟨claim, hClaim, hOwner⟩
    obtain ⟨hKept, hNot⟩ := (mem_claims_release locks owner claim).mp hClaim
    exact ⟨hOwner ▸ hNot, claim, hKept, hOwner⟩
  · rintro ⟨hNot, claim, hKept, hOwner⟩
    exact ⟨claim, (mem_claims_release locks owner claim).mpr ⟨hKept, hOwner ▸ hNot⟩, hOwner⟩

theorem claimed_foldl_release (owners : List Nat) (locks : Locks) (other : Nat) :
    (owners.foldl release locks).Claimed other ↔ other ∉ owners ∧ locks.Claimed other := by
  induction owners generalizing locks with
  | nil => simp
  | cons owner rest ih =>
      rw [List.foldl_cons, ih, claimed_release, List.mem_cons, not_or, and_left_comm, and_assoc]

theorem take?_eq_some {locks taken : Locks} {owner : Nat} (hTake : locks.take? owner = some taken) :
    ∃ claim name rest, locks.claim? owner = some claim ∧ claim.wanted = name :: rest ∧
      locks.holder? name = some owner ∧
        taken = (locks.setClaim
          { owner := owner, taken := claim.taken ++ [name], wanted := rest }).enqueueFirst
            rest owner := by
  unfold take? at hTake
  split at hTake
  · rename_i claimer has name rest hClaim
    split at hTake
    · rename_i hHolder
      exact ⟨_, name, rest, hClaim, rfl, hHolder, (Option.some.inj hTake).symm⟩
    · cases hTake
  · cases hTake

theorem take?_of_holder {locks : Locks} {owner : Nat} {claim : Claim} {name : String}
    {rest : List String} (hClaim : locks.claim? owner = some claim)
    (hWanted : claim.wanted = name :: rest) (hHolder : locks.holder? name = some owner) :
    locks.take? owner = some ((locks.setClaim
      { owner := owner, taken := claim.taken ++ [name], wanted := rest }).enqueueFirst
        rest owner) := by
  obtain ⟨claimer, taken, wanted⟩ := claim
  subst hWanted
  unfold take?
  simp only [hClaim, if_pos hHolder]

/-! ### What holds of the locks -/

/-- What holds as long as no task claims a group of locks while it has claimed another. -/
structure Sound (locks : Locks) : Prop where
  owners : (locks.claims.map Claim.owner).Nodup
  /-- A task stands in the queues of the locks it has taken and of the next one it wants. -/
  stands : ∀ name owner, owner ∈ locks.queue name ↔
    ∃ claim ∈ locks.claims, claim.owner = owner ∧ name ∈ claim.queued
  once : ∀ name, (locks.queue name).Nodup
  held : ∀ claim ∈ locks.claims, ∀ name ∈ claim.taken, locks.holder? name = some claim.owner
  ordered : ∀ claim ∈ locks.claims, (claim.taken ++ claim.wanted).Pairwise (· < ·)

theorem sound_start : Sound {} where
  owners := List.nodup_nil
  stands := by
    intro name owner
    constructor
    · intro hStands
      cases hStands
    · rintro ⟨claim, hClaim, _⟩
      cases hClaim
  once := fun _ => List.nodup_nil
  held := by
    intro claim hClaim
    cases hClaim
  ordered := by
    intro claim hClaim
    cases hClaim

section

variable {locks : Locks}

theorem Sound.claim?_eq_some_iff (hSound : locks.Sound) (owner : Nat) (claim : Claim) :
    locks.claim? owner = some claim ↔ claim ∈ locks.claims ∧ claim.owner = owner := by
  constructor
  · exact mem_of_claim?
  · rintro ⟨hClaim, hOwner⟩
    cases hFind : locks.claim? owner with
    | none => exact absurd ⟨claim, hClaim, hOwner⟩ ((claim?_eq_none_iff locks owner).mp hFind)
    | some other =>
        obtain ⟨hOther, hOtherOwner⟩ := mem_of_claim? hFind
        rw [List.inj_on_of_nodup_map hSound.owners hOther hClaim (hOtherOwner.trans hOwner.symm)]

theorem Sound.stands_iff (hSound : locks.Sound) {owner : Nat} {claim : Claim}
    (hClaim : locks.claim? owner = some claim) (name : String) :
    owner ∈ locks.queue name ↔ name ∈ claim.queued := by
  rw [hSound.stands]
  constructor
  · rintro ⟨other, hOther, hOwner, hQueued⟩
    have hSame := (hSound.claim?_eq_some_iff owner other).mpr ⟨hOther, hOwner⟩
    rw [hClaim] at hSame
    rw [Option.some.inj hSame]
    exact hQueued
  · intro hQueued
    obtain ⟨hMember, hOwner⟩ := mem_of_claim? hClaim
    exact ⟨claim, hMember, hOwner, hQueued⟩

theorem Sound.not_stands (hSound : locks.Sound) {owner : Nat} (hAbsent : ¬ locks.Claimed owner)
    (name : String) : owner ∉ locks.queue name := by
  intro hStands
  obtain ⟨claim, hClaim, hOwner, _⟩ := (hSound.stands name owner).mp hStands
  exact hAbsent ⟨claim, hClaim, hOwner⟩

theorem ordered_nodup {names : List String} (hOrdered : names.Pairwise (· < ·)) : names.Nodup :=
  hOrdered.imp fun hBefore => ne_of_lt hBefore

theorem Sound.queued_nodup (hSound : locks.Sound) {claim : Claim} (hClaim : claim ∈ locks.claims) :
    claim.queued.Nodup := by
  refine (ordered_nodup (hSound.ordered claim hClaim)).sublist ?_
  exact (List.Sublist.refl _).append (List.take_sublist 1 claim.wanted)

theorem Sound.stands_setClaim (hSound : locks.Sound) (claim : Claim)
    (hStands : ∀ name, claim.owner ∈ locks.queue name ↔ name ∈ claim.taken)
    (name : String) (owner : Nat) :
    owner ∈ ((locks.setClaim claim).enqueueFirst claim.wanted claim.owner).queue name ↔
      ∃ other ∈ (locks.setClaim claim).claims, other.owner = owner ∧ name ∈ other.queued := by
  rw [mem_queue_enqueueFirst]
  change owner ∈ locks.queue name ∨ _ ↔ _
  simp only [mem_claims_setClaim]
  by_cases hSelf : owner = claim.owner
  · -- The owner of the claim has no other.
    rw [hSelf, hStands, and_iff_right rfl, ← List.mem_append]
    constructor
    · exact fun hQueued => ⟨claim, Or.inl rfl, rfl, hQueued⟩
    · rintro ⟨other, hNew | ⟨_, hOther⟩, hOwner, hQueued⟩
      · exact hNew ▸ hQueued
      · exact absurd hOwner hOther
  · rw [hSound.stands, or_iff_left fun hNext => hSelf hNext.1]
    constructor
    · rintro ⟨other, hOther, hOwner, hQueued⟩
      exact ⟨other, Or.inr ⟨hOther, hOwner ▸ hSelf⟩, hOwner, hQueued⟩
    · rintro ⟨other, hNew | ⟨hOld, _⟩, hOwner, hQueued⟩
      · exact absurd (hOwner.symm.trans (congrArg Claim.owner hNew)) hSelf
      · exact ⟨other, hOld, hOwner, hQueued⟩

/-- A claim may take the place of another of its owner that stands in the same queues. -/
theorem Sound.setClaim (hSound : locks.Sound) (claim : Claim)
    (hStands : ∀ name, claim.owner ∈ locks.queue name ↔ name ∈ claim.taken)
    (hHeld : ∀ name ∈ claim.taken, locks.holder? name = some claim.owner)
    (hOrdered : (claim.taken ++ claim.wanted).Pairwise (· < ·)) :
    ((locks.setClaim claim).enqueueFirst claim.wanted claim.owner).Sound where
  owners := by
    rw [claims_enqueueFirst]
    refine List.nodup_cons.mpr ⟨?_, hSound.owners.sublist (List.filter_sublist.map Claim.owner)⟩
    intro hMember
    obtain ⟨other, hOther, hOwner⟩ := List.mem_map.mp hMember
    simp [hOwner] at hOther
  stands := by
    rw [claims_enqueueFirst]
    exact hSound.stands_setClaim claim hStands
  once := by
    intro name
    rw [queue_enqueueFirst]
    change (if name ∈ claim.wanted.take 1 then locks.queue name ++ [claim.owner]
      else locks.queue name).Nodup
    split
    · rename_i hNext
      refine (hSound.once name).append (List.nodup_singleton _) ?_
      rw [List.disjoint_singleton, hStands]
      -- What the claim wants next is not what it has taken.
      intro hTaken
      have hBefore := (List.pairwise_append.mp hOrdered).2.2 name hTaken name
        (List.mem_of_mem_take hNext)
      exact lt_irrefl name hBefore
    · exact hSound.once name
  held := by
    intro other hOther name hTaken
    rw [claims_enqueueFirst] at hOther
    have hBefore : (locks.setClaim claim).holder? name = some other.owner := by
      rcases (mem_claims_setClaim locks claim other).mp hOther with hNew | ⟨hOld, _⟩
      · subst hNew
        exact hHeld name hTaken
      · exact hSound.held other hOld name hTaken
    exact holder?_enqueueFirst hBefore _ _
  ordered := by
    intro other hOther
    rw [claims_enqueueFirst] at hOther
    rcases (mem_claims_setClaim locks claim other).mp hOther with hNew | ⟨hOld, _⟩
    · subst hNew
      exact hOrdered
    · exact hSound.ordered other hOld

theorem Sound.begin (hSound : locks.Sound) {owner : Nat} (hAbsent : ¬ locks.Claimed owner)
    (names : List String) : (locks.begin owner names).Sound := by
  refine hSound.setClaim { owner := owner, wanted := orderedNames names } ?_ ?_ ?_
  · intro name
    exact iff_of_false (hSound.not_stands hAbsent name) List.not_mem_nil
  · exact List.forall_mem_nil _
  · exact orderedNames_ordered names

theorem Sound.take? (hSound : locks.Sound) {taken : Locks} {owner : Nat}
    (hTake : locks.take? owner = some taken) : taken.Sound := by
  obtain ⟨claim, name, rest, hClaim, hWanted, hHolder, hTaken⟩ := take?_eq_some hTake
  obtain ⟨hMember, hOwner⟩ := mem_of_claim? hClaim
  rw [hTaken]
  refine hSound.setClaim
    { owner := owner, taken := claim.taken ++ [name], wanted := rest } ?_ ?_ ?_
  · intro other
    rw [hSound.stands_iff hClaim, Claim.queued, hWanted]
    rfl
  · intro other hOther
    rcases List.mem_append.mp hOther with hEarlier | hNext
    · rw [hSound.held claim hMember other hEarlier, hOwner]
    · rw [List.mem_singleton.mp hNext, hHolder]
  · have hOrdered := hSound.ordered claim hMember
    rw [hWanted] at hOrdered
    simpa using hOrdered

theorem claimed_take? {taken : Locks} {owner : Nat} (hTake : locks.take? owner = some taken)
    (other : Nat) : taken.Claimed other ↔ locks.Claimed other := by
  obtain ⟨claim, name, rest, hClaim, _, _, hTaken⟩ := take?_eq_some hTake
  obtain ⟨hMember, hOwner⟩ := mem_of_claim? hClaim
  rw [hTaken, claimed_enqueueFirst, claimed_setClaim]
  refine or_iff_right_of_imp ?_
  intro hSame
  exact ⟨claim, hMember, hOwner.trans hSame.symm⟩

theorem Sound.takeAll (hSound : locks.Sound) (owner bound : Nat) :
    (locks.takeAll owner bound).Sound ∧
      ∀ other, (locks.takeAll owner bound).Claimed other ↔ locks.Claimed other := by
  induction bound generalizing locks with
  | zero => exact ⟨hSound, fun _ => Iff.rfl⟩
  | succ bound ih =>
      unfold Locks.takeAll
      cases hTake : locks.take? owner with
      | none => exact ⟨hSound, fun _ => Iff.rfl⟩
      | some taken =>
          obtain ⟨hTaken, hClaimed⟩ := ih (hSound.take? hTake)
          exact ⟨hTaken, fun other => (hClaimed other).trans (claimed_take? hTake other)⟩

theorem Sound.settle (hSound : locks.Sound) (owner : Nat) :
    (locks.settle owner).Sound ∧
      ∀ other, (locks.settle owner).Claimed other ↔ locks.Claimed other := by
  unfold Locks.settle
  cases locks.claim? owner with
  | none => exact ⟨hSound, fun _ => Iff.rfl⟩
  | some claim => exact hSound.takeAll owner claim.wanted.length

/-- A task that gives up its claim stands in no queue any more; nothing else changes. -/
theorem Sound.queue_release (hSound : locks.Sound) (owner : Nat) (name : String) :
    (locks.release owner).queue name = (locks.queue name).erase owner := by
  cases hClaim : locks.claim? owner with
  | none =>
      have hAbsent := hSound.not_stands ((claim?_eq_none_iff locks owner).mp hClaim) name
      rw [List.erase_of_not_mem hAbsent]
      unfold Locks.release
      rw [hClaim]
  | some claim =>
      unfold Locks.release
      simp only [hClaim]
      rw [queue_foldl_dequeue (hSound.queued_nodup (mem_of_claim? hClaim).1)]
      change (if name ∈ claim.queued then (locks.queue name).erase owner
        else locks.queue name) = _
      split
      · rfl
      · rename_i hNot
        rw [← hSound.stands_iff hClaim] at hNot
        exact (List.erase_of_not_mem hNot).symm

theorem Sound.release (hSound : locks.Sound) (owner : Nat) : (locks.release owner).Sound where
  owners := by
    rw [claims_release]
    exact hSound.owners.sublist (List.filter_sublist.map Claim.owner)
  stands := by
    intro name other
    rw [hSound.queue_release, (hSound.once name).mem_erase_iff, hSound.stands]
    constructor
    · rintro ⟨hOther, claim, hClaim, hOwner, hQueued⟩
      exact ⟨claim, (mem_claims_release locks owner claim).mpr ⟨hClaim, hOwner ▸ hOther⟩,
        hOwner, hQueued⟩
    · rintro ⟨claim, hClaim, hOwner, hQueued⟩
      obtain ⟨hKept, hOther⟩ := (mem_claims_release locks owner claim).mp hClaim
      exact ⟨hOwner ▸ hOther, claim, hKept, hOwner, hQueued⟩
  once := by
    intro name
    rw [hSound.queue_release]
    exact (hSound.once name).erase owner
  held := by
    intro claim hClaim name hTaken
    obtain ⟨hKept, hOther⟩ := (mem_claims_release locks owner claim).mp hClaim
    have hHolder := hSound.held claim hKept name hTaken
    unfold holder? at hHolder ⊢
    rw [hSound.queue_release]
    -- The holder of a lock keeps its place before all others.
    obtain ⟨rest, hQueue⟩ := List.head?_eq_some_iff.mp hHolder
    rw [hQueue, List.erase_cons_tail (by simpa using hOther)]
    rfl
  ordered := by
    intro claim hClaim
    exact hSound.ordered claim ((mem_claims_release locks owner claim).mp hClaim).1

theorem Sound.foldl_release (hSound : locks.Sound) (owners : List Nat) :
    (owners.foldl Locks.release locks).Sound := by
  induction owners generalizing locks with
  | nil => exact hSound
  | cons owner rest ih => exact ih (hSound.release owner)

/-! ### The claim of one owner -/

theorem claim?_setClaim (locks : Locks) (claim : Claim) (owner : Nat) :
    (locks.setClaim claim).claim? owner =
      if owner = claim.owner then some claim else locks.claim? owner := by
  unfold claim? setClaim
  split
  · rename_i hSame
    exact List.find?_cons_of_pos (by simp [hSame])
  · rename_i hOther
    rw [List.find?_cons_of_neg (by simpa using Ne.symm hOther), List.find?_filter]
    congr 1
    funext other
    by_cases hOwner : other.owner = owner
    · simp [hOwner, hOther]
    · simp [hOwner]

theorem claim?_enqueueFirst (locks : Locks) (names : List String) (owner other : Nat) :
    (locks.enqueueFirst names owner).claim? other = locks.claim? other := by
  unfold claim?
  rw [claims_enqueueFirst]

theorem claim?_begin (locks : Locks) (owner : Nat) (names : List String) (other : Nat) :
    (locks.begin owner names).claim? other =
      if other = owner then some { owner := owner, wanted := orderedNames names }
      else locks.claim? other := by
  unfold begin
  rw [claim?_enqueueFirst, claim?_setClaim]

theorem Sound.claim?_release (hSound : locks.Sound) {owner task : Nat} (hOther : task ≠ owner) :
    (locks.release owner).claim? task = locks.claim? task := by
  apply Option.ext
  intro claim
  rw [(hSound.release owner).claim?_eq_some_iff, hSound.claim?_eq_some_iff, mem_claims_release]
  constructor
  · intro hKept
    exact ⟨hKept.1.1, hKept.2⟩
  · intro hClaim
    exact ⟨⟨hClaim.1, hClaim.2 ▸ hOther⟩, hClaim.2⟩

theorem claim?_takeAll (owner bound other : Nat) (locks : Locks) :
    if other = owner then
      ((locks.takeAll owner bound).claim? other).map (fun claim => claim.taken ++ claim.wanted) =
        (locks.claim? other).map (fun claim => claim.taken ++ claim.wanted)
    else (locks.takeAll owner bound).claim? other = locks.claim? other := by
  induction bound generalizing locks with
  | zero =>
      split
      · rfl
      · rfl
  | succ bound ih =>
      unfold takeAll
      cases hTake : locks.take? owner with
      | none =>
          split
          · rfl
          · rfl
      | some taken =>
          obtain ⟨claim, name, rest, hClaim, hWanted, _, hTaken⟩ := take?_eq_some hTake
          have hRest := ih taken
          have hFirst (asked : Nat) : taken.claim? asked =
              if asked = owner then
                some { owner := owner, taken := claim.taken ++ [name], wanted := rest }
              else locks.claim? asked := by
            rw [hTaken, claim?_enqueueFirst, claim?_setClaim]
          split
          · rename_i hSame
            rw [if_pos hSame] at hRest
            rw [hRest, hFirst, if_pos hSame, hSame, hClaim]
            simp [hWanted]
          · rename_i hOther
            rw [if_neg hOther] at hRest
            rw [hRest, hFirst, if_neg hOther]

theorem claim?_settle_of_ne (locks : Locks) {owner other : Nat} (hOther : other ≠ owner) :
    (locks.settle owner).claim? other = locks.claim? other := by
  unfold settle
  split
  · rename_i claim _
    have hTaken := claim?_takeAll owner claim.wanted.length other locks
    rw [if_neg hOther] at hTaken
    exact hTaken
  · rfl

theorem claim?_settle_self (locks : Locks) (owner : Nat) :
    ((locks.settle owner).claim? owner).map (fun claim => claim.taken ++ claim.wanted) =
      (locks.claim? owner).map (fun claim => claim.taken ++ claim.wanted) := by
  unfold settle
  split
  · rename_i claim _
    have hTaken := claim?_takeAll owner claim.wanted.length owner locks
    rw [if_pos rfl] at hTaken
    exact hTaken
  · rfl

/-! ### Claims never block one another -/

theorem holds_of_claim? {owner : Nat} {claim : Claim} (hClaim : locks.claim? owner = some claim)
    (hWanted : claim.wanted = []) : locks.holds owner = true := by
  unfold holds
  rw [hClaim]
  exact List.isEmpty_iff.mpr hWanted

/-- A task that holds the next lock it wants takes all the others, too, if nobody waits for
them. -/
theorem takeAll_holds {owner : Nat} (wanted : List String) {claim : Claim}
    (hClaim : locks.claim? owner = some claim) (hWanted : claim.wanted = wanted)
    (hOrdered : wanted.Nodup)
    (hNext : ∀ name, wanted.head? = some name → locks.holder? name = some owner)
    (hFree : ∀ name ∈ wanted.tail, locks.queue name = []) :
    (locks.takeAll owner wanted.length).holds owner = true := by
  induction wanted generalizing locks claim with
  | nil => exact holds_of_claim? hClaim hWanted
  | cons name rest ih =>
      rw [List.length_cons, Locks.takeAll, take?_of_holder hClaim hWanted (hNext name rfl)]
      obtain ⟨hFirst, hRest⟩ := List.nodup_cons.mp hOrdered
      have hFind : ((locks.setClaim
          { owner := owner, taken := claim.taken ++ [name], wanted := rest }).enqueueFirst
            rest owner).claim? owner =
          some { owner := owner, taken := claim.taken ++ [name], wanted := rest } := by
        unfold claim?
        rw [claims_enqueueFirst]
        exact List.find?_cons_of_pos (beq_self_eq_true owner)
      refine ih hFind rfl hRest ?_ ?_
      · intro next hHead
        have hQueue := hFree next (List.mem_of_mem_head? hHead)
        unfold holder?
        rw [queue_enqueueFirst, if_pos (by rw [List.take_one, hHead]; exact List.mem_cons_self)]
        change (locks.queue next ++ [owner]).head? = some owner
        rw [hQueue]
        rfl
      · intro other hOther
        rw [queue_enqueueFirst, if_neg ?_]
        · exact hFree other (List.mem_of_mem_tail hOther)
        · -- The next lock is not among those that come after it.
          cases rest with
          | nil => cases hOther
          | cons next last =>
              intro hSame
              rw [List.mem_singleton.mp hSame] at hOther
              exact (List.nodup_cons.mp hRest).1 hOther

theorem Sound.settle_holds (hSound : locks.Sound) {claim : Claim} (hClaim : claim ∈ locks.claims)
    (hNext : ∀ name, claim.wanted.head? = some name → locks.holder? name = some claim.owner)
    (hFree : ∀ name ∈ claim.wanted.tail, locks.queue name = []) :
    (locks.settle claim.owner).holds claim.owner = true := by
  have hFind := (hSound.claim?_eq_some_iff claim.owner claim).mpr ⟨hClaim, rfl⟩
  have hOrdered := (List.pairwise_append.mp (hSound.ordered claim hClaim)).2.1
  unfold Locks.settle
  rw [hFind]
  exact takeAll_holds claim.wanted hFind rfl (ordered_nodup hOrdered) hNext hFree

/-- Every claim still wants a lock, and none that comes after a name is wanted next. -/
def WantsUpTo (locks : Locks) (greatest : String) : Prop :=
  ∀ claim ∈ locks.claims, ∃ name rest, claim.wanted = name :: rest ∧ name ≤ greatest

theorem Sound.taken_lt (hSound : locks.Sound) {greatest : String}
    (hWants : locks.WantsUpTo greatest) {claim : Claim} (hClaim : claim ∈ locks.claims)
    {name : String} (hTaken : name ∈ claim.taken) : name < greatest := by
  obtain ⟨next, rest, hWanted, hBelow⟩ := hWants claim hClaim
  have hOrdered := (List.pairwise_append.mp (hSound.ordered claim hClaim)).2.2
  exact lt_of_lt_of_le (hOrdered name hTaken next (by simp [hWanted])) hBelow

theorem Sound.queue_beyond (hSound : locks.Sound) {greatest : String}
    (hWants : locks.WantsUpTo greatest) {name : String} (hBeyond : greatest < name) :
    locks.queue name = [] := by
  refine List.eq_nil_iff_forall_not_mem.mpr ?_
  intro owner hStands
  obtain ⟨claim, hClaim, _, hQueued⟩ := (hSound.stands name owner).mp hStands
  rcases List.mem_append.mp hQueued with hTaken | hWaits
  · exact lt_asymm hBeyond (hSound.taken_lt hWants hClaim hTaken)
  · obtain ⟨next, rest, hWanted, hBelow⟩ := hWants claim hClaim
    rw [hWanted] at hWaits
    rw [List.mem_singleton.mp hWaits] at hBeyond
    exact not_le_of_gt hBeyond hBelow

/-- Whoever stands first for the greatest lock has not taken it yet. -/
theorem Sound.wants_greatest (hSound : locks.Sound) {greatest : String}
    (hWants : locks.WantsUpTo greatest) {holder : Nat}
    (hHolder : locks.holder? greatest = some holder) :
    ∃ claim ∈ locks.claims, claim.owner = holder ∧ claim.wanted.head? = some greatest := by
  obtain ⟨claim, hClaim, hOwner, hQueued⟩ :=
    (hSound.stands greatest holder).mp (List.mem_of_head? hHolder)
  refine ⟨claim, hClaim, hOwner, ?_⟩
  rcases List.mem_append.mp hQueued with hTaken | hWaits
  · exact absurd (hSound.taken_lt hWants hClaim hTaken) (lt_irrefl greatest)
  · obtain ⟨next, rest, hWanted, _⟩ := hWants claim hClaim
    rw [hWanted] at hWaits ⊢
    rw [List.mem_singleton.mp hWaits]
    rfl

theorem exists_greatest (hClaims : locks.claims ≠ [])
    (hWants : ∀ claim ∈ locks.claims, claim.wanted ≠ []) :
    ∃ greatest, locks.WantsUpTo greatest ∧ ∃ claim ∈ locks.claims, greatest ∈ claim.queued := by
  obtain ⟨last, hLast, hMost⟩ := locks.claims.toFinset.exists_max_image
    (fun claim => claim.wanted.headD "") (by simpa using hClaims)
  obtain ⟨greatest, others, hLastWants⟩ :=
    List.exists_cons_of_ne_nil (hWants last (List.mem_toFinset.mp hLast))
  refine ⟨greatest, ?_, last, List.mem_toFinset.mp hLast, ?_⟩
  · intro claim hClaim
    obtain ⟨name, rest, hWanted⟩ := List.exists_cons_of_ne_nil (hWants claim hClaim)
    have hBelow := hMost claim (List.mem_toFinset.mpr hClaim)
    rw [hWanted, hLastWants] at hBelow
    exact ⟨name, rest, hWanted, hBelow⟩
  · simp [Claim.queued, hLastWants]

/-- As long as there are claims, one of them can be granted: it is complete, or whoever holds
the greatest of the locks that are wanted next can take all it still wants. -/
theorem Sound.exists_granted (hSound : locks.Sound) (hClaims : locks.claims ≠ []) :
    ∃ owner, locks.Claimed owner ∧ (locks.settle owner).holds owner = true := by
  by_cases hComplete : ∃ claim ∈ locks.claims, claim.wanted = []
  · obtain ⟨claim, hClaim, hWanted⟩ := hComplete
    refine ⟨claim.owner, ⟨claim, hClaim, rfl⟩, hSound.settle_holds hClaim ?_ ?_⟩
    · simp [hWanted]
    · simp [hWanted]
  · obtain ⟨greatest, hWants, last, hLast, hQueued⟩ :=
      exists_greatest hClaims fun claim hClaim hNone => hComplete ⟨claim, hClaim, hNone⟩
    have hStands := (hSound.stands greatest last.owner).mpr ⟨last, hLast, rfl, hQueued⟩
    obtain ⟨holder, hHolder⟩ : ∃ holder, locks.holder? greatest = some holder :=
      Option.isSome_iff_exists.mp (List.isSome_head?.mpr (List.ne_nil_of_mem hStands))
    obtain ⟨claim, hClaim, hOwner, hNext⟩ := hSound.wants_greatest hWants hHolder
    refine ⟨claim.owner, ⟨claim, hClaim, rfl⟩, hSound.settle_holds hClaim ?_ ?_⟩
    · intro name hName
      rw [Option.some.inj (hName.symm.trans hNext), hHolder, hOwner]
    · intro name hName
      refine hSound.queue_beyond hWants ?_
      have hOrdered := (List.pairwise_append.mp (hSound.ordered claim hClaim)).2.1
      obtain ⟨rest, hWanted⟩ := List.head?_eq_some_iff.mp hNext
      rw [hWanted] at hOrdered hName
      exact (List.pairwise_cons.mp hOrdered).1 name hName

end

end Locks

end BuildWatch.Tasks
