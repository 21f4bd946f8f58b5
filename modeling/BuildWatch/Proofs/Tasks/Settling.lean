import BuildWatch.Proofs.Tasks.Claims
import Mathlib.Algebra.GroupWithZero.Nat
import Mathlib.Data.List.Induction

/-!
Tasks that take turns in one order until none is ready.  Each turn leaves its task with less
to do, and it makes no more tasks ready than there are; so nothing is left to do before the
turns that are allowed run out.  Then time comes as far as it was told to, and no task sleeps
past the time it waits for.
-/

namespace BuildWatch.Tasks

open Std.Do

/-! ### What every result of an action has -/

section

variable {m : Type → Type} {ps : PostShape} {α β : Type}

/-- Every result of an action has a property, and what is assumed of the world is kept. -/
def Ensures [WP m ps] (kept : Assertion ps) (action : m α) (property : α → Prop) : Prop :=
  ⦃kept⦄ action ⦃⇓ result => SPred.and ⌜property result⌝ kept⦄

theorem ensures_id_iff (action : Id α) (property : α → Prop) :
    Ensures ⌜True⌝ action property ↔ property (Id.run action) :=
  ⟨fun hEnsures => (hEnsures trivial).1, fun hProperty _ => ⟨hProperty, trivial⟩⟩

theorem ensures_state_iff {World : Type} (kept : World → Prop) (action : StateM World α)
    (property : α → Prop) :
    Ensures (fun world => ⌜kept world⌝) action property ↔
      ∀ world, kept world → property (action.run world).1 ∧ kept (action.run world).2 :=
  ⟨fun hEnsures world hKept => hEnsures world hKept,
    fun hProperty world hKept => hProperty world hKept⟩

variable [Monad m] [WPMonad m ps] {kept : Assertion ps}
variable {first second : α → Prop} {last : β → Prop}

theorem ensures_pure {result : α} (hFirst : first result) :
    Ensures kept (pure result : m α) first :=
  Triple.pure result (SPred.and_intro (SPred.pure_intro hFirst) (SPred.entails.refl kept))

theorem Ensures.bind {action : m α} {next : α → m β} (hFirst : Ensures kept action first)
    (hNext : ∀ result, first result → Ensures kept (next result) last) :
    Ensures kept (action >>= next) last :=
  Triple.bind action next hFirst fun result => SPred.pure_elim_l (hNext result)

theorem Ensures.mono {action : m α} (hFirst : Ensures kept action first)
    (hSecond : ∀ result, first result → second result) : Ensures kept action second := by
  have hBoth := hFirst.bind fun result hResult => ensures_pure (m := m) (hSecond result hResult)
  rw [bind_pure] at hBoth
  exact hBoth

theorem Ensures.and {action : m α} (hFirst : Ensures kept action first)
    (hSecond : Ensures kept action second) :
    Ensures kept action fun result => first result ∧ second result := by
  apply Triple.iff.mpr
  apply Triple.entails_wp_of_pre_post (Triple.and action hFirst hSecond)
  · exact SPred.and_intro (SPred.entails.refl _) (SPred.entails.refl _)
  · refine ⟨fun result => SPred.and_intro ?_ ?_, ExceptConds.and_elim_left _ _⟩
    · exact (SPred.and_mono SPred.and_elim_l SPred.and_elim_l).trans SPred.pure_and.mp
    · exact SPred.and_elim_l.trans SPred.and_elim_r

end

namespace System

variable {Stage Query Answer Data : Type} {m : Type → Type} {ps : PostShape}
variable [Monad m] [WPMonad m ps]
variable {program : Program Stage Query Answer Data} {answer : Query → m (Option Answer)}
variable {kept : Assertion ps} {system : System Stage Query Data}

/-! ### Turns in one order -/

/-- What the tasks of a system may be resumed with: an answer to what they ask, or nothing. -/
structure Grants (answer : Query → m (Option Answer)) (kept : Assertion ps)
    (replies : Wait Query → Option Answer → Prop) : Prop where
  answers : ∀ query, Ensures kept (answer query) fun answer? =>
    ∀ answer, answer? = some answer → replies (.answer query) (some answer)
  unasked : ∀ wait, (∀ query, wait ≠ .answer query) → replies wait none

theorem poll_ensures {replies : Wait Query → Option Answer → Prop}
    (hGrants : Grants answer kept replies) (system : System Stage Query Data)
    (task : Task Stage Query) :
    Ensures kept (system.poll program answer task) fun later =>
      (later = system.polled task ∧ ∀ due, task.wait = .clock due → system.now < due) ∨
        ∃ answer?, replies task.wait answer? ∧
          later = (system.polled task).resume program task answer? := by
  unfold poll polled
  cases task.wait with
  | turn => exact ensures_pure (Or.inr ⟨none, hGrants.unasked _ nofun, rfl⟩)
  | clock due =>
      dsimp only
      split
      · exact ensures_pure (Or.inr ⟨none, hGrants.unasked _ nofun, rfl⟩)
      · rename_i hEarly
        refine ensures_pure (Or.inl ⟨rfl, ?_⟩)
        rintro other ⟨⟩
        exact Nat.lt_of_not_le hEarly
  | locks =>
      dsimp only
      split
      · exact ensures_pure (Or.inr ⟨none, hGrants.unasked _ nofun, rfl⟩)
      · exact ensures_pure (Or.inl ⟨rfl, nofun⟩)
  | answer query =>
      refine (hGrants.answers query).bind ?_
      rintro (_ | answer) hReplies
      · exact ensures_pure (Or.inl ⟨rfl, nofun⟩)
      · exact ensures_pure (Or.inr ⟨some answer, hReplies answer rfl, rfl⟩)

/-- What holds with so many turns allowed, and is kept as they are used up, holds in the end;
then none is left or no task is ready. -/
theorem runReady_ensures {motive : Nat → System Stage Query Data → Prop}
    (hSkip : ∀ bound system id rest, motive (bound + 1) system → system.ready = id :: rest →
      system.task? id = none → motive bound { system with ready := rest })
    (hPoll : ∀ bound system id rest task, motive (bound + 1) system →
      system.ready = id :: rest → system.task? id = some task →
        Ensures kept (({ system with ready := rest } : System Stage Query Data).poll program
          answer task) (motive bound))
    (bound : Nat) (hMotive : motive bound system) :
    Ensures kept (system.runReady program answer bound) fun later =>
      ∃ left, motive left later ∧ (left = 0 ∨ later.ready = []) := by
  induction bound generalizing system with
  | zero => exact ensures_pure ⟨0, hMotive, Or.inl rfl⟩
  | succ bound ih =>
      unfold runReady
      cases hReady : system.ready with
      | nil => exact ensures_pure ⟨bound + 1, hMotive, Or.inr hReady⟩
      | cons id rest =>
          dsimp only
          cases hTask : system.task? id with
          | none =>
              have hGone : ({ system with ready := rest } : System Stage Query Data).task? id =
                none := hTask
              rw [hGone]
              exact ih (hSkip bound system id rest hMotive hReady hTask)
          | some task =>
              have hThere : ({ system with ready := rest } : System Stage Query Data).task? id =
                some task := hTask
              rw [hThere]
              exact (hPoll bound system id rest task hMotive hReady hTask).bind fun later => ih

theorem passTo_ensures {motive : Nat → System Stage Query Data → Prop} {target : Nat}
    (hSettle : ∀ bound system due, motive (bound + 1) system → system.nextDue? = some due →
      due ≤ target → Ensures kept ((system.moveTo due).settle program answer) (motive bound))
    (bound : Nat) (hMotive : motive bound system) :
    Ensures kept (system.passTo program answer target bound) fun later =>
      motive 0 later ∨ ∃ left system, motive left system ∧
        (∀ due, system.nextDue? = some due → target < due) ∧
          later = { system with now := max system.now target } := by
  induction bound generalizing system with
  | zero => exact ensures_pure (Or.inl hMotive)
  | succ bound ih =>
      unfold passTo
      cases hNext : system.nextDue? with
      | none =>
          refine ensures_pure (Or.inr ⟨bound + 1, system, hMotive, ?_, rfl⟩)
          intro due hDue
          rw [hNext] at hDue
          cases hDue
      | some due =>
          dsimp only
          split
          · rename_i hDue
            exact (hSettle bound system due hMotive hNext hDue).bind fun later => ih
          · rename_i hLater
            refine ensures_pure (Or.inr ⟨bound + 1, system, hMotive, ?_, rfl⟩)
            intro other hOther
            rw [hNext] at hOther
            cases hOther
            exact Nat.lt_of_not_le hLater

/-! ### Tasks that become ready -/

def Wakes (owners : List Nat) (system later : System Stage Query Data) : Prop :=
  ∃ woken, later.ready = system.ready ++ woken ∧ woken.Nodup ∧
    ∀ id ∈ woken, id ∈ owners ∧ id ∉ system.ready

theorem Wakes.refl (owners : List Nat) {later : System Stage Query Data}
    (hReady : later.ready = system.ready) : Wakes owners system later :=
  ⟨[], by rw [hReady, List.append_nil], List.nodup_nil, List.forall_mem_nil _⟩

theorem Wakes.trans {owners : List Nat} {middle later : System Stage Query Data}
    (hFirst : Wakes owners system middle) (hSecond : Wakes owners middle later) :
    Wakes owners system later := by
  obtain ⟨woken, hReady, hNodup, hWoken⟩ := hFirst
  obtain ⟨more, hLater, hMoreNodup, hMore⟩ := hSecond
  refine ⟨woken ++ more, by rw [hLater, hReady, List.append_assoc], ?_, ?_⟩
  · refine hNodup.append hMoreNodup ?_
    intro id hId hAgain
    exact (hMore id hAgain).2 (hReady ▸ List.mem_append_right _ hId)
  · intro id hId
    rcases List.mem_append.mp hId with hOld | hNew
    · exact hWoken id hOld
    · exact ⟨(hMore id hNew).1, fun hOld =>
        (hMore id hNew).2 (hReady ▸ List.mem_append_left _ hOld)⟩

theorem wakes_wake (system : System Stage Query Data) {owners : List Nat} {id : Nat}
    (hOwner : id ∈ owners) :
    Wakes owners system (system.wake id) := by
  unfold wake
  split
  · exact .refl owners rfl
  · rename_i hAbsent
    refine ⟨[id], rfl, List.nodup_singleton id, ?_⟩
    intro other hOther
    rw [List.mem_singleton.mp hOther]
    exact ⟨hOwner, fun hReady => hAbsent (List.contains_iff_mem.mpr hReady)⟩

theorem wakes_foldl_wake (system : System Stage Query Data) {owners ids : List Nat}
    (hIds : ∀ id ∈ ids, id ∈ owners) :
    Wakes owners system (ids.foldl wake system) := by
  induction ids generalizing system with
  | nil => exact .refl owners rfl
  | cons id rest ih =>
      exact (wakes_wake system (hIds id List.mem_cons_self)).trans
        (ih (system.wake id) fun other hOther => hIds other (List.mem_cons_of_mem id hOther))

theorem mem_foldl_wake {id : Nat} {ids : List Nat} (hId : id ∈ ids ∨ id ∈ system.ready) :
    id ∈ (ids.foldl wake system).ready := by
  induction ids generalizing system with
  | nil => exact hId.resolve_left List.not_mem_nil
  | cons first rest ih =>
      apply ih
      have hKept (hReady : id ∈ system.ready) : id ∈ (system.wake first).ready := by
        obtain ⟨woken, hWoken, _⟩ := wakes_wake system (List.mem_singleton_self first)
        rw [hWoken]
        exact List.mem_append_left _ hReady
      rcases hId with hListed | hReady
      · rcases List.mem_cons.mp hListed with rfl | hRest
        · refine Or.inr ?_
          unfold wake
          split
          · exact List.contains_iff_mem.mp ‹_›
          · exact List.mem_append_right _ (List.mem_singleton_self id)
        · exact Or.inl hRest
      · exact Or.inr (hKept hReady)

/-- Locks go to tasks that claim some. -/
theorem claimed_of_heir {locks : Locks} (hSound : locks.Sound) {owner heir : Nat}
    (hHeir : heir ∈ locks.heirs owner) : locks.Claimed heir := by
  unfold Locks.heirs at hHeir
  split at hHeir
  · obtain ⟨name, _, hHolder⟩ := List.mem_filterMap.mp hHeir
    split at hHolder
    · have hStands : heir ∈ (locks.release owner).queue name := List.mem_of_mem_head? hHolder
      obtain ⟨claim, hClaim, hOwner, _⟩ := ((hSound.release owner).stands name heir).mp hStands
      exact ((Locks.claimed_release locks owner heir).mp ⟨claim, hClaim, hOwner⟩).2
    · cases hHolder
  · cases hHeir

section

variable {owners : List Nat}

theorem wakes_releaseLocks (system : System Stage Query Data) (hSound : system.locks.Sound)
    (hOwners : ∀ owner, system.locks.Claimed owner → owner ∈ owners) (id : Nat) :
    Wakes owners system (system.releaseLocks id) :=
  wakes_foldl_wake { system with locks := system.locks.release id }
    fun heir hHeir => hOwners heir (claimed_of_heir hSound hHeir)

theorem wakes_foldl_remove (system : System Stage Query Data) (hSound : system.locks.Sound)
    (hOwners : ∀ owner, system.locks.Claimed owner → owner ∈ owners) (dropped : List Nat) :
    Wakes owners system (dropped.foldl remove system) := by
  induction dropped generalizing system with
  | nil => exact .refl owners rfl
  | cons id rest ih =>
      have hFirst : Wakes owners system (system.remove id) :=
        wakes_releaseLocks system hSound hOwners id
      refine hFirst.trans (ih (system.remove id) ?_ ?_)
      · rw [remove_locks]
        exact hSound.release id
      · intro owner hClaimed
        rw [remove_locks, Locks.claimed_release] at hClaimed
        exact hOwners owner hClaimed.2

theorem foldl_spawn_ready (stages : List Stage) (system : System Stage Query Data) :
    (stages.foldl spawn system).ready =
      system.ready ++ List.range' system.nextId stages.length := by
  induction stages generalizing system with
  | nil => exact (List.append_nil _).symm
  | cons stage rest ih =>
      rw [List.foldl_cons, ih, List.length_cons, List.range'_succ]
      exact List.append_assoc _ _ _

/-- The system when a task that has the turn is about to start others. -/
def freed (system : System Stage Query Data) (id : Nat) (turn : Turn Stage Query Data) :
    System Stage Query Data :=
  turn.dropped.foldl remove
    (if turn.release then ({ system with data := turn.data }).releaseLocks id
      else { system with data := turn.data })

theorem freed_locks (system : System Stage Query Data) (id : Nat)
    (turn : Turn Stage Query Data) : (system.freed id turn).locks = system.leftLocks id turn := by
  unfold freed leftLocks
  rw [foldl_remove_locks]
  split
  · rw [releaseLocks_locks]
  · rfl

theorem freed_nextId (system : System Stage Query Data) (id : Nat)
    (turn : Turn Stage Query Data) : (system.freed id turn).nextId = system.nextId := by
  unfold freed
  rw [foldl_remove_nextId]
  split
  · exact releaseLocks_nextId _ id
  · rfl

theorem wakes_freed (hSound : system.locks.Sound)
    (hOwners : ∀ owner, system.locks.Claimed owner → owner ∈ owners) (id : Nat)
    (turn : Turn Stage Query Data) : Wakes owners system (system.freed id turn) := by
  unfold freed
  split
  · have hReleased : Wakes owners system (({ system with data := turn.data }).releaseLocks id) :=
      wakes_releaseLocks { system with data := turn.data } hSound hOwners id
    refine hReleased.trans (wakes_foldl_remove _ ?_ ?_ turn.dropped)
    · rw [releaseLocks_locks]
      exact hSound.release id
    · intro owner hClaimed
      rw [releaseLocks_locks, Locks.claimed_release] at hClaimed
      exact hOwners owner hClaimed.2
  · exact wakes_foldl_remove { system with data := turn.data } hSound hOwners _

/-- After a turn its task comes first if it goes on, and those it starts are ready; the others
that are ready now and were not claim locks. -/
theorem applyTurn_ready (hSound : system.locks.Sound)
    (hOwners : ∀ owner, system.locks.Claimed owner → owner ∈ owners) (id : Nat)
    (turn : Turn Stage Query Data) :
    ∃ woken more, (system.applyTurn id turn).ready =
        (turn.next.stage?.toList.map fun _ => id) ++ (system.ready ++ woken ++
          List.range' system.nextId turn.spawned.length ++ more) ∧
      (woken ++ more).Nodup ∧ ∀ owner ∈ woken ++ more, owner ∈ owners := by
  obtain ⟨woken, hWoken, hNodup, hAmong⟩ := wakes_freed hSound hOwners id turn
  have hReady : (turn.spawned.foldl spawn (system.freed id turn)).ready =
      system.ready ++ woken ++ List.range' system.nextId turn.spawned.length := by
    rw [foldl_spawn_ready, hWoken, freed_nextId]
  have hLocks : (turn.spawned.foldl spawn (system.freed id turn)).locks =
      system.leftLocks id turn := by
    rw [foldl_spawn_locks, freed_locks]
  have hTurn : system.applyTurn id turn =
      (turn.spawned.foldl spawn (system.freed id turn)).conclude id turn.next := rfl
  rw [hTurn]
  generalize turn.spawned.foldl spawn (system.freed id turn) = spawned at hReady hLocks
  cases turn.next with
  | finish =>
      -- Who ends gives up its locks only now, after the tasks it starts are ready.
      obtain ⟨more, hMore, hMoreNodup, hMoreAmong⟩ : Wakes owners spawned (spawned.remove id) := by
        refine wakes_releaseLocks spawned ?_ ?_ id
        · rw [hLocks]
          unfold leftLocks
          refine Locks.Sound.foldl_release ?_ _
          split
          · exact hSound.release id
          · exact hSound
        · intro owner hClaimed
          rw [hLocks, claimed_leftLocks] at hClaimed
          exact hOwners owner hClaimed.2.2
      refine ⟨woken, more, ?_, ?_, ?_⟩
      · rw [← hReady]
        exact hMore
      · refine hNodup.append hMoreNodup ?_
        intro owner hOwner hAgain
        refine (hMoreAmong owner hAgain).2 ?_
        rw [hReady]
        exact List.mem_append_left _ (List.mem_append_right _ hOwner)
      · intro owner hOwner
        rcases List.mem_append.mp hOwner with hFirst | hSecond
        · exact (hAmong owner hFirst).1
        · exact (hMoreAmong owner hSecond).1
  | _ =>
      refine ⟨woken, [], ?_, by simpa using hNodup, ?_⟩
      · rw [List.append_nil, ← hReady]
        rfl
      · intro owner hOwner
        rw [List.append_nil] at hOwner
        exact (hAmong owner hOwner).1

theorem applyTurn_ready_length (hSound : system.locks.Sound)
    (hOwners : ∀ owner, system.locks.Claimed owner → owner ∈ owners) (id : Nat)
    (turn : Turn Stage Query Data) :
    (system.applyTurn id turn).ready.length ≤
      system.ready.length + owners.length + turn.spawned.length + 1 := by
  obtain ⟨woken, more, hReady, hNodup, hAmong⟩ := applyTurn_ready hSound hOwners id turn
  have hFew : (woken ++ more).length ≤ owners.length :=
    (hNodup.subperm fun owner hOwner => hAmong owner hOwner).length_le
  have hSelf : (turn.next.stage?.toList.map fun _ => id).length ≤ 1 := by
    cases turn.next.stage? <;> simp
  rw [hReady]
  simp only [List.length_append, List.length_range'] at hFew ⊢
  omega

end

/-! ### What is kept -/

/-- Turns keep an invariant. -/
structure KeepsTurns (program : Program Stage Query Answer Data)
    (answer : Query → m (Option Answer)) (kept : Assertion ps)
    (inv : System Stage Query Data → Prop) : Prop where
  skip : ∀ system id rest, inv system → system.ready = id :: rest → system.task? id = none →
    inv { system with ready := rest }
  poll : ∀ system id rest task, inv system → system.ready = id :: rest →
    system.task? id = some task →
      Ensures kept (({ system with ready := rest } : System Stage Query Data).poll program
        answer task) inv

/-- So does the passing of time. -/
structure Keeps (program : Program Stage Query Answer Data) (answer : Query → m (Option Answer))
    (kept : Assertion ps) (inv : System Stage Query Data → Prop) : Prop
    extends KeepsTurns program answer kept inv where
  move : ∀ system due, inv system → system.nextDue? = some due → inv (system.moveTo due)
  pass : ∀ system target, inv system → (∀ due, system.nextDue? = some due → target < due) →
    inv { system with now := max system.now target }

theorem KeepsTurns.settle {inv : System Stage Query Data → Prop}
    (hKeeps : KeepsTurns program answer kept inv) (hInv : inv system) :
    Ensures kept (system.settle program answer) inv := by
  refine Ensures.mono (runReady_ensures (motive := fun _ => inv) ?_ ?_ system.turnBound hInv) ?_
  · exact fun _ => hKeeps.skip
  · exact fun _ => hKeeps.poll
  · rintro later ⟨_, hLater, _⟩
    exact hLater

theorem Keeps.advance {inv : System Stage Query Data → Prop}
    (hKeeps : Keeps program answer kept inv) (hInv : inv system) (duration : Nat) :
    Ensures kept (System.advance program answer duration system) inv := by
  refine Ensures.mono (passTo_ensures (motive := fun _ => inv) ?_ system.turnBound hInv) ?_
  · exact fun _ earlier due hEarlier hNext _ =>
      hKeeps.settle (hKeeps.move earlier due hEarlier hNext)
  · rintro later (hLater | ⟨_, earlier, hEarlier, hNext, rfl⟩)
    · exact hLater
    · exact hKeeps.pass earlier _ hEarlier hNext

/-! ### What is left to do -/

/-- What the tasks of a system have to do at most, each according to its stage. -/
def effort (weight : Data → Stage → Nat) (system : System Stage Query Data) : Nat :=
  (system.tasks.map fun task => weight system.data task.stage).sum

/-- A task waits for a time that has come, and is ready. -/
def HasLate (system : System Stage Query Data) : Prop :=
  ∃ id ∈ system.ready, ∃ task due, system.task? id = some task ∧ task.wait = .clock due ∧
    due ≤ system.now

/-- As long as an invariant holds, each turn leaves less to do: what its task is left with and
the tasks it starts weigh less than the task did. -/
structure Winds (program : Program Stage Query Answer Data) (answer : Query → m (Option Answer))
    (kept : Assertion ps) (replies : Wait Query → Option Answer → Prop)
    (inv : System Stage Query Data → Prop) (weight : Data → Stage → Nat) : Prop
    extends Keeps program answer kept inv, Grants answer kept replies where
  found : ∀ system, inv system → ∀ task ∈ system.tasks, system.task? task.id = some task
  locks : ∀ system, inv system → system.locks.Sound
  owned : ∀ system, inv system → ∀ owner, system.locks.Claimed owner →
    ∃ task ∈ system.tasks, task.id = owner
  least : ∀ data stage, 0 < weight data stage
  most : ∀ data stage, weight data stage < 20
  resume : ∀ system ready locks id task answer?, inv system → system.task? id = some task →
    replies task.wait answer? →
    let turn := program.resume task.id system.nextId task.stage answer? system.data
    effort weight (({ system with ready := ready, locks := locks } :
      System Stage Query Data).applyTurn task.id turn) + turn.spawned.length < effort weight system

section

variable {replies : Wait Query → Option Answer → Prop}
variable {inv : System Stage Query Data → Prop} {weight : Data → Stage → Nat}

/-- So many turns are enough: a turn may wake every task that claims locks. -/
def turnsNeeded (weight : Data → Stage → Nat) (system : System Stage Query Data) : Nat :=
  effort weight system * (effort weight system + 1) + system.ready.length

theorem tasks_le_effort (hLeast : ∀ data stage, 0 < weight data stage)
    (system : System Stage Query Data) : system.tasks.length ≤ effort weight system := by
  unfold effort
  induction system.tasks with
  | nil => exact Nat.le_refl 0
  | cons task rest ih =>
      have hTask := hLeast system.data task.stage
      simp only [List.length_cons, List.map_cons, List.sum_cons]
      omega

theorem effort_le (hMost : ∀ data stage, weight data stage < 20)
    (system : System Stage Query Data) : effort weight system ≤ 19 * system.tasks.length := by
  unfold effort
  induction system.tasks with
  | nil => exact Nat.le_refl 0
  | cons task rest ih =>
      have hTask := hMost system.data task.stage
      simp only [List.length_cons, List.map_cons, List.sum_cons]
      omega

theorem turnsNeeded_le (hMost : ∀ data stage, weight data stage < 20)
    (system : System Stage Query Data) : turnsNeeded weight system ≤ system.turnBound := by
  have hEffort := effort_le hMost system
  have hSquare : effort weight system * (effort weight system + 1) ≤
      (20 * (system.tasks.length + 1)) * (20 * (system.tasks.length + 1)) :=
    Nat.mul_le_mul (by omega) (by omega)
  have hTwenty : (20 * (system.tasks.length + 1)) * (20 * (system.tasks.length + 1)) =
      400 * ((system.tasks.length + 1) * (system.tasks.length + 1)) :=
    Nat.mul_mul_mul_comm 20 _ 20 _
  unfold turnsNeeded turnBound
  dsimp only
  omega

theorem polled_claims (system : System Stage Query Data) (hSound : system.locks.Sound)
    (task : Task Stage Query) :
    (system.polled task).locks.Sound ∧
      ∀ owner, (system.polled task).locks.Claimed owner ↔ system.locks.Claimed owner := by
  unfold polled
  cases task.wait with
  | locks => exact hSound.settle task.id
  | _ => exact ⟨hSound, fun _ => Iff.rfl⟩

theorem square_room {later more total tasks : Nat} (hLess : later + more < total)
    (hTasks : tasks ≤ total) : later * (later + 1) + tasks + more + 1 ≤ total * (total + 1) := by
  obtain ⟨before, rfl⟩ := Nat.exists_eq_succ_of_ne_zero (Nat.ne_zero_of_lt hLess)
  have hSquare : later * (later + 1) ≤ before * (before + 1) :=
    Nat.mul_le_mul (by omega) (by omega)
  have hNext : (before + 1) * (before + 1 + 1) = before * (before + 1) + 2 * (before + 1) := by
    rw [Nat.mul_comm, ← Nat.add_mul]
  rw [Nat.succ_eq_add_one, hNext]
  omega

/-- A turn leaves less to do, and it does not need the turns that the others need. -/
theorem Winds.resumed (hWinds : Winds program answer kept replies inv weight)
    (hInv : inv system) {id : Nat} {rest : List Nat} {task : Task Stage Query}
    (hReady : system.ready = id :: rest)
    (hTask : system.task? id = some task) {answer? : Option Answer}
    (hReplies : replies task.wait answer?) {later : System Stage Query Data}
    (hLater : later = (({ system with ready := rest } : System Stage Query Data).polled
      task).resume program task answer?) :
    effort weight later < effort weight system ∧ later.now = system.now ∧
      turnsNeeded weight later < turnsNeeded weight system := by
  obtain ⟨hSound, hClaims⟩ := polled_claims { system with ready := rest }
    (hWinds.locks system hInv) task
  have hOwners : ∀ owner, (({ system with ready := rest } : System Stage Query Data).polled
      task).locks.Claimed owner → owner ∈ system.tasks.map Task.id := by
    intro owner hClaimed
    obtain ⟨waiting, hWaiting, hId⟩ := hWinds.owned system hInv owner ((hClaims owner).mp hClaimed)
    exact List.mem_map.mpr ⟨waiting, hWaiting, hId⟩
  obtain ⟨locks, hPolled⟩ :=
    ({ system with ready := rest } : System Stage Query Data).polled_eq task
  rw [hPolled] at hLater hSound hOwners
  have hLess := hWinds.resume system rest locks id task answer? hInv hTask hReplies
  have hWoken := applyTurn_ready_length hSound hOwners task.id
    (program.resume task.id system.nextId task.stage answer? system.data)
  have hNow := applyTurn_now ({ system with ready := rest, locks := locks }) task.id
    (program.resume task.id system.nextId task.stage answer? system.data)
  dsimp only at hLess
  change later = applyTurn _ task.id _ at hLater
  rw [← hLater] at hLess hWoken hNow
  have hRoom := square_room hLess (tasks_le_effort hWinds.least system)
  rw [List.length_map] at hWoken
  refine ⟨Nat.lt_of_le_of_lt (Nat.le_add_right _ _) hLess, hNow, ?_⟩
  unfold turnsNeeded
  rw [hReady, List.length_cons]
  change later.ready.length ≤ rest.length + system.tasks.length + _ + 1 at hWoken
  omega

/-- Tasks come to rest; a task that waits for a time that has come does not do so for long. -/
theorem Winds.runReady (hWinds : Winds program answer kept replies inv weight) (hInv : inv system)
    {bound : Nat} (hBound : turnsNeeded weight system ≤ bound) :
    Ensures kept (system.runReady program answer bound) fun later =>
      inv later ∧ later.ready = [] ∧ later.now = system.now ∧
        effort weight later ≤ effort weight system ∧
          (system.HasLate → effort weight later < effort weight system) := by
  let motive (left : Nat) (later : System Stage Query Data) : Prop :=
    inv later ∧ turnsNeeded weight later ≤ left ∧ later.now = system.now ∧
      effort weight later ≤ effort weight system ∧
        (system.HasLate → later.HasLate ∨ effort weight later < effort weight system)
  refine Ensures.mono (runReady_ensures (motive := motive) ?_ ?_ bound
    ⟨hInv, hBound, rfl, Nat.le_refl _, Or.inl⟩) ?_
  · rintro left earlier id rest ⟨hEarlier, hNeeded, hNow, hEffort, hLate⟩ hReady hTask
    refine ⟨hWinds.skip earlier id rest hEarlier hReady hTask, ?_, hNow, hEffort, ?_⟩
    · unfold turnsNeeded at hNeeded
      rw [hReady, List.length_cons] at hNeeded
      exact Nat.le_of_succ_le_succ hNeeded
    · intro hSome
      refine (hLate hSome).imp_left ?_
      rintro ⟨other, hOther, task, due, hFound, hDue⟩
      rw [hReady] at hOther
      rcases List.mem_cons.mp hOther with rfl | hRest
      · cases hTask.symm.trans hFound
      · exact ⟨other, hRest, task, due, hFound, hDue⟩
  · rintro left earlier id rest task ⟨hEarlier, hNeeded, hNow, hEffort, hLate⟩ hReady hTask
    refine ((hWinds.poll earlier id rest task hEarlier hReady hTask).and
      (poll_ensures hWinds.toGrants _ task)).mono ?_
    rintro later ⟨hLater, ⟨hSame, hEarly⟩ | ⟨answer?, hReplies, hResumed⟩⟩
    · obtain ⟨locks, hPolled⟩ :=
        ({ earlier with ready := rest } : System Stage Query Data).polled_eq task
      rw [hPolled] at hSame
      subst hSame
      refine ⟨hLater, ?_, hNow, hEffort, ?_⟩
      · unfold turnsNeeded at hNeeded
        rw [hReady, List.length_cons] at hNeeded
        exact Nat.le_of_succ_le_succ hNeeded
      · intro hSome
        refine (hLate hSome).imp_left ?_
        rintro ⟨other, hOther, waiting, due, hFound, hWait, hDue⟩
        rw [hReady] at hOther
        rcases List.mem_cons.mp hOther with rfl | hRest
        · cases hTask.symm.trans hFound
          exact absurd hDue (Nat.not_le_of_lt (hEarly due hWait))
        · exact ⟨other, hRest, waiting, due, hFound, hWait, hDue⟩
    · obtain ⟨hLess, hSameNow, hFewer⟩ := hWinds.resumed hEarlier hReady hTask hReplies hResumed
      refine ⟨hLater, by omega, hSameNow.trans hNow, by omega, fun _ => Or.inr (by omega)⟩
  · rintro later ⟨left, ⟨hLater, hNeeded, hNow, hEffort, hLate⟩, hEnd⟩
    have hReady : later.ready = [] := by
      rcases hEnd with rfl | hReady
      · have hNone : later.ready.length = 0 := by
          unfold turnsNeeded at hNeeded
          omega
        exact List.eq_nil_of_length_eq_zero hNone
      · exact hReady
    refine ⟨hLater, hReady, hNow, hEffort, ?_⟩
    intro hSome
    refine (hLate hSome).resolve_left ?_
    rintro ⟨id, hId, _⟩
    rw [hReady] at hId
    cases hId

theorem Winds.settle (hWinds : Winds program answer kept replies inv weight) (hInv : inv system) :
    Ensures kept (system.settle program answer) fun later =>
      inv later ∧ later.ready = [] ∧ later.now = system.now ∧
        effort weight later ≤ effort weight system ∧
          (system.HasLate → effort weight later < effort weight system) :=
  hWinds.runReady hInv (turnsNeeded_le hWinds.most system)

/-! ### Time that passes -/

theorem foldl_wake_append (ids : List Nat) (system : System Stage Query Data) :
    ∃ woken, ids.foldl wake system = { system with ready := system.ready ++ woken } ∧
      ∀ id ∈ ids, id ∈ system.ready ++ woken := by
  obtain ⟨ready, hWake⟩ := foldl_wake_eq ids system
  obtain ⟨woken, hReady, _⟩ := wakes_foldl_wake system fun _ hId => hId
  refine ⟨woken, ?_, ?_⟩
  · rw [← hReady, hWake]
  · intro id hId
    rw [← hReady]
    exact mem_foldl_wake (Or.inl hId)

theorem wakeAskers_eq (system : System Stage Query Data) :
    ∃ woken, system.wakeAskers = { system with ready := system.ready ++ woken } := by
  unfold wakeAskers
  dsimp only
  rw [← List.foldl_map (f := Task.id) (g := wake)]
  obtain ⟨woken, hWake, _⟩ := foldl_wake_append _ system
  exact ⟨woken, hWake⟩

theorem moveTo_eq (system : System Stage Query Data) (time : Nat) :
    ∃ woken, system.moveTo time =
        { system with now := max system.now time, ready := system.ready ++ woken } ∧
      ∀ task ∈ system.tasks, task.wait = .clock time → task.id ∈ system.ready ++ woken := by
  unfold moveTo
  dsimp only
  rw [← List.foldl_map (f := Task.id) (g := wake)]
  obtain ⟨woken, hWake, hWoken⟩ := foldl_wake_append
    (((system.tasks.filter fun task => due? task == some time).mergeSort
      (fun task other => task.since ≤ other.since)).map Task.id)
    { system with now := max system.now time }
  refine ⟨woken, hWake, ?_⟩
  intro task hTask hWait
  refine hWoken task.id (List.mem_map_of_mem ?_)
  rw [List.mem_mergeSort, List.mem_filter]
  exact ⟨hTask, by simp [due?, hWait]⟩

theorem mem_due_iff (system : System Stage Query Data) (due : Nat) :
    due ∈ system.tasks.filterMap due? ↔ ∃ task ∈ system.tasks, task.wait = .clock due := by
  rw [List.mem_filterMap]
  refine exists_congr fun task => and_congr_right fun _ => ?_
  unfold due?
  cases task.wait <;> simp

theorem nextDue?_eq_some_iff (system : System Stage Query Data) (due : Nat) :
    system.nextDue? = some due ↔ (∃ task ∈ system.tasks, task.wait = .clock due) ∧
      ∀ task ∈ system.tasks, ∀ other, task.wait = .clock other → due ≤ other := by
  unfold nextDue?
  rw [List.min?_eq_some_iff, mem_due_iff]
  refine and_congr_right fun _ => ?_
  constructor
  · exact fun hLeast task hTask other hWait =>
      hLeast other ((system.mem_due_iff other).mpr ⟨task, hTask, hWait⟩)
  · intro hLeast other hOther
    obtain ⟨task, hTask, hWait⟩ := (system.mem_due_iff other).mp hOther
    exact hLeast task hTask other hWait

theorem lt_of_nextDue? {target : Nat} (hNext : ∀ due, system.nextDue? = some due → target < due)
    {task : Task Stage Query} (hTask : task ∈ system.tasks) {due : Nat}
    (hWait : task.wait = .clock due) : target < due := by
  obtain ⟨next, hSome⟩ := Option.isSome_iff_exists.mp
    (List.isSome_min?_of_mem ((system.mem_due_iff due).mpr ⟨task, hTask, hWait⟩))
  have hLeast := ((system.nextDue?_eq_some_iff next).mp hSome).2 task hTask due hWait
  exact Nat.lt_of_lt_of_le (hNext next hSome) hLeast

theorem effort_lt_turnBound (hMost : ∀ data stage, weight data stage < 20)
    (system : System Stage Query Data) : effort weight system < system.turnBound := by
  have hEffort := effort_le hMost system
  have hSquare := Nat.le_mul_self (system.tasks.length + 1)
  unfold turnBound
  dsimp only
  omega

/-- Time comes as far as it was told to, with no task left that sleeps past its time. -/
theorem Winds.advance (hWinds : Winds program answer kept replies inv weight) (hInv : inv system)
    (duration : Nat) :
    Ensures kept (System.advance program answer duration system) fun later =>
      inv later ∧ later.now = system.now + duration ∧
        (∀ task ∈ later.tasks, ∀ due, task.wait = .clock due → later.now < due) ∧
          (system.ready = [] → later.ready = []) := by
  let motive (left : Nat) (later : System Stage Query Data) : Prop :=
    inv later ∧ effort weight later < left ∧ later.now ≤ system.now + duration ∧
      (system.ready = [] → later.ready = [])
  refine Ensures.mono (passTo_ensures (motive := motive) ?_ system.turnBound
    ⟨hInv, effort_lt_turnBound hWinds.most system, Nat.le_add_right _ _, id⟩) ?_
  · rintro left earlier due ⟨hEarlier, hEffort, hNow, _⟩ hNext hDue
    have hMoved := hWinds.move earlier due hEarlier hNext
    obtain ⟨woken, hMove, hWoken⟩ := moveTo_eq earlier due
    -- The task that waits for this very time has its turn.
    have hLate : (earlier.moveTo due).HasLate := by
      obtain ⟨⟨task, hTask, hWait⟩, _⟩ := (earlier.nextDue?_eq_some_iff due).mp hNext
      rw [hMove]
      exact ⟨task.id, hWoken task hTask hWait, task, due,
        hWinds.found earlier hEarlier task hTask, hWait, Nat.le_max_right _ _⟩
    have hSame : effort weight (earlier.moveTo due) = effort weight earlier := by
      rw [hMove]
      rfl
    have hMovedNow : (earlier.moveTo due).now = max earlier.now due := by
      rw [hMove]
    refine (hWinds.settle hMoved).mono ?_
    rintro later ⟨hLater, hReady, hLaterNow, _, hLess⟩
    have hFewer := hLess hLate
    exact ⟨hLater, by omega, by omega, fun _ => hReady⟩
  · rintro later (⟨_, hNone, _⟩ | ⟨left, earlier, ⟨hEarlier, _, hNow, hReady⟩, hNext, rfl⟩)
    · cases hNone
    · have hTarget : max earlier.now (system.now + duration) = system.now + duration :=
        Nat.max_eq_right hNow
      refine ⟨hWinds.pass earlier _ hEarlier hNext, hTarget, ?_, hReady⟩
      intro task hTask due hWait
      dsimp only
      rw [hTarget]
      exact lt_of_nextDue? hNext hTask hWait

/-- Time passes only while no task is ready, if none was at first. -/
theorem Winds.advance_along (hWinds : Winds program answer kept replies inv weight)
    {path : System Stage Query Data → Prop} (hTurns : KeepsTurns program answer kept path)
    (hMove : ∀ system due, inv system → system.ready = [] → system.nextDue? = some due →
      path system → path (system.moveTo due))
    (hPass : ∀ system target, inv system → system.ready = [] →
      (∀ due, system.nextDue? = some due → target < due) → path system →
        path { system with now := max system.now target })
    (hInv : inv system) (hReady : system.ready = []) (hPath : path system) (duration : Nat) :
    Ensures kept (System.advance program answer duration system) path := by
  let motive (_ : Nat) (later : System Stage Query Data) : Prop :=
    inv later ∧ later.ready = [] ∧ path later
  refine Ensures.mono (passTo_ensures (motive := motive) ?_ system.turnBound
    ⟨hInv, hReady, hPath⟩) ?_
  · rintro _ earlier due ⟨hEarlier, hNone, hSoFar⟩ hNext _
    have hMoved := hWinds.move earlier due hEarlier hNext
    have hOnward := hMove earlier due hEarlier hNone hNext hSoFar
    refine ((hWinds.settle hMoved).and (hTurns.settle hOnward)).mono ?_
    exact fun later hLater => ⟨hLater.1.1, hLater.1.2.1, hLater.2⟩
  · rintro later (⟨_, _, hLater⟩ | ⟨_, earlier, ⟨hEarlier, hNone, hSoFar⟩, hNext, rfl⟩)
    · exact hLater
    · exact hPass earlier _ hEarlier hNone hNext hSoFar

end

end System

end BuildWatch.Tasks
