import Mathlib.Tactic.Basic
import BuildWatch.Zlib.Inflate

/-!
What the steps of the inflater do, one equation for each.
-/

namespace BuildWatch.Zlib

/-- What a step does on an input, with some room, from a state. -/
def perform {α : Type} (step : Step α) (input : ByteArray) (room : Nat) (state : State) :
    EStateM.Result Halt State α :=
  (step.run { input := input, room := room }).run state

section

variable {α β : Type} (input : ByteArray) (room : Nat) (state : State)

@[simp] theorem perform_pure (value : α) :
    perform (pure value) input room state = .ok value state := rfl

@[simp] theorem perform_throw (halt : Halt) :
    perform (throw halt : Step α) input room state = .error halt state := rfl

@[simp] theorem perform_read :
    perform read input room state = .ok { input := input, room := room } state := rfl

@[simp] theorem perform_get : perform get input room state = .ok state state := rfl

@[simp] theorem perform_modify (change : State → State) :
    perform (modify change) input room state = .ok () (change state) := rfl

@[simp] theorem perform_modifyGet (change : State → α × State) :
    perform (modifyGet change) input room state = .ok (change state).1 (change state).2 := rfl

@[simp] theorem perform_ite (condition : Prop) [Decidable condition] (first second : Step α) :
    perform (if condition then first else second) input room state =
      if condition then perform first input room state else perform second input room state := by
  split <;> rfl

theorem perform_bind (first : Step α) (second : α → Step β) :
    perform (first >>= second) input room state =
      match perform first input room state with
      | .ok value next => perform (second value) input room next
      | .error halt next => .error halt next := by
  unfold perform
  rw [ReaderT.run_bind, EStateM.run_bind]
  cases (first.run { input := input, room := room }).run state <;> rfl

variable {input room state}

theorem perform_bind_ok {first : Step α} {second : α → Step β} {value : α} {next : State}
    (hFirst : perform first input room state = .ok value next) :
    perform (first >>= second) input room state = perform (second value) input room next := by
  rw [perform_bind, hFirst]

theorem perform_bind_error {first : Step α} {second : α → Step β} {halt : Halt} {next : State}
    (hFirst : perform first input room state = .error halt next) :
    perform (first >>= second) input room state = .error halt next := by
  rw [perform_bind, hFirst]

theorem perform_bind_eq_ok {first : Step α} {second : α → Step β} {value : β} {next : State}
    (hBoth : perform (first >>= second) input room state = .ok value next) :
    ∃ mid between, perform first input room state = .ok mid between ∧
      perform (second mid) input room between = .ok value next := by
  rw [perform_bind] at hBoth
  cases hFirst : perform first input room state with
  | ok mid between =>
      rw [hFirst] at hBoth
      exact ⟨mid, between, rfl, hBoth⟩
  | error halt between =>
      rw [hFirst] at hBoth
      exact absurd hBoth (by simp)

end

/-! ### Primitive steps -/

variable (input : ByteArray) (room : Nat) (state : State)

theorem perform_bit : perform bit input room state =
    if state.position / 8 < input.size then
      .ok ((input.get! (state.position / 8)).toNat >>> (state.position % 8) % 2)
        { state with position := state.position + 1 }
    else .error .cutShort { state with position := state.position + 1 } := by
  simp [bit, perform_bind]

theorem perform_align : perform align input room state =
    .ok () { state with position := (state.position + 7) / 8 * 8 } := rfl

theorem perform_emit (byte : UInt8) : perform (emit byte) input room state =
    if state.output.size < room then .ok () { state with output := state.output.push byte }
    else .error .full state := by
  simp [emit, perform_bind]

theorem perform_emitMatch (distance count : Nat) :
    perform (emitMatch distance count) input room state =
      if state.output.size + count ≤ room then
        .ok () { state with output := copyBack state.output distance count }
      else .error .full state := by
  simp [emitMatch, perform_bind]

theorem perform_copyStored (count : Nat) :
    perform (copyStored (count + 1)) input room state =
      if room ≤ state.output.size then .error .full state
      else if state.position / 8 < input.size then
        perform (copyStored count) input room
          { position := state.position + 8
            output := state.output.push (input.get! (state.position / 8)) }
      else .error .cutShort { state with position := state.position + 8 } := by
  by_cases hFull : room ≤ state.output.size
  · simp [copyStored, perform_bind, hFull]
  · simp [copyStored, perform_bind, perform_emit, hFull, Nat.lt_of_not_le hFull]

theorem inflate_eq : inflate input room =
    match perform stream input room {} with
    | .ok _ state => { bytes := state.output, halt := none }
    | .error halt state => { bytes := state.output, halt := some halt } := rfl

end BuildWatch.Zlib
