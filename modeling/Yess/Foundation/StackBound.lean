import Yess.Foundation.ValueStack

namespace Yess
namespace Foundation
namespace ValueStack

/-!
# Programs that stay within the stack

A program that pushes only through `push` never leaves more values on the stack than
the capacity, however it ends and whatever it pops.  The rules below carry this along
the constructs of a program.

The module names nothing of the modelled program.
-/

variable {ε σ ν α β : Type} {capacity : Nat}

/-- Started within the capacity, the program leaves the stack within it. -/
def KeepsBound (capacity : Nat) (p : Prog ε (Machine σ ν) α) : Prop :=
  ∀ m m', m.stack.length ≤ capacity → (p m).state = some m' → m'.stack.length ≤ capacity

theorem keepsBound_of_state {p : Prog ε (Machine σ ν) α}
    (hSame : ∀ m m', (p m).state = some m' → m'.stack = m.stack) : KeepsBound capacity p := by
  intro m m' hBound hState
  rw [hSame m m' hState]
  exact hBound

theorem keepsBound_pure (a : α) :
    KeepsBound capacity (pure a : Prog ε (Machine σ ν) α) := by
  apply keepsBound_of_state
  intro m m' hState
  rw [← Option.some.inj hState]

theorem keepsBound_throw (error : ε) :
    KeepsBound capacity (Prog.throw error : Prog ε (Machine σ ν) α) := by
  apply keepsBound_of_state
  intro m m' hState
  rw [← Option.some.inj hState]

theorem keepsBound_ofExcept (result : Except ε α) :
    KeepsBound capacity (Prog.ofExcept result : Prog ε (Machine σ ν) α) := by
  cases result with
  | ok a => exact keepsBound_pure a
  | error error => exact keepsBound_throw error

theorem keepsBound_get : KeepsBound capacity (Prog.get : Prog ε (Machine σ ν) _) := by
  apply keepsBound_of_state
  intro m m' hState
  rw [← Option.some.inj hState]

theorem keepsBound_push (v : ν) :
    KeepsBound capacity (push capacity v : Prog ε (Machine σ ν) Unit) := by
  intro m m' hBound hState
  unfold push at hState
  by_cases hRoom : m.stack.length < capacity
  · rw [if_pos hRoom] at hState
    rw [← Option.some.inj hState]
    show m.stack.length + 1 ≤ capacity
    omega
  · rw [if_neg hRoom] at hState
    simp at hState

theorem keepsBound_pop : KeepsBound capacity (pop : Prog ε (Machine σ ν) Unit) := by
  intro m m' hBound hState
  obtain ⟨heap, stack⟩ := m
  cases stack with
  | nil => simp [pop] at hState
  | cons v rest =>
      rw [← Option.some.inj hState]
      show rest.length ≤ capacity
      have hLength : rest.length + 1 ≤ capacity := hBound
      omega

theorem KeepsBound.bind {p : Prog ε (Machine σ ν) α} {k : α → Prog ε (Machine σ ν) β}
    (hFirst : KeepsBound capacity p) (hSecond : ∀ a, KeepsBound capacity (k a)) :
    KeepsBound capacity (p >>= k) := by
  intro m m'' hBound hState
  rw [Prog.bind_apply] at hState
  have hState₁ := hFirst m
  cases hOutcome : p m with
  | returned a m' =>
      rw [hOutcome] at hState hState₁
      exact hSecond a m' m'' (hState₁ m' hBound rfl) hState
  | threw error m' =>
      rw [hOutcome] at hState hState₁
      exact hState₁ m'' hBound hState
  | aborted => simp [hOutcome] at hState

theorem keepsBound_foldlM {γ : Type} {step : α → γ → Prog ε (Machine σ ν) α}
    (hStep : ∀ a c, KeepsBound capacity (step a c)) (items : List γ) (a : α) :
    KeepsBound capacity (items.foldlM step a) := by
  induction items generalizing a with
  | nil => exact keepsBound_pure a
  | cons item items ih =>
      rw [List.foldlM_cons]
      exact (hStep a item).bind fun a' => ih a'

/-- An operation on the heap leaves the stack alone. -/
theorem keepsBound_zoom (p : Prog ε σ α) :
    KeepsBound capacity
      (Prog.zoom Machine.heap (fun heap (m : Machine σ ν) => { m with heap := heap }) p) := by
  apply keepsBound_of_state
  intro m m' hState
  rw [Prog.zoom] at hState
  cases hOutcome : p m.heap with
  | returned a heap => rw [hOutcome] at hState; rw [← Option.some.inj hState]
  | threw error heap => rw [hOutcome] at hState; rw [← Option.some.inj hState]
  | aborted => simp [hOutcome] at hState

end ValueStack
end Foundation
end Yess
