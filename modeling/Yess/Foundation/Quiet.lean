import Yess.Foundation.Program

namespace Yess
namespace Foundation
namespace Prog

/-!
# Programs that leave the state alone

A quiet program may look at the state, and may throw or abort, but where it comes back
the state is what it was.  The rules follow the constructs of a program.

The module names nothing of the modelled program.
-/

variable {ε ε' σ α β : Type}

/-- Wherever the program leaves a state, it is the one it was started in. -/
def Quiet (p : Prog ε σ α) : Prop := ∀ s s', (p s).state = some s' → s' = s

theorem quiet_pure (a : α) : Quiet (pure a : Prog ε σ α) :=
  fun _ _ hState => (Option.some.inj hState).symm

theorem quiet_throw (e : ε) : Quiet (throw e : Prog ε σ α) :=
  fun _ _ hState => (Option.some.inj hState).symm

theorem Stateless.quiet {p : Prog ε σ α} {q : Prog ε Unit α} (h : Stateless p q) : Quiet p := by
  intro s s' hState
  rw [h s] at hState
  cases hOutcome : q () with
  | returned a u =>
      rw [hOutcome] at hState
      exact (Option.some.inj hState).symm
  | threw e u =>
      rw [hOutcome] at hState
      exact (Option.some.inj hState).symm
  | aborted => simp [hOutcome] at hState

theorem Quiet.bind {p : Prog ε σ α} {k : α → Prog ε σ β} (hFirst : Quiet p)
    (hSecond : ∀ a, Quiet (k a)) : Quiet (p >>= k) := by
  intro s s'' hState
  rw [bind_apply] at hState
  have hFirst' := hFirst s
  cases hOutcome : p s with
  | returned a s' =>
      rw [hOutcome] at hState hFirst'
      obtain rfl := hFirst' s' rfl
      exact hSecond a s' s'' hState
  | threw e s' =>
      rw [hOutcome] at hState hFirst'
      exact hFirst' s'' hState
  | aborted => simp [hOutcome] at hState

theorem Quiet.tryCatch {p : Prog ε σ α} {handler : ε → Prog ε σ α} (hBlock : Quiet p)
    (hHandler : ∀ e, Quiet (handler e)) : Quiet (tryCatch p handler) := by
  intro s s'' hState
  have hBlock' := hBlock s
  cases hOutcome : p s with
  | returned a s' =>
      rw [tryCatch_of_returned hOutcome] at hState
      rw [hOutcome] at hBlock'
      exact hBlock' s'' hState
  | threw e s' =>
      rw [tryCatch_of_threw hOutcome] at hState
      rw [hOutcome] at hBlock'
      obtain rfl := hBlock' s' rfl
      exact hHandler e s' s'' hState
  | aborted =>
      rw [tryCatch_of_aborted hOutcome] at hState
      simp at hState

theorem Quiet.mapError {p : Prog ε σ α} (f : ε → ε') (hQuiet : Quiet p) :
    Quiet (mapError f p) := by
  intro s s' hState
  have hQuiet' := hQuiet s
  cases hOutcome : p s with
  | returned a s₁ =>
      rw [mapError_of_returned hOutcome] at hState
      rw [hOutcome] at hQuiet'
      exact hQuiet' s' hState
  | threw e s₁ =>
      rw [mapError_of_threw hOutcome] at hState
      rw [hOutcome] at hQuiet'
      exact hQuiet' s' hState
  | aborted =>
      rw [mapError_of_aborted hOutcome] at hState
      simp at hState

theorem quiet_mapM {f : α → Prog ε σ β} (hStep : ∀ a, Quiet (f a)) (items : List α) :
    Quiet (items.mapM f) := by
  induction items with
  | nil =>
      rw [List.mapM_nil]
      exact quiet_pure []
  | cons item items ih =>
      rw [List.mapM_cons]
      exact (hStep item).bind fun b => ih.bind fun bs => quiet_pure (b :: bs)

/-- A program that does not return has no value to go on with. -/
theorem value_bind_of_none {p : Prog ε σ α} {k : α → Prog ε σ β} {s : σ}
    (hNone : (p s).value = none) : ((p >>= k) s).value = none := by
  rw [bind_apply]
  cases hOutcome : p s with
  | returned a s' => simp [hOutcome] at hNone
  | threw e s' => rfl
  | aborted => rfl

/-! ## Programs that do not look at the state -/

theorem stateless_ofExcept (result : Except ε α) :
    Stateless (ofExcept result : Prog ε σ α) (ofExcept result) := by
  cases result with
  | ok a => exact stateless_pure a
  | error e => exact stateless_throw e

theorem Stateless.tryCatch {p : Prog ε σ α} {q : Prog ε Unit α} {handler : ε → Prog ε σ α}
    {handler' : ε → Prog ε Unit α} (hBlock : Stateless p q)
    (hHandler : ∀ e, Stateless (handler e) (handler' e)) :
    Stateless (tryCatch p handler) (tryCatch q handler') := by
  intro s
  have hBlock' := hBlock s
  cases hOutcome : q () with
  | returned a u =>
      rw [hOutcome] at hBlock'
      rw [tryCatch_of_returned hBlock', tryCatch_of_returned hOutcome]
      rfl
  | threw e u =>
      rw [hOutcome] at hBlock'
      rw [tryCatch_of_threw hBlock', tryCatch_of_threw hOutcome]
      exact hHandler e s
  | aborted =>
      rw [hOutcome] at hBlock'
      rw [tryCatch_of_aborted hBlock', tryCatch_of_aborted hOutcome]
      rfl

theorem Stateless.mapError {p : Prog ε σ α} {q : Prog ε Unit α} (f : ε → ε')
    (h : Stateless p q) : Stateless (mapError f p) (mapError f q) := by
  intro s
  have h' := h s
  cases hOutcome : q () with
  | returned a u =>
      rw [hOutcome] at h'
      rw [mapError_of_returned h', mapError_of_returned hOutcome]
      rfl
  | threw e u =>
      rw [hOutcome] at h'
      rw [mapError_of_threw h', mapError_of_threw hOutcome]
      rfl
  | aborted =>
      rw [hOutcome] at h'
      rw [mapError_of_aborted h', mapError_of_aborted hOutcome]
      rfl

/-- What comes after such a program starts on the state that it started on; where there is
nothing to go on with, the state stays. -/
theorem Stateless.bind_cases {p : Prog ε σ α} {q : Prog ε Unit α} (h : Stateless p q)
    (k : α → Prog ε σ β) (s : σ) :
    (∃ a, q () = .returned a () ∧ (p >>= k) s = k a s) ∨
      (q ()).value = none ∧ ∀ s', ((p >>= k) s).state = some s' → s' = s := by
  rcases h.cases s with ⟨a, hValue, hReturned⟩ | ⟨hNone, ⟨e, hThrew⟩ | hAborted⟩
  · obtain ⟨u, hReturned'⟩ := Outcome.value_eq_some_iff.mp hValue
    exact Or.inl ⟨a, hReturned', bind_of_returned hReturned⟩
  · refine Or.inr ⟨hNone, fun s' hState => ?_⟩
    rw [bind_of_threw hThrew] at hState
    exact (Option.some.inj hState).symm
  · refine Or.inr ⟨hNone, fun s' hState => ?_⟩
    rw [bind_of_aborted hAborted] at hState
    simp at hState

end Prog
end Foundation
end Yess
