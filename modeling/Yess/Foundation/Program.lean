import Mathlib.Tactic.Basic

namespace Yess
namespace Foundation

/-!
# Programs over a state that may throw or abort

A C++ member function reads and changes the object it is called on, returns a
value or throws, and what it changed before the throw stays changed.  A third
way to end is the end of the whole process.  `Prog ε σ α` is the type of such
functions, with the state explicit: nothing is rolled back by a throw, and an
aborted program leaves no state behind.

The module names nothing of the modelled program.
-/

/-- How a program over `σ` ends: with a value, with an exception, or with the
end of the process. -/
inductive Outcome (ε σ α : Type) : Type where
  | returned (value : α) (state : σ)
  | threw (error : ε) (state : σ)
  | aborted
  deriving DecidableEq

namespace Outcome

variable {ε σ τ α : Type}

/-- What a caller sees of the outcome, the state aside; `none` when there is no
caller left. -/
def result : Outcome ε σ α → Option (Except ε α)
  | returned a _ => some (.ok a)
  | threw e _ => some (.error e)
  | aborted => none

/-- The value returned, if one is. -/
def value : Outcome ε σ α → Option α
  | returned a _ => some a
  | threw _ _ => none
  | aborted => none

/-- The state left behind by a call that came back to its caller. -/
def state : Outcome ε σ α → Option σ
  | returned _ s => some s
  | threw _ s => some s
  | aborted => none

/-- The outcome seen from a larger state. -/
def mapState (f : σ → τ) : Outcome ε σ α → Outcome ε τ α
  | returned a s => returned a (f s)
  | threw e s => threw e (f s)
  | aborted => aborted

@[simp] theorem result_returned (a : α) (s : σ) :
    (returned a s : Outcome ε σ α).result = some (.ok a) := rfl

@[simp] theorem result_threw (e : ε) (s : σ) :
    (threw e s : Outcome ε σ α).result = some (.error e) := rfl

@[simp] theorem result_aborted : (aborted : Outcome ε σ α).result = none := rfl

@[simp] theorem value_returned (a : α) (s : σ) :
    (returned a s : Outcome ε σ α).value = some a := rfl

@[simp] theorem value_threw (e : ε) (s : σ) :
    (threw e s : Outcome ε σ α).value = none := rfl

@[simp] theorem value_aborted : (aborted : Outcome ε σ α).value = none := rfl

@[simp] theorem state_returned (a : α) (s : σ) :
    (returned a s : Outcome ε σ α).state = some s := rfl

@[simp] theorem state_threw (e : ε) (s : σ) :
    (threw e s : Outcome ε σ α).state = some s := rfl

@[simp] theorem state_aborted : (aborted : Outcome ε σ α).state = none := rfl

@[simp] theorem mapState_returned (f : σ → τ) (a : α) (s : σ) :
    (returned a s : Outcome ε σ α).mapState f = returned a (f s) := rfl

@[simp] theorem mapState_threw (f : σ → τ) (e : ε) (s : σ) :
    (threw e s : Outcome ε σ α).mapState f = threw e (f s) := rfl

@[simp] theorem mapState_aborted (f : σ → τ) :
    (aborted : Outcome ε σ α).mapState f = aborted := rfl

@[simp] theorem result_mapState (f : σ → τ) (o : Outcome ε σ α) :
    (o.mapState f).result = o.result := by
  cases o <;> rfl

theorem state_mapState (f : σ → τ) (o : Outcome ε σ α) :
    (o.mapState f).state = o.state.map f := by
  cases o <;> rfl

theorem value_eq_of_result_eq {o : Outcome ε σ α} {o' : Outcome ε τ α}
    (h : o.result = o'.result) : o.value = o'.value := by
  cases o <;> cases o' <;> simp_all [result]

/-- The outcome is a return or an exception of the given kind. -/
def EndsWell (kind : ε → Prop) : Outcome ε σ α → Prop
  | returned _ _ => True
  | threw e _ => kind e
  | aborted => False

@[simp] theorem endsWell_mapState (kind : ε → Prop) (f : σ → τ) (o : Outcome ε σ α) :
    (o.mapState f).EndsWell kind ↔ o.EndsWell kind := by
  cases o <;> exact Iff.rfl

/-- Without exceptions of the kind only a return is left. -/
theorem endsWell_false_iff {o : Outcome ε σ α} :
    (o.EndsWell fun _ => False) ↔ ∃ a s, o = returned a s := by
  cases o <;> simp [EndsWell]

theorem value_eq_some_iff {o : Outcome ε σ α} {a : α} :
    o.value = some a ↔ ∃ s, o = returned a s := by
  cases o <;> simp

end Outcome

/-- A program over the state `σ` with exceptions `ε`. -/
def Prog (ε σ α : Type) : Type := σ → Outcome ε σ α

namespace Prog

variable {ε σ τ α β : Type}

instance : Monad (Prog ε σ) where
  pure a := fun s => .returned a s
  bind p k := fun s =>
    match p s with
    | .returned a s' => k a s'
    | .threw e s' => .threw e s'
    | .aborted => .aborted

/-- Throw, leaving the state as it is. -/
def throw (e : ε) : Prog ε σ α := fun s => .threw e s

/-- End the process. -/
def abort : Prog ε σ α := fun _ => .aborted

/-- The current state. -/
def get : Prog ε σ σ := fun s => .returned s s

/-- Replace the state. -/
def modify (f : σ → σ) : Prog ε σ Unit := fun s => .returned () (f s)

/-- Return or throw what a function without state came to. -/
def ofExcept : Except ε α → Prog ε σ α
  | .ok a => pure a
  | .error e => throw e

/-- Run `handler` from the state the exception left behind. -/
def tryCatch (p : Prog ε σ α) (handler : ε → Prog ε σ α) : Prog ε σ α := fun s =>
  match p s with
  | .returned a s' => .returned a s'
  | .threw e s' => handler e s'
  | .aborted => .aborted

/-- The program with its exceptions seen as those of a larger type. -/
def mapError {ε' : Type} (f : ε → ε') (p : Prog ε σ α) : Prog ε' σ α := fun s =>
  match p s with
  | .returned a s' => .returned a s'
  | .threw e s' => .threw (f e) s'
  | .aborted => .aborted

/-- One program after the other, as long as they return. -/
def sequence : List (Prog ε σ Unit) → Prog ε σ Unit
  | [] => pure ()
  | p :: rest => do p; sequence rest

/-- Run a program on a part of the state, given by a reader and a writer. -/
def zoom (read : σ → τ) (write : τ → σ → σ) (p : Prog ε τ α) : Prog ε σ α := fun s =>
  (p (read s)).mapState fun t => write t s

@[simp] theorem pure_apply (a : α) (s : σ) :
    (pure a : Prog ε σ α) s = .returned a s := rfl

theorem bind_apply (p : Prog ε σ α) (k : α → Prog ε σ β) (s : σ) :
    (p >>= k) s = match p s with
      | .returned a s' => k a s'
      | .threw e s' => .threw e s'
      | .aborted => .aborted := rfl

@[simp] theorem throw_apply (e : ε) (s : σ) :
    (throw e : Prog ε σ α) s = .threw e s := rfl

@[simp] theorem abort_apply (s : σ) : (abort : Prog ε σ α) s = .aborted := rfl

@[simp] theorem get_apply (s : σ) : (get : Prog ε σ σ) s = .returned s s := rfl

@[simp] theorem modify_apply (f : σ → σ) (s : σ) :
    (modify f : Prog ε σ Unit) s = .returned () (f s) := rfl

theorem bind_of_returned {p : Prog ε σ α} {k : α → Prog ε σ β} {s s' : σ} {a : α}
    (hp : p s = .returned a s') : (p >>= k) s = k a s' := by
  rw [bind_apply, hp]

theorem bind_of_threw {p : Prog ε σ α} {k : α → Prog ε σ β} {s s' : σ} {e : ε}
    (hp : p s = .threw e s') : (p >>= k) s = .threw e s' := by
  rw [bind_apply, hp]

theorem bind_of_aborted {p : Prog ε σ α} {k : α → Prog ε σ β} {s : σ}
    (hp : p s = .aborted) : (p >>= k) s = .aborted := by
  rw [bind_apply, hp]

theorem tryCatch_of_returned {p : Prog ε σ α} {handler : ε → Prog ε σ α}
    {s s' : σ} {a : α} (hp : p s = .returned a s') :
    tryCatch p handler s = .returned a s' := by
  simp only [tryCatch, hp]

theorem tryCatch_of_threw {p : Prog ε σ α} {handler : ε → Prog ε σ α}
    {s s' : σ} {e : ε} (hp : p s = .threw e s') :
    tryCatch p handler s = handler e s' := by
  simp only [tryCatch, hp]

theorem tryCatch_of_aborted {p : Prog ε σ α} {handler : ε → Prog ε σ α}
    {s : σ} (hp : p s = .aborted) : tryCatch p handler s = .aborted := by
  simp only [tryCatch, hp]

theorem mapError_of_returned {ε' : Type} {f : ε → ε'} {p : Prog ε σ α} {s s' : σ} {a : α}
    (hp : p s = .returned a s') : mapError f p s = .returned a s' := by
  simp only [mapError, hp]

theorem mapError_of_threw {ε' : Type} {f : ε → ε'} {p : Prog ε σ α} {s s' : σ} {e : ε}
    (hp : p s = .threw e s') : mapError f p s = .threw (f e) s' := by
  simp only [mapError, hp]

theorem mapError_of_aborted {ε' : Type} {f : ε → ε'} {p : Prog ε σ α} {s : σ}
    (hp : p s = .aborted) : mapError f p s = .aborted := by
  simp only [mapError, hp]

/-- A sequence returns exactly when both parts do. -/
theorem bind_eq_returned {p : Prog ε σ α} {k : α → Prog ε σ β} {s s'' : σ} {b : β} :
    (p >>= k) s = .returned b s'' ↔
      ∃ a s', p s = .returned a s' ∧ k a s' = .returned b s'' := by
  rw [bind_apply]
  constructor
  · intro h
    cases hp : p s with
    | returned a s' => exact ⟨a, s', rfl, by simpa only [hp] using h⟩
    | threw e s' => simp only [hp, reduceCtorEq] at h
    | aborted => simp only [hp, reduceCtorEq] at h
  · rintro ⟨a, s', hp, hk⟩
    simpa only [hp] using hk

/-- A sequence throws when its first part does, or when the second part does
after the first returned. -/
theorem bind_eq_threw {p : Prog ε σ α} {k : α → Prog ε σ β} {s s'' : σ} {e : ε} :
    (p >>= k) s = .threw e s'' ↔
      p s = .threw e s'' ∨ ∃ a s', p s = .returned a s' ∧ k a s' = .threw e s'' := by
  rw [bind_apply]
  constructor
  · intro h
    cases hp : p s with
    | returned a s' => exact Or.inr ⟨a, s', rfl, by simpa only [hp] using h⟩
    | threw e' s' =>
        simp only [hp, Outcome.threw.injEq] at h
        exact Or.inl (by rw [h.1, h.2])
    | aborted => simp only [hp, reduceCtorEq] at h
  · rintro (hp | ⟨a, s', hp, hk⟩)
    · rw [hp]
    · simpa only [hp] using hk

/-- A sequence ends well when its first part does and the second part does after
everything the first can return. -/
theorem endsWell_bind_iff {kind : ε → Prop} {p : Prog ε σ α} {k : α → Prog ε σ β} {s : σ} :
    ((p >>= k) s).EndsWell kind ↔
      (p s).EndsWell kind ∧ ∀ a s', p s = .returned a s' → (k a s').EndsWell kind := by
  rw [bind_apply]
  cases p s with
  | returned a s' => simp [Outcome.EndsWell]
  | threw e s' => simp [Outcome.EndsWell]
  | aborted => simp [Outcome.EndsWell]

/-! ## What a program can return -/

/-- Whatever `p` returns has the property. -/
def Yields (property : α → Prop) (p : Prog ε σ α) : Prop :=
  ∀ s a s', p s = .returned a s' → property a

theorem yields_pure {property : α → Prop} {a : α} (ha : property a) :
    Yields property (pure a : Prog ε σ α) := by
  intro s b s' hReturned
  rw [pure_apply, Outcome.returned.injEq] at hReturned
  rw [← hReturned.1]
  exact ha

theorem Yields.bind {first : α → Prop} {property : β → Prop} {p : Prog ε σ α}
    {k : α → Prog ε σ β} (hFirst : Yields first p)
    (hSecond : ∀ a, first a → Yields property (k a)) : Yields property (p >>= k) := by
  intro s b s'' hReturned
  obtain ⟨a, s', hp, hk⟩ := bind_eq_returned.mp hReturned
  exact hSecond a (hFirst s a s' hp) s' b s'' hk

/-- Where the last part has it in any case. -/
theorem yields_bind {property : β → Prop} {p : Prog ε σ α} {k : α → Prog ε σ β}
    (hSecond : ∀ a, Yields property (k a)) : Yields property (p >>= k) := by
  intro s b s'' hReturned
  obtain ⟨a, s', -, hk⟩ := bind_eq_returned.mp hReturned
  exact hSecond a s' b s'' hk

theorem yields_throw {property : α → Prop} (e : ε) :
    Yields property (throw e : Prog ε σ α) := by
  intro s a s' hReturned
  simp at hReturned

theorem Yields.tryCatch {property : α → Prop} {p : Prog ε σ α} {handler : ε → Prog ε σ α}
    (hBlock : Yields property p) (hHandler : ∀ e, Yields property (handler e)) :
    Yields property (tryCatch p handler) := by
  intro s a s' hReturned
  cases hp : p s with
  | returned b s₁ =>
      rw [tryCatch_of_returned hp, Outcome.returned.injEq] at hReturned
      rw [← hReturned.1]
      exact hBlock s b s₁ hp
  | threw e s₁ =>
      rw [tryCatch_of_threw hp] at hReturned
      exact hHandler e s₁ a s' hReturned
  | aborted =>
      rw [tryCatch_of_aborted hp] at hReturned
      simp at hReturned

theorem Yields.mapError {ε' : Type} {property : α → Prop} {p : Prog ε σ α} (f : ε → ε')
    (hYields : Yields property p) : Yields property (mapError f p) := by
  intro s a s' hReturned
  cases hp : p s with
  | returned b s₁ =>
      rw [mapError_of_returned hp, Outcome.returned.injEq] at hReturned
      rw [← hReturned.1]
      exact hYields s b s₁ hp
  | threw e s₁ =>
      rw [mapError_of_threw hp] at hReturned
      simp at hReturned
  | aborted =>
      rw [mapError_of_aborted hp] at hReturned
      simp at hReturned

theorem Yields.zoom {property : α → Prop} {p : Prog ε τ α} (read : σ → τ) (write : τ → σ → σ)
    (hYields : Yields property p) : Yields property (zoom read write p) := by
  intro s a s' hReturned
  rw [Prog.zoom] at hReturned
  cases hp : p (read s) with
  | returned b t =>
      rw [hp, Outcome.mapState_returned, Outcome.returned.injEq] at hReturned
      rw [← hReturned.1]
      exact hYields (read s) b t hp
  | threw e t => simp [hp] at hReturned
  | aborted => simp [hp] at hReturned

/-! ## Programs that do not look at the state -/

/-- `p` does on every state what `q` does on none, and leaves the state alone. -/
def Stateless (p : Prog ε σ α) (q : Prog ε Unit α) : Prop :=
  ∀ s, p s = (q ()).mapState fun _ => s

theorem stateless_pure (a : α) : Stateless (pure a : Prog ε σ α) (pure a) := fun _ => rfl

theorem stateless_throw (e : ε) : Stateless (throw e : Prog ε σ α) (throw e) := fun _ => rfl

theorem stateless_abort : Stateless (abort : Prog ε σ α) abort := fun _ => rfl

theorem Stateless.bind {p : Prog ε σ α} {q : Prog ε Unit α} {k : α → Prog ε σ β}
    {l : α → Prog ε Unit β} (hFirst : Stateless p q) (hSecond : ∀ a, Stateless (k a) (l a)) :
    Stateless (p >>= k) (q >>= l) := by
  intro s
  rw [bind_apply, bind_apply, hFirst s]
  cases q () with
  | returned a u => exact hSecond a s
  | threw e u => rfl
  | aborted => rfl

/-- Such a program returns what it returns without a state, or does not return. -/
theorem Stateless.cases {p : Prog ε σ α} {q : Prog ε Unit α} (h : Stateless p q) (s : σ) :
    (∃ a, (q ()).value = some a ∧ p s = .returned a s) ∨
      (q ()).value = none ∧ ((∃ e, p s = .threw e s) ∨ p s = .aborted) := by
  rw [h s]
  cases q () with
  | returned a u => exact Or.inl ⟨a, rfl, rfl⟩
  | threw e u => exact Or.inr ⟨rfl, Or.inl ⟨e, rfl⟩⟩
  | aborted => exact Or.inr ⟨rfl, Or.inr rfl⟩

instance : LawfulMonad (Prog ε σ) :=
  LawfulMonad.mk' (Prog ε σ)
    (fun p => by
      funext s
      change (p >>= fun a => pure a) s = p s
      rw [bind_apply]
      cases p s <;> rfl)
    (fun _ _ => rfl)
    (fun p _ _ => by
      funext s
      simp only [bind_apply]
      cases p s <;> rfl)

end Prog

end Foundation
end Yess
