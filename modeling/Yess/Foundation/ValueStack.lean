import Mathlib.Data.List.Basic
import Yess.Foundation.Program

namespace Yess
namespace Foundation

/-!
# Programs on a value stack

An interpreter that is driven through a stack of values: every call of its
interface finds its arguments on the stack and leaves its results there, while
the objects themselves live on a heap.  `Machine` is the pair, `slot` the reading
of a signed stack index, `push` and `pop` move the top.

`Implements` relates a program on the machine to a program on the heap alone,
which passes values as Lean values.  It says what the stack is after a return, and
that an exception leaves something behind on top of a part of the stack that was
not touched.  The rules compose it along `>>=`.

The module names nothing of the modelled program.
-/

/-- A heap and a stack of values, the top of the stack first. -/
structure Machine (σ ν : Type) where
  heap : σ
  stack : List ν
  deriving DecidableEq

namespace ValueStack

variable {ε σ ν α β γ δ : Type}

/-- The value at a signed index: from the bottom for `0, 1, ...`, from the top for
`-1, -2, ...`. -/
def slot (stack : List ν) (index : Int) : Option ν :=
  if index < 0 then stack[(-index - 1).toNat]? else stack.reverse[index.toNat]?

theorem slot_top (v : ν) (stack : List ν) : slot (v :: stack) (-1) = some v := rfl

theorem slot_bottom (stack : List ν) : slot stack 0 = stack.getLast? := by
  rw [slot, if_neg (by omega), Int.toNat_zero, ← List.head?_eq_getElem?,
    List.head?_reverse]

/-- A push does not change what lies at the bottom. -/
theorem slot_zero_cons (v w : ν) (stack : List ν) :
    slot (v :: w :: stack) 0 = slot (w :: stack) 0 := by
  rw [slot_bottom, slot_bottom, List.getLast?_cons_cons]

/-- The index of a value counted from the bottom is the number of values below
it, whatever lies above. -/
theorem slot_length (above : List ν) (v : ν) (below : List ν) :
    slot (above ++ v :: below) below.length = some v := by
  rw [slot, if_neg (by omega), Int.toNat_natCast, List.reverse_append, List.reverse_cons,
    List.append_assoc]
  simp

/-- Push a value, of which the stack holds at most `capacity`. -/
def push (capacity : Nat) (v : ν) : Prog ε (Machine σ ν) Unit := fun m =>
  if m.stack.length < capacity then .returned () { m with stack := v :: m.stack }
  -- Beyond its reserve the stack raises an error that nobody catches.
  else .aborted

theorem push_of_full {capacity : Nat} (v : ν) {m : Machine σ ν}
    (hFull : ¬m.stack.length < capacity) :
    (push capacity v : Prog ε (Machine σ ν) Unit) m = .aborted := by
  rw [push, if_neg hFull]

/-- Drop the top. -/
def pop : Prog ε (Machine σ ν) Unit := fun m =>
  match m.stack with
  | [] => .aborted
  | _ :: rest => .returned () { m with stack := rest }

/-! ## Programs on the machine and on the heap -/

/-- The two outcomes agree: both return, with corresponding values and heaps and
the stack `after`; or both throw the same, with something left on top of `base`;
or both abort. -/
inductive Agrees (base : List ν) (value : α → β) (after : α → List ν) :
    Outcome ε (Machine σ ν) β → Outcome ε σ α → Prop
  | returned (a : α) (heap : σ) :
      Agrees base value after (.returned (value a) ⟨heap, after a⟩) (.returned a heap)
  | threw (error : ε) (heap : σ) (residue : List ν) (hResidue : residue ≠ []) :
      Agrees base value after (.threw error ⟨heap, residue ++ base⟩) (.threw error heap)
  | aborted : Agrees base value after .aborted .aborted

/-- Started on the stack `before`, the program `p` on the machine does what `q`
does on the heap. -/
def Implements (base before : List ν) (p : Prog ε (Machine σ ν) β) (value : α → β)
    (after : α → List ν) (q : Prog ε σ α) : Prop :=
  ∀ heap, Agrees base value after (p ⟨heap, before⟩) (q heap)

variable {base before : List ν} {value : α → β} {after : α → List ν}
  {p : Prog ε (Machine σ ν) β} {q : Prog ε σ α}

theorem Implements.pure (base : List ν) (value : α → β) (after : α → List ν) (a : α) :
    Implements base (after a) (pure (value a) : Prog ε (Machine σ ν) β) value after
      (pure a : Prog ε σ α) :=
  fun heap => .returned a heap

theorem implements_push {capacity : Nat} (v : ν) (hRoom : before.length < capacity) :
    Implements base before (push capacity v : Prog ε (Machine σ ν) Unit) id
      (fun _ => v :: before) (Pure.pure () : Prog ε σ Unit) := by
  intro heap
  rw [push, if_pos hRoom]
  exact .returned () heap

theorem implements_pop (v : ν) :
    Implements base (v :: before) (pop : Prog ε (Machine σ ν) Unit) id
      (fun _ => before) (Pure.pure () : Prog ε σ Unit) :=
  fun heap => .returned () heap

/-- A throw leaves what lies on top of the base. -/
theorem implements_throw (above : List ν) (error : ε) (hAbove : above ≠ []) :
    Implements base (above ++ base) (Prog.throw error : Prog ε (Machine σ ν) β) value after
      (Prog.throw error) :=
  fun heap => .threw error heap above hAbove

theorem implements_ofExcept (above : List ν) (result : Except ε α) (hAbove : above ≠ []) :
    Implements base (above ++ base) (Prog.ofExcept result : Prog ε (Machine σ ν) α) id
      (fun _ => above ++ base) (Prog.ofExcept result) := by
  cases result with
  | ok a => exact .pure base id (fun _ => above ++ base) a
  | error e => exact implements_throw above e hAbove

/-- Sequencing, where the second part is needed only for what the first part can
return. -/
theorem Implements.bind_of_returned {value' : γ → δ} {after' : γ → List ν}
    {k : β → Prog ε (Machine σ ν) δ} {k' : α → Prog ε σ γ}
    (hFirst : Implements base before p value after q)
    (hSecond : ∀ a heap heap', q heap = .returned a heap' →
      Agrees base value' after' (k (value a) ⟨heap', after a⟩) (k' a heap')) :
    Implements base before (p >>= k) value' after' (q >>= k') := by
  intro heap
  rw [Prog.bind_apply, Prog.bind_apply]
  have hStep := hFirst heap
  -- Both outcomes are named, so that the cases of the agreement split them together.
  generalize hP : p ⟨heap, before⟩ = outcome at hStep
  generalize hQ : q heap = outcome' at hStep
  cases hStep with
  | returned a heap' => exact hSecond a heap heap' hQ
  | threw error heap' residue hResidue => exact .threw error heap' residue hResidue
  | aborted => exact .aborted

theorem Implements.bind {value' : γ → δ} {after' : γ → List ν}
    {k : β → Prog ε (Machine σ ν) δ} {k' : α → Prog ε σ γ}
    (hFirst : Implements base before p value after q)
    (hSecond : ∀ a, Implements base (after a) (k (value a)) value' after' (k' a)) :
    Implements base before (p >>= k) value' after' (q >>= k') :=
  hFirst.bind_of_returned fun a _ heap' _ => hSecond a heap'

/-- A first part that does nothing on the heap. -/
theorem Implements.bind_pure_left {value' : γ → δ} {after' : γ → List ν}
    {k : β → Prog ε (Machine σ ν) δ} {r : Prog ε σ γ} {a : α}
    (hFirst : Implements base before p value after (Pure.pure a))
    (hSecond : Implements base (after a) (k (value a)) value' after' r) :
    Implements base before (p >>= k) value' after' r := by
  intro heap
  have hStep := hFirst heap
  rw [Prog.pure_apply] at hStep
  generalize hP : p ⟨heap, before⟩ = outcome at hStep
  cases hStep with
  | returned =>
      rw [Prog.bind_of_returned hP]
      exact hSecond heap

/-- What is left on top of a longer part of the stack is left on top of a shorter
one. -/
theorem Agrees.mono {above : List ν} {o : Outcome ε (Machine σ ν) β} {o' : Outcome ε σ α}
    (h : Agrees (above ++ base) value after o o') : Agrees base value after o o' := by
  cases h with
  | returned a heap => exact .returned a heap
  | threw error heap residue hResidue =>
      -- What lay between the two bases now counts as left behind.
      rw [← List.append_assoc]
      exact .threw error heap (residue ++ above) (by simp [hResidue])
  | aborted => exact .aborted

theorem Implements.mono {above : List ν}
    (h : Implements (above ++ base) before p value after q) :
    Implements base before p value after q :=
  fun heap => (h heap).mono

/-! ## Reading an agreement -/

theorem Agrees.result_eq {o : Outcome ε (Machine σ ν) α} {o' : Outcome ε σ α}
    (h : Agrees base id after o o') : o.result = o'.result := by
  cases h <;> rfl

theorem Agrees.value_eq {o : Outcome ε (Machine σ ν) α} {o' : Outcome ε σ α}
    (h : Agrees base id after o o') : o.value = o'.value := by
  cases h <;> rfl

/-- Where the program on the heap returns, the one on the machine does. -/
theorem Agrees.eq_returned {o : Outcome ε (Machine σ ν) β} {a : α} {heap : σ}
    (h : Agrees base value after o (.returned a heap)) :
    o = .returned (value a) ⟨heap, after a⟩ := by
  cases h
  rfl

theorem Agrees.endsWell_iff {kind : ε → Prop} {o : Outcome ε (Machine σ ν) β}
    {o' : Outcome ε σ α} (h : Agrees base value after o o') :
    o.EndsWell kind ↔ o'.EndsWell kind := by
  cases h <;> exact Iff.rfl

/-- A sequence on the machine ends well when its first part does on the heap and
the second part does after everything that the first can return. -/
theorem Implements.endsWell_bind_iff {kind : ε → Prop} {k : β → Prog ε (Machine σ ν) δ}
    (hFirst : Implements base before p value after q) (heap : σ) :
    ((p >>= k) ⟨heap, before⟩).EndsWell kind ↔
      (q heap).EndsWell kind ∧ ∀ a heap', q heap = .returned a heap' →
        (k (value a) ⟨heap', after a⟩).EndsWell kind := by
  rw [Prog.bind_apply]
  have hStep := hFirst heap
  generalize p ⟨heap, before⟩ = outcome at hStep
  generalize q heap = outcome' at hStep
  cases hStep with
  | returned a heap' => simp [Outcome.EndsWell]
  | threw error heap' residue hResidue => simp [Outcome.EndsWell]
  | aborted => simp [Outcome.EndsWell]

end ValueStack

end Foundation
end Yess
