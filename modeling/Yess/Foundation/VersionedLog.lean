import Mathlib.Algebra.Order.Ring.Int
import Mathlib.Data.List.Range
import Mathlib.Logic.Function.Basic
import Yess.Foundation.Run

namespace Yess
namespace Foundation
namespace VersionedLog

/-!
# Append-only logs under keys, with optimistic versions

The abstract store: each key in use has a list of entries, an entry states its
own version, and an append is taken only when that version is the next one of
the log it goes to.  A key can be given up and taken into use again.

`acknowledged` reads the entries of a key off the history of the store, and
`log_eq_acknowledged` says that this is the log held under it.  Two appends of
one version to one key need the key to be given up between them
(`delete_between_appends`).

The module names nothing of the modelled program.
-/

variable {K E : Type}

/-- The versions of a log of `n` entries: `1, 2, ..., n`. -/
def upTo (n : Nat) : List Int :=
  (List.range n).map fun i : Nat => (i : Int) + 1

@[simp] theorem upTo_zero : upTo 0 = [] := rfl

theorem upTo_succ (n : Nat) : upTo (n + 1) = upTo n ++ [(n : Int) + 1] := by
  simp [upTo, List.range_succ]

theorem mem_upTo {n : Nat} {v : Int} : v ∈ upTo n ↔ 1 ≤ v ∧ v ≤ n := by
  simp only [upTo, List.mem_map, List.mem_range]
  constructor
  · rintro ⟨i, hi, rfl⟩
    omega
  · intro h
    exact ⟨(v - 1).toNat, by omega, by omega⟩

theorem pairwise_upTo (n : Nat) : (upTo n).Pairwise fun a b => a < b := by
  induction n with
  | zero => exact List.Pairwise.nil
  | succ n ih =>
      rw [upTo_succ, List.pairwise_append]
      refine ⟨ih, List.pairwise_singleton _ _, ?_⟩
      intro a hA b hB
      rw [List.mem_singleton] at hB
      have hLe := (mem_upTo.mp hA).2
      omega

/-- One log under each key in use. -/
abbrev Logs (K E : Type) : Type := K → Option (List E)

/-- What can happen to the store. -/
inductive Op (K E : Type) where
  | create (key : K)
  | delete (key : K)
  | append (key : K) (entry : E)

section

variable [DecidableEq K] (version : E → Int)

/-- The steps of the store.  A key is taken into use only when it is not, and an
append names a key in use and carries the next version. -/
inductive Step : Logs K E → Op K E → Logs K E → Prop
  | create {logs : Logs K E} {key : K} (hFree : logs key = none) :
      Step logs (.create key) (Function.update logs key (some []))
  | delete {logs : Logs K E} {key : K} :
      Step logs (.delete key) (Function.update logs key none)
  | append {logs : Logs K E} {key : K} {entry : E} {log : List E}
      (hLog : logs key = some log) (hNext : version entry = log.length + 1) :
      Step logs (.append key entry)
        (Function.update logs key (some (log ++ [entry])))

/-- What an operation adds to the entries counted for a key: taking the key into
use starts the count again. -/
def count (key : K) (entries : List E) : Op K E → List E
  | .create key' => if key' = key then [] else entries
  | .delete _ => entries
  | .append key' entry => if key' = key then entries ++ [entry] else entries

/-- The entries appended under a key since it was last taken into use. -/
def acknowledged (key : K) (history : List (Op K E)) : List E :=
  history.foldl (count key) []

variable {version} {start logs logs' : Logs K E} {history : List (Op K E)} {key : K}

/-- Every log in use is the list of appends since its key was taken into use. -/
theorem log_eq_acknowledged
    (hRun : Run (Step version) (fun _ => none) history logs)
    {log : List E} (hLog : logs key = some log) :
    log = acknowledged key history := by
  refine hRun.invariant
    (fun history logs =>
      ∀ log, logs key = some log → log = acknowledged key history)
    (by simp) ?_ log hLog
  intro history logs op logs' hInv hStep log hLog
  have hCount : acknowledged key (history ++ [op]) =
      count key (acknowledged key history) op := by
    simp [acknowledged]
  rw [hCount]
  cases hStep with
  | @create key' hFree =>
      by_cases hKey : key' = key
      · subst hKey
        simpa [count] using hLog.symm
      · rw [Function.update_of_ne (Ne.symm hKey)] at hLog
        simpa [count, hKey] using hInv log hLog
  | @delete key' =>
      by_cases hKey : key' = key
      · subst hKey
        simp at hLog
      · rw [Function.update_of_ne (Ne.symm hKey)] at hLog
        exact hInv log hLog
  | @append key' entry old hOld _ =>
      by_cases hKey : key' = key
      · subst hKey
        rw [Function.update_self, Option.some.injEq] at hLog
        simp only [count, if_true, ← hLog, hInv old hOld]
      · rw [Function.update_of_ne (Ne.symm hKey)] at hLog
        simpa [count, hKey] using hInv log hLog

/-- Without a delete of the key, its log only grows. -/
theorem length_le_of_no_delete {log : List E}
    (hRun : Run (Step version) start history logs)
    (hLog : start key = some log) (hKept : Op.delete key ∉ history) :
    ∃ log', logs key = some log' ∧ log.length ≤ log'.length := by
  refine hRun.invariant
    (fun history logs => Op.delete key ∉ history →
      ∃ log', logs key = some log' ∧ log.length ≤ log'.length)
    (fun _ => ⟨log, hLog, le_refl _⟩) ?_ hKept
  intro history logs op logs' hInv hStep hKept
  rw [List.mem_append, not_or, List.mem_singleton] at hKept
  obtain ⟨log', hLog', hLe⟩ := hInv hKept.1
  cases hStep with
  | @create key' hFree =>
      have hKey : key ≠ key' := by
        rintro rfl
        rw [hLog'] at hFree
        simp at hFree
      exact ⟨log', by rw [Function.update_of_ne hKey, hLog'], hLe⟩
  | @delete key' =>
      have hKey : key ≠ key' := by
        rintro rfl
        exact hKept.2 rfl
      exact ⟨log', by rw [Function.update_of_ne hKey, hLog'], hLe⟩
  | @append key' entry old hOld _ =>
      by_cases hKey : key = key'
      · subst hKey
        rw [hLog', Option.some.injEq] at hOld
        subst hOld
        exact ⟨log' ++ [entry], by rw [Function.update_self], by simp; omega⟩
      · exact ⟨log', by rw [Function.update_of_ne hKey, hLog'], hLe⟩

/-- Two appends of one version under one key have a delete of the key between
them. -/
theorem delete_between_appends {before between : List (Op K E)} {first second : E}
    (hRun : Run (Step version) start
      (before ++ [.append key first] ++ between ++ [.append key second]) logs)
    (hVersion : version first = version second) :
    Op.delete key ∈ between := by
  by_contra hKept
  -- Without a delete the log is longer at the second append than at the first, so
  -- the two cannot carry the same version.
  obtain ⟨afterBetween, hPrefix, hSecond⟩ := hRun.exists_of_append_single
  obtain ⟨afterFirst, hFirstPart, hBetween⟩ := hPrefix.exists_of_append
  obtain ⟨beforeFirst, _, hFirst⟩ := hFirstPart.exists_of_append_single
  cases hFirst with
  | @append _ _ old hOld hNextFirst =>
      have hGrown := length_le_of_no_delete hBetween
        (Function.update_self key (some (old ++ [first])) beforeFirst) hKept
      obtain ⟨log', hLog', hLe⟩ := hGrown
      cases hSecond with
      | @append _ _ current hCurrent hNextSecond =>
          rw [hLog', Option.some.injEq] at hCurrent
          subst hCurrent
          simp only [List.length_append, List.length_singleton] at hLe
          omega

end

end VersionedLog
end Foundation
end Yess
