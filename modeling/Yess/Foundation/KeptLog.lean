import Yess.Foundation.VersionedLog

namespace Yess
namespace Foundation
namespace KeptLog

open VersionedLog

/-!
# Logs that outlive their keys

A weaker store than that of `VersionedLog`: there is a log under every key, and
whether the key is in use is kept beside it.  An append needs the next version and no
key in use, a create takes over what is already there, and only a delete empties a
log.  So what lies under a key are the appends since its latest delete
(`log_eq_kept`), an append stays at its place as long as nobody deletes the key
(`getElem?_of_append`), two appends of one version still need a delete between them
(`delete_between_appends`), and an append that is tried again and again takes effect
once (`log_of_retries`).

The module names nothing of the modelled program.
-/

variable {K E : Type}

/-- Which keys are in use, and the log under each key. -/
structure Shelf (K E : Type) where
  inUse : K → Prop
  log : K → List E

/-- Nothing is in use, and all logs are empty. -/
def Shelf.empty : Shelf K E where
  inUse := fun _ => False
  log := fun _ => []

@[ext] theorem Shelf.ext {a b : Shelf K E} (hInUse : a.inUse = b.inUse) (hLog : a.log = b.log) :
    a = b := by
  obtain ⟨inUse, log⟩ := a
  cases hInUse
  cases hLog
  rfl

variable [DecidableEq K]

/-- What an operation adds to the entries under a key. -/
def keep (key : K) (entries : List E) : Op K E → List E
  | .create _ => entries
  | .delete key' => if key' = key then [] else entries
  | .append key' entry => if key' = key then entries ++ [entry] else entries

/-- The entries appended under a key since it was last deleted. -/
def kept (key : K) (history : List (Op K E)) : List E := history.foldl (keep key) []

theorem kept_append_single (key : K) (history : List (Op K E)) (op : Op K E) :
    kept key (history ++ [op]) = keep key (kept key history) op := by
  rw [kept, List.foldl_append]
  rfl

/-- The operation deletes the key or appends to it. -/
def Touches (key : K) : Op K E → Prop
  | .create _ => False
  | .delete key' => key' = key
  | .append key' _ => key' = key

/-- Only a delete of the key takes entries away. -/
theorem prefix_keep {key : K} {op : Op K E} (entries : List E) (hKept : op ≠ .delete key) :
    entries <+: keep key entries op := by
  cases op with
  | create key' => exact List.prefix_rfl
  | delete key' =>
      have hKey : key' ≠ key := by
        rintro rfl
        exact hKept rfl
      have hSame : keep key entries (.delete key') = entries := if_neg hKey
      exact ⟨[], (List.append_nil _).trans hSame.symm⟩
  | append key' entry =>
      by_cases hKey : key' = key
      · rw [keep, if_pos hKey]
        exact List.prefix_append _ _
      · have hSame : keep key entries (.append key' entry) = entries := if_neg hKey
        exact ⟨[], (List.append_nil _).trans hSame.symm⟩

theorem keep_of_untouched {key : K} {op : Op K E} (entries : List E)
    (hUntouched : ¬Touches key op) : keep key entries op = entries := by
  cases op with
  | create key' => rfl
  | delete key' => exact if_neg hUntouched
  | append key' entry => exact if_neg hUntouched

section

variable (version : E → Int)

/-- The steps of the store. -/
inductive Step : Shelf K E → Op K E → Shelf K E → Prop
  | create {shelf : Shelf K E} {key : K} (hFree : ¬shelf.inUse key) :
      Step shelf (.create key) { shelf with inUse := fun k => k = key ∨ shelf.inUse k }
  | delete {shelf : Shelf K E} {key : K} :
      Step shelf (.delete key)
        ⟨fun k => k ≠ key ∧ shelf.inUse k, Function.update shelf.log key []⟩
  | append {shelf : Shelf K E} {key : K} {entry : E}
      (hNext : version entry = (shelf.log key).length + 1) :
      Step shelf (.append key entry)
        { shelf with log := Function.update shelf.log key (shelf.log key ++ [entry]) }

end

variable {version : E → Int} {start shelf shelf' : Shelf K E} {op : Op K E}
  {history : List (Op K E)} {key : K}

/-- A step does to each log what the operation says. -/
theorem Step.log_eq (hStep : Step version shelf op shelf') (key : K) :
    shelf'.log key = keep key (shelf.log key) op := by
  cases hStep with
  | create hFree => rfl
  | @delete key' =>
      by_cases hKey : key' = key
      · subst hKey
        rw [keep, if_pos rfl]
        exact Function.update_self key' [] shelf.log
      · rw [keep, if_neg hKey]
        exact Function.update_of_ne (Ne.symm hKey) [] shelf.log
  | @append key' entry hNext =>
      by_cases hKey : key' = key
      · subst hKey
        rw [keep, if_pos rfl]
        exact Function.update_self key' _ shelf.log
      · rw [keep, if_neg hKey]
        exact Function.update_of_ne (Ne.symm hKey) _ shelf.log

/-- From the empty shelf, each log is what was kept under its key. -/
theorem log_eq_kept (hRun : Run (Step version) Shelf.empty history shelf) (key : K) :
    shelf.log key = kept key history := by
  refine hRun.invariant (fun history shelf => shelf.log key = kept key history) rfl ?_
  intro history shelf op shelf' hInv hStep
  rw [hStep.log_eq key, hInv, kept_append_single]

/-- The entries of each log carry the versions `1, ..., n`. -/
theorem map_version_log (hRun : Run (Step version) Shelf.empty history shelf) (key : K) :
    (shelf.log key).map version = upTo (shelf.log key).length := by
  refine hRun.stateInvariant
    (fun shelf => (shelf.log key).map version = upTo (shelf.log key).length) rfl ?_
  intro shelf op shelf' hInv hStep
  rw [hStep.log_eq key]
  cases hStep with
  | create hFree => exact hInv
  | @delete key' =>
      by_cases hKey : key' = key
      · rw [keep, if_pos hKey]
        rfl
      · rw [keep, if_neg hKey]
        exact hInv
  | @append key' entry hNext =>
      by_cases hKey : key' = key
      · rw [keep, if_pos hKey, List.map_append, hInv, List.length_append, List.map_singleton,
          List.length_singleton, upTo_succ, hNext, hKey]
      · rw [keep, if_neg hKey]
        exact hInv

/-- Without a delete of the key, what lies under it stays and is only added to. -/
theorem log_prefix_of_no_delete (hRun : Run (Step version) start history shelf)
    (hKept : Op.delete key ∉ history) : start.log key <+: shelf.log key := by
  refine hRun.invariant
    (fun history shelf => Op.delete key ∉ history → start.log key <+: shelf.log key)
    (fun _ => List.prefix_rfl) ?_ hKept
  intro history shelf op shelf' hInv hStep hKept
  rw [List.mem_append, not_or, List.mem_singleton] at hKept
  rw [hStep.log_eq key]
  exact (hInv hKept.1).trans (prefix_keep _ (Ne.symm hKept.2))

/-- An appended entry stays at the place that its version gives it, until its key is
deleted. -/
theorem getElem?_of_append {before after : List (Op K E)} {entry : E}
    (hRun : Run (Step version) start (before ++ .append key entry :: after) shelf)
    (hKept : Op.delete key ∉ after) :
    (shelf.log key)[(version entry - 1).toNat]? = some entry := by
  rw [← List.singleton_append, ← List.append_assoc] at hRun
  obtain ⟨afterAppend, hFirst, hRest⟩ := hRun.exists_of_append
  obtain ⟨beforeAppend, -, hStep⟩ := hFirst.exists_of_append_single
  have hNext : version entry = (beforeAppend.log key).length + 1 := by
    cases hStep with
    | append hNext => exact hNext
  have hLog : afterAppend.log key = beforeAppend.log key ++ [entry] := by
    rw [hStep.log_eq key, keep, if_pos rfl]
  obtain ⟨more, hMore⟩ := log_prefix_of_no_delete hRest hKept
  have hPlace : (version entry - 1).toNat = (beforeAppend.log key).length := by omega
  rw [← hMore, hLog, hPlace, List.append_assoc, List.getElem?_append_right (Nat.le_refl _),
    Nat.sub_self]
  rfl

/-- Two appends of one version under one key have a delete of the key between them. -/
theorem delete_between_appends {before between : List (Op K E)} {first second : E}
    (hRun : Run (Step version) start
      (before ++ .append key first :: (between ++ [.append key second])) shelf)
    (hVersion : version first = version second) : Op.delete key ∈ between := by
  by_contra hKept
  rw [← List.singleton_append, ← List.append_assoc, ← List.append_assoc] at hRun
  obtain ⟨afterBetween, hPrefix, hSecond⟩ := hRun.exists_of_append_single
  rw [List.append_assoc, List.singleton_append] at hPrefix
  -- The first entry is at its place when the second one is to come behind the last.
  have hThere := getElem?_of_append hPrefix hKept
  have hBound := (List.getElem?_eq_some_iff.mp hThere).1
  cases hSecond with
  | append hNext => omega

/-- Where nothing touches a key but appends of one entry, however many of them are
tried, at most one takes effect. -/
theorem log_of_retries {entry : E} (hRun : Run (Step version) start history shelf)
    (hNext : version entry = (start.log key).length + 1)
    (hOnly : ∀ op ∈ history, Touches key op → op = .append key entry) :
    (shelf.log key = start.log key ∧ ∀ op ∈ history, ¬Touches key op) ∨
      (shelf.log key = start.log key ++ [entry] ∧ .append key entry ∈ history) := by
  refine hRun.invariant
    (fun history shelf => (∀ op ∈ history, Touches key op → op = .append key entry) →
      (shelf.log key = start.log key ∧ ∀ op ∈ history, ¬Touches key op) ∨
        (shelf.log key = start.log key ++ [entry] ∧ .append key entry ∈ history))
    (fun _ => Or.inl ⟨rfl, by simp⟩) ?_ hOnly
  intro history shelf op shelf' hInv hStep hOnly
  have hOld := hInv fun op' hMem => hOnly op' (List.mem_append_left _ hMem)
  have hLast := hOnly op (List.mem_append_right _ (List.mem_singleton.mpr rfl))
  by_cases hTouches : Touches key op
  · obtain rfl := hLast hTouches
    rw [hStep.log_eq key, keep, if_pos rfl]
    rcases hOld with ⟨hSame, -⟩ | ⟨hStored, -⟩
    · exact Or.inr ⟨by rw [hSame], List.mem_append_right _ (List.mem_singleton.mpr rfl)⟩
    -- Once it is stored, its version is not the next one.
    · cases hStep with
      | append hAgain =>
          rw [hStored, List.length_append, List.length_singleton] at hAgain
          omega
  · rw [hStep.log_eq key, keep_of_untouched _ hTouches]
    rcases hOld with ⟨hSame, hUntouched⟩ | ⟨hStored, hMem⟩
    · refine Or.inl ⟨hSame, ?_⟩
      intro op' hMem
      rcases List.mem_append.mp hMem with hOp | hOp
      · exact hUntouched op' hOp
      · rw [List.mem_singleton.mp hOp]
        exact hTouches
    · exact Or.inr ⟨hStored, List.mem_append_left _ hMem⟩

end KeptLog
end Foundation
end Yess
