import Mathlib.Data.List.Perm.Basic
import Mathlib.Data.List.Sort
import Mathlib.Data.List.Range
import Mathlib.Algebra.Order.Ring.Int

namespace Yess
namespace Foundation
namespace Sql

/-!
# The part of SQL the statements below are made of

Three-valued expressions, the searched `CASE` without `ELSE`, row ids without
`AUTOINCREMENT`, the orders in which a table without `ORDER BY` may be visited
and the nested-loop join.  A table is the list of its rows in rowid order.

The module names nothing of the modelled program.
-/

variable {α β ρ κ : Type}

/-! ## Expressions -/

/-- A truth value; `none` is `NULL`. -/
abbrev Truth := Option Bool

/-- `a = b`, which is `NULL` when a side is. -/
def equal (a b : Option Int) : Truth :=
  match a, b with
  | some x, some y => some (x == y)
  | _, _ => none

/-- `a != b`, which is `NULL` when a side is. -/
def notEqual (a b : Option Int) : Truth :=
  match a, b with
  | some x, some y => some (x != y)
  | _, _ => none

/-- `a - b`, which is `NULL` when a side is. -/
def minus (a b : Option Int) : Option Int :=
  match a, b with
  | some x, some y => some (x - y)
  | _, _ => none

/-- `a AND b`: a false side decides, whatever the other one is. -/
def conj (a b : Truth) : Truth :=
  match a, b with
  | some false, _ => some false
  | _, some false => some false
  | some true, some true => some true
  | _, _ => none

/-- `CASE WHEN .. THEN .. WHEN .. THEN .. END`: the first arm whose condition is
true; one that is `NULL` is passed over like a false one. -/
def searchedCase : List (Truth × α) → Option α
  | [] => none
  | (condition, result) :: arms =>
      if condition = some true then some result else searchedCase arms

@[simp] theorem equal_eq_true_iff {x y : Int} :
    equal (some x) (some y) = some true ↔ x = y := by
  simp [equal]

@[simp] theorem notEqual_eq_true_iff {x y : Int} :
    notEqual (some x) (some y) = some true ↔ x ≠ y := by
  simp [notEqual]

@[simp] theorem notEqual_null_left (b : Option Int) : notEqual none b = none := rfl

@[simp] theorem minus_some (x y : Int) : minus (some x) (some y) = some (x - y) := rfl

/-- A conjunction is true exactly when both sides are. -/
@[simp] theorem conj_eq_true_iff {a b : Truth} :
    conj a b = some true ↔ a = some true ∧ b = some true := by
  rcases a with _ | _ | _ <;> rcases b with _ | _ | _ <;> simp [conj]

/-- No arm is taken exactly when no condition is true. -/
theorem searchedCase_eq_none_iff {arms : List (Truth × α)} :
    searchedCase arms = none ↔ ∀ arm ∈ arms, arm.1 ≠ some true := by
  induction arms with
  | nil => simp [searchedCase]
  | cons arm arms ih =>
      obtain ⟨condition, result⟩ := arm
      by_cases hTrue : condition = some true
      · simp [searchedCase, hTrue]
      · simp [searchedCase, hTrue, ih]

/-- `SELECT .. ORDER BY key DESC LIMIT 1`. -/
def orderDescLimitOne (key : ρ → Int) (rows : List ρ) : Option ρ :=
  rows.maxOn? key

theorem orderDescLimitOne_eq_none_iff {key : ρ → Int} {rows : List ρ} :
    orderDescLimitOne key rows = none ↔ rows = [] := by
  have hSome : (rows.maxOn? key).isSome ↔ rows ≠ [] := List.isSome_maxOn?_iff
  rw [orderDescLimitOne, ← Option.not_isSome_iff_eq_none, hSome, not_not]

/-- On rows that lie in the order of the column it is the last row. -/
theorem orderDescLimitOne_eq_getLast? {key : ρ → Int} {rows : List ρ}
    (hRows : rows.Pairwise fun a b => key a < key b) :
    orderDescLimitOne key rows = rows.getLast? := by
  unfold orderDescLimitOne
  cases rows using List.reverseRecOn with
  | nil => rfl
  | append_singleton front last =>
      rw [List.getLast?_concat]
      have hLast : last ∈ front ++ [last] := List.mem_append_right _ List.mem_cons_self
      cases hTop : (front ++ [last]).maxOn? key with
      | none =>
          have hSome : ((front ++ [last]).maxOn? key).isSome :=
            List.isSome_maxOn?_iff.mpr (by simp)
          rw [hTop] at hSome
          simp at hSome
      | some top =>
          have hGe : key last ≤ key top := by
            simpa [hTop] using List.le_apply_get_maxOn?_of_mem (f := key) hLast
          rcases List.mem_append.mp (List.maxOn?_mem hTop) with hFront | hEnd
          -- A row before the last one has a smaller value.
          · have hLt := (List.pairwise_append.mp hRows).2.2 top hFront last List.mem_cons_self
            omega
          · rw [List.mem_singleton.mp hEnd]

/-! ## Row ids -/

/-- The id a new row of an `INTEGER PRIMARY KEY` column gets: one more than the
largest id present, and `1` in an empty table. -/
def nextRowid (ids : List Int) : Int :=
  match ids.max? with
  | none => 1
  | some m => m + 1

/-- A new row's id is larger than every id present. -/
theorem lt_nextRowid {ids : List Int} {id : Int} (hId : id ∈ ids) :
    id < nextRowid ids := by
  unfold nextRowid
  cases hMax : ids.max? with
  | none =>
      rw [List.max?_eq_none_iff] at hMax
      subst hMax
      simp at hId
  | some m =>
      have hLe : id ≤ m := (List.max?_eq_some_iff.mp hMax).2 id hId
      show id < m + 1
      omega

theorem nextRowid_not_mem (ids : List Int) : nextRowid ids ∉ ids := fun hMem =>
  (lt_nextRowid hMem).false

/-- Ids that are counted from `1` on stay so. -/
theorem nextRowid_bounds {ids : List Int} {bound : Int} (hBound : 0 ≤ bound)
    (hIds : ∀ id ∈ ids, 0 < id ∧ id ≤ bound) : 0 < nextRowid ids ∧ nextRowid ids ≤ bound + 1 := by
  unfold nextRowid
  cases hMax : ids.max? with
  | none =>
      show (0 : Int) < 1 ∧ (1 : Int) ≤ bound + 1
      omega
  | some m =>
      have hMem := hIds m (List.max?_mem hMax)
      show 0 < m + 1 ∧ m + 1 ≤ bound + 1
      omega

/-- Appending a row under its new id keeps the ids increasing. -/
theorem pairwise_append_nextRowid {id : ρ → Int} {rows : List ρ} {row : ρ}
    (hRows : rows.Pairwise fun a b => id a < id b)
    (hRow : id row = nextRowid (rows.map id)) :
    (rows ++ [row]).Pairwise fun a b => id a < id b := by
  rw [List.pairwise_append]
  refine ⟨hRows, List.pairwise_singleton _ _, ?_⟩
  intro a hA b hB
  rw [List.mem_singleton] at hB
  subst hB
  rw [hRow]
  exact lt_nextRowid (List.mem_map_of_mem hA)

/-! ## Scans and joins -/

/-- The order in which a scan visits a table: by row id, or along an index. -/
inductive ScanOrder where
  | rowid
  | index
  deriving DecidableEq

/-- The rows of a table in the order of a scan. -/
def scan [LinearOrder κ] (order : ScanOrder) (indexKey : ρ → κ)
    (rows : List ρ) : List ρ :=
  match order with
  | .rowid => rows
  | .index => rows.insertionSort fun a b => indexKey a ≤ indexKey b

theorem scan_perm [LinearOrder κ] (order : ScanOrder) (indexKey : ρ → κ)
    (rows : List ρ) : (scan order indexKey rows).Perm rows := by
  cases order with
  | rowid => exact .refl _
  | index => exact List.perm_insertionSort _ _

/-- Rows that lie in index order already are found in the same order by either
scan. -/
theorem filter_scan [LinearOrder κ] (order : ScanOrder) (indexKey : ρ → κ)
    (p : ρ → Bool) (rows : List ρ)
    (hSorted : (rows.filter p).Pairwise fun a b => indexKey a ≤ indexKey b) :
    (scan order indexKey rows).filter p = rows.filter p := by
  cases order with
  | rowid => rfl
  | index =>
      -- The sort is stable, so the rows that are in order already come out of the
      -- sorted table as a sublist, and by their number as the whole of it.
      have hPerm := (scan_perm .index indexKey rows).filter p
      have hSublist : (rows.filter p).Sublist (scan .index indexKey rows) := by
        have hTrans : IsTrans ρ fun a b => indexKey a ≤ indexKey b :=
          ⟨fun _ _ _ h h' => h.trans h'⟩
        have hTotal : Std.Total fun a b : ρ => indexKey a ≤ indexKey b :=
          ⟨fun a b => le_total (indexKey a) (indexKey b)⟩
        exact List.sublist_insertionSort hSorted List.filter_sublist
      have hFiltered := hSublist.filter p
      rw [List.filter_filter] at hFiltered
      simp only [Bool.and_self] at hFiltered
      exact (hFiltered.eq_of_length hPerm.length_eq.symm).symm

/-- The nested-loop join: the outer table row by row, for each of its rows the
matching rows of the inner one. -/
def nestedLoop (on : α → β → Bool) (outer : List α) (inner : List β) :
    List (α × β) :=
  outer.flatMap fun a => (inner.filter (on a)).map fun b => (a, b)

theorem mem_nestedLoop {on : α → β → Bool} {outer : List α} {inner : List β} {a : α} {b : β} :
    (a, b) ∈ nestedLoop on outer inner ↔ a ∈ outer ∧ b ∈ inner ∧ on a b = true := by
  simp [nestedLoop]

/-- A condition on the outer table can be checked before the join. -/
theorem filter_nestedLoop_outer (on : α → β → Bool) (p : α → Bool) (outer : List α)
    (inner : List β) :
    (nestedLoop on outer inner).filter (fun pair => p pair.1) =
      nestedLoop on (outer.filter p) inner := by
  induction outer with
  | nil => rfl
  | cons a outer ih =>
      simp only [nestedLoop, List.flatMap_cons, List.filter_append] at ih ⊢
      rw [ih, List.filter_cons]
      by_cases hA : p a = true
      · simp [hA, List.filter_map, Function.comp_def]
      · simp [hA, List.filter_map, Function.comp_def]

/-- A condition on the inner table can be checked before the join. -/
theorem filter_nestedLoop_inner (on : α → β → Bool) (p : β → Bool) (outer : List α)
    (inner : List β) :
    (nestedLoop on outer inner).filter (fun pair => p pair.2) =
      nestedLoop on outer (inner.filter p) := by
  simp only [nestedLoop, List.filter_flatMap, List.filter_map, Function.comp_def,
    List.filter_filter]
  congr 1
  funext a
  congr 1
  exact List.filter_congr fun b _ => Bool.and_comm _ _

/-- Where the join condition speaks about the outer row only, each matching outer
row is joined with the whole inner table. -/
theorem nestedLoop_of_outer {on : α → β → Bool} {p : α → Bool} {outer : List α}
    {inner : List β} (hOn : ∀ a ∈ outer, ∀ b ∈ inner, on a b = p a) :
    nestedLoop on outer inner =
      (outer.filter p).flatMap fun a => inner.map fun b => (a, b) := by
  induction outer with
  | nil => rfl
  | cons a outer ih =>
      have hRest := ih fun a' hA' => hOn a' (List.mem_cons_of_mem _ hA')
      have hHead : inner.filter (on a) = if p a then inner else [] := by
        by_cases hA : p a = true
        · rw [if_pos hA, List.filter_eq_self]
          intro b hB
          rw [hOn a List.mem_cons_self b hB, hA]
        · rw [if_neg hA, List.filter_eq_nil_iff]
          intro b hB
          rwa [hOn a List.mem_cons_self b hB]
      simp only [nestedLoop, List.flatMap_cons] at hRest ⊢
      rw [hRest, hHead, List.filter_cons]
      by_cases hA : p a = true
      · simp [hA]
      · simp [hA]

/-- Where every outer row matches the same inner rows, they are joined to each
outer row in turn. -/
theorem nestedLoop_of_matches {on : α → β → Bool} {outer : List α} {inner found : List β}
    (hMatches : ∀ a ∈ outer, inner.filter (on a) = found) :
    nestedLoop on outer inner =
      outer.flatMap fun a => found.map fun b => (a, b) := by
  unfold nestedLoop
  apply List.flatMap_congr
  intro a hA
  rw [hMatches a hA]

/-- A query by primary key finds the row that has the key, and no other. -/
theorem filter_key_of_mem {key : ρ → Int} {rows : List ρ} {row : ρ}
    (hKeys : rows.Pairwise fun a b => key a < key b) (hRow : row ∈ rows) :
    rows.filter (fun r => key r = key row) = [row] := by
  induction rows with
  | nil => simp at hRow
  | cons head rows ih =>
      rw [List.pairwise_cons] at hKeys
      rcases List.mem_cons.mp hRow with rfl | hTail
      · have hNone : rows.filter (fun r => key r = key row) = [] := by
          rw [List.filter_eq_nil_iff]
          intro r hR
          have hLt := hKeys.1 r hR
          simp only [decide_eq_true_eq]
          omega
        rw [List.filter_cons_of_pos (by simp), hNone]
      · have hNe : ¬key head = key row := by
          have hLt := hKeys.1 row hTail
          omega
        rw [List.filter_cons_of_neg (by simpa using hNe)]
        exact ih hKeys.2 hTail

/-- A row whose key is referred to is found once, whatever else the inner table
holds: the join keeps the outer rows that have a match, each of them once. -/
theorem map_fst_nestedLoop_of_key {ref : α → Int} {key : β → Int} (outer : List α)
    {inner : List β} (hKeys : inner.Pairwise fun a b => key a < key b) :
    (nestedLoop (fun a b => key b == ref a) outer inner).map Prod.fst =
      outer.filter fun a => inner.any fun b => key b == ref a := by
  induction outer with
  | nil => rfl
  | cons a outer ih =>
      simp only [nestedLoop, List.flatMap_cons, List.map_append, List.map_map] at ih ⊢
      rw [ih, List.filter_cons]
      by_cases hFound : ∃ b ∈ inner, key b = ref a
      · obtain ⟨b, hB, hRef⟩ := hFound
        have hOne : inner.filter (fun b => key b == ref a) = [b] := by
          rw [← hRef]
          exact filter_key_of_mem hKeys hB
        have hAny : (inner.any fun b => key b == ref a) = true :=
          List.any_eq_true.mpr ⟨b, hB, by simpa using hRef⟩
        rw [hOne, if_pos hAny]
        rfl
      · have hNone : inner.filter (fun b => key b == ref a) = [] := by
          rw [List.filter_eq_nil_iff]
          intro b hB
          simpa using fun hRef => hFound ⟨b, hB, hRef⟩
        have hAny : ¬(inner.any fun b => key b == ref a) = true := by
          simpa using fun b hB hRef => hFound ⟨b, hB, hRef⟩
        rw [hNone, if_neg hAny]
        rfl

/-- Exchanging the loops changes the order of the pairs only. -/
theorem nestedLoop_swap_perm (on : α → β → Bool) (outer : List α) (inner : List β) :
    ((nestedLoop on outer inner).map Prod.swap).Perm
      (nestedLoop (fun b a => on a b) inner outer) := by
  induction outer with
  | nil => simp [nestedLoop]
  | cons a outer ih =>
      -- The pairs of one outer row are spread over the inner rows, one to each match.
      have hHead : (inner.filter (on a)).map (fun b => (b, a)) =
          inner.flatMap fun b => if on a b then [(b, a)] else [] := by
        clear ih
        induction inner with
        | nil => rfl
        | cons b inner ih => by_cases hOn : on a b = true <;> simp [hOn, ih]
      have hRest : nestedLoop (fun b a => on a b) inner (a :: outer) =
          inner.flatMap fun b => (if on a b then [(b, a)] else []) ++
            (outer.filter fun a => on a b).map fun a => (b, a) := by
        unfold nestedLoop
        apply List.flatMap_congr
        intro b _
        by_cases hOn : on a b = true <;> simp [hOn]
      have hFirst : (nestedLoop on (a :: outer) inner).map Prod.swap =
          ((inner.filter (on a)).map fun b => (b, a)) ++
            (nestedLoop on outer inner).map Prod.swap := by
        simp [nestedLoop, Function.comp_def]
      rw [hFirst, hHead, hRest]
      exact (ih.append_left _).trans (List.flatMap_append_perm _ _ _)

end Sql
end Foundation
end Yess
