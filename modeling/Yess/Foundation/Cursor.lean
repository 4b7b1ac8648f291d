import Mathlib.Data.List.Basic
import Mathlib.Data.List.Pairwise
import Mathlib.Data.Prod.Lex
import Mathlib.Order.Monotone.Basic
import Yess.Foundation.Run

namespace Yess
namespace Foundation
namespace Cursor

/-!
# Reading a table row by row while it grows

A cursor keeps the key of the row that it read last; its next row is the first one
after that, in the table as it is now.  Between two rows others may store rows
anywhere.  What a finished reading has found is then no snapshot of the table.

Keys fall into groups that lie one after the other.  If new rows come last in their
group, then what was found of one group is a snapshot of the group, and the
instants of these snapshots follow one another in the order of the groups
(`groups_are_snapshots`).  With a single group this is a snapshot of the table.

The module names nothing of the modelled program.
-/

variable {σ ℓ ρ κ γ : Type} [LinearOrder κ]

/-- The row lies after the position. -/
def After (key : ρ → κ) (position : Option κ) (row : ρ) : Prop :=
  ∀ k ∈ position, k < key row

instance (key : ρ → κ) (position : Option κ) (row : ρ) :
    Decidable (After key position row) :=
  inferInstanceAs (Decidable (∀ k ∈ position, k < key row))

/-- The first row after the position, of rows that are listed by their keys. -/
def next (key : ρ → κ) (position : Option κ) (rows : List ρ) : Option ρ :=
  rows.find? fun row => After key position row

/-- A reading on a store: the key of the row read last, and the rows so far. -/
structure Reading (σ κ ρ : Type) where
  store : σ
  position : Option κ
  found : List ρ
  finished : Bool

/-- A reading that has not read anything. -/
def Reading.start (store : σ) : Reading σ κ ρ := ⟨store, none, [], false⟩

inductive ReadLabel (ℓ : Type) where
  | fetch
  | store (label : ℓ)

/-- One step during a reading: the next row, the end, or a step of the store. -/
inductive ReadStep (step : σ → ℓ → σ → Prop) (contents : σ → List ρ) (key : ρ → κ) :
    Reading σ κ ρ → ReadLabel ℓ → Reading σ κ ρ → Prop
  | row {r : Reading σ κ ρ} {row : ρ} (hOpen : r.finished = false)
      (hNext : next key r.position (contents r.store) = some row) :
      ReadStep step contents key r .fetch
        { r with position := some (key row), found := r.found ++ [row] }
  | done {r : Reading σ κ ρ} (hOpen : r.finished = false)
      (hNext : next key r.position (contents r.store) = none) :
      ReadStep step contents key r .fetch { r with finished := true }
  | store {r : Reading σ κ ρ} {label : ℓ} {s : σ} (hOpen : r.finished = false)
      (hStep : step r.store label s) :
      ReadStep step contents key r (.store label) { r with store := s }

/-- The store is in the state `t` after `n` labels of the run. -/
def At {τ μ : Type} (step : τ → μ → τ → Prop) (start : τ) (labels : List μ) (final : τ) (n : ℕ)
    (t : τ) : Prop :=
  Run step start (labels.take n) t ∧ Run step t (labels.drop n) final

/-- How the rows of a table grow: they stay, and a new one comes after those that
are there in its group. -/
structure Grows (step : σ → ℓ → σ → Prop) (inv : σ → Prop) (contents : σ → List ρ)
    (key : ρ → κ) (group : κ → γ) : Prop where
  keep : ∀ s label t, inv s → step s label t → inv t
  sorted : ∀ s, inv s → (contents s).Pairwise fun a b => key a < key b
  subset : ∀ s label t, inv s → step s label t → contents s ⊆ contents t
  last : ∀ s label t, inv s → step s label t → ∀ new ∈ contents t, new ∉ contents s →
    ∀ old ∈ contents s, group (key old) = group (key new) → key old < key new

section Next

variable {key : ρ → κ} {position : Option κ} {rows : List ρ} {row other : ρ}

theorem next_eq_none (hNext : next key position rows = none) (hOther : other ∈ rows) :
    ¬After key position other := by
  have hNot := List.find?_eq_none.mp hNext other hOther
  simpa using hNot

theorem mem_of_next (hNext : next key position rows = some row) : row ∈ rows :=
  List.mem_of_find?_eq_some hNext

theorem after_of_next (hNext : next key position rows = some row) :
    After key position row := by
  simpa using List.find?_some hNext

/-- Nothing lies between the position and the next row. -/
theorem le_of_next (hSorted : rows.Pairwise fun a b => key a < key b)
    (hNext : next key position rows = some row) (hOther : other ∈ rows)
    (hAfter : After key position other) : key row ≤ key other := by
  obtain ⟨-, before, rest, rfl, hBefore⟩ := List.find?_eq_some_iff_append.mp hNext
  rcases List.mem_append.mp hOther with hMem | hMem
  · have hNot := hBefore other hMem
    simp [hAfter] at hNot
  · rcases List.mem_cons.mp hMem with rfl | hRest
    · exact le_refl _
    · rw [List.pairwise_append, List.pairwise_cons] at hSorted
      exact (hSorted.2.1.1 other hRest).le

theorem after_some_iff {k : κ} : After key (some k) row ↔ k < key row := by
  simp [After]

theorem After.of_lt (hAfter : After key position row) (hLt : key row < key other) :
    After key position other := fun k hk => (hAfter k hk).trans hLt

/-- Rows in the order of their keys are told apart by them. -/
theorem eq_of_key_eq (hSorted : rows.Pairwise fun a b => key a < key b) (hRow : row ∈ rows)
    (hOther : other ∈ rows) (hKey : key row = key other) : row = other := by
  by_contra hNe
  have hSymm : Std.Symm fun a b : ρ => key a ≠ key b := ⟨fun _ _ h => h.symm⟩
  exact (hSorted.imp fun h => h.ne).forall hRow hOther hNe hKey

end Next

/-! ## The store during a reading -/

section Store

variable {step : σ → ℓ → σ → Prop} {inv : σ → Prop} {contents : σ → List ρ} {key : ρ → κ}
  {group : κ → γ} {r t : Reading σ κ ρ} {labels : List (ReadLabel ℓ)}

/-- A step of a reading leaves the store as it is, or is a step of the store. -/
theorem ReadStep.store_cases {label : ReadLabel ℓ}
    (hStep : ReadStep step contents key r label t) :
    t.store = r.store ∨ ∃ l, label = .store l ∧ step r.store l t.store := by
  cases hStep with
  | row hOpen hNext => exact Or.inl rfl
  | done hOpen hNext => exact Or.inl rfl
  | store hOpen hStore => exact Or.inr ⟨_, rfl, hStore⟩

theorem ReadStep.mono {step' : σ → ℓ → σ → Prop} {label : ReadLabel ℓ}
    (hStep : ReadStep step contents key r label t)
    (hMono : ∀ l, label = .store l → step r.store l t.store → step' r.store l t.store) :
    ReadStep step' contents key r label t := by
  cases hStep with
  | row hOpen hNext => exact .row hOpen hNext
  | done hOpen hNext => exact .done hOpen hNext
  | store hOpen hStore => exact .store hOpen (hMono _ rfl hStore)

theorem ReadStep.keep {label : ReadLabel ℓ} (hGrows : Grows step inv contents key group)
    (hInv : inv r.store) (hStep : ReadStep step contents key r label t) : inv t.store := by
  rcases hStep.store_cases with hSame | ⟨l, -, hStore⟩
  · rw [hSame]
    exact hInv
  · exact hGrows.keep _ _ _ hInv hStore

theorem ReadStep.subset {label : ReadLabel ℓ} (hGrows : Grows step inv contents key group)
    (hInv : inv r.store) (hStep : ReadStep step contents key r label t) :
    contents r.store ⊆ contents t.store := by
  rcases hStep.store_cases with hSame | ⟨l, -, hStore⟩
  · rw [hSame]
    exact List.Subset.refl _
  · exact hGrows.subset _ _ _ hInv hStore

/-- What a run of a reading does to the rows: the invariant is kept, rows stay, and
the new ones come last in their groups. -/
theorem grows_run (hGrows : Grows step inv contents key group) (hInv : inv r.store)
    (hRun : Run (ReadStep step contents key) r labels t) :
    inv t.store ∧ contents r.store ⊆ contents t.store ∧
      ∀ new ∈ contents t.store, new ∉ contents r.store → ∀ old ∈ contents r.store,
        group (key old) = group (key new) → key old < key new := by
  induction hRun with
  | refl => exact ⟨hInv, List.Subset.refl _, fun new hNew hNot => absurd hNew hNot⟩
  | @tail _ t _ _ _ hLast ih =>
      obtain ⟨hInv', hSubset, hNewest⟩ := ih
      refine ⟨hLast.keep hGrows hInv', List.Subset.trans hSubset (hLast.subset hGrows hInv'), ?_⟩
      intro new hNew hNot old hOld hGroup
      rcases hLast.store_cases with hSame | ⟨l, -, hStore⟩
      · rw [hSame] at hNew
        exact hNewest new hNew hNot old hOld hGroup
      -- The new row came with this step or with an earlier one.
      · by_cases hBefore : new ∈ contents t.store
        · exact hNewest new hBefore hNot old hOld hGroup
        · exact hGrows.last _ _ _ hInv' hStore new hNew hBefore old (hSubset hOld) hGroup

/-- Nothing happens after the end. -/
theorem run_of_finished (hFinished : r.finished = true)
    (hRun : Run (ReadStep step contents key) r labels t) : labels = [] ∧ t = r := by
  induction hRun with
  | refl => exact ⟨rfl, rfl⟩
  | tail _ hLast ih =>
      obtain ⟨-, rfl⟩ := ih
      cases hLast with
      | row hOpen hNext => simp [hFinished] at hOpen
      | done hOpen hNext => simp [hFinished] at hOpen
      | store hOpen hStore => simp [hFinished] at hOpen

/-- A run of fetches is a run on a store that does not change. -/
theorem run_alone (hRun : Run (ReadStep step contents key) r labels t)
    (hAlone : ∀ label ∈ labels, label = .fetch) :
    Run (ReadStep (fun _ (_ : ℓ) _ => False) contents key) r labels t := by
  induction hRun with
  | refl => exact .refl
  | tail _ hLast ih =>
      refine .tail (ih fun label hMem => hAlone label (List.mem_append_left _ hMem)) ?_
      apply hLast.mono
      rintro l rfl _
      have hFetch := hAlone (.store l) (by simp)
      simp at hFetch

theorem store_of_alone
    (hRun : Run (ReadStep (fun _ (_ : ℓ) _ => False) contents key) r labels t) :
    t.store = r.store := by
  induction hRun with
  | refl => rfl
  | tail _ hLast ih =>
      rcases hLast.store_cases with hSame | ⟨l, -, hStore⟩
      · exact hSame.trans ih
      · exact hStore.elim

end Store

/-! ## What a finished reading has found -/

section Snapshots

variable [LinearOrder γ] {step : σ → ℓ → σ → Prop} {inv : σ → Prop} {contents : σ → List ρ}
  {key : ρ → κ} {group : κ → γ} {r final : Reading σ κ ρ} {labels : List (ReadLabel ℓ)}

/-- What the rest of a reading finds: of each group the rows after the position, as
the store is at the instant of the group. -/
structure Snapshots (step : σ → ℓ → σ → Prop) (contents : σ → List ρ) (key : ρ → κ)
    (group : κ → γ) (r : Reading σ κ ρ) (labels : List (ReadLabel ℓ)) (final : Reading σ κ ρ)
    (rest : List ρ) (time : γ → ℕ) (instant : γ → Reading σ κ ρ) : Prop where
  found : final.found = r.found ++ rest
  sorted : rest.Pairwise fun a b => key a < key b
  monotone : Monotone time
  during : ∀ g, At (ReadStep step contents key) r labels final (time g) (instant g)
  mem_iff : ∀ row, row ∈ rest ↔
    After key r.position row ∧ row ∈ contents (instant (group (key row))).store

/-- Seen from one step earlier, an instant is one label later. -/
theorem At.head {τ μ : Type} {step : τ → μ → τ → Prop} {start u final t : τ} {label : μ}
    {labels : List μ} {n : ℕ} (hStep : step start label u) (hAt : At step u labels final n t) :
    At step start (label :: labels) final (n + 1) t :=
  ⟨Run.head hStep hAt.1, hAt.2⟩

theorem At.mono {τ μ : Type} {step step' : τ → μ → τ → Prop} {start final t : τ}
    {labels : List μ} {n : ℕ} (hAt : At step start labels final n t)
    (hStep : ∀ s label t, step s label t → step' s label t) :
    At step' start labels final n t :=
  ⟨hAt.1.mono hStep, hAt.2.mono hStep⟩

theorem At.zero {τ μ : Type} {step : τ → μ → τ → Prop} {start final : τ} {labels : List μ}
    (hRun : Run step start labels final) : At step start labels final 0 start :=
  ⟨.refl, hRun⟩

variable {rest : List ρ} {time : γ → ℕ} {instant : γ → Reading σ κ ρ}

/-- Finding that there are no rows left is a snapshot of every group. -/
theorem snapshots_of_done (hNext : next key r.position (contents r.store) = none)
    (hFinal : final.found = r.found)
    (hRun : Run (ReadStep step contents key) r labels final) :
    Snapshots step contents key group r labels final [] (fun _ => 0) fun _ => r where
  found := by rw [hFinal, List.append_nil]
  sorted := List.Pairwise.nil
  monotone := monotone_const
  during := fun _ => At.zero hRun
  mem_iff := by
    intro row
    simp only [List.not_mem_nil, false_iff, not_and]
    intro hAfter hMem
    exact next_eq_none hNext hMem hAfter

/-- A step of the store before the rest of the reading changes nothing in it. -/
theorem Snapshots.store {label : ℓ} {s : σ}
    (hStep : ReadStep step contents key r (.store label) { r with store := s })
    (hRest : Snapshots step contents key group { r with store := s } labels final rest time
      instant) :
    Snapshots step contents key group r (.store label :: labels) final rest
      (fun g => time g + 1) instant where
  found := hRest.found
  sorted := hRest.sorted
  monotone := fun _ _ hLe => Nat.succ_le_succ (hRest.monotone hLe)
  during := fun g => (hRest.during g).head hStep
  mem_iff := hRest.mem_iff

/-- With the next row, the groups before that of the row are left: their instant is
now.  The group of the row itself is not left, and what is stored in it from now on
comes after the row. -/
theorem Snapshots.row {row : ρ} (hGrows : Grows step inv contents key group)
    (hGroup : Monotone group) (hInv : inv r.store)
    (hNext : next key r.position (contents r.store) = some row)
    (hStep : ReadStep step contents key r .fetch
      { r with position := some (key row), found := r.found ++ [row] })
    (hRun : Run (ReadStep step contents key) r (.fetch :: labels) final)
    (hRest : Snapshots step contents key group
      { r with position := some (key row), found := r.found ++ [row] } labels final rest time
      instant) :
    Snapshots step contents key group r (.fetch :: labels) final (row :: rest)
      (fun g => if g < group (key row) then 0 else time g + 1)
      fun g => if g < group (key row) then r else instant g where
  found := by rw [hRest.found, List.append_assoc, List.singleton_append]
  sorted := by
    refine List.pairwise_cons.mpr ⟨?_, hRest.sorted⟩
    intro other hOther
    exact after_some_iff.mp ((hRest.mem_iff other).mp hOther).1
  monotone := by
    intro g g' hLe
    dsimp only
    by_cases hLeft : g < group (key row)
    · rw [if_pos hLeft]
      exact Nat.zero_le _
    · rw [if_neg hLeft, if_neg fun hLt => hLeft (hLe.trans_lt hLt)]
      exact Nat.succ_le_succ (hRest.monotone hLe)
  during := by
    intro g
    by_cases hLeft : g < group (key row)
    · rw [if_pos hLeft, if_pos hLeft]
      exact At.zero hRun
    · rw [if_neg hLeft, if_neg hLeft]
      exact (hRest.during g).head hStep
  mem_iff := by
    intro other
    have hGrown := fun g => grows_run hGrows hInv (Run.head hStep (hRest.during g).1)
    constructor
    · intro hMem
      rcases List.mem_cons.mp hMem with rfl | hLater
      · refine ⟨after_of_next hNext, ?_⟩
        rw [if_neg (lt_irrefl _)]
        exact (hGrown _).2.1 (mem_of_next hNext)
      · obtain ⟨hAfter, hIn⟩ := (hRest.mem_iff other).mp hLater
        have hLt := after_some_iff.mp hAfter
        refine ⟨(after_of_next hNext).of_lt hLt, ?_⟩
        rw [if_neg (hGroup hLt.le).not_gt]
        exact hIn
    · rintro ⟨hAfter, hIn⟩
      by_cases hLeft : group (key other) < group (key row)
      · rw [if_pos hLeft] at hIn
        have hLe := le_of_next (hGrows.sorted _ hInv) hNext hIn hAfter
        exact absurd (hGroup hLe) hLeft.not_ge
      · rw [if_neg hLeft] at hIn
        obtain ⟨hInv', hSubset, hLast⟩ := hGrown (group (key other))
        rcases lt_trichotomy (key other) (key row) with hLt | hEq | hGt
        -- A row of the same group before the one read is neither there nor stored later.
        · have hSame : group (key row) = group (key other) :=
            le_antisymm (not_lt.mp hLeft) (hGroup hLt.le)
          by_cases hOld : other ∈ contents r.store
          · exact absurd (le_of_next (hGrows.sorted _ hInv) hNext hOld hAfter) hLt.not_ge
          · exact absurd (hLast other hIn hOld row (mem_of_next hNext) hSame) hLt.not_gt
        · rw [eq_of_key_eq (hGrows.sorted _ hInv') hIn (hSubset (mem_of_next hNext)) hEq]
          exact List.mem_cons_self
        · exact List.mem_cons_of_mem _ ((hRest.mem_iff other).mpr ⟨after_some_iff.mpr hGt, hIn⟩)

/-- In a finished reading, what was found of each group is what the store held of it
at an instant during the reading, and the instants follow one another in the order of
the groups. -/
theorem groups_are_snapshots (hGrows : Grows step inv contents key group)
    (hGroup : Monotone group) (hInv : inv r.store) (hOpen : r.finished = false)
    (hFinished : final.finished = true)
    (hRun : Run (ReadStep step contents key) r labels final) :
    ∃ rest time instant,
      Snapshots step contents key group r labels final rest time instant := by
  induction labels generalizing r with
  | nil =>
      rw [hRun.eq_of_nil, hOpen] at hFinished
      simp at hFinished
  | cons label labels ih =>
      obtain ⟨t, hStep, hRest⟩ := hRun.exists_of_cons
      have hInv' := hStep.keep hGrows hInv
      cases hStep with
      | row _ hNext =>
          obtain ⟨rest, time, instant, hSnapshots⟩ := ih hInv' hOpen hRest
          exact ⟨_, _, _, hSnapshots.row hGrows hGroup hInv hNext (.row hOpen hNext) hRun⟩
      | done _ hNext =>
          obtain ⟨-, rfl⟩ := run_of_finished rfl hRest
          exact ⟨_, _, _, snapshots_of_done hNext rfl hRun⟩
      | store _ hStore =>
          obtain ⟨rest, time, instant, hSnapshots⟩ := ih hInv' hOpen hRest
          exact ⟨_, _, _, hSnapshots.store (.store hOpen hStore)⟩

end Snapshots

/-! ## Tables that grow at their end -/

/-- Rows stay, and new ones come after all those that are there. -/
structure Appends (step : σ → ℓ → σ → Prop) (inv : σ → Prop) (contents : σ → List ρ)
    (key : ρ → κ) : Prop where
  keep : ∀ s label t, inv s → step s label t → inv t
  sorted : ∀ s, inv s → (contents s).Pairwise fun a b => key a < key b
  extend : ∀ s label t, inv s → step s label t → contents s <+: contents t

section Appends

variable {step : σ → ℓ → σ → Prop} {inv : σ → Prop} {contents : σ → List ρ} {key : ρ → κ}
  {r final : Reading σ κ ρ} {labels : List (ReadLabel ℓ)} {found rest : List ρ}

/-- After the rows found so far comes the first of the others. -/
theorem next_append (hSorted : (found ++ rest).Pairwise fun a b => key a < key b) :
    next key (found.getLast?.map key) (found ++ rest) = rest.head? := by
  obtain ⟨hFound, -, hLess⟩ := List.pairwise_append.mp hSorted
  have hAfter : ∀ row ∈ rest, After key (found.getLast?.map key) row := by
    intro row hRow k hKey
    obtain ⟨last, hLast, rfl⟩ := Option.map_eq_some_iff.mp hKey
    exact hLess last (List.mem_of_getLast? hLast) row hRow
  have hBefore : found.find? (fun row => After key (found.getLast?.map key) row) = none := by
    refine List.find?_eq_none.mpr fun row hRow => ?_
    obtain ⟨init, last, rfl⟩ := (List.eq_nil_or_concat' found).resolve_left
      (List.ne_nil_of_mem hRow)
    simp only [List.getLast?_append, List.getLast?_singleton, Option.some_or, Option.map_some,
      after_some_iff, decide_eq_true_eq]
    rcases List.mem_append.mp hRow with hInit | hLast
    · exact ((List.pairwise_append.mp hFound).2.2 row hInit last List.mem_cons_self).not_gt
    · rw [List.mem_singleton.mp hLast]
      exact lt_irrefl _
  rw [next, List.find?_append, hBefore, Option.none_or]
  cases rest with
  | nil => rfl
  | cons row rest => simp [hAfter row List.mem_cons_self]

/-- Every row that is read leaves fewer after the position. -/
theorem remaining_lt {position : Option κ} {rows : List ρ} {row : ρ}
    (hNext : next key position rows = some row) :
    (rows.filter fun other => After key (some (key row)) other).length <
      (rows.filter fun other => After key position other).length := by
  have hAfter := after_of_next hNext
  have hSame : (rows.filter fun other => After key (some (key row)) other) =
      (rows.filter fun other => After key position other).filter
        fun other => After key (some (key row)) other := by
    rw [List.filter_filter]
    refine List.filter_congr fun other _ => ?_
    rw [Bool.eq_iff_iff]
    simp only [Bool.and_eq_true, decide_eq_true_eq, after_some_iff]
    exact ⟨fun hLess => ⟨hLess, hAfter.of_lt hLess⟩, And.left⟩
  rw [hSame, List.length_filter_lt_length_iff_exists]
  exact ⟨row, List.mem_filter.mpr ⟨mem_of_next hNext, by simpa using hAfter⟩,
    by simp [after_some_iff]⟩

/-- What holds between two steps of a reading: it has found the rows up to its position,
and at its end all of them. -/
structure FoundSoFar (inv : σ → Prop) (contents : σ → List ρ) (key : ρ → κ)
    (r : Reading σ κ ρ) : Prop where
  store : inv r.store
  found : r.found <+: contents r.store
  position : r.position = r.found.getLast?.map key
  finished : r.finished = true → r.found = contents r.store

theorem ReadStep.foundSoFar {label : ReadLabel ℓ} (hAppends : Appends step inv contents key)
    (hSoFar : FoundSoFar inv contents key r) (hStep : ReadStep step contents key r label final) :
    FoundSoFar inv contents key final := by
  obtain ⟨rest, hRest⟩ := hSoFar.found
  have hNextIs : next key r.position (contents r.store) = rest.head? := by
    rw [hSoFar.position, ← hRest]
    apply next_append
    rw [hRest]
    exact hAppends.sorted _ hSoFar.store
  cases hStep with
  | @row row hOpen hNext =>
      obtain ⟨rest', rfl⟩ : ∃ rest', rest = row :: rest' := by
        rw [hNextIs] at hNext
        exact List.head?_eq_some_iff.mp hNext
      refine ⟨hSoFar.store, ⟨rest', ?_⟩, ?_, fun h => absurd h (by simp [hOpen])⟩
      · rw [List.append_assoc, List.singleton_append]
        exact hRest
      · simp
  | done hOpen hNext =>
      rw [hNextIs, List.head?_eq_none_iff] at hNext
      refine ⟨hSoFar.store, hSoFar.found, hSoFar.position, fun _ => ?_⟩
      show r.found = contents r.store
      rw [← hRest, hNext, List.append_nil]
  | store hOpen hStore =>
      exact ⟨hAppends.keep _ _ _ hSoFar.store hStore,
        hSoFar.found.trans (hAppends.extend _ _ _ hSoFar.store hStore), hSoFar.position,
        fun h => absurd h (by simp [hOpen])⟩

/-- A finished reading of a table that grows at its end has found the table as it is when
the reading ends. -/
theorem found_eq_contents {store : σ} (hAppends : Appends step inv contents key)
    (hInv : inv store) (hRun : Run (ReadStep step contents key) (.start store) labels final)
    (hFinished : final.finished = true) :
    inv final.store ∧ final.found = contents final.store := by
  have hStart : FoundSoFar inv contents key (Reading.start store) :=
    ⟨hInv, List.nil_prefix, rfl, fun h => by simp [Reading.start] at h⟩
  have hSoFar := hRun.stateInvariant (FoundSoFar inv contents key) hStart
    fun _ _ _ hSoFar hStep => hStep.foundSoFar hAppends hSoFar
  exact ⟨hSoFar.store, hSoFar.finished hFinished⟩

end Appends

end Cursor
end Foundation
end Yess
