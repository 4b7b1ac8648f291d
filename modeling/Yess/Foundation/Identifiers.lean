import Yess.Foundation.Run
import Yess.Foundation.Sql

namespace Yess
namespace Foundation
namespace Identifiers

/-!
# Row ids over time

A table whose ids are handed out by `Sql.nextRowid` and given back when rows are
deleted.  At every instant the ids are distinct; over time an id can come back.
`removed_between` says what has to happen before it does, and `kept_or_putLater`
which row an id can lead to some time after it was handed out.

The module names nothing of the modelled program.
-/

variable {σ ℓ ρ : Type}

/-- What one step does to the rows of a table: it adds one under the next id or it takes
rows away. -/
inductive Change (idOf : ρ → Int) (before : List ρ) : List ρ → Prop
  | added (row : ρ) (hId : idOf row = Sql.nextRowid (before.map idOf)) :
      Change idOf before (before ++ [row])
  | removed {after : List ρ} (hRemoved : after.Sublist before) : Change idOf before after

/-- The ids that are in use. -/
def idsOf (rows : σ → List ρ) (idOf : ρ → Int) (s : σ) : List Int := (rows s).map idOf

section

variable (ids : σ → List Int)

/-- The step from `s` to `t` hands out the id. -/
def Assigns (id : Int) (s t : σ) : Prop := id ∉ ids s ∧ id ∈ ids t

/-- The step from `s` to `t` gives the id back. -/
def Removes (id : Int) (s t : σ) : Prop := id ∈ ids s ∧ id ∉ ids t

end

section

variable (step : σ → ℓ → σ → Prop) (rows : σ → List ρ)

/-- The row is in the table at the start and at every state on the way. -/
def Kept (row : ρ) (s : σ) (labels : List ℓ) (t : σ) : Prop :=
  row ∈ rows s ∧ Run (StepWith step fun _ _ v => row ∈ rows v) s labels t

/-- On the way a step that deletes gives the id of the row back; a later one puts the row
under it into the table, where it is kept. -/
def PutLater (idOf : ρ → Int) (deletes : ℓ → Prop) (row : ρ) (s : σ) (labels : List ℓ) (t : σ) :
    Prop :=
  ∃ before removal between creation after u v w x,
    labels = before ++ removal :: (between ++ creation :: after) ∧
      Run step s before u ∧ step u removal v ∧ deletes removal ∧
        Removes (idsOf rows idOf) (idOf row) u v ∧
          Run step v between w ∧ step w creation x ∧
            Assigns (idsOf rows idOf) (idOf row) w x ∧ Kept step rows row x after t

end

variable {step : σ → ℓ → σ → Prop} {ids : σ → List Int} {rows : σ → List ρ} {idOf : ρ → Int}
  {s t u v : σ} {labels : List ℓ} {id : Int}

/-- A row that a step adds has an id that was free. -/
theorem Change.mem_or_free {before after : List ρ} {row : ρ} (hChange : Change idOf before after)
    (hRow : row ∈ after) : row ∈ before ∨ idOf row ∉ before.map idOf := by
  cases hChange with
  | added new hId =>
      rcases List.mem_append.mp hRow with hOld | hNew
      · exact Or.inl hOld
      · right
        rw [List.mem_singleton.mp hNew, hId]
        exact Sql.nextRowid_not_mem _
  | removed hRemoved => exact Or.inl (hRemoved.subset hRow)

/-- An id that is handed out is larger than all in use. -/
theorem Assigns.newest (hAssigns : Assigns (idsOf rows idOf) id s t)
    (hChange : Change idOf (rows s) (rows t)) : ∀ other ∈ idsOf rows idOf s, other < id := by
  obtain ⟨hNew, hMem⟩ := hAssigns
  obtain ⟨row, hRow, rfl⟩ := List.mem_map.mp hMem
  intro other hOther
  generalize rows t = after at hChange hRow
  cases hChange with
  | added new hId =>
      rcases List.mem_append.mp hRow with hOld | hLast
      · exact absurd (List.mem_map_of_mem hOld) hNew
      · rw [List.mem_singleton.mp hLast, hId]
        exact Sql.lt_nextRowid hOther
  | removed hRemoved => exact absurd (List.mem_map_of_mem (hRemoved.subset hRow)) hNew

/-- Before an id that is in use is handed out again, there is a step that gives it back. -/
theorem removed_between (hRun : Run step s labels t) (hId : id ∈ ids s)
    (hAgain : Assigns ids id t u) :
    ∃ before removal after u v, labels = before ++ removal :: after ∧
      Run step s before u ∧ step u removal v ∧ Removes ids id u v ∧ Run step v after t := by
  rcases hRun.all_or_first fun _ _ v => id ∈ ids v with
    hAll | ⟨before, removal, after, u, v, hLabels, hBefore, hStep, hGone, hAfter⟩
  · exact absurd (hAll.holds_at_end (fun v => id ∈ ids v) hId) hAgain.1
  · have hIn : id ∈ ids u := hBefore.holds_at_end (fun v => id ∈ ids v) hId
    exact ⟨before, removal, after, u, v, hLabels, hBefore.forget, hStep, ⟨hIn, hGone⟩, hAfter⟩

/-- A row whose id was in use at the start of a run is one of that time, or it was put
under the id on the way, after a step that deletes had given it back. -/
theorem kept_or_putLater (inv : σ → Prop) (deletes : ℓ → Prop) {row : ρ}
    (hRun : Run step s labels t) (hStart : inv s)
    (hKeep : ∀ s label t, inv s → step s label t → inv t)
    (hChange : ∀ s label t, inv s → step s label t → Change idOf (rows s) (rows t))
    (hDeletes : ∀ s label t id, inv s → step s label t → Removes (idsOf rows idOf) id s t →
      deletes label)
    (hId : idOf row ∈ idsOf rows idOf s) (hRow : row ∈ rows t) :
    Kept step rows row s labels t ∨ PutLater step rows idOf deletes row s labels t := by
  induction hRun with
  | refl => exact Or.inl ⟨hRow, .refl⟩
  | @tail labels t u label hBefore hLast ih =>
      have hInv := hBefore.stateInvariant inv hStart hKeep
      rcases (hChange _ _ _ hInv hLast).mem_or_free hRow with hOld | hFree
      · rcases ih hOld with ⟨hFirst, hKept⟩ |
          ⟨before, removal, between, creation, after, u', v, w, x, rfl, hBefore', hRemoval,
            hDelete, hRemoves, hBetween, hCreation, hAssigns, hFirst, hKept⟩
        · exact Or.inl ⟨hFirst, hKept.tail ⟨hLast, hRow⟩⟩
        · exact Or.inr ⟨before, removal, between, creation, after ++ [label], u', v, w, x,
            by simp, hBefore', hRemoval, hDelete, hRemoves, hBetween, hCreation, hAssigns, hFirst,
            hKept.tail ⟨hLast, hRow⟩⟩
      · -- The last step puts the row under an id that has become free on the way.
        have hAssigns : Assigns (idsOf rows idOf) (idOf row) t u :=
          ⟨hFree, List.mem_map_of_mem hRow⟩
        obtain ⟨before, removal, between, u', v, rfl, hBefore', hRemoval, hRemoves, hBetween⟩ :=
          removed_between hBefore hId hAssigns
        have hDelete := hDeletes u' removal v _ (hBefore'.stateInvariant inv hStart hKeep) hRemoval
          hRemoves
        exact Or.inr ⟨before, removal, between, label, [], u', v, t, u, by simp, hBefore',
          hRemoval, hDelete, hRemoves, hBetween, hLast, hAssigns, hRow, .refl⟩

/-- Ids are counted from `1` on, so that none is larger than the number of steps that
could hand one out. -/
theorem bounds_of_run (inv : σ → Prop) (hands : ℓ → Bool) (hRun : Run step s labels t)
    (hStart : inv s) (hEmpty : idsOf rows idOf s = [])
    (hKeep : ∀ s label t, inv s → step s label t → inv t)
    (hChange : ∀ s label t, inv s → step s label t → Change idOf (rows s) (rows t))
    (hOthers : ∀ s label t, inv s → step s label t → hands label = false →
      idsOf rows idOf t ⊆ idsOf rows idOf s) :
    ∀ id ∈ idsOf rows idOf t, 0 < id ∧ id ≤ labels.countP hands := by
  induction hRun with
  | refl => simp [hEmpty]
  | @tail labels t u label hBefore hLast ih =>
      have hInv := hBefore.stateInvariant inv hStart hKeep
      have hStep := hChange _ _ _ hInv hLast
      rw [List.countP_append, List.countP_singleton]
      cases hHands : hands label with
      | false =>
          intro id hId
          have hOld := ih id (hOthers _ _ _ hInv hLast hHands hId)
          simpa using hOld
      | true =>
          rw [if_pos rfl]
          push_cast
          intro id hId
          obtain ⟨row, hRow, rfl⟩ := List.mem_map.mp hId
          generalize rows u = after at hStep hRow
          cases hStep with
          | added new hNewId =>
              rcases List.mem_append.mp hRow with hOld | hNew
              · have hBounds := ih _ (List.mem_map_of_mem hOld)
                omega
              · rw [List.mem_singleton.mp hNew, hNewId]
                exact Sql.nextRowid_bounds (Int.natCast_nonneg _) ih
          | removed hRemoved =>
              have hBounds := ih _ (List.mem_map_of_mem (hRemoved.subset hRow))
              omega

end Identifiers
end Foundation
end Yess
