import Mathlib.Data.List.Induction

namespace Yess
namespace Foundation

/-!
# Labelled runs

A run of a labelled step relation, with the list of its labels in the order in
which the steps were taken.  The rules below carry an invariant along a run,
carry a property from every step to the whole run, and map a run of one system
to a run of another.

The module names nothing of the modelled program.
-/

variable {σ τ ℓ μ : Type}

/-- `Run step s labels t`: the steps `labels` lead from `s` to `t`. -/
inductive Run (step : σ → ℓ → σ → Prop) (s : σ) : List ℓ → σ → Prop
  | refl : Run step s [] s
  | tail {labels : List ℓ} {t u : σ} {label : ℓ} :
      Run step s labels t → step t label u → Run step s (labels ++ [label]) u

/-- The steps of a run that in addition satisfy `property`. -/
def StepWith (step property : σ → ℓ → σ → Prop) (s : σ) (label : ℓ) (t : σ) : Prop :=
  step s label t ∧ property s label t

/-- The steps of a system, each with whether it has the property. -/
def Marked (step property : σ → ℓ → σ → Prop) (s : σ) (label : ℓ × Bool) (t : σ) : Prop :=
  step s label.1 t ∧ (label.2 = true ↔ property s label.1 t)

namespace Run

variable {step property condition : σ → ℓ → σ → Prop} {s t u : σ}
  {labels : List ℓ} {label : ℓ}

/-- A fact about the labels so far and the state reached, kept by each step,
holds at the end of every run. -/
theorem invariant (inv : List ℓ → σ → Prop) (hRun : Run step s labels t)
    (hStart : inv [] s)
    (hStep : ∀ labels t label u, inv labels t → step t label u →
      inv (labels ++ [label]) u) :
    inv labels t := by
  induction hRun with
  | refl => exact hStart
  | tail _ hLast ih => exact hStep _ _ _ _ ih hLast

/-- The special case of an invariant of the state alone. -/
theorem stateInvariant (inv : σ → Prop) (hRun : Run step s labels t)
    (hStart : inv s) (hStep : ∀ t label u, inv t → step t label u → inv u) :
    inv t :=
  hRun.invariant (fun _ t => inv t) hStart
    fun _ t label u hInv hLast => hStep t label u hInv hLast

theorem mono {step' : σ → ℓ → σ → Prop} (hRun : Run step s labels t)
    (hStep : ∀ s label t, step s label t → step' s label t) :
    Run step' s labels t := by
  induction hRun with
  | refl => exact .refl
  | tail _ hLast ih => exact .tail ih (hStep _ _ _ hLast)

/-- Drop what a run knows about its steps in addition. -/
theorem forget (hRun : Run (StepWith step property) s labels t) :
    Run step s labels t :=
  hRun.mono fun _ _ _ h => h.1

theorem single (hStep : step s label t) : Run step s [label] t :=
  Run.tail .refl hStep

/-- A step before a run. -/
theorem head (hStep : step s label t) (hRun : Run step t labels u) :
    Run step s (label :: labels) u := by
  induction hRun with
  | refl => exact single hStep
  | tail _ hLast ih => exact .tail ih hLast

/-- One run after another. -/
theorem append {more : List ℓ} (hRun : Run step s labels t) (hMore : Run step t more u) :
    Run step s (labels ++ more) u := by
  induction hMore with
  | refl => rwa [List.append_nil]
  | tail _ hLast ih =>
      rw [← List.append_assoc]
      exact .tail ih hLast

/-- The last step of a run. -/
theorem exists_of_append_single (hRun : Run step s (labels ++ [label]) u) :
    ∃ t, Run step s labels t ∧ step t label u := by
  generalize hLabels : labels ++ [label] = all at hRun
  cases hRun with
  | refl => simp at hLabels
  | tail hPrefix hLast =>
      obtain ⟨hInit, hLabel⟩ := List.append_inj' hLabels rfl
      rw [List.singleton_inj] at hLabel
      subst hInit hLabel
      exact ⟨_, hPrefix, hLast⟩

/-- A run over a concatenation passes through a state between the two parts. -/
theorem exists_of_append {more : List ℓ} (hRun : Run step s (labels ++ more) u) :
    ∃ t, Run step s labels t ∧ Run step t more u := by
  induction more using List.reverseRecOn generalizing u with
  | nil => exact ⟨u, by simpa using hRun, .refl⟩
  | append_singleton more label ih =>
      rw [← List.append_assoc] at hRun
      obtain ⟨v, hPrefix, hLast⟩ := hRun.exists_of_append_single
      obtain ⟨t, hFirst, hSecond⟩ := ih hPrefix
      exact ⟨t, hFirst, .tail hSecond hLast⟩

theorem eq_of_nil (hRun : Run step s [] t) : t = s := by
  generalize hLabels : [] = labels at hRun
  cases hRun with
  | refl => rfl
  | tail _ _ => simp at hLabels

/-- The first step of a run. -/
theorem exists_of_cons (hRun : Run step s (label :: labels) u) :
    ∃ t, step s label t ∧ Run step t labels u := by
  obtain ⟨t, hFirst, hRest⟩ := exists_of_append (show Run step s ([label] ++ labels) u from hRun)
  obtain ⟨v, hNone, hStep⟩ := exists_of_append_single (show Run step s ([] ++ [label]) t from hFirst)
  rw [hNone.eq_of_nil] at hStep
  exact ⟨t, hStep, hRest⟩

/-- Either every step of a run has a property, or there is a first one without
it. -/
theorem all_or_first (property : σ → ℓ → σ → Prop) (hRun : Run step s labels t) :
    Run (StepWith step property) s labels t ∨
      ∃ before label after u v, labels = before ++ label :: after ∧
        Run (StepWith step property) s before u ∧ step u label v ∧
          ¬property u label v ∧ Run step v after t := by
  induction hRun with
  | refl => exact Or.inl .refl
  | @tail labels t w label _ hLast ih =>
      rcases ih with hAll | ⟨before, first, after, u, v, rfl, hBefore, hStep, hNot, hAfter⟩
      · by_cases hProperty : property t label w
        · exact Or.inl (.tail hAll ⟨hLast, hProperty⟩)
        · exact Or.inr ⟨labels, label, [], t, w, rfl, hAll, hLast, hProperty, .refl⟩
      · refine Or.inr ⟨before, first, after ++ [label], u, v, ?_, hBefore, hStep, hNot,
          .tail hAfter hLast⟩
        rw [List.append_assoc, List.cons_append]

/-- What holds at the start and after every step holds at the end. -/
theorem holds_at_end (holds : σ → Prop)
    (hRun : Run (StepWith step fun _ _ v => holds v) s labels t) (hStart : holds s) :
    holds t := by
  cases hRun with
  | refl => exact hStart
  | tail _ hLast => exact hLast.2

/-- A property of single steps that is equivalent to a condition on them, in
states where an invariant holds which the property keeps: a run satisfies the
property at each of its steps exactly when it satisfies the condition at each. -/
theorem stepWith_iff (inv : σ → Prop) (hStart : inv s)
    (hIff : ∀ s label t, inv s → step s label t →
      (property s label t ↔ condition s label t))
    (hKeep : ∀ s label t, inv s → step s label t → property s label t → inv t) :
    Run (StepWith step property) s labels t ↔
      Run (StepWith step condition) s labels t := by
  constructor
  · intro hRun
    -- The invariant is needed at every state on the way, so it goes into the induction.
    have hBoth : inv t ∧ Run (StepWith step condition) s labels t := by
      induction hRun with
      | refl => exact ⟨hStart, .refl⟩
      | tail _ hLast ih =>
          exact ⟨hKeep _ _ _ ih.1 hLast.1 hLast.2,
            .tail ih.2 ⟨hLast.1, (hIff _ _ _ ih.1 hLast.1).mp hLast.2⟩⟩
    exact hBoth.2
  · intro hRun
    have hBoth : inv t ∧ Run (StepWith step property) s labels t := by
      induction hRun with
      | refl => exact ⟨hStart, .refl⟩
      | tail _ hLast ih =>
          have hProperty := (hIff _ _ _ ih.1 hLast.1).mpr hLast.2
          exact ⟨hKeep _ _ _ ih.1 hLast.1 hProperty,
            .tail ih.2 ⟨hLast.1, hProperty⟩⟩
    exact hBoth.2

/-- Forward simulation.  Every step of the concrete system is one step of the
abstract one, or none where `observe` gives no abstract label. -/
theorem simulates {absStep : τ → μ → τ → Prop} (related : σ → τ → Prop)
    (observe : ℓ → Option μ) {a : τ} (hRun : Run step s labels t)
    (hStart : related s a)
    (hStep : ∀ s a label t, related s a → step s label t →
      match observe label with
      | some seen => ∃ b, absStep a seen b ∧ related t b
      | none => related t a) :
    ∃ b, Run absStep a (labels.filterMap observe) b ∧ related t b := by
  induction hRun with
  | refl => exact ⟨a, .refl, hStart⟩
  | @tail labels t u label _ hLast ih =>
      obtain ⟨b, hAbs, hRelated⟩ := ih
      have hNext := hStep t b label u hRelated hLast
      rw [List.filterMap_append]
      cases hSeen : observe label with
      -- A step without an abstract label is matched by standing still.
      | none =>
          rw [hSeen] at hNext
          exact ⟨b, by simpa [hSeen] using hAbs, hNext⟩
      | some seen =>
          rw [hSeen] at hNext
          obtain ⟨c, hAbsStep, hRelated'⟩ := hNext
          exact ⟨c, by simpa [hSeen] using Run.tail hAbs hAbsStep, hRelated'⟩

/-- A map of states and labels that takes steps to steps takes runs to runs. -/
theorem map {step' : τ → μ → τ → Prop} (f : σ → τ) (g : ℓ → μ)
    (hRun : Run step s labels t)
    (hStep : ∀ s label t, step s label t → step' (f s) (g label) (f t)) :
    Run step' (f s) (labels.map g) (f t) := by
  induction hRun with
  | refl => exact .refl
  | tail _ hLast ih =>
      rw [List.map_append]
      exact .tail ih (hStep _ _ _ hLast)

/-- Replay.  Where every step changes a reading of the run as what is observed of its label
says, the reading at the end is the fold of all that was observed. -/
theorem read_eq_foldl {β : Type} (inv : σ → Prop) (read : List ℓ → σ → β) (next : β → μ → β)
    (observe : ℓ → Option μ) (hRun : Run step s labels t) (hStart : inv s)
    (hKeep : ∀ t label u, inv t → step t label u → inv u)
    (hStep : ∀ labels t label u, inv t → step t label u →
      read (labels ++ [label]) u =
        (observe label).elim (read labels t) (next (read labels t))) :
    read labels t = (labels.filterMap observe).foldl next (read [] s) := by
  induction hRun with
  | refl => rfl
  | @tail labels t u label hBefore hLast ih =>
      rw [hStep labels t label u (hBefore.stateInvariant inv hStart hKeep) hLast,
        List.filterMap_append, List.foldl_append, ← ih]
      cases hSeen : observe label with
      | none => simp [hSeen]
      | some seen => simp [hSeen]

/-- A measure that no step lowers and every marked step raises counts the marked
steps. -/
theorem marked_le {marks : List (ℓ × Bool)} (measure : σ → Nat)
    (hRun : Run (Marked step property) s marks t)
    (hKeep : ∀ s label t, step s label t → measure s ≤ measure t)
    (hRaise : ∀ s label t, step s label t → property s label t → measure s < measure t) :
    measure s + marks.countP (·.2) ≤ measure t := by
  induction hRun with
  | refl => simp
  | @tail marks t u mark _ hLast ih =>
      obtain ⟨hStep, hMark⟩ := hLast
      rw [List.countP_append, List.countP_singleton]
      by_cases hProperty : property t mark.1 u
      · rw [if_pos (hMark.mpr hProperty)]
        have hLess := hRaise t mark.1 u hStep hProperty
        omega
      · rw [if_neg fun h => hProperty (hMark.mp h)]
        have hLe := hKeep t mark.1 u hStep
        omega

end Run

end Foundation
end Yess
