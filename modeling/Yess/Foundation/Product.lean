import Yess.Foundation.Run

namespace Yess
namespace Foundation

/-!
# Systems that are made of two

A system whose state is combined of two states, and each of whose labels is a step of the
one part, of the other, or of both.  Its runs are then the pairs of runs of the parts,
each on the labels that concern it, in every order in which these can be merged
(`run_product_iff`).

The module names nothing of the modelled program.
-/

variable {σ α β ℓ : Type}

/-- A step of a part, where the label concerns it. -/
def PartStep (step : α → ℓ → α → Prop) (concerns : ℓ → Bool) (a : α) (label : ℓ) (a' : α) :
    Prop :=
  if concerns label = true then step a label a' else a' = a

/-- The steps of the whole are the steps of the two parts, as long as the invariants of the
parts hold. -/
structure IsProduct (step : σ → ℓ → σ → Prop) (first : α → ℓ → α → Prop)
    (second : β → ℓ → β → Prop) (left right : ℓ → Bool) (combine : α → β → σ)
    (inv : α → Prop) (inv' : β → Prop) : Prop where
  keep : ∀ a label a', inv a → first a label a' → inv a'
  keep' : ∀ b label b', inv' b → second b label b' → inv' b'
  step_iff : ∀ a b label t, inv a → inv' b → (step (combine a b) label t ↔
    ∃ a' b', PartStep first left a label a' ∧ PartStep second right b label b' ∧
      t = combine a' b')

section

variable {first : α → ℓ → α → Prop} {concerns : ℓ → Bool} {a a' a'' : α} {label : ℓ}
  {labels : List ℓ}

/-- A run of a part, and then a step of the whole. -/
theorem run_filter_tail (hRun : Run first a (labels.filter concerns) a')
    (hStep : PartStep first concerns a' label a'') :
    Run first a ((labels ++ [label]).filter concerns) a'' := by
  rw [List.filter_append]
  by_cases hConcerns : concerns label = true
  · rw [PartStep, if_pos hConcerns] at hStep
    rw [List.filter_cons_of_pos hConcerns, List.filter_nil]
    exact .tail hRun hStep
  · rw [PartStep, if_neg hConcerns] at hStep
    rw [List.filter_cons_of_neg hConcerns, List.filter_nil, List.append_nil, hStep]
    exact hRun

/-- The last step of the whole in a run of a part. -/
theorem exists_of_run_filter (hRun : Run first a ((labels ++ [label]).filter concerns) a'') :
    ∃ a', Run first a (labels.filter concerns) a' ∧ PartStep first concerns a' label a'' := by
  rw [List.filter_append] at hRun
  by_cases hConcerns : concerns label = true
  · rw [List.filter_cons_of_pos hConcerns, List.filter_nil] at hRun
    obtain ⟨a', hBefore, hLast⟩ := hRun.exists_of_append_single
    exact ⟨a', hBefore, by rwa [PartStep, if_pos hConcerns]⟩
  · rw [List.filter_cons_of_neg hConcerns, List.filter_nil, List.append_nil] at hRun
    exact ⟨a'', hRun, by rw [PartStep, if_neg hConcerns]⟩

end

/-- A run of the whole is a run of either part on the labels that concern it. -/
theorem run_product_iff {step : σ → ℓ → σ → Prop} {first : α → ℓ → α → Prop}
    {second : β → ℓ → β → Prop} {left right : ℓ → Bool} {combine : α → β → σ} {inv : α → Prop}
    {inv' : β → Prop} (hProduct : IsProduct step first second left right combine inv inv')
    {a : α} {b : β} (hInv : inv a) (hInv' : inv' b) {labels : List ℓ} {t : σ} :
    Run step (combine a b) labels t ↔
      ∃ a' b', Run first a (labels.filter left) a' ∧ Run second b (labels.filter right) b' ∧
        t = combine a' b' := by
  have hKept : ∀ {labels a'}, Run first a labels a' → inv a' := fun hRun =>
    hRun.stateInvariant inv hInv hProduct.keep
  have hKept' : ∀ {labels b'}, Run second b labels b' → inv' b' := fun hRun =>
    hRun.stateInvariant inv' hInv' hProduct.keep'
  constructor
  · intro hRun
    induction hRun with
    | refl => exact ⟨a, b, .refl, .refl, rfl⟩
    | @tail labels t u label _ hLast ih =>
        obtain ⟨a', b', hFirst, hSecond, rfl⟩ := ih
        obtain ⟨a'', b'', hStep, hStep', rfl⟩ :=
          (hProduct.step_iff a' b' label u (hKept hFirst) (hKept' hSecond)).mp hLast
        exact ⟨a'', b'', run_filter_tail hFirst hStep, run_filter_tail hSecond hStep', rfl⟩
  · rintro ⟨a'', b'', hFirst, hSecond, rfl⟩
    induction labels using List.reverseRecOn generalizing a'' b'' with
    | nil =>
        obtain rfl := hFirst.eq_of_nil
        obtain rfl := hSecond.eq_of_nil
        exact .refl
    | append_singleton labels label ih =>
        obtain ⟨a', hFirst', hStep⟩ := exists_of_run_filter hFirst
        obtain ⟨b', hSecond', hStep'⟩ := exists_of_run_filter hSecond
        refine .tail (ih a' b' hFirst' hSecond') ?_
        exact (hProduct.step_iff a' b' label _ (hKept hFirst') (hKept' hSecond')).mpr
          ⟨a'', b'', hStep, hStep', rfl⟩

end Foundation
end Yess
