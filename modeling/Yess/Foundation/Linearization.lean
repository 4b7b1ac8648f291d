import Mathlib.Data.List.Basic
import Mathlib.Logic.Function.Basic
import Yess.Foundation.Run

namespace Yess
namespace Foundation
namespace Linearization

/-!
# Calls that overlap

Any number of calls are under way at once.  A history of their invocations and answers
is linearizable if every call can be given one moment, between the two, at which it
takes effect, so that the effects one after the other are a run of a sequential
specification.  A crash ends the calls that are under way: what has not taken effect by
then never does.

`linearizable_of_run` is the rule for proving it.  `effects_in_order` is what it means for a
call that is invoked after another one has taken effect.  The module names nothing of the
modelled program.
-/

variable {σ τ ι ρ ℓ : Type}

/-- What is seen of calls from outside. -/
inductive CallEvent (ι ρ : Type) where
  | invoked (i : ι)
  | responded (i : ι) (reply : ρ)
  | crashed

/-- A step of the sequential specification. -/
inductive Point (ι ρ : Type) where
  | took (i : ι) (reply : ρ)
  | crashed

inductive Moment (ι ρ : Type) where
  | invoked (i : ι)
  | took (i : ι) (reply : ρ)
  | responded (i : ι) (reply : ρ)
  | crashed

namespace Moment

def event : Moment ι ρ → Option (CallEvent ι ρ)
  | invoked i => some (.invoked i)
  | took _ _ => none
  | responded i reply => some (.responded i reply)
  | crashed => some .crashed

def point : Moment ι ρ → Option (Point ι ρ)
  | invoked _ => none
  | took i reply => some (.took i reply)
  | responded _ _ => none
  | crashed => some .crashed

/-- The call that the moment belongs to. -/
def call : Moment ι ρ → Option ι
  | invoked i => some i
  | took i _ => some i
  | responded i _ => some i
  | crashed => none

end Moment

/-- The moment is one of those after the last crash. -/
def Since (moment : Moment ι ρ) (moments : List (Moment ι ρ)) : Prop :=
  ∃ before after, moments = before ++ moment :: after ∧ .crashed ∉ after

/-- What may come next: a call is invoked once, takes effect once while it is under way,
and is answered once with the reply of its effect. -/
def Allowed (moments : List (Moment ι ρ)) : Moment ι ρ → Prop
  | .invoked i => .invoked i ∉ moments
  | .took i _ => Since (.invoked i) moments ∧ ∀ reply, .took i reply ∉ moments
  | .responded i reply =>
      Since (.took i reply) moments ∧ ∀ reply, .responded i reply ∉ moments
  | .crashed => True

def Timeline (moments : List (Moment ι ρ)) : Prop :=
  ∀ before moment after, moments = before ++ moment :: after → Allowed before moment

/-- A history of calls agrees with a timeline whose effects are a run of the
specification. -/
def Linearizable (spec : σ → Point ι ρ → σ → Prop) (s : σ) (events : List (CallEvent ι ρ)) :
    Prop :=
  ∃ moments t, Timeline moments ∧ moments.filterMap Moment.event = events ∧
    Run spec s (moments.filterMap Moment.point) t

/-! ## Timelines -/

variable {moment : Moment ι ρ} {moments : List (Moment ι ρ)} {i j : ι} {reply reply' : ρ}

theorem Since.mem (hSince : Since moment moments) : moment ∈ moments := by
  obtain ⟨before, after, rfl, -⟩ := hSince
  simp

theorem Since.snoc {next : Moment ι ρ} (hSince : Since moment moments) (hNext : next ≠ .crashed) :
    Since moment (moments ++ [next]) := by
  obtain ⟨before, after, rfl, hNone⟩ := hSince
  refine ⟨before, after ++ [next], by simp, ?_⟩
  simp [hNone, Ne.symm hNext]

theorem since_last (moments : List (Moment ι ρ)) (moment : Moment ι ρ) :
    Since moment (moments ++ [moment]) :=
  ⟨moments, [], rfl, List.not_mem_nil⟩

theorem timeline_nil : Timeline ([] : List (Moment ι ρ)) := by
  intro before moment after hSplit
  simp at hSplit

theorem Timeline.snoc (hTimeline : Timeline moments) (hAllowed : Allowed moments moment) :
    Timeline (moments ++ [moment]) := by
  intro before other after hSplit
  rcases List.eq_nil_or_concat' after with rfl | ⟨init, last, rfl⟩
  · obtain ⟨rfl, hLast⟩ := List.append_inj' hSplit rfl
    rw [List.singleton_inj] at hLast
    rwa [← hLast]
  · rw [← List.cons_append, ← List.append_assoc] at hSplit
    exact hTimeline before other init (List.append_inj' hSplit rfl).1

/-- A call that took effect was invoked. -/
theorem Timeline.invoked_of_took (hTimeline : Timeline moments)
    (hTook : .took i reply ∈ moments) : .invoked i ∈ moments := by
  obtain ⟨before, after, rfl⟩ := List.append_of_mem hTook
  exact List.mem_append_left _ (hTimeline _ _ _ rfl).1.mem

/-- A call that was answered took effect. -/
theorem Timeline.took_of_responded (hTimeline : Timeline moments)
    (hResponded : .responded i reply ∈ moments) : .took i reply ∈ moments := by
  obtain ⟨before, after, rfl⟩ := List.append_of_mem hResponded
  exact List.mem_append_left _ (hTimeline _ _ _ rfl).1.mem

/-- A call takes effect after its invocation. -/
theorem Timeline.took_after {before after : List (Moment ι ρ)}
    (hTimeline : Timeline (before ++ .invoked j :: after))
    (hTook : .took j reply ∈ before ++ .invoked j :: after) : .took j reply ∈ after := by
  have hNot : .invoked j ∉ before := hTimeline _ _ _ rfl
  rcases List.mem_append.mp hTook with hMem | hMem
  · obtain ⟨first, rest, rfl⟩ := List.append_of_mem hMem
    have hAllowed : Allowed first (.took j reply) :=
      hTimeline first (.took j reply) (rest ++ .invoked j :: after) (by simp)
    exact absurd (List.mem_append_left _ hAllowed.1.mem) hNot
  · simpa using hMem

theorem invoked_mem (hMem : .invoked i ∈ moments.filterMap Moment.event) :
    .invoked i ∈ moments := by
  obtain ⟨moment, hMoment, hEvent⟩ := List.mem_filterMap.mp hMem
  cases moment <;> simp_all [Moment.event]

theorem responded_mem (hMem : .responded i reply ∈ moments.filterMap Moment.event) :
    .responded i reply ∈ moments := by
  obtain ⟨moment, hMoment, hEvent⟩ := List.mem_filterMap.mp hMem
  cases moment <;> simp_all [Moment.event]

/-- A call that is invoked late takes effect late. -/
theorem Timeline.took_in_rest {before after : List (Moment ι ρ)}
    (hTimeline : Timeline (before ++ after))
    (hInvoked : .invoked j ∈ after.filterMap Moment.event)
    (hResponded : .responded j reply ∈ after.filterMap Moment.event) : .took j reply ∈ after := by
  have hTook : .took j reply ∈ before ++ after :=
    hTimeline.took_of_responded (List.mem_append_right _ (responded_mem hResponded))
  obtain ⟨between, later, rfl⟩ := List.append_of_mem (invoked_mem hInvoked)
  rw [← List.append_assoc] at hTimeline hTook
  exact List.mem_append_right _ (List.mem_cons_of_mem _ (hTimeline.took_after hTook))

/-! ## The rule -/

/-- How far a call has come. -/
inductive CallPhase (ρ : Type) where
  | waiting
  | running
  | taken (reply : ρ)
  | finished

/-- A crash leaves the calls that were not yet invoked. -/
def CallPhase.afterCrash : CallPhase ρ → CallPhase ρ
  | waiting => waiting
  | _ => finished

inductive PhaseStep [DecidableEq ι] (phases : ι → CallPhase ρ) :
    Option (Moment ι ρ) → (ι → CallPhase ρ) → Prop
  | works : PhaseStep phases none phases
  | invoked {i : ι} (hPhase : phases i = .waiting) :
      PhaseStep phases (some (.invoked i)) (Function.update phases i .running)
  | took {i : ι} {reply : ρ} (hPhase : phases i = .running) :
      PhaseStep phases (some (.took i reply)) (Function.update phases i (.taken reply))
  | responded {i : ι} {reply : ρ} (hPhase : phases i = .taken reply) :
      PhaseStep phases (some (.responded i reply)) (Function.update phases i .finished)
  | crashed : PhaseStep phases (some .crashed) fun i => (phases i).afterCrash

/-- A step that is no moment of the specification leaves the state as it is. -/
def Advances (spec : σ → Point ι ρ → σ → Prop) (s : σ) : Option (Point ι ρ) → σ → Prop
  | none, t => t = s
  | some point, t => spec s point t

/-- What the phase of a call says about the moments so far. -/
def Agrees (moments : List (Moment ι ρ)) (i : ι) : CallPhase ρ → Prop
  | .waiting => .invoked i ∉ moments
  | .running => Since (.invoked i) moments ∧ ∀ reply, .took i reply ∉ moments
  | .taken reply => Since (.took i reply) moments ∧ ∀ reply, .responded i reply ∉ moments
  | .finished => True

/-- The moments of one call say nothing of another. -/
theorem Agrees.snoc {phase : CallPhase ρ} {next : Moment ι ρ} (hAgrees : Agrees moments i phase)
    (hCall : next.call = some j) (hNe : i ≠ j) : Agrees (moments ++ [next]) i phase := by
  have hNotCrashed : next ≠ .crashed := by
    rintro rfl
    simp [Moment.call] at hCall
  have hOther : ∀ moment : Moment ι ρ, moment.call = some i → moment ≠ next := by
    rintro moment hMoment rfl
    exact hNe (Option.some.inj (hMoment.symm.trans hCall))
  cases phase with
  | waiting =>
      have hInvoked := hOther (.invoked i) rfl
      simpa [Agrees, hInvoked] using hAgrees
  | running =>
      refine ⟨hAgrees.1.snoc hNotCrashed, fun reply => ?_⟩
      have hTook := hOther (.took i reply) rfl
      simpa [hTook] using hAgrees.2 reply
  | taken reply =>
      refine ⟨hAgrees.1.snoc hNotCrashed, fun reply => ?_⟩
      have hResponded := hOther (.responded i reply) rfl
      simpa [hResponded] using hAgrees.2 reply
  | finished => trivial

theorem Agrees.crash {phase : CallPhase ρ} (hAgrees : Agrees moments i phase) :
    Agrees (moments ++ [.crashed]) i phase.afterCrash := by
  cases phase with
  | waiting => simpa [Agrees, CallPhase.afterCrash] using hAgrees
  | _ => trivial

theorem PhaseStep.eq_of_works [DecidableEq ι] {phases phases' : ι → CallPhase ρ}
    (hStep : PhaseStep phases none phases') : phases' = phases := by
  generalize hNone : none = moment at hStep
  cases hStep with
  | works => rfl
  | _ => simp at hNone

/-- A step of the phases adds a moment that may come next. -/
theorem PhaseStep.snoc [DecidableEq ι] {phases phases' : ι → CallPhase ρ} {next : Moment ι ρ}
    (hTimeline : Timeline moments) (hAgrees : ∀ i, Agrees moments i (phases i))
    (hStep : PhaseStep phases (some next) phases') :
    Allowed moments next ∧ ∀ i, Agrees (moments ++ [next]) i (phases' i) := by
  cases hStep with
  | @invoked j hPhase =>
      have hNew : .invoked j ∉ moments := by
        have hAt := hAgrees j
        rwa [hPhase] at hAt
      refine ⟨hNew, fun i => ?_⟩
      by_cases hEq : i = j
      · subst hEq
        rw [Function.update_self]
        refine ⟨since_last _ _, fun reply hMem => hNew ?_⟩
        have hTook : .took i reply ∈ moments := by simpa using hMem
        exact hTimeline.invoked_of_took hTook
      · rw [Function.update_of_ne hEq]
        exact (hAgrees i).snoc rfl hEq
  | @took j reply hPhase =>
      have hRunning : Agrees moments j .running := by
        have hAt := hAgrees j
        rwa [hPhase] at hAt
      refine ⟨hRunning, fun i => ?_⟩
      by_cases hEq : i = j
      · subst hEq
        rw [Function.update_self]
        refine ⟨since_last _ _, fun reply' hMem => hRunning.2 reply' ?_⟩
        exact hTimeline.took_of_responded (by simpa using hMem)
      · rw [Function.update_of_ne hEq]
        exact (hAgrees i).snoc rfl hEq
  | @responded j reply hPhase =>
      have hTaken : Agrees moments j (.taken reply) := by
        have hAt := hAgrees j
        rwa [hPhase] at hAt
      refine ⟨hTaken, fun i => ?_⟩
      by_cases hEq : i = j
      · subst hEq
        rw [Function.update_self]
        trivial
      · rw [Function.update_of_ne hEq]
        exact (hAgrees i).snoc rfl hEq
  | crashed => exact ⟨trivial, fun i => (hAgrees i).crash⟩

section

variable [DecidableEq ι] {step : τ → ℓ → τ → Prop} {inv : τ → Prop}
  {moment : ℓ → Option (Moment ι ρ)} {phases : τ → ι → CallPhase ρ} {abs : τ → σ}
  {spec : σ → Point ι ρ → σ → Prop} {start final u v : τ} {labels : List ℓ}

/-- Every step of the implementation is a moment of its calls or none, and takes the calls
through their phases and the state through the specification. -/
def Simulates (step : τ → ℓ → τ → Prop) (inv : τ → Prop) (moment : ℓ → Option (Moment ι ρ))
    (phases : τ → ι → CallPhase ρ) (abs : τ → σ) (spec : σ → Point ι ρ → σ → Prop) : Prop :=
  ∀ t label u, inv t → step t label u → inv u ∧
    PhaseStep (phases t) (moment label) (phases u) ∧
    Advances spec (abs t) ((moment label).bind Moment.point) (abs u)

/-- From any state the effects are a run of the specification. -/
theorem Simulates.runs (hSimulates : Simulates step inv moment phases abs spec)
    (hInv : inv start) (hRun : Run step start labels final) :
    inv final ∧
      Run spec (abs start) ((labels.filterMap moment).filterMap Moment.point) (abs final) := by
  induction hRun with
  | refl => exact ⟨hInv, .refl⟩
  | @tail labels t u label _ hLast ih =>
      obtain ⟨hInv', hSpec⟩ := ih
      obtain ⟨hKept, -, hAdvances⟩ := hSimulates _ _ _ hInv' hLast
      refine ⟨hKept, ?_⟩
      rw [List.filterMap_append, List.filterMap_cons, List.filterMap_nil]
      cases hMoment : moment label with
      | none =>
          rw [hMoment] at hAdvances
          rw [show abs u = abs t from hAdvances]
          simpa using hSpec
      | some next =>
          rw [hMoment, Option.bind_some] at hAdvances
          rw [List.filterMap_append, List.filterMap_cons, List.filterMap_nil]
          cases hPoint : next.point with
          | none =>
              rw [hPoint] at hAdvances
              rw [show abs u = abs t from hAdvances, List.append_nil]
              exact hSpec
          | some point =>
              rw [hPoint] at hAdvances
              exact .tail hSpec hAdvances

/-- From a state in which no call was invoked, the moments are a timeline. -/
theorem Simulates.timeline (hSimulates : Simulates step inv moment phases abs spec)
    (hInv : inv start) (hWaiting : ∀ i, phases start i = .waiting)
    (hRun : Run step start labels final) : Timeline (labels.filterMap moment) := by
  suffices hSoFar : inv final ∧ Timeline (labels.filterMap moment) ∧
      ∀ i, Agrees (labels.filterMap moment) i (phases final i) from hSoFar.2.1
  induction hRun with
  | refl =>
      refine ⟨hInv, timeline_nil, fun i => ?_⟩
      rw [hWaiting i]
      exact List.not_mem_nil
  | @tail labels t u label _ hLast ih =>
      obtain ⟨hInv', hTimeline, hAgrees⟩ := ih
      obtain ⟨hKept, hPhase, -⟩ := hSimulates _ _ _ hInv' hLast
      refine ⟨hKept, ?_⟩
      rw [List.filterMap_append, List.filterMap_cons, List.filterMap_nil]
      cases hMoment : moment label with
      | none =>
          rw [hMoment] at hPhase
          rw [hPhase.eq_of_works]
          simp only [List.append_nil]
          exact ⟨hTimeline, hAgrees⟩
      | some next =>
          rw [hMoment] at hPhase
          obtain ⟨hAllowed, hAgrees'⟩ := hPhase.snoc hTimeline hAgrees
          exact ⟨hTimeline.snoc hAllowed, hAgrees'⟩

/-- Every run from a state in which no call was invoked is seen as a linearizable
history. -/
theorem linearizable_of_run (hSimulates : Simulates step inv moment phases abs spec)
    (hInv : inv start) (hWaiting : ∀ i, phases start i = .waiting)
    (hRun : Run step start labels final) :
    Linearizable spec (abs start) ((labels.filterMap moment).filterMap Moment.event) :=
  ⟨_, _, hSimulates.timeline hInv hWaiting hRun, rfl, (hSimulates.runs hInv hRun).2⟩

/-- A call that is invoked after another has taken effect takes effect after it: the
specification goes through the two states between which the first does, and from there to
the effect of the second. -/
theorem effects_in_order {before after : List ℓ} {label : ℓ} {reply' : ρ}
    (hSimulates : Simulates step inv moment phases abs spec) (hInv : inv start)
    (hWaiting : ∀ i, phases start i = .waiting) (hBefore : Run step start before u)
    (hTook : step u label v) (hMoment : moment label = some (.took i reply))
    (hAfter : Run step v after final)
    (hInvoked : .invoked j ∈ (after.filterMap moment).filterMap Moment.event)
    (hResponded : .responded j reply' ∈ (after.filterMap moment).filterMap Moment.event) :
    ∃ points s t, spec (abs u) (.took i reply) (abs v) ∧ Run spec (abs v) points s ∧
      spec s (.took j reply') t := by
  have hAll := hSimulates.timeline hInv hWaiting ((hBefore.tail hTook).append hAfter)
  rw [List.filterMap_append] at hAll
  have hLater : .took j reply' ∈ after.filterMap moment := hAll.took_in_rest hInvoked hResponded
  have hInvU := (hSimulates.runs hInv hBefore).1
  obtain ⟨hInvV, -, hAdvances⟩ := hSimulates _ _ _ hInvU hTook
  rw [hMoment] at hAdvances
  have hSpec := (hSimulates.runs hInvV hAfter).2
  obtain ⟨first, rest, hSplit⟩ := List.append_of_mem hLater
  rw [hSplit, List.filterMap_append, List.filterMap_cons, Moment.point] at hSpec
  obtain ⟨s, hFirst, hRest⟩ := hSpec.exists_of_append
  obtain ⟨t, hTook', -⟩ := hRest.exists_of_cons
  exact ⟨_, s, t, hAdvances, hFirst, hTook'⟩

end

end Linearization
end Foundation
end Yess
