import Yess.Ext.DukContext
import Yess.Ext.SampleEngine

namespace Yess
namespace Ext

open Foundation ValueStack Db

/-!
# Replay as a left fold

`fold` is what a projection means: the function applied to each event once, in
list order, each time to the state so far.  The code has two functions on its
stack, so it computes the fold for up to two events (`callFrom_eq_fold`) and has
the global object called by the third (`callFrom_ne_returned`).
-/

variable (J : JsonText) {E : Duktape} {fnName : String} {f : E.Val}
  {events : List Event} {state : Json}

namespace Replay

open DukContext

/-- The left fold of a function over a list of events. -/
def fold (f : E.Val) (events : List Event) (initState : Json) : Js E Json :=
  events.foldlM (applyFunction J f) initState

/-- The global object has the function under the name, as plain data. -/
def Defines (heap : E.Heap) (fnName : String) (f : E.Val) : Prop :=
  E.getProp heap E.globalObject (cStr fnName) = some ((true, f), heap)

theorem findFunction_of_defines {heap : E.Heap} (hDefines : Defines heap fnName f) :
    findFunction E.globalObject fnName heap = .returned f heap := by
  have hProp : Js.getProp E.globalObject (cStr fnName) heap = .returned (true, f) heap := by
    rw [Js.getProp, Js.ofOption, hDefines]
  rw [findFunction, Prog.bind_of_returned hProp]
  rfl

/-- With the function in place, a call is the events taken in turn by two copies of
it and the global object. -/
theorem callFrom_of_defines {heap : E.Heap} (hDefines : Defines heap fnName f) :
    callFrom J E.globalObject fnName events state heap =
      applyInTurn J [f, f, E.globalObject] (events.map cut) state heap := by
  unfold callFrom
  by_cases hNone : events.length = 0
  · rw [if_pos hNone]
    rw [List.length_eq_zero_iff] at hNone
    subst hNone
    rfl
  · rw [if_neg hNone, Prog.bind_of_returned (findFunction_of_defines hDefines),
      Prog.bind_of_returned (findFunction_of_defines hDefines)]

/-- As long as there are copies of the function, taking the events in turn is the
fold. -/
theorem applyInTurn_replicate (n : Nat) (others : List E.Val)
    (hLength : events.length ≤ n) :
    applyInTurn J (List.replicate n f ++ others) events state = fold J f events state := by
  induction events generalizing n state with
  | nil => exact applyInTurn_nil J _ _
  | cons event events ih =>
      cases n with
      | zero => simp at hLength
      | succ n =>
          rw [List.replicate_succ, List.cons_append, applyInTurn, fold, List.foldlM_cons]
          congr 1
          funext next
          exact ih n (by simpa using hLength)

/-- Up to two events, a call computes the fold over the events as C strings. -/
theorem callFrom_eq_fold {heap : E.Heap} (hDefines : Defines heap fnName f)
    (hLength : events.length ≤ 2) :
    callFrom J E.globalObject fnName events state heap =
      fold J f (events.map cut) state heap := by
  rw [callFrom_of_defines J hDefines]
  exact congrFun (applyInTurn_replicate J 2 [E.globalObject] (by simpa using hLength)) heap

/-- From three events on, a call does not return, whatever it finds. -/
theorem callFrom_ne_returned (slotZero : E.Val) (heap heap' : E.Heap) (result : Json)
    (hLength : 3 ≤ events.length) :
    callFrom J slotZero fnName events state heap ≠ .returned result heap' := by
  intro h
  -- Two functions lie above the global object, which is the third callee.
  rw [callFrom, if_neg (by omega)] at h
  obtain ⟨first, _, -, h⟩ := Prog.bind_eq_returned.mp h
  obtain ⟨second, _, -, h⟩ := Prog.bind_eq_returned.mp h
  have hTwo := @applyInTurn_length J E [second, first] _ _ _ _ _ h
  simp only [List.length_map, List.length_cons, List.length_nil] at hTwo
  omega

/-- What a play means: the source is evaluated, and the function that the global
object then has is folded over the events. -/
def play (source fnName : String) (events : List Event) (initState : Json) : Js E Json := do
  evalSource (cStr source)
  let f ← findFunction E.globalObject fnName
  fold J f (events.map cut) initState

/-- Up to two events, a play with the global object in slot 0 gives what it means,
where the source defines the function. -/
theorem playFrom_eq_play {source : String} {heap : E.Heap} (hLength : events.length ≤ 2)
    (hDefines : ∀ heap₁, evalSource (cStr source) heap = .returned () heap₁ →
      ∃ f, Defines heap₁ fnName f) :
    playFrom J E.globalObject source fnName events state heap =
      play J source fnName events state heap := by
  rw [playFrom, play]
  cases hSource : evalSource (cStr source) heap with
  | returned value heap₁ =>
      obtain ⟨f, hFunction⟩ := hDefines heap₁ hSource
      rw [Prog.bind_of_returned hSource, Prog.bind_of_returned hSource,
        Prog.bind_of_returned (findFunction_of_defines hFunction)]
      exact callFrom_eq_fold J hFunction hLength
  | threw error heap₁ => rw [Prog.bind_of_threw hSource, Prog.bind_of_threw hSource]
  | aborted => rw [Prog.bind_of_aborted hSource, Prog.bind_of_aborted hSource]

/-- A play that returns has at most two events. -/
theorem playFrom_length {slotZero : E.Val} {source : String} {result : Json}
    {heap heap' : E.Heap}
    (hReturned : playFrom J slotZero source fnName events state heap =
      .returned result heap') :
    events.length ≤ 2 := by
  by_contra hMany
  obtain ⟨_, heap₁, -, hCall⟩ := Prog.bind_eq_returned.mp hReturned
  exact callFrom_ne_returned J slotZero heap₁ heap' result (by omega) hCall

theorem evalSource_of_ok {source : String} {heap heap₁ : E.Heap} {v : E.Val}
    (hEval : E.eval heap (E.string source) = (.ok v, heap₁)) :
    evalSource source heap = .returned () heap₁ := by
  simp only [evalSource, Prog.bind_apply, Js.eval, Js.ofPair, hEval, Prog.pure_apply]

end Replay

namespace DukContext

open Replay

/-- On a fresh context the code does what it does on the heap. -/
theorem play_fresh (source fnName : String) (events : List Event) (state : Json) :
    Agrees [] id (fun _ => stackAfter events.length [])
      ((do read source; callProjection J fnName events state : DukProg E Json) (fresh E))
      (playFrom J E.globalObject source fnName events state E.defaultHeap) :=
  implements_play J [] source fnName events state (E.lt_reserve (by simp [apiEntryStack]))
    E.defaultHeap

/-- Take a source that evaluates on a fresh context and defines the function, and
events over which the fold is defined: the payloads are valid JSON and each call
returns a value with a JSON form.  Then `read` and `call_projection` return the
fold exactly when there are at most two events and the fold does not see that
strings are cut at a NUL.  With three events or more they never return. -/
theorem callProjection_returns_fold_iff {source : String} {heap₁ : E.Heap} {v : E.Val}
    (hEval : E.eval E.defaultHeap (E.string (cStr source)) = (.ok v, heap₁))
    (hDefines : Defines heap₁ fnName f)
    (hFold : (fold J f events state heap₁).value.isSome) :
    ((do read source; callProjection J fnName events state) (fresh E)).value =
        (fold J f events state heap₁).value ↔
      events.length ≤ 2 ∧
        (fold J f (events.map cut) state heap₁).value = (fold J f events state heap₁).value := by
  rw [(play_fresh J source fnName events state).value_eq, playFrom,
    Prog.bind_of_returned (evalSource_of_ok hEval)]
  constructor
  · intro hReturns
    have hLength : events.length ≤ 2 := by
      by_contra hMany
      rw [← hReturns, Option.isSome_iff_exists] at hFold
      obtain ⟨result, hResult⟩ := hFold
      obtain ⟨heap', hReturned⟩ := Outcome.value_eq_some_iff.mp hResult
      exact callFrom_ne_returned J _ _ _ _ (by omega) hReturned
    refine ⟨hLength, ?_⟩
    rwa [← callFrom_eq_fold J hDefines hLength]
  · rintro ⟨hLength, hValue⟩
    rwa [← callFrom_eq_fold J hDefines hLength] at hValue

/-- The global bindings after the counting source. -/
def countHeap : Sample.engine.Heap := [("projection", SampleVal.increment)]

def countFunction : Sample.engine.Val := SampleVal.increment

theorem countFunction_defined : Defines countHeap "projection" countFunction := rfl

theorem eval_countSource :
    Sample.engine.eval Sample.engine.defaultHeap
      (Sample.engine.string (cStr Sample.countSource)) =
        (.ok SampleVal.undefined, countHeap) := rfl

/-- Two events are counted. -/
theorem callProjection_counts_two :
    ((do
        read Sample.countSource
        callProjection Sample.jsonText "projection"
          [⟨1, 1, "UserCreated", "{}", 1⟩, ⟨2, 1, "UserCreated", "{}", 2⟩] (.integer 0))
      (fresh Sample.engine)).value = some (.integer 2) := by
  have hFold : (fold Sample.jsonText countFunction
      [⟨1, 1, "UserCreated", "{}", 1⟩, ⟨2, 1, "UserCreated", "{}", 2⟩] (.integer 0)
      countHeap).value = some (.integer 2) := rfl
  rw [← hFold]
  exact (callProjection_returns_fold_iff Sample.jsonText eval_countSource
    countFunction_defined (by rw [hFold]; rfl)).mpr ⟨by decide, rfl⟩

/-- Three events are not, although the fold over them is defined: the third one is
applied by the global object. -/
theorem callProjection_loses_third :
    (fold Sample.jsonText countFunction
        [⟨1, 1, "UserCreated", "{}", 1⟩, ⟨2, 1, "UserCreated", "{}", 2⟩,
          ⟨3, 1, "UserCreated", "{}", 3⟩] (.integer 0) countHeap).value =
      some (.integer 3) ∧
    ((do
        read Sample.countSource
        callProjection Sample.jsonText "projection"
          [⟨1, 1, "UserCreated", "{}", 1⟩, ⟨2, 1, "UserCreated", "{}", 2⟩,
            ⟨3, 1, "UserCreated", "{}", 3⟩] (.integer 0))
      (fresh Sample.engine)).result =
        some (.error (.runtimeError "TypeError: not callable")) := by
  refine ⟨rfl, ?_⟩
  rw [(play_fresh _ _ _ _ _).result_eq]
  rfl

end DukContext

end Ext
end Yess
