import Yess.Ext.DukContext
import Yess.Foundation.StackBound

namespace Yess
namespace Ext

open Foundation ValueStack Db

/-!
# A play on a stack that is nearly full

No play leaves more values on the stack than the API reserves (`keepsBound_play`).  On
a stack without room for an event object, a play that comes back has not applied any
event, and has left something behind (`play_of_narrow`); on a full one it does not come
back (`play_of_full`).
-/

variable (J : JsonText) {E : Duktape} {α : Type}

/-! ## Within the reserve -/

section

theorem keepsBound_valueAt (index : Int) :
    KeepsBound E.reserve (valueAt index : DukProg E E.Val) := by
  apply keepsBound_of_state
  intro c c' hState
  unfold valueAt at hState
  cases hSlot : slot c.stack index with
  | none => simp [hSlot] at hState
  | some v =>
      rw [hSlot] at hState
      rw [← Option.some.inj hState]

theorem keepsBound_isValidIndex (index : Int) :
    KeepsBound E.reserve (isValidIndex index : DukProg E Bool) := by
  apply keepsBound_of_state
  intro c c' hState
  rw [← Option.some.inj hState]

theorem keepsBound_onHeap (p : Js E α) : KeepsBound E.reserve (onHeap p) :=
  keepsBound_zoom p

theorem keepsBound_pushObject : KeepsBound E.reserve (pushObject : DukProg E Int) :=
  keepsBound_get.bind fun _ => (keepsBound_onHeap _).bind fun obj =>
    (keepsBound_push obj).bind fun _ => keepsBound_pure _

theorem keepsBound_getPropString (index : Int) (key : String) :
    KeepsBound E.reserve (getPropString index key : DukProg E Bool) :=
  (keepsBound_valueAt index).bind fun _ => (keepsBound_onHeap _).bind fun property =>
    (keepsBound_push property.2).bind fun _ => keepsBound_pure _

theorem keepsBound_putPropString (index : Int) (key : String) :
    KeepsBound E.reserve (putPropString index key : DukProg E Unit) :=
  (keepsBound_valueAt (-1)).bind fun _ => (keepsBound_valueAt index).bind fun _ =>
    (keepsBound_onHeap _).bind fun _ => keepsBound_pop

theorem keepsBound_replaceTop {β : Type} (operation : E.Val → Js E α) (left : α → E.Val)
    (returned : α → β) : KeepsBound E.reserve (replaceTop operation left returned) :=
  (keepsBound_valueAt (-1)).bind fun _ => (keepsBound_onHeap _).bind fun result =>
    keepsBound_pop.bind fun _ => (keepsBound_push (left result)).bind fun _ => keepsBound_pure _

theorem keepsBound_pcall₂ : KeepsBound E.reserve (pcall₂ : DukProg E Bool) := by
  refine (keepsBound_valueAt (-3)).bind fun callee => ?_
  refine (keepsBound_valueAt (-2)).bind fun first => ?_
  refine (keepsBound_valueAt (-1)).bind fun second => ?_
  refine (keepsBound_onHeap _).bind fun outcome => ?_
  refine keepsBound_pop.bind fun _ => keepsBound_pop.bind fun _ => keepsBound_pop.bind fun _ => ?_
  exact (keepsBound_push _).bind fun _ => keepsBound_pure _

namespace DukContext

theorem keepsBound_throwErrorStack :
    KeepsBound E.reserve (throwErrorStack : DukProg E α) :=
  (keepsBound_getPropString (-1) "stack").bind fun _ =>
    (keepsBound_replaceTop _ _ _).bind fun _ => keepsBound_throw _

theorem keepsBound_read (body : String) : KeepsBound E.reserve (read body : DukProg E Unit) := by
  refine (keepsBound_push _).bind fun _ => (keepsBound_replaceTop _ _ _).bind fun evaluated => ?_
  cases evaluated with
  | true => exact keepsBound_pop.bind fun _ => keepsBound_push _
  | false => exact keepsBound_throwErrorStack

theorem keepsBound_applyEvent (state : Json) (event : Event) :
    KeepsBound E.reserve (applyEvent J state event : DukProg E Json) := by
  have hDecode : KeepsBound E.reserve (jsonDecode : DukProg E Unit) :=
    keepsBound_replaceTop _ _ _
  refine keepsBound_pushObject.bind fun evIdx => ?_
  refine (keepsBound_push _).bind fun _ => (keepsBound_putPropString evIdx "id").bind fun _ => ?_
  refine (keepsBound_push _).bind fun _ => hDecode.bind fun _ => ?_
  refine (keepsBound_putPropString evIdx "payload").bind fun _ => ?_
  refine (keepsBound_push _).bind fun _ =>
    (keepsBound_putPropString evIdx "version").bind fun _ => ?_
  refine (keepsBound_push _).bind fun _ =>
    (keepsBound_putPropString evIdx "streamId").bind fun _ => ?_
  refine (keepsBound_push _).bind fun _ => (keepsBound_putPropString evIdx "type").bind fun _ => ?_
  refine (keepsBound_push _).bind fun _ => hDecode.bind fun _ => ?_
  refine keepsBound_pcall₂.bind fun returned => ?_
  cases returned with
  | false => exact keepsBound_throwErrorStack
  | true =>
      refine (keepsBound_replaceTop _ _ _).bind fun text => ?_
      refine (keepsBound_ofExcept _).bind fun json => (keepsBound_ofExcept _).bind fun state' => ?_
      exact keepsBound_pop.bind fun _ => keepsBound_pure _

theorem keepsBound_pushFunction (objIdx : Int) (fnName : String) :
    KeepsBound E.reserve (pushFunction objIdx fnName : DukProg E Unit) :=
  (keepsBound_getPropString objIdx _).bind fun _ => keepsBound_ofExcept _

theorem keepsBound_callProjection (fnName : String) (events : List Event) (initState : Json) :
    KeepsBound E.reserve (callProjection J fnName events initState : DukProg E Json) := by
  unfold callProjection
  by_cases hNone : events.length = 0
  · rw [if_pos hNone]
    exact keepsBound_pure initState
  · rw [if_neg hNone]
    refine (keepsBound_isValidIndex 0).bind fun _ => (keepsBound_ofExcept _).bind fun _ => ?_
    refine (keepsBound_pushFunction 0 fnName).bind fun _ =>
      (keepsBound_pushFunction 0 fnName).bind fun _ => ?_
    refine (keepsBound_foldlM (keepsBound_applyEvent J) events initState).bind fun state => ?_
    exact keepsBound_pop.bind fun _ => keepsBound_pure state

/-- A play leaves no more values than the reserve holds. -/
theorem keepsBound_play (source fnName : String) (events : List Event) (initState : Json) :
    KeepsBound E.reserve (do
      read source
      callProjection J fnName events initState : DukProg E Json) :=
  (keepsBound_read source).bind fun _ => keepsBound_callProjection J fnName events initState

end DukContext

end

/-! ## With little room -/

namespace Replay

open DukContext

variable {rest : List E.Val}

/-- What can come of a play on a stack without room for an event object. -/
inductive NarrowOutcome (rest : List E.Val) (events : List Event) (initState : Json) :
    Outcome Exn (Context E) Json → Prop
  | returned (heap : E.Heap) (hNone : events = []) :
      NarrowOutcome rest events initState (.returned initState ⟨heap, E.globalObject :: rest⟩)
  | threw (error : Exn) (heap : E.Heap) (residue : List E.Val) (hResidue : residue ≠ []) :
      NarrowOutcome rest events initState (.threw error ⟨heap, residue ++ rest⟩)
  | aborted : NarrowOutcome rest events initState .aborted

theorem narrow_throwErrorStack (error : E.Val) (heap : E.Heap) (events : List Event)
    (initState : Json) (k : Unit → DukProg E Json) :
    NarrowOutcome rest events initState ((throwErrorStack >>= k) ⟨heap, error :: rest⟩) := by
  by_cases hRoom : rest.length + 1 < E.reserve
  · have hAgrees := @implements_throwErrorStack E Unit rest error id (fun _ => rest) hRoom heap
    generalize hCode : (throwErrorStack : DukProg E Unit) ⟨heap, error :: rest⟩ = outcome at hAgrees
    generalize (reportError error : Js E Unit) heap = outcome' at hAgrees
    cases hAgrees with
    | returned a heap' => exact absurd hCode throwErrorStack_ne_returned
    | threw error heap' residue hResidue =>
        rw [Prog.bind_of_threw hCode]
        exact .threw error heap' residue hResidue
    | aborted =>
        rw [Prog.bind_of_aborted hCode]
        exact .aborted
  · have hFull : getPropString (-1) "stack" (⟨heap, error :: rest⟩ : Context E) = .aborted :=
      getPropString_of_full hRoom
    have hThrow : (throwErrorStack : DukProg E Unit) ⟨heap, error :: rest⟩ = .aborted :=
      Prog.bind_of_aborted hFull
    rw [Prog.bind_of_aborted hThrow]
    exact .aborted

/-- Pushing a function, and then something that can only end in these ways. -/
theorem narrow_pushFunction {fnName : String} {events : List Event} {initState : Json}
    {heap : E.Heap} {own : List E.Val} {obj : E.Val} {next : DukProg E Json}
    (hSlot : slot (own ++ rest) 0 = some obj)
    (hNext : ∀ v heap', NarrowOutcome rest events initState (next ⟨heap', v :: (own ++ rest)⟩)) :
    NarrowOutcome rest events initState
      ((do pushFunction 0 fnName; next : DukProg E Json) ⟨heap, own ++ rest⟩) := by
  by_cases hRoom : (own ++ rest).length < E.reserve
  · have hAgrees := implements_pushFunction own fnName rfl hSlot hRoom heap
    generalize hCode : pushFunction 0 fnName (⟨heap, own ++ rest⟩ : Context E) = outcome
      at hAgrees
    generalize findFunction obj fnName heap = outcome' at hAgrees
    cases hAgrees with
    | returned v heap' =>
        rw [Prog.bind_of_returned hCode]
        exact hNext v heap'
    | threw error heap' residue hResidue =>
        rw [Prog.bind_of_threw hCode]
        exact .threw error heap' residue hResidue
    | aborted =>
        rw [Prog.bind_of_aborted hCode]
        exact .aborted
  · have hFull : getPropString 0 (cStr fnName) (⟨heap, own ++ rest⟩ : Context E) = .aborted :=
      getPropString_of_full hRoom
    have hPush : pushFunction 0 fnName (⟨heap, own ++ rest⟩ : Context E) = .aborted :=
      Prog.bind_of_aborted hFull
    rw [Prog.bind_of_aborted hPush]
    exact .aborted

/-- `call_projection` where the first event object does not fit. -/
theorem narrow_callProjection (fnName : String) (events : List Event) (initState : Json)
    (heap : E.Heap) (hNarrow : ¬rest.length + 4 < E.reserve) :
    NarrowOutcome rest events initState
      (callProjection J fnName events initState ⟨heap, E.globalObject :: rest⟩) := by
  cases events with
  | nil => exact .returned heap rfl
  | cons event events =>
      rw [callProjection_of_events J (List.cons_ne_nil _ _ ∘ List.length_eq_zero_iff.mp)
        (slot_slotZero rest)]
      refine @narrow_pushFunction E rest fnName _ _ heap [E.globalObject] _ _
        (slot_slotZero rest) fun first heap₁ => ?_
      refine @narrow_pushFunction E rest fnName _ _ heap₁ [first, E.globalObject] _ _
        ((slot_zero_cons first _ rest).trans (slot_slotZero rest)) fun second heap₂ => ?_
      -- Three values lie above `rest` now, and the event object would be the fourth.
      have hApply : applyEvent J initState event
          (⟨heap₂, second :: first :: E.globalObject :: rest⟩ : Context E) = .aborted :=
        applyEvent_of_full J (by simp only [List.length_cons]; omega)
      have hLoop : (event :: events).foldlM (applyEvent J) initState
          (⟨heap₂, second :: first :: E.globalObject :: rest⟩ : Context E) = .aborted := by
        rw [List.foldlM_cons]
        exact Prog.bind_of_aborted hApply
      have hAborted := Prog.bind_of_aborted
        (k := fun state => (do pop; pure state : DukProg E Json)) hLoop
      exact hAborted ▸ NarrowOutcome.aborted

/-- A play on a full stack ends the process. -/
theorem play_of_full (source fnName : String) (events : List Event) (initState : Json)
    (heap : E.Heap) (hFull : ¬rest.length < E.reserve) :
    (do read source; callProjection J fnName events initState : DukProg E Json) ⟨heap, rest⟩ =
      .aborted := by
  have hPush : pushString (cStr source) (⟨heap, rest⟩ : Context E) = .aborted :=
    push_of_full _ hFull
  have hRead : read source (⟨heap, rest⟩ : Context E) = .aborted := Prog.bind_of_aborted hPush
  exact Prog.bind_of_aborted hRead

/-- A play without room for an event object. -/
theorem play_of_narrow (source fnName : String) (events : List Event) (initState : Json)
    (heap : E.Heap) (hNarrow : ¬rest.length + 4 < E.reserve) :
    NarrowOutcome rest events initState
      ((do read source; callProjection J fnName events initState : DukProg E Json)
        ⟨heap, rest⟩) := by
  by_cases hRoom : rest.length < E.reserve
  · cases hEval : E.eval heap (E.string (cStr source)) with
    | mk result heap₁ =>
        cases result with
        | ok v =>
            rw [Prog.bind_of_returned (read_of_ok hEval hRoom)]
            exact narrow_callProjection J fnName events initState heap₁ hNarrow
        | error error =>
            rw [Prog.bind_apply, read_of_error hEval hRoom, ← Prog.bind_apply]
            exact narrow_throwErrorStack error heap₁ events initState _
  · rw [play_of_full J source fnName events initState heap hRoom]
    exact .aborted

end Replay

end Ext
end Yess
