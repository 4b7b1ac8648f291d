import Yess.Cmd.DomainCommands
import Yess.Ext.SampleEngine
import Yess.GrpcService
import Yess.Handler.Handle
import Yess.Handler.History

namespace Yess
namespace ActionHandler

open Foundation Db Ext

/-!
# Whether stored payloads can be read

The payload of an event is JSON to everything that reads it: `Event::json` parses it,
and a replay decodes it outside a protected call.  None of the three front ends
through which an event is pushed looks at it.  `payloads_readable_iff` says that a
store stays readable exactly as long as every payload that is stored could be read
when it was pushed.
-/

/-- A push through one of the front ends. -/
inductive FrontPush where
  | grpc (request : GrpcService.PushEventReq)
  | shell (request : Cmd.PushReq)
  | json (request : Json)

/-- The event that the front end makes of the request, if it comes that far. -/
def FrontPush.event (J : JsonLib) : FrontPush → Option Event
  | .grpc request => some request.toEvent
  | .shell request => some request.toEvent
  | .json request => (pushedEvent J request ()).value

/-- What happens on the store: a push through a front end, or something else. -/
inductive PushLabel where
  | push (front : FrontPush)
  | other (activity : Activity)

/-- The event that a label pushes. -/
def PushLabel.event (J : JsonLib) : PushLabel → Option Event
  | .push front => front.event J
  | .other _ => none

def Activity.isPush : Activity → Bool
  | .request ⟨.pushEvent _ _, _, _⟩ => true
  | _ => false

inductive PushStep (J : JsonLib) : Connection → PushLabel → Connection → Prop
  | grpc {c c' : Connection} {request : GrpcService.PushEventReq}
      (hState : (GrpcService.pushEvent request c).state = some c') :
      PushStep J c (.push (.grpc request)) c'
  | shell {c c' : Connection} {request : Cmd.PushReq}
      (hState : (Cmd.Push.execute request c).state = some c') :
      PushStep J c (.push (.shell request)) c'
  | json {c c' : Connection} {request : Json} (plan : Plan) (hPush : isPushEvent request)
      (hState : (handle J plan request c).state = some c') :
      PushStep J c (.push (.json request)) c'
  | other {c c' : Connection} {activity : Activity} (hOther : ¬activity.isPush = true)
      (hStep : ActivityStep c activity c') : PushStep J c (.other activity) c'

/-- The stored event can be read: `Event::json` returns, and so does the decoding in
a replay, on whatever heap. -/
structure EventReadable (J : JsonLib) (E : Duktape) (event : Event) : Prop where
  json : ∃ obj, Event.json J event () = .returned obj ()
  decoded : ∀ heap, ∃ v heap', (Js.jsonDecode (E.string (cStr event.payload)) : Js E E.Val) heap =
    .returned v heap'

def StoreReadable (J : JsonLib) (E : Duktape) (db : Database) : Prop :=
  ∀ row ∈ db.events, EventReadable J E row.toEvent

/-- The text is JSON for the library and, up to its first NUL, for the engine. -/
def ReadableText (J : JsonLib) (E : Duktape) (payload : String) : Prop :=
  (J.parse payload).isSome ∧ ∀ heap, (E.jsonDecode heap (E.string (cStr payload))).isSome

/-- Every payload that is stored in the step is readable. -/
def StoresReadableText (J : JsonLib) (E : Duktape) (c : Connection) (label : PushLabel)
    (_c' : Connection) : Prop :=
  ∀ event, label.event J = some event → EventFits c event → ReadableText J E event.payload

variable {J : JsonLib} {E : Duktape} {c c' : Connection}

theorem eventReadable_iff (event : Event) :
    EventReadable J E event ↔ ReadableText J E event.payload := by
  have hJson : (∃ obj, Event.json J event () = .returned obj ()) ↔
      (J.parse event.payload).isSome := by
    unfold Event.json parseJson
    cases J.parse event.payload with
    | none => simp [throwJson, Prog.bind_apply]
    | some payload => exact iff_of_true ⟨_, rfl⟩ rfl
  have hDecoded : ∀ heap, (∃ v heap', (Js.jsonDecode (E.string (cStr event.payload)) :
      Js E E.Val) heap = .returned v heap') ↔
        (E.jsonDecode heap (E.string (cStr event.payload))).isSome := by
    intro heap
    cases hDecode : E.jsonDecode heap (E.string (cStr event.payload)) with
    | none => simp [Js.jsonDecode, Js.ofOption, hDecode]
    | some decoded => simp [Js.jsonDecode, Js.ofOption, hDecode]
  constructor
  · rintro ⟨hReturned, hHeaps⟩
    exact ⟨hJson.mp hReturned, fun heap => (hDecoded heap).mp (hHeaps heap)⟩
  · rintro ⟨hParse, hHeaps⟩
    exact ⟨hJson.mpr hParse, fun heap => (hDecoded heap).mpr (hHeaps heap)⟩

/-! ## What a push does -/

/-- A push stores the event that the front end makes, if the store takes it, and does
nothing otherwise. -/
inductive PushEffect (J : JsonLib) (c : Connection) (front : FrontPush) : Connection → Prop
  | stored (event : Event) (hEvent : front.event J = some event)
      (hAccepted : insertError c (newEventRow c.database event) = none) :
      PushEffect J c front { c with database := { c.database with
        events := c.database.events ++ [newEventRow c.database event] } }
  | refused (hRefused : ∀ event, front.event J = some event →
      insertError c (newEventRow c.database event) ≠ none) : PushEffect J c front c

/-- Once the front end has made an event, the store decides. -/
theorem effect_of_event {front : FrontPush} {event : Event} (hEvent : front.event J = some event)
    (hStored : insertError c (newEventRow c.database event) = none →
      c' = { c with database := { c.database with
        events := c.database.events ++ [newEventRow c.database event] } })
    (hRefused : ∀ error, insertError c (newEventRow c.database event) = some error → c' = c) :
    PushEffect J c front c' := by
  cases hError : insertError c (newEventRow c.database event) with
  | none =>
      rw [hStored hError]
      exact .stored event hEvent hError
  | some error =>
      rw [hRefused error hError]
      refine .refused fun event' hEvent' => ?_
      rw [hEvent, Option.some.injEq] at hEvent'
      rw [← hEvent', hError]
      simp

theorem grpc_effect {request : GrpcService.PushEventReq} (hReady : c.Ready)
    (hState : (GrpcService.pushEvent request c).state = some c') :
    PushEffect J c (.grpc request) c' := by
  rw [GrpcService.pushEvent_apply request hReady] at hState
  apply effect_of_event rfl
  · intro hStored
    rw [hStored] at hState
    exact (Option.some.inj hState).symm
  · intro error hRefused
    rw [hRefused] at hState
    exact (Option.some.inj hState).symm

theorem shell_effect {request : Cmd.PushReq} (hReady : c.Ready)
    (hState : (Cmd.Push.execute request c).state = some c') :
    PushEffect J c (.shell request) c' := by
  rw [Cmd.Push.execute_apply request hReady] at hState
  apply effect_of_event rfl
  · intro hStored
    rw [hStored] at hState
    exact (Option.some.inj hState).symm
  · intro error hRefused
    rw [hRefused] at hState
    exact (Option.some.inj hState).symm

theorem json_effect {request : Json} {plan : Plan} (hReady : c.Ready)
    (hPush : isPushEvent request) (hState : (handle J plan request c).state = some c') :
    PushEffect J c (.json request) c' := by
  rw [handle_pushEvent J hPush] at hState
  rcases (stateless_pushedEvent J request).cases c with
    ⟨event, hValue, hEvent⟩ | ⟨hValue, hNone⟩
  · rw [Prog.bind_of_returned hEvent] at hState
    have hApply := pushEvent_apply event.streamId event hReady
    have hMade : FrontPush.event J (.json request) = some event := hValue
    apply effect_of_event hMade
    · intro hStored
      simp only [hStored] at hApply
      rw [Prog.bind_of_returned (call_of_returned hApply)] at hState
      exact (Option.some.inj hState).symm
    · intro error hRefused
      simp only [hRefused] at hApply
      rw [Prog.bind_of_threw (call_of_threw hApply)] at hState
      exact (Option.some.inj hState).symm
  · have hSame : c' = c := by
      rcases hNone with ⟨error, hThrew⟩ | hAborted
      · rw [Prog.bind_of_threw hThrew] at hState
        exact (Option.some.inj hState).symm
      · rw [Prog.bind_of_aborted hAborted] at hState
        simp at hState
    rw [hSame]
    refine .refused fun event hEvent => ?_
    rw [FrontPush.event, hValue] at hEvent
    simp at hEvent

theorem pushStep_effect {front : FrontPush} (hReady : c.Ready)
    (hStep : PushStep J c (.push front) c') : PushEffect J c front c' := by
  cases hStep with
  | grpc hState => exact grpc_effect hReady hState
  | shell hState => exact shell_effect hReady hState
  | json plan hPush hState => exact json_effect hReady hPush hState

theorem PushStep.historyInvariant {label : PushLabel} (hStep : PushStep J c label c')
    (hInv : HistoryInvariant c) : HistoryInvariant c' := by
  cases label with
  | push front =>
      cases pushStep_effect hInv.store.ready hStep with
      | stored event hEvent hAccepted =>
          exact (StoreEffect.pushed event.streamId event hAccepted).historyInvariant hInv
      | refused hRefused => exact hInv
  | other activity =>
      cases hStep with
      | other hOther hActivity => exact hActivity.historyInvariant hInv

/-! ## Readable stores -/

theorem storeReadable_append {db : Database} {row : EventRow}
    (hReadable : StoreReadable J E db) :
    StoreReadable J E { db with events := db.events ++ [row] } ↔
      EventReadable J E row.toEvent := by
  constructor
  · intro hAll
    exact hAll row (List.mem_append_right _ (List.mem_singleton.mpr rfl))
  · intro hRow old hOld
    rcases List.mem_append.mp hOld with hMem | hNew
    · exact hReadable old hMem
    · rw [List.mem_singleton.mp hNew]
      exact hRow

/-- What is no push stores no event. -/
theorem events_subset_of_other {activity : Activity} (hReady : c.Ready)
    (hOther : ¬activity.isPush = true) (hStep : ActivityStep c activity c') :
    c'.database.events ⊆ c.database.events := by
  cases hStep with
  | request plan hStep =>
      cases storeStep_effect hReady hStep with
      | created type => exact List.Subset.refl _
      | deleted id => exact List.filter_subset_self _
      | pushed streamId event hAccepted => exact absurd rfl hOther
      | refused streamId event error hRefused => exact List.Subset.refl _
      | read request reply hRead => exact List.Subset.refl _
  | projection hStep =>
      cases projectionStep_effect hReady hStep with
      | created data type => exact List.Subset.refl _
      | deleted id => exact List.Subset.refl _
  | restart hInit =>
      rw [eq_of_initDb_some hInit]
      exact List.Subset.refl _

/-- In a readable store, a step leaves the store readable exactly when what it stores
can be read. -/
theorem storeReadable_step_iff {label : PushLabel} (hInv : HistoryInvariant c)
    (hReadable : StoreReadable J E c.database) (hStep : PushStep J c label c') :
    StoreReadable J E c'.database ↔ StoresReadableText J E c label c' := by
  cases label with
  | push front =>
      cases pushStep_effect hInv.store.ready hStep with
      | stored event hEvent hAccepted =>
          have hFits := (insertError_newEventRow_iff hInv.store event).mp hAccepted
          refine ((storeReadable_append hReadable).trans (eventReadable_iff _)).trans ?_
          constructor
          · intro hText event' hEvent' _
            obtain rfl := Option.some.inj (hEvent.symm.trans hEvent')
            exact hText
          · intro hStores
            exact hStores event hEvent hFits
      | refused hRefused =>
          refine iff_of_true hReadable fun event hEvent hFits => ?_
          exact absurd ((insertError_newEventRow_iff hInv.store event).mpr hFits)
            (hRefused event hEvent)
  | other activity =>
      refine iff_of_true ?_ fun event hEvent _ => by simp [PushLabel.event] at hEvent
      cases hStep with
      | other hOther hActivity =>
          intro row hRow
          exact hReadable row (events_subset_of_other hInv.store.ready hOther hActivity hRow)

/-- In every run of pushes through the three front ends, and of anything else: all
stored events can be read after each step exactly when at each step a payload that is
stored is text that `json::parse` and `duk_json_decode` take. -/
theorem payloads_readable_iff (J : JsonLib) (E : Duktape) {c₀ c : Connection}
    {labels : List PushLabel} (hInit : initDb none = .returned () c₀) :
    Run (StepWith (PushStep J) fun _ _ c' => StoreReadable J E c'.database) c₀ labels c ↔
      Run (StepWith (PushStep J) (StoresReadableText J E)) c₀ labels c := by
  obtain rfl := eq_of_initDb_none hInit
  refine Run.stepWith_iff
    (fun c => HistoryInvariant c ∧ StoreReadable J E c.database)
    ⟨freshConnection_historyInvariant, by simp [StoreReadable, freshConnection, Database.empty]⟩
    ?_ ?_
  · rintro c label c' ⟨hInv, hReadable⟩ hStep
    exact storeReadable_step_iff hInv hReadable hStep
  · rintro c label c' ⟨hInv, -⟩ hStep hReadable
    exact ⟨hStep.historyInvariant hInv, hReadable⟩

/-! ## A payload that is JSON, and one that is not -/

/-- The new database after `create_stream "User"`. -/
def userConnection : Connection := { freshConnection with
  database := { freshConnection.database with streams := [⟨1, "User", 0⟩] } }

theorem userConnection_step (J : JsonLib) :
    PushStep J freshConnection
      (.other (.request ⟨.createStream "User", .ok .done, some 1⟩)) userConnection :=
  .other (by decide) (.request ⟨.streamsOuter, .rowid⟩ ⟨rfl, rfl, rfl⟩)

/-- A push to stream 1 with any payload. -/
def samplePush (payload : String) : GrpcService.PushEventReq :=
  ⟨1, some ⟨0, 1, "UserCreated", payload, 1⟩⟩

def pushedConnection (payload : String) : Connection := { userConnection with
  database := { userConnection.database with
    events := [⟨1, 1, "UserCreated", payload, 1⟩] } }

theorem samplePush_returned (payload : String) :
    GrpcService.pushEvent (samplePush payload) userConnection =
      .returned ⟨⟨0, "OK"⟩⟩ (pushedConnection payload) := rfl

theorem samplePush_run (J : JsonLib) (payload : String) :
    Run (PushStep J) freshConnection
      [.other (.request ⟨.createStream "User", .ok .done, some 1⟩),
        .push (.grpc (samplePush payload))] (pushedConnection payload) :=
  .tail (.tail .refl (userConnection_step J)) (.grpc (by rw [samplePush_returned]; rfl))

theorem payloads_readable_sample :
    Run (StepWith (PushStep Sample.jsonLib)
        fun _ _ c' => StoreReadable Sample.jsonLib Sample.engine c'.database)
      freshConnection
      [.other (.request ⟨.createStream "User", .ok .done, some 1⟩),
        .push (.grpc (samplePush "{}"))] (pushedConnection "{}") := by
  refine (payloads_readable_iff Sample.jsonLib Sample.engine initDb_none).mpr ?_
  refine .tail (.tail .refl ⟨userConnection_step _, ?_⟩) ⟨.grpc rfl, ?_⟩
  · intro event hEvent _
    rw [← Option.some.inj hEvent]
    exact ⟨rfl, fun heap => rfl⟩
  · intro event hEvent
    simp [PushLabel.event] at hEvent

/-- A text that is not JSON is stored with the reply 0, and neither reader can read the
event after that. -/
theorem unreadable_payload_stored :
    ∃ labels c, initDb none = .returned () freshConnection ∧
      Run (PushStep Sample.jsonLib) freshConnection labels c ∧
      c.database.events = [⟨1, 1, "UserCreated", "not json", 1⟩] ∧
      (Event.json Sample.jsonLib ⟨1, 1, "UserCreated", "not json", 1⟩ () :
        Outcome FrontExn Unit Json) = .threw (.json "parse error") () ∧
      (∀ heap, (Js.jsonDecode (Sample.engine.string (cStr "not json")) :
        Js Sample.engine Sample.engine.Val) heap = .aborted) ∧
      ¬StoreReadable Sample.jsonLib Sample.engine c.database := by
  have hThrew : (Event.json Sample.jsonLib ⟨1, 1, "UserCreated", "not json", 1⟩ () :
      Outcome FrontExn Unit Json) = .threw (.json "parse error") () := rfl
  refine ⟨_, pushedConnection "not json", initDb_none, samplePush_run _ _, rfl, hThrew,
    fun heap => rfl, ?_⟩
  intro hReadable
  obtain ⟨obj, hReturned⟩ := (hReadable _ (List.mem_singleton.mpr rfl)).json
  have hSame := hThrew.symm.trans hReturned
  simp at hSame

end ActionHandler
end Yess
