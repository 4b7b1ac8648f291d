import Yess.Cmd.Shell
import Yess.Ext.Outcomes
import Yess.GrpcService
import Yess.Handler.History
import Yess.Handler.PlaySteps

namespace Yess
namespace Cmd

open Foundation ValueStack Db Ext Replay ActionHandler

/-!
# A play through either front end

The shell parses the text of an initial state and starts from an empty object where
there is none.  The gRPC service hands the text on as it is, so that it becomes a JSON
string.  Also, `stoi` finds a number at the head of a type such as `12abc`.
`play_agrees_when` says for which plays this makes no difference: where it comes to
JavaScript, those whose first call does not tell the two initial states apart.
-/

/-! ## The same play -/

/-- The arguments of the shell command and the fields of the request say the same: one
projection id, one stream id or one type that is not a numeral, and one text for the
initial state, valid JSON with the value `value`, or none. -/
structure SamePlay (J : JsonLib) (projectionId target : String) (init : Option String)
    (value : Json) (request : GrpcService.PlayReq) : Prop where
  sameProjection : intNumeral projectionId = some request.projectionId
  sameTarget : request.streamType = "" ∧ intNumeral target = some request.streamId ∨
    request.streamType = target ∧ target ≠ "" ∧ numeral target = none
  sameInit : request.initialState = init.getD ""
  isJson : initialValue J init = some value

/-- `play PID TARGET` and `play PID TARGET I`. -/
def playCommand (J : JsonLib) {E : Duktape} (plan : Plan) (unset : Int32)
    (projectionId target : String) (init : Option String) : FrontProg (Handler E) Output := do
  let cmd ← interpretPlay J unset (projectionId :: target :: init.toList)
  cmd.execute J plan

/-- What a user gets: the report of an error, or a state as text. -/
inductive Answer where
  | error
  | state (text : String)
  deriving DecidableEq

section

variable {E : Duktape}

def shellAnswer (J : JsonText) : Outcome FrontExn (Handler E) Output → Option Answer
  | .returned ⟨.error, _, _⟩ _ => some .error
  | .returned ⟨.ok, _, .state state⟩ _ => some (.state (J.dump state))
  | _ => none

def grpcAnswer : Outcome Exn (Handler E) GrpcService.PlayResp → Option Answer
  | .returned reply _ => if reply.status.status = 0 then some (.state reply.state) else some .error
  | _ => none

/-- Each on a fresh context, both front ends report an error or both give one state. -/
def FrontEndsAgree (J : JsonLib) (E : Duktape) (plan : Plan) (unset : Int32) (c : Connection)
    (projectionId target : String) (init : Option String) (request : GrpcService.PlayReq) :
    Prop :=
  ∃ answer,
    shellAnswer J.toJsonText (playCommand J plan unset projectionId target init
      ⟨c, DukContext.fresh E⟩) = some answer ∧
    grpcAnswer (GrpcService.play J.toJsonText plan request ⟨c, DukContext.fresh E⟩) = some answer

/-! ## The same end -/

/-- The answer of the shell to the result of a play.  It catches no `std::logic_error`. -/
def shellEnd (J : JsonText) : Option (Except Exn Json) → Option Answer
  | some (.ok state) => some (.state (J.dump state))
  | some (.error error) => if error.isRuntimeError then some .error else none
  | none => none

def grpcEnd (J : JsonText) : Option (Except Exn Json) → Option Answer
  | some (.ok state) => some (.state (J.dump state))
  | some (.error _) => some .error
  | none => none

def SameEnd (J : JsonText) (result result' : Option (Except Exn Json)) : Prop :=
  ∃ answer, shellEnd J result = some answer ∧ grpcEnd J result' = some answer

/-- The first call ends alike from both initial states: in an error that the shell can
report, or in a state.  After the last event the two states need only have the same text; if
more events follow, they and the heaps have to be the same. -/
def CallsAlike (J : JsonText) (more : Bool) :
    Outcome Exn E.Heap Json → Outcome Exn E.Heap Json → Prop
  | .threw error _, .threw _ _ => error.isRuntimeError = true
  | .returned state heap, .returned state' heap' =>
      if more then state = state' ∧ heap = heap' else J.dump state = J.dump state'
  | _, _ => False

/-- The function that the second lookup finds is called with the first event, once with
each initial state. -/
def FirstCallsAlike (J : JsonText) (events : List Event) (init init' : Json) (heap : E.Heap) :
    Prop :=
  ∀ event rest first heap₁ second heap₂, events = event :: rest →
    findFunction E.globalObject "projection" heap = .returned first heap₁ →
    findFunction E.globalObject "projection" heap₁ = .returned second heap₂ →
      CallsAlike J (!rest.isEmpty) (applyFunction J second init (cut event) heap₂)
        (applyFunction J second init' (cut event) heap₂)

/-- On a new heap the source throws something that can be reported; or it evaluates, and
there are no events and the initial states have the same text, or the events are the same,
their first call does not tell the initial states apart, and the shell can report what comes
of it. -/
def PlaysAlike (J : JsonText) (E : Duktape) (source : String) (events events' : List Event)
    (init init' : Json) : Prop :=
  match E.eval E.defaultHeap (E.string (cStr source)) with
  | (.error error, heap) => (E.getProp heap error "stack").isSome
  | (.ok _, heap) =>
      if events.length = 0 ∧ events'.length = 0 then J.dump init = J.dump init'
      else events = events' ∧ CallsReportable J shellCaller [] "projection" events init heap ∧
        FirstCallsAlike J events init init' heap

/-- The stream that the shell takes the target for. -/
def shellTarget (target : String) : StreamRef :=
  match stoi target with
  | .ok streamId => .id streamId
  | .error _ => .type target

/-! ## On the heap -/

theorem sameEnd_ok_iff {J : JsonText} {state state' : Json} :
    SameEnd J (some (.ok state)) (some (.ok state')) ↔ J.dump state = J.dump state' := by
  constructor
  · rintro ⟨answer, hShell, hGrpc⟩
    have hSame := hShell.trans hGrpc.symm
    exact Answer.state.inj (Option.some.inj hSame)
  · intro hDump
    exact ⟨.state (J.dump state), rfl, congrArg (some ∘ Answer.state) hDump.symm⟩

theorem sameEnd_error_iff {J : JsonText} {error error' : Exn} :
    SameEnd J (some (.error error)) (some (.error error')) ↔ error.isRuntimeError = true := by
  constructor
  · rintro ⟨answer, hShell, -⟩
    by_contra hRuntime
    simp [shellEnd, hRuntime] at hShell
  · intro hRuntime
    exact ⟨.error, by rw [shellEnd, if_pos hRuntime], rfl⟩

/-- A source that throws ends both plays alike when the error can be reported. -/
theorem sameEnd_reportError_iff (J : JsonText) (error : E.Val) (heap : E.Heap) :
    SameEnd J ((reportError error : Js E Json) heap).result
        ((reportError error : Js E Json) heap).result ↔
      (E.getProp heap error "stack").isSome := by
  rw [← @reported_reportError_iff E shellCaller Json error heap]
  cases hReport : (reportError error : Js E Json) heap with
  | returned state heap' => exact absurd hReport (reportError_ne_returned error heap heap' state)
  | threw ex heap' => exact sameEnd_error_iff
  | aborted => exact iff_of_false (by simp [SameEnd, shellEnd]) id

theorem playFrom_of_error {J : JsonText} {slotZero : E.Val} {source fnName : String}
    {events : List Event} {init : Json} {heap heap₁ : E.Heap} {error : E.Val}
    (hEval : E.eval heap (E.string (cStr source)) = (.error error, heap₁)) :
    playFrom J slotZero source fnName events init heap =
      (reportError error : Js E Json) heap₁ := by
  have hThrown : Js.eval (E.string (cStr source)) heap = .returned (.error error) heap₁ := by
    rw [Js.eval, Js.ofPair, hEval]
  rw [playFrom, evalSource, bind_assoc, Prog.bind_of_returned hThrown]
  simp only [reportError, bind_assoc]
  rfl

/-- A play ends as itself when the shell can report it. -/
theorem sameEnd_self {J : JsonText} {o : Outcome Exn E.Heap Json}
    (hReported : Reported shellCaller o) : SameEnd J o.result o.result := by
  cases o with
  | returned state heap => exact sameEnd_ok_iff.mpr rfl
  | threw error heap => exact sameEnd_error_iff.mpr hReported
  | aborted => exact hReported.elim

theorem reported_of_sameEnd {J : JsonText} {o : Outcome Exn E.Heap Json}
    {result' : Option (Except Exn Json)} (hSame : SameEnd J o.result result') :
    Reported shellCaller o := by
  obtain ⟨answer, hShell, -⟩ := hSame
  cases o with
  | returned state heap => trivial
  | threw error heap =>
      by_contra hRuntime
      have hNot : ¬error.isRuntimeError = true := hRuntime
      simp [shellEnd, hNot] at hShell
  | aborted => simp [shellEnd] at hShell

/-- After the last event, calls that end alike are plays that do. -/
theorem callsAlike_last_iff {J : JsonText} {o o' : Outcome Exn E.Heap Json} :
    CallsAlike J false o o' ↔ SameEnd J o.result o'.result := by
  cases o with
  | returned state heap =>
      cases o' with
      | returned state' heap' => exact sameEnd_ok_iff.symm
      | threw error' heap' => simp [CallsAlike, SameEnd, shellEnd, grpcEnd]
      | aborted => simp [CallsAlike, SameEnd, shellEnd, grpcEnd]
  | threw error heap =>
      cases o' with
      | returned state' heap' => simp [CallsAlike, SameEnd, shellEnd, grpcEnd]
      | threw error' heap' => exact sameEnd_error_iff.symm
      | aborted => simp [CallsAlike, SameEnd, shellEnd, grpcEnd]
  | aborted => simp [CallsAlike, SameEnd, shellEnd]

/-- The shell can report a call of the projection exactly when it can report what the call
meets. -/
theorem reported_callFrom_iff (J : JsonText) (events : List Event) (init : Json)
    (heap : E.Heap) :
    Reported shellCaller (callFrom J E.globalObject "projection" events init heap) ↔
      CallsReportable J shellCaller [] "projection" events init heap := by
  have hRoom : ([] : List E.Val).length + 4 < E.reserve := E.lt_reserve (by simp [apiEntryStack])
  rw [← reported_callProjection_iff]
  exact ((implements_callProjection J "projection" [E.globalObject] rfl
    (loopImplemented J events init hRoom) (slot_slotZero []) hRoom heap).endsWell_iff).symm

/-- With one event, nothing follows its call. -/
theorem applyInTurn_singleton (J : JsonText) (f : E.Val) (callees : List E.Val) (event : Event)
    (state : Json) :
    applyInTurn J (f :: callees) [event] state = applyFunction J f state event := by
  rw [applyInTurn]
  simp only [applyInTurn_nil, bind_pure]

/-- Before more events, calls end alike in one state and one heap, or in an error. -/
theorem callsAlike_more {J : JsonText} {o o' : Outcome Exn E.Heap Json}
    (hAlike : CallsAlike J true o o') :
    (∃ state heap, o = .returned state heap ∧ o' = .returned state heap) ∨
      ∃ error heap error' heap', o = .threw error heap ∧ o' = .threw error' heap' ∧
        error.isRuntimeError = true := by
  cases o with
  | returned state heap =>
      cases o' with
      | returned state' heap' =>
          obtain ⟨rfl, rfl⟩ : state = state' ∧ heap = heap' := hAlike
          exact Or.inl ⟨state, heap, rfl, rfl⟩
      | threw error' heap' => exact hAlike.elim
      | aborted => exact hAlike.elim
  | threw error heap =>
      cases o' with
      | returned state' heap' => exact hAlike.elim
      | threw error' heap' => exact Or.inr ⟨error, heap, error', heap', rfl, rfl, hAlike⟩
      | aborted => exact hAlike.elim
  | aborted => exact hAlike.elim

/-- The calls after a first one that ends alike. -/
theorem sameEnd_applyInTurn {J : JsonText} {f : E.Val} {callees : List E.Val} {event : Event}
    {rest : List Event} {init init' : Json} {heap : E.Heap}
    (hReported : Reported shellCaller (applyInTurn J (f :: callees) (event :: rest) init heap))
    (hAlike : CallsAlike J (!rest.isEmpty) (applyFunction J f init event heap)
      (applyFunction J f init' event heap)) :
    SameEnd J (applyInTurn J (f :: callees) (event :: rest) init heap).result
      (applyInTurn J (f :: callees) (event :: rest) init' heap).result := by
  cases rest with
  | nil =>
      rw [applyInTurn_singleton, applyInTurn_singleton]
      exact callsAlike_last_iff.mp hAlike
  | cons next rest =>
      have hSelf := sameEnd_self (J := J) hReported
      simp only [applyInTurn] at hSelf ⊢
      rcases callsAlike_more hAlike with
        ⟨state, heap₁, hCall, hCall'⟩ | ⟨error, heap₁, error', heap₁', hCall, hCall', hRuntime⟩
      · -- From here on the two plays are one.
        rw [Prog.bind_of_returned hCall] at hSelf
        rwa [Prog.bind_of_returned hCall, Prog.bind_of_returned hCall']
      · rw [Prog.bind_of_threw hCall, Prog.bind_of_threw hCall']
        exact sameEnd_error_iff.mpr hRuntime

/-- Over some events a call begins with two lookups.  The initial state comes in after
them, or does not matter. -/
theorem callFrom_cases (J : JsonText) {events : List Event} (heap : E.Heap)
    (hSome : events.length ≠ 0) :
    (∃ first heap₁ second heap₂,
      findFunction E.globalObject "projection" heap = .returned first heap₁ ∧
      findFunction E.globalObject "projection" heap₁ = .returned second heap₂ ∧
      ∀ init, callFrom J E.globalObject "projection" events init heap =
        applyInTurn J [second, first, E.globalObject] (events.map cut) init heap₂) ∨
      ∀ init init', callFrom J E.globalObject "projection" events init heap =
        callFrom J E.globalObject "projection" events init' heap := by
  simp only [callFrom, if_neg hSome]
  cases hFirst : findFunction E.globalObject "projection" heap with
  | returned first heap₁ =>
      cases hSecond : findFunction E.globalObject "projection" heap₁ with
      | returned second heap₂ =>
          refine Or.inl ⟨first, heap₁, second, heap₂, rfl, hSecond, fun init => ?_⟩
          rw [Prog.bind_of_returned hFirst, Prog.bind_of_returned hSecond]
      | threw error heap₂ =>
          refine Or.inr fun init init' => ?_
          simp only [Prog.bind_of_returned hFirst, Prog.bind_of_threw hSecond]
      | aborted =>
          refine Or.inr fun init init' => ?_
          simp only [Prog.bind_of_returned hFirst, Prog.bind_of_aborted hSecond]
  | threw error heap₁ => exact Or.inr fun _ _ => by simp only [Prog.bind_of_threw hFirst]
  | aborted => exact Or.inr fun _ _ => by simp only [Prog.bind_of_aborted hFirst]

/-- The condition is enough for a call. -/
theorem sameEnd_callFrom {J : JsonText} {events : List Event} {init init' : Json}
    {heap : E.Heap} (hSome : events.length ≠ 0)
    (hReportable : CallsReportable J shellCaller [] "projection" events init heap)
    (hAlike : FirstCallsAlike J events init init' heap) :
    SameEnd J (callFrom J E.globalObject "projection" events init heap).result
      (callFrom J E.globalObject "projection" events init' heap).result := by
  have hReported := (reported_callFrom_iff J events init heap).mpr hReportable
  rcases callFrom_cases J heap hSome with
    ⟨first, heap₁, second, heap₂, hFirst, hSecond, hCall⟩ | hSame
  · cases events with
    | nil => exact absurd rfl hSome
    | cons event rest =>
        have hFirstCall := hAlike event rest first heap₁ second heap₂ rfl hFirst hSecond
        rw [hCall] at hReported
        rw [hCall, hCall]
        exact sameEnd_applyInTurn hReported (by simpa using hFirstCall)
  · rw [hSame init' init]
    exact sameEnd_self hReported

/-- With one event it is also needed. -/
theorem firstCallsAlike_of_sameEnd {J : JsonText} {event : Event} {init init' : Json}
    {heap : E.Heap}
    (hSame : SameEnd J (callFrom J E.globalObject "projection" [event] init heap).result
      (callFrom J E.globalObject "projection" [event] init' heap).result) :
    FirstCallsAlike J [event] init init' heap := by
  rintro event' rest first heap₁ second heap₂ ⟨rfl, rfl⟩ hFirst hSecond
  have hCall : ∀ init, callFrom J E.globalObject "projection" [event] init heap =
      applyFunction J second init (cut event) heap₂ := by
    intro init
    rw [callFrom, if_neg (by simp), Prog.bind_of_returned hFirst, Prog.bind_of_returned hSecond,
      List.map_singleton, applyInTurn_singleton]
  rw [hCall, hCall] at hSame
  exact callsAlike_last_iff.mpr hSame

theorem sameEnd_playFrom {J : JsonText} {source : String} {events events' : List Event}
    {init init' : Json} (hAlike : PlaysAlike J E source events events' init init') :
    SameEnd J
      (playFrom J E.globalObject source "projection" events init E.defaultHeap).result
      (playFrom J E.globalObject source "projection" events' init' E.defaultHeap).result := by
  unfold PlaysAlike at hAlike
  rcases hEval : E.eval E.defaultHeap (E.string (cStr source)) with ⟨error | v, heap⟩
  · rw [hEval] at hAlike
    rw [playFrom_of_error hEval, playFrom_of_error hEval]
    exact (sameEnd_reportError_iff J error heap).mpr hAlike
  · rw [hEval] at hAlike
    rw [playFrom, Prog.bind_of_returned (evalSource_of_ok hEval), playFrom,
      Prog.bind_of_returned (evalSource_of_ok hEval)]
    by_cases hNone : events.length = 0 ∧ events'.length = 0
    · simp only [if_pos hNone] at hAlike
      rw [callFrom, if_pos hNone.1, callFrom, if_pos hNone.2]
      exact sameEnd_ok_iff.mpr hAlike
    · simp only [if_neg hNone] at hAlike
      obtain ⟨rfl, hReportable, hFirst⟩ := hAlike
      exact sameEnd_callFrom (fun hEmpty => hNone ⟨hEmpty, hEmpty⟩) hReportable hFirst

/-- Over the same events, of which there is at most one, the condition is also needed. -/
theorem playsAlike_of_sameEnd {J : JsonText} {source : String} {events : List Event}
    {init init' : Json} (hFew : events.length ≤ 1)
    (hSame : SameEnd J
      (playFrom J E.globalObject source "projection" events init E.defaultHeap).result
      (playFrom J E.globalObject source "projection" events init' E.defaultHeap).result) :
    PlaysAlike J E source events events init init' := by
  unfold PlaysAlike
  rcases hEval : E.eval E.defaultHeap (E.string (cStr source)) with ⟨error | v, heap⟩
  · rw [playFrom_of_error hEval, playFrom_of_error hEval] at hSame
    exact (sameEnd_reportError_iff J error heap).mp hSame
  · rw [playFrom, Prog.bind_of_returned (evalSource_of_ok hEval), playFrom,
      Prog.bind_of_returned (evalSource_of_ok hEval)] at hSame
    cases events with
    | nil => exact sameEnd_ok_iff.mp hSame
    | cons event rest =>
        obtain rfl : rest = [] := List.length_eq_zero_iff.mp (by simpa using hFew)
        have hReported := reported_of_sameEnd hSame
        exact ⟨rfl, (reported_callFrom_iff J [event] init heap).mp hReported,
          firstCallsAlike_of_sameEnd hSame⟩

/-! ## From the code to the heap -/

variable {J : JsonLib} {plan : Plan} {unset : Int32} {c : Connection} {h : Handler E}

/-- The shell answers to the result of the play. -/
theorem shellAnswer_execute (request : PlayReq) :
    shellAnswer J.toJsonText (Command.execute J plan (.play request) h) =
      shellEnd J.toJsonText
        (playProjection J.toJsonText plan request.toPlayRequest h).result := by
  rw [Command.execute_play]
  cases playProjection J.toJsonText plan request.toPlayRequest h with
  | returned state h' => rfl
  | threw error h' =>
      by_cases hRuntime : error.isRuntimeError = true
      · simp [hRuntime, shellAnswer, shellEnd]
      · simp [hRuntime, shellAnswer, shellEnd]
  | aborted => rfl

theorem grpcAnswer_play (request : GrpcService.PlayReq) :
    grpcAnswer (GrpcService.play J.toJsonText plan request h) =
      grpcEnd J.toJsonText
        (playProjection J.toJsonText plan request.toPlayRequest h).result := by
  rw [GrpcService.play, GrpcService.report, Prog.tryCatch, Prog.bind_apply]
  cases playProjection J.toJsonText plan request.toPlayRequest h with
  | returned state h' => rfl
  | threw error h' => rfl
  | aborted => rfl

theorem playReq_toPlayRequest {target : String} (unset n : Int32) (value : Json)
    (hTarget : target ≠ "") :
    (playReq unset n target value).toPlayRequest =
      ⟨n, value, shellTarget target, "projection"⟩ := by
  unfold playReq shellTarget PlayReq.toPlayRequest
  cases stoi target with
  | ok streamId => rfl
  | error ex => simp [hTarget]

/-- Two plays of one projection on a fresh context: nothing is loaded by either, or they do
on the heap what they do with what they load. -/
theorem sameEnd_playProjection_iff {request request' : PlayRequest}
    (hSame : request.projectionId = request'.projectionId)
    (hName : request.fnName = "projection") (hName' : request'.fnName = "projection") :
    SameEnd J.toJsonText
        (playProjection J.toJsonText plan request ⟨c, DukContext.fresh E⟩).result
        (playProjection J.toJsonText plan request' ⟨c, DukContext.fresh E⟩).result ↔
      ∀ proj events events', load plan request c = .returned (proj, events) c →
        load plan request' c = .returned (proj, events') c →
          SameEnd J.toJsonText
            (playFrom J.toJsonText E.globalObject proj.data "projection" events request.init
              E.defaultHeap).result
            (playFrom J.toJsonText E.globalObject proj.data "projection" events' request'.init
              E.defaultHeap).result := by
  have hRoom := fresh_hasRoom (E := E) c
  rcases load_alike plan c hSame with
    ⟨proj, events, events', hLoad, hLoad'⟩ | ⟨error, hLoad, hLoad'⟩
  · rw [playProjection_result hRoom hLoad, playProjection_result hRoom hLoad', hName, hName']
    constructor
    · intro hAlike proj₁ events₁ events₁' hLoad₁ hLoad₁'
      obtain ⟨rfl, rfl⟩ := load_unique hLoad hLoad₁
      obtain ⟨-, rfl⟩ := load_unique hLoad' hLoad₁'
      exact hAlike
    · intro hAll
      exact hAll proj events events' hLoad hLoad'
  · rw [playProjection_of_not_loaded hLoad, playProjection_of_not_loaded hLoad']
    refine iff_of_true (sameEnd_error_iff.mpr rfl) ?_
    intro proj events events' hLoad₁
    rw [hLoad] at hLoad₁
    simp at hLoad₁

theorem SamePlay.target_ne {projectionId target : String} {init : Option String} {value : Json}
    {request : GrpcService.PlayReq} (hSame : SamePlay J projectionId target init value request) :
    target ≠ "" := by
  rintro rfl
  have hEmpty : intNumeral "" = none := by decide +kernel
  rcases hSame.sameTarget with ⟨-, hNumeral⟩ | ⟨-, hNe, -⟩
  · rw [hEmpty] at hNumeral
    simp at hNumeral
  · exact hNe rfl

/-- What the shell and the service load, the shell for the stream or type that it takes the
target for. -/
def BothLoad (plan : Plan) (c : Connection) (target : String) (value : Json)
    (request : GrpcService.PlayReq) (proj : Projection) (events events' : List Event) : Prop :=
  load plan ⟨request.projectionId, value, shellTarget target, "projection"⟩ c =
      .returned (proj, events) c ∧
    load plan request.toPlayRequest c = .returned (proj, events') c

theorem frontEndsAgree_iff {projectionId target : String} {init : Option String} {value : Json}
    {request : GrpcService.PlayReq} (hSame : SamePlay J projectionId target init value request) :
    FrontEndsAgree J E plan unset c projectionId target init request ↔
      ∀ proj events events', BothLoad plan c target value request proj events events' →
        SameEnd J.toJsonText
          (playFrom J.toJsonText E.globalObject proj.data "projection" events value
            E.defaultHeap).result
          (playFrom J.toJsonText E.globalObject proj.data "projection" events'
            (.string request.initialState) E.defaultHeap).result := by
  have hCommand : playCommand J plan unset projectionId target init
      (⟨c, DukContext.fresh E⟩ : Handler E) =
        Command.execute J plan (.play (playReq unset request.projectionId target value))
          ⟨c, DukContext.fresh E⟩ := by
    rw [playCommand, interpretPlay_eq unset target (stoi_of_intNumeral hSame.sameProjection)
      hSame.isJson]
    rfl
  have hRequest := playReq_toPlayRequest unset request.projectionId value hSame.target_ne
  unfold FrontEndsAgree
  rw [hCommand, shellAnswer_execute, grpcAnswer_play, hRequest]
  have hOnHeap := @sameEnd_playProjection_iff E J plan c
    ⟨request.projectionId, value, shellTarget target, "projection"⟩ request.toPlayRequest rfl
    rfl rfl
  refine hOnHeap.trans ?_
  exact forall₃_congr fun proj events events' => and_imp.symm

/-- For every store, every projection id, every target and every text of an initial
state, or none: the shell and the gRPC service agree when nothing is loaded, or the source
throws an error that can be reported, or it evaluates and the first call of the function over
the same events does not tell the value of the text from the text as a string, and the shell
can report what comes of it.  Where both read the same events, and no more than one, they
agree only then. -/
theorem play_agrees_when {projectionId target : String} {init : Option String} {value : Json}
    {request : GrpcService.PlayReq} (hSame : SamePlay J projectionId target init value request) :
    ((∀ proj events events', BothLoad plan c target value request proj events events' →
        PlaysAlike J.toJsonText E proj.data events events' value
          (.string request.initialState)) →
      FrontEndsAgree J E plan unset c projectionId target init request) ∧
    (FrontEndsAgree J E plan unset c projectionId target init request →
      ∀ proj events, BothLoad plan c target value request proj events events →
        events.length ≤ 1 →
          PlaysAlike J.toJsonText E proj.data events events value
            (.string request.initialState)) := by
  rw [frontEndsAgree_iff hSame]
  constructor
  · intro hAlike proj events events' hLoad
    exact sameEnd_playFrom (hAlike proj events events' hLoad)
  · intro hAgree proj events hLoad hFew
    exact playsAlike_of_sameEnd hFew (hAgree proj events events hLoad)

end

/-- A projection that looks at nothing gives 1 through both front ends. -/
theorem play_agrees_one :
    FrontEndsAgree Sample.jsonLib Sample.engine samplePlan 0 sampleConnection "7" "1" none
      ⟨7, 1, "", ""⟩ := by
  have hSame : SamePlay Sample.jsonLib "7" "1" none (.object []) ⟨7, 1, "", ""⟩ :=
    ⟨by decide +kernel, Or.inl ⟨rfl, by decide +kernel⟩, rfl, rfl⟩
  have hTarget : shellTarget "1" = .id 1 := by decide +kernel
  refine (play_agrees_when hSame).1 ?_
  rintro proj events events' ⟨hLoad, hLoad'⟩
  rw [hTarget] at hLoad
  have hEvents : load samplePlan ⟨7, .object [], .id 1, "projection"⟩ sampleConnection =
      .returned (⟨7, "", Sample.oneSource⟩, [⟨1, 1, "UserCreated", "{}", 1⟩,
        ⟨2, 1, "UserRenamed", "{}", 2⟩]) sampleConnection := rfl
  obtain ⟨rfl, rfl⟩ := load_unique hEvents hLoad
  have hEvents' : load samplePlan ⟨7, .string "", .id 1, "projection"⟩ sampleConnection =
      .returned (⟨7, "", Sample.oneSource⟩, [⟨1, 1, "UserCreated", "{}", 1⟩,
        ⟨2, 1, "UserRenamed", "{}", 2⟩]) sampleConnection := rfl
  obtain ⟨-, rfl⟩ := load_unique hEvents' hLoad'
  refine ⟨rfl, (reported_callFrom_iff _ _ _ _).mp trivial, ?_⟩
  rintro event rest first heap₁ second heap₂ ⟨rfl, rfl⟩ hFirst hSecond
  cases hFirst
  cases hSecond
  exact ⟨rfl, rfl⟩

/-- The text form of the examples, with the text of the string `0`. -/
def quotedText : JsonText where
  dump
    | .string "0" => "\"0\""
    | value => Sample.dump value
  parse := Sample.parse
  cStr_dump := by
    intro value
    split
    · decide
    · exact Sample.jsonText.cStr_dump value

def quotedLib : JsonLib := { Sample.jsonLib with toJsonText := quotedText }

/-- A store with one projection and no stream. -/
def oneProjectionConnection : Connection := { freshConnection with
  database := { freshConnection.database with
    projections := [⟨1, "", Sample.countSource⟩] } }

theorem oneProjectionConnection_reachable : Reachable oneProjectionConnection := by
  have hCreate : ActivityStep freshConnection
      (.projection (.createProjection Sample.countSource)) oneProjectionConnection :=
    .projection rfl
  exact freshConnection_reachable.step hCreate

/-- Without events the initial state comes out: an object and an empty string where none
is given, the number 0 and the string `0` where the text is `0`. -/
theorem play_initial_states_differ :
    Reachable oneProjectionConnection ∧
      (SamePlay quotedLib "1" "1" none (.object []) ⟨1, 1, "", ""⟩ ∧
        ¬FrontEndsAgree quotedLib Sample.engine samplePlan 0 oneProjectionConnection "1" "1"
          none ⟨1, 1, "", ""⟩) ∧
      SamePlay quotedLib "1" "1" (some "0") (.integer 0) ⟨1, 1, "", "0"⟩ ∧
        ¬FrontEndsAgree quotedLib Sample.engine samplePlan 0 oneProjectionConnection "1" "1"
          (some "0") ⟨1, 1, "", "0"⟩ := by
  have hOne : intNumeral "1" = some 1 := by decide +kernel
  refine ⟨oneProjectionConnection_reachable, ⟨⟨hOne, Or.inl ⟨rfl, hOne⟩, rfl, rfl⟩, ?_⟩,
    ⟨hOne, Or.inl ⟨rfl, hOne⟩, rfl, rfl⟩, ?_⟩
  · rintro ⟨answer, hShell, hGrpc⟩
    have hObject : shellAnswer quotedText (playCommand quotedLib samplePlan 0 "1" "1" none
        (⟨oneProjectionConnection, DukContext.fresh Sample.engine⟩ : Handler Sample.engine)) =
          some (.state "{}") := by decide +kernel
    have hString : grpcAnswer (GrpcService.play quotedText samplePlan ⟨1, 1, "", ""⟩
        (⟨oneProjectionConnection, DukContext.fresh Sample.engine⟩ : Handler Sample.engine)) =
          some (.state "\"\"") := by decide +kernel
    have hSame := (hObject.symm.trans hShell).trans (hString.symm.trans hGrpc).symm
    exact absurd hSame (by decide)
  · rintro ⟨answer, hShell, hGrpc⟩
    have hNumber : shellAnswer quotedText (playCommand quotedLib samplePlan 0 "1" "1" (some "0")
        (⟨oneProjectionConnection, DukContext.fresh Sample.engine⟩ : Handler Sample.engine)) =
          some (.state "0") := by decide +kernel
    have hString : grpcAnswer (GrpcService.play quotedText samplePlan ⟨1, 1, "", "0"⟩
        (⟨oneProjectionConnection, DukContext.fresh Sample.engine⟩ : Handler Sample.engine)) =
          some (.state "\"0\"") := by decide +kernel
    have hSame := (hNumber.symm.trans hShell).trans (hString.symm.trans hGrpc).symm
    exact absurd hSame (by decide)

end Cmd
end Yess
