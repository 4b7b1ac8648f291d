import Yess.GrpcService
import Yess.Handler.PlaySteps

namespace Yess
namespace ActionHandler

open Foundation ValueStack Db Ext Replay

/-!
# Concurrent plays

The gRPC service runs any number of `Play` requests at once on one handler, with no
lock.  A request takes four steps: it loads the projection, loads the events, has
the source read and calls the projection.  Between its last two steps it relies on
the context as `read` left it; `concurrent_plays_reply_alone` says that its reply is
right when nobody else reads in between, and `overlapping_plays_mix` shows a run in
which somebody does.
-/

/-- How far a request has come. -/
inductive Phase where
  | start
  | loadedProjection (proj : Projection)
  | loadedEvents (proj : Projection) (events : List Event)
  | evaluated (events : List Event)
  | done (reply : GrpcService.PlayResp)

/-- The shared handler and the phase of each request. -/
structure Service (κ : Type) (E : Duktape) where
  handler : Handler E
  phases : κ → Phase

variable (J : JsonText) {E : Duktape} {κ : Type}

/-- The next step of a request. -/
def proceed (plan : Plan) (request : PlayRequest) : Phase → HandlerProg E Phase
  | .start => do
      let proj ← onConnection (ProjectionRepo.id request.projectionId)
      pure (.loadedProjection proj)
  | .loadedProjection proj => do
      let events ← onConnection (loadEvents plan request.stream)
      pure (.loadedEvents proj events)
  | .loadedEvents proj events => do
      onContext (DukContext.read proj.data)
      pure (.evaluated events)
  | .evaluated events => do
      let state ← onContext
        (DukContext.callProjection J request.fnName events request.init)
      pure (.done (GrpcService.reply J (.ok state)))
  | .done reply => pure (.done reply)

/-- The step inside the `try` block of `Play`. -/
def advance (plan : Plan) (request : PlayRequest) (phase : Phase) : HandlerProg E Phase :=
  Prog.tryCatch (proceed J plan request phase) fun ex =>
    pure (.done (GrpcService.reply J (.error ex)))

/-- Some request that is not done takes its next step. -/
inductive ServiceStep [DecidableEq κ] (plan : Plan) (requests : κ → GrpcService.PlayReq) :
    Service κ E → κ → Service κ E → Prop
  | advance {service : Service κ E} {i : κ} {phase : Phase} {h : Handler E}
      (hPending : ∀ reply, service.phases i ≠ .done reply)
      (hStep : advance J plan (requests i).toPlayRequest (service.phases i)
        service.handler = .returned phase h) :
      ServiceStep plan requests service i ⟨h, Function.update service.phases i phase⟩

/-- All requests at their start. -/
def Service.starting (κ : Type) (h : Handler E) : Service κ E := ⟨h, fun _ => .start⟩

/-- The request is between `read` and `call_projection`. -/
def Phase.isEvaluated : Phase → Prop
  | .evaluated _ => True
  | _ => False

/-- The play does on the heap what it does on a new one. -/
def PlaysAsFresh (request : PlayRequest) (proj : Projection) (events : List Event)
    (heap : E.Heap) : Prop :=
  (playFrom J E.globalObject proj.data request.fnName events request.init heap).result =
    (playFrom J E.globalObject proj.data request.fnName events request.init
      E.defaultHeap).result

/-- When a request reads, no other is between its `read` and its `call_projection`,
the stack has room and the global object in slot 0, and the projection depends on
nothing that other sources have left. -/
def UndisturbedRead (requests : κ → GrpcService.PlayReq) (service : Service κ E) (i : κ)
    (_service' : Service κ E) : Prop :=
  ∀ proj events, service.phases i = .loadedEvents proj events →
    (∀ j, ¬(service.phases j).isEvaluated) ∧ HasRoom service.handler ∧
      slotZero service.handler.context.stack = E.globalObject ∧
      PlaysAsFresh J (requests i).toPlayRequest proj events service.handler.context.heap

/-! ## What holds of a request in its phase -/

variable {J} {plan : Plan} {request : PlayRequest} {c : Connection}

/-- What a request knows in each phase; after `read`, that the context is the one
that it left. -/
def PhaseHolds (J : JsonText) (plan : Plan) (c : Connection) (context : Context E)
    (request : PlayRequest) : Phase → Prop
  | .start => True
  | .loadedProjection proj => ProjectionRepo.id request.projectionId c = .returned proj c
  | .loadedEvents proj events => load plan request c = .returned (proj, events) c
  | .evaluated events => ∃ proj before,
      load plan request c = .returned (proj, events) c ∧
        HasRoom (⟨c, before⟩ : Handler E) ∧ slotZero before.stack = E.globalObject ∧
        PlaysAsFresh J request proj events before.heap ∧
        DukContext.read proj.data before = .returned () context
  | .done reply =>
      (playProjection J plan request (⟨c, DukContext.fresh E⟩ : Handler E)).result.map
        (GrpcService.reply J) = some reply

theorem phaseHolds_congr {phase : Phase} {context context' : Context E}
    (hOther : ¬phase.isEvaluated) (hHolds : PhaseHolds J plan c context request phase) :
    PhaseHolds J plan c context' request phase := by
  cases phase with
  | evaluated events => exact absurd trivial hOther
  | start => exact hHolds
  | loadedProjection proj => exact hHolds
  | loadedEvents proj events => exact hHolds
  | done reply => exact hHolds

/-- The result that a request has on its own. -/
theorem alone_of_playFrom {proj : Projection} {events : List Event} {heap : E.Heap}
    {result : Except Exn Json}
    (hLoad : load plan request c = .returned (proj, events) c)
    (hFresh : PlaysAsFresh J request proj events heap)
    (hResult : (playFrom J E.globalObject proj.data request.fnName events request.init
      heap).result = some result) :
    PhaseHolds J plan c (DukContext.fresh E) request
      (.done (GrpcService.reply J result)) := by
  have hAlone := playProjection_result (J := J) (fresh_hasRoom (E := E) c) hLoad
  have hNew : (playFrom J E.globalObject proj.data request.fnName events request.init
      E.defaultHeap).result = some result := by
    rw [← hFresh]
    exact hResult
  change Option.map (GrpcService.reply J) _ = _
  rw [hAlone]
  change Option.map (GrpcService.reply J) (playFrom J E.globalObject proj.data
    request.fnName events request.init E.defaultHeap).result = _
  rw [hNew]
  rfl

theorem alone_of_not_loaded {error : DbError}
    (hLoad : load plan request c = .threw (.sqliteException error) c) :
    PhaseHolds J plan c (DukContext.fresh E) request
      (.done (GrpcService.reply J (.error (.sqliteException error)))) := by
  have hThrew : playProjection J plan request (⟨c, DukContext.fresh E⟩ : Handler E) =
      .threw (.sqliteException error) ⟨c, DukContext.fresh E⟩ :=
    playProjection_of_not_loaded hLoad
  change Option.map (GrpcService.reply J) _ = _
  rw [hThrew]
  rfl

/-! ## The four steps -/

variable {h h' : Handler E} {phase phase' : Phase}

/-- A loading step goes on with what was loaded or ends with what SQLite reports. -/
theorem advance_of_reads {α : Type} {p : DbProg α} (hReads : Reads p) (next : α → Phase)
    (hAdvance : advance J plan request phase h = .returned phase' h')
    (hProceed : proceed J plan request phase = (do
      let a ← onConnection p
      pure (next a) : HandlerProg E Phase)) :
    h' = h ∧
      ((∃ a, p h.connection = .returned a h.connection ∧ phase' = next a) ∨
        ∃ error, p h.connection = .threw (.sqliteException error) h.connection ∧
          phase' = .done (GrpcService.reply J (.error (.sqliteException error)))) := by
  rw [advance, hProceed] at hAdvance
  rcases hReads h.connection with ⟨a, hReturned⟩ | ⟨error, hThrew⟩
  · have hBody : (do
        let a ← onConnection p
        pure (next a) : HandlerProg E Phase) h = .returned (next a) h :=
      Prog.bind_of_returned (onConnection_of_returned hReturned)
    rw [Prog.tryCatch_of_returned hBody, Outcome.returned.injEq] at hAdvance
    exact ⟨hAdvance.2.symm, Or.inl ⟨a, hReturned, hAdvance.1.symm⟩⟩
  · rw [Prog.tryCatch_of_threw (Prog.bind_of_threw (onConnection_of_threw hThrew)),
      Prog.pure_apply, Outcome.returned.injEq] at hAdvance
    exact ⟨hAdvance.2.symm, Or.inr ⟨error, hThrew, hAdvance.1.symm⟩⟩

/-- A step on the context goes on with what it returned or ends with what it threw. -/
theorem advance_of_context {α : Type} {p : DukProg E α} (next : α → Phase)
    (hAdvance : advance J plan request phase h = .returned phase' h')
    (hProceed : proceed J plan request phase = (do
      let a ← onContext p
      pure (next a) : HandlerProg E Phase)) :
    h'.connection = h.connection ∧
      ((∃ a, p h.context = .returned a h'.context ∧ phase' = next a) ∨
        ∃ error, p h.context = .threw error h'.context ∧
          phase' = .done (GrpcService.reply J (.error error))) := by
  rw [advance, hProceed] at hAdvance
  cases hOutcome : p h.context with
  | returned a context =>
      have hContext : onContext p h = .returned a { h with context := context } := by
        rw [onContext_apply, hOutcome, Outcome.mapState_returned]
      have hBody : (do
          let a ← onContext p
          pure (next a) : HandlerProg E Phase) h =
            .returned (next a) { h with context := context } :=
        Prog.bind_of_returned hContext
      rw [Prog.tryCatch_of_returned hBody, Outcome.returned.injEq] at hAdvance
      obtain ⟨rfl, rfl⟩ := hAdvance
      exact ⟨rfl, Or.inl ⟨a, rfl, rfl⟩⟩
  | threw error context =>
      have hContext : onContext p h = .threw error { h with context := context } := by
        rw [onContext_apply, hOutcome, Outcome.mapState_threw]
      rw [Prog.tryCatch_of_threw (Prog.bind_of_threw hContext), Prog.pure_apply,
        Outcome.returned.injEq] at hAdvance
      obtain ⟨rfl, rfl⟩ := hAdvance
      exact ⟨rfl, Or.inr ⟨error, rfl, rfl⟩⟩
  | aborted =>
      have hContext : onContext p h = .aborted := by
        rw [onContext_apply, hOutcome, Outcome.mapState_aborted]
      rw [Prog.tryCatch_of_aborted (Prog.bind_of_aborted hContext)] at hAdvance
      simp at hAdvance

theorem holds_of_start (hAdvance : advance J plan request .start h = .returned phase' h') :
    h' = h ∧ PhaseHolds J plan h.connection h'.context request phase' ∧
      ¬phase'.isEvaluated := by
  obtain ⟨rfl, ⟨proj, hProj, rfl⟩ | ⟨error, hProj, rfl⟩⟩ :=
    advance_of_reads (reads_projection _) Phase.loadedProjection hAdvance rfl
  · exact ⟨rfl, hProj, id⟩
  · have hLoad : load plan request h'.connection =
        .threw (.sqliteException error) h'.connection := Prog.bind_of_threw hProj
    exact ⟨rfl, phaseHolds_congr id (alone_of_not_loaded hLoad), id⟩

theorem holds_of_loadedProjection {proj : Projection}
    (hHolds : PhaseHolds J plan h.connection h.context request (.loadedProjection proj))
    (hAdvance : advance J plan request (.loadedProjection proj) h = .returned phase' h') :
    h' = h ∧ PhaseHolds J plan h.connection h'.context request phase' ∧
      ¬phase'.isEvaluated := by
  have hProj : ProjectionRepo.id request.projectionId h.connection =
    .returned proj h.connection := hHolds
  obtain ⟨rfl, ⟨events, hEvents, rfl⟩ | ⟨error, hEvents, rfl⟩⟩ :=
    advance_of_reads (reads_loadEvents plan _) (Phase.loadedEvents proj) hAdvance rfl
  · have hLoad : load plan request h'.connection =
        .returned (proj, events) h'.connection := by
      rw [load, Prog.bind_of_returned hProj, Prog.bind_of_returned hEvents, Prog.pure_apply]
    exact ⟨rfl, hLoad, id⟩
  · have hLoad : load plan request h'.connection =
        .threw (.sqliteException error) h'.connection := by
      rw [load, Prog.bind_of_returned hProj, Prog.bind_of_threw hEvents]
    exact ⟨rfl, phaseHolds_congr id (alone_of_not_loaded hLoad), id⟩

theorem holds_of_loadedEvents {proj : Projection} {events : List Event}
    (hHolds : PhaseHolds J plan h.connection h.context request (.loadedEvents proj events))
    (hRoom : HasRoom h) (hSlot : slotZero h.context.stack = E.globalObject)
    (hFresh : PlaysAsFresh J request proj events h.context.heap)
    (hAdvance : advance J plan request (.loadedEvents proj events) h = .returned phase' h') :
    h'.connection = h.connection ∧
      PhaseHolds J plan h.connection h'.context request phase' := by
  have hLoad : load plan request h.connection = .returned (proj, events) h.connection := hHolds
  obtain ⟨hConnection, ⟨_, hRead, rfl⟩ | ⟨error, hRead, rfl⟩⟩ :=
    advance_of_context (fun _ => Phase.evaluated events) hAdvance rfl
  · exact ⟨hConnection, proj, h.context, hLoad, hRoom, hSlot, hFresh, hRead⟩
  · have hPlay := (implements_play J h.context.stack proj.data request.fnName events
      request.init hRoom.lt_reserve h.context.heap).result_eq
    have hThrew : (do
        DukContext.read proj.data
        DukContext.callProjection J request.fnName events request.init : DukProg E Json)
          h.context = .threw error h'.context := Prog.bind_of_threw hRead
    rw [hSlot] at hPlay
    exact ⟨hConnection, phaseHolds_congr id
      (alone_of_playFrom hLoad hFresh (hPlay.symm.trans (congrArg Outcome.result hThrew)))⟩

theorem holds_of_evaluated {events : List Event}
    (hHolds : PhaseHolds J plan h.connection h.context request (.evaluated events))
    (hAdvance : advance J plan request (.evaluated events) h = .returned phase' h') :
    h'.connection = h.connection ∧
      PhaseHolds J plan h.connection h'.context request phase' := by
  obtain ⟨proj, before, hLoad, hRoom, hSlot, hFresh, hRead⟩ := hHolds
  have hPlay := (implements_play J before.stack proj.data request.fnName events
    request.init hRoom.lt_reserve before.heap).result_eq
  have hRest : (do
      DukContext.read proj.data
      DukContext.callProjection J request.fnName events request.init : DukProg E Json)
        before = DukContext.callProjection J request.fnName events request.init h.context :=
    Prog.bind_of_returned hRead
  rw [hSlot] at hPlay
  obtain ⟨hConnection, ⟨state, hCall, rfl⟩ | ⟨error, hCall, rfl⟩⟩ :=
    advance_of_context (fun state => Phase.done (GrpcService.reply J (.ok state)))
      hAdvance rfl
  · have hResult := hPlay.symm.trans (congrArg Outcome.result (hRest.trans hCall))
    exact ⟨hConnection, phaseHolds_congr id (alone_of_playFrom hLoad hFresh hResult)⟩
  · have hResult := hPlay.symm.trans (congrArg Outcome.result (hRest.trans hCall))
    exact ⟨hConnection, phaseHolds_congr id (alone_of_playFrom hLoad hFresh hResult)⟩

/-! ## All requests -/

/-- Every request is where its phase says, and at most one is between `read` and
`call_projection`. -/
structure ServiceInvariant (J : JsonText) (plan : Plan)
    (requests : κ → GrpcService.PlayReq) (c : Connection) (service : Service κ E) :
    Prop where
  connection : service.handler.connection = c
  phases : ∀ i, PhaseHolds J plan c service.handler.context (requests i).toPlayRequest
    (service.phases i)
  one : ∀ i j, (service.phases i).isEvaluated → (service.phases j).isEvaluated → i = j

variable [DecidableEq κ] {requests : κ → GrpcService.PlayReq} {service service' : Service κ E}
  {i : κ}

/-- What one request does to the invariant: it has to keep its own part and, if it
touches the context, to be the only one that relies on it. -/
theorem ServiceInvariant.update (hInv : ServiceInvariant J plan requests c service)
    (hConnection : h'.connection = c)
    (hOwn : PhaseHolds J plan c h'.context (requests i).toPlayRequest phase')
    (hOthers : h'.context = service.handler.context ∧ ¬phase'.isEvaluated ∨
      ∀ j, j ≠ i → ¬(service.phases j).isEvaluated) :
    ServiceInvariant J plan requests c ⟨h', Function.update service.phases i phase'⟩ where
  connection := hConnection
  phases := by
    intro j
    by_cases hJ : j = i
    · subst hJ
      simpa using hOwn
    · simp only [Function.update_of_ne hJ]
      rcases hOthers with ⟨hContext, -⟩ | hOthers
      · rw [hContext]
        exact hInv.phases j
      · exact phaseHolds_congr (hOthers j hJ) (hInv.phases j)
  one := by
    intro j k hEvaluatedJ hEvaluatedK
    by_cases hJ : j = i <;> by_cases hK : k = i
    · exact hJ.trans hK.symm
    · subst hJ
      simp only [Function.update_self, Function.update_of_ne hK] at hEvaluatedJ hEvaluatedK
      rcases hOthers with ⟨-, hNot⟩ | hOthers
      · exact absurd hEvaluatedJ hNot
      · exact absurd hEvaluatedK (hOthers k hK)
    · subst hK
      simp only [Function.update_self, Function.update_of_ne hJ] at hEvaluatedJ hEvaluatedK
      rcases hOthers with ⟨-, hNot⟩ | hOthers
      · exact absurd hEvaluatedK hNot
      · exact absurd hEvaluatedJ (hOthers j hJ)
    · simp only [Function.update_of_ne hJ, Function.update_of_ne hK] at hEvaluatedJ hEvaluatedK
      exact hInv.one j k hEvaluatedJ hEvaluatedK

theorem ServiceStep.invariant (hStep : ServiceStep J plan requests service i service')
    (hRead : UndisturbedRead J requests service i service')
    (hInv : ServiceInvariant J plan requests c service) :
    ServiceInvariant J plan requests c service' := by
  cases hStep with
  | advance hPending hStep =>
      have hOwn := hInv.phases i
      rw [← hInv.connection] at hOwn
      cases hPhase : service.phases i with
      | start =>
          rw [hPhase] at hStep
          obtain ⟨rfl, hHolds, hNot⟩ := holds_of_start hStep
          rw [hInv.connection] at hHolds
          exact hInv.update hInv.connection hHolds (Or.inl ⟨rfl, hNot⟩)
      | loadedProjection proj =>
          rw [hPhase] at hStep hOwn
          obtain ⟨rfl, hHolds, hNot⟩ := holds_of_loadedProjection hOwn hStep
          rw [hInv.connection] at hHolds
          exact hInv.update hInv.connection hHolds (Or.inl ⟨rfl, hNot⟩)
      -- A read moves the context, but nobody else relies on it now.
      | loadedEvents proj events =>
          obtain ⟨hNobody, hRoom, hSlot, hFresh⟩ := hRead proj events hPhase
          rw [hPhase] at hStep hOwn
          obtain ⟨hConnection, hHolds⟩ :=
            holds_of_loadedEvents hOwn hRoom hSlot hFresh hStep
          rw [hInv.connection] at hConnection hHolds
          exact hInv.update hConnection hHolds (Or.inr fun j _ => hNobody j)
      -- The caller is the only one that relies on the context it moves.
      | evaluated events =>
          have hOthers : ∀ j, j ≠ i → ¬(service.phases j).isEvaluated := by
            intro j hJ hEvaluated
            exact hJ (hInv.one j i hEvaluated (by rw [hPhase]; trivial))
          rw [hPhase] at hStep hOwn
          obtain ⟨hConnection, hHolds⟩ := holds_of_evaluated hOwn hStep
          rw [hInv.connection] at hConnection hHolds
          exact hInv.update hConnection hHolds (Or.inr hOthers)
      | done reply => exact absurd hPhase (hPending reply)

/-- For any number of requests and any order of their steps, from any state of the
context: if, whenever a request reads, no other one is between its `read` and its
`call_projection`, the stack has room and the global object in slot 0, and the
projection plays on the heap as on a new one, then every request that is done has
the reply that it gets on its own, on the same store and a fresh context. -/
theorem concurrent_plays_reply_alone {context : Context E} {schedule : List κ}
    (hRun : Run (StepWith (ServiceStep J plan requests) (UndisturbedRead J requests))
      (Service.starting κ ⟨c, context⟩) schedule service)
    {reply : GrpcService.PlayResp} (hDone : service.phases i = .done reply) :
    (GrpcService.play J plan (requests i)
      (⟨c, DukContext.fresh E⟩ : Handler E)).value = some reply := by
  have hInv : ServiceInvariant J plan requests c service := by
    refine hRun.stateInvariant (ServiceInvariant J plan requests c)
      ⟨rfl, fun _ => trivial, fun _ _ hEvaluated => absurd hEvaluated id⟩ ?_
    intro service i service' hInv hStep
    exact hStep.1.invariant hStep.2 hInv
  have hHolds := hInv.phases i
  rw [hDone] at hHolds
  rw [GrpcService.play, GrpcService.report_value]
  exact hHolds

/-! ## Two requests -/

/-- Two requests, each over one event, whose projections always give `0` and `1`. -/
def twoRequests : Bool → GrpcService.PlayReq
  | true => ⟨2, 2, "", ""⟩
  | false => ⟨7, 2, "", ""⟩

/-- The event of stream 2. -/
def sampleEvent : Event := ⟨3, 2, "UserCreated", "{}", 1⟩

def twoService (h : Handler Sample.engine) (first second : Phase) :
    Service Bool Sample.engine :=
  ⟨h, fun i => if i then first else second⟩

/-- A step given by the service it leads to. -/
theorem serviceStep_of_phases
    (hPending : ∀ reply, service.phases i ≠ .done reply)
    (hStep : advance J plan (requests i).toPlayRequest (service.phases i) service.handler =
      .returned phase' service'.handler)
    (hPhases : service'.phases = Function.update service.phases i phase') :
    ServiceStep J plan requests service i service' := by
  obtain ⟨h', phases⟩ := service'
  subst hPhases
  exact .advance hPending hStep

theorem twoService_first {h h' : Handler Sample.engine} {first first' : Phase} (second : Phase)
    (hPending : ∀ reply, first ≠ .done reply)
    (hStep : advance Sample.jsonText samplePlan (twoRequests true).toPlayRequest first h =
      .returned first' h') :
    ServiceStep Sample.jsonText samplePlan twoRequests (twoService h first second) true
      (twoService h' first' second) :=
  serviceStep_of_phases hPending hStep (by funext i; cases i <;> rfl)

theorem twoService_second {h h' : Handler Sample.engine} (first : Phase)
    {second second' : Phase} (hPending : ∀ reply, second ≠ .done reply)
    (hStep : advance Sample.jsonText samplePlan (twoRequests false).toPlayRequest second h =
      .returned second' h') :
    ServiceStep Sample.jsonText samplePlan twoRequests (twoService h first second) false
      (twoService h' first second') :=
  serviceStep_of_phases hPending hStep (by funext i; cases i <;> rfl)

/-- Both requests have loaded. -/
def twoLoaded : Service Bool Sample.engine :=
  twoService sampleHandler (.loadedEvents ⟨2, "", Sample.zeroSource⟩ [sampleEvent])
    (.loadedEvents ⟨7, "", Sample.oneSource⟩ [sampleEvent])

omit [DecidableEq κ] in
/-- A request that does not read disturbs nobody. -/
theorem undisturbed_of_not_loaded
    (hPhase : ∀ proj events, service.phases i ≠ .loadedEvents proj events) :
    UndisturbedRead J requests service i service' :=
  fun proj events hLoaded => absurd hLoaded (hPhase proj events)

theorem twoLoaded_run :
    Run (StepWith (ServiceStep Sample.jsonText samplePlan twoRequests)
        (UndisturbedRead Sample.jsonText twoRequests))
      (twoService sampleHandler .start .start) [true, true, false, false] twoLoaded :=
  .tail (.tail (.tail (.single
    ⟨twoService_first .start (fun _ => Phase.noConfusion) rfl,
      undisturbed_of_not_loaded fun _ _ => Phase.noConfusion⟩)
    ⟨twoService_first .start (fun _ => Phase.noConfusion) rfl,
      undisturbed_of_not_loaded fun _ _ => Phase.noConfusion⟩)
    ⟨twoService_second _ (fun _ => Phase.noConfusion) rfl,
      undisturbed_of_not_loaded fun _ _ => Phase.noConfusion⟩)
    ⟨twoService_second _ (fun _ => Phase.noConfusion) rfl,
      undisturbed_of_not_loaded fun _ _ => Phase.noConfusion⟩

theorem advance_evaluated {events : List Event} {state : Json}
    (hCall : onContext (DukContext.callProjection J request.fnName events request.init) h =
      .returned state h') :
    advance J plan request (.evaluated events) h =
      .returned (.done (GrpcService.reply J (.ok state))) h' :=
  Prog.tryCatch_of_returned (Prog.bind_of_returned hCall)

/-- The handler after the first request has read. -/
def firstRead : Handler Sample.engine :=
  ⟨sampleConnection, ⟨[("projection", SampleVal.constant 0)], [SampleVal.global]⟩⟩

/-- The first request has read, and the second one waits. -/
def firstEvaluated : Service Bool Sample.engine :=
  twoService firstRead (.evaluated [sampleEvent])
    (.loadedEvents ⟨7, "", Sample.oneSource⟩ [sampleEvent])

theorem firstRead_step :
    ServiceStep Sample.jsonText samplePlan twoRequests twoLoaded true firstEvaluated :=
  twoService_first _ (fun _ => Phase.noConfusion) rfl

theorem firstRead_undisturbed :
    UndisturbedRead Sample.jsonText twoRequests twoLoaded true firstEvaluated := by
  intro proj events hLoaded
  refine ⟨fun j => ?_, by decide, rfl, rfl⟩
  cases j <;> exact id

theorem callProjection_firstRead :
    DukContext.callProjection Sample.jsonText "projection" [sampleEvent] (.string "")
      firstRead.context = .returned (.integer 0) firstRead.context :=
  @callProjection_of_returned Sample.jsonText Sample.engine [] "projection" [sampleEvent]
    (.string "") (.integer 0) firstRead.context.heap firstRead.context.heap (by decide) rfl

theorem reply_integer_zero :
    GrpcService.reply Sample.jsonText (.ok (.integer 0)) = ⟨⟨0, "OK"⟩, "0"⟩ := rfl

theorem firstRead_done :
    advance Sample.jsonText samplePlan (twoRequests true).toPlayRequest
      (.evaluated [sampleEvent]) firstRead =
        .returned (.done ⟨⟨0, "OK"⟩, "0"⟩) firstRead := by
  have hCall : onContext (DukContext.callProjection Sample.jsonText "projection" [sampleEvent]
      (.string "")) firstRead = .returned (.integer 0) firstRead := by
    rw [onContext_apply, callProjection_firstRead]
    rfl
  have hAdvance : advance Sample.jsonText samplePlan (twoRequests true).toPlayRequest
      (.evaluated [sampleEvent]) firstRead =
        .returned (.done (GrpcService.reply Sample.jsonText (.ok (.integer 0)))) firstRead :=
    advance_evaluated hCall
  rw [hAdvance, reply_integer_zero]

theorem twoService_starting : twoService sampleHandler .start .start =
    Service.starting Bool ⟨sampleConnection, DukContext.fresh Sample.engine⟩ := by
  unfold twoService Service.starting
  congr 1
  funext i
  cases i <;> rfl

/-- The first request reads and calls while the second one waits. -/
theorem undisturbed_play_replies_alone :
    (GrpcService.play Sample.jsonText samplePlan (twoRequests true)
      (⟨sampleConnection, DukContext.fresh Sample.engine⟩ : Handler Sample.engine)).value =
        some ⟨⟨0, "OK"⟩, "0"⟩ := by
  have hDone : StepWith (ServiceStep Sample.jsonText samplePlan twoRequests)
      (UndisturbedRead Sample.jsonText twoRequests) firstEvaluated true
      (twoService firstRead (.done ⟨⟨0, "OK"⟩, "0"⟩)
        (.loadedEvents ⟨7, "", Sample.oneSource⟩ [sampleEvent])) :=
    ⟨twoService_first _ (fun _ => Phase.noConfusion) firstRead_done,
      undisturbed_of_not_loaded fun _ _ => Phase.noConfusion⟩
  have hRun := Run.tail
    (Run.tail twoLoaded_run ⟨firstRead_step, firstRead_undisturbed⟩) hDone
  rw [twoService_starting] at hRun
  exact concurrent_plays_reply_alone hRun (i := true) rfl

/-- The first of them on its own. -/
theorem play_zero_alone :
    (GrpcService.play Sample.jsonText samplePlan (twoRequests true) sampleHandler).value =
      some ⟨⟨0, "OK"⟩, "0"⟩ := by
  have hLoad : load samplePlan (twoRequests true).toPlayRequest sampleHandler.connection =
      .returned (⟨2, "", Sample.zeroSource⟩, [sampleEvent]) sampleHandler.connection := rfl
  rw [GrpcService.play, GrpcService.report_value,
    playProjection_result sampleHandler_hasRoom hLoad]
  rfl

/-- The handler after both have read. -/
def bothRead : Handler Sample.engine :=
  ⟨sampleConnection, ⟨[("projection", SampleVal.constant 1), ("projection", SampleVal.constant 0)],
    [SampleVal.global, SampleVal.global]⟩⟩

theorem callProjection_bothRead :
    DukContext.callProjection Sample.jsonText "projection" [sampleEvent] (.string "")
      bothRead.context = .returned (.integer 1) bothRead.context :=
  @callProjection_of_returned Sample.jsonText Sample.engine [SampleVal.global] "projection"
    [sampleEvent] (.string "") (.integer 1) bothRead.context.heap bothRead.context.heap
    (by decide) rfl

theorem reply_integer_one :
    GrpcService.reply Sample.jsonText (.ok (.integer 1)) = ⟨⟨0, "OK"⟩, "1"⟩ := rfl

theorem bothRead_done :
    advance Sample.jsonText samplePlan (twoRequests true).toPlayRequest
      (.evaluated [sampleEvent]) bothRead =
        .returned (.done ⟨⟨0, "OK"⟩, "1"⟩) bothRead := by
  have hCall : onContext (DukContext.callProjection Sample.jsonText "projection" [sampleEvent]
      (.string "")) bothRead = .returned (.integer 1) bothRead := by
    rw [onContext_apply, callProjection_bothRead]
    rfl
  have hAdvance : advance Sample.jsonText samplePlan (twoRequests true).toPlayRequest
      (.evaluated [sampleEvent]) bothRead =
        .returned (.done (GrpcService.reply Sample.jsonText (.ok (.integer 1)))) bothRead :=
    advance_evaluated hCall
  rw [hAdvance, reply_integer_one]

/-- The second request reads between the two steps of the first one, which then gets
the state of the second. -/
theorem overlapping_plays_mix :
    Run (ServiceStep Sample.jsonText samplePlan twoRequests)
        (Service.starting Bool sampleHandler)
        [true, true, false, false, true, false, true]
        (twoService bothRead (.done ⟨⟨0, "OK"⟩, "1"⟩) (.evaluated [sampleEvent])) ∧
      (GrpcService.play Sample.jsonText samplePlan (twoRequests true) sampleHandler).value =
        some ⟨⟨0, "OK"⟩, "0"⟩ := by
  refine ⟨?_, play_zero_alone⟩
  have hLoads := twoLoaded_run.forget
  rw [twoService_starting] at hLoads
  have hSecond : ServiceStep Sample.jsonText samplePlan twoRequests firstEvaluated false
      (twoService bothRead (.evaluated [sampleEvent]) (.evaluated [sampleEvent])) :=
    twoService_second _ (fun _ => Phase.noConfusion) rfl
  have hThird : ServiceStep Sample.jsonText samplePlan twoRequests
      (twoService bothRead (.evaluated [sampleEvent]) (.evaluated [sampleEvent])) true
      (twoService bothRead (.done ⟨⟨0, "OK"⟩, "1"⟩) (.evaluated [sampleEvent])) :=
    twoService_first _ (fun _ => Phase.noConfusion) bothRead_done
  exact .tail (.tail (.tail hLoads firstRead_step) hSecond) hThird

end ActionHandler
end Yess
