import Yess.Grpc.PushFrame
import Yess.Handler.PlayOutcome

namespace Yess
namespace GrpcService

open Foundation ValueStack Db Ext Replay ActionHandler

/-!
# What the status of a reply tells

A reply with the status 0 should mean that what the request names exists and that
the operation took effect, any other status that nothing was changed.  `GetStream`
and `DeleteProjection` never reply with another status, `PushEvent` replies 0 for
every event that was stored, and `Play` replies 0 for a stream that is not there, and not
at all where the play ends the process.
`status_tells_iff` says for which requests the status is right all the same.
-/

variable {J : JsonText} {E : Duktape}

/-- The code is 0 exactly for a success, and another code goes with unchanged
tables. -/
structure CodeTells (code : Int32) (succeeded : Prop) (db db' : Database) : Prop where
  zero_iff : code = 0 ↔ succeeded
  unchanged : code ≠ 0 → db' = db

inductive StatusRequest where
  | getStream (request : GetStreamReq)
  | deleteProjection (request : DeleteProjectionReq)
  | pushEvent (request : PushEventReq)
  | play (request : PlayReq)

def StreamExists (db : Database) (id : Int32) : Prop := ∃ s ∈ db.streams, s.id = id.toInt

def ProjectionExists (db : Database) (id : Int32) : Prop :=
  ∃ p ∈ db.projections, p.id = id.toInt

/-- The projection of the request exists, and so does the stream where the request
names one. -/
def PlayReq.NamesExisting (request : PlayReq) (db : Database) : Prop :=
  ProjectionExists db request.projectionId ∧
    (request.streamType = "" → StreamExists db request.streamId)

/-- The stream of the id, as a message. -/
def IsStream (db : Database) (id : Int32) (msg : StreamMsg) : Prop :=
  ∃ s ∈ db.streams, s.id = id.toInt ∧ msg = ⟨id, s.type, getInt s.version⟩

/-- The status of the reply to a request tells success from failure. -/
def StatusTells (J : JsonText) (plan : Plan) (h : Handler E) : StatusRequest → Prop
  | .getStream request => ∃ reply c', getStream request h.connection = .returned reply c' ∧
      CodeTells (statusCode reply.status)
        (StreamExists h.connection.database request.id ∧
          ∃ msg, reply.stream = some msg ∧ IsStream h.connection.database request.id msg)
        h.connection.database c'.database
  | .deleteProjection request => ∃ reply c',
      deleteProjection request h.connection = .returned reply c' ∧
        CodeTells reply.status.status
          (ProjectionExists h.connection.database request.id ∧
            ¬ProjectionExists c'.database request.id)
          h.connection.database c'.database
  | .pushEvent request => ∃ reply c', pushEvent request h.connection = .returned reply c' ∧
      CodeTells reply.status.status
        (AppendsToAddressed request h.connection.database c'.database)
        h.connection.database c'.database
  | .play request => ∃ reply h', play J plan request h = .returned reply h' ∧
      CodeTells reply.status.status
        (request.NamesExisting h.connection.database ∧
          ∃ state, (playProjection J plan request.toPlayRequest h).value = some state ∧
            reply.state = J.dump state)
        h.connection.database h'.connection.database

/-- The source evaluates without an error on the context as it is, whose value stack
has room for it. -/
def SourceEvaluates (context : Context E) (source : String) : Prop :=
  context.stack.length < E.reserve ∧
    ∃ v heap, E.eval context.heap (E.string (cStr source)) = (.ok v, heap)

/-- Every outcome of the play can be reported by the service. -/
def PlayAnswers (J : JsonText) (plan : Plan) (h : Handler E) (request : PlayReq) : Prop :=
  ∀ proj events, load plan request.toPlayRequest h.connection =
      .returned (proj, events) h.connection →
    OutcomesReportable J serviceCaller h.context.stack proj.data "projection" events
      (.string request.initialState) h.context.heap

/-- The requests for which the status is right. -/
def StatusRight (J : JsonText) (plan : Plan) (h : Handler E) : StatusRequest → Prop
  | .getStream request => StreamExists h.connection.database request.id
  | .deleteProjection request => ProjectionExists h.connection.database request.id
  | .pushEvent request => AddressesItsEvent h.connection request
  | .play request => PlayAnswers J plan h request ∧ (request.streamType = "" →
      StreamExists h.connection.database request.streamId ∨
        ∀ proj, ProjectionRepo.id request.projectionId h.connection =
            .returned proj h.connection → ¬SourceEvaluates h.context proj.data)

/-! ## Streams, projections and pushes -/

variable {c : Connection}

theorem getStream_tells_iff (hReady : c.Ready) (request : GetStreamReq) :
    (∃ reply c', getStream request c = .returned reply c' ∧
      CodeTells (statusCode reply.status)
        (StreamExists c.database request.id ∧
          ∃ msg, reply.stream = some msg ∧ IsStream c.database request.id msg)
        c.database c'.database) ↔
      StreamExists c.database request.id := by
  have hGet := getStream_apply request hReady
  cases hFound : c.database.streams.find? fun row => row.id = request.id.toInt with
  | none =>
      have hMissing : ¬StreamExists c.database request.id := by
        rintro ⟨s, hMem, hId⟩
        have hNot := List.find?_eq_none.mp hFound s hMem
        simp [hId] at hNot
      rw [hFound] at hGet
      refine iff_of_false ?_ hMissing
      rintro ⟨reply, c', hGet', hTells⟩
      rw [hGet, Outcome.returned.injEq] at hGet'
      obtain ⟨rfl, rfl⟩ := hGet'
      exact hMissing (hTells.zero_iff.mp rfl).1
  | some row =>
      have hMem := List.mem_of_find?_eq_some hFound
      have hId : row.id = request.id.toInt := by simpa using List.find?_some hFound
      have hExists : StreamExists c.database request.id := ⟨row, hMem, hId⟩
      rw [hFound] at hGet
      exact iff_of_true ⟨_, _, hGet, iff_of_true rfl ⟨hExists, _, rfl, row, hMem, hId, rfl⟩,
        fun _ => rfl⟩ hExists

theorem deleteProjection_tells_iff (hReady : c.Ready) (request : DeleteProjectionReq) :
    (∃ reply c', deleteProjection request c = .returned reply c' ∧
      CodeTells reply.status.status
        (ProjectionExists c.database request.id ∧ ¬ProjectionExists c'.database request.id)
        c.database c'.database) ↔
      ProjectionExists c.database request.id := by
  have hDelete := deleteProjection_apply request hReady
  constructor
  · rintro ⟨reply, c', hDelete', hTells⟩
    rw [hDelete, Outcome.returned.injEq] at hDelete'
    obtain ⟨rfl, rfl⟩ := hDelete'
    exact (hTells.zero_iff.mp rfl).1
  · intro hExists
    refine ⟨_, _, hDelete, iff_of_true rfl ⟨hExists, ?_⟩, fun h => absurd rfl h⟩
    rintro ⟨p, hMem, hId⟩
    simp [hId] at hMem

theorem pushEvent_tells_iff (hInv : StoreInvariant c) (request : PushEventReq) :
    (∃ reply c', pushEvent request c = .returned reply c' ∧
      CodeTells reply.status.status (AppendsToAddressed request c.database c'.database)
        c.database c'.database) ↔
      AddressesItsEvent c request := by
  by_cases hFits : EventFits c request.toEvent
  · have hPush := pushEvent_of_fits hInv hFits
    constructor
    · rintro ⟨reply, c', hPush', hTells⟩ -
      rw [hPush, Outcome.returned.injEq] at hPush'
      obtain ⟨rfl, rfl⟩ := hPush'
      exact (hTells.zero_iff.mp rfl).addresses
    · intro hAddresses
      obtain ⟨hStream, hExists⟩ := hAddresses hFits
      exact ⟨_, _, hPush, iff_of_true rfl (appendsToAddressed hStream hExists),
        fun h => absurd rfl h⟩
  · obtain ⟨msg, hPush⟩ := pushEvent_of_not_fits hInv hFits
    refine iff_of_true ⟨_, _, hPush, iff_of_false (by simp) ?_, fun _ => rfl⟩
      fun h => absurd h hFits
    -- Nothing was stored, and no list is longer than itself.
    rintro ⟨log, hLog, hLog'⟩
    rw [hLog, Option.some.injEq] at hLog'
    have hLength := congrArg List.length hLog'
    simp at hLength

/-! ## Plays -/

theorem read_returned_iff (source : String) (context : Context E) :
    (∃ context', DukContext.read source context = .returned () context') ↔
      SourceEvaluates context source := by
  obtain ⟨heap, stack⟩ := context
  by_cases hRoom : stack.length < E.reserve
  · rcases hEval : E.eval heap (E.string (cStr source)) with ⟨error | v, heap₁⟩
    · refine iff_of_false ?_ ?_
      · rintro ⟨context', hRead⟩
        rw [read_of_error hEval hRoom] at hRead
        exact throwErrorStack_ne_returned hRead
      · rintro ⟨-, v, heap', hOk⟩
        rw [hEval] at hOk
        simp at hOk
    · exact iff_of_true ⟨_, read_of_ok hEval hRoom⟩ ⟨hRoom, v, heap₁, hEval⟩
  · refine iff_of_false ?_ fun h => hRoom h.1
    rintro ⟨context', hRead⟩
    have hAborted : DukContext.read source (⟨heap, stack⟩ : Context E) = .aborted :=
      Prog.bind_of_aborted (push_of_full _ hRoom)
    rw [hAborted] at hRead
    simp at hRead

variable {plan : Plan} {h : Handler E}

/-- A play of no events computes a state exactly when its source evaluates. -/
theorem playProjection_without_events {request : PlayRequest} {proj : Projection}
    (hLoad : load plan request h.connection = .returned (proj, []) h.connection) :
    (∃ state, (playProjection J plan request h).value = some state) ↔
      SourceEvaluates h.context proj.data := by
  have hCall : DukContext.callProjection J request.fnName [] request.init =
      (pure request.init : DukProg E Json) := by
    rw [DukContext.callProjection, if_pos List.length_nil]
  rw [playProjection_of_loaded hLoad, ← read_returned_iff, hCall, Prog.bind_apply]
  cases DukContext.read proj.data h.context with
  | returned a context' => exact iff_of_true ⟨request.init, rfl⟩ ⟨context', rfl⟩
  | threw error context' => simp
  | aborted => simp

theorem projectionExists_of_returned {id : Int32} {proj : Projection} (hReady : c.Ready)
    (hProj : ProjectionRepo.id id c = .returned proj c) : ProjectionExists c.database id := by
  rw [ProjectionRepo.id_apply id hReady] at hProj
  cases hFound : c.database.projections.find? fun row => row.id = id.toInt with
  | none =>
      rw [hFound] at hProj
      simp at hProj
  | some row =>
      exact ⟨row, List.mem_of_find?_eq_some hFound, by simpa using List.find?_some hFound⟩

/-- A request that names a missing stream loads no events. -/
theorem load_missing {request : PlayReq} {proj : Projection} {events : List Event}
    (hInv : StoreInvariant h.connection) (hType : request.streamType = "")
    (hMissing : ¬StreamExists h.connection.database request.streamId)
    (hLoad : load plan request.toPlayRequest h.connection =
      .returned (proj, events) h.connection) : events = [] := by
  have hEvents := (load_returned_iff.mp hLoad).2
  have hStream : request.toPlayRequest.stream = .id request.streamId := if_pos hType
  have hRead := getEvents_eq plan request.streamId hInv
  rw [if_neg (show ¬∃ s ∈ h.connection.database.streams, s.id = request.streamId.toInt from
    hMissing)] at hRead
  rw [hStream, loadEvents, hRead, Outcome.returned.injEq] at hEvents
  exact hEvents.1.symm

theorem play_of_returned {request : PlayReq} {state : Json} {h' : Handler E}
    (hPlay : playProjection J plan request.toPlayRequest h = .returned state h') :
    play J plan request h = .returned (reply J (.ok state)) h' :=
  Prog.tryCatch_of_returned (Prog.bind_of_returned hPlay)

theorem play_of_threw {request : PlayReq} {ex : Exn} {h' : Handler E}
    (hPlay : playProjection J plan request.toPlayRequest h = .threw ex h') :
    play J plan request h = .returned (reply J (.error ex)) h' :=
  Prog.tryCatch_of_threw (Prog.bind_of_threw hPlay)

/-- What it takes for a play that computes a state to have named what exists. -/
theorem namesExisting_of_returned {request : PlayReq} {state : Json} {h' : Handler E}
    (hInv : StoreInvariant h.connection) (hRight : StatusRight J plan h (.play request))
    (hPlay : playProjection J plan request.toPlayRequest h = .returned state h') :
    request.NamesExisting h.connection.database := by
  rcases reads_load plan request.toPlayRequest h.connection with
    ⟨⟨proj, events⟩, hLoad⟩ | ⟨error, hLoad⟩
  · have hProj := (load_returned_iff.mp hLoad).1
    refine ⟨projectionExists_of_returned hInv.ready hProj, fun hType => ?_⟩
    rcases hRight.2 hType with hExists | hNot
    · exact hExists
    · by_contra hMissing
      obtain rfl := load_missing hInv hType hMissing hLoad
      apply hNot proj hProj
      exact (playProjection_without_events (J := J) hLoad).mp ⟨state, by rw [hPlay]; rfl⟩
  · rw [playProjection_of_not_loaded hLoad] at hPlay
    simp at hPlay

/-- The service replies to the plays whose outcomes it can report. -/
theorem play_returned_iff (request : PlayReq) :
    (∃ reply h', play J plan request h = .returned reply h') ↔ PlayAnswers J plan h request := by
  have hReported := @reported_playProjection_iff J E plan request.toPlayRequest h serviceCaller
  refine Iff.trans ?_ hReported
  cases hPlay : playProjection J plan request.toPlayRequest h with
  | returned state h' => exact iff_of_true ⟨_, h', play_of_returned hPlay⟩ trivial
  | threw ex h' => exact iff_of_true ⟨_, h', play_of_threw hPlay⟩ trivial
  | aborted =>
      have hAborted : play J plan request h = .aborted :=
        Prog.tryCatch_of_aborted (Prog.bind_of_aborted hPlay)
      rw [hAborted]
      exact iff_of_false (by simp) id

/-- A play of a missing stream whose status is right gives no initial state away: its
projection cannot be read or does not evaluate. -/
theorem existing_of_tells (hInv : StoreInvariant h.connection) {request : PlayReq}
    (hTells : StatusTells J plan h (.play request)) (hType : request.streamType = "") :
    StreamExists h.connection.database request.streamId ∨
      ∀ proj, ProjectionRepo.id request.projectionId h.connection = .returned proj h.connection →
        ¬SourceEvaluates h.context proj.data := by
  obtain ⟨resp, h', hResp, hCode⟩ := hTells
  by_contra hNeither
  rw [not_or] at hNeither
  obtain ⟨hMissing, hSource⟩ := hNeither
  simp only [not_forall, not_not] at hSource
  obtain ⟨proj, hProj, hSource⟩ := hSource
  -- The play of the missing stream loads no events and gives the initial state.
  obtain ⟨events, hEvents⟩ := loadEvents_returned plan request.toPlayRequest.stream hInv.ready
  have hLoad : load plan request.toPlayRequest h.connection =
      .returned (proj, events) h.connection := load_returned_iff.mpr ⟨hProj, hEvents⟩
  obtain rfl := load_missing hInv hType hMissing hLoad
  obtain ⟨state, hValue⟩ := (playProjection_without_events (J := J) hLoad).mpr hSource
  obtain ⟨h'', hPlay⟩ := Outcome.value_eq_some_iff.mp hValue
  rw [play_of_returned hPlay, Outcome.returned.injEq] at hResp
  have hZero := hCode.zero_iff.mp (by rw [← hResp.1]; rfl)
  exact hMissing (hZero.1.2 hType)

/-- The status of a play that throws goes with unchanged tables and no state. -/
theorem codeTells_of_threw {request : PlayReq} {ex : Exn} {h' : Handler E}
    (hPlay : playProjection J plan request.toPlayRequest h = .threw ex h') :
    CodeTells (reply J (.error ex)).status.status
      (request.NamesExisting h.connection.database ∧
        ∃ state, (playProjection J plan request.toPlayRequest h).value = some state ∧
          (reply J (.error ex)).state = J.dump state)
      h.connection.database h'.connection.database := by
  have hConnection := playProjection_connection
    (show (playProjection J plan request.toPlayRequest h).state = some h' by rw [hPlay]; rfl)
  have hCode : (reply J (.error ex)).status.status ≠ 0 := show (1 : Int32) ≠ 0 by decide
  refine ⟨iff_of_false hCode ?_, fun _ => congrArg Connection.database hConnection⟩
  rintro ⟨-, state, hValue, -⟩
  rw [hPlay] at hValue
  simp at hValue

theorem play_tells_iff (hInv : StoreInvariant h.connection) (request : PlayReq) :
    StatusTells J plan h (.play request) ↔ StatusRight J plan h (.play request) := by
  constructor
  · intro hTells
    refine ⟨(play_returned_iff request).mp ?_, existing_of_tells hInv hTells⟩
    obtain ⟨resp, h', hResp, -⟩ := hTells
    exact ⟨resp, h', hResp⟩
  · intro hRight
    obtain ⟨resp, h', hResp⟩ := (play_returned_iff request).mpr hRight.1
    refine ⟨resp, h', hResp, ?_⟩
    cases hPlay : playProjection J plan request.toPlayRequest h with
    | returned state h'' =>
        rw [play_of_returned hPlay, Outcome.returned.injEq] at hResp
        obtain ⟨rfl, rfl⟩ := hResp
        exact ⟨iff_of_true rfl ⟨namesExisting_of_returned hInv hRight hPlay, state, rfl, rfl⟩,
          fun hCode => absurd rfl hCode⟩
    | threw ex h'' =>
        rw [play_of_threw hPlay, Outcome.returned.injEq] at hResp
        obtain ⟨rfl, rfl⟩ := hResp
        rw [← hPlay]
        exact codeTells_of_threw hPlay
    | aborted =>
        have hAborted : play J plan request h = .aborted :=
          Prog.tryCatch_of_aborted (Prog.bind_of_aborted hPlay)
        rw [hAborted] at hResp
        simp at hResp

/-- For every store that can come about, every state of the context and every request:
the status of the reply tells success from failure exactly when a stream that is asked
for exists, a projection that is deleted exists, an event that the store takes is
embedded under the id of the addressed stream, which exists, and the outcomes of a play
can be reported and the stream that is played exists or else the projection cannot be read
or does not evaluate. -/
theorem status_tells_iff (hReachable : Reachable h.connection) (request : StatusRequest) :
    StatusTells J plan h request ↔ StatusRight J plan h request := by
  have hInv := hReachable.invariant.store
  cases request with
  | getStream request => exact getStream_tells_iff hInv.ready request
  | deleteProjection request => exact deleteProjection_tells_iff hInv.ready request
  | pushEvent request => exact pushEvent_tells_iff hInv request
  | play request => exact play_tells_iff hInv request

theorem status_tells_sample :
    StatusTells Sample.jsonText samplePlan
      (⟨oneEventConnection, DukContext.fresh Sample.engine⟩ : Handler Sample.engine)
      (.getStream ⟨1⟩) :=
  (status_tells_iff oneEventConnection_reachable _).mpr ⟨⟨1, "User", 0⟩, by decide, rfl⟩

/-- On a new database: a stream that is not found is reported with the status 0, and
so is the deletion of a projection that is not there. -/
theorem status_of_missing_is_zero :
    Reachable freshConnection ∧
      getStream ⟨7⟩ freshConnection =
        .returned ⟨some ⟨0, "Stream not found"⟩, none⟩ freshConnection ∧
      deleteProjection ⟨7⟩ freshConnection = .returned ⟨⟨0, "OK"⟩⟩ freshConnection ∧
      ∀ request ∈ [StatusRequest.getStream ⟨7⟩, .deleteProjection ⟨7⟩],
        ¬StatusTells Sample.jsonText samplePlan
          (⟨freshConnection, DukContext.fresh Sample.engine⟩ : Handler Sample.engine)
          request := by
  have hReady := freshConnection_reachable.invariant.store.ready
  refine ⟨freshConnection_reachable, getStream_apply ⟨7⟩ hReady,
    deleteProjection_apply ⟨7⟩ hReady, ?_⟩
  intro request hRequest hTells
  rcases List.mem_pair.mp hRequest with rfl | rfl
  · obtain ⟨s, hMem, -⟩ := (getStream_tells_iff hReady ⟨7⟩).mp hTells
    simp [freshConnection, Database.empty] at hMem
  · obtain ⟨p, hMem, -⟩ := (deleteProjection_tells_iff hReady ⟨7⟩).mp hTells
    simp [freshConnection, Database.empty] at hMem

end GrpcService
end Yess
