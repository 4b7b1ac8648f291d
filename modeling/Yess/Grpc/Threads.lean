import Yess.Foundation.Linearization
import Yess.Grpc.EventStore
import Yess.Handler.ConcurrentPlays
import Yess.Handler.StreamReads

namespace Yess
namespace GrpcService

open Foundation Db Ext ActionHandler Cursor Linearization

/-!
# Procedures on several threads

gRPC serves its clients on several threads, which share the handler without a lock.
SQLite runs one step of one statement at a time.  So a procedure of one statement is one
step, and a procedure that loops over `executeStep` can be overtaken between any two rows,
and again before its reply goes out.

The service is linearizable nevertheless (`threads_linearizable`): what is seen of its
calls agrees with one event store that serves them one at a time.  Of a read of the events
of a type this says only that it finds no event that is not stored.
-/

/-! ## Rows and queries -/

/-- A row of one of the tables. -/
inductive TableRow where
  | stream (row : StreamRow)
  | event (row : EventRow)
  | projection (row : ProjectionRow)
  deriving DecidableEq

/-- The key by which a plan visits the rows. -/
def TableRow.key (plan : Plan) : TableRow → Int ×ₗ Int
  | stream row => toLex (0, row.id)
  | event row => readKey plan row
  | projection row => toLex (0, row.id)

/-- The procedures that loop over the rows of a query. -/
inductive Query where
  | getAllStreams
  | getStreamsByType (request : GetStreamsByTypeReq)
  | getEventsByStreamId (request : GetEventsByStreamIdReq)
  | getEventsByStreamType (request : GetEventsByStreamTypeReq)
  | getProjections (request : GetProjectionsReq)

namespace Query

def rpc : Query → Rpc
  | getAllStreams => .getAllStreams
  | getStreamsByType request => .getStreamsByType request
  | getEventsByStreamId request => .getEventsByStreamId request
  | getEventsByStreamType request => .getEventsByStreamType request
  | getProjections request => .getProjections request

/-- The rows that the query finds in tables that stay as they are. -/
def rows (plan : Plan) (db : Database) : Query → List TableRow
  | getAllStreams => db.streams.map .stream
  | getStreamsByType request =>
      (db.streams.filter fun row => row.type = request.type).map .stream
  | getEventsByStreamId request => (rowsOfStream plan db request.id).map .event
  | getEventsByStreamType request => (rowsOfType plan db request.type).map .event
  | getProjections request =>
      (if request.type = "" then db.projections
        else db.projections.filter fun row => row.type = request.type).map .projection

end Query

def TableRow.streamMsg : TableRow → Option StreamMsg
  | stream row => some (setValues row.toStream)
  | _ => none

def TableRow.eventMsg : TableRow → Option EventMsg
  | event row => some (setEventValues row.toEvent)
  | _ => none

/-- The two readers of projections take the columns in different orders. -/
def TableRow.projectionMsg (byType : Bool) : TableRow → Option ProjectionMsg
  | projection row => some (setProjectionValues
      (if byType then Projection.new (getInt row.id) row.data row.type
        else Projection.new (getInt row.id) row.type row.data))
  | _ => none

/-- The reply to a query that has found these rows. -/
def Query.reply (found : List TableRow) : Query → RpcReply
  | getAllStreams => .getAllStreams ⟨none, found.filterMap TableRow.streamMsg⟩
  | getStreamsByType _ => .getStreamsByType ⟨none, found.filterMap TableRow.streamMsg⟩
  | getEventsByStreamId _ => .getEventsByStreamId ⟨none, found.filterMap TableRow.eventMsg⟩
  | getEventsByStreamType _ =>
      .getEventsByStreamType ⟨none, found.filterMap TableRow.eventMsg⟩
  | getProjections request =>
      .getProjections ⟨makeStatus 0 "OK",
        found.filterMap (TableRow.projectionMsg (request.type ≠ ""))⟩

/-! ## Threads -/

/-- How far the thread of a call has come. -/
inductive Thread where
  | waiting
  | called
  | reading (plan : Plan) (query : Query) (position : Option (Int ×ₗ Int))
      (found : List TableRow)
  | playing (request : PlayReq) (phase : Phase)
  /-- The reply is made, and not yet sent. -/
  | taken (reply : RpcReply)
  | finished

def Thread.phase : Thread → CallPhase RpcReply
  | waiting => .waiting
  | called => .running
  | reading _ _ _ _ => .running
  | playing _ _ => .running
  | taken reply => .taken reply
  | finished => .finished

/-- With the process all threads end. -/
def Thread.afterCrash : Thread → Thread
  | waiting => waiting
  | _ => finished

/-- The shared handler, and the thread of each call. -/
structure Threads (ι : Type) (E : Duktape) where
  handler : Handler E
  thread : ι → Thread

inductive ThreadLabel (ι : Type) where
  | worked (i : ι)
  | moment (m : Moment ι RpcReply)

def ThreadLabel.toMoment {ι : Type} : ThreadLabel ι → Option (Moment ι RpcReply)
  | worked _ => none
  | moment m => some m

/-- What clients see of the threads. -/
def seen {ι : Type} (labels : List (ThreadLabel ι)) : List (CallEvent ι RpcReply) :=
  (labels.filterMap ThreadLabel.toMoment).filterMap Moment.event

/-- Does the procedure run a single statement, and step it once? -/
def oneStatement : Rpc → Bool
  | .createStream _ => true
  | .pushEvent _ => true
  | .getStream _ => true
  | .createProjection _ => true
  | .deleteProjection _ => true
  | _ => false

variable (J : JsonText) {E : Duktape} {ι : Type} [DecidableEq ι]

/-- One thread takes a step, or the process ends and is started again. -/
inductive ThreadStep (calls : ι → Rpc) :
    Threads ι E → ThreadLabel ι → Threads ι E → Prop
  | invoked {t : Threads ι E} {i : ι} (hThread : t.thread i = .waiting) :
      ThreadStep calls t (.moment (.invoked i))
        ⟨t.handler, Function.update t.thread i .called⟩
  | statement {t : Threads ι E} {i : ι} {reply : RpcReply} {h : Handler E} (plan : Plan)
      (hThread : t.thread i = .called) (hOne : oneStatement (calls i) = true)
      (hCall : call J plan (calls i) t.handler = .returned reply h) :
      ThreadStep calls t (.moment (.took i reply))
        ⟨h, Function.update t.thread i (.taken reply)⟩
  | opened {t : Threads ι E} {i : ι} (plan : Plan) (query : Query)
      (hThread : t.thread i = .called) (hCall : calls i = query.rpc) :
      ThreadStep calls t (.worked i)
        ⟨t.handler, Function.update t.thread i (.reading plan query none [])⟩
  | row {t : Threads ι E} {i : ι} {plan : Plan} {query : Query}
      {position : Option (Int ×ₗ Int)} {found : List TableRow} {row : TableRow}
      (hThread : t.thread i = .reading plan query position found)
      (hNext : next (TableRow.key plan) position (query.rows plan t.handler.connection.database) =
        some row) :
      ThreadStep calls t (.worked i)
        ⟨t.handler, Function.update t.thread i
          (.reading plan query (some (row.key plan)) (found ++ [row]))⟩
  | rowsEnded {t : Threads ι E} {i : ι} {plan : Plan} {query : Query}
      {position : Option (Int ×ₗ Int)} {found : List TableRow}
      (hThread : t.thread i = .reading plan query position found)
      (hNext : next (TableRow.key plan) position
        (query.rows plan t.handler.connection.database) = none) :
      ThreadStep calls t (.moment (.took i (query.reply found)))
        ⟨t.handler, Function.update t.thread i (.taken (query.reply found))⟩
  | playStarted {t : Threads ι E} {i : ι} {request : PlayReq}
      (hThread : t.thread i = .called) (hCall : calls i = .play request) :
      ThreadStep calls t (.worked i)
        ⟨t.handler, Function.update t.thread i (.playing request .start)⟩
  | played {t : Threads ι E} {i : ι} {request : PlayReq} {phase phase' : Phase}
      {h : Handler E} (plan : Plan) (hThread : t.thread i = .playing request phase)
      (hAdvance : advance J plan request.toPlayRequest phase t.handler = .returned phase' h) :
      ThreadStep calls t (.worked i)
        ⟨h, Function.update t.thread i (.playing request phase')⟩
  | playEnded {t : Threads ι E} {i : ι} {request : PlayReq} {reply : PlayResp}
      (hThread : t.thread i = .playing request (.done reply)) :
      ThreadStep calls t (.moment (.took i (.play reply)))
        ⟨t.handler, Function.update t.thread i (.taken (.play reply))⟩
  | responded {t : Threads ι E} {i : ι} {reply : RpcReply}
      (hThread : t.thread i = .taken reply) :
      ThreadStep calls t (.moment (.responded i reply))
        ⟨t.handler, Function.update t.thread i .finished⟩
  | restarted {t : Threads ι E} {c : Connection}
      (hInit : initDb (some t.handler.connection.database) = .returned () c) :
      ThreadStep calls t (.moment .crashed)
        ⟨⟨c, DukContext.fresh E⟩, fun i => (t.thread i).afterCrash⟩

/-- No call was invoked. -/
def Threads.starting (ι : Type) (h : Handler E) : Threads ι E := ⟨h, fun _ => .waiting⟩

/-- The event store takes a call, or the process is started again. -/
inductive StorePoint (calls : ι → Rpc) (s : EventStore) :
    Point ι RpcReply → EventStore → Prop
  | took {i : ι} {reply : RpcReply} {s' : EventStore}
      (hStep : EventStoreStep s (.answered (calls i) reply) s') :
      StorePoint calls s (.took i reply) s'
  -- This procedure replies with stored events, but not with those of one instant.
  | typeRead {i : ι} {request : GetEventsByStreamTypeReq} {reply : GetEventsByStreamTypeResp}
      (hCall : calls i = .getEventsByStreamType request)
      (hStored : ∀ e ∈ reply.events, e ∈ s.read e.streamId) :
      StorePoint calls s (.took i (.getEventsByStreamType reply)) s
  | restarted {s' : EventStore} (hStep : EventStoreStep s .restarted s') :
      StorePoint calls s .crashed s'

/-! ## Reading undisturbed -/

variable {J} {plan : Plan} {h h' : Handler E} {c c' : Connection}

theorem streamMsg_stream (rows : List StreamRow) :
    (rows.map TableRow.stream).filterMap TableRow.streamMsg =
      (rows.map StreamRow.toStream).map setValues := by
  rw [List.filterMap_map, List.map_map, ← List.filterMap_eq_map]
  rfl

theorem eventMsg_event (rows : List EventRow) :
    (rows.map TableRow.event).filterMap TableRow.eventMsg =
      (rows.map EventRow.toEvent).map setEventValues := by
  rw [List.filterMap_map, List.map_map, ← List.filterMap_eq_map]
  rfl

theorem projectionMsg_projection (byType : Bool) (rows : List ProjectionRow) :
    (rows.map TableRow.projection).filterMap (TableRow.projectionMsg byType) =
      (rows.map fun row =>
        if byType then Projection.new (getInt row.id) row.data row.type
        else Projection.new (getInt row.id) row.type row.data).map setProjectionValues := by
  rw [List.filterMap_map, List.map_map, ← List.filterMap_eq_map]
  rfl

/-- A procedure that is not overtaken replies with the rows of its query. -/
theorem call_query (query : Query) (hReady : h.connection.Ready) :
    call J plan query.rpc h =
      .returned (query.reply (query.rows plan h.connection.database)) h := by
  cases query with
  | getAllStreams =>
      rw [Query.reply, Query.rows, streamMsg_stream]
      exact onConnection_call (Prog.bind_of_returned (Db.all_apply hReady))
  | getStreamsByType request =>
      rw [Query.reply, Query.rows, streamMsg_stream]
      exact onConnection_call (Prog.bind_of_returned (byType_apply _ hReady))
  | getEventsByStreamId request =>
      rw [Query.reply, Query.rows, eventMsg_event]
      exact onConnection_call (Prog.bind_of_returned (getEvents_apply plan request.id hReady))
  | getEventsByStreamType request =>
      rw [Query.reply, Query.rows, eventMsg_event]
      exact onConnection_call
        (Prog.bind_of_returned (getEventsByType_apply plan request.type hReady))
  | getProjections request =>
      refine onConnection_call ?_
      unfold getProjections
      by_cases hType : request.type = ""
      · rw [if_pos hType]
        refine (Prog.bind_of_returned (ProjectionRepo.all_apply hReady)).trans ?_
        rw [Query.rows, projectionMsg_projection]
        simp [hType]
      · rw [if_neg hType]
        refine (Prog.bind_of_returned (ProjectionRepo.type_apply _ hReady)).trans ?_
        rw [Query.rows, projectionMsg_projection]
        simp [hType]

/-! ## What the tables do meanwhile -/

/-- A procedure other than `Play` on the connection. -/
def RpcStep (c : Connection) (_label : Unit) (c' : Connection) : Prop :=
  ∃ plan rpc reply, RpcEffect plan c rpc reply c'

theorem rpcStep_refl (c : Connection) : RpcStep c () c :=
  ⟨⟨.streamsOuter, .rowid⟩, _, _, .getAllStreams⟩

theorem RpcStep.historyInvariant (hInv : HistoryInvariant c) (hStep : RpcStep c () c') :
    HistoryInvariant c' := by
  obtain ⟨plan, rpc, reply, hEffect⟩ := hStep
  exact hEffect.historyInvariant hInv

/-- No procedure takes a stream or an event away. -/
theorem RpcStep.tables (hStep : RpcStep c () c') :
    c.database.streams <+: c'.database.streams ∧ c.database.events <+: c'.database.events := by
  obtain ⟨plan, rpc, reply, hEffect⟩ := hStep
  cases hEffect with
  | createStream request => exact ⟨List.prefix_append _ _, List.prefix_rfl⟩
  | pushed request hAccepted => exact ⟨List.prefix_rfl, List.prefix_append _ _⟩
  | _ => exact ⟨List.prefix_rfl, List.prefix_rfl⟩

theorem stream_exists_mono (hStep : RpcStep c () c') {streamId : Int}
    (hExists : ∃ s ∈ c.database.streams, s.id = streamId) :
    ∃ s ∈ c'.database.streams, s.id = streamId := by
  obtain ⟨s, hMem, hId⟩ := hExists
  exact ⟨s, hStep.tables.1.subset hMem, hId⟩

/-- New rows come after all others of the query. -/
def Query.ordered : Query → Prop
  | getAllStreams => True
  | getStreamsByType _ => True
  | getEventsByStreamId _ => True
  | _ => False

theorem streams_sorted (hInv : HistoryInvariant c) {rows : List StreamRow}
    (hRows : rows.Sublist c.database.streams) :
    (rows.map TableRow.stream).Pairwise fun a b => a.key plan < b.key plan := by
  rw [List.pairwise_map]
  refine (hInv.store.streamIds.sublist hRows).imp ?_
  intro a b hLess
  exact Prod.Lex.toLex_lt_toLex.mpr (Or.inr ⟨rfl, hLess⟩)

theorem Query.appends {query : Query} (hOrdered : query.ordered) (plan : Plan) :
    Appends RpcStep HistoryInvariant (fun c => query.rows plan c.database)
      (TableRow.key plan) where
  keep := fun c _ c' hInv hStep => hStep.historyInvariant hInv
  sorted := by
    intro c hInv
    cases query with
    | getAllStreams => exact streams_sorted hInv (List.Sublist.refl _)
    | getStreamsByType request => exact streams_sorted hInv List.filter_sublist
    | getEventsByStreamId request =>
        rw [Query.rows, List.pairwise_map]
        exact rowsOfStream_sorted hInv.store
    | getEventsByStreamType request => exact hOrdered.elim
    | getProjections request => exact hOrdered.elim
  extend := by
    intro c label c' hInv hStep
    obtain ⟨hStreams, hEvents⟩ := hStep.tables
    cases query with
    | getAllStreams => exact hStreams.map _
    | getStreamsByType request => exact (hStreams.filter _).map _
    | getEventsByStreamId request =>
        refine List.IsPrefix.map _ ?_
        rw [rowsOfStream_eq hInv.store, rowsOfStream_eq (hStep.historyInvariant hInv).store]
        split
        · rw [if_pos (stream_exists_mono hStep ‹_›)]
          exact hEvents.filter _
        -- Without the stream there are no rows yet.
        · exact List.nil_prefix
    | getEventsByStreamType request => exact hOrdered.elim
    | getProjections request => exact hOrdered.elim

/-- The rows of a type stay. -/
theorem rowsOfType_subset (hInv : HistoryInvariant c) (hStep : RpcStep c () c') (type : String) :
    rowsOfType plan c.database type ⊆ rowsOfType plan c'.database type := by
  intro row hRow
  obtain ⟨hStreams, hEvents⟩ := hStep.tables
  rw [mem_rowsOfType hInv.store.streamIds, belongsToType_iff] at hRow
  rw [mem_rowsOfType (hStep.historyInvariant hInv).store.streamIds, belongsToType_iff]
  obtain ⟨hMem, s, hStream, hId, hType⟩ := hRow
  exact ⟨hEvents.subset hMem, s, hStreams.subset hStream, hId, hType⟩

/-- The message of a stored event of an existing stream is what is read of the stream. -/
theorem eventMsg_mem_read (hInv : HistoryInvariant c) {row : EventRow}
    (hMem : row ∈ c.database.events) (hExists : ∃ s ∈ c.database.streams, s.id = row.streamId) :
    setEventValues row.toEvent ∈ (storeOf c).read (setEventValues row.toEvent).streamId := by
  obtain ⟨streamId, version, hId, -⟩ := hInv.eventInts row hMem
  have hSame : (setEventValues row.toEvent).streamId = streamId := by
    show getInt row.streamId = streamId
    rw [hId, getInt, Int32.ofInt_toInt]
  rw [hSame, storeOf_read hInv, ← hId, if_pos hExists]
  exact List.mem_map_of_mem (List.mem_map_of_mem (mem_eventsOf.mpr ⟨hMem, rfl⟩))

/-! ## What a thread has found -/

/-- What a query has found so far: where new rows come last, all rows up to its position;
of the events of a type, nothing but such events. -/
def Query.Found (plan : Plan) (c : Connection) (position : Option (Int ×ₗ Int))
    (found : List TableRow) (query : Query) : Prop :=
  match query with
  | getEventsByStreamType request => found ⊆ (rowsOfType plan c.database request.type).map .event
  | getProjections _ => True
  | _ => FoundSoFar HistoryInvariant (fun c => query.rows plan c.database) (TableRow.key plan)
      ⟨c, position, found, false⟩

variable {query : Query} {position : Option (Int ×ₗ Int)} {found : List TableRow}

theorem Query.found_of_ordered (hOrdered : query.ordered) :
    query.Found plan c position found ↔
      FoundSoFar HistoryInvariant (fun c => query.rows plan c.database) (TableRow.key plan)
        ⟨c, position, found, false⟩ := by
  cases query with
  | getEventsByStreamType request => exact hOrdered.elim
  | getProjections request => exact hOrdered.elim
  | _ => exact Iff.rfl

/-- The cases of what is proved of a query. -/
theorem Query.cases_ordered (query : Query) :
    query.ordered ∨ (∃ request, query = .getEventsByStreamType request) ∨
      ∃ request, query = .getProjections request := by
  cases query <;> simp [Query.ordered]

theorem Query.found_start (query : Query) (plan : Plan) (hInv : HistoryInvariant c) :
    query.Found plan c none [] := by
  rcases query.cases_ordered with hOrdered | ⟨request, rfl⟩ | ⟨request, rfl⟩
  · rw [Query.found_of_ordered hOrdered]
    exact ⟨hInv, List.nil_prefix, rfl, fun h => absurd h (by simp)⟩
  · exact List.nil_subset _
  · trivial

/-- Procedures on other threads do not change what was found. -/
theorem Query.Found.step (hFound : query.Found plan c position found) (hInv : HistoryInvariant c)
    (hStep : RpcStep c () c') : query.Found plan c' position found := by
  rcases query.cases_ordered with hOrdered | ⟨request, rfl⟩ | ⟨request, rfl⟩
  · rw [Query.found_of_ordered hOrdered] at hFound ⊢
    exact ReadStep.foundSoFar (Query.appends hOrdered plan) hFound (.store rfl hStep)
  · exact List.Subset.trans hFound (List.map_subset _ (rowsOfType_subset hInv hStep _))
  · trivial

theorem Query.Found.row {row : TableRow} (hFound : query.Found plan c position found)
    (hNext : next (TableRow.key plan) position (query.rows plan c.database) = some row) :
    query.Found plan c (some (row.key plan)) (found ++ [row]) := by
  rcases query.cases_ordered with hOrdered | ⟨request, rfl⟩ | ⟨request, rfl⟩
  · rw [Query.found_of_ordered hOrdered] at hFound ⊢
    exact ReadStep.foundSoFar (Query.appends hOrdered plan) hFound (.row rfl hNext)
  · refine List.append_subset.mpr ⟨hFound, List.cons_subset.mpr ⟨?_, List.nil_subset _⟩⟩
    exact mem_of_next hNext
  · trivial

variable {ι : Type} {calls : ι → Rpc} {i : ι}

theorem Query.rpc_ne_play (query : Query) (request : PlayReq) : query.rpc ≠ .play request := by
  cases query <;> simp [Query.rpc]

/-- At its end a query gives the reply that the event store gives at this moment. -/
theorem Query.Found.ended (J : JsonText) (hFound : query.Found plan h.connection position found)
    (hInv : HistoryInvariant h.connection)
    (hNext : next (TableRow.key plan) position (query.rows plan h.connection.database) = none)
    (hCall : calls i = query.rpc) :
    StorePoint calls (storeOf h.connection) (.took i (query.reply found))
      (storeOf h.connection) := by
  rcases query.cases_ordered with hOrdered | ⟨request, rfl⟩ | ⟨request, rfl⟩
  · rw [Query.found_of_ordered hOrdered] at hFound
    have hAll : found = query.rows plan h.connection.database :=
      (ReadStep.foundSoFar (Query.appends hOrdered plan) hFound (.done rfl hNext)).finished rfl
    have hEffect := call_effect hInv.store.ready query.rpc_ne_play
      (@call_query J E plan h query hInv.store.ready)
    refine .took ?_
    rw [hCall, hAll]
    exact hEffect.eventStoreStep hInv
  · refine .typeRead hCall fun e hMem => ?_
    obtain ⟨row, hRow, hMsg⟩ := List.mem_filterMap.mp hMem
    obtain ⟨eventRow, hType, rfl⟩ := List.mem_map.mp (hFound hRow)
    rw [mem_rowsOfType hInv.store.streamIds, belongsToType_iff] at hType
    obtain ⟨hStored, s, hStream, hId, -⟩ := hType
    rw [← Option.some.inj hMsg]
    exact eventMsg_mem_read hInv hStored ⟨s, hStream, hId⟩
  · refine .took ?_
    rw [hCall]
    exact .getProjections request _

/-! ## One moment of the event store -/

variable {s s' : EventStore}

theorem StorePoint.grows {point : Point ι RpcReply} (hPoint : StorePoint calls s point s') :
    s.Grows s' := by
  cases hPoint with
  | took hStep => exact hStep.grows
  | typeRead hCall hStored => exact .refl _
  | restarted hStep => exact hStep.grows

theorem storePoints_grow {points : List (Point ι RpcReply)}
    (hRun : Run (StorePoint calls) s points s') : s.Grows s' := by
  refine hRun.stateInvariant (fun s' => s.Grows s') (.refl s) ?_
  intro t point u hGrows hPoint
  exact hGrows.trans hPoint.grows

/-- The moment at which a stream is read. -/
theorem StorePoint.read {j : ι} {request : GetEventsByStreamIdReq}
    {reply : GetEventsByStreamIdResp} (hCall : calls j = .getEventsByStreamId request)
    (hPoint : StorePoint calls s (.took j (.getEventsByStreamId reply)) s') :
    reply.events = s.read request.id ∧ s' = s := by
  cases hPoint with
  | took hStep =>
      rw [hCall] at hStep
      exact hStep.read_reply

/-- The moment at which a push is taken. -/
theorem StorePoint.push {j : ι} {request : PushEventReq} {reply : PushEventResp}
    (hCall : calls j = .pushEvent request)
    (hPoint : StorePoint calls s (.took j (.pushEvent reply)) s') :
    EventStoreStep s (.answered (.pushEvent request) (.pushEvent reply)) s' := by
  cases hPoint with
  | took hStep => rwa [hCall] at hStep

/-- After an accepted push to a stream that existed, every later state of the store has the
event at the place of its version. -/
theorem read_after_push {t : EventStore} {request : PushEventReq} {status : ResponseStatus}
    (hPush : EventStoreStep s (.answered (.pushEvent request) (.pushEvent ⟨status⟩)) s')
    (hHas : s.has request.toEvent.streamId.toInt) (hZero : status.status = 0)
    (hGrown : s'.Grows t) :
    ∃ id, (t.read request.toEvent.streamId)[(request.toEvent.version.toInt - 1).toNat]? =
      some (setEventValues { request.toEvent with id := id }) := by
  have hVersion := (hPush.push_reply hHas).mp hZero
  obtain ⟨id, hLog⟩ := hPush.pushed_log hZero
  obtain ⟨more, hMore⟩ := hGrown.log request.toEvent.streamId.toInt
  have hPlace : (request.toEvent.version.toInt - 1).toNat =
      (s.log request.toEvent.streamId.toInt).length := by omega
  refine ⟨getInt id, ?_⟩
  rw [EventStore.read, if_pos (hGrown.has (hPush.grows.has hHas)), hPlace, ← hMore, hLog,
    List.getElem?_mapIdx, ← Entry.message_next id hVersion]
  simp

/-! ## The threads -/

/-- What holds of the thread of a call. -/
def Thread.Holds (rpc : Rpc) (c : Connection) : Thread → Prop
  | reading plan query position found => rpc = query.rpc ∧ query.Found plan c position found
  | playing request _ => rpc = .play request
  | _ => True

structure ThreadsInvariant (calls : ι → Rpc) (t : Threads ι E) : Prop where
  history : HistoryInvariant t.handler.connection
  thread : ∀ i, (t.thread i).Holds (calls i) t.handler.connection

variable [DecidableEq ι] {t t' : Threads ι E} {thread : Thread} {label : ThreadLabel ι}

theorem Thread.Holds.step {rpc : Rpc} (hHolds : thread.Holds rpc c) (hInv : HistoryInvariant c)
    (hStep : RpcStep c () c') : thread.Holds rpc c' := by
  cases thread with
  | reading plan query position found => exact ⟨hHolds.1, hHolds.2.step hInv hStep⟩
  | playing request phase => exact hHolds
  | _ => trivial

/-- One thread takes a step while the tables change as by a procedure. -/
theorem ThreadsInvariant.update (hInv : ThreadsInvariant calls t)
    (hStep : RpcStep t.handler.connection () h'.connection)
    (hThread : thread.Holds (calls i) h'.connection) :
    ThreadsInvariant calls ⟨h', Function.update t.thread i thread⟩ where
  history := hStep.historyInvariant hInv.history
  thread := by
    intro j
    show (Function.update t.thread i thread j).Holds (calls j) h'.connection
    by_cases hEq : j = i
    · subst hEq
      rw [Function.update_self]
      exact hThread
    · rw [Function.update_of_ne hEq]
      exact (hInv.thread j).step hInv.history hStep

theorem phases_update (threads : ι → Thread) (i : ι) (thread : Thread) :
    (fun j => (Function.update threads i thread j).phase) =
      Function.update (fun j => (threads j).phase) i thread.phase := by
  funext j
  by_cases hEq : j = i
  · subst hEq
    rw [Function.update_self, Function.update_self]
  · rw [Function.update_of_ne hEq, Function.update_of_ne hEq]

/-- The step of a thread in the midst of its work. -/
theorem phases_worked {threads : ι → Thread} (hPhase : (threads i).phase = thread.phase) :
    PhaseStep (fun j => (threads j).phase) none
      fun j => (Function.update threads i thread j).phase := by
  rw [phases_update, ← hPhase, Function.update_eq_self]
  exact .works

theorem phase_afterCrash (thread : Thread) : thread.afterCrash.phase = thread.phase.afterCrash := by
  cases thread <;> rfl

/-- A step of a play leaves the connection as it is. -/
theorem advance_connection {request : PlayRequest} {phase phase' : Phase}
    (hAdvance : advance J plan request phase h = .returned phase' h') :
    h'.connection = h.connection := by
  cases phase with
  | start =>
      rw [(advance_of_reads (reads_projection _) Phase.loadedProjection hAdvance rfl).1]
  | loadedProjection proj =>
      rw [(advance_of_reads (reads_loadEvents plan _) (Phase.loadedEvents proj) hAdvance rfl).1]
  | loadedEvents proj events =>
      exact (advance_of_context (fun _ => Phase.evaluated events) hAdvance rfl).1
  | evaluated events =>
      exact (advance_of_context (fun state => Phase.done (GrpcService.reply J (.ok state)))
        hAdvance rfl).1
  | done reply =>
      have hDone : advance J plan request (.done reply) h = .returned (.done reply) h := rfl
      rw [hDone, Outcome.returned.injEq] at hAdvance
      rw [hAdvance.2]

/-- A thread goes on with its work. -/
theorem works_simulates (hInv : ThreadsInvariant calls t)
    (hConnection : h'.connection = t.handler.connection)
    (hHolds : thread.Holds (calls i) t.handler.connection)
    (hPhase : (t.thread i).phase = thread.phase) :
    ThreadsInvariant calls ⟨h', Function.update t.thread i thread⟩ ∧
      PhaseStep (fun j => (t.thread j).phase) none
        (fun j => (Function.update t.thread i thread j).phase) ∧
      storeOf h'.connection = storeOf t.handler.connection := by
  refine ⟨hInv.update ?_ ?_, phases_worked hPhase, congrArg storeOf hConnection⟩
  · rw [hConnection]
    exact rpcStep_refl _
  · rwa [hConnection]

/-- A thread makes its reply. -/
theorem takes_simulates {reply : RpcReply} (hInv : ThreadsInvariant calls t)
    (hStep : RpcStep t.handler.connection () h'.connection)
    (hRunning : (t.thread i).phase = .running)
    (hPoint : StorePoint calls (storeOf t.handler.connection) (.took i reply)
      (storeOf h'.connection)) :
    ThreadsInvariant calls ⟨h', Function.update t.thread i (.taken reply)⟩ ∧
      PhaseStep (fun j => (t.thread j).phase) (some (.took i reply))
        (fun j => (Function.update t.thread i (.taken reply) j).phase) ∧
      StorePoint calls (storeOf t.handler.connection) (.took i reply)
        (storeOf h'.connection) := by
  refine ⟨hInv.update hStep trivial, ?_, hPoint⟩
  rw [phases_update]
  exact .took hRunning

/-- One step: the invariant, the phases of the calls and the event store. -/
theorem ThreadStep.simulates (hInv : ThreadsInvariant calls t)
    (hStep : ThreadStep J calls t label t') :
    ThreadsInvariant calls t' ∧
      PhaseStep (fun i => (t.thread i).phase) label.toMoment (fun i => (t'.thread i).phase) ∧
      Advances (StorePoint calls) (storeOf t.handler.connection)
        (label.toMoment.bind Moment.point) (storeOf t'.handler.connection) := by
  have hSame := rpcStep_refl t.handler.connection
  cases hStep with
  | @invoked i hThread =>
      refine ⟨hInv.update hSame trivial, ?_, rfl⟩
      rw [phases_update]
      exact .invoked (by rw [hThread]; rfl)
  | @statement i reply h plan hThread hOne hCall =>
      have hPlay : ∀ request, calls i ≠ .play request := by
        intro request hPlay
        rw [hPlay] at hOne
        simp [oneStatement] at hOne
      have hEffect := call_effect hInv.history.store.ready hPlay hCall
      exact takes_simulates hInv ⟨plan, _, _, hEffect⟩ (by rw [hThread]; rfl)
        (.took (hEffect.eventStoreStep hInv.history))
  | @opened i plan query hThread hCall =>
      exact works_simulates hInv rfl ⟨hCall, query.found_start plan hInv.history⟩
        (by rw [hThread]; rfl)
  | @row i plan query position found row hThread hNext =>
      have hHolds := hInv.thread i
      rw [hThread] at hHolds
      exact works_simulates hInv rfl ⟨hHolds.1, hHolds.2.row hNext⟩ (by rw [hThread]; rfl)
  | @rowsEnded i plan query position found hThread hNext =>
      have hHolds := hInv.thread i
      rw [hThread] at hHolds
      exact takes_simulates hInv hSame (by rw [hThread]; rfl)
        (hHolds.2.ended J hInv.history hNext hHolds.1)
  | @playStarted i request hThread hCall =>
      exact works_simulates hInv rfl hCall (by rw [hThread]; rfl)
  | @played i request phase phase' h plan hThread hAdvance =>
      have hHolds := hInv.thread i
      rw [hThread] at hHolds
      exact works_simulates hInv (advance_connection hAdvance) hHolds (by rw [hThread]; rfl)
  | @playEnded i request reply hThread =>
      have hHolds : calls i = .play request := by
        have hAt := hInv.thread i
        rwa [hThread] at hAt
      refine takes_simulates hInv hSame (by rw [hThread]; rfl) (.took ?_)
      rw [hHolds]
      exact .play request reply
  | @responded i reply hThread =>
      refine ⟨hInv.update hSame trivial, ?_, rfl⟩
      rw [phases_update]
      exact .responded (by rw [hThread]; rfl)
  | restarted hInit =>
      obtain ⟨hHistory, hStore⟩ := (@ServiceStep.restarted J E _ _ hInit).refines hInv.history
      refine ⟨⟨hHistory, fun i => ?_⟩, ?_, .restarted hStore⟩
      · show (t.thread i).afterCrash.Holds (calls i) _
        cases t.thread i <;> trivial
      · simp only [phase_afterCrash]
        exact .crashed

theorem threads_simulate (J : JsonText) (E : Duktape) (calls : ι → Rpc) :
    Simulates (@ThreadStep J E ι _ calls) (ThreadsInvariant calls) ThreadLabel.toMoment
      (fun t i => (t.thread i).phase) (fun t => storeOf t.handler.connection)
      (StorePoint calls) :=
  fun _ _ _ hInv hStep => hStep.simulates hInv

omit [DecidableEq ι] in
theorem starting_invariant (hReachable : Reachable h.connection) :
    ThreadsInvariant calls (.starting ι h) :=
  ⟨hReachable.invariant, fun _ => trivial⟩

theorem invariant_of_run {labels : List (ThreadLabel ι)} (hReachable : Reachable h.connection)
    (hRun : Run (ThreadStep J calls) (.starting ι h) labels t) : ThreadsInvariant calls t :=
  ((threads_simulate J E calls).runs (starting_invariant hReachable) hRun).1

/-! ## No call waits for another -/

/-- Is it a step of this call's thread? -/
def ThreadLabel.BelongsTo {ι : Type} (i : ι) : ThreadLabel ι → Prop
  | worked j => j = i
  | moment m => m.call = some i

theorem rpc_cases {rpc : Rpc} (hPlay : ∀ request, rpc ≠ .play request) :
    oneStatement rpc = true ∨ ∃ query : Query, rpc = query.rpc := by
  cases rpc with
  | getAllStreams => exact Or.inr ⟨.getAllStreams, rfl⟩
  | getStreamsByType request => exact Or.inr ⟨.getStreamsByType request, rfl⟩
  | getEventsByStreamId request => exact Or.inr ⟨.getEventsByStreamId request, rfl⟩
  | getEventsByStreamType request => exact Or.inr ⟨.getEventsByStreamType request, rfl⟩
  | getProjections request => exact Or.inr ⟨.getProjections request, rfl⟩
  | play request => exact absurd rfl (hPlay request)
  | _ => exact Or.inl rfl

/-- The thread of the call comes to its reply by its own steps. -/
def MakesReply (J : JsonText) (calls : ι → Rpc) (t : Threads ι E) (i : ι) : Prop :=
  ∃ own reply t', Run (ThreadStep J calls) t own t' ∧ t'.thread i = .taken reply ∧
    ∀ label ∈ own, label.BelongsTo i

theorem makesReply_of_took {reply : RpcReply}
    (hStep : ThreadStep J calls t (.moment (.took i reply))
      ⟨h', Function.update t.thread i (.taken reply)⟩) : MakesReply J calls t i :=
  ⟨[.moment (.took i reply)], reply, _, .single hStep, Function.update_self _ _ _,
    by simp [ThreadLabel.BelongsTo, Moment.call]⟩

theorem MakesReply.of_worked (hStep : ThreadStep J calls t (.worked i) t')
    (hRest : MakesReply J calls t' i) : MakesReply J calls t i := by
  obtain ⟨own, reply, u, hOwn, hTaken, hBelongs⟩ := hRest
  refine ⟨.worked i :: own, reply, u, hOwn.head hStep, hTaken, ?_⟩
  intro label hMem
  rcases List.mem_cons.mp hMem with rfl | hLater
  · exact rfl
  · exact hBelongs label hLater

/-- A query comes to its end: there are fewer rows left after each that it reads. -/
theorem reading_makesReply {n : Nat} (hThread : t.thread i = .reading plan query position found)
    (hLeft : ((query.rows plan t.handler.connection.database).filter
      fun row => After (TableRow.key plan) position row).length = n) :
    MakesReply J calls t i := by
  induction n using Nat.strongRecOn generalizing t position found with
  | ind n ih =>
      cases hNext : next (TableRow.key plan) position
          (query.rows plan t.handler.connection.database) with
      | none => exact makesReply_of_took (.rowsEnded hThread hNext)
      | some row =>
          have hFewer := remaining_lt hNext
          rw [hLeft] at hFewer
          have hThread' : (⟨t.handler, Function.update t.thread i
              (.reading plan query (some (row.key plan)) (found ++ [row]))⟩ :
                Threads ι E).thread i = _ := Function.update_self _ _ _
          exact .of_worked (.row hThread hNext) (ih _ hFewer hThread' rfl)

/-! ## A read that is overtaken -/

def secondPushReq : PushEventReq where
  streamId := 1
  event := some ⟨0, 1, "UserRenamed", "{}", 2⟩

/-- One call pushes, and all others read. -/
def sampleCalls : ℕ → Rpc
  | 1 => .pushEvent secondPushReq
  | _ => .getEventsByStreamId ⟨1⟩

def twoEventsHandler : Handler Sample.engine where
  connection := twoEventsConnection
  context := DukContext.fresh Sample.engine

/-- A read of stream 1 has found the first event when the second one is pushed. -/
def overtaken : Threads ℕ Sample.engine where
  handler := twoEventsHandler
  thread
    | 0 => .reading samplePlan (.getEventsByStreamId ⟨1⟩) (some (toLex (1, 1)))
        [.event ⟨1, 1, "UserCreated", "{}", 1⟩]
    | 1 => .finished
    | _ => .waiting

/-- The read begins, and a push is invoked. -/
def beforePush : List (ThreadLabel ℕ) :=
  [.moment (.invoked 0), .worked 0, .worked 0, .moment (.invoked 1)]

def overtakenLabels : List (ThreadLabel ℕ) :=
  beforePush ++ [.moment (.took 1 (.pushEvent ⟨⟨0, "OK"⟩⟩)),
    .moment (.responded 1 (.pushEvent ⟨⟨0, "OK"⟩⟩))]

theorem push_overtakes :
    ∃ u v, u.handler = oneEventHandler ∧
      Run (ThreadStep Sample.jsonText sampleCalls) (.starting ℕ oneEventHandler) beforePush u ∧
      ThreadStep Sample.jsonText sampleCalls u (.moment (.took 1 (.pushEvent ⟨⟨0, "OK"⟩⟩))) v ∧
      ThreadStep Sample.jsonText sampleCalls v
        (.moment (.responded 1 (.pushEvent ⟨⟨0, "OK"⟩⟩))) overtaken := by
  have hPush : call Sample.jsonText samplePlan (.pushEvent secondPushReq) oneEventHandler =
      .returned (.pushEvent ⟨⟨0, "OK"⟩⟩) twoEventsHandler := rfl
  obtain ⟨threads, hThreads, u, v, hRest⟩ : ∃ threads, threads = overtaken.thread ∧
      ∃ u v, u.handler = oneEventHandler ∧
        Run (ThreadStep Sample.jsonText sampleCalls) (.starting ℕ oneEventHandler) beforePush u ∧
        ThreadStep Sample.jsonText sampleCalls u (.moment (.took 1 (.pushEvent ⟨⟨0, "OK"⟩⟩))) v ∧
        ThreadStep Sample.jsonText sampleCalls v
          (.moment (.responded 1 (.pushEvent ⟨⟨0, "OK"⟩⟩))) ⟨twoEventsHandler, threads⟩ := by
    have hBefore : Run (ThreadStep Sample.jsonText sampleCalls) (.starting ℕ oneEventHandler)
        beforePush ⟨oneEventHandler, _⟩ := .tail (.tail (.tail (.single (.invoked rfl))
      (.opened samplePlan (.getEventsByStreamId ⟨1⟩) rfl rfl)) (.row rfl rfl)) (.invoked rfl)
    refine ⟨_, ?_, _, _, rfl, hBefore, .statement samplePlan rfl rfl hPush, .responded rfl⟩
    funext i
    match i with
    | 0 => rfl
    | 1 => rfl
    | n + 2 => rfl
  rw [hThreads] at hRest
  exact ⟨u, v, hRest⟩

theorem overtaken_run :
    Run (ThreadStep Sample.jsonText sampleCalls) (.starting ℕ oneEventHandler) overtakenLabels
      overtaken := by
  obtain ⟨u, v, -, hBefore, hTook, hResponded⟩ := push_overtakes
  exact hBefore.append ((Run.single hTook).tail hResponded)

def bothRows : List TableRow :=
  [.event ⟨1, 1, "UserCreated", "{}", 1⟩, .event ⟨2, 1, "UserRenamed", "{}", 2⟩]

def bothEvents : RpcReply :=
  .getEventsByStreamId
    ⟨none, [⟨1, 1, "UserCreated", "{}", 1⟩, ⟨2, 1, "UserRenamed", "{}", 2⟩]⟩

/-- The read that was overtaken ends, and another one follows. -/
def laterLabels : List (ThreadLabel ℕ) :=
  [.worked 0, .moment (.took 0 bothEvents), .moment (.responded 0 bothEvents),
    .moment (.invoked 2), .worked 2, .worked 2, .worked 2, .moment (.took 2 bothEvents),
    .moment (.responded 2 bothEvents)]

theorem later_run :
    ∃ t, Run (ThreadStep Sample.jsonText sampleCalls) overtaken laterLabels t := by
  have hReply : Query.reply bothRows (.getEventsByStreamId ⟨1⟩) = bothEvents := rfl
  unfold laterLabels
  rw [← hReply]
  exact ⟨_, .tail (.tail (.tail (.tail (.tail (.tail (.tail (.tail (.single (.row rfl rfl))
    (.rowsEnded rfl rfl)) (.responded rfl)) (.invoked rfl))
    (.opened samplePlan (.getEventsByStreamId ⟨1⟩) rfl rfl)) (.row rfl rfl)) (.row rfl rfl))
    (.rowsEnded rfl rfl)) (.responded rfl)⟩

/-! ## What holds of every run -/

/-- For every set of calls, however their threads take turns and however often the process
ends in between: what is seen of the calls is linearizable over the event store. -/
theorem threads_linearizable {labels : List (ThreadLabel ι)}
    (hReachable : Reachable h.connection)
    (hRun : Run (ThreadStep J calls) (.starting ι h) labels t) :
    Linearizable (StorePoint calls) (storeOf h.connection) (seen labels) := by
  have hStart : ThreadsInvariant calls (.starting ι h) := starting_invariant hReachable
  have hLinear := linearizable_of_run (threads_simulate J E calls) hStart (fun _ => rfl) hRun
  exact hLinear

theorem threads_linearizable_overtaken :
    Linearizable (StorePoint sampleCalls) (storeOf oneEventConnection)
      [.invoked 0, .invoked 1, .responded 1 (.pushEvent ⟨⟨0, "OK"⟩⟩), .responded 0 bothEvents,
        .invoked 2, .responded 2 bothEvents] := by
  obtain ⟨t, hLater⟩ := later_run
  exact threads_linearizable oneEventConnection_reachable (overtaken_run.append hLater)

/-- A read of a stream that is invoked after a call has taken effect, so in particular after
the call was answered, knows of that call.  After a read of the stream it begins with what
that one found, and after an accepted push to a stream that existed when the push took effect
it has the pushed event at the place of its version, whatever else goes on at the same
time. -/
theorem later_reads_know {before after : List (ThreadLabel ι)} {u v : Threads ι E} {i j : ι}
    {reply : RpcReply} {streamId : Int32} {later : GetEventsByStreamIdResp}
    (hReachable : Reachable h.connection)
    (hBefore : Run (ThreadStep J calls) (.starting ι h) before u)
    (hTook : ThreadStep J calls u (.moment (.took i reply)) v)
    (hAfter : Run (ThreadStep J calls) v after t)
    (hInvoked : .invoked j ∈ seen after) (hRead : calls j = .getEventsByStreamId ⟨streamId⟩)
    (hLater : .responded j (.getEventsByStreamId later) ∈ seen after) :
    (∀ read, calls i = .getEventsByStreamId ⟨streamId⟩ → reply = .getEventsByStreamId read →
      read.events <+: later.events) ∧
    (∀ request status, calls i = .pushEvent request → reply = .pushEvent ⟨status⟩ →
      status.status = 0 → request.toEvent.streamId = streamId →
      StreamExists u.handler.connection.database streamId →
      ∃ id, later.events[(request.toEvent.version.toInt - 1).toNat]? =
        some (setEventValues { request.toEvent with id := id })) := by
  obtain ⟨points, s₃, s₄, hPoint, hBetween, hLast⟩ :=
    effects_in_order (threads_simulate J E calls) (starting_invariant hReachable)
      (fun _ => rfl) hBefore hTook rfl hAfter hInvoked hLater
  have hGrown := storePoints_grow hBetween
  rw [(hLast.read hRead).1]
  constructor
  · rintro read hCall rfl
    obtain ⟨hEvents, hSame⟩ := hPoint.read hCall
    rw [hSame] at hGrown
    rw [hEvents]
    exact hGrown.read streamId
  · rintro request status hCall rfl hZero rfl hExists
    exact read_after_push (hPoint.push hCall) ((storeOf_has _).mpr hExists) hZero hGrown

/-- The read after the push has the second event. -/
theorem later_reads_know_overtaken :
    ∃ id, ([⟨1, 1, "UserCreated", "{}", 1⟩, ⟨2, 1, "UserRenamed", "{}", 2⟩] : List EventMsg)[1]? =
      some (setEventValues { secondPushReq.toEvent with id := id }) := by
  obtain ⟨u, v, hHandler, hBefore, hTook, hResponded⟩ := push_overtakes
  obtain ⟨t, hLater⟩ := later_run
  have hStream : StreamExists u.handler.connection.database 1 := by
    rw [hHandler]
    exact ⟨⟨1, "User", 0⟩, by decide, rfl⟩
  have hSeen : seen (.moment (.responded 1 (.pushEvent ⟨⟨0, "OK"⟩⟩)) :: laterLabels) =
      [.responded 1 (.pushEvent ⟨⟨0, "OK"⟩⟩), .responded 0 bothEvents, .invoked 2,
        .responded 2 bothEvents] := rfl
  have hInvoked : CallEvent.invoked 2 ∈
      seen (.moment (.responded 1 (.pushEvent ⟨⟨0, "OK"⟩⟩)) :: laterLabels) := by
    rw [hSeen]
    simp
  have hRead : CallEvent.responded 2 bothEvents ∈
      seen (.moment (.responded 1 (.pushEvent ⟨⟨0, "OK"⟩⟩)) :: laterLabels) := by
    rw [hSeen]
    simp
  exact (later_reads_know oneEventConnection_reachable hBefore hTook (.head hResponded hLater)
    hInvoked rfl hRead).2 secondPushReq ⟨0, "OK"⟩ rfl rfl rfl rfl hStream

/-- Whatever the other threads have done, a call other than `Play` that is under way can be
finished by steps of its own thread alone. -/
theorem calls_can_finish {labels : List (ThreadLabel ι)} (hReachable : Reachable h.connection)
    (hRun : Run (ThreadStep J calls) (.starting ι h) labels t)
    (hPlay : ∀ request, calls i ≠ .play request)
    (hInvoked : (t.thread i).phase ≠ .waiting) (hUnfinished : (t.thread i).phase ≠ .finished) :
    ∃ own reply t', Run (ThreadStep J calls) t (own ++ [.moment (.responded i reply)]) t' ∧
      ∀ label ∈ own, label.BelongsTo i := by
  have hInv := invariant_of_run hReachable hRun
  have hHolds := hInv.thread i
  suffices hMakes : MakesReply J calls t i by
    obtain ⟨own, reply, t', hOwn, hThread, hBelongs⟩ := hMakes
    exact ⟨own, reply, _, .tail hOwn (.responded hThread), hBelongs⟩
  cases hThread : t.thread i with
  | waiting => simp [hThread, Thread.phase] at hInvoked
  | called =>
      rcases rpc_cases hPlay with hOne | ⟨query, hQuery⟩
      · obtain ⟨reply, c', hCall, -⟩ :=
          @call_returned J E ⟨.streamsOuter, .rowid⟩ t.handler hInv.history.store.ready _ hPlay
        exact makesReply_of_took (.statement _ hThread hOne hCall)
      · have hThread' : (⟨t.handler, Function.update t.thread i
            (.reading ⟨.streamsOuter, .rowid⟩ query none [])⟩ : Threads ι E).thread i = _ :=
          Function.update_self _ _ _
        exact .of_worked (.opened _ query hThread hQuery) (reading_makesReply hThread' rfl)
  | reading plan query position found => exact reading_makesReply hThread rfl
  | playing request phase =>
      rw [hThread] at hHolds
      exact absurd hHolds (hPlay request)
  | taken reply => exact ⟨[], reply, t, .refl, hThread, by simp⟩
  | finished => simp [hThread, Thread.phase] at hUnfinished

theorem calls_can_finish_overtaken :
    ∃ own reply t', Run (ThreadStep Sample.jsonText sampleCalls) overtaken
        (own ++ [.moment (.responded 0 reply)]) t' ∧
      ∀ label ∈ own, label.BelongsTo 0 :=
  calls_can_finish oneEventConnection_reachable overtaken_run
    (by simp [sampleCalls]) (by simp [overtaken, Thread.phase])
    (by simp [overtaken, Thread.phase])

end GrpcService
end Yess
