import Yess.Db.Refusals
import Yess.Grpc.Service

namespace Yess
namespace GrpcService

open Foundation Db Ext ActionHandler

/-!
# The event store behind the service

What the service is for: streams, each with a type and a list of entries.  An entry
has no version of its own, as its version is its place in the list, and there are no
tables and no joins.  `service_refines_event_store` says that the replies of the
service are those of this store, over calls of all clients and restarts.

No procedure deletes a stream.  So what a client reads of a stream only grows
(`rpc_reads_grow`), and a push of the next version goes through exactly when nobody
else was faster (`push_after_read_iff`).
-/

structure Entry where
  id : Int
  type : String
  payload : String

structure StreamDoc where
  id : Int
  type : String
  deriving DecidableEq

/-- The streams in the order of their creation, and the entries under each id: pushes
to an id without a stream are kept where foreign keys are not enforced. -/
structure EventStore where
  streams : List StreamDoc
  log : Int → List Entry
  enforces : Bool

namespace EventStore

/-- Is there a stream under the id? -/
def has (s : EventStore) (id : Int) : Prop := ∃ d ∈ s.streams, d.id = id

instance (s : EventStore) (id : Int) : Decidable (s.has id) :=
  inferInstanceAs (Decidable (∃ d ∈ s.streams, d.id = id))

def addStream (s : EventStore) (type : String) : EventStore :=
  { s with streams := s.streams ++ [⟨Sql.nextRowid (s.streams.map StreamDoc.id), type⟩] }

def addEntry (s : EventStore) (streamId : Int) (entry : Entry) : EventStore :=
  { s with log := Function.update s.log streamId (s.log streamId ++ [entry]) }

/-- An id above those of all entries. -/
def IsNew (s : EventStore) (id : Int) : Prop := ∀ streamId, ∀ entry ∈ s.log streamId, entry.id < id

/-- What refuses an event. -/
def refuses (s : EventStore) (event : Event) : Option DbError :=
  refusal (s.log event.streamId.toInt).length event.version.toInt
    (s.enforces && !decide (s.has event.streamId.toInt))

end EventStore

/-- The message for a stream; its version is never set. -/
def StreamDoc.message (d : StreamDoc) : StreamMsg := ⟨getInt d.id, d.type, 0⟩

/-- The message for the entry at a place of the list of a stream. -/
def Entry.message (streamId : Int32) (place : Nat) (entry : Entry) : EventMsg where
  id := getInt entry.id
  streamId := streamId
  type := entry.type
  payload := entry.payload
  version := getInt (place + 1)

namespace EventStore

/-- The events of a stream. -/
def read (s : EventStore) (streamId : Int32) : List EventMsg :=
  if s.has streamId.toInt then (s.log streamId.toInt).mapIdx (Entry.message streamId) else []

/-- The answer about one stream. -/
def lookup (s : EventStore) (id : Int32) : GetStreamResp :=
  match s.streams.find? fun d => d.id = id.toInt with
  | none => ⟨some ⟨0, "Stream not found"⟩, none⟩
  | some d => ⟨none, some d.message⟩

/-- The events of each stream of the type, in order, and no others. -/
def Merges (s : EventStore) (type : String) (events : List EventMsg) : Prop :=
  ∀ streamId : Int32, (events.filter fun e => e.streamId = streamId) =
    if ∃ d ∈ s.streams, d.id = streamId.toInt ∧ d.type = type then s.read streamId else []

end EventStore

/-- The event store answers a call. -/
inductive EventStoreStep (s : EventStore) : ServiceLabel → EventStore → Prop
  | createStream (request : CreateStreamReq) :
      EventStoreStep s (.answered (.createStream request) (.createStream ⟨⟨0, "OK"⟩⟩))
        (s.addStream request.type)
  | pushed (request : PushEventReq) (id : Int) (hNew : s.IsNew id)
      (hAccepted : s.refuses request.toEvent = none) :
      EventStoreStep s (.answered (.pushEvent request) (.pushEvent ⟨⟨0, "OK"⟩⟩))
        (s.addEntry request.toEvent.streamId.toInt
          ⟨id, request.toEvent.type, request.toEvent.payload⟩)
  | refused (request : PushEventReq) (error : DbError)
      (hRefused : s.refuses request.toEvent = some error) :
      EventStoreStep s
        (.answered (.pushEvent request) (.pushEvent ⟨⟨1, "DB ERROR: " ++ error.what⟩⟩)) s
  | getAllStreams :
      EventStoreStep s (.answered .getAllStreams
        (.getAllStreams ⟨none, s.streams.map StreamDoc.message⟩)) s
  | getStreamsByType (request : GetStreamsByTypeReq) :
      EventStoreStep s (.answered (.getStreamsByType request) (.getStreamsByType
        ⟨none, (s.streams.filter fun d => d.type = request.type).map StreamDoc.message⟩)) s
  | getStream (request : GetStreamReq) :
      EventStoreStep s
        (.answered (.getStream request) (.getStream (s.lookup request.id))) s
  | getEventsByStreamId (request : GetEventsByStreamIdReq) :
      EventStoreStep s (.answered (.getEventsByStreamId request)
        (.getEventsByStreamId ⟨none, s.read request.id⟩)) s
  | getEventsByStreamType (request : GetEventsByStreamTypeReq) (events : List EventMsg)
      (hMerges : s.Merges request.type events) :
      EventStoreStep s (.answered (.getEventsByStreamType request)
        (.getEventsByStreamType ⟨none, events⟩)) s
  -- What is done with projections leaves the store alone.
  | createProjection (request : CreateProjectionReq) :
      EventStoreStep s
        (.answered (.createProjection request) (.createProjection ⟨⟨0, "OK"⟩⟩)) s
  | deleteProjection (request : DeleteProjectionReq) :
      EventStoreStep s
        (.answered (.deleteProjection request) (.deleteProjection ⟨⟨0, "OK"⟩⟩)) s
  | getProjections (request : GetProjectionsReq) (reply : GetProjectionsResp) :
      EventStoreStep s (.answered (.getProjections request) (.getProjections reply)) s
  | play (request : PlayReq) (reply : PlayResp) :
      EventStoreStep s (.answered (.play request) (.play reply)) s
  | restarted : EventStoreStep s .restarted { s with enforces := false }

/-! ## The tables as an event store -/

def StreamRow.doc (row : StreamRow) : StreamDoc := ⟨row.id, row.type⟩

def EventRow.entry (row : EventRow) : Entry := ⟨row.id, row.type, row.payload⟩

/-- The event store that the tables hold. -/
def storeOf (c : Connection) : EventStore where
  streams := c.database.streams.map StreamRow.doc
  log := fun id => (eventsOf id c.database.events).map EventRow.entry
  enforces := c.foreignKeys

variable {c : Connection}

theorem storeOf_has (id : Int) :
    (storeOf c).has id ↔ ∃ s ∈ c.database.streams, s.id = id := by
  simp [EventStore.has, storeOf, StreamRow.doc]

theorem message_doc (hInv : HistoryInvariant c) {row : StreamRow}
    (hRow : row ∈ c.database.streams) : (StreamRow.doc row).message = setValues row.toStream := by
  have hVersion := hInv.streamVersions row hRow
  simp only [StreamDoc.message, StreamRow.doc, setValues, StreamRow.toStream, hVersion]
  rfl

theorem storeOf_refuses (hInv : StoreInvariant c) (event : Event) :
    (storeOf c).refuses event = insertError c (newEventRow c.database event) := by
  have hHas : (!decide ((storeOf c).has event.streamId.toInt)) =
      !c.database.streams.any fun s => s.id = event.streamId.toInt := by
    congr 1
    rw [Bool.eq_iff_iff, decide_eq_true_iff, storeOf_has]
    simp
  rw [insertError_eq_refusal hInv.ready hInv.numbered]
  simp only [EventStore.refuses, hHas]
  simp only [storeOf, List.length_map]
  rfl

/-- The rows of a stream carry their places as versions. -/
theorem storeOf_read (hInv : HistoryInvariant c) (streamId : Int32) :
    (storeOf c).read streamId = ((if ∃ s ∈ c.database.streams, s.id = streamId.toInt
      then eventsOf streamId.toInt c.database.events else []).map EventRow.toEvent).map
        setEventValues := by
  unfold EventStore.read
  by_cases hHas : (storeOf c).has streamId.toInt
  · rw [if_pos hHas, if_pos ((storeOf_has _).mp hHas)]
    have hVersions := hInv.store.numbered.versions streamId.toInt
    apply List.ext_getElem
    · simp [storeOf]
    · intro i hLeft hRight
      have hLength : i < (eventsOf streamId.toInt c.database.events).length := by
        simpa using hRight
      have hVersion : (eventsOf streamId.toInt c.database.events)[i].version = i + 1 := by
        have hAt := congrArg (·[i]?) hVersions
        simpa [VersionedLog.upTo, hLength] using hAt
      have hStream : (eventsOf streamId.toInt c.database.events)[i].streamId = streamId.toInt :=
        (mem_eventsOf.mp (List.getElem_mem hLength)).2
      simp [storeOf, Entry.message, EventRow.entry, setEventValues, EventRow.toEvent, hVersion,
        hStream, getInt]
  · rw [if_neg hHas, if_neg fun h => hHas ((storeOf_has _).mpr h)]
    rfl

theorem storeOf_lookup (hInv : HistoryInvariant c) (id : Int32) :
    (storeOf c).lookup id =
      match c.database.streams.find? fun row => row.id = id.toInt with
      | none => ⟨some ⟨0, "Stream not found"⟩, none⟩
      | some row => ⟨none, some (setValues { row.toStream with id := id })⟩ := by
  have hFind : ((storeOf c).streams.find? fun d => d.id = id.toInt) =
      (c.database.streams.find? fun row => row.id = id.toInt).map StreamRow.doc := by
    rw [storeOf, List.find?_map]
    rfl
  unfold EventStore.lookup
  rw [hFind]
  cases hFound : c.database.streams.find? fun row => row.id = id.toInt with
  | none => rfl
  | some row =>
      have hId : row.id = id.toInt := by simpa using List.find?_some hFound
      have hMessage := message_doc hInv (List.mem_of_find?_eq_some hFound)
      have hSame : (StreamRow.doc row).message = setValues { row.toStream with id := id } := by
        rw [hMessage]
        simp [setValues, StreamRow.toStream, getInt, hId]
      simp only [Option.map_some, hSame]

theorem storeOf_merges (hInv : HistoryInvariant c) (plan : Plan) (type : String) :
    (storeOf c).Merges type
      (((rowsOfType plan c.database type).map EventRow.toEvent).map setEventValues) := by
  intro streamId
  have hPerm := rowsOfType_perm plan hInv.store.streamIds type
  have hRows : ∀ row ∈ rowsOfType plan c.database type, row ∈ c.database.events :=
    fun row hRow => List.mem_of_mem_filter (hPerm.mem_iff.mp hRow)
  have hFilter : ((((rowsOfType plan c.database type).map EventRow.toEvent).map
        setEventValues).filter fun e => e.streamId = streamId) =
      ((eventsOf streamId.toInt (rowsOfType plan c.database type)).map EventRow.toEvent).map
        setEventValues := by
    rw [List.filter_map, ← filter_map_toEvent hInv hRows]
    rfl
  rw [hFilter]
  by_cases hStream : ∃ s ∈ c.database.streams, s.id = streamId.toInt ∧ s.type = type
  · obtain ⟨s, hMem, hId, hType⟩ := hStream
    have hDoc : ∃ d ∈ (storeOf c).streams, d.id = streamId.toInt ∧ d.type = type :=
      ⟨StreamRow.doc s, List.mem_map_of_mem hMem, hId, hType⟩
    rw [if_pos hDoc, storeOf_read hInv, if_pos ⟨s, hMem, hId⟩, ← hId,
      eventsOf_rowsOfType plan hInv.store.streamIds hInv.store.numbered hMem hType]
  · rw [if_neg]
    · -- A row of the read has a stream of the type.
      have hNone : eventsOf streamId.toInt (rowsOfType plan c.database type) = [] := by
        rw [List.eq_nil_iff_forall_not_mem]
        intro row hRow
        obtain ⟨hMem, hId⟩ := mem_eventsOf.mp hRow
        have hBelongs := (List.mem_filter.mp (hPerm.mem_iff.mp hMem)).2
        simp only [belongsToType, List.any_eq_true, Bool.and_eq_true, beq_iff_eq] at hBelongs
        obtain ⟨s, hS, hOn, hType⟩ := hBelongs
        exact hStream ⟨s, hS, hOn.trans hId, hType⟩
      rw [hNone]
      rfl
    · rintro ⟨d, hMem, hId, hType⟩
      obtain ⟨s, hS, rfl⟩ := List.mem_map.mp hMem
      exact hStream ⟨s, hS, hId, hType⟩

/-! ## The refinement -/

variable {J : JsonText} {E : Duktape} {plan : Plan}

theorem RpcEffect.historyInvariant {c' : Connection} {rpc : Rpc} {reply : RpcReply}
    (hEffect : RpcEffect plan c rpc reply c') (hInv : HistoryInvariant c) :
    HistoryInvariant c' := by
  cases hEffect with
  | createStream request => exact (StoreEffect.created request.type).historyInvariant hInv
  | pushed request hAccepted =>
      exact (StoreEffect.pushed request.streamId _ hAccepted).historyInvariant hInv
  | createProjection request =>
      exact (ProjectionEffect.created (.createProjection request.data) _ _).historyInvariant hInv
  | deleteProjection request => exact (ProjectionEffect.deleted request.id).historyInvariant hInv
  | _ => exact hInv

theorem storeOf_created (type : String) :
    storeOf { c with database := { c.database with
        streams := c.database.streams ++
          [⟨Sql.nextRowid (c.database.streams.map StreamRow.id), type, 0⟩] } } =
      (storeOf c).addStream type := by
  simp only [storeOf, EventStore.addStream, List.map_append, List.map_map, List.map_cons,
    List.map_nil, StreamRow.doc, Function.comp_def]

theorem storeOf_pushed (row : EventRow) :
    storeOf { c with database := { c.database with events := c.database.events ++ [row] } } =
      (storeOf c).addEntry row.streamId (EventRow.entry row) := by
  simp only [storeOf, EventStore.addEntry, EventStore.mk.injEq, true_and, and_true]
  funext streamId
  rw [eventsOf_append, List.map_append]
  by_cases h : streamId = row.streamId
  · subst h
    simp
  · simp [Function.update_of_ne h, Ne.symm h]

theorem storeOf_isNew : (storeOf c).IsNew (Sql.nextRowid (c.database.events.map EventRow.id)) := by
  intro streamId entry hEntry
  obtain ⟨row, hRow, rfl⟩ := List.mem_map.mp hEntry
  exact Sql.lt_nextRowid (List.mem_map_of_mem (mem_eventsOf.mp hRow).1)

/-- A procedure other than `Play` answers as the event store does. -/
theorem RpcEffect.eventStoreStep {c' : Connection} {rpc : Rpc} {reply : RpcReply}
    (hEffect : RpcEffect plan c rpc reply c') (hInv : HistoryInvariant c) :
    EventStoreStep (storeOf c) (.answered rpc reply) (storeOf c') := by
  cases hEffect with
  | createStream request =>
      rw [storeOf_created]
      exact .createStream request
  | pushed request hAccepted =>
      rw [storeOf_pushed]
      exact .pushed request _ storeOf_isNew ((storeOf_refuses hInv.store _).trans hAccepted)
  | refused request error hRefused =>
      exact .refused request error ((storeOf_refuses hInv.store _).trans hRefused)
  | getAllStreams =>
      have hStreams : (c.database.streams.map StreamRow.toStream).map setValues =
          (storeOf c).streams.map StreamDoc.message := by
        simp only [storeOf, List.map_map]
        exact List.map_congr_left fun row hRow => (message_doc hInv hRow).symm
      rw [hStreams]
      exact .getAllStreams
  | getStreamsByType request =>
      have hStreams : ((c.database.streams.filter fun row => row.type = request.type).map
            StreamRow.toStream).map setValues =
          ((storeOf c).streams.filter fun d => d.type = request.type).map StreamDoc.message := by
        simp only [storeOf, List.filter_map, List.map_map]
        exact List.map_congr_left fun row hRow =>
          (message_doc hInv (List.mem_of_mem_filter hRow)).symm
      rw [hStreams]
      exact .getStreamsByType request
  | getStream request =>
      have hLookup := congrArg (fun reply => EventStoreStep (storeOf c)
        (.answered (.getStream request) (.getStream reply)) (storeOf c))
        (storeOf_lookup hInv request.id)
      exact hLookup.mp (.getStream request)
  | getEventsByStreamId request events hRead =>
      rw [getEvents_eq plan request.id hInv.store, Outcome.returned.injEq] at hRead
      rw [← hRead.1, ← storeOf_read hInv]
      exact .getEventsByStreamId request
  | getEventsByStreamType request =>
      exact .getEventsByStreamType request _ (storeOf_merges hInv plan request.type)
  | createProjection request => exact .createProjection request
  | getProjections request projections => exact .getProjections request _
  | deleteProjection request => exact .deleteProjection request

variable {h h' : Handler E} {label : ServiceLabel}

/-- One step of the service. -/
theorem ServiceStep.refines (hStep : ServiceStep J h label h')
    (hInv : HistoryInvariant h.connection) :
    HistoryInvariant h'.connection ∧
      EventStoreStep (storeOf h.connection) label (storeOf h'.connection) := by
  cases hStep with
  | @answered _ rpc reply plan hCall =>
      by_cases hPlay : ∃ request, rpc = .play request
      · obtain ⟨request, rfl⟩ := hPlay
        obtain ⟨hConnection, resp, rfl⟩ := call_play hCall
        rw [hConnection]
        exact ⟨hInv, .play request resp⟩
      · have hEffect := call_effect hInv.store.ready (fun request h => hPlay ⟨request, h⟩) hCall
        exact ⟨hEffect.historyInvariant hInv, hEffect.eventStoreStep hInv⟩
  | restarted hInit =>
      exact ⟨(ActivityStep.restart hInit).historyInvariant hInv,
        by rw [eq_of_initDb_some hInit]; exact .restarted⟩

theorem service_run_refines {labels : List ServiceLabel}
    (hRun : Run (ServiceStep J) h labels h') (hInv : HistoryInvariant h.connection) :
    HistoryInvariant h'.connection ∧
      Run EventStoreStep (storeOf h.connection) labels (storeOf h'.connection) := by
  induction hRun with
  | refl => exact ⟨hInv, .refl⟩
  | tail _ hLast ih =>
      obtain ⟨hInv', hAbstract⟩ := ih
      obtain ⟨hInv'', hStep⟩ := hLast.refines hInv'
      exact ⟨hInv'', .tail hAbstract hStep⟩

/-- Over every run of calls and restarts, from every store that can come about and
whatever the plans of the queries, the service answers as the event store does; and
where the run ends, every procedure other than `Play` has an answer. -/
theorem service_refines_event_store {labels : List ServiceLabel}
    (hReachable : Reachable h.connection) (hRun : Run (ServiceStep J) h labels h') :
    Run EventStoreStep (storeOf h.connection) labels (storeOf h'.connection) ∧
      ∀ rpc, (∀ request, rpc ≠ .play request) →
        ∃ reply h'', ServiceStep J h' (.answered rpc reply) h'' := by
  obtain ⟨hInv, hAbstract⟩ := service_run_refines hRun hReachable.invariant
  refine ⟨hAbstract, fun rpc hPlay => ?_⟩
  obtain ⟨reply, c', hCall, -⟩ :=
    @call_returned J E ⟨.streamsOuter, .rowid⟩ h' hInv.store.ready rpc hPlay
  exact ⟨reply, _, .answered _ hCall⟩

theorem service_refines_first_push :
    Run EventStoreStep (storeOf oneStreamHandler.connection)
      [.answered (.pushEvent firstPush) (.pushEvent ⟨⟨0, "OK"⟩⟩)]
      (storeOf oneEventHandler.connection) :=
  (service_refines_event_store oneStreamHandler_reachable (.single firstPush_step)).1

/-! ## What clients can rely on -/

/-- Streams and entries are only added. -/
structure EventStore.Grows (s s' : EventStore) : Prop where
  streams : s.streams <+: s'.streams
  log : ∀ streamId, s.log streamId <+: s'.log streamId

variable {s s' : EventStore} {labels : List ServiceLabel}

theorem EventStore.Grows.refl (s : EventStore) : s.Grows s where
  streams := List.prefix_rfl
  log := fun _ => List.prefix_rfl

theorem EventStore.Grows.trans {s'' : EventStore} (hFirst : s.Grows s') (hSecond : s'.Grows s'') :
    s.Grows s'' where
  streams := hFirst.streams.trans hSecond.streams
  log := fun streamId => (hFirst.log streamId).trans (hSecond.log streamId)

theorem EventStoreStep.grows (hStep : EventStoreStep s label s') : s.Grows s' := by
  cases hStep with
  | createStream request => exact ⟨List.prefix_append _ _, fun _ => List.prefix_rfl⟩
  | pushed request id hNew hAccepted =>
      refine ⟨List.prefix_rfl, fun streamId => ?_⟩
      by_cases h : streamId = request.toEvent.streamId.toInt
      · subst h
        simp only [EventStore.addEntry, Function.update_self]
        exact List.prefix_append _ _
      · exact ⟨[], (List.append_nil _).trans (Function.update_of_ne h _ _).symm⟩
  | restarted => exact ⟨List.prefix_rfl, fun _ => List.prefix_rfl⟩
  | _ => exact .refl _

theorem eventStore_grows (hRun : Run EventStoreStep s labels s') : s.Grows s' := by
  refine hRun.stateInvariant (fun s' => s.Grows s') (.refl s) ?_
  intro t label u hGrows hStep
  exact hGrows.trans hStep.grows

theorem EventStore.Grows.has (hGrows : s.Grows s') {id : Int} (hHas : s.has id) : s'.has id := by
  obtain ⟨d, hMem, hId⟩ := hHas
  exact ⟨d, hGrows.streams.subset hMem, hId⟩

theorem EventStore.Grows.read (hGrows : s.Grows s') (streamId : Int32) :
    s.read streamId <+: s'.read streamId := by
  unfold EventStore.read
  by_cases hHas : s.has streamId.toInt
  · rw [if_pos hHas, if_pos (hGrows.has hHas)]
    obtain ⟨more, hMore⟩ := hGrows.log streamId.toInt
    rw [← hMore, List.mapIdx_append]
    exact List.prefix_append _ _
  · rw [if_neg hHas]
    exact List.nil_prefix

/-- Is it an accepted push to the stream? -/
def acceptedPush (streamId : Int32) : ServiceLabel → Bool
  | .answered (.pushEvent request) (.pushEvent reply) =>
      request.toEvent.streamId = streamId && reply.status.status = 0
  | _ => false

/-- An accepted push adds one entry to its stream, and nothing else does. -/
theorem EventStoreStep.log_length (hStep : EventStoreStep s label s') (streamId : Int32) :
    (s'.log streamId.toInt).length =
      (s.log streamId.toInt).length + if acceptedPush streamId label then 1 else 0 := by
  cases hStep with
  | pushed request id hNew hAccepted =>
      by_cases h : request.toEvent.streamId = streamId
      · subst h
        simp [EventStore.addEntry, acceptedPush]
      · have hInt : streamId.toInt ≠ request.toEvent.streamId.toInt :=
          fun hSame => h (Int32.toInt_inj.mp hSame.symm)
        simp [EventStore.addEntry, acceptedPush, h, Function.update_of_ne hInt]
  | refused request error hRefused => simp [acceptedPush]
  | _ => simp [acceptedPush, EventStore.addStream]

theorem log_length_of_run (hRun : Run EventStoreStep s labels s') (streamId : Int32) :
    (s'.log streamId.toInt).length =
      (s.log streamId.toInt).length + labels.countP (acceptedPush streamId) := by
  induction hRun with
  | refl => simp
  | tail _ hLast ih =>
      rw [hLast.log_length, ih, List.countP_append, List.countP_singleton, Nat.add_assoc]

theorem EventStoreStep.read_reply {request : GetEventsByStreamIdReq}
    {reply : GetEventsByStreamIdResp}
    (hStep : EventStoreStep s
      (.answered (.getEventsByStreamId request) (.getEventsByStreamId reply)) s') :
    reply.events = s.read request.id ∧ s' = s := by
  cases hStep with
  | getEventsByStreamId => exact ⟨rfl, rfl⟩

theorem EventStoreStep.streams_reply {reply : GetAllStreamsResp}
    (hStep : EventStoreStep s (.answered .getAllStreams (.getAllStreams reply)) s') :
    reply.streams = s.streams.map StreamDoc.message ∧ s' = s := by
  cases hStep with
  | getAllStreams => exact ⟨rfl, rfl⟩

/-- What is read of a stream, and the list of the streams, is the beginning of what is
read later, whatever is called in between and however often the process is started
again. -/
theorem rpc_reads_grow {h₁ h₂ h₃ : Handler E} {between : List ServiceLabel}
    (hReachable : Reachable h.connection) :
    (∀ request read later,
      ServiceStep J h (.answered (.getEventsByStreamId request) (.getEventsByStreamId read)) h₁ →
      Run (ServiceStep J) h₁ between h₂ →
      ServiceStep J h₂
        (.answered (.getEventsByStreamId request) (.getEventsByStreamId later)) h₃ →
      read.events <+: later.events) ∧
    (∀ read later,
      ServiceStep J h (.answered .getAllStreams (.getAllStreams read)) h₁ →
      Run (ServiceStep J) h₁ between h₂ →
      ServiceStep J h₂ (.answered .getAllStreams (.getAllStreams later)) h₃ →
      read.streams <+: later.streams) := by
  constructor
  · intro request read later hFirst hRun hSecond
    obtain ⟨hInv₁, hFirst⟩ := hFirst.refines hReachable.invariant
    obtain ⟨hInv₂, hRun⟩ := service_run_refines hRun hInv₁
    obtain ⟨-, hSecond⟩ := hSecond.refines hInv₂
    obtain ⟨hRead, hSame⟩ := hFirst.read_reply
    rw [hRead, hSecond.read_reply.1, ← hSame]
    exact (eventStore_grows hRun).read request.id
  · intro read later hFirst hRun hSecond
    obtain ⟨hInv₁, hFirst⟩ := hFirst.refines hReachable.invariant
    obtain ⟨hInv₂, hRun⟩ := service_run_refines hRun hInv₁
    obtain ⟨-, hSecond⟩ := hSecond.refines hInv₂
    obtain ⟨hRead, hSame⟩ := hFirst.streams_reply
    rw [hRead, hSecond.streams_reply.1, ← hSame]
    exact (eventStore_grows hRun).streams.map _

theorem rpc_reads_grow_first_push : ([] : List EventMsg) <+: [⟨1, 1, "UserCreated", "{}", 1⟩] :=
  (rpc_reads_grow oneStreamHandler_reachable).1 ⟨1⟩ ⟨none, []⟩ ⟨none, _⟩ emptyRead_step
    (.single firstPush_step) firstRead_step

/-- A push to an existing stream is taken exactly when its version is the next. -/
theorem EventStoreStep.push_reply {request : PushEventReq} {reply : PushEventResp}
    (hStep : EventStoreStep s (.answered (.pushEvent request) (.pushEvent reply)) s')
    (hHas : s.has request.toEvent.streamId.toInt) :
    reply.status.status = 0 ↔
      request.toEvent.version.toInt =
        (s.log request.toEvent.streamId.toInt).length + 1 := by
  have hRefuses : s.refuses request.toEvent = none ↔ request.toEvent.version.toInt =
      (s.log request.toEvent.streamId.toInt).length + 1 := by
    unfold EventStore.refuses refusal
    rw [decide_eq_true hHas, Bool.not_true, Bool.and_false]
    by_cases hNext : request.toEvent.version.toInt =
        (s.log request.toEvent.streamId.toInt).length + 1
    · simp [hNext]
    · rw [if_neg hNext]
      by_cases hEmpty : (s.log request.toEvent.streamId.toInt).length = 0
      · rw [if_pos hEmpty]
        exact iff_of_false (by simp) hNext
      · rw [if_neg hEmpty]
        exact iff_of_false (by simp) hNext
  rw [← hRefuses]
  cases hStep with
  | pushed _ id hNew hAccepted => exact iff_of_true rfl hAccepted
  | refused _ error hRefused =>
      rw [hRefused]
      exact iff_of_false (show (1 : Int32) ≠ 0 by decide) (by simp)

theorem EventStoreStep.pushed_log {request : PushEventReq} {reply : PushEventResp}
    (hStep : EventStoreStep s (.answered (.pushEvent request) (.pushEvent reply)) s')
    (hZero : reply.status.status = 0) :
    ∃ id, s'.log request.toEvent.streamId.toInt = s.log request.toEvent.streamId.toInt ++
      [⟨id, request.toEvent.type, request.toEvent.payload⟩] := by
  cases hStep with
  | pushed _ id hNew hAccepted => exact ⟨id, Function.update_self _ _ _⟩
  | refused _ error hRefused => exact absurd hZero (show (1 : Int32) ≠ 0 by decide)

/-- The message for the entry of a pushed event at the place of its version. -/
theorem Entry.message_next {event : Event} {place : Nat} (id : Int)
    (hVersion : event.version.toInt = place + 1) :
    Entry.message event.streamId place ⟨id, event.type, event.payload⟩ =
      setEventValues { event with id := getInt id } := by
  simp [Entry.message, setEventValues, ← hVersion, getInt]

/-- A client reads an existing stream and pushes to it under the next version.  The
push is taken exactly when no other push to the stream was taken since the read, and
then every later read has, after what was read, the pushed event. -/
theorem push_after_read_iff {h₁ h₂ h₃ : Handler E} {between : List ServiceLabel}
    {streamId : Int32} {read : GetEventsByStreamIdResp} {request : PushEventReq}
    {reply : PushEventResp} (hReachable : Reachable h.connection)
    (hExists : StreamExists h.connection.database streamId)
    (hRead : ServiceStep J h
      (.answered (.getEventsByStreamId ⟨streamId⟩) (.getEventsByStreamId read)) h₁)
    (hRun : Run (ServiceStep J) h₁ between h₂)
    (hPush : ServiceStep J h₂ (.answered (.pushEvent request) (.pushEvent reply)) h₃)
    (hStream : request.toEvent.streamId = streamId)
    (hNext : request.toEvent.version.toInt = read.events.length + 1) :
    (reply.status.status = 0 ↔ ∀ label ∈ between, acceptedPush streamId label = false) ∧
      (reply.status.status = 0 →
        ∀ after h₄ h₅ later, Run (ServiceStep J) h₃ after h₄ →
          ServiceStep J h₄
            (.answered (.getEventsByStreamId ⟨streamId⟩) (.getEventsByStreamId later)) h₅ →
          ∃ id, read.events ++ [setEventValues { request.toEvent with id := id }] <+:
            later.events) := by
  subst hStream
  have hHas := (storeOf_has request.toEvent.streamId.toInt).mpr hExists
  obtain ⟨hInv₁, hRead⟩ := hRead.refines hReachable.invariant
  obtain ⟨hInv₂, hRun⟩ := service_run_refines hRun hInv₁
  obtain ⟨hInv₃, hPush⟩ := hPush.refines hInv₂
  obtain ⟨hReadEq, hSame⟩ := hRead.read_reply
  rw [hSame] at hRun
  have hReadEq' : read.events = ((storeOf h.connection).log request.toEvent.streamId.toInt).mapIdx
      (Entry.message request.toEvent.streamId) := hReadEq.trans (if_pos hHas)
  have hGrows := eventStore_grows hRun
  have hLength := log_length_of_run hRun request.toEvent.streamId
  rw [hReadEq', List.length_mapIdx] at hNext
  -- The log has grown by the pushes that were taken since.
  have hNone : reply.status.status = 0 ↔
      between.countP (acceptedPush request.toEvent.streamId) = 0 := by
    rw [hPush.push_reply (hGrows.has hHas), hLength]
    omega
  constructor
  · rw [hNone, List.countP_eq_zero]
    simp only [Bool.not_eq_true]
  · intro hZero after h₄ h₅ later hAfter hLater
    obtain ⟨hInv₄, hAfter⟩ := service_run_refines hAfter hInv₃
    obtain ⟨-, hLater⟩ := hLater.refines hInv₄
    have hLog : (storeOf h₂.connection).log request.toEvent.streamId.toInt =
        (storeOf h.connection).log request.toEvent.streamId.toInt := by
      refine ((hGrows.log _).eq_of_length ?_).symm
      rw [hLength, hNone.mp hZero, Nat.add_zero]
    obtain ⟨id, hPushed⟩ := hPush.pushed_log hZero
    refine ⟨getInt id, ?_⟩
    -- What is read right after the push.
    have hRead₃ : (storeOf h₃.connection).read request.toEvent.streamId =
        read.events ++ [setEventValues { request.toEvent with id := getInt id }] := by
      rw [EventStore.read, if_pos (hPush.grows.has (hGrows.has hHas)), hPushed, hLog,
        List.mapIdx_append, ← hReadEq', List.mapIdx_cons, List.mapIdx_nil, Nat.zero_add,
        Entry.message_next id hNext]
    rw [← hRead₃, hLater.read_reply.1]
    exact (eventStore_grows hAfter).read request.toEvent.streamId

theorem push_after_read_first :
    ∃ id, [setEventValues { firstPush.toEvent with id := id }] <+:
      [⟨1, 1, "UserCreated", "{}", 1⟩] :=
  (push_after_read_iff oneStreamHandler_reachable ⟨⟨1, "User", 0⟩, by decide, rfl⟩
    emptyRead_step .refl firstPush_step rfl rfl).2 rfl [] oneEventHandler oneEventHandler _
    .refl firstRead_step

end GrpcService
end Yess
