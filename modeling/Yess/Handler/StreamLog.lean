import Yess.Handler.ReferentialIntegrity

namespace Yess
namespace ActionHandler

open Foundation Db VersionedLog

/-!
# The store as a log per stream

The requests of any number of clients reach one connection in some order.  On the
connection of a fresh database, where foreign keys are enforced, the store
refines the abstract versioned log: `logOf` reads the log of a stream off the
tables, and `storeStep_simulates` says that an acknowledged create, delete or
push is the corresponding operation on the logs while every other step leaves
them alone.
-/

/-- What a push hands over: an event without its id. -/
structure Pushed where
  streamId : Int32
  type : String
  payload : String
  version : Int32
  deriving DecidableEq, Repr

def Pushed.versionNumber (entry : Pushed) : Int := entry.version.toInt

def pushedOf (event : Event) : Pushed where
  streamId := event.streamId
  type := event.type
  payload := event.payload
  version := event.version

/-! ## Clients -/

/-- The connection and the requests that each client has still to make. -/
structure Server (κ : Type) where
  connection : Connection
  pending : κ → List StoreRequest

/-- The next request of some client is served. -/
inductive ServerStep {κ : Type} [DecidableEq κ] (plan : Plan) :
    Server κ → κ × StoreEntry → Server κ → Prop
  | serve {server : Server κ} {client : κ} {entry : StoreEntry}
      {rest : List StoreRequest} {c' : Connection}
      (hNext : server.pending client = entry.request :: rest)
      (hStep : StoreStep plan server.connection entry c') :
      ServerStep plan server (client, entry)
        ⟨c', Function.update server.pending client rest⟩

/-- The operation on the logs that an entry of the history stands for: that of an
acknowledged create, delete or push. -/
def StoreEntry.operation (entry : StoreEntry) : Option (Op Int Pushed) :=
  match entry.request, entry.reply, entry.created with
  | .createStream _, .ok _, some id => some (.create id)
  | .deleteStream id, .ok _, _ => some (.delete id.toInt)
  | .pushEvent _ event, .ok _, _ => some (.append event.streamId.toInt (pushedOf event))
  | _, _, _ => none

/-- The acknowledged pushes to a stream id since the latest creation of a stream
under it, in the order of their acknowledgement. -/
def acknowledgedPushes {κ : Type} (streamId : Int) (history : List (κ × StoreEntry)) :
    List Pushed :=
  acknowledged streamId ((history.map Prod.snd).filterMap StoreEntry.operation)

/-! ## The refinement -/

/-- The log of each stream that exists, as the tables hold it. -/
def logOf (db : Database) : Logs Int Pushed := fun streamId =>
  if ∃ s ∈ db.streams, s.id = streamId then
    some ((eventsOf streamId db.events).map fun row => pushedOf row.toEvent)
  else none

/-- What holds on the connection of a fresh database. -/
structure LogInvariant (c : Connection) : Prop where
  store : StoreInvariant c
  foreignKeys : c.foreignKeys = true
  refers : EventsReferToStreams c.database

theorem freshConnection_logInvariant : LogInvariant freshConnection where
  store := freshConnection_invariant
  foreignKeys := rfl
  refers := freshConnection_refers

theorem StoreEffect.logInvariant {c c' : Connection} {entry : StoreEntry}
    (hEffect : StoreEffect c entry c') (hInv : LogInvariant c) : LogInvariant c' := by
  refine ⟨hEffect.invariant hInv.store, hEffect.foreignKeys_eq.trans hInv.foreignKeys, ?_⟩
  apply hEffect.refers hInv.refers
  rintro streamId event reply created rfl
  cases hEffect with
  | pushed _ _ hAccepted =>
      rw [insertError_eq_none_iff hInv.store.ready hInv.store.numbered] at hAccepted
      exact hAccepted.2 hInv.foreignKeys
  | read _ _ hRead => simp [StoreRequest.isRead] at hRead

/-- What a stored row gives back is what was pushed. -/
theorem pushedOf_newEventRow (db : Database) (event : Event) :
    pushedOf (newEventRow db event).toEvent = pushedOf event := by
  simp [newEventRow, EventRow.toEvent, pushedOf, getInt, Int32.ofInt_toInt]

theorem logOf_created {db : Database} (hRefers : EventsReferToStreams db) (type : String) :
    logOf { db with streams := db.streams ++
        [⟨Sql.nextRowid (db.streams.map StreamRow.id), type, 0⟩] } =
      Function.update (logOf db) (Sql.nextRowid (db.streams.map StreamRow.id))
        (some []) := by
  funext streamId
  by_cases h : streamId = Sql.nextRowid (db.streams.map StreamRow.id)
  · subst h
    simp [logOf, hRefers.eventsOf_nextRowid]
  · rw [Function.update_of_ne h]
    simp [logOf, Ne.symm h]

theorem logOf_deleted (db : Database) (id : Int) :
    logOf { db with
        events := db.events.filter fun row => row.streamId ≠ id
        streams := db.streams.filter fun row => row.id ≠ id } =
      Function.update (logOf db) id none := by
  funext streamId
  by_cases h : streamId = id
  · subst h
    simp [logOf]
  · have hStreams : (∃ s ∈ db.streams.filter (fun row => row.id ≠ id), s.id = streamId) ↔
        ∃ s ∈ db.streams, s.id = streamId := by
      constructor
      · rintro ⟨s, hMem, hId⟩
        exact ⟨s, List.mem_of_mem_filter hMem, hId⟩
      · rintro ⟨s, hMem, hId⟩
        exact ⟨s, List.mem_filter.mpr ⟨hMem, by simpa [hId] using h⟩, hId⟩
    rw [Function.update_of_ne h]
    simp only [logOf, hStreams, eventsOf_delete, if_neg h]

theorem logOf_pushed {db : Database} {row : EventRow}
    (hExists : ∃ s ∈ db.streams, s.id = row.streamId) :
    logOf { db with events := db.events ++ [row] } =
      Function.update (logOf db) row.streamId
        (some ((eventsOf row.streamId db.events).map (fun row => pushedOf row.toEvent) ++
          [pushedOf row.toEvent])) := by
  funext streamId
  by_cases h : row.streamId = streamId
  · subst h
    simp [logOf, hExists, eventsOf_append]
  · rw [Function.update_of_ne (Ne.symm h)]
    simp [logOf, eventsOf_append, h]

/-- One served request is one step of the versioned log, or none. -/
theorem storeStep_simulates {plan : Plan} {c c' : Connection} {entry : StoreEntry}
    (hInv : LogInvariant c) (hStep : StoreStep plan c entry c') :
    match entry.operation with
    | some operation =>
        Step Pushed.versionNumber (logOf c.database) operation (logOf c'.database)
    | none => logOf c'.database = logOf c.database := by
  cases storeStep_effect hInv.store.ready hStep with
  | created type =>
      have hFree : logOf c.database
          (Sql.nextRowid (c.database.streams.map StreamRow.id)) = none := by
        rw [logOf, if_neg]
        rintro ⟨s, hMem, hId⟩
        apply Sql.nextRowid_not_mem (c.database.streams.map StreamRow.id)
        rw [← hId]
        exact List.mem_map_of_mem hMem
      simp only [StoreEntry.operation]
      rw [logOf_created hInv.refers]
      exact .create hFree
  | deleted id =>
      simp only [StoreEntry.operation]
      rw [logOf_deleted]
      exact .delete
  | pushed streamId event hAccepted =>
      rw [insertError_eq_none_iff hInv.store.ready hInv.store.numbered] at hAccepted
      obtain ⟨hVersion, hExists⟩ := hAccepted
      have hStream := hExists hInv.foreignKeys
      simp only [StoreEntry.operation]
      rw [logOf_pushed hStream, pushedOf_newEventRow]
      exact .append (if_pos hStream) (by rw [List.length_map]; exact hVersion)
  | refused streamId event error hRefused => simp only [StoreEntry.operation]
  | read request reply hRead =>
      cases request <;> simp_all [StoreRequest.isRead, StoreEntry.operation]

/-- The history of the server is a run of the versioned log from the empty one. -/
theorem server_refines_log {κ : Type} [DecidableEq κ] {plan : Plan}
    {programs : κ → List StoreRequest} {history : List (κ × StoreEntry)}
    {server : Server κ}
    (hRun : Run (ServerStep plan) ⟨freshConnection, programs⟩ history server) :
    LogInvariant server.connection ∧
      Run (Step Pushed.versionNumber) (fun _ => none)
        ((history.map Prod.snd).filterMap StoreEntry.operation)
        (logOf server.connection.database) := by
  have hStore : Run (StoreStep plan) freshConnection (history.map Prod.snd)
      server.connection := by
    refine hRun.map Server.connection Prod.snd ?_
    rintro _ _ _ ⟨_, hStep⟩
    exact hStep
  have hSimulation : ∃ logs, Run (Step Pushed.versionNumber)
        (logOf freshConnection.database)
        ((history.map Prod.snd).filterMap StoreEntry.operation) logs ∧
      LogInvariant server.connection ∧ logOf server.connection.database = logs := by
    refine hStore.simulates
      (fun c logs => LogInvariant c ∧ logOf c.database = logs) StoreEntry.operation
      ⟨freshConnection_logInvariant, rfl⟩ ?_
    rintro c logs entry c' ⟨hInv, rfl⟩ hStep
    have hInv' := (storeStep_effect hInv.store.ready hStep).logInvariant hInv
    have hSim := storeStep_simulates hInv hStep
    cases hOperation : entry.operation with
    | none =>
        rw [hOperation] at hSim
        exact ⟨hInv', hSim⟩
    | some operation =>
        rw [hOperation] at hSim
        exact ⟨_, hSim, hInv', rfl⟩
  obtain ⟨logs, hLogs, hInv, rfl⟩ := hSimulation
  have hEmpty : logOf freshConnection.database = fun _ => none := by
    funext streamId
    simp [logOf, freshConnection, Database.empty]
  rw [hEmpty] at hLogs
  exact ⟨hInv, hLogs⟩

/-- A read of an existing stream returns its log. -/
theorem getEventsByStreamId_eq_log {c : Connection} (hInv : StoreInvariant c) (plan : Plan)
    {streamId : Int32} {log : List Pushed}
    (hLog : logOf c.database streamId.toInt = some log) :
    ∃ events, getEventsByStreamId plan streamId c = .returned events c ∧
      events.map pushedOf = log := by
  have hExists : ∃ s ∈ c.database.streams, s.id = streamId.toInt := by
    by_contra hMissing
    rw [logOf, if_neg hMissing] at hLog
    simp at hLog
  rw [logOf, if_pos hExists, Option.some.injEq] at hLog
  refine ⟨_, getEvents_eq plan streamId hInv, ?_⟩
  rw [if_pos hExists, List.map_map, ← hLog]
  rfl

/-- An operation in the history comes from an entry of it. -/
theorem mem_operations {κ : Type} {history : List (κ × StoreEntry)} {id : Int}
    (hMem : Op.delete id ∈ (history.map Prod.snd).filterMap StoreEntry.operation) :
    ∃ client i reply, i.toInt = id ∧
      ∃ created, (client, (⟨.deleteStream i, .ok reply, created⟩ : StoreEntry)) ∈ history := by
  rw [List.mem_filterMap] at hMem
  obtain ⟨entry, hEntry, hOperation⟩ := hMem
  obtain ⟨⟨client, entry'⟩, hMem, rfl⟩ := List.mem_map.mp hEntry
  obtain ⟨request, reply, created⟩ := entry'
  unfold StoreEntry.operation at hOperation
  split at hOperation
  · simp at hOperation
  · rename_i i value hRequest hReply
    simp only at hRequest hReply
    subst hRequest hReply
    simp only [Option.some.injEq, Op.delete.injEq] at hOperation
    exact ⟨client, i, value, hOperation, created, hMem⟩
  · simp at hOperation
  · simp at hOperation

/-- Between two acknowledged pushes of one version to one stream id lies an
acknowledged delete. -/
theorem delete_between_pushes {plan : Plan} {κ : Type} [DecidableEq κ]
    {programs : κ → List StoreRequest} {before between : List (κ × StoreEntry)}
    {server : Server κ} {client₁ client₂ : κ} {streamId₁ streamId₂ : Int32}
    {event₁ event₂ : Event} {reply₁ reply₂ : StoreReply} {created₁ created₂ : Option Int}
    (hRun : Run (ServerStep plan) ⟨freshConnection, programs⟩
      (before ++ [(client₁, ⟨.pushEvent streamId₁ event₁, .ok reply₁, created₁⟩)] ++
        between ++ [(client₂, ⟨.pushEvent streamId₂ event₂, .ok reply₂, created₂⟩)]) server)
    (hStream : event₁.streamId = event₂.streamId)
    (hVersion : event₁.version = event₂.version) :
    ∃ client i reply, i.toInt = event₁.streamId.toInt ∧ ∃ created,
      (client, (⟨.deleteStream i, .ok reply, created⟩ : StoreEntry)) ∈ between := by
  obtain ⟨-, hOperations⟩ := server_refines_log hRun
  simp only [List.map_append, List.map_cons, List.map_nil, List.filterMap_append,
    List.filterMap_cons, List.filterMap_nil, StoreEntry.operation, ← hStream]
    at hOperations
  apply mem_operations
  exact delete_between_appends hOperations (congrArg Int32.toInt hVersion)

/-- From a fresh database, on its connection, under any interleaving of the
requests of any number of clients: a read of an existing stream returns the
pushes to its id acknowledged since its latest creation, in the order of their
acknowledgement, with what was pushed; a push reported as failed leaves the
connection unchanged; and between two acknowledged pushes of one version to one
stream id lies an acknowledged delete of that stream. -/
theorem store_refines_stream_log (plan : Plan) {κ : Type} [DecidableEq κ]
    (programs : κ → List StoreRequest) {c₀ : Connection}
    {history : List (κ × StoreEntry)} {server : Server κ}
    (hInit : initDb none = .returned () c₀)
    (hRun : Run (ServerStep plan) ⟨c₀, programs⟩ history server) :
    (∀ (streamId : Int32),
      (∃ s ∈ server.connection.database.streams, s.id = streamId.toInt) →
        ∃ events, getEventsByStreamId plan streamId server.connection =
            .returned events server.connection ∧
          events.map pushedOf = acknowledgedPushes streamId.toInt history) ∧
    (∀ client streamId event error created server',
      ServerStep plan server
          (client, ⟨.pushEvent streamId event, .error error, created⟩) server' →
        server'.connection = server.connection) ∧
    (∀ before between after client₁ client₂ streamId₁ streamId₂ event₁ event₂
      reply₁ reply₂ created₁ created₂,
      history = before ++ [(client₁, ⟨.pushEvent streamId₁ event₁, .ok reply₁, created₁⟩)] ++
          between ++ [(client₂, ⟨.pushEvent streamId₂ event₂, .ok reply₂, created₂⟩)] ++
          after →
        event₁.streamId = event₂.streamId → event₁.version = event₂.version →
          ∃ client i reply, i.toInt = event₁.streamId.toInt ∧ ∃ created,
            (client, (⟨.deleteStream i, .ok reply, created⟩ : StoreEntry)) ∈ between) := by
  obtain rfl := eq_of_initDb_none hInit
  obtain ⟨hInv, hLogs⟩ := server_refines_log hRun
  refine ⟨?_, ?_, ?_⟩
  · intro streamId hExists
    have hLog : logOf server.connection.database streamId.toInt =
        some (((eventsOf streamId.toInt server.connection.database.events).map
          fun row => pushedOf row.toEvent)) := if_pos hExists
    obtain ⟨events, hRead, hEvents⟩ := getEventsByStreamId_eq_log hInv.store plan hLog
    refine ⟨events, hRead, ?_⟩
    rw [hEvents, acknowledgedPushes]
    exact log_eq_acknowledged hLogs hLog
  · intro client streamId event error created server' hStep
    cases hStep with
    | serve _ hStore =>
        cases storeStep_effect hInv.store.ready hStore with
        | refused _ _ _ _ => rfl
  · rintro before between after client₁ client₂ streamId₁ streamId₂ event₁ event₂
      reply₁ reply₂ created₁ created₂ rfl hStream hVersion
    obtain ⟨middle, hPrefix, -⟩ := hRun.exists_of_append
    exact delete_between_pushes hPrefix hStream hVersion

/-- One client that creates a stream and pushes its first event. -/
def oneEventProgram : Unit → List StoreRequest := fun _ =>
  [.createStream "User", .pushEvent 1 ⟨0, 1, "UserCreated", "{}", 1⟩]

theorem store_refines_stream_log_one_event :
    ∃ events, getEventsByStreamId ⟨.streamsOuter, .rowid⟩ 1 oneEventConnection =
        .returned events oneEventConnection ∧
      events.map pushedOf = [⟨1, "UserCreated", "{}", 1⟩] := by
  have hCreate : ServerStep ⟨.streamsOuter, .rowid⟩ ⟨freshConnection, oneEventProgram⟩
      ((), ⟨.createStream "User", .ok .done, some 1⟩)
      ⟨{ freshConnection with database := { freshConnection.database with
          streams := [⟨1, "User", 0⟩] } },
        Function.update oneEventProgram ()
          [.pushEvent 1 ⟨0, 1, "UserCreated", "{}", 1⟩]⟩ :=
    .serve rfl ⟨rfl, rfl, rfl⟩
  have hRun := Run.tail (Run.single hCreate)
    (show ServerStep ⟨.streamsOuter, .rowid⟩ _
        ((), ⟨.pushEvent 1 ⟨0, 1, "UserCreated", "{}", 1⟩, .ok .done, none⟩)
        ⟨oneEventConnection, _⟩ from .serve rfl ⟨rfl, rfl, rfl⟩)
  have hReads := (store_refines_stream_log ⟨.streamsOuter, .rowid⟩ oneEventProgram
    initDb_none hRun).1
  exact hReads 1 ⟨⟨1, "User", 0⟩, by decide, rfl⟩

end ActionHandler
end Yess
