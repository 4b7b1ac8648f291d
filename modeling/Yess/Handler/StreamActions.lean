import Yess.Db.EventTable
import Yess.Foundation.Run

namespace Yess
namespace ActionHandler

open Foundation Db VersionedLog

/-!
# The stream and event actions of `Action_handler`

The member functions that act on the store, the requests of clients that call
them, and one request as a step of the connection.  Each request is one step:
an insert is one SQL statement, a delete one transaction.

`StoreEffect` lists what a step can do; everything that holds of a run of
requests is derived from this list.
-/

def saveStream (stream : Stream) : DbProg Unit := Db.create stream

def createStream (type : String) : DbProg Unit :=
  let stream : Stream := ⟨0, type, 0⟩
  saveStream stream

def deleteStream (id : Int32) : DbProg Unit := Db.remove id

def getAllStreams : DbProg (List Stream) := Db.all

def getStreamsByType (type : String) : DbProg (List Stream) := Db.byType type

def getStream (id : Int32) : DbProg (Option Stream) := Db.get id

/-- The stream id given beside the event is not used. -/
def pushEvent (_streamId : Int32) (event : Event) : DbProg Unit :=
  Prog.tryCatch (attachEvent event) fun ex =>
    let err := "DB ERROR: " ++ ex.what
    Prog.throw (.runtimeError err)

def getEventsByStreamId (plan : Plan) (streamId : Int32) : DbProg (List Event) :=
  getEvents plan streamId

def getEventsByStreamType (plan : Plan) (type : String) : DbProg (List Event) :=
  getEventsByType plan type

/-! ## Requests -/

inductive StoreRequest where
  | createStream (type : String)
  | deleteStream (id : Int32)
  | pushEvent (streamId : Int32) (event : Event)
  | getAllStreams
  | getStreamsByType (type : String)
  | getStream (id : Int32)
  | getEventsByStreamId (id : Int32)
  | getEventsByStreamType (type : String)
  deriving DecidableEq, Repr

inductive StoreReply where
  | done
  | streams (streams : List Stream)
  | stream (stream : Option Stream)
  | events (events : List Event)
  deriving DecidableEq, Repr

/-- The call behind a request. -/
def serve (plan : Plan) : StoreRequest → DbProg StoreReply
  | .createStream type => do createStream type; pure .done
  | .deleteStream id => do deleteStream id; pure .done
  | .pushEvent streamId event => do pushEvent streamId event; pure .done
  | .getAllStreams => do pure (.streams (← getAllStreams))
  | .getStreamsByType type => do pure (.streams (← getStreamsByType type))
  | .getStream id => do pure (.stream (← getStream id))
  | .getEventsByStreamId id => do pure (.events (← getEventsByStreamId plan id))
  | .getEventsByStreamType type => do pure (.events (← getEventsByStreamType plan type))

/-- One line of the history of the store: a request, its reply, and the id that
the row of a created stream got. -/
structure StoreEntry where
  request : StoreRequest
  reply : Except Exn StoreReply
  created : Option Int

/-- The id that a create gives to its stream. -/
def createdId (c : Connection) : StoreRequest → Except Exn StoreReply → Option Int
  | .createStream _, .ok _ => some (Sql.nextRowid (c.database.streams.map StreamRow.id))
  | _, _ => none

/-- One request is served. -/
def StoreStep (plan : Plan) (c : Connection) (entry : StoreEntry) (c' : Connection) :
    Prop :=
  (serve plan entry.request c).result = some entry.reply ∧
    (serve plan entry.request c).state = some c' ∧
    entry.created = createdId c entry.request entry.reply

/-- A request that only reads. -/
def StoreRequest.isRead : StoreRequest → Bool
  | .createStream _ => false
  | .deleteStream _ => false
  | .pushEvent _ _ => false
  | _ => true

/-- What serving a request can do to the connection. -/
inductive StoreEffect (c : Connection) : StoreEntry → Connection → Prop
  | created (type : String) :
      StoreEffect c
        ⟨.createStream type, .ok .done,
          some (Sql.nextRowid (c.database.streams.map StreamRow.id))⟩
        { c with database := { c.database with
          streams := c.database.streams ++
            [⟨Sql.nextRowid (c.database.streams.map StreamRow.id), type, 0⟩] } }
  | deleted (id : Int32) :
      StoreEffect c ⟨.deleteStream id, .ok .done, none⟩
        { c with database := { c.database with
          events := c.database.events.filter fun row => row.streamId ≠ id.toInt
          streams := c.database.streams.filter fun row => row.id ≠ id.toInt } }
  | pushed (streamId : Int32) (event : Event)
      (hAccepted : insertError c (newEventRow c.database event) = none) :
      StoreEffect c ⟨.pushEvent streamId event, .ok .done, none⟩
        { c with database := { c.database with
          events := c.database.events ++ [newEventRow c.database event] } }
  | refused (streamId : Int32) (event : Event) (error : DbError)
      (hRefused : insertError c (newEventRow c.database event) = some error) :
      StoreEffect c
        ⟨.pushEvent streamId event,
          .error (.runtimeError ("DB ERROR: " ++ error.what)), none⟩ c
  | read (request : StoreRequest) (reply : StoreReply) (hRead : request.isRead = true) :
      StoreEffect c ⟨request, .ok reply, none⟩ c

theorem pushEvent_apply (streamId : Int32) (event : Event) {c : Connection}
    (hReady : c.Ready) :
    pushEvent streamId event c =
      match insertError c (newEventRow c.database event) with
      | some error => .threw (.runtimeError ("DB ERROR: " ++ error.what)) c
      | none => .returned () { c with database := { c.database with
          events := c.database.events ++ [newEventRow c.database event] } } := by
  have hAttach := attachEvent_apply event hReady
  cases hError : insertError c (newEventRow c.database event) with
  | none =>
      rw [hError] at hAttach
      exact Prog.tryCatch_of_returned hAttach
  | some error =>
      rw [hError] at hAttach
      exact Prog.tryCatch_of_threw hAttach

/-- A push comes back without an exception exactly when nothing refuses its row. -/
theorem pushEvent_returned_iff (streamId : Int32) (event : Event) {c : Connection}
    (hReady : c.Ready) :
    (∃ c', pushEvent streamId event c = .returned () c') ↔
      insertError c (newEventRow c.database event) = none := by
  rw [pushEvent_apply streamId event hReady]
  cases insertError c (newEventRow c.database event) <;> simp

/-- The store takes the event: its version is the next one after the rows stored
under its stream id, and where foreign keys are enforced a stream has this id. -/
def EventFits (c : Connection) (event : Event) : Prop :=
  event.version.toInt = (eventsOf event.streamId.toInt c.database.events).length + 1 ∧
    (c.foreignKeys = true → ∃ s ∈ c.database.streams, s.id = event.streamId.toInt)

theorem insertError_newEventRow_iff {c : Connection} (hInv : StoreInvariant c)
    (event : Event) :
    insertError c (newEventRow c.database event) = none ↔ EventFits c event :=
  insertError_eq_none_iff hInv.ready hInv.numbered _

/-- A read returns and leaves the connection as it is. -/
theorem serve_read (plan : Plan) {request : StoreRequest} {c : Connection}
    (hReady : c.Ready) (hRead : request.isRead = true) :
    ∃ reply, serve plan request c = .returned reply c := by
  cases request with
  | createStream type => simp [StoreRequest.isRead] at hRead
  | deleteStream id => simp [StoreRequest.isRead] at hRead
  | pushEvent streamId event => simp [StoreRequest.isRead] at hRead
  | getAllStreams => exact ⟨_, Prog.bind_of_returned (all_apply hReady)⟩
  | getStreamsByType type => exact ⟨_, Prog.bind_of_returned (byType_apply type hReady)⟩
  | getStream id => exact ⟨_, Prog.bind_of_returned (Db.get_apply id hReady)⟩
  | getEventsByStreamId id =>
      exact ⟨_, Prog.bind_of_returned (getEvents_apply plan id hReady)⟩
  | getEventsByStreamType type =>
      exact ⟨_, Prog.bind_of_returned (getEventsByType_apply plan type hReady)⟩

/-- What a step replies and leaves, when serving the request returns. -/
theorem StoreStep.eq_of_returned {plan : Plan} {c c' s : Connection}
    {request : StoreRequest} {reply : Except Exn StoreReply} {created : Option Int}
    {value : StoreReply} (hStep : StoreStep plan c ⟨request, reply, created⟩ c')
    (hServe : serve plan request c = .returned value s) :
    reply = .ok value ∧ c' = s ∧ created = createdId c request reply := by
  obtain ⟨hReply, hState, hCreated⟩ := hStep
  simp only [hServe, Outcome.result_returned, Outcome.state_returned, Option.some.injEq]
    at hReply hState
  exact ⟨hReply.symm, hState.symm, hCreated⟩

/-- The same when it throws. -/
theorem StoreStep.eq_of_threw {plan : Plan} {c c' s : Connection}
    {request : StoreRequest} {reply : Except Exn StoreReply} {created : Option Int}
    {error : Exn} (hStep : StoreStep plan c ⟨request, reply, created⟩ c')
    (hServe : serve plan request c = .threw error s) :
    reply = .error error ∧ c' = s ∧ created = createdId c request reply := by
  obtain ⟨hReply, hState, hCreated⟩ := hStep
  simp only [hServe, Outcome.result_threw, Outcome.state_threw, Option.some.injEq]
    at hReply hState
  exact ⟨hReply.symm, hState.symm, hCreated⟩

/-- The inversion of a step: on a ready connection, `StoreEffect` has all
cases. -/
theorem storeStep_effect {plan : Plan} {c c' : Connection} {entry : StoreEntry}
    (hReady : c.Ready) (hStep : StoreStep plan c entry c') :
    StoreEffect c entry c' := by
  obtain ⟨request, reply, created⟩ := entry
  by_cases hRead : request.isRead = true
  · obtain ⟨value, hServe⟩ := serve_read plan hReady hRead
    obtain ⟨rfl, rfl, hCreated⟩ := hStep.eq_of_returned hServe
    have hNone : created = none := by
      rw [hCreated]
      cases request <;> simp_all [createdId, StoreRequest.isRead]
    subst hNone
    exact .read request value hRead
  · cases request with
    | createStream type =>
        obtain ⟨rfl, rfl, rfl⟩ :=
          hStep.eq_of_returned (Prog.bind_of_returned (create_apply ⟨0, type, 0⟩ hReady))
        exact .created type
    | deleteStream id =>
        obtain ⟨rfl, rfl, rfl⟩ :=
          hStep.eq_of_returned (Prog.bind_of_returned (remove_apply id hReady))
        exact .deleted id
    | pushEvent streamId event =>
        have hPush := pushEvent_apply streamId event hReady
        cases hError : insertError c (newEventRow c.database event) with
        | none =>
            rw [hError] at hPush
            obtain ⟨rfl, rfl, rfl⟩ := hStep.eq_of_returned (Prog.bind_of_returned hPush)
            exact .pushed streamId event hError
        | some error =>
            rw [hError] at hPush
            obtain ⟨rfl, rfl, rfl⟩ := hStep.eq_of_threw (Prog.bind_of_threw hPush)
            exact .refused streamId event error hError
    | getAllStreams => exact absurd rfl hRead
    | getStreamsByType type => exact absurd rfl hRead
    | getStream id => exact absurd rfl hRead
    | getEventsByStreamId id => exact absurd rfl hRead
    | getEventsByStreamType type => exact absurd rfl hRead

/-- A step keeps the schema, leaves no transaction open and does not touch the
foreign-key switch. -/
theorem StoreEffect.ready {c c' : Connection} {entry : StoreEntry}
    (hEffect : StoreEffect c entry c') (hReady : c.Ready) : c'.Ready := by
  cases hEffect <;> exact ⟨hReady.schema, hReady.idle⟩

theorem StoreEffect.foreignKeys_eq {c c' : Connection} {entry : StoreEntry}
    (hEffect : StoreEffect c entry c') : c'.foreignKeys = c.foreignKeys := by
  cases hEffect <;> rfl

theorem freshConnection_invariant : StoreInvariant freshConnection where
  ready := ⟨rfl, rfl⟩
  streamIds := List.Pairwise.nil
  numbered := eventsNumbered_nil

/-- Every request keeps the invariant of the tables. -/
theorem StoreEffect.invariant {c c' : Connection} {entry : StoreEntry}
    (hEffect : StoreEffect c entry c') (hInv : StoreInvariant c) : StoreInvariant c' := by
  have hReady := hEffect.ready hInv.ready
  cases hEffect with
  | created type =>
      exact ⟨hReady, Sql.pairwise_append_nextRowid hInv.streamIds rfl, hInv.numbered⟩
  | deleted id =>
      refine ⟨hReady, hInv.streamIds.filter _, hInv.numbered.ids.filter _, ?_⟩
      intro streamId
      simp only [eventsOf_delete]
      by_cases h : streamId = id.toInt
      · simp [h]
      · simpa [h] using hInv.numbered.versions streamId
  | pushed streamId event hAccepted =>
      rw [insertError_eq_none_iff hInv.ready hInv.numbered] at hAccepted
      refine ⟨hReady, hInv.streamIds,
        Sql.pairwise_append_nextRowid hInv.numbered.ids rfl, ?_⟩
      intro stream
      simp only [eventsOf_append]
      by_cases h : (newEventRow c.database event).streamId = stream
      · subst h
        simp only [if_true, List.map_append, List.length_append, List.map_cons,
          List.map_nil, List.length_singleton]
        rw [hInv.numbered.versions, upTo_succ, hAccepted.1]
      · simpa [h] using hInv.numbered.versions stream
  | refused streamId event error hRefused => exact hInv
  | read request reply hRead => exact hInv

end ActionHandler
end Yess
