import Mathlib.Data.Prod.Lex
import Yess.Db.SqliteRepository

namespace Yess
namespace Db

open Foundation

/-!
# `Sqlite_stream_repo`

The statements of the stream repository.  A query without `ORDER BY` is run by
a plan of SQLite's choice, which is an argument of every query below.
-/

/-- The choices a query planner has for the queries over events and streams. -/
inductive JoinOrder where
  | streamsOuter
  | eventsOuter
  deriving DecidableEq

structure Plan where
  join : JoinOrder
  events : Sql.ScanOrder
  deriving DecidableEq

/-! ## Rows as entities -/

/-- `sqlite3_column_int` keeps the lower 32 bits. -/
def getInt (column : Int) : Int32 := Int32.ofInt column

def StreamRow.toStream (row : StreamRow) : Stream where
  id := getInt row.id
  type := row.type
  version := getInt row.version

def EventRow.toEvent (row : EventRow) : Event where
  id := getInt row.id
  streamId := getInt row.streamId
  type := row.type
  payload := row.payload
  version := getInt row.version

/-! ## Queries -/

/-- The key of the index behind `UNIQUE(stream_id, version)`. -/
def EventRow.indexKey (row : EventRow) : Int ×ₗ Int :=
  toLex (row.streamId, row.version)

/-- The events of one stream, in the order of the table. -/
def eventsOf (streamId : Int) (events : List EventRow) : List EventRow :=
  events.filter fun row => row.streamId = streamId

/-- `events AS e INNER JOIN streams AS s ON s.id = e.stream_id`. -/
def joinEventsStreams (plan : Plan) (db : Database) : List (EventRow × StreamRow) :=
  let events := Sql.scan plan.events EventRow.indexKey db.events
  match plan.join with
  | .streamsOuter =>
      (Sql.nestedLoop (fun s e => s.id == e.streamId) db.streams events).map Prod.swap
  | .eventsOuter =>
      Sql.nestedLoop (fun e s => s.id == e.streamId) events db.streams

/-- Run a query on the joined tables. -/
def queryEvents (plan : Plan) (condition : EventRow × StreamRow → Bool) :
    DbProg (List EventRow) := do
  requireTable (·.events) "events"
  requireTable (·.streams) "streams"
  let c ← Prog.get
  pure (((joinEventsStreams plan c.database).filter condition).map Prod.fst)

/-- `Sqlite_stream_repo::all`. -/
def all : DbProg (List Stream) := do
  requireTable (·.streams) "streams"
  let c ← Prog.get
  pure (c.database.streams.map StreamRow.toStream)

/-- `Sqlite_stream_repo::by_type`. -/
def byType (type : String) : DbProg (List Stream) := do
  requireTable (·.streams) "streams"
  let c ← Prog.get
  pure ((c.database.streams.filter fun row => row.type = type).map StreamRow.toStream)

/-- `Sqlite_stream_repo::get`.  The id of the result is the argument. -/
def get (id : Int32) : DbProg (Option Stream) := do
  requireTable (·.streams) "streams"
  let c ← Prog.get
  match c.database.streams.find? fun row => row.id = id.toInt with
  | none => pure none
  | some row => pure (some { row.toStream with id := id })

/-- `Sqlite_stream_repo::getEvents(int)`. -/
def getEvents (plan : Plan) (streamId : Int32) : DbProg (List Event) := do
  let rows ← queryEvents plan fun row => row.1.streamId = streamId.toInt
  pure (rows.map EventRow.toEvent)

/-- `Sqlite_stream_repo::getEvents(std::string)`. -/
def getEventsByType (plan : Plan) (streamType : String) : DbProg (List Event) := do
  let rows ← queryEvents plan fun row => row.2.type = streamType
  pure (rows.map EventRow.toEvent)

/-- `Sqlite_stream_repo::getLastEvent`. -/
def getLastEvent (plan : Plan) (streamId : Int32) : DbProg (Option Event) := do
  let rows ← queryEvents plan fun row => row.2.id = streamId.toInt
  match Sql.orderDescLimitOne EventRow.version rows with
  | none => pure none
  | some row => pure (some { row.toEvent with streamId := streamId })

/-! ## Writes -/

/-- `Sqlite_stream_repo::create`. -/
def create (stream : Stream) : DbProg Unit := do
  requireTable (·.streams) "streams"
  update fun db => { db with
    streams := db.streams ++
      [⟨Sql.nextRowid (db.streams.map StreamRow.id), stream.type,
        stream.version.toInt⟩] }

/-- The body of the trigger `ver_valid`: the message it raises for a new row, if
it raises one. -/
def verValid (events : List EventRow) (new : EventRow) : Option String :=
  let stream := eventsOf new.streamId events
  let lastVersion := (Sql.orderDescLimitOne EventRow.version stream).map EventRow.version
  -- On an empty stream `lastVersion` is `NULL`, and so is the second condition.
  Sql.searchedCase
    [ (Sql.conj (Sql.equal (some (stream.length : Int)) (some 0))
        (Sql.notEqual (some new.version) (some 1)),
        "The stream should starts with event version 1."),
      (Sql.notEqual lastVersion (Sql.minus (some new.version) (some 1)),
        "Event version mismatch.") ]

/-- What refuses a new row of `events`, if anything does: first the trigger, then
the unique constraint, then the foreign key where it is enforced. -/
def insertError (c : Connection) (row : EventRow) : Option DbError :=
  match if c.database.schema.verValid then verValid c.database.events row else none with
  | some message => some (.raised message)
  | none =>
      if c.database.events.any fun old =>
          old.streamId = row.streamId && old.version = row.version then
        some (.uniqueFailed "events.stream_id, events.version")
      else if c.foreignKeys && !c.database.streams.any fun s => s.id = row.streamId then
        some .foreignKeyFailed
      else none

/-- The row that an event becomes. -/
def newEventRow (db : Database) (event : Event) : EventRow where
  id := Sql.nextRowid (db.events.map EventRow.id)
  streamId := event.streamId.toInt
  type := event.type
  payload := event.payload
  version := event.version.toInt

/-- `Sqlite_stream_repo::attachEvent`. -/
def attachEvent (event : Event) : DbProg Unit := do
  requireTable (·.events) "events"
  let c ← Prog.get
  match insertError c (newEventRow c.database event) with
  | some error => fail error
  | none =>
      update fun db => { db with events := db.events ++ [newEventRow db event] }

/-- `DELETE FROM events WHERE stream_id=?`. -/
def deleteEvents (streamId : Int32) : DbProg Unit := do
  requireTable (·.events) "events"
  update fun db => { db with
    events := db.events.filter fun row => row.streamId ≠ streamId.toInt }

/-- `DELETE FROM streams WHERE id=?`, refused while an event refers to the row
and foreign keys are enforced. -/
def deleteStreamRow (id : Int32) : DbProg Unit := do
  requireTable (·.streams) "streams"
  let c ← Prog.get
  if c.foreignKeys && c.database.streams.any (fun row => row.id = id.toInt) &&
      c.database.events.any (fun row => row.streamId = id.toInt) then
    fail .foreignKeyFailed
  else
    update fun db => { db with
      streams := db.streams.filter fun row => row.id ≠ id.toInt }

/-- `Sqlite_stream_repo::remove`. -/
def remove (id : Int32) : DbProg Unit :=
  withTransaction do
    deleteEvents id
    deleteStreamRow id

/-! ## What the functions do on a database with its full schema -/

/-- A connection outside a transaction, to a database with its full schema. -/
structure Connection.Ready (c : Connection) : Prop where
  schema : c.database.schema = .complete
  idle : c.rollback = none

theorem requireTable_apply {present : Schema → Bool} {table : String}
    {c : Connection} (hPresent : present c.database.schema = true) :
    requireTable present table c = .returned () c := by
  simp only [requireTable, hPresent, if_true]

theorem requireStreams {c : Connection} (hSchema : c.database.schema = .complete) :
    requireTable (·.streams) "streams" c = .returned () c :=
  requireTable_apply (by rw [hSchema]; rfl)

theorem requireEvents {c : Connection} (hSchema : c.database.schema = .complete) :
    requireTable (·.events) "events" c = .returned () c :=
  requireTable_apply (by rw [hSchema]; rfl)

theorem queryEvents_apply (plan : Plan) (condition : EventRow × StreamRow → Bool)
    {c : Connection} (hReady : c.Ready) :
    queryEvents plan condition c = .returned
      (((joinEventsStreams plan c.database).filter condition).map Prod.fst) c := by
  rw [queryEvents, Prog.bind_of_returned (requireEvents hReady.schema),
    Prog.bind_of_returned (requireStreams hReady.schema),
    Prog.bind_of_returned (Prog.get_apply c), Prog.pure_apply]

theorem getEvents_apply (plan : Plan) (streamId : Int32) {c : Connection}
    (hReady : c.Ready) :
    getEvents plan streamId c = .returned
      ((((joinEventsStreams plan c.database).filter
        fun row => row.1.streamId = streamId.toInt).map Prod.fst).map
        EventRow.toEvent) c := by
  rw [getEvents, Prog.bind_of_returned (queryEvents_apply _ _ hReady), Prog.pure_apply]

theorem all_apply {c : Connection} (hReady : c.Ready) :
    all c = .returned (c.database.streams.map StreamRow.toStream) c := by
  rw [all, Prog.bind_of_returned (requireStreams hReady.schema),
    Prog.bind_of_returned (Prog.get_apply c), Prog.pure_apply]

theorem byType_apply (type : String) {c : Connection} (hReady : c.Ready) :
    byType type c = .returned
      ((c.database.streams.filter fun row => row.type = type).map
        StreamRow.toStream) c := by
  rw [byType, Prog.bind_of_returned (requireStreams hReady.schema),
    Prog.bind_of_returned (Prog.get_apply c), Prog.pure_apply]

theorem get_apply (id : Int32) {c : Connection} (hReady : c.Ready) :
    get id c = .returned
      ((c.database.streams.find? fun row => row.id = id.toInt).map
        fun row => { row.toStream with id := id }) c := by
  rw [get, Prog.bind_of_returned (requireStreams hReady.schema),
    Prog.bind_of_returned (Prog.get_apply c)]
  cases c.database.streams.find? fun row => row.id = id.toInt <;> rfl

theorem getEventsByType_apply (plan : Plan) (streamType : String) {c : Connection}
    (hReady : c.Ready) :
    getEventsByType plan streamType c = .returned
      ((((joinEventsStreams plan c.database).filter
        fun row => row.2.type = streamType).map Prod.fst).map EventRow.toEvent) c := by
  rw [getEventsByType, Prog.bind_of_returned (queryEvents_apply _ _ hReady),
    Prog.pure_apply]

theorem create_apply (stream : Stream) {c : Connection} (hReady : c.Ready) :
    create stream c = .returned () { c with database := { c.database with
      streams := c.database.streams ++
        [⟨Sql.nextRowid (c.database.streams.map StreamRow.id), stream.type,
          stream.version.toInt⟩] } } := by
  rw [create, Prog.bind_of_returned (requireStreams hReady.schema), update,
    Prog.modify_apply]

/-- An event is stored exactly when nothing refuses its row; otherwise the
connection is left as it was. -/
theorem attachEvent_apply (event : Event) {c : Connection} (hReady : c.Ready) :
    attachEvent event c =
      match insertError c (newEventRow c.database event) with
      | some error => .threw (.sqliteException error) c
      | none => .returned () { c with database := { c.database with
          events := c.database.events ++ [newEventRow c.database event] } } := by
  rw [attachEvent, Prog.bind_of_returned (requireEvents hReady.schema),
    Prog.bind_of_returned (Prog.get_apply c)]
  cases insertError c (newEventRow c.database event) <;> rfl

/-- The two deletes of `remove`, without the transaction around them. -/
theorem deletes_apply (id : Int32) {c : Connection}
    (hSchema : c.database.schema = .complete) :
    (do deleteEvents id; deleteStreamRow id : DbProg Unit) c =
      .returned () { c with database := { c.database with
        events := c.database.events.filter fun row => row.streamId ≠ id.toInt
        streams := c.database.streams.filter fun row => row.id ≠ id.toInt } } := by
  have hDelete : deleteEvents id c = .returned () { c with
      database := { c.database with
        events := c.database.events.filter fun row => row.streamId ≠ id.toInt } } := by
    rw [deleteEvents, Prog.bind_of_returned (requireEvents hSchema), update,
      Prog.modify_apply]
  have hSchema' : ({ c.database with
      events := c.database.events.filter fun row => row.streamId ≠ id.toInt } :
        Database).schema = .complete := hSchema
  rw [Prog.bind_of_returned hDelete, deleteStreamRow,
    Prog.bind_of_returned (requireTable_apply (by rw [hSchema']; rfl)),
    Prog.bind_of_returned (Prog.get_apply _)]
  -- The first delete took every reference to the row away, so the second one
  -- cannot meet the foreign key.
  have hNoReference : (c.database.events.filter fun row => row.streamId ≠ id.toInt).any
      (fun row => row.streamId = id.toInt) = false := by
    simp
  simp only [hNoReference, Bool.and_false, Bool.false_eq_true, if_false, update,
    Prog.modify_apply]

/-- `remove` takes the stream and its events away, in one transaction that never
fails. -/
theorem remove_apply (id : Int32) {c : Connection} (hReady : c.Ready) :
    remove id c = .returned () { c with database := { c.database with
      events := c.database.events.filter fun row => row.streamId ≠ id.toInt
      streams := c.database.streams.filter fun row => row.id ≠ id.toInt } } := by
  have hBody := @deletes_apply id { c with rollback := some c.database } hReady.schema
  rw [remove, withTransaction_of_returned hReady.idle hBody rfl]
  simp only [hReady.idle]

end Db
end Yess
