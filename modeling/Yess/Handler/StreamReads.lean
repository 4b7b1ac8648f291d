import Yess.Handler.TypeReads

namespace Yess
namespace ActionHandler

open Foundation Db VersionedLog Cursor

/-!
# Reading one stream while others write

`getEvents(int)` steps through its rows as `getEvents(std::string)` does, and other
clients of the one connection may write between two rows.  A new event of a stream comes
after all its events, in every order in which a plan may visit them, so that a read of
one stream always ends with the stream as it then is (`stream_read_at_end`).  The reads
of a type do not do so (`type_reads_are_no_snapshots`).
-/

/-- The rows that the query for one stream finds. -/
def rowsOfStream (plan : Plan) (db : Database) (streamId : Int32) : List EventRow :=
  ((joinEventsStreams plan db).filter fun row => row.1.streamId = streamId.toInt).map Prod.fst

/-- A request of another client, other than a delete of the stream. -/
def OtherStep (streamId : Int32) (c : Connection) (entry : StoreEntry) (c' : Connection) :
    Prop :=
  entry.request ≠ .deleteStream streamId ∧ ∃ plan, StoreStep plan c entry c'

/-- One `executeStep` of `getEvents(int)`, or a request of another client in between. -/
abbrev StreamReadStep (plan : Plan) (streamId : Int32) :
    TypeReading → ReadLabel StoreEntry → TypeReading → Prop :=
  ReadStep (OtherStep streamId) (fun c => rowsOfStream plan c.database streamId) (readKey plan)

/-- A whole `getEvents(int)` that starts on the connection `c`. -/
def ReadsStream (plan : Plan) (streamId : Int32) (c : Connection)
    (labels : List (ReadLabel StoreEntry)) (final : TypeReading) : Prop :=
  Run (StreamReadStep plan streamId) (.start c) labels final ∧ final.finished = true

variable {plan : Plan} {streamId : Int32} {c c' : Connection} {entry : StoreEntry}

theorem rowsOfStream_eq (hInv : StoreInvariant c) :
    rowsOfStream plan c.database streamId =
      if ∃ s ∈ c.database.streams, s.id = streamId.toInt
        then eventsOf streamId.toInt c.database.events else [] :=
  joinEventsStreams_streamId plan hInv.streamIds hInv.numbered streamId.toInt

/-- Every other request leaves the rows as they are or adds to their end. -/
theorem OtherStep.extend (hInv : StoreInvariant c) (hStep : OtherStep streamId c entry c') :
    rowsOfStream plan c.database streamId <+: rowsOfStream plan c'.database streamId := by
  obtain ⟨hOther, planOther, hStore⟩ := hStep
  have hEffect := storeStep_effect hInv.ready hStore
  rw [rowsOfStream_eq hInv, rowsOfStream_eq (hEffect.invariant hInv)]
  by_cases hExists : ∃ s ∈ c.database.streams, s.id = streamId.toInt
  · obtain ⟨s, hMem, hId⟩ := hExists
    rw [if_pos ⟨s, hMem, hId⟩]
    cases hEffect with
    | created type =>
        refine ⟨[], ?_⟩
        rw [List.append_nil, if_pos ⟨s, List.mem_append_left _ hMem, hId⟩]
    | pushed pushedId event hAccepted =>
        rw [if_pos ⟨s, hMem, hId⟩, eventsOf_append]
        exact List.prefix_append _ _
    | deleted id =>
        have hNe : streamId.toInt ≠ id.toInt := fun h =>
          hOther (by rw [Int32.toInt_inj.mp h])
        have hKept : s ∈ c.database.streams.filter fun row => row.id ≠ id.toInt := by
          refine List.mem_filter.mpr ⟨hMem, ?_⟩
          rw [hId]
          simpa using hNe
        refine ⟨[], ?_⟩
        rw [List.append_nil, if_pos ⟨s, hKept, hId⟩, eventsOf_delete, if_neg hNe]
    | refused pushedId event error hRefused =>
        refine ⟨[], ?_⟩
        rw [List.append_nil, if_pos ⟨s, hMem, hId⟩]
    | read request reply hRead =>
        refine ⟨[], ?_⟩
        rw [List.append_nil, if_pos ⟨s, hMem, hId⟩]
  -- Without the stream there are no rows yet.
  · rw [if_neg hExists]
    exact List.nil_prefix

theorem rowsOfStream_sorted (hInv : StoreInvariant c) :
    (rowsOfStream plan c.database streamId).Pairwise
      fun a b => readKey plan a < readKey plan b := by
  rw [rowsOfStream_eq hInv]
  split
  · exact eventsOf_sorted hInv.numbered streamId.toInt
  · exact List.Pairwise.nil

/-- While others write, the rows of a stream grow at their end. -/
theorem rowsOfStream_appends (plan : Plan) (streamId : Int32) :
    Appends (OtherStep streamId) StoreInvariant
      (fun c => rowsOfStream plan c.database streamId) (readKey plan) where
  keep := by
    rintro c entry c' hInv ⟨-, planOther, hStore⟩
    exact (storeStep_effect hInv.ready hStore).invariant hInv
  sorted := fun c hInv => rowsOfStream_sorted hInv
  extend := fun c entry c' hInv hStep => hStep.extend hInv

/-! ## The reply of a read -/

def secondPush : StoreEntry :=
  ⟨.pushEvent 1 ⟨0, 1, "UserRenamed", "{}", 2⟩, .ok .done, none⟩

def twoEventsConnection : Connection := { oneEventConnection with
  database := { oneEventConnection.database with
    events := [⟨1, 1, "UserCreated", "{}", 1⟩, ⟨2, 1, "UserRenamed", "{}", 2⟩] } }

/-- The second event is pushed after the first row has been read. -/
theorem overtaken_read :
    ReadsStream ⟨.eventsOuter, .rowid⟩ 1 oneEventConnection
      [.fetch, .store secondPush, .fetch, .fetch]
      ⟨twoEventsConnection, some (toLex (0, 2)),
        [⟨1, 1, "UserCreated", "{}", 1⟩, ⟨2, 1, "UserRenamed", "{}", 2⟩], true⟩ := by
  have hPush : OtherStep 1 oneEventConnection secondPush twoEventsConnection :=
    ⟨by simp [secondPush], ⟨.streamsOuter, .rowid⟩, rfl, rfl, rfl⟩
  exact ⟨.tail (.tail (.tail (.single (.row rfl rfl)) (.store rfl hPush)) (.row rfl rfl))
    (.done rfl rfl), rfl⟩

/-- For every state of the store, every stream id, every plan and every way in which other
clients create streams, delete other streams, push and read between the rows of the read:
the reply is what one query would return at the instant at which the read ends. -/
theorem stream_read_at_end (hReachable : Reachable c) {labels : List (ReadLabel StoreEntry)}
    {final : TypeReading} (hRead : ReadsStream plan streamId c labels final) (plan' : Plan) :
    getEventsByStreamId plan' streamId final.store =
      .returned (final.found.map EventRow.toEvent) final.store := by
  obtain ⟨hInv, hFound⟩ := found_eq_contents (rowsOfStream_appends plan streamId)
    hReachable.invariant.store hRead.1 hRead.2
  rw [getEventsByStreamId, getEvents_eq plan' streamId hInv, hFound, rowsOfStream_eq hInv]

theorem stream_read_at_end_overtaken :
    getEventsByStreamId ⟨.streamsOuter, .index⟩ 1 twoEventsConnection =
      .returned
        ([⟨1, 1, "UserCreated", "{}", 1⟩, ⟨2, 1, "UserRenamed", "{}", 2⟩].map EventRow.toEvent)
        twoEventsConnection :=
  stream_read_at_end oneEventConnection_reachable overtaken_read ⟨.streamsOuter, .index⟩

end ActionHandler
end Yess
