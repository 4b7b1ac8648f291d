import Yess.Handler.Sessions

namespace Yess
namespace ActionHandler

open Foundation Db VersionedLog

/-!
# Referential integrity

`init_db` switches foreign keys on only where it makes the file, so the sessions
after the first one run without them, and there a push of version 1 to a stream
id that no stream has is stored.  The row waits for the stream that is given the
id later (`orphan_adopted_after_restart`).

A run keeps the integrity at every step exactly when none of its steps is such a
push (`referentialIntegrity_iff`).
-/

/-- Every event row names a stream that exists. -/
def EventsReferToStreams (db : Database) : Prop :=
  ∀ row ∈ db.events, ∃ s ∈ db.streams, s.id = row.streamId

/-- Referential integrity of one step: afterwards every event names an existing
stream, a push to a missing stream was refused and changed nothing, and a stream
that was created reads as empty. -/
structure ReferentialStep (plan : Plan) (c : Connection) (label : SessionLabel)
    (c' : Connection) : Prop where
  refers : EventsReferToStreams c'.database
  rejects : ∀ streamId event reply created,
    label = .request ⟨.pushEvent streamId event, reply, created⟩ →
      (¬∃ s ∈ c.database.streams, s.id = event.streamId.toInt) →
        (∃ error, reply = .error error) ∧ c' = c
  startsEmpty : ∀ entry id, label = .request entry → entry.created = some id →
    ∀ i : Int32, i.toInt = id → getEventsByStreamId plan i c' = .returned [] c'

/-- The step is not a push of version 1 to a missing stream on a connection
without foreign keys. -/
def NoOrphanPush (c : Connection) (label : SessionLabel) (_c' : Connection) : Prop :=
  ∀ streamId event reply created,
    label = .request ⟨.pushEvent streamId event, reply, created⟩ →
      c.foreignKeys = false → event.version.toInt = 1 →
        ∃ s ∈ c.database.streams, s.id = event.streamId.toInt

theorem freshConnection_refers : EventsReferToStreams freshConnection.database := by
  intro row hRow
  simp [freshConnection, Database.empty] at hRow

/-- Where every event names an existing stream, a missing stream has none. -/
theorem EventsReferToStreams.eventsOf_eq_nil {db : Database}
    (hRefers : EventsReferToStreams db) {streamId : Int}
    (hMissing : ¬∃ s ∈ db.streams, s.id = streamId) :
    eventsOf streamId db.events = [] := by
  rw [List.eq_nil_iff_forall_not_mem]
  intro row hRow
  rw [mem_eventsOf] at hRow
  obtain ⟨s, hMem, hId⟩ := hRefers row hRow.1
  exact hMissing ⟨s, hMem, hId.trans hRow.2⟩

theorem EventsReferToStreams.eventsOf_nextRowid {db : Database}
    (hRefers : EventsReferToStreams db) :
    eventsOf (Sql.nextRowid (db.streams.map StreamRow.id)) db.events = [] := by
  apply hRefers.eventsOf_eq_nil
  rintro ⟨s, hMem, hId⟩
  apply Sql.nextRowid_not_mem (db.streams.map StreamRow.id)
  rw [← hId]
  exact List.mem_map_of_mem hMem

/-- A request keeps the integrity, unless it is a push to a missing stream that
was accepted. -/
theorem StoreEffect.refers {c c' : Connection} {entry : StoreEntry}
    (hEffect : StoreEffect c entry c') (hRefers : EventsReferToStreams c.database)
    (hPush : ∀ streamId event reply created,
      entry = ⟨.pushEvent streamId event, .ok reply, created⟩ →
        ∃ s ∈ c.database.streams, s.id = event.streamId.toInt) :
    EventsReferToStreams c'.database := by
  cases hEffect with
  | created type =>
      intro row hRow
      obtain ⟨s, hMem, hId⟩ := hRefers row hRow
      exact ⟨s, List.mem_append_left _ hMem, hId⟩
  | deleted id =>
      intro row hRow
      simp only [List.mem_filter, decide_eq_true_eq] at hRow ⊢
      obtain ⟨s, hMem, hId⟩ := hRefers row hRow.1
      exact ⟨s, ⟨hMem, by rw [hId]; exact hRow.2⟩, hId⟩
  | pushed streamId event hAccepted =>
      intro row hRow
      rcases List.mem_append.mp hRow with hOld | hNew
      · exact hRefers row hOld
      · rw [List.mem_singleton] at hNew
        subst hNew
        exact hPush streamId event _ _ rfl
  | refused streamId event error hRefused => exact hRefers
  | read request reply hRead => exact hRefers

/-- Without an orphan push, a push that is accepted names an existing stream: with
foreign keys because they are enforced, without them because a missing stream has
no events, so that only version 1 is accepted for it. -/
theorem NoOrphanPush.exists_stream {c c' : Connection} {streamId : Int32} {event : Event}
    {reply : Except Exn StoreReply} {created : Option Int}
    (hCondition : NoOrphanPush c (.request ⟨.pushEvent streamId event, reply, created⟩) c')
    (hInv : StoreInvariant c) (hRefers : EventsReferToStreams c.database)
    (hAccepted : insertError c (newEventRow c.database event) = none) :
    ∃ s ∈ c.database.streams, s.id = event.streamId.toInt := by
  rw [insertError_eq_none_iff hInv.ready hInv.numbered] at hAccepted
  obtain ⟨hVersion, hKeys⟩ := hAccepted
  by_cases hEnforced : c.foreignKeys = true
  · exact hKeys hEnforced
  -- The trigger lets only version 1 through where a stream has no events.
  · by_contra hMissing
    have hEmpty := hRefers.eventsOf_eq_nil hMissing
    have hOne : event.version.toInt = 1 := by
      rw [show (newEventRow c.database event).streamId = event.streamId.toInt from rfl,
        hEmpty] at hVersion
      exact hVersion
    exact hMissing (hCondition streamId event reply created rfl
      (by simpa using hEnforced) hOne)

/-- An orphan push is accepted. -/
theorem insertError_of_orphanPush {c : Connection} {event : Event}
    (hInv : StoreInvariant c) (hRefers : EventsReferToStreams c.database)
    (hKeys : c.foreignKeys = false) (hOne : event.version.toInt = 1)
    (hMissing : ¬∃ s ∈ c.database.streams, s.id = event.streamId.toInt) :
    insertError c (newEventRow c.database event) = none := by
  rw [insertError_eq_none_iff hInv.ready hInv.numbered]
  refine ⟨?_, fun h => by simp [hKeys] at h⟩
  rw [show (newEventRow c.database event).streamId = event.streamId.toInt from rfl,
    hRefers.eventsOf_eq_nil hMissing]
  exact hOne

/-- A step with integrity is no orphan push, which would have been acknowledged. -/
theorem ReferentialStep.noOrphanPush {plan : Plan} {c c' : Connection}
    {label : SessionLabel} (hReferential : ReferentialStep plan c label c')
    (hInv : StoreInvariant c) (hRefers : EventsReferToStreams c.database)
    (hStep : SessionStep plan c label c') : NoOrphanPush c label c' := by
  intro streamId event reply created hLabel hKeys hOne
  by_contra hMissing
  subst hLabel
  obtain ⟨⟨error, hReply⟩, -⟩ :=
    hReferential.rejects streamId event reply created rfl hMissing
  have hAccepted := insertError_of_orphanPush hInv hRefers hKeys hOne hMissing
  cases hStep with
  | request hServed =>
      have hPush := pushEvent_apply streamId event hInv.ready
      rw [hAccepted] at hPush
      obtain ⟨hOk, -⟩ := hServed.eq_of_returned (Prog.bind_of_returned hPush)
      rw [hReply] at hOk
      simp at hOk

/-- A request that is no orphan push has integrity. -/
theorem NoOrphanPush.referentialStep_request {plan : Plan} {c c' : Connection}
    {entry : StoreEntry} (hCondition : NoOrphanPush c (.request entry) c')
    (hInv : StoreInvariant c) (hRefers : EventsReferToStreams c.database)
    (hEffect : StoreEffect c entry c') : ReferentialStep plan c (.request entry) c' := by
  have hInv' := hEffect.invariant hInv
  have hRefers' : EventsReferToStreams c'.database := by
    apply hEffect.refers hRefers
    rintro streamId event reply created rfl
    cases hEffect with
    | pushed _ _ hAccepted => exact hCondition.exists_stream hInv hRefers hAccepted
    | read _ _ hRead => simp [StoreRequest.isRead] at hRead
  refine ⟨hRefers', ?_, ?_⟩
  · rintro streamId event reply created hLabel hMissing
    obtain rfl := SessionLabel.request.inj hLabel
    cases hEffect with
    | pushed _ _ hAccepted =>
        exact absurd (hCondition.exists_stream hInv hRefers hAccepted) hMissing
    | refused _ _ error _ => exact ⟨⟨_, rfl⟩, rfl⟩
    | read _ _ hRead => simp [StoreRequest.isRead] at hRead
  · rintro _ id hLabel hCreated i hId
    obtain rfl := SessionLabel.request.inj hLabel
    rw [getEventsByStreamId, getEvents_eq plan i hInv']
    cases hEffect with
    | created type =>
        simp only [Option.some.injEq] at hCreated
        have hEmpty := hRefers.eventsOf_nextRowid
        simp only [hId, ← hCreated, hEmpty, ite_self, List.map_nil]
    | deleted _ => simp at hCreated
    | pushed _ _ _ => simp at hCreated
    | refused _ _ _ _ => simp at hCreated
    | read _ _ _ => simp at hCreated

/-- In a state with integrity, a step has it exactly when it is no orphan push. -/
theorem referentialStep_iff {plan : Plan} {c c' : Connection} {label : SessionLabel}
    (hInv : StoreInvariant c) (hRefers : EventsReferToStreams c.database)
    (hStep : SessionStep plan c label c') :
    ReferentialStep plan c label c' ↔ NoOrphanPush c label c' := by
  constructor
  · intro hReferential
    exact hReferential.noOrphanPush hInv hRefers hStep
  · intro hCondition
    cases hStep with
    | restart hInit =>
        obtain rfl := eq_of_initDb_some hInit
        exact ⟨hRefers, by simp, by simp⟩
    | request hServed =>
        exact hCondition.referentialStep_request hInv hRefers
          (storeStep_effect hInv.ready hServed)

/-- Over any number of sessions on a file, a run has referential integrity at
every step exactly when no step of it is a push of version 1 to a missing stream
on a connection without foreign keys.  The connections without foreign keys are
those of every session after the first. -/
theorem referentialIntegrity_iff (plan : Plan) {c₀ c : Connection}
    {labels : List SessionLabel} (hInit : initDb none = .returned () c₀) :
    Run (StepWith (SessionStep plan) (ReferentialStep plan)) c₀ labels c ↔
      Run (StepWith (SessionStep plan) NoOrphanPush) c₀ labels c := by
  obtain rfl := eq_of_initDb_none hInit
  refine Run.stepWith_iff
    (fun c => StoreInvariant c ∧ EventsReferToStreams c.database)
    ⟨freshConnection_invariant, freshConnection_refers⟩ ?_ ?_
  · rintro c label c' ⟨hInv, hRefers⟩ hStep
    exact referentialStep_iff hInv hRefers hStep
  · rintro c label c' ⟨hInv, hRefers⟩ hStep hReferential
    exact ⟨hStep.invariant hInv, hReferential.refers⟩

theorem referentialIntegrity_one_event :
    Run (StepWith (SessionStep ⟨.streamsOuter, .rowid⟩)
        (ReferentialStep ⟨.streamsOuter, .rowid⟩)) freshConnection
      [.restart, .request ⟨.createStream "User", .ok .done, some 1⟩,
        .request ⟨.pushEvent 1 ⟨0, 1, "UserCreated", "{}", 1⟩, .ok .done, none⟩]
      { oneEventConnection with foreignKeys := false } := by
  refine (referentialIntegrity_iff _ initDb_none).mpr ?_
  have hRestart : StepWith (SessionStep ⟨.streamsOuter, .rowid⟩) NoOrphanPush
      freshConnection .restart { freshConnection with foreignKeys := false } :=
    ⟨.restart rfl, by simp [NoOrphanPush]⟩
  have hCreate : StepWith (SessionStep ⟨.streamsOuter, .rowid⟩) NoOrphanPush
      { freshConnection with foreignKeys := false }
      (.request ⟨.createStream "User", .ok .done, some 1⟩)
      { freshConnection with
        foreignKeys := false
        database := { freshConnection.database with streams := [⟨1, "User", 0⟩] } } :=
    ⟨.request ⟨rfl, rfl, rfl⟩, by simp [NoOrphanPush]⟩
  refine Run.tail (Run.tail (Run.single hRestart) hCreate) ⟨.request ⟨rfl, rfl, rfl⟩, ?_⟩
  rintro streamId event reply created hLabel - -
  simp only [SessionLabel.request.injEq, StoreEntry.mk.injEq,
    StoreRequest.pushEvent.injEq] at hLabel
  obtain ⟨⟨rfl, rfl⟩, -, -⟩ := hLabel
  exact ⟨⟨1, "User", 0⟩, by simp, rfl⟩

/-- A file with an event of a stream that does not exist, in a later session. -/
def orphanConnection : Connection where
  database := { freshConnection.database with
    events := [⟨1, 1, "UserCreated", "{}", 1⟩] }
  foreignKeys := false
  rollback := none

/-- The file is made and opened again, an event is pushed to stream 1, which does
not exist, and the push is acknowledged.  The stream that is created next gets
the id 1 and the event with it. -/
theorem orphan_adopted_after_restart :
    initDb none = .returned () freshConnection ∧
    Run (SessionStep ⟨.streamsOuter, .rowid⟩) freshConnection
      [.restart, .request ⟨.pushEvent 1 ⟨0, 1, "UserCreated", "{}", 1⟩, .ok .done, none⟩]
      orphanConnection ∧
    ¬EventsReferToStreams orphanConnection.database ∧
    ∃ c, SessionStep ⟨.streamsOuter, .rowid⟩ orphanConnection
        (.request ⟨.createStream "Other", .ok .done, some 1⟩) c ∧
      getEventsByStreamId ⟨.streamsOuter, .rowid⟩ 1 c =
        .returned [⟨1, 1, "UserCreated", "{}", 1⟩] c := by
  refine ⟨initDb_none, ?_, ?_, ?_⟩
  · have hRestart : SessionStep ⟨.streamsOuter, .rowid⟩ freshConnection .restart
        { freshConnection with foreignKeys := false } := .restart rfl
    exact Run.tail (Run.single hRestart) (.request ⟨rfl, rfl, rfl⟩)
  · intro hRefers
    obtain ⟨s, hMem, -⟩ := hRefers ⟨1, 1, "UserCreated", "{}", 1⟩ (by decide)
    simp [orphanConnection, freshConnection, Database.empty] at hMem
  · exact ⟨{ orphanConnection with database := { orphanConnection.database with
      streams := [⟨1, "Other", 0⟩] } }, .request ⟨rfl, rfl, rfl⟩, rfl⟩

end ActionHandler
end Yess
