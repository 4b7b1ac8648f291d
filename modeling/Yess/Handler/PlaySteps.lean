import Yess.Ext.SampleEngine
import Yess.Handler.PlayProjection
import Yess.Handler.StreamActions

namespace Yess
namespace ActionHandler

open Foundation ValueStack Db Ext Replay

/-!
# Plays on one handler

A play as a step of the handler.  `PlayEffect` lists what a step can do to the
context: nothing when the projection or the events could not be loaded, otherwise
what the play does on the heap, with the stack that `Implements` gives.
-/

/-! ## Loading -/

/-- A function that reads the database and at worst throws what SQLite reports. -/
def Reads {α : Type} (p : DbProg α) : Prop := ∀ c,
  (∃ a, p c = .returned a c) ∨ ∃ error, p c = .threw (.sqliteException error) c

theorem reads_pure {α : Type} (a : α) : Reads (pure a) := fun _ => Or.inl ⟨a, rfl⟩

theorem reads_get : Reads Prog.get := fun c => Or.inl ⟨c, rfl⟩

theorem reads_fail {α : Type} (error : DbError) : Reads (fail error : DbProg α) :=
  fun _ => Or.inr ⟨error, rfl⟩

theorem reads_requireTable (present : Schema → Bool) (table : String) :
    Reads (requireTable present table) := by
  intro c
  unfold requireTable
  by_cases h : present c.database.schema = true
  · rw [if_pos h]
    exact Or.inl ⟨(), rfl⟩
  · rw [if_neg h]
    exact Or.inr ⟨_, rfl⟩

theorem Reads.bind {α β : Type} {p : DbProg α} {k : α → DbProg β} (hFirst : Reads p)
    (hSecond : ∀ a, Reads (k a)) : Reads (p >>= k) := by
  intro c
  rcases hFirst c with ⟨a, hReturned⟩ | ⟨error, hThrew⟩
  · rw [Prog.bind_of_returned hReturned]
    exact hSecond a c
  · rw [Prog.bind_of_threw hThrew]
    exact Or.inr ⟨error, rfl⟩

/-- What is read leaves the database as it is. -/
theorem Reads.eq_of_returned {α : Type} {p : DbProg α} {c c' : Connection} {a : α}
    (hReads : Reads p) (hReturned : p c = .returned a c') : c' = c := by
  rcases hReads c with ⟨_, hRead⟩ | ⟨_, hRead⟩
  · exact (Outcome.returned.inj (hReturned.symm.trans hRead)).2
  · rw [hReturned] at hRead
    simp at hRead

theorem reads_queryEvents (plan : Plan) (condition : EventRow × StreamRow → Bool) :
    Reads (queryEvents plan condition) :=
  (reads_requireTable _ _).bind fun _ => (reads_requireTable _ _).bind fun _ =>
    reads_get.bind fun _ => reads_pure _

theorem reads_loadEvents (plan : Plan) (stream : StreamRef) :
    Reads (loadEvents plan stream) := by
  cases stream with
  | id streamId => exact (reads_queryEvents plan _).bind fun _ => reads_pure _
  | type type => exact (reads_queryEvents plan _).bind fun _ => reads_pure _

theorem reads_projection (id : Int32) : Reads (ProjectionRepo.id id) := by
  refine (reads_requireTable _ _).bind fun _ => reads_get.bind fun c => ?_
  cases c.database.projections.find? fun row => row.id = id.toInt with
  | none => exact reads_fail _
  | some row => exact reads_pure _

/-- The projection and the events of a play. -/
def load (plan : Plan) (request : PlayRequest) : DbProg (Projection × List Event) := do
  let proj ← ProjectionRepo.id request.projectionId
  let events ← loadEvents plan request.stream
  pure (proj, events)

theorem reads_load (plan : Plan) (request : PlayRequest) : Reads (load plan request) :=
  (reads_projection _).bind fun _ => (reads_loadEvents plan _).bind fun _ => reads_pure _

/-- Loading is reading the projection and reading the events. -/
theorem load_returned_iff {plan : Plan} {request : PlayRequest} {c : Connection}
    {proj : Projection} {events : List Event} :
    load plan request c = .returned (proj, events) c ↔
      ProjectionRepo.id request.projectionId c = .returned proj c ∧
        loadEvents plan request.stream c = .returned events c := by
  constructor
  · intro hLoad
    obtain ⟨proj', c', hProj, hRest⟩ := Prog.bind_eq_returned.mp hLoad
    obtain ⟨events', c'', hEvents, hPure⟩ := Prog.bind_eq_returned.mp hRest
    rw [Prog.pure_apply, Outcome.returned.injEq, Prod.mk.injEq] at hPure
    obtain ⟨⟨rfl, rfl⟩, rfl⟩ := hPure
    obtain rfl := (reads_projection request.projectionId).eq_of_returned hProj
    exact ⟨hProj, hEvents⟩
  · rintro ⟨hProj, hEvents⟩
    rw [load, Prog.bind_of_returned hProj, Prog.bind_of_returned hEvents, Prog.pure_apply]

/-- Whether events can be loaded depends on the tables only, and not on what is asked
for. -/
theorem loadEvents_alike (plan : Plan) (c : Connection) :
    (∀ stream, ∃ events, loadEvents plan stream c = .returned events c) ∨
      ∃ error, ∀ stream, loadEvents plan stream c = .threw (.sqliteException error) c := by
  have hQuery : (∀ condition, ∃ rows, queryEvents plan condition c = .returned rows c) ∨
      ∃ error, ∀ condition, queryEvents plan condition c =
        .threw (.sqliteException error) c := by
    rcases reads_requireTable (·.events) "events" c with ⟨⟨⟩, hEvents⟩ | ⟨error, hEvents⟩
    · rcases reads_requireTable (·.streams) "streams" c with ⟨⟨⟩, hStreams⟩ | ⟨error, hStreams⟩
      · left
        intro condition
        exact ⟨_, (Prog.bind_of_returned hEvents).trans (Prog.bind_of_returned hStreams)⟩
      · right
        refine ⟨error, fun condition => ?_⟩
        exact (Prog.bind_of_returned hEvents).trans (Prog.bind_of_threw hStreams)
    · right
      exact ⟨error, fun condition => Prog.bind_of_threw hEvents⟩
  rcases hQuery with hReturned | ⟨error, hThrew⟩
  · left
    rintro (streamId | type)
    · obtain ⟨rows, hRows⟩ := hReturned fun row => row.1.streamId = streamId.toInt
      exact ⟨_, Prog.bind_of_returned hRows⟩
    · obtain ⟨rows, hRows⟩ := hReturned fun row => row.2.type = type
      exact ⟨_, Prog.bind_of_returned hRows⟩
  · right
    refine ⟨error, ?_⟩
    rintro (streamId | type)
    · exact Prog.bind_of_threw (hThrew _)
    · exact Prog.bind_of_threw (hThrew _)

/-- Two requests for one projection load, or both fail to. -/
theorem load_alike (plan : Plan) (c : Connection) {request request' : PlayRequest}
    (hSame : request.projectionId = request'.projectionId) :
    (∃ proj events events', load plan request c = .returned (proj, events) c ∧
        load plan request' c = .returned (proj, events') c) ∨
      ∃ error, load plan request c = .threw (.sqliteException error) c ∧
        load plan request' c = .threw (.sqliteException error) c := by
  unfold load
  rw [← hSame]
  rcases reads_projection request.projectionId c with ⟨proj, hProj⟩ | ⟨error, hProj⟩
  · rw [Prog.bind_of_returned hProj, Prog.bind_of_returned hProj]
    rcases loadEvents_alike plan c with hReturned | ⟨error, hThrew⟩
    · left
      obtain ⟨events, hEvents⟩ := hReturned request.stream
      obtain ⟨events', hEvents'⟩ := hReturned request'.stream
      rw [Prog.bind_of_returned hEvents, Prog.bind_of_returned hEvents']
      exact ⟨proj, events, events', rfl, rfl⟩
    · right
      rw [Prog.bind_of_threw (hThrew request.stream), Prog.bind_of_threw (hThrew request'.stream)]
      exact ⟨error, rfl, rfl⟩
  · right
    rw [Prog.bind_of_threw hProj, Prog.bind_of_threw hProj]
    exact ⟨error, rfl, rfl⟩

/-- What a request loads is determined. -/
theorem load_unique {plan : Plan} {request : PlayRequest} {c : Connection}
    {proj proj' : Projection} {events events' : List Event}
    (hLoad : load plan request c = .returned (proj, events) c)
    (hLoad' : load plan request c = .returned (proj', events') c) :
    proj = proj' ∧ events = events' := by
  have hSame := hLoad.symm.trans hLoad'
  rw [Outcome.returned.injEq, Prod.mk.injEq] at hSame
  exact hSame.1

variable {J : JsonText} {E : Duktape} {plan : Plan} {request : PlayRequest}
  {h h' : Handler E}

/-- A play whose loading fails throws and leaves the handler as it is. -/
theorem playProjection_of_not_loaded {error : Exn}
    (hLoad : load plan request h.connection = .threw error h.connection) :
    playProjection J plan request h = .threw error h := by
  rw [load, Prog.bind_eq_threw] at hLoad
  rw [playProjection]
  rcases hLoad with hProj | ⟨proj, c, hProj, hRest⟩
  · exact Prog.bind_of_threw (onConnection_of_threw hProj)
  · obtain rfl := (reads_projection request.projectionId).eq_of_returned hProj
    rw [Prog.bind_of_returned (onConnection_of_returned hProj)]
    rcases Prog.bind_eq_threw.mp hRest with hEvents | ⟨events, _, -, hPure⟩
    · exact Prog.bind_of_threw (onConnection_of_threw hEvents)
    · simp at hPure

/-- A play that has loaded is a play on the context. -/
theorem playProjection_of_loaded {proj : Projection} {events : List Event}
    (hLoad : load plan request h.connection = .returned (proj, events) h.connection) :
    playProjection J plan request h =
      ((do
        DukContext.read proj.data
        DukContext.callProjection J request.fnName events request.init : DukProg E Json)
          h.context).mapState fun c => { h with context := c } := by
  obtain ⟨hProj, hEvents⟩ := load_returned_iff.mp hLoad
  rw [playProjection, Prog.bind_of_returned (onConnection_of_returned hProj),
    Prog.bind_of_returned (onConnection_of_returned hEvents), onContext_bind]
  rfl

/-- A play leaves the connection as it is. -/
theorem playProjection_connection
    (hState : (playProjection J plan request h).state = some h') :
    h'.connection = h.connection := by
  rcases reads_load plan request h.connection with ⟨⟨proj, events⟩, hLoad⟩ | ⟨error, hLoad⟩
  · rw [playProjection_of_loaded hLoad] at hState
    generalize (do
      DukContext.read proj.data
      DukContext.callProjection J request.fnName events request.init : DukProg E Json)
        h.context = outcome at hState
    cases outcome with
    | returned state c => rw [← Option.some.inj hState]
    | threw error c => rw [← Option.some.inj hState]
    | aborted => simp at hState
  · rw [playProjection_of_not_loaded hLoad] at hState
    rw [← Option.some.inj hState]

/-! ## Steps -/

/-- What happens on a handler: a play and its reply, or something that changes the
database and not the context. -/
inductive HandlerLabel where
  | play (request : PlayRequest) (reply : Except Exn Json)
  | store

inductive HandlerStep (J : JsonText) {E : Duktape} (plan : Plan) :
    Handler E → HandlerLabel → Handler E → Prop
  | play {h h' : Handler E} {request : PlayRequest} {reply : Except Exn Json}
      (hReply : (playProjection J plan request h).result = some reply)
      (hState : (playProjection J plan request h).state = some h') :
      HandlerStep J plan h (.play request reply) h'
  | store (h : Handler E) (c : Connection) :
      HandlerStep J plan h .store { h with connection := c }

/-- The stack has room for a play in what the API guarantees. -/
def HasRoom (h : Handler E) : Prop := h.context.stack.length + 4 < apiEntryStack

instance (h : Handler E) : Decidable (HasRoom h) :=
  inferInstanceAs (Decidable (h.context.stack.length + 4 < apiEntryStack))

theorem HasRoom.lt_reserve (hRoom : HasRoom h) : h.context.stack.length + 4 < E.reserve :=
  E.lt_reserve hRoom

theorem fresh_hasRoom (c : Connection) :
    HasRoom (⟨c, DukContext.fresh E⟩ : Handler E) := by
  simp [HasRoom, DukContext.fresh, apiEntryStack]

/-- What a play that comes back can have done. -/
inductive PlayEffect (J : JsonText) {E : Duktape} (plan : Plan) (h : Handler E)
    (request : PlayRequest) : Except Exn Json → Handler E → Prop
  | notLoaded (error : DbError)
      (hLoad : load plan request h.connection =
        .threw (.sqliteException error) h.connection) :
      PlayEffect J plan h request (.error (.sqliteException error)) h
  | returned (proj : Projection) (events : List Event) (state : Json) (heap : E.Heap)
      (hLoad : load plan request h.connection = .returned (proj, events) h.connection)
      (hPlay : playFrom J (slotZero h.context.stack) proj.data request.fnName events
        request.init h.context.heap = .returned state heap) :
      PlayEffect J plan h request (.ok state)
        { h with context := ⟨heap, stackAfter events.length h.context.stack⟩ }
  | threw (proj : Projection) (events : List Event) (error : Exn) (heap : E.Heap)
      (residue : List E.Val)
      (hLoad : load plan request h.connection = .returned (proj, events) h.connection)
      (hPlay : playFrom J (slotZero h.context.stack) proj.data request.fnName events
        request.init h.context.heap = .threw error heap)
      (hResidue : residue ≠ [])
      (hGlobal : ∀ heap₁, evalSource (cStr proj.data) h.context.heap = .returned () heap₁ →
        events.length ≤ 2 → ∃ above, residue = above ++ [E.globalObject]) :
      PlayEffect J plan h request (.error error)
        { h with context := ⟨heap, residue ++ h.context.stack⟩ }

/-- The inversion of a play. -/
theorem play_effect {reply : Except Exn Json}
    (hRoom : h.context.stack.length + 4 < E.reserve)
    (hStep : HandlerStep J plan h (.play request reply) h') :
    PlayEffect J plan h request reply h' := by
  cases hStep with
  | play hReply hState =>
      rcases reads_load plan request h.connection with
        ⟨⟨proj, events⟩, hLoad⟩ | ⟨error, hLoad⟩
      · have hPlay := playProjection_of_loaded (J := J) hLoad
        have hAgrees : Agrees h.context.stack id
            (fun _ => stackAfter events.length h.context.stack)
            ((do
              DukContext.read proj.data
              DukContext.callProjection J request.fnName events request.init :
                DukProg E Json) h.context)
            (playFrom J (slotZero h.context.stack) proj.data request.fnName events
              request.init h.context.heap) :=
          implements_play J h.context.stack proj.data request.fnName events request.init
            hRoom h.context.heap
        rw [hPlay] at hReply hState
        -- The play on the context and the play on the heap agree case by case.
        generalize hCode : (do
          DukContext.read proj.data
          DukContext.callProjection J request.fnName events request.init :
            DukProg E Json) h.context = outcome at hAgrees hReply hState
        generalize hHeap : playFrom J (slotZero h.context.stack) proj.data request.fnName
          events request.init h.context.heap = outcome' at hAgrees
        cases hAgrees with
        | returned state heap =>
            obtain rfl := Option.some.inj hReply
            obtain rfl := Option.some.inj hState
            exact .returned proj events state heap hLoad hHeap
        | threw error heap residue hResidue =>
            obtain rfl := Option.some.inj hReply
            obtain rfl := Option.some.inj hState
            refine .threw proj events error heap residue hLoad hHeap hResidue ?_
            intro heap₁ hSource hLength
            obtain ⟨above, hAbove⟩ := play_threw_of_le_two J hRoom hSource hLength hCode
            have hStack : residue ++ h.context.stack =
                (above ++ [E.globalObject]) ++ h.context.stack := by
              rw [hAbove, List.append_assoc]
              rfl
            exact ⟨above, List.append_cancel_right hStack⟩
        | aborted => simp at hReply
      · rw [playProjection_of_not_loaded hLoad] at hReply hState
        obtain rfl := Option.some.inj hReply
        obtain rfl := Option.some.inj hState
        exact .notLoaded error hLoad

/-- The result of a play that has loaded is its result on the heap. -/
theorem playProjection_result {proj : Projection} {events : List Event} (hRoom : HasRoom h)
    (hLoad : load plan request h.connection = .returned (proj, events) h.connection) :
    (playProjection J plan request h).result =
      (playFrom J (slotZero h.context.stack) proj.data request.fnName events request.init
        h.context.heap).result := by
  have hAgrees := implements_play J h.context.stack proj.data request.fnName events
    request.init hRoom.lt_reserve h.context.heap
  rw [playProjection_of_loaded hLoad, Outcome.result_mapState, ← hAgrees.result_eq]

/-- The converse: a play that has loaded and returns on the heap is a step. -/
theorem step_of_returned {proj : Projection} {events : List Event} {state : Json}
    {heap : E.Heap} (hRoom : HasRoom h)
    (hLoad : load plan request h.connection = .returned (proj, events) h.connection)
    (hPlay : playFrom J (slotZero h.context.stack) proj.data request.fnName events
      request.init h.context.heap = .returned state heap) :
    HandlerStep J plan h (.play request (.ok state))
      { h with context := ⟨heap, stackAfter events.length h.context.stack⟩ } := by
  have hAgrees := implements_play J h.context.stack proj.data request.fnName events
    request.init hRoom.lt_reserve h.context.heap
  rw [hPlay] at hAgrees
  have hCode := (playProjection_of_loaded (J := J) hLoad).trans
    (congrArg (Outcome.mapState _) hAgrees.eq_returned)
  exact .play (by rw [hCode]; rfl) (by rw [hCode]; rfl)

/-! ## A store for the examples -/

def samplePlan : Plan := ⟨.streamsOuter, .rowid⟩

/-- Two events in stream 1, one in stream 2, and a few projections. -/
def sampleSetup : DbProg Unit := do
  createStream "User"
  createStream "User"
  pushEvent 1 ⟨0, 1, "UserCreated", "{}", 1⟩
  pushEvent 1 ⟨0, 1, "UserRenamed", "{}", 2⟩
  pushEvent 2 ⟨0, 2, "UserCreated", "{}", 1⟩
  createProjection Sample.countSource
  createProjection Sample.zeroSource
  createProjection Sample.variableSource
  createProjection "no source"
  createProjection Sample.noReturnSource
  createProjection Sample.throwNullSource
  createProjection Sample.oneSource

def sampleConnection : Connection := { freshConnection with
  database := { freshConnection.database with
    streams := [⟨1, "User", 0⟩, ⟨2, "User", 0⟩]
    events := [⟨1, 1, "UserCreated", "{}", 1⟩, ⟨2, 1, "UserRenamed", "{}", 2⟩,
      ⟨3, 2, "UserCreated", "{}", 1⟩]
    projections := [⟨1, "", Sample.countSource⟩, ⟨2, "", Sample.zeroSource⟩,
      ⟨3, "", Sample.variableSource⟩, ⟨4, "", "no source"⟩, ⟨5, "", Sample.noReturnSource⟩,
      ⟨6, "", Sample.throwNullSource⟩, ⟨7, "", Sample.oneSource⟩] } }

example : sampleSetup freshConnection = .returned () sampleConnection := rfl

/-- A new handler on that store. -/
def sampleHandler : Handler Sample.engine := ⟨sampleConnection, DukContext.fresh Sample.engine⟩

theorem sampleHandler_hasRoom : HasRoom sampleHandler := by decide

/-- Two events for the counting projection. -/
def countRequest : PlayRequest := ⟨1, .integer 0, .id 1, "projection"⟩

theorem load_countRequest :
    load samplePlan countRequest sampleConnection =
      .returned (⟨1, "", Sample.countSource⟩,
        [⟨1, 1, "UserCreated", "{}", 1⟩, ⟨2, 1, "UserRenamed", "{}", 2⟩]) sampleConnection := rfl

/-- The handler after that play. -/
def countedHandler : Handler Sample.engine :=
  ⟨sampleConnection, ⟨[("projection", SampleVal.increment)], []⟩⟩

theorem countedHandler_hasRoom : HasRoom countedHandler := by decide

theorem countedHandler_step :
    HandlerStep Sample.jsonText samplePlan sampleHandler
      (.play countRequest (.ok (.integer 2))) countedHandler :=
  step_of_returned sampleHandler_hasRoom load_countRequest rfl

end ActionHandler
end Yess
