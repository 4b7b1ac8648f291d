import Yess.Ext.SampleEngine
import Yess.Foundation.Run
import Yess.Handler.PlayProjection

namespace Yess
namespace ActionHandler

open Foundation Db Ext

/-!
# Storing projections and reading them back

A run of creates and deletes, the list of the projections that are alive after it,
and what the readers return for them.  Each writer and each reader passes type and
data in an order of its own; `projectionsFaithful_iff` says for which projections
all of them together give back what was created.
-/

inductive ProjectionRequest where
  | createProjection (data : String)
  | createProjectionTyped (data type : String)
  | deleteProjection (id : Int32)
  deriving DecidableEq

/-- The call behind a request. -/
def serveProjection : ProjectionRequest → DbProg Unit
  | .createProjection data => createProjection data
  | .createProjectionTyped data type => createProjectionTyped data type
  | .deleteProjection id => deleteProjection id

/-- A projection as it was created: by the one-argument form when it has no
type. -/
structure CreatedProjection where
  id : Int
  data : String
  givenType : Option String

/-- The type created with, empty for the one-argument form. -/
def CreatedProjection.type (p : CreatedProjection) : String := p.givenType.getD ""

/-- The row that the create made. -/
def CreatedProjection.row (p : CreatedProjection) : ProjectionRow :=
  match p.givenType with
  | none => { id := p.id, type := p.data, data := "" }
  | some type => { id := p.id, type := type, data := p.data }

/-- The projections that are alive after a request. -/
def nextLive (live : List CreatedProjection) : ProjectionRequest → List CreatedProjection
  | .createProjection data =>
      live ++ [⟨Sql.nextRowid (live.map CreatedProjection.id), data, none⟩]
  | .createProjectionTyped data type =>
      live ++ [⟨Sql.nextRowid (live.map CreatedProjection.id), data, some type⟩]
  | .deleteProjection id => live.filter fun p => p.id ≠ id.toInt

/-- The projections created and not deleted by a list of requests. -/
def liveProjections (requests : List ProjectionRequest) : List CreatedProjection :=
  requests.foldl nextLive []

/-- One request is served. -/
def ProjectionStep (c : Connection) (request : ProjectionRequest) (c' : Connection) :
    Prop :=
  serveProjection request c = .returned () c'

/-! ## The rows are those of the live projections -/

/-- What holds of the table after a list of requests. -/
structure ProjectionInvariant (live : List CreatedProjection) (c : Connection) : Prop where
  ready : c.Ready
  rows : c.database.projections = live.map CreatedProjection.row
  ids : live.Pairwise fun p q => p.id < q.id

@[simp] theorem CreatedProjection.row_id (p : CreatedProjection) : p.row.id = p.id := by
  unfold row
  cases p.givenType <;> rfl

theorem map_row_id (live : List CreatedProjection) :
    (live.map CreatedProjection.row).map ProjectionRow.id =
      live.map CreatedProjection.id := by
  simp [Function.comp_def]

theorem ProjectionStep.invariant {live : List CreatedProjection} {c c' : Connection}
    {request : ProjectionRequest} (hStep : ProjectionStep c request c')
    (hInv : ProjectionInvariant live c) :
    ProjectionInvariant (nextLive live request) c' := by
  unfold ProjectionStep at hStep
  cases request with
  | createProjection data =>
      rw [serveProjection, createProjection, ProjectionRepo.create_apply _ hInv.ready,
        Outcome.returned.injEq] at hStep
      obtain ⟨-, rfl⟩ := hStep
      refine ⟨⟨hInv.ready.schema, hInv.ready.idle⟩, ?_,
        Sql.pairwise_append_nextRowid hInv.ids rfl⟩
      simp only [hInv.rows, map_row_id]
      simp [nextLive, CreatedProjection.row, Projection.new]
  | createProjectionTyped data type =>
      rw [serveProjection, createProjectionTyped, ProjectionRepo.create_apply _ hInv.ready,
        Outcome.returned.injEq] at hStep
      obtain ⟨-, rfl⟩ := hStep
      refine ⟨⟨hInv.ready.schema, hInv.ready.idle⟩, ?_,
        Sql.pairwise_append_nextRowid hInv.ids rfl⟩
      simp only [hInv.rows, map_row_id]
      simp [nextLive, CreatedProjection.row, Projection.new]
  | deleteProjection id =>
      rw [serveProjection, deleteProjection, ProjectionRepo.remove_apply _ hInv.ready,
        Outcome.returned.injEq] at hStep
      obtain ⟨-, rfl⟩ := hStep
      refine ⟨⟨hInv.ready.schema, hInv.ready.idle⟩, ?_, hInv.ids.filter _⟩
      simp only [hInv.rows, nextLive, List.filter_map, Function.comp_def,
        CreatedProjection.row_id]

theorem projections_invariant {c₀ c : Connection} {requests : List ProjectionRequest}
    (hInit : initDb none = .returned () c₀)
    (hRun : Run ProjectionStep c₀ requests c) :
    ProjectionInvariant (liveProjections requests) c := by
  obtain rfl := eq_of_initDb_none hInit
  refine hRun.invariant (fun requests c => ProjectionInvariant (liveProjections requests) c)
    ⟨⟨rfl, rfl⟩, rfl, List.Pairwise.nil⟩ ?_
  intro requests c request c' hInv hStep
  rw [liveProjections, List.foldl_append]
  exact hStep.invariant hInv

/-! ## What the readers return -/

/-- All readers return the projection, under the id `i`, with its data and type,
and a play of it evaluates its data. -/
structure ReadsBack (c : Connection) (p : CreatedProjection) (i : Int32) : Prop where
  all : ∃ entries, getAllProjections c = .returned entries c ∧
    ⟨i, p.type, p.data⟩ ∈ entries
  id : ProjectionRepo.id i c = .returned ⟨i, p.type, p.data⟩ c
  type : ∃ entries, getProjectionsByType p.type c = .returned entries c ∧
    ⟨i, p.type, p.data⟩ ∈ entries
  play : ∀ (J : JsonText) (E : Duktape) (plan : Plan) (h : Handler E) (init : Json)
    (stream : StreamRef) (fnName : String), h.connection = c →
      playProjection J plan ⟨i, init, stream, fnName⟩ h =
        (do
          let events ← onConnection (loadEvents plan stream)
          onContext (DukContext.evaluate p.data)
          onContext (DukContext.callProjection J fnName events init)) h

/-- Every live projection is read back under its id, and a query by type returns
the entries of `all` that have the type. -/
structure ProjectionsFaithful (c : Connection) (live : List CreatedProjection) : Prop where
  readsBack : ∀ p ∈ live, ∃ i : Int32, i.toInt = p.id ∧ ReadsBack c p i
  byType : ∀ t, ∃ entries, getAllProjections c = .returned entries c ∧
    getProjectionsByType t c = .returned (entries.filter fun q => q.type = t) c

/-- The data is also the type, ends at its first NUL, and the id is an `int`. -/
structure SameEitherWay (p : CreatedProjection) : Prop where
  type : p.data = p.type
  terminated : cStr p.data = p.data
  int : ∃ i : Int32, i.toInt = p.id

variable {live : List CreatedProjection} {c : Connection} {p : CreatedProjection}

/-- Data and type are the same on both sides of every swap. -/
theorem CreatedProjection.row_of_type (hType : p.data = p.type) :
    p.row = { id := p.id, data := p.data, type := p.data } := by
  obtain ⟨id, data, givenType⟩ := p
  cases givenType with
  | none =>
      change data = "" at hType
      subst hType
      rfl
  | some type =>
      change data = type at hType
      subst hType
      rfl

theorem mem_rows (hInv : ProjectionInvariant live c) (hLive : p ∈ live) :
    p.row ∈ c.database.projections := by
  rw [hInv.rows]
  exact List.mem_map_of_mem hLive

/-- The row of a live projection is found by its id. -/
theorem find_row (hInv : ProjectionInvariant live c) (hLive : p ∈ live) {i : Int32}
    (hId : i.toInt = p.id) :
    (c.database.projections.find? fun row => row.id = i.toInt) = some p.row := by
  have hRow := Sql.filter_key_of_mem hInv.ids hLive
  rw [hInv.rows, List.find?_map]
  simp only [Function.comp_def, CreatedProjection.row_id, hId]
  rw [← List.head?_filter, hRow]
  rfl

theorem id_of_live (hInv : ProjectionInvariant live c) (hLive : p ∈ live) {i : Int32}
    (hId : i.toInt = p.id) :
    ProjectionRepo.id i c = .returned (Projection.new i p.row.type p.row.data) c := by
  rw [ProjectionRepo.id_apply i hInv.ready, find_row hInv hLive hId]

/-- What a play of a live projection evaluates. -/
theorem playProjection_of_live (hInv : ProjectionInvariant live c) (hLive : p ∈ live)
    {i : Int32} (hId : i.toInt = p.id) (J : JsonText) {E : Duktape} (plan : Plan)
    {h : Handler E} (init : Json) (stream : StreamRef) (fnName : String)
    (hConnection : h.connection = c) :
    playProjection J plan ⟨i, init, stream, fnName⟩ h =
      (do
        let events ← onConnection (loadEvents plan stream)
        onContext (DukContext.evaluate (cStr p.row.type))
        onContext (DukContext.callProjection J fnName events init)) h := by
  subst hConnection
  rw [playProjection, Prog.bind_of_returned
    (onConnection_of_returned (id_of_live hInv hLive hId))]
  rfl

/-- An engine in which a source, evaluated, throws itself. -/
def echoEngine : Duktape where
  Heap := Unit
  Val := String
  reserve := apiEntryStack
  entryStack_le_reserve := Nat.le_refl _
  defaultHeap := ()
  undefined := ""
  globalObject := ""
  string := fun s => s
  int := fun _ => ""
  newObject := fun heap => ("", heap)
  eval := fun heap source => (.error source, heap)
  getProp := fun heap v _ => some ((true, v), heap)
  putProp := fun heap _ _ _ => some ((), heap)
  jsonDecode := fun heap v => some (v, heap)
  jsonEncode := fun heap v => some (some v, heap)
  call := fun heap _ _ => (.error "", heap)
  safeToString := fun heap v => (v, heap)
  globalObject_not_callable := fun heap _ => ⟨"", heap, rfl⟩

theorem evaluate_echo (c : Connection) (source : String)
    (k : Unit → HandlerProg echoEngine Json) :
    ((onContext (DukContext.evaluate source) >>= k)
      (⟨c, DukContext.fresh echoEngine⟩ : Handler echoEngine)).result =
        some (.error (.runtimeError source)) := rfl

/-- Two sources that every engine evaluates alike are equal. -/
theorem eq_of_evaluate {source source' : String} {c : Connection} {events : List Event}
    {fnName : String} {init : Json} {plan : Plan} {stream : StreamRef}
    (hEvents : loadEvents plan stream c = .returned events c)
    (hSame : (do
        let events ← onConnection (loadEvents plan stream)
        onContext (DukContext.evaluate source)
        onContext (DukContext.callProjection Sample.jsonText fnName events init) :
          HandlerProg echoEngine Json) ⟨c, DukContext.fresh echoEngine⟩ =
      (do
        let events ← onConnection (loadEvents plan stream)
        onContext (DukContext.evaluate source')
        onContext (DukContext.callProjection Sample.jsonText fnName events init) :
          HandlerProg echoEngine Json) ⟨c, DukContext.fresh echoEngine⟩) :
    source = source' := by
  have hLoaded : onConnection (loadEvents plan stream)
      (⟨c, DukContext.fresh echoEngine⟩ : Handler echoEngine) =
        .returned events ⟨c, DukContext.fresh echoEngine⟩ :=
    onConnection_of_returned hEvents
  rw [Prog.bind_of_returned hLoaded, Prog.bind_of_returned hLoaded] at hSame
  have hResult := congrArg Outcome.result hSame
  rw [evaluate_echo, evaluate_echo] at hResult
  simpa using hResult

/-- A projection that is the same either way is read back on every path. -/
theorem readsBack_of_sameEitherWay (hInv : ProjectionInvariant live c) (hLive : p ∈ live)
    (hSame : SameEitherWay p) {i : Int32} (hId : i.toInt = p.id) : ReadsBack c p i := by
  have hRow := CreatedProjection.row_of_type hSame.type
  have hGetInt : getInt p.id = i := by rw [← hId, getInt, Int32.ofInt_toInt]
  refine ⟨⟨_, ProjectionRepo.all_apply hInv.ready, ?_⟩, ?_,
    ⟨_, ProjectionRepo.type_apply _ hInv.ready, ?_⟩, ?_⟩
  · refine List.mem_map.mpr ⟨p.row, mem_rows hInv hLive, ?_⟩
    rw [hRow, ← hSame.type, ← hGetInt]
    rfl
  · rw [id_of_live hInv hLive hId, hRow, ← hSame.type]
    rfl
  · refine List.mem_map.mpr ⟨p.row, List.mem_filter.mpr ⟨mem_rows hInv hLive, ?_⟩, ?_⟩
    · rw [hRow, ← hSame.type]
      simp
    · rw [hRow, ← hSame.type, ← hGetInt]
      rfl
  · intro J E plan h init stream fnName hConnection
    rw [playProjection_of_live hInv hLive hId J plan init stream fnName hConnection, hRow,
      hSame.terminated]

/-- A one-argument projection that a query for the empty type returns has no data:
the row has the data in the column of the type. -/
theorem data_of_type_query (hInv : ProjectionInvariant live c)
    (hInts : ∀ q ∈ live, ∃ i : Int32, i.toInt = q.id) (hLive : p ∈ live)
    (hOneArg : p.givenType = none) {i : Int32} (hId : i.toInt = p.id)
    {entries : List Projection}
    (hEntries : getProjectionsByType p.type c = .returned entries c)
    (hMem : ⟨i, p.type, p.data⟩ ∈ entries) : p.data = p.type := by
  rw [getProjectionsByType, ProjectionRepo.type_apply _ hInv.ready,
    Outcome.returned.injEq] at hEntries
  obtain ⟨rfl, -⟩ := hEntries
  obtain ⟨row, hRow, hEntry⟩ := List.mem_map.mp hMem
  obtain ⟨hRow, hType⟩ := List.mem_filter.mp hRow
  rw [hInv.rows] at hRow
  obtain ⟨q, hQ, rfl⟩ := List.mem_map.mp hRow
  obtain ⟨j, hJ⟩ := hInts q hQ
  -- All ids are ints, so that the entry has the id of one row only.
  have hIdQ : q.id = p.id := by
    simp only [Projection.new, Projection.mk.injEq, CreatedProjection.row_id] at hEntry
    rw [← hJ, getInt, Int32.ofInt_toInt] at hEntry
    rw [← hJ, hEntry.1, hId]
  have hFind := find_row hInv hQ (hId.trans hIdQ.symm)
  rw [find_row hInv hLive hId, Option.some.injEq] at hFind
  rw [← hFind] at hType
  have hRowType : p.row.type = p.data := by
    unfold CreatedProjection.row
    rw [hOneArg]
  simpa [hRowType] using hType

/-- What is read back on every path is the same either way. -/
theorem sameEitherWay_of_readsBack (hInv : ProjectionInvariant live c)
    (hInts : ∀ q ∈ live, ∃ i : Int32, i.toInt = q.id) (hLive : p ∈ live) {i : Int32}
    (hId : i.toInt = p.id) (hReads : ReadsBack c p i) : SameEitherWay p := by
  have hRead := hReads.id
  rw [id_of_live hInv hLive hId, Outcome.returned.injEq] at hRead
  have hType : p.data = p.type := by
    cases hGiven : p.givenType with
    | none =>
        obtain ⟨entries, hEntries, hMem⟩ := hReads.type
        exact data_of_type_query hInv hInts hLive hGiven hId hEntries hMem
    | some type =>
        simp only [Projection.new, CreatedProjection.row, hGiven, Projection.mk.injEq] at hRead
        exact hRead.1.2.1
  refine ⟨hType, ?_, ⟨i, hId⟩⟩
  obtain ⟨events, hEvents⟩ := loadEvents_returned ⟨.streamsOuter, .rowid⟩ (.id 1) hInv.ready
  have hPlay := hReads.play Sample.jsonText echoEngine ⟨.streamsOuter, .rowid⟩
    ⟨c, DukContext.fresh echoEngine⟩ .null (.id 1) "projection" rfl
  rw [playProjection_of_live hInv hLive hId _ _ _ _ _ rfl] at hPlay
  have hSource := eq_of_evaluate hEvents hPlay
  rwa [CreatedProjection.row_of_type hType] at hSource

/-- A query by type is the part of `all` that has the type, where the rows have
data and type alike. -/
theorem byType_of_sameEitherWay (hInv : ProjectionInvariant live c)
    (hSame : ∀ p ∈ live, SameEitherWay p) (t : String) :
    ∃ entries, getAllProjections c = .returned entries c ∧
      getProjectionsByType t c = .returned (entries.filter fun q => q.type = t) c := by
  refine ⟨_, ProjectionRepo.all_apply hInv.ready, ?_⟩
  rw [getProjectionsByType, ProjectionRepo.type_apply _ hInv.ready, List.filter_map]
  have hAlike : ∀ row ∈ c.database.projections, row.data = row.type := by
    intro row hRow
    rw [hInv.rows] at hRow
    obtain ⟨p, hLive, rfl⟩ := List.mem_map.mp hRow
    rw [CreatedProjection.row_of_type (hSame p hLive).type]
  have hFilter : c.database.projections.filter (fun row => row.type = t) =
      c.database.projections.filter (fun row => row.data = t) :=
    List.filter_congr fun row hRow => by rw [hAlike row hRow]
  rw [hFilter, Outcome.returned.injEq]
  refine ⟨List.map_congr_left fun row hRow => ?_, rfl⟩
  rw [hAlike row (List.mem_of_mem_filter hRow)]

/-- After every run of creates and deletes on a fresh database, the live
projections are read back on every path exactly when each of them has its data as
its type, no NUL in it, and an id that is an `int`. -/
theorem projectionsFaithful_iff {c₀ c : Connection} {requests : List ProjectionRequest}
    (hInit : initDb none = .returned () c₀) (hRun : Run ProjectionStep c₀ requests c) :
    ProjectionsFaithful c (liveProjections requests) ↔
      ∀ p ∈ liveProjections requests, SameEitherWay p := by
  have hInv := projections_invariant hInit hRun
  constructor
  · intro hFaithful p hLive
    have hInts : ∀ q ∈ liveProjections requests, ∃ i : Int32, i.toInt = q.id := by
      intro q hQ
      obtain ⟨i, hId, -⟩ := hFaithful.readsBack q hQ
      exact ⟨i, hId⟩
    obtain ⟨i, hId, hReads⟩ := hFaithful.readsBack p hLive
    exact sameEitherWay_of_readsBack hInv hInts hLive hId hReads
  · intro hSame
    refine ⟨fun p hLive => ?_, byType_of_sameEitherWay hInv hSame⟩
    obtain ⟨i, hId⟩ := (hSame p hLive).int
    exact ⟨i, hId, readsBack_of_sameEitherWay hInv hLive (hSame p hLive) hId⟩

theorem projectionsFaithful_same_text :
    ProjectionsFaithful
      { freshConnection with database := { freshConnection.database with
        projections := [{ id := 1, data := "0", type := "0" }] } }
      (liveProjections [.createProjectionTyped "0" "0"]) := by
  have hRun : Run ProjectionStep freshConnection [.createProjectionTyped "0" "0"]
      { freshConnection with database := { freshConnection.database with
        projections := [{ id := 1, data := "0", type := "0" }] } } := .single rfl
  refine (projectionsFaithful_iff initDb_none hRun).mpr ?_
  intro p hLive
  obtain rfl : p = ⟨1, "0", some "0"⟩ := by
    change p ∈ [CreatedProjection.mk 1 "0" (some "0")] at hLive
    simpa using hLive
  exact ⟨rfl, rfl, ⟨1, rfl⟩⟩

/-- A projection created with a type comes back from `all` and `id` with the two
exchanged, and its play evaluates the type. -/
theorem createProjectionTyped_swapped :
    ∃ c, Run ProjectionStep freshConnection
        [.createProjectionTyped Sample.countSource "User"] c ∧
      getAllProjections c = .returned [⟨1, Sample.countSource, "User"⟩] c ∧
      ProjectionRepo.id 1 c = .returned ⟨1, Sample.countSource, "User"⟩ c ∧
      getProjectionsByType "User" c = .returned [⟨1, "User", Sample.countSource⟩] c ∧
      ¬ProjectionsFaithful c
        (liveProjections [.createProjectionTyped Sample.countSource "User"]) := by
  have hRun : Run ProjectionStep freshConnection
      [.createProjectionTyped Sample.countSource "User"]
      { freshConnection with database := { freshConnection.database with
        projections := [{ id := 1, data := Sample.countSource, type := "User" }] } } :=
    .single rfl
  refine ⟨_, hRun, rfl, rfl, rfl, fun hFaithful => ?_⟩
  obtain ⟨i, hId, hReads⟩ := hFaithful.readsBack ⟨1, Sample.countSource, some "User"⟩
    (List.mem_singleton.mpr rfl)
  obtain rfl : i = 1 := Int32.toInt_inj.mp hId
  have hEntry := hReads.id
  revert hEntry
  decide

end ActionHandler
end Yess
