import Yess.Foundation.Cursor
import Yess.Handler.ReferentialIntegrity
import Yess.Handler.TypeMerge

namespace Yess
namespace ActionHandler

open Foundation Db Cursor

/-!
# Reading the events of a type while others write

`getEvents(type)` calls `executeStep` once for each row, on the connection that all
requests share and without a transaction, so that pushes and creates of other clients
come between its rows.  Each call goes on from the row before, over the tables as they
are by then.

With the events outside and visited by their ids, a new event lies ahead of the scan,
and the list is a snapshot, unless a stream is created under the id of an event that
the scan has passed.  In every other order the scan goes from stream to stream and
misses what is pushed to a stream that it has left.
-/

/-- The key by which a plan visits the rows of the join: the stream, where the plan goes
from stream to stream, and then the place of the event. -/
def readKey (plan : Plan) (row : EventRow) : Int ×ₗ Int :=
  match plan.join, plan.events with
  | .eventsOuter, .rowid => toLex (0, row.id)
  | .eventsOuter, .index => row.indexKey
  | .streamsOuter, .rowid => toLex (row.streamId, row.id)
  | .streamsOuter, .index => row.indexKey

/-- The stream in a key. -/
def readGroup (key : Int ×ₗ Int) : Int := (ofLex key).1

/-- Does the plan visit the events by their ids, whatever their streams? -/
def byEventId (plan : Plan) : Prop := plan = ⟨.eventsOuter, .rowid⟩

/-- A push or a create of another client. -/
def WriterStep (c : Connection) (entry : StoreEntry) (c' : Connection) : Prop :=
  ((∃ type, entry.request = .createStream type) ∨
    ∃ streamId event, entry.request = .pushEvent streamId event) ∧
      ∃ plan, StoreStep plan c entry c'

abbrev TypeReading : Type := Reading Connection (Int ×ₗ Int) EventRow

/-- One `executeStep` of `getEvents(type)`, or a step of another client in between. -/
abbrev TypeReadStep (plan : Plan) (streamType : String) :
    TypeReading → ReadLabel StoreEntry → TypeReading → Prop :=
  ReadStep WriterStep (fun c => rowsOfType plan c.database streamType) (readKey plan)

/-- A whole `getEvents(type)` that starts on the connection `c`. -/
def ReadsType (plan : Plan) (streamType : String) (c : Connection)
    (labels : List (ReadLabel StoreEntry)) (final : TypeReading) : Prop :=
  Run (TypeReadStep plan streamType) (.start c) labels final ∧ final.finished = true

/-- The events of the streams of a type. -/
def eventsOfType (db : Database) (streamType : String) : List EventRow :=
  db.events.filter (belongsToType db streamType)

/-- The list holds the events of the type that were stored at some instant of the
reading. -/
def IsSnapshot (plan : Plan) (streamType : String) (c : Connection)
    (labels : List (ReadLabel StoreEntry)) (final : TypeReading) : Prop :=
  ∃ n r, At (TypeReadStep plan streamType) (.start c) labels final n r ∧
    final.found.Perm (eventsOfType r.store.database streamType)

/-- No stored event comes to have a stream. -/
def AdoptsNone (c c' : Connection) : Prop :=
  ∀ row ∈ c.database.events, (∃ s ∈ c'.database.streams, s.id = row.streamId) →
    ∃ s ∈ c.database.streams, s.id = row.streamId

/-! ## The rows in the order of the plan -/

variable {db : Database} {streamType : String} {plan : Plan}

theorem mem_rowsOfType (hStreams : db.streams.Pairwise fun a b => a.id < b.id)
    {row : EventRow} :
    row ∈ rowsOfType plan db streamType ↔
      row ∈ db.events ∧ belongsToType db streamType row = true := by
  rw [(rowsOfType_perm plan hStreams streamType).mem_iff, List.mem_filter]

theorem belongsToType_iff {row : EventRow} :
    belongsToType db streamType row = true ↔
      ∃ s ∈ db.streams, s.id = row.streamId ∧ s.type = streamType := by
  simp [belongsToType]

/-- An event is told from the others by its key in the index. -/
theorem indexKey_inj {events : List EventRow} (hNumbered : EventsNumbered events)
    {a b : EventRow} (hA : a ∈ events) (hB : b ∈ events) (hKey : a.indexKey = b.indexKey) :
    a = b := by
  obtain ⟨hStream, hVersion⟩ := Prod.mk.inj (toLex_inj.mp hKey)
  have hDistinct : ((eventsOf b.streamId events).map EventRow.version).Nodup := by
    rw [hNumbered.versions]
    exact (VersionedLog.pairwise_upTo _).imp fun h => h.ne
  exact List.inj_on_of_nodup_map hDistinct (mem_eventsOf.mpr ⟨hA, hStream⟩)
    (mem_eventsOf.mpr ⟨hB, rfl⟩) hVersion

/-- A later event of the table, and of its stream, has the larger key. -/
theorem readKey_lt {a b : EventRow} (hId : a.id < b.id)
    (hStream : ¬byEventId plan → a.streamId = b.streamId ∧ a.version < b.version) :
    readKey plan a < readKey plan b := by
  obtain ⟨join, order⟩ := plan
  by_cases hStreams : byEventId ⟨join, order⟩
  · obtain ⟨rfl, rfl⟩ := Plan.mk.inj hStreams
    exact Prod.Lex.toLex_lt_toLex.mpr (Or.inr ⟨rfl, hId⟩)
  · obtain ⟨hSame, hVersion⟩ := hStream hStreams
    cases join with
    | streamsOuter =>
        cases order with
        | rowid => exact Prod.Lex.toLex_lt_toLex.mpr (Or.inr ⟨hSame, hId⟩)
        | index => exact Prod.Lex.toLex_lt_toLex.mpr (Or.inr ⟨hSame, hVersion⟩)
    | eventsOuter =>
        cases order with
        | rowid => exact absurd rfl hStreams
        | index => exact Prod.Lex.toLex_lt_toLex.mpr (Or.inr ⟨hSame, hVersion⟩)

/-- The events of one stream lie in the order of their keys. -/
theorem eventsOf_sorted {events : List EventRow} (hNumbered : EventsNumbered events)
    (streamId : Int) :
    (eventsOf streamId events).Pairwise fun a b => readKey plan a < readKey plan b := by
  have hVersions : (eventsOf streamId events).Pairwise fun a b => a.version < b.version := by
    rw [← List.pairwise_map, hNumbered.versions]
    exact VersionedLog.pairwise_upTo _
  have hIds : (eventsOf streamId events).Pairwise fun a b => a.id < b.id :=
    hNumbered.ids.filter _
  refine (hIds.and hVersions).imp_of_mem ?_
  rintro a b hA hB ⟨hId, hVersion⟩
  have hSame : a.streamId = b.streamId :=
    (mem_eventsOf.mp hA).2.trans (mem_eventsOf.mp hB).2.symm
  exact readKey_lt hId fun _ => ⟨hSame, hVersion⟩

/-- With the streams outside, the rows are those of one stream after the other. -/
theorem rowsOfType_streamsOuter (hNumbered : EventsNumbered db.events)
    (order : Sql.ScanOrder) :
    rowsOfType ⟨.streamsOuter, order⟩ db streamType =
      (db.streams.filter fun s => s.type = streamType).flatMap
        fun s => eventsOf s.id db.events := by
  have hOuter := Sql.filter_nestedLoop_outer
    (fun (s : StreamRow) (e : EventRow) => s.id == e.streamId)
    (fun s => s.type = streamType) db.streams (Sql.scan order EventRow.indexKey db.events)
  unfold rowsOfType joinEventsStreams
  simp only [List.filter_map, List.map_map, Function.comp_def, Prod.snd_swap, Prod.fst_swap,
    hOuter]
  simp only [Sql.nestedLoop, List.map_flatMap, List.map_map, Function.comp_def, List.map_id']
  apply List.flatMap_congr
  intro s _
  rw [← filter_scan_eventsOf hNumbered order s.id]
  apply List.filter_congr
  intro e _
  rw [beq_eq_decide, decide_eq_decide]
  exact eq_comm

/-- Every plan lists the rows by its keys. -/
theorem rowsOfType_sorted (plan : Plan)
    (hStreams : db.streams.Pairwise fun a b => a.id < b.id)
    (hNumbered : EventsNumbered db.events) (streamType : String) :
    (rowsOfType plan db streamType).Pairwise
      fun a b => readKey plan a < readKey plan b := by
  obtain ⟨join, order⟩ := plan
  cases join with
  | streamsOuter =>
      rw [rowsOfType_streamsOuter hNumbered, List.pairwise_flatMap]
      refine ⟨fun s _ => eventsOf_sorted hNumbered s.id, ?_⟩
      refine (hStreams.filter _).imp ?_
      intro s s' hLt a hA b hB
      have hStream : a.streamId < b.streamId := by
        rw [(mem_eventsOf.mp hA).2, (mem_eventsOf.mp hB).2]
        exact hLt
      cases order <;> exact Prod.Lex.toLex_lt_toLex.mpr (Or.inl hStream)
  | eventsOuter =>
      rw [rowsOfType_eventsOuter hStreams]
      apply List.Pairwise.filter
      cases order with
      | rowid =>
          refine hNumbered.ids.imp ?_
          intro a b hLt
          exact Prod.Lex.toLex_lt_toLex.mpr (Or.inr ⟨rfl, hLt⟩)
      | index =>
          have hTrans : IsTrans EventRow fun a b => a.indexKey ≤ b.indexKey :=
            ⟨fun _ _ _ h h' => h.trans h'⟩
          have hTotal : Std.Total fun a b : EventRow => a.indexKey ≤ b.indexKey :=
            ⟨fun a b => le_total a.indexKey b.indexKey⟩
          have hPerm := Sql.scan_perm .index EventRow.indexKey db.events
          have hLe : (Sql.scan .index EventRow.indexKey db.events).Pairwise
              fun a b => a.indexKey ≤ b.indexKey := List.pairwise_insertionSort _ _
          have hNodup : (Sql.scan .index EventRow.indexKey db.events).Nodup :=
            hPerm.nodup_iff.mpr (hNumbered.ids.imp fun h => by
              rintro rfl
              omega)
          refine (hLe.and hNodup).imp_of_mem ?_
          rintro a b hA hB ⟨hLe, hNe⟩
          exact lt_of_le_of_ne hLe fun hKey =>
            hNe (indexKey_inj hNumbered (hPerm.mem_iff.mp hA) (hPerm.mem_iff.mp hB) hKey)

/-! ## The tables during a read -/

variable {c c' : Connection} {entry : StoreEntry}

/-- What a push or a create does to the tables. -/
inductive WriterEffect (c : Connection) : Connection → Prop
  | created (type : String) :
      WriterEffect c { c with database := { c.database with
        streams := c.database.streams ++
          [⟨Sql.nextRowid (c.database.streams.map StreamRow.id), type, 0⟩] } }
  | pushed (event : Event) (hAccepted : insertError c (newEventRow c.database event) = none) :
      WriterEffect c { c with database := { c.database with
        events := c.database.events ++ [newEventRow c.database event] } }
  | refused : WriterEffect c c

theorem writerStep_effect (hReady : c.Ready) (hStep : WriterStep c entry c') :
    WriterEffect c c' := by
  obtain ⟨hWrites, _, hStore⟩ := hStep
  cases storeStep_effect hReady hStore with
  | created type => exact .created type
  | deleted id => simp at hWrites
  | pushed streamId event hAccepted => exact .pushed event hAccepted
  | refused streamId event error hRefused => exact .refused
  | read request reply hRead => exact .refused

theorem WriterStep.invariant (hStep : WriterStep c entry c') (hInv : StoreInvariant c) :
    StoreInvariant c' := by
  obtain ⟨-, _, hStore⟩ := hStep
  exact (storeStep_effect hInv.ready hStore).invariant hInv

/-- Rows stay where they are. -/
theorem WriterEffect.prefix_events (hEffect : WriterEffect c c') :
    c.database.events <+: c'.database.events := by
  cases hEffect with
  | created type => exact List.prefix_rfl
  | pushed event hAccepted => exact List.prefix_append _ _
  | refused => exact List.prefix_rfl

theorem WriterEffect.prefix_streams (hEffect : WriterEffect c c') :
    c.database.streams <+: c'.database.streams := by
  cases hEffect with
  | created type => exact List.prefix_append _ _
  | pushed event hAccepted => exact List.prefix_rfl
  | refused => exact List.prefix_rfl

theorem readGroup_of_streams {row : EventRow} (hStreams : ¬byEventId plan) :
    readGroup (readKey plan row) = row.streamId := by
  obtain ⟨join, order⟩ := plan
  cases join with
  | streamsOuter => cases order <;> rfl
  | eventsOuter =>
      cases order with
      | rowid => exact absurd rfl hStreams
      | index => rfl

/-- A new event has a larger version than the events of its stream. -/
theorem version_lt_of_accepted {event : Event} {old : EventRow} (hInv : StoreInvariant c)
    (hAccepted : insertError c (newEventRow c.database event) = none)
    (hOld : old ∈ c.database.events)
    (hStream : old.streamId = (newEventRow c.database event).streamId) :
    old.version < (newEventRow c.database event).version := by
  have hNext := (insertError_eq_none_iff hInv.ready hInv.numbered _).mp hAccepted
  have hMem := List.mem_map_of_mem (f := EventRow.version)
    (mem_eventsOf.mpr ⟨hOld, hStream⟩)
  rw [hInv.numbered.versions, VersionedLog.mem_upTo] at hMem
  omega

/-- While others write, the rows of the type grow at the end of each stream, and where
no event is adopted at the end of the table. -/
theorem rowsOfType_grow (plan : Plan) (streamType : String)
    {step : Connection → StoreEntry → Connection → Prop}
    (hWriter : ∀ c entry c', step c entry c' → WriterStep c entry c')
    (hAdopts : byEventId plan → ∀ c entry c', step c entry c' → AdoptsNone c c') :
    Grows step StoreInvariant (fun c => rowsOfType plan c.database streamType)
      (readKey plan) readGroup where
  keep := by
    intro c entry c' hInv hStep
    exact (hWriter _ _ _ hStep).invariant hInv
  sorted := by
    intro c hInv
    exact rowsOfType_sorted plan hInv.streamIds hInv.numbered streamType
  subset := by
    intro c entry c' hInv hStep row hRow
    have hEffect := writerStep_effect hInv.ready (hWriter _ _ _ hStep)
    have hInv' := (hWriter _ _ _ hStep).invariant hInv
    obtain ⟨hEvent, hType⟩ := (mem_rowsOfType hInv.streamIds).mp hRow
    obtain ⟨s, hMem, hMatches⟩ := belongsToType_iff.mp hType
    refine (mem_rowsOfType hInv'.streamIds).mpr ⟨hEffect.prefix_events.subset hEvent, ?_⟩
    exact belongsToType_iff.mpr ⟨s, hEffect.prefix_streams.subset hMem, hMatches⟩
  last := by
    intro c entry c' hInv hStep new hNew hNot old hOld hGroup
    have hInv' := (hWriter _ _ _ hStep).invariant hInv
    obtain ⟨hNewMem, hNewType⟩ := (mem_rowsOfType hInv'.streamIds).mp hNew
    obtain ⟨hOldMem, hOldType⟩ := (mem_rowsOfType hInv.streamIds).mp hOld
    have hSame : ¬byEventId plan → old.streamId = new.streamId := by
      intro hStreams
      rwa [readGroup_of_streams hStreams, readGroup_of_streams hStreams] at hGroup
    cases writerStep_effect hInv.ready (hWriter _ _ _ hStep) with
    | refused => exact absurd hNew hNot
    | pushed event hAccepted =>
        rcases List.mem_append.mp hNewMem with hBefore | hAfter
        · exact absurd ((mem_rowsOfType hInv.streamIds).mpr ⟨hBefore, hNewType⟩) hNot
        · rw [List.mem_singleton] at hAfter
          subst hAfter
          refine readKey_lt (Sql.lt_nextRowid (List.mem_map_of_mem hOldMem)) ?_
          intro hStreams
          exact ⟨hSame hStreams,
            version_lt_of_accepted hInv hAccepted hOldMem (hSame hStreams)⟩
    | created type =>
        -- The new row has been stored before, without a stream; the stream is new.
        exfalso
        have hExists : ∃ s ∈ c.database.streams, s.id = new.streamId := by
          by_cases hStreams : byEventId plan
          · obtain ⟨s, hMem, hId, -⟩ := belongsToType_iff.mp hNewType
            exact hAdopts hStreams _ _ _ hStep new hNewMem ⟨s, hMem, hId⟩
          · obtain ⟨s, hMem, hId, -⟩ := belongsToType_iff.mp hOldType
            exact ⟨s, hMem, hId.trans (hSame hStreams)⟩
        obtain ⟨s, hMem, hId⟩ := hExists
        obtain ⟨s', hMem', hId', hType'⟩ := belongsToType_iff.mp hNewType
        rcases List.mem_append.mp hMem' with hBefore | hAfter
        · exact hNot ((mem_rowsOfType hInv.streamIds).mpr
            ⟨hNewMem, belongsToType_iff.mpr ⟨s', hBefore, hId', hType'⟩⟩)
        · rw [List.mem_singleton] at hAfter
          subst hAfter
          apply Sql.nextRowid_not_mem (c.database.streams.map StreamRow.id)
          rw [show Sql.nextRowid (c.database.streams.map StreamRow.id) = s.id from
            hId'.trans hId.symm]
          exact List.mem_map_of_mem hMem

/-! ## Where nothing is adopted -/

/-- A push or a create that gives no stored event a stream. -/
def CarefulStep (c : Connection) (entry : StoreEntry) (c' : Connection) : Prop :=
  WriterStep c entry c' ∧ AdoptsNone c c'

abbrev CarefulReadStep (plan : Plan) (streamType : String) :
    TypeReading → ReadLabel StoreEntry → TypeReading → Prop :=
  ReadStep CarefulStep (fun c => rowsOfType plan c.database streamType) (readKey plan)

theorem careful_of_adoptsNone {r t : TypeReading} {label : ReadLabel StoreEntry}
    (hStep : TypeReadStep plan streamType r label t)
    (hAdopts : AdoptsNone r.store t.store) :
    CarefulReadStep plan streamType r label t :=
  hStep.mono fun _ _ hStore => ⟨hStore, hAdopts⟩

/-- On a connection that enforces foreign keys every event has its stream. -/
structure KeepsIntegrity (c : Connection) : Prop where
  store : StoreInvariant c
  enforced : c.foreignKeys = true
  refers : EventsReferToStreams c.database

theorem StoreEffect.keepsIntegrity (hEffect : StoreEffect c entry c')
    (hKeeps : KeepsIntegrity c) : KeepsIntegrity c' := by
  refine ⟨hEffect.invariant hKeeps.store, hEffect.foreignKeys_eq.trans hKeeps.enforced, ?_⟩
  apply hEffect.refers hKeeps.refers
  rintro streamId event reply created rfl
  cases hEffect with
  | pushed _ _ hAccepted =>
      have hNext := (insertError_eq_none_iff hKeeps.store.ready hKeeps.store.numbered _).mp
        hAccepted
      exact hNext.2 hKeeps.enforced
  | read _ _ hRead => simp [StoreRequest.isRead] at hRead

theorem Reachable.keepsIntegrity (hReachable : Reachable c) (hEnforced : c.foreignKeys = true) :
    KeepsIntegrity c := by
  obtain ⟨c₀, activities, hInit, hRun⟩ := hReachable
  obtain rfl := eq_of_initDb_none hInit
  have hBoth := hRun.stateInvariant
    (fun c => HistoryInvariant c ∧ (c.foreignKeys = true → KeepsIntegrity c))
    ⟨freshConnection_historyInvariant,
      fun _ => ⟨freshConnection_invariant, rfl, freshConnection_refers⟩⟩ ?_
  · exact hBoth.2 hEnforced
  · rintro c activity c' ⟨hInv, hKeeps⟩ hStep
    refine ⟨hStep.historyInvariant hInv, fun hEnforced' => ?_⟩
    cases hStep with
    | request plan hStore =>
        have hEffect := storeStep_effect hInv.store.ready hStore
        exact hEffect.keepsIntegrity (hKeeps (hEffect.foreignKeys_eq.symm.trans hEnforced'))
    | projection hProjection =>
        have hInv' := (ActivityStep.projection hProjection).historyInvariant hInv
        cases projectionStep_effect hInv.store.ready hProjection with
        | created data type => exact ⟨hInv'.store, hEnforced', (hKeeps hEnforced').refers⟩
        | deleted id => exact ⟨hInv'.store, hEnforced', (hKeeps hEnforced').refers⟩
    -- The next session does not enforce them.
    | restart hRestart =>
        rw [eq_of_initDb_some hRestart] at hEnforced'
        simp at hEnforced'

/-- Where every event has its stream, none is adopted. -/
theorem KeepsIntegrity.careful {r t : TypeReading} {labels : List (ReadLabel StoreEntry)}
    (hKeeps : KeepsIntegrity r.store) (hRun : Run (TypeReadStep plan streamType) r labels t) :
    KeepsIntegrity t.store ∧ Run (CarefulReadStep plan streamType) r labels t := by
  induction hRun with
  | refl => exact ⟨hKeeps, .refl⟩
  | tail _ hLast ih =>
      obtain ⟨hKeeps', hCareful⟩ := ih
      have hAdopts : ∀ c', AdoptsNone _ c' := fun c' row hRow _ => hKeeps'.refers row hRow
      refine ⟨?_, .tail hCareful (careful_of_adoptsNone hLast (hAdopts _))⟩
      rcases hLast.store_cases with hSame | ⟨entry, -, -, plan', hServed⟩
      · rw [hSame]
        exact hKeeps'
      · exact (storeStep_effect hKeeps'.store.ready hServed).keepsIntegrity hKeeps'

/-! ## What a read finds -/

variable {labels : List (ReadLabel StoreEntry)} {final : TypeReading}

/-- Of every stream, the list holds the events of the stream that were stored at an
instant of the reading, and the instants follow one another as the streams do. -/
def StreamSnapshots (plan : Plan) (streamType : String) (c : Connection)
    (labels : List (ReadLabel StoreEntry)) (final : TypeReading) : Prop :=
  ∃ (time : Int → ℕ) (instant : Int → TypeReading),
    (∀ a b, a ≤ b → time a ≤ time b) ∧
      ∀ streamId, At (TypeReadStep plan streamType) (.start c) labels final (time streamId)
          (instant streamId) ∧
        (eventsOf streamId final.found).Perm
          (eventsOf streamId (eventsOfType (instant streamId).store.database streamType))

theorem readGroup_le {a b : Int ×ₗ Int} (hLe : a ≤ b) : readGroup a ≤ readGroup b :=
  Prod.Lex.monotone_fst_ofLex hLe

theorem nodup_of_sorted {rows : List EventRow}
    (hSorted : rows.Pairwise fun a b => readKey plan a < readKey plan b) : rows.Nodup :=
  hSorted.imp fun h => by
    rintro rfl
    exact h.false

theorem eventsOfType_nodup (hInv : StoreInvariant c) (streamType : String) :
    (eventsOfType c.database streamType).Nodup :=
  (rowsOfType_perm ⟨.eventsOuter, .rowid⟩ hInv.streamIds streamType).nodup_iff.mp
    (nodup_of_sorted (rowsOfType_sorted _ hInv.streamIds hInv.numbered streamType))

/-- The instants of the groups of a read, and what they determine. -/
theorem read_snapshots {step : Connection → StoreEntry → Connection → Prop}
    (hWriter : ∀ c entry c', step c entry c' → WriterStep c entry c')
    (hAdopts : byEventId plan → ∀ c entry c', step c entry c' → AdoptsNone c c')
    (hInv : StoreInvariant c) (hFinished : final.finished = true)
    (hRun : Run (ReadStep step (fun c => rowsOfType plan c.database streamType) (readKey plan))
      (.start c) labels final) :
    ∃ (time : Int → ℕ) (instant : Int → TypeReading),
      (∀ a b, a ≤ b → time a ≤ time b) ∧ final.found.Nodup ∧
      (∀ group, StoreInvariant (instant group).store ∧
        At (TypeReadStep plan streamType) (.start c) labels final (time group)
          (instant group)) ∧
      ∀ row, row ∈ final.found ↔
        row ∈ eventsOfType (instant (readGroup (readKey plan row))).store.database
          streamType := by
  have hGrows := rowsOfType_grow plan streamType hWriter hAdopts
  obtain ⟨rest, time, instant, hSnapshots⟩ :=
    groups_are_snapshots hGrows (fun _ _ => readGroup_le) hInv rfl hFinished hRun
  have hFound : final.found = rest := hSnapshots.found
  have hInstant : ∀ group, StoreInvariant (instant group).store := fun group =>
    (grows_run hGrows hInv (hSnapshots.during group).1).1
  have hForget : ∀ r label t,
      ReadStep step (fun c => rowsOfType plan c.database streamType) (readKey plan) r label t →
        TypeReadStep plan streamType r label t :=
    fun _ _ _ hStep => hStep.mono fun _ _ hStore => hWriter _ _ _ hStore
  refine ⟨time, instant, fun _ _ hLe => hSnapshots.monotone hLe, ?_, ?_, ?_⟩
  · rw [hFound]
    exact nodup_of_sorted hSnapshots.sorted
  · intro group
    exact ⟨hInstant group, (hSnapshots.during group).mono hForget⟩
  · intro row
    have hRows : row ∈ rowsOfType plan _ streamType ↔ _ :=
      mem_rowsOfType (hInstant (readGroup (readKey plan row))).streamIds
    rw [hFound, hSnapshots.mem_iff, eventsOfType, List.mem_filter, ← hRows]
    exact and_iff_right fun k hk => by simp [Reading.start] at hk

/-- In a read that goes from stream to stream. -/
theorem streamSnapshots (hInv : StoreInvariant c) (hStreams : ¬byEventId plan)
    (hRead : ReadsType plan streamType c labels final) :
    StreamSnapshots plan streamType c labels final := by
  obtain ⟨time, instant, hMonotone, hNodup, hInstant, hFound⟩ :=
    read_snapshots (fun _ _ _ hStep => hStep) (fun hById => absurd hById hStreams) hInv
      hRead.2 hRead.1
  refine ⟨time, instant, hMonotone, fun streamId => ⟨(hInstant streamId).2, ?_⟩⟩
  have hNodup' := eventsOfType_nodup (hInstant streamId).1 streamType
  refine (List.perm_ext_iff_of_nodup (hNodup.filter _) (hNodup'.filter _)).mpr ?_
  intro row
  show row ∈ eventsOf streamId final.found ↔ row ∈ eventsOf streamId _
  rw [mem_eventsOf, mem_eventsOf, hFound row, readGroup_of_streams hStreams]
  constructor
  · rintro ⟨hMem, rfl⟩
    exact ⟨hMem, rfl⟩
  · rintro ⟨hMem, rfl⟩
    exact ⟨hMem, rfl⟩

/-- In a read that visits the events by their ids. -/
theorem isSnapshot_of_careful (hInv : StoreInvariant c) (hById : byEventId plan)
    (hFinished : final.finished = true)
    (hRun : Run (CarefulReadStep plan streamType) (.start c) labels final) :
    IsSnapshot plan streamType c labels final := by
  obtain ⟨time, instant, -, hNodup, hInstant, hFound⟩ :=
    read_snapshots (fun _ _ _ hStep => hStep.1) (fun _ _ _ _ hStep => hStep.2) hInv hFinished
      hRun
  have hGroup : ∀ row, readGroup (readKey plan row) = 0 := by
    intro row
    rw [show plan = ⟨.eventsOuter, .rowid⟩ from hById]
    rfl
  refine ⟨time 0, instant 0, (hInstant 0).2, ?_⟩
  refine (List.perm_ext_iff_of_nodup hNodup (eventsOfType_nodup (hInstant 0).1 streamType)).mpr ?_
  intro row
  rw [hFound row, hGroup row]

/-- For every state of the store, every type, every plan and every way in which pushes
and creates of other clients come between the rows of the read.  With the events
visited by their ids, the list is a snapshot if the connection enforces foreign keys,
and also if no event that is stored gets its stream during the read.  In every other
order the list holds of each stream what was stored of it at an instant of its own. -/
theorem type_read_snapshots (hReachable : Reachable c)
    (hRead : ReadsType plan streamType c labels final) :
    (byEventId plan →
      c.foreignKeys = true ∨
        Run (StepWith (TypeReadStep plan streamType) fun r _ t => AdoptsNone r.store t.store)
          (.start c) labels final →
      IsSnapshot plan streamType c labels final) ∧
    (¬byEventId plan → StreamSnapshots plan streamType c labels final) := by
  have hInv := hReachable.invariant.store
  constructor
  · rintro hById (hEnforced | hAdopts)
    · have hKeeps : KeepsIntegrity (Reading.start c : TypeReading).store :=
        hReachable.keepsIntegrity hEnforced
      exact isSnapshot_of_careful hInv hById hRead.2 (hKeeps.careful hRead.1).2
    · refine isSnapshot_of_careful hInv hById hRead.2 (hAdopts.mono ?_)
      rintro r label t ⟨hStep, hNone⟩
      exact careful_of_adoptsNone hStep hNone
  · intro hStreams
    exact streamSnapshots hInv hStreams hRead

/-! ## Reads that are disturbed, and one that is not -/

/-- Where nothing comes between the rows, the list is that of the query as a whole. -/
theorem undisturbed_read (hInv : StoreInvariant c)
    (hRead : ReadsType plan streamType c labels final)
    (hAlone : ∀ label ∈ labels, label = .fetch) :
    getEventsByStreamType plan streamType c =
      .returned (final.found.map EventRow.toEvent) c := by
  have hGrows : Grows (fun _ _ _ => False) StoreInvariant
      (fun c => rowsOfType plan c.database streamType) (readKey plan) readGroup :=
    rowsOfType_grow plan streamType (fun _ _ _ h => h.elim) fun _ _ _ _ h => h.elim
  obtain ⟨rest, time, instant, hSnapshots⟩ :=
    groups_are_snapshots hGrows (fun _ _ => readGroup_le) hInv rfl hRead.2
      (run_alone hRead.1 hAlone)
  have hSame : ∀ group, (instant group).store = c := fun group =>
    store_of_alone (hSnapshots.during group).1
  have hRows : final.found = rowsOfType plan c.database streamType := by
    have hSorted := rowsOfType_sorted plan hInv.streamIds hInv.numbered streamType
    rw [show final.found = rest from hSnapshots.found]
    refine ((List.perm_ext_iff_of_nodup (nodup_of_sorted hSnapshots.sorted)
      (nodup_of_sorted hSorted)).mpr ?_).eq_of_pairwise ?_ hSnapshots.sorted hSorted
    · intro row
      rw [hSnapshots.mem_iff, hSame]
      exact and_iff_right fun k hk => by simp [Reading.start] at hk
    · intro a b _ _ hLt hGt
      exact absurd hGt hLt.not_gt
  rw [getEventsByStreamType, getEventsByType_apply plan streamType hInv.ready, hRows]
  rfl

/-- During a read the tables only grow at their ends. -/
theorem prefix_of_run {r t : TypeReading} (hInv : StoreInvariant r.store)
    (hRun : Run (TypeReadStep plan streamType) r labels t) :
    StoreInvariant t.store ∧ r.store.database.events <+: t.store.database.events := by
  induction hRun with
  | refl => exact ⟨hInv, List.prefix_rfl⟩
  | tail _ hLast ih =>
      obtain ⟨hInv', hPrefix⟩ := ih
      rcases hLast.store_cases with hSame | ⟨entry, -, hStore⟩
      · rw [hSame]
        exact ⟨hInv', hPrefix⟩
      · exact ⟨hStore.invariant hInv',
          hPrefix.trans (writerStep_effect hInv'.ready hStore).prefix_events⟩

/-- A snapshot with an event has every earlier event of the streams that occur in it. -/
theorem IsSnapshot.misses_none (hInv : StoreInvariant c)
    (hSnapshot : IsSnapshot plan streamType c labels final) (old new same : EventRow)
    (hNew : new ∈ final.found) (hOld : old ∈ final.store.database.events)
    (hBefore : old.id < new.id) (hSame : same ∈ final.found)
    (hStream : same.streamId = old.streamId) : old ∈ final.found := by
  obtain ⟨n, r, ⟨hFirst, hRest⟩, hPerm⟩ := hSnapshot
  have hInv' : StoreInvariant r.store := (prefix_of_run hInv hFirst).1
  obtain ⟨hInv'', hPrefix⟩ := prefix_of_run hInv' hRest
  obtain ⟨hNewMem, -⟩ := List.mem_filter.mp (hPerm.mem_iff.mp hNew)
  obtain ⟨-, hType⟩ := List.mem_filter.mp (hPerm.mem_iff.mp hSame)
  -- What is stored after the instant comes after the new event.
  have hOldMem : old ∈ r.store.database.events := by
    obtain ⟨more, hMore⟩ := hPrefix
    have hIds := hInv''.numbered.ids
    rw [← hMore] at hOld hIds
    rcases List.mem_append.mp hOld with hMem | hLater
    · exact hMem
    · have hLt := (List.pairwise_append.mp hIds).2.2 new hNewMem old hLater
      omega
  refine hPerm.mem_iff.mpr (List.mem_filter.mpr ⟨hOldMem, ?_⟩)
  obtain ⟨s, hMem, hId, hTypeEq⟩ := belongsToType_iff.mp hType
  exact belongsToType_iff.mpr ⟨s, hMem, hId.trans hStream, hTypeEq⟩

theorem oneEvent_read :
    ReadsType ⟨.eventsOuter, .rowid⟩ "User" oneEventConnection [.fetch, .fetch]
      ⟨oneEventConnection, some (toLex (0, 1)), [⟨1, 1, "UserCreated", "{}", 1⟩], true⟩ :=
  ⟨.tail (.single (.row rfl rfl)) (.done rfl rfl), rfl⟩

theorem type_read_snapshots_one_event :
    IsSnapshot ⟨.eventsOuter, .rowid⟩ "User" oneEventConnection [.fetch, .fetch]
      ⟨oneEventConnection, some (toLex (0, 1)), [⟨1, 1, "UserCreated", "{}", 1⟩], true⟩ :=
  (type_read_snapshots oneEventConnection_reachable oneEvent_read).1 rfl (Or.inl rfl)

/-- A store of streams of the type "User" and events of one type. -/
def usersConnection (foreignKeys : Bool) (streams : List Int) (events : List (Int × Int × Int)) :
    Connection where
  database := { Database.empty with
    schema := .complete
    streams := streams.map fun id => ⟨id, "User", 0⟩
    events := events.map fun (id, streamId, version) =>
      ⟨id, streamId, "UserRenamed", "{}", version⟩ }
  foreignKeys := foreignKeys
  rollback := none

def createUser (id : Int) : StoreEntry := ⟨.createStream "User", .ok .done, some id⟩

def renameUser (streamId version : Int32) : StoreEntry :=
  ⟨.pushEvent streamId ⟨0, streamId, "UserRenamed", "{}", version⟩, .ok .done, none⟩

theorem createUser_step {id : Int}
    (hStore : StoreStep ⟨.streamsOuter, .rowid⟩ c (createUser id) c') :
    WriterStep c (createUser id) c' := ⟨Or.inl ⟨_, rfl⟩, _, hStore⟩

theorem renameUser_step {streamId version : Int32}
    (hStore : StoreStep ⟨.streamsOuter, .rowid⟩ c (renameUser streamId version) c') :
    WriterStep c (renameUser streamId version) c' := ⟨Or.inr ⟨_, _, rfl⟩, _, hStore⟩

theorem usersConnection_reachable :
    Reachable (usersConnection true [1, 2] [(1, 1, 1), (2, 2, 1)]) := by
  have hFirst : StoreStep ⟨.streamsOuter, .rowid⟩ freshConnection (createUser 1)
      (usersConnection true [1] []) := ⟨rfl, rfl, rfl⟩
  have hSecond : StoreStep ⟨.streamsOuter, .rowid⟩ (usersConnection true [1] [])
      (createUser 2) (usersConnection true [1, 2] []) := ⟨rfl, rfl, rfl⟩
  have hPush : StoreStep ⟨.streamsOuter, .rowid⟩ (usersConnection true [1, 2] [])
      (renameUser 1 1) (usersConnection true [1, 2] [(1, 1, 1)]) := ⟨rfl, rfl, rfl⟩
  have hPush' : StoreStep ⟨.streamsOuter, .rowid⟩ (usersConnection true [1, 2] [(1, 1, 1)])
      (renameUser 2 1) (usersConnection true [1, 2] [(1, 1, 1), (2, 2, 1)]) := ⟨rfl, rfl, rfl⟩
  exact (((freshConnection_reachable.step (.request _ hFirst)).step (.request _ hSecond)).step
    (.request _ hPush)).step (.request _ hPush')

theorem waitingEvent_reachable :
    Reachable (usersConnection false [1] [(1, 2, 1), (2, 1, 1)]) := by
  have hRestart : ActivityStep freshConnection .restart (usersConnection false [] []) :=
    .restart rfl
  have hCreate : StoreStep ⟨.streamsOuter, .rowid⟩ (usersConnection false [] [])
      (createUser 1) (usersConnection false [1] []) := ⟨rfl, rfl, rfl⟩
  have hPush : StoreStep ⟨.streamsOuter, .rowid⟩ (usersConnection false [1] [])
      (renameUser 2 1) (usersConnection false [1] [(1, 2, 1)]) := ⟨rfl, rfl, rfl⟩
  have hPush' : StoreStep ⟨.streamsOuter, .rowid⟩ (usersConnection false [1] [(1, 2, 1)])
      (renameUser 1 1) (usersConnection false [1] [(1, 2, 1), (2, 1, 1)]) := ⟨rfl, rfl, rfl⟩
  exact (((freshConnection_reachable.step hRestart).step (.request _ hCreate)).step
    (.request _ hPush)).step (.request _ hPush')

/-- The streams 1 and 2 have one event each.  When the scan has left stream 1, it gets
a second event and then stream 2 does; the list has the later of the two and not the
earlier. -/
theorem torn_read :
    ReadsType ⟨.streamsOuter, .rowid⟩ "User"
      (usersConnection true [1, 2] [(1, 1, 1), (2, 2, 1)])
      [.fetch, .fetch, .store (renameUser 1 2), .store (renameUser 2 2), .fetch, .fetch]
      ⟨usersConnection true [1, 2] [(1, 1, 1), (2, 2, 1), (3, 1, 2), (4, 2, 2)],
        some (toLex (2, 4)),
        [⟨1, 1, "UserRenamed", "{}", 1⟩, ⟨2, 2, "UserRenamed", "{}", 1⟩,
          ⟨4, 2, "UserRenamed", "{}", 2⟩], true⟩ := by
  have hFirst : WriterStep (usersConnection true [1, 2] [(1, 1, 1), (2, 2, 1)])
      (renameUser 1 2) (usersConnection true [1, 2] [(1, 1, 1), (2, 2, 1), (3, 1, 2)]) :=
    renameUser_step ⟨rfl, rfl, rfl⟩
  have hSecond : WriterStep (usersConnection true [1, 2] [(1, 1, 1), (2, 2, 1), (3, 1, 2)])
      (renameUser 2 2)
      (usersConnection true [1, 2] [(1, 1, 1), (2, 2, 1), (3, 1, 2), (4, 2, 2)]) :=
    renameUser_step ⟨rfl, rfl, rfl⟩
  refine ⟨?_, rfl⟩
  exact .tail (.tail (.tail (.tail (.tail (.single (.row rfl rfl)) (.row rfl rfl))
    (.store rfl hFirst)) (.store rfl hSecond)) (.row rfl rfl)) (.done rfl rfl)

/-- The event 1 waits for stream 2.  When the scan by event ids has passed it, the
stream is created and gets a second event; the list has that and not the first. -/
theorem adopted_read :
    ReadsType ⟨.eventsOuter, .rowid⟩ "User" (usersConnection false [1] [(1, 2, 1), (2, 1, 1)])
      [.fetch, .store (createUser 2), .store (renameUser 2 2), .fetch, .fetch]
      ⟨usersConnection false [1, 2] [(1, 2, 1), (2, 1, 1), (3, 2, 2)], some (toLex (0, 3)),
        [⟨2, 1, "UserRenamed", "{}", 1⟩, ⟨3, 2, "UserRenamed", "{}", 2⟩], true⟩ := by
  have hCreate : WriterStep (usersConnection false [1] [(1, 2, 1), (2, 1, 1)]) (createUser 2)
      (usersConnection false [1, 2] [(1, 2, 1), (2, 1, 1)]) :=
    createUser_step ⟨rfl, rfl, rfl⟩
  have hPush : WriterStep (usersConnection false [1, 2] [(1, 2, 1), (2, 1, 1)])
      (renameUser 2 2) (usersConnection false [1, 2] [(1, 2, 1), (2, 1, 1), (3, 2, 2)]) :=
    renameUser_step ⟨rfl, rfl, rfl⟩
  refine ⟨?_, rfl⟩
  exact .tail (.tail (.tail (.tail (.single (.row rfl rfl)) (.store rfl hCreate))
    (.store rfl hPush)) (.row rfl rfl)) (.done rfl rfl)

/-- Neither join order gives a snapshot of every read. -/
theorem type_reads_are_no_snapshots :
    (∃ c labels final, Reachable c ∧ ReadsType ⟨.streamsOuter, .rowid⟩ "User" c labels final ∧
      ¬IsSnapshot ⟨.streamsOuter, .rowid⟩ "User" c labels final) ∧
    (∃ c labels final, Reachable c ∧ ReadsType ⟨.eventsOuter, .rowid⟩ "User" c labels final ∧
      ¬IsSnapshot ⟨.eventsOuter, .rowid⟩ "User" c labels final) := by
  constructor
  · refine ⟨_, _, _, usersConnection_reachable, torn_read, fun hSnapshot => ?_⟩
    have hMissed := hSnapshot.misses_none usersConnection_reachable.invariant.store
      ⟨3, 1, "UserRenamed", "{}", 2⟩ ⟨4, 2, "UserRenamed", "{}", 2⟩
      ⟨1, 1, "UserRenamed", "{}", 1⟩ (by decide) (by decide) (by decide) (by decide) rfl
    simp at hMissed
  · refine ⟨_, _, _, waitingEvent_reachable, adopted_read, fun hSnapshot => ?_⟩
    have hMissed := hSnapshot.misses_none waitingEvent_reachable.invariant.store
      ⟨1, 2, "UserRenamed", "{}", 1⟩ ⟨3, 2, "UserRenamed", "{}", 2⟩
      ⟨3, 2, "UserRenamed", "{}", 2⟩ (by decide) (by decide) (by decide) (by decide) rfl
    simp at hMissed

end ActionHandler
end Yess
