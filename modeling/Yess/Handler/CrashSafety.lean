import Yess.Handler.History

namespace Yess
namespace ActionHandler

open Foundation Db VersionedLog

/-!
# Starting after an interrupted start

`init_db` makes the schema in several durable steps, and the next start looks at
nothing but the existence of the file.  Earlier starts on the same path may have
been cut off anywhere; `init_crash_safe_iff` says after which of them the next
start returns a connection on which the numbering of the events holds and no
operation misses a table.
-/

/-- The statements of `init_db` in their order, those of the transaction with the
ones that begin and commit it. -/
def initStatements : List (DbProg Unit) :=
  [pragmaForeignKeysOn, beginTransaction, createTableStreams, createTableEvents,
    commitTransaction, createTriggerVerValid, createTableProjections]

/-- Where no file is, they run to the end, and `init_db` does the same. -/
theorem initSchema_eq_statements :
    initSchema (openDatabase none) = Prog.sequence initStatements (openDatabase none) := rfl

/-- What a crash, or the destruction of the connection by an exception, leaves in the
file: an open transaction is undone, everything else stays. -/
def durable (c : Connection) : Database := c.rollback.getD c.database

/-- Where a start ended.  After the file was opened, `completed` statements came to
their end; whether the file was made by then shows only as long as nothing durable
was written. -/
inductive CutOff where
  | beforeOpen
  | afterOpen (made : Bool) (completed : Nat)

/-- What the statements so far have written durably. -/
def written (completed : Nat) : Database :=
  ((Prog.sequence (initStatements.take completed) (openDatabase none)).state.map
    durable).getD .empty

/-- The file after a start on the path. -/
def CutOff.leaves : CutOff → Option Database → Option Database
  | .beforeOpen, file => file
  -- Where a file exists, `init_db` returns before its first statement.
  | .afterOpen _ _, some db => some db
  | .afterOpen made completed, none =>
      if written completed = .empty && !made then none else some (written completed)

/-- The file after a sequence of starts on a path where there was none. -/
def fileAfter (starts : List CutOff) : Option Database :=
  starts.foldl (fun file start => start.leaves file) none

/-- The start came to the end of `init_db`. -/
def CutOff.completed : CutOff → Bool
  | .beforeOpen => false
  | .afterOpen _ completed => initStatements.length ≤ completed

/-- The start makes a file where there is none. -/
def CutOff.makesFile (start : CutOff) : Bool := (start.leaves none).isSome

/-! ## What a connection is for -/

/-- The member functions of the two repositories. -/
inductive RepoCall where
  | all
  | byType (type : String)
  | get (id : Int32)
  | getEvents (streamId : Int32)
  | getEventsByType (type : String)
  | getLastEvent (streamId : Int32)
  | create (stream : Stream)
  | attachEvent (event : Event)
  | remove (id : Int32)
  | createProjection (p : Projection)
  | allProjections
  | projection (id : Int32)
  | projectionsByType (type : String)
  | removeProjection (id : Int32)

/-- The call, its result aside. -/
def RepoCall.run (plan : Plan) : RepoCall → DbProg Unit
  | .all => do let _ ← Db.all
  | .byType type => do let _ ← Db.byType type
  | .get id => do let _ ← Db.get id
  | .getEvents streamId => do let _ ← Db.getEvents plan streamId
  | .getEventsByType type => do let _ ← Db.getEventsByType plan type
  | .getLastEvent streamId => do let _ ← Db.getLastEvent plan streamId
  | .create stream => Db.create stream
  | .attachEvent event => Db.attachEvent event
  | .remove id => Db.remove id
  | .createProjection p => ProjectionRepo.create p
  | .allProjections => do let _ ← ProjectionRepo.all
  | .projection id => do let _ ← ProjectionRepo.id id
  | .projectionsByType type => do let _ ← ProjectionRepo.type type
  | .removeProjection id => ProjectionRepo.remove id

/-- No call fails for a missing table. -/
def FindsTables (c : Connection) : Prop :=
  ∀ plan (call : RepoCall) table c',
    call.run plan c ≠ .threw (.sqliteException (.noSuchTable table)) c'

/-- The connection has the whole schema, and over every sequence of operations the
versions of each stream are `1, ..., n` and all tables are found. -/
structure CrashSafe (c : Connection) : Prop where
  schema : c.database.schema = .complete
  versions : ∀ activities c', Run ActivityStep c activities c' → ∀ streamId,
    ∃ n, (eventsOf streamId c'.database.events).map EventRow.version = upTo n
  tables : ∀ activities c', Run ActivityStep c activities c' → FindsTables c'

/-! ## The file -/

theorem fileAfter_some (starts : List CutOff) (db : Database) :
    starts.foldl (fun file start => start.leaves file) (some db) = some db := by
  induction starts with
  | nil => rfl
  | cons start starts ih => cases start <;> exact ih

/-- The first start that makes a file decides, and the others leave it alone. -/
theorem fileAfter_eq (starts : List CutOff) :
    fileAfter starts = (starts.find? CutOff.makesFile).bind fun start => start.leaves none := by
  induction starts with
  | nil => rfl
  | cons start starts ih =>
      rw [fileAfter, List.foldl_cons, List.find?_cons]
      cases hLeaves : start.leaves none with
      | none =>
          have hNot : start.makesFile = false := by rw [CutOff.makesFile, hLeaves]; rfl
          rw [hNot]
          exact ih
      | some db =>
          have hMakes : start.makesFile = true := by rw [CutOff.makesFile, hLeaves]; rfl
          rw [hMakes, fileAfter_some]
          exact hLeaves.symm

/-- The schema is complete after the last statement and not before. -/
theorem written_complete_iff (completed : Nat) :
    (written completed).schema = .complete ↔ initStatements.length ≤ completed := by
  have hBefore : ∀ n < initStatements.length, (written n).schema ≠ .complete := by decide
  constructor
  · intro hComplete
    by_contra hLess
    exact hBefore completed (by omega) hComplete
  · intro hAll
    rw [written, List.take_of_length_le hAll]
    rfl

/-- Nothing but the schema is ever written. -/
theorem written_eq (completed : Nat) :
    written completed = { Database.empty with schema := (written completed).schema } := by
  have hBefore : ∀ n < initStatements.length,
      written n = { Database.empty with schema := (written n).schema } := by decide
  by_cases hLess : completed < initStatements.length
  · exact hBefore completed hLess
  · rw [written, List.take_of_length_le (by omega)]
    rfl

/-- What the first start that makes a file has written to it. -/
theorem leaves_of_makesFile {start : CutOff} (hMakes : start.makesFile = true) :
    ∃ completed, start.leaves none = some (written completed) ∧
      (start.completed = true ↔ initStatements.length ≤ completed) := by
  unfold CutOff.makesFile at hMakes
  cases start with
  | beforeOpen => simp [CutOff.leaves] at hMakes
  | afterOpen made completed =>
      refine ⟨completed, ?_, by simp [CutOff.completed]⟩
      simp only [CutOff.leaves] at hMakes ⊢
      split at hMakes
      · simp at hMakes
      · rename_i hWritten
        rw [if_neg hWritten]

/-! ## The connection -/

theorem emptyTables_historyInvariant (foreignKeys : Bool) : HistoryInvariant
    ⟨{ Database.empty with schema := .complete }, foreignKeys, none⟩ where
  store := ⟨⟨rfl, rfl⟩, List.Pairwise.nil, eventsNumbered_nil⟩
  projectionIds := List.Pairwise.nil
  eventInts := by simp [Database.empty]
  streamVersions := by simp [Database.empty]

/-- What refuses a row is never a missing table. -/
theorem insertError_ne_noSuchTable (c : Connection) (row : EventRow) (table : String) :
    insertError c row ≠ some (.noSuchTable table) := by
  unfold insertError
  split
  · simp
  · split
    · simp
    · split <;> simp

/-- With the whole schema, no call misses a table. -/
theorem findsTables {c : Connection} (hInv : HistoryInvariant c) : FindsTables c := by
  have hReady := hInv.store.ready
  intro plan call table c' hThrew
  cases call with
  | all => simp [RepoCall.run, Prog.bind_of_returned (all_apply hReady)] at hThrew
  | byType type =>
      simp [RepoCall.run, Prog.bind_of_returned (byType_apply type hReady)] at hThrew
  | get id => simp [RepoCall.run, Prog.bind_of_returned (Db.get_apply id hReady)] at hThrew
  | getEvents streamId =>
      simp [RepoCall.run, Prog.bind_of_returned (getEvents_apply plan streamId hReady)]
        at hThrew
  | getEventsByType type =>
      simp [RepoCall.run, Prog.bind_of_returned (getEventsByType_apply plan type hReady)]
        at hThrew
  | getLastEvent streamId =>
      rw [RepoCall.run, getLastEvent, bind_assoc,
        Prog.bind_of_returned (queryEvents_apply plan _ hReady)] at hThrew
      split at hThrew <;> simp [Prog.bind_apply] at hThrew
  | create stream => simp [RepoCall.run, create_apply stream hReady] at hThrew
  | attachEvent event =>
      rw [RepoCall.run, attachEvent_apply event hReady] at hThrew
      cases hError : insertError c (newEventRow c.database event) with
      | none => simp [hError] at hThrew
      | some error =>
          simp only [hError, Outcome.threw.injEq, Exn.sqliteException.injEq] at hThrew
          rw [hThrew.1] at hError
          exact insertError_ne_noSuchTable _ _ _ hError
  | remove id => simp [RepoCall.run, Db.remove_apply id hReady] at hThrew
  | createProjection p =>
      simp [RepoCall.run, ProjectionRepo.create_apply p hReady] at hThrew
  | allProjections =>
      simp [RepoCall.run, Prog.bind_of_returned (ProjectionRepo.all_apply hReady)] at hThrew
  | projection id =>
      have hRead := ProjectionRepo.id_apply id hReady
      cases hFound : c.database.projections.find? fun row => row.id = id.toInt with
      | none =>
          rw [hFound] at hRead
          simp [RepoCall.run, Prog.bind_of_threw hRead] at hThrew
      | some row =>
          rw [hFound] at hRead
          simp [RepoCall.run, Prog.bind_of_returned hRead] at hThrew
  | projectionsByType type =>
      simp [RepoCall.run, Prog.bind_of_returned (ProjectionRepo.type_apply type hReady)]
        at hThrew
  | removeProjection id =>
      simp [RepoCall.run, ProjectionRepo.remove_apply id hReady] at hThrew

theorem crashSafe_of_invariant {c : Connection} (hInv : HistoryInvariant c) : CrashSafe c := by
  have hAlways : ∀ activities c', Run ActivityStep c activities c' → HistoryInvariant c' :=
    fun activities c' hRun => hRun.stateInvariant HistoryInvariant hInv
      fun c activity c' hInv hStep => hStep.historyInvariant hInv
  constructor
  · exact hInv.store.ready.schema
  · intro activities c' hRun streamId
    exact ⟨_, (hAlways activities c' hRun).store.numbered.versions streamId⟩
  · intro activities c' hRun
    exact findsTables (hAlways activities c' hRun)

/-- What the next start finds on a path, when it is crash-safe. -/
theorem crashSafe_file_iff (file : Option Database)
    (hEmpty : ∀ db ∈ file, db = { Database.empty with schema := db.schema }) :
    (∃ c, initDb file = .returned () c ∧ CrashSafe c) ↔
      ∀ db ∈ file, db.schema = .complete := by
  cases file with
  | none =>
      refine iff_of_true ⟨_, initDb_none, ?_⟩ (by simp)
      exact crashSafe_of_invariant (emptyTables_historyInvariant true)
  | some db =>
      rw [initDb_some]
      constructor
      · rintro ⟨c, hInit, hSafe⟩ db' hMem
        obtain rfl := Option.some.inj hMem
        rw [Outcome.returned.injEq] at hInit
        rw [← hInit.2] at hSafe
        exact hSafe.schema
      · intro hComplete
        have hDb := hEmpty db rfl
        rw [hComplete db rfl] at hDb
        refine ⟨_, rfl, ?_⟩
        rw [hDb]
        exact crashSafe_of_invariant (emptyTables_historyInvariant false)

/-- After every sequence of starts that were cut off anywhere or came to their end:
the next start returns a connection with the whole schema, on which the versions of
every stream stay `1, ..., n` and no operation misses a table, exactly when the first
of them that made a file came to its end. -/
theorem init_crash_safe_iff (starts : List CutOff) :
    (∃ c, initDb (fileAfter starts) = .returned () c ∧ CrashSafe c) ↔
      ∀ start ∈ starts.find? CutOff.makesFile, start.completed = true := by
  rw [fileAfter_eq]
  cases hFirst : starts.find? CutOff.makesFile with
  | none => exact (crashSafe_file_iff none (by simp)).trans (by simp)
  | some start =>
      obtain ⟨completed, hLeaves, hCompleted⟩ :=
        leaves_of_makesFile (List.find?_some hFirst)
      have hFile : ((some start).bind fun start => start.leaves none) =
          some (written completed) := hLeaves
      rw [hFile, crashSafe_file_iff]
      · simp only [Option.mem_some, forall_eq', hCompleted, written_complete_iff]
      · simp only [Option.mem_some, forall_eq']
        exact written_eq completed

/-- The first start is cut off after `COMMIT`.  The second returns a connection to a
file without the trigger and without the table of projections: a push of version 7 to
a new stream is stored, and no projection can be created. -/
theorem start_after_commit_unsafe :
    ∃ c₁ c₂ c₃, initDb (fileAfter [.afterOpen true 5]) = .returned () c₁ ∧
      ActivityStep c₁ (.request ⟨.createStream "User", .ok .done, some 1⟩) c₂ ∧
      ActivityStep c₂
        (.request ⟨.pushEvent 1 ⟨0, 1, "UserCreated", "{}", 7⟩, .ok .done, none⟩) c₃ ∧
      (eventsOf 1 c₃.database.events).map EventRow.version = [7] ∧
      createProjection "0" c₁ =
        .threw (.sqliteException (.noSuchTable "projections")) c₁ ∧
      ¬∃ c, initDb (fileAfter [.afterOpen true 5]) = .returned () c ∧ CrashSafe c := by
  refine ⟨_, _, _, rfl, .request ⟨.streamsOuter, .rowid⟩ ⟨rfl, rfl, rfl⟩,
    .request ⟨.streamsOuter, .rowid⟩ ⟨rfl, rfl, rfl⟩, rfl, rfl, ?_⟩
  rintro ⟨c, hInit, hSafe⟩
  have hComplete := hSafe.schema
  rw [← (Outcome.returned.inj hInit).2] at hComplete
  exact absurd hComplete (by decide)

end ActionHandler
end Yess
