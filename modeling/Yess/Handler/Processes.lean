import Yess.Db.Refusals
import Yess.Foundation.KeptLog
import Yess.Handler.Interruptions
import Yess.Handler.StreamLog

namespace Yess
namespace ActionHandler

open Foundation Db VersionedLog KeptLog

/-!
# Several processes on one database file

A server and any number of shells may have one file open at the same time, each with
its own connection and its own foreign-key switch.  Processes start with `init_db` on
the file that is there, end between two requests or in the middle of one, and their
requests may fail because another process holds the lock.  Every such history refines
the logs of `KeptLog` (`system_refines`): what a stream id holds are the pushes to it
that took effect since the latest delete of it, whether or not a reply told of them.

The file is the one that a first `init_db` has completed.
-/

/-- The file, and for each process that has it open whether its connection enforces
foreign keys. -/
structure System (π : Type) where
  file : Database
  enforces : π → Option Bool

namespace System

variable {π : Type}

/-- The connection of a process between two requests. -/
def connection (system : System π) (keys : Bool) : Connection := ⟨system.file, keys, none⟩

/-- A process has done the first `init_db` and holds its connection. -/
def begun [DecidableEq π] (first : π) (c : Connection) : System π where
  file := c.database
  enforces := Function.update (fun _ => none) first (some c.foreignKeys)

end System

inductive SystemLabel (π : Type) where
  | started (process : π)
  | ended (process : π)
  | served (process : π) (entry : StoreEntry)
  | projection (process : π) (request : ProjectionRequest)
  /-- The process ended after so many statements; the entry is the one that the request
  would have made. -/
  | cutOff (process : π) (entry : StoreEntry) (completed : Nat)

inductive SystemStep {π : Type} [DecidableEq π] :
    System π → SystemLabel π → System π → Prop
  | started {system : System π} {process : π} {c : Connection}
      (hNew : system.enforces process = none)
      (hInit : initDb (some system.file) = .returned () c) :
      SystemStep system (.started process)
        ⟨c.database, Function.update system.enforces process (some c.foreignKeys)⟩
  | ended {system : System π} {process : π} :
      SystemStep system (.ended process)
        { system with enforces := Function.update system.enforces process none }
  | served {system : System π} {process : π} {keys : Bool} {entry : StoreEntry}
      {c : Connection} (plan : Plan) (faults : Nat → Option Fault)
      (hOpen : system.enforces process = some keys)
      (hStep : FailingStep plan faults (system.connection keys) entry c) :
      SystemStep system (.served process entry) { system with file := c.database }
  | projection {system : System π} {process : π} {keys : Bool} {request : ProjectionRequest}
      {c : Connection} (hOpen : system.enforces process = some keys)
      (hStep : ProjectionStep (system.connection keys) request c) :
      SystemStep system (.projection process request) { system with file := c.database }
  | cutOff {system : System π} {process : π} {keys : Bool} {entry : StoreEntry}
      {c : Connection} (plan : Plan) (completed : Nat)
      (hOpen : system.enforces process = some keys)
      (hStep : StoreStep plan (system.connection keys) entry c) :
      SystemStep system (.cutOff process entry completed)
        ⟨ActionHandler.cutOff entry.request completed (system.connection keys),
          Function.update system.enforces process none⟩

/-- The operation on the logs that took effect, if one did: that of an acknowledged
request, or of one whose last statement was completed before the process ended. -/
def SystemLabel.operation {π : Type} : SystemLabel π → Option (Op Int Pushed)
  | .served _ entry => entry.operation
  | .cutOff _ entry completed =>
      if Completed entry.request completed then entry.operation else none
  | _ => none

/-- What took effect in a history. -/
def operations {π : Type} (history : List (SystemLabel π)) : List (Op Int Pushed) :=
  history.filterMap SystemLabel.operation

/-- The pushes to a stream id that took effect since the latest delete of it. -/
def keptPushes {π : Type} (streamId : Int) (history : List (SystemLabel π)) : List Pushed :=
  kept streamId (operations history)

/-- The streams that exist, and the events under every stream id. -/
def shelfOf (db : Database) : Shelf Int Pushed where
  inUse := fun streamId => ∃ s ∈ db.streams, s.id = streamId
  log := fun streamId => (eventsOf streamId db.events).map fun row => pushedOf row.toEvent

/-! ## One step -/

theorem shelfOf_created (db : Database) (row : StreamRow) :
    shelfOf { db with streams := db.streams ++ [row] } =
      { shelfOf db with inUse := fun k => k = row.id ∨ (shelfOf db).inUse k } := by
  apply Shelf.ext
  · funext streamId
    simp [shelfOf, eq_comm, or_comm]
  · rfl

theorem shelfOf_deleted (db : Database) (id : Int) :
    shelfOf { db with
        events := db.events.filter fun row => row.streamId ≠ id
        streams := db.streams.filter fun row => row.id ≠ id } =
      ⟨fun k => k ≠ id ∧ (shelfOf db).inUse k, Function.update (shelfOf db).log id []⟩ := by
  apply Shelf.ext
  · funext streamId
    simp only [shelfOf, List.mem_filter, decide_eq_true_eq]
    apply propext
    constructor
    · rintro ⟨s, ⟨hMem, hOther⟩, rfl⟩
      exact ⟨hOther, s, hMem, rfl⟩
    · rintro ⟨hOther, s, hMem, rfl⟩
      exact ⟨s, ⟨hMem, hOther⟩, rfl⟩
  · funext streamId
    show (eventsOf streamId (db.events.filter fun row => row.streamId ≠ id)).map _ =
      Function.update (shelfOf db).log id [] streamId
    rw [eventsOf_delete]
    by_cases h : streamId = id
    · rw [if_pos h, h, Function.update_self, List.map_nil]
    · rw [if_neg h, Function.update_of_ne h]
      rfl

theorem shelfOf_pushed (db : Database) (row : EventRow) :
    shelfOf { db with events := db.events ++ [row] } = { shelfOf db with
      log := Function.update (shelfOf db).log row.streamId
        ((shelfOf db).log row.streamId ++ [pushedOf row.toEvent]) } := by
  apply Shelf.ext
  · rfl
  · funext streamId
    show (eventsOf streamId (db.events ++ [row])).map _ =
      Function.update (shelfOf db).log row.streamId _ streamId
    rw [eventsOf_append]
    by_cases h : row.streamId = streamId
    · rw [if_pos h, ← h, Function.update_self, List.map_append]
      rfl
    · rw [if_neg h, Function.update_of_ne (Ne.symm h), List.append_nil]
      rfl

/-- What a step of the store does to the logs, with foreign keys enforced or not. -/
theorem StoreEffect.shelf {c c' : Connection} {entry : StoreEntry}
    (hEffect : StoreEffect c entry c') (hInv : StoreInvariant c) :
    match entry.operation with
    | some op => KeptLog.Step Pushed.versionNumber (shelfOf c.database) op (shelfOf c'.database)
    | none => shelfOf c'.database = shelfOf c.database := by
  cases hEffect with
  | created type =>
      have hFree : ¬(shelfOf c.database).inUse
          (Sql.nextRowid (c.database.streams.map StreamRow.id)) := by
        rintro ⟨s, hMem, hId⟩
        apply Sql.nextRowid_not_mem (c.database.streams.map StreamRow.id)
        rw [← hId]
        exact List.mem_map_of_mem hMem
      simp only [StoreEntry.operation]
      rw [shelfOf_created]
      exact .create hFree
  | deleted id =>
      simp only [StoreEntry.operation]
      rw [shelfOf_deleted]
      exact .delete
  | pushed streamId event hAccepted =>
      have hFits := (insertError_newEventRow_iff hInv event).mp hAccepted
      simp only [StoreEntry.operation]
      rw [shelfOf_pushed, pushedOf_newEventRow]
      refine .append ?_
      show event.version.toInt = _
      rw [hFits.1]
      simp [shelfOf]
  | refused streamId event error hRefused => simp only [StoreEntry.operation]
  | read request reply hRead =>
      cases request <;> simp_all [StoreRequest.isRead, StoreEntry.operation]

/-- What holds of the file between two requests, whoever looks at it. -/
def FileInvariant (file : Database) : Prop := ∀ keys, StoreInvariant ⟨file, keys, none⟩

theorem fileInvariant_of_connection {c : Connection} (hInv : StoreInvariant c) :
    FileInvariant c.database :=
  fun _ => ⟨⟨hInv.ready.schema, rfl⟩, hInv.streamIds, hInv.numbered⟩

section

variable {π : Type} [DecidableEq π] {system system' : System π} {label : SystemLabel π}

/-- One step of the system is one step of the logs, or none. -/
theorem SystemStep.shelf (hStep : SystemStep system label system')
    (hInv : FileInvariant system.file) :
    FileInvariant system'.file ∧
      match label.operation with
      | some op => KeptLog.Step Pushed.versionNumber (shelfOf system.file) op
          (shelfOf system'.file)
      | none => shelfOf system'.file = shelfOf system.file := by
  cases hStep with
  | started hNew hInit =>
      rw [eq_of_initDb_some hInit]
      exact ⟨hInv, rfl⟩
  | ended => exact ⟨hInv, rfl⟩
  | @served process keys entry c plan faults hOpen hStep =>
      rcases failingStep_cases (hInv keys).ready hStep with hServed | ⟨⟨error, hReply⟩, rfl⟩
      · have hEffect := storeStep_effect (hInv keys).ready hServed
        exact ⟨fileInvariant_of_connection (hEffect.invariant (hInv keys)),
          hEffect.shelf (hInv keys)⟩
      -- A request whose statement failed stands for no operation.
      · have hNone : entry.operation = none := by
          rw [StoreEntry.operation, hReply]
          cases entry.request <;> rfl
        refine ⟨hInv, ?_⟩
        simp only [SystemLabel.operation, hNone]
  | @projection process keys request c hOpen hStep =>
      have hStore := hInv keys
      cases projectionStep_effect hStore.ready hStep with
      | created data type => exact ⟨fun keys => ⟨⟨hStore.ready.schema, rfl⟩, hStore.streamIds,
          hStore.numbered⟩, rfl⟩
      | deleted id => exact ⟨fun keys => ⟨⟨hStore.ready.schema, rfl⟩, hStore.streamIds,
          hStore.numbered⟩, rfl⟩
  | @cutOff process keys entry c plan completed hOpen hStep =>
      have hStore : StoreInvariant (system.connection keys) := hInv keys
      have hEffect := storeStep_effect hStore.ready hStep
      have hFile := cutOff_eq hStore.ready completed hStep
      by_cases hAll : Completed entry.request completed
      · rw [if_pos hAll] at hFile
        simp only [SystemLabel.operation, if_pos hAll, hFile]
        exact ⟨fileInvariant_of_connection (hEffect.invariant hStore), hEffect.shelf hStore⟩
      · rw [if_neg hAll] at hFile
        simp only [SystemLabel.operation, if_neg hAll, hFile]
        exact ⟨hInv, rfl⟩

/-- The first process of a system. -/
theorem begun_invariant (first : π) {c₀ : Connection} (hInit : initDb none = .returned () c₀) :
    FileInvariant (System.begun first c₀).file ∧
      shelfOf (System.begun first c₀).file = Shelf.empty := by
  obtain rfl := eq_of_initDb_none hInit
  refine ⟨fileInvariant_of_connection freshConnection_invariant, ?_⟩
  apply Shelf.ext
  · funext streamId
    simp [shelfOf, System.begun, freshConnection, Database.empty, Shelf.empty]
  · rfl

/-- From any file that keeps the invariant, a history of the system is a run of the
logs. -/
theorem system_refines {history : List (SystemLabel π)}
    (hRun : Run SystemStep system history system') (hInv : FileInvariant system.file) :
    FileInvariant system'.file ∧
      Run (KeptLog.Step Pushed.versionNumber) (shelfOf system.file) (operations history)
        (shelfOf system'.file) := by
  have hSimulation : ∃ shelf, Run (KeptLog.Step Pushed.versionNumber) (shelfOf system.file)
      (operations history) shelf ∧ FileInvariant system'.file ∧ shelfOf system'.file = shelf := by
    refine hRun.simulates (fun system shelf => FileInvariant system.file ∧
      shelfOf system.file = shelf) SystemLabel.operation ⟨hInv, rfl⟩ ?_
    rintro system shelf label system' ⟨hInv, rfl⟩ hStep
    obtain ⟨hInv', hShelf⟩ := hStep.shelf hInv
    cases hOperation : label.operation with
    | none =>
        rw [hOperation] at hShelf
        exact ⟨hInv', hShelf⟩
    | some op =>
        rw [hOperation] at hShelf
        exact ⟨_, hShelf, hInv', rfl⟩
  obtain ⟨shelf, hLogs, hInv', rfl⟩ := hSimulation
  exact ⟨hInv', hLogs⟩

/-- What a read through any connection returns. -/
theorem read_eq_log (plan : Plan) {c : Connection} (hInv : StoreInvariant c) {streamId : Int32}
    (hExists : ∃ s ∈ c.database.streams, s.id = streamId.toInt) :
    ∃ events, getEventsByStreamId plan streamId c = .returned events c ∧
      events.map pushedOf = (shelfOf c.database).log streamId.toInt := by
  refine ⟨_, getEvents_eq plan streamId hInv, ?_⟩
  rw [if_pos hExists, List.map_map]
  rfl

/-! ## What holds of every history -/

variable {first : π} {c₀ : Connection} {history : List (SystemLabel π)}

/-- Whatever any number of processes did with a file, including those that ended in the
middle of a request: every process that has it open reads under the id of an existing
stream the pushes that took effect since the latest delete of this id, in their order,
with versions `1, 2, ...`. -/
theorem processes_read_kept (hInit : initDb none = .returned () c₀)
    (hRun : Run SystemStep (System.begun first c₀) history system) (plan : Plan) (keys : Bool)
    (streamId : Int32) (hExists : ∃ s ∈ system.file.streams, s.id = streamId.toInt) :
    ∃ events, getEventsByStreamId plan streamId (system.connection keys) =
        .returned events (system.connection keys) ∧
      events.map pushedOf = keptPushes streamId.toInt history ∧
      events.map (fun event => event.version.toInt) = upTo events.length := by
  obtain ⟨hInv₀, hEmpty⟩ := begun_invariant first hInit
  obtain ⟨hInv, hLogs⟩ := system_refines hRun hInv₀
  rw [hEmpty] at hLogs
  obtain ⟨events, hRead, hEvents⟩ := read_eq_log plan (hInv keys) hExists
  refine ⟨events, hRead, ?_, ?_⟩
  · rw [hEvents, keptPushes]
    exact log_eq_kept hLogs streamId.toInt
  · have hVersions := map_version_log hLogs streamId.toInt
    rw [← hEvents, List.map_map, List.length_map] at hVersions
    exact hVersions

/-- The first event of stream 1. -/
def firstEvent : Event := ⟨0, 1, "UserCreated", "{}", 1⟩

/-- A server, `false`, has the file open, and a shell, `true`, may have. -/
def openBy (shell : Option Bool) : Bool → Option Bool
  | false => some true
  | true => shell

def createdFile : Database := { freshConnection.database with streams := [⟨1, "User", 0⟩] }

/-- A request of a process whose switch is `keys`, without a fault. -/
theorem served_step {file file' : Database} {shell : Option Bool} {process keys : Bool}
    {entry : StoreEntry} (hOpen : openBy shell process = some keys)
    (hStep : FailingStep ⟨.streamsOuter, .rowid⟩ (fun _ => none) ⟨file, keys, none⟩ entry
      ⟨file', keys, none⟩) :
    SystemStep ⟨file, openBy shell⟩ (.served process entry) ⟨file', openBy shell⟩ :=
  @SystemStep.served Bool _ ⟨file, openBy shell⟩ process keys entry _ _ _ hOpen hStep

/-- The server creates stream 1. -/
theorem createdFile_run : Run SystemStep (System.begun false freshConnection)
    [.served false ⟨.createStream "User", .ok .done, some 1⟩] ⟨createdFile, openBy none⟩ := by
  have hOpen : System.begun false freshConnection = ⟨freshConnection.database, openBy none⟩ := by
    rw [System.begun, System.mk.injEq]
    exact ⟨rfl, funext fun process => by cases process <;> rfl⟩
  rw [hOpen]
  exact .single (served_step rfl ⟨rfl, rfl, rfl⟩)

theorem shell_started (file : Database) :
    SystemStep ⟨file, openBy none⟩ (.started true) ⟨file, openBy (some false)⟩ := by
  have hOpen : Function.update (openBy none) true (some false) = openBy (some false) := by
    funext process
    cases process <;> rfl
  rw [← hOpen]
  exact .started rfl rfl

/-- A shell starts, and ends while it pushes the first event, whose row is written. -/
theorem cutOff_run : Run SystemStep ⟨createdFile, openBy none⟩
    [.started true, .cutOff true ⟨.pushEvent 1 firstEvent, .ok .done, none⟩ 1]
    ⟨oneEventConnection.database, openBy none⟩ := by
  have hOpen : Function.update (openBy (some false)) true none = openBy none := by
    funext process
    cases process <;> rfl
  have hCutOff := @SystemStep.cutOff Bool _ ⟨createdFile, openBy (some false)⟩ true false
    ⟨.pushEvent 1 firstEvent, .ok .done, none⟩ _ ⟨.streamsOuter, .rowid⟩ 1 rfl ⟨rfl, rfl, rfl⟩
  rw [hOpen] at hCutOff
  exact .head (shell_started createdFile) (.single hCutOff)

theorem oneEvent_exists :
    ∃ s ∈ oneEventConnection.database.streams, s.id = firstEvent.streamId.toInt :=
  ⟨⟨1, "User", 0⟩, by decide, rfl⟩

/-- The event of the shell that ended is read, as the one push that took effect. -/
theorem processes_read_kept_cutOff :
    ∃ events, getEventsByStreamId ⟨.streamsOuter, .rowid⟩ 1 oneEventConnection =
        .returned events oneEventConnection ∧
      events.map pushedOf = keptPushes 1 ([.served false ⟨.createStream "User", .ok .done, some 1⟩,
        .started true, .cutOff true ⟨.pushEvent 1 firstEvent, .ok .done, none⟩ 1] :
          List (SystemLabel Bool)) ∧
      events.map (fun event => event.version.toInt) = upTo events.length :=
  processes_read_kept initDb_none (createdFile_run.append cutOff_run) ⟨.streamsOuter, .rowid⟩
    true 1 oneEvent_exists

/-- A push that any process saw acknowledged is at the place of its version, in every
later read, until its stream is deleted: no crash, failed request or push of another
process takes it away or puts another one there. -/
theorem acknowledged_push_stays (hInit : initDb none = .returned () c₀)
    {before after : List (SystemLabel π)} {process : π} {j : Int32} {event : Event}
    {value : StoreReply} {created : Option Int}
    (hRun : Run SystemStep (System.begun first c₀)
      (before ++ .served process ⟨.pushEvent j event, .ok value, created⟩ :: after) system)
    (hKept : Op.delete event.streamId.toInt ∉ operations after)
    (hExists : ∃ s ∈ system.file.streams, s.id = event.streamId.toInt)
    (plan : Plan) (keys : Bool) :
    ∃ events, getEventsByStreamId plan event.streamId (system.connection keys) =
        .returned events (system.connection keys) ∧
      (events.map pushedOf)[(event.version.toInt - 1).toNat]? = some (pushedOf event) := by
  obtain ⟨hInv₀, hEmpty⟩ := begun_invariant first hInit
  obtain ⟨hInv, hLogs⟩ := system_refines hRun hInv₀
  obtain ⟨events, hRead, hEvents⟩ := read_eq_log plan (hInv keys) hExists
  have hOperations : operations
      (before ++ .served process ⟨.pushEvent j event, .ok value, created⟩ :: after) =
        operations before ++ .append event.streamId.toInt (pushedOf event) ::
          operations after := by
    rw [operations, List.filterMap_append, List.filterMap_cons]
    rfl
  rw [hOperations] at hLogs
  refine ⟨events, hRead, ?_⟩
  rw [hEvents]
  exact getElem?_of_append hLogs hKept

/-- A shell pushes the first event, and the server reads it. -/
theorem acknowledged_push_stays_shell :
    ∃ events, getEventsByStreamId ⟨.streamsOuter, .rowid⟩ 1 oneEventConnection =
        .returned events oneEventConnection ∧
      (events.map pushedOf)[0]? = some (pushedOf firstEvent) := by
  have hPushed : SystemStep ⟨createdFile, openBy (some false)⟩
      (.served true ⟨.pushEvent 1 firstEvent, .ok .done, none⟩)
      ⟨oneEventConnection.database, openBy (some false)⟩ :=
    served_step rfl ⟨rfl, rfl, rfl⟩
  have hRun := (createdFile_run.append (.single (shell_started createdFile))).append
    (.single hPushed)
  exact acknowledged_push_stays initDb_none hRun (by simp [operations]) oneEvent_exists
    ⟨.streamsOuter, .rowid⟩ true

/-- Of two pushes of one version to one stream id that took effect, acknowledged or
not and by whichever processes, the stream was deleted in between. -/
theorem one_push_per_version (hInit : initDb none = .returned () c₀)
    {before between after : List (SystemLabel π)} {label₁ label₂ : SystemLabel π}
    {streamId : Int} {entry₁ entry₂ : Pushed}
    (hRun : Run SystemStep (System.begun first c₀)
      (before ++ label₁ :: (between ++ label₂ :: after)) system)
    (hFirst : label₁.operation = some (.append streamId entry₁))
    (hSecond : label₂.operation = some (.append streamId entry₂))
    (hVersion : entry₁.version = entry₂.version) :
    Op.delete streamId ∈ operations between := by
  obtain ⟨hInv₀, hEmpty⟩ := begun_invariant first hInit
  have hSplit : before ++ label₁ :: (between ++ label₂ :: after) =
      (before ++ label₁ :: (between ++ [label₂])) ++ after := by simp
  rw [hSplit] at hRun
  obtain ⟨middle, hPrefix, -⟩ := hRun.exists_of_append
  obtain ⟨-, hLogs⟩ := system_refines hPrefix hInv₀
  have hOperations : operations (before ++ label₁ :: (between ++ [label₂])) =
      operations before ++ .append streamId entry₁ ::
        (operations between ++ [.append streamId entry₂]) := by
    simp [operations, List.filterMap_append, hFirst, hSecond]
  rw [hOperations] at hLogs
  exact delete_between_appends hLogs (congrArg Int32.toInt hVersion)

/-- The first event is pushed twice, and the stream deleted and created in between. -/
theorem one_push_per_version_deleted :
    Op.delete 1 ∈ operations ([.served false ⟨.deleteStream 1, .ok .done, none⟩,
      .served false ⟨.createStream "User", .ok .done, some 1⟩] : List (SystemLabel Bool)) := by
  have hPushed : SystemStep ⟨createdFile, openBy none⟩
      (.served false ⟨.pushEvent 1 firstEvent, .ok .done, none⟩)
      ⟨oneEventConnection.database, openBy none⟩ := served_step rfl ⟨rfl, rfl, rfl⟩
  have hDeleted : SystemStep ⟨oneEventConnection.database, openBy none⟩
      (.served false ⟨.deleteStream 1, .ok .done, none⟩)
      ⟨freshConnection.database, openBy none⟩ := served_step rfl ⟨rfl, rfl, rfl⟩
  have hCreated : SystemStep ⟨freshConnection.database, openBy none⟩
      (.served false ⟨.createStream "User", .ok .done, some 1⟩) ⟨createdFile, openBy none⟩ :=
    served_step rfl ⟨rfl, rfl, rfl⟩
  have hRun := createdFile_run.append
    (.head hPushed (.head hDeleted (.head hCreated (.single hPushed))))
  exact one_push_per_version initDb_none hRun rfl rfl rfl

/-! ## Retrying a push -/

section

variable {c c' : Connection} {plan : Plan} {event : Event} {j : Int32}
  {reply : Except Exn StoreReply} {created : Option Int}

theorem length_shelfOf (db : Database) (streamId : Int) :
    ((shelfOf db).log streamId).length = (eventsOf streamId db.events).length :=
  List.length_map _

/-- A push of the next version of an existing stream is taken. -/
theorem served_next (hInv : StoreInvariant c)
    (hExists : ∃ s ∈ c.database.streams, s.id = event.streamId.toInt)
    (hNext : event.version.toInt =
      ((shelfOf c.database).log event.streamId.toInt).length + 1)
    (hStep : StoreStep plan c ⟨.pushEvent j event, reply, created⟩ c') :
    reply = .ok .done ∧ c'.database.streams = c.database.streams ∧
      (shelfOf c'.database).log event.streamId.toInt =
        (shelfOf c.database).log event.streamId.toInt ++ [pushedOf event] := by
  rw [length_shelfOf] at hNext
  have hAccepted : insertError c (newEventRow c.database event) = none :=
    (insertError_newEventRow_iff hInv event).mpr ⟨hNext, fun _ => hExists⟩
  have hPush := pushEvent_apply j event hInv.ready
  rw [hAccepted] at hPush
  have hServe : serve plan (.pushEvent j event) c = .returned .done _ :=
    Prog.bind_of_returned hPush
  obtain ⟨rfl, rfl, -⟩ := hStep.eq_of_returned hServe
  refine ⟨rfl, rfl, ?_⟩
  rw [shelfOf_pushed, pushedOf_newEventRow]
  exact Function.update_self _ _ _

/-- A push whose event is already the last one of its stream is told so. -/
theorem served_again (hInv : StoreInvariant c)
    (hLast : event.version.toInt = ((shelfOf c.database).log event.streamId.toInt).length)
    (hSome : (shelfOf c.database).log event.streamId.toInt ≠ [])
    (hStep : StoreStep plan c ⟨.pushEvent j event, reply, created⟩ c') :
    reply = .error (.runtimeError "DB ERROR: Event version mismatch.") ∧ c' = c := by
  rw [← List.length_pos_iff, length_shelfOf] at hSome
  rw [length_shelfOf] at hLast
  have hError : insertError c (newEventRow c.database event) =
      some (.raised "Event version mismatch.") := by
    rw [insertError_eq_refusal hInv.ready hInv.numbered, refusal]
    show (if event.version.toInt = (eventsOf event.streamId.toInt c.database.events).length + 1
      then _ else if (eventsOf event.streamId.toInt c.database.events).length = 0
        then _ else _) = _
    rw [if_neg (by omega), if_neg (by omega)]
  have hPush := pushEvent_apply j event hInv.ready
  rw [hError] at hPush
  have hServe : serve plan (.pushEvent j event) c =
      .threw (.runtimeError "DB ERROR: Event version mismatch.") c := Prog.bind_of_threw hPush
  obtain ⟨rfl, rfl, -⟩ := hStep.eq_of_threw hServe
  exact ⟨rfl, rfl⟩

end

/-- A push of the next version of a stream is tried any number of times, by any
processes, each of which may have failed or ended in the middle of it, while nothing
else touches the stream.  When it is then tried once more and its statement does not
fail, the event is stored once, as the last one of the stream; and the reply tells
whether one of the earlier attempts had stored it: it is an acknowledgement if none
did, and the version mismatch if one did. -/
theorem retried_push_stored_once (hInit : initDb none = .returned () c₀)
    {before attempts : List (SystemLabel π)} {event : Event}
    (hBefore : Run SystemStep (System.begun first c₀) before system)
    (hNext : event.version.toInt =
      (eventsOf event.streamId.toInt system.file.events).length + 1)
    (hAttempts : Run SystemStep system attempts system')
    (hOnly : ∀ op ∈ operations attempts, Touches event.streamId.toInt op →
      op = .append event.streamId.toInt (pushedOf event))
    (hExists : ∃ s ∈ system'.file.streams, s.id = event.streamId.toInt)
    {plan : Plan} {keys : Bool} {j : Int32} {reply : Except Exn StoreReply}
    {created : Option Int} {c : Connection}
    (hRetry : StoreStep plan (system'.connection keys)
      ⟨.pushEvent j event, reply, created⟩ c) :
    (∃ events, getEventsByStreamId plan event.streamId c = .returned events c ∧
      events.map pushedOf =
        (eventsOf event.streamId.toInt system.file.events).map
          (fun row => pushedOf row.toEvent) ++ [pushedOf event]) ∧
    ((reply = .ok .done ∧ ∀ op ∈ operations attempts, ¬Touches event.streamId.toInt op) ∨
      (reply = .error (.runtimeError "DB ERROR: Event version mismatch.") ∧
        Op.append event.streamId.toInt (pushedOf event) ∈ operations attempts)) := by
  obtain ⟨hInv₀, -⟩ := begun_invariant first hInit
  obtain ⟨hInv, -⟩ := system_refines hBefore hInv₀
  obtain ⟨hInv', hLogs⟩ := system_refines hAttempts hInv
  have hStore : StoreInvariant (system'.connection keys) := hInv' keys
  have hEffect := storeStep_effect hStore.ready hRetry
  rw [← length_shelfOf] at hNext
  have hVersion : Pushed.versionNumber (pushedOf event) =
      ((shelfOf system.file).log event.streamId.toInt).length + 1 := hNext
  have hRead := @read_eq_log plan c (hEffect.invariant hStore) event.streamId
  rcases log_of_retries hLogs hVersion hOnly with ⟨hSame, hUntouched⟩ | ⟨hStored, hMem⟩
  · have hNext' : event.version.toInt =
        ((shelfOf system'.file).log event.streamId.toInt).length + 1 := by
      rw [hSame, hNext]
    obtain ⟨rfl, hStreams, hLog⟩ := served_next hStore hExists hNext' hRetry
    obtain ⟨events, hEvents, hEq⟩ := hRead (by rw [hStreams]; exact hExists)
    refine ⟨⟨events, hEvents, ?_⟩, Or.inl ⟨rfl, hUntouched⟩⟩
    rw [hEq, hLog]
    exact congrArg (· ++ [pushedOf event]) hSame
  · have hLast : event.version.toInt =
        ((shelfOf system'.file).log event.streamId.toInt).length := by
      rw [hStored, List.length_append, List.length_singleton, hNext]
      rfl
    have hSome : (shelfOf system'.file).log event.streamId.toInt ≠ [] := by
      rw [hStored]
      exact List.append_ne_nil_of_right_ne_nil _ (List.cons_ne_nil _ _)
    obtain ⟨rfl, rfl⟩ := served_again hStore hLast hSome hRetry
    obtain ⟨events, hEvents, hEq⟩ := hRead hExists
    exact ⟨⟨events, hEvents, hEq.trans hStored⟩, Or.inr ⟨rfl, hMem⟩⟩

/-- The shell ended while it pushed the first event; the server tries once more and
is told that the event is there. -/
theorem retried_push_stored_once_cutOff :
    (∃ events, getEventsByStreamId ⟨.streamsOuter, .rowid⟩ 1 oneEventConnection =
        .returned events oneEventConnection ∧
      events.map pushedOf = [] ++ [pushedOf firstEvent]) ∧
    ((Except.error (.runtimeError "DB ERROR: Event version mismatch.") =
        (.ok .done : Except Exn StoreReply) ∧
      ∀ op ∈ operations ([.started true,
          .cutOff true ⟨.pushEvent 1 firstEvent, .ok .done, none⟩ 1] : List (SystemLabel Bool)),
        ¬Touches 1 op) ∨
      (Except.error (.runtimeError "DB ERROR: Event version mismatch.") =
          (.error (.runtimeError "DB ERROR: Event version mismatch.") : Except Exn StoreReply) ∧
        Op.append 1 (pushedOf firstEvent) ∈ operations ([.started true,
          .cutOff true ⟨.pushEvent 1 firstEvent, .ok .done, none⟩ 1] :
            List (SystemLabel Bool)))) := by
  have hOnly : ∀ op ∈ operations ([.started true,
      .cutOff true ⟨.pushEvent 1 firstEvent, .ok .done, none⟩ 1] : List (SystemLabel Bool)),
      Touches firstEvent.streamId.toInt op →
        op = .append firstEvent.streamId.toInt (pushedOf firstEvent) := by
    intro op hMem _
    exact List.mem_singleton.mp hMem
  have hRetry : StoreStep ⟨.streamsOuter, .rowid⟩ oneEventConnection
      ⟨.pushEvent 1 firstEvent,
        .error (.runtimeError "DB ERROR: Event version mismatch."), none⟩
      oneEventConnection := ⟨rfl, rfl, rfl⟩
  exact retried_push_stored_once initDb_none createdFile_run rfl cutOff_run hOnly
    oneEvent_exists hRetry

end

end ActionHandler
end Yess
