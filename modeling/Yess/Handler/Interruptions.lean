import Yess.Handler.CrashSafety
import Yess.Handler.DeleteAtomicity

namespace Yess
namespace ActionHandler

open Foundation Db

/-!
# Requests that fail or are cut off

Each statement of a request may fail, because the disk is full or another process has
locked the file (`serveFailing`), and the process may end between any two of them
(`cutOff`).  Neither leaves half a request behind: a request whose statement fails
throws and changes nothing (`serveFailing_cases`), and what is in the file after a
process that ended is what was there before the request, or after it (`cutOff_eq`).
-/

/-! ## Statements that fail -/

/-- The call behind a request, where its `n`-th statement has the fault `faults n`. -/
def serveFailing (plan : Plan) (faults : Nat → Option Fault) :
    StoreRequest → DbProg StoreReply
  | .createStream type => do
      failing (faults 0) (createStream type)
      pure .done
  | .deleteStream id => do
      removeFailing ⟨faults 0, faults 1, faults 2, faults 3⟩ id
      pure .done
  | .pushEvent _ event => do
      Prog.tryCatch (failing (faults 0) (attachEvent event)) fun ex =>
        let err := "DB ERROR: " ++ ex.what
        Prog.throw (.runtimeError err)
      pure .done
  | .getAllStreams => do pure (.streams (← failing (faults 0) getAllStreams))
  | .getStreamsByType type => do
      pure (.streams (← failing (faults 0) (getStreamsByType type)))
  | .getStream id => do pure (.stream (← failing (faults 0) (getStream id)))
  | .getEventsByStreamId id => do
      pure (.events (← failing (faults 0) (getEventsByStreamId plan id)))
  | .getEventsByStreamType type => do
      pure (.events (← failing (faults 0) (getEventsByStreamType plan type)))

theorem serveFailing_of_none (plan : Plan) {faults : Nat → Option Fault}
    (hNone : ∀ n, faults n = none) (request : StoreRequest) :
    serveFailing plan faults request = serve plan request := by
  cases request with
  | deleteStream id =>
      have hRemove : RemoveFaults.None ⟨faults 0, faults 1, faults 2, faults 3⟩ :=
        ⟨hNone 0, hNone 1, hNone 2, hNone 3⟩
      rw [serveFailing, removeFailing_of_none hRemove]
      rfl
  | createStream type => rw [serveFailing, hNone]; rfl
  | pushEvent streamId event => rw [serveFailing, hNone]; rfl
  | getAllStreams => rw [serveFailing, hNone]; rfl
  | getStreamsByType type => rw [serveFailing, hNone]; rfl
  | getStream id => rw [serveFailing, hNone]; rfl
  | getEventsByStreamId id => rw [serveFailing, hNone]; rfl
  | getEventsByStreamType type => rw [serveFailing, hNone]; rfl

/-- A statement with a fault, outside a transaction. -/
theorem failing_of_idle {α : Type} (fault : Fault) (statement : DbProg α) {c : Connection}
    (hIdle : c.rollback = none) : failing (some fault) statement c = .threw fault.error c := by
  have hUndo : c.undo = c := by rw [Connection.undo, hIdle]
  show Outcome.threw fault.error (if fault.rollsBack then c.undo else c) = _
  rw [hUndo, ite_self]

/-- A request of one statement. -/
theorem failing_bind_cases {α β : Type} (fault : Option Fault) (statement : DbProg α)
    (k : α → DbProg β) {c : Connection} (hIdle : c.rollback = none) :
    (failing fault statement >>= k) c = (statement >>= k) c ∨
      ∃ error, (failing fault statement >>= k) c = .threw error c := by
  cases fault with
  | none => exact Or.inl rfl
  | some fault =>
      right
      exact ⟨_, Prog.bind_of_threw (failing_of_idle fault statement hIdle)⟩

/-- A request whose statements may fail does what it does without faults, or throws and
leaves the connection as it is. -/
theorem serveFailing_cases (plan : Plan) (faults : Nat → Option Fault) (request : StoreRequest)
    {c : Connection} (hReady : c.Ready) :
    serveFailing plan faults request c = serve plan request c ∨
      ∃ error, serveFailing plan faults request c = .threw error c := by
  have hIdle := hReady.idle
  cases request with
  | createStream type => exact failing_bind_cases _ _ _ hIdle
  | deleteStream id =>
      by_cases hNone : RemoveFaults.None ⟨faults 0, faults 1, faults 2, faults 3⟩
      · left
        rw [serveFailing, removeFailing_of_none hNone]
        rfl
      · right
        obtain ⟨error, hThrew⟩ := removeFailing_of_some hNone id hIdle
        exact ⟨error, Prog.bind_of_threw hThrew⟩
  | pushEvent streamId event =>
      cases hFault : faults 0 with
      | none =>
          left
          rw [serveFailing, hFault]
          rfl
      | some fault =>
          right
          have hAttach := failing_of_idle fault (attachEvent event) hIdle
          rw [serveFailing, hFault]
          exact ⟨_, Prog.bind_of_threw (Prog.tryCatch_of_threw hAttach)⟩
  | getAllStreams => exact failing_bind_cases _ _ _ hIdle
  | getStreamsByType type => exact failing_bind_cases _ _ _ hIdle
  | getStream id => exact failing_bind_cases _ _ _ hIdle
  | getEventsByStreamId id => exact failing_bind_cases _ _ _ hIdle
  | getEventsByStreamType type => exact failing_bind_cases _ _ _ hIdle

/-- One request is served by a call whose statements may fail. -/
def FailingStep (plan : Plan) (faults : Nat → Option Fault) (c : Connection)
    (entry : StoreEntry) (c' : Connection) : Prop :=
  (serveFailing plan faults entry.request c).result = some entry.reply ∧
    (serveFailing plan faults entry.request c).state = some c' ∧
    entry.created = createdId c entry.request entry.reply

/-- Such a call is a step of the store, or an error and no change. -/
theorem failingStep_cases {plan : Plan} {faults : Nat → Option Fault} {c c' : Connection}
    {entry : StoreEntry} (hReady : c.Ready) (hStep : FailingStep plan faults c entry c') :
    StoreStep plan c entry c' ∨ (∃ error, entry.reply = .error error) ∧ c' = c := by
  obtain ⟨hResult, hState, hCreated⟩ := hStep
  rcases serveFailing_cases plan faults entry.request hReady with hSame | ⟨error, hThrew⟩
  · rw [hSame] at hResult hState
    exact Or.inl ⟨hResult, hState, hCreated⟩
  · rw [hThrew, Outcome.result_threw, Option.some.injEq] at hResult
    rw [hThrew, Outcome.state_threw, Option.some.injEq] at hState
    exact Or.inr ⟨⟨error, hResult.symm⟩, hState.symm⟩

/-! ## Processes that end -/

/-- The statements of a request that write, with those that begin and commit. -/
def writeStatements : StoreRequest → List (DbProg Unit)
  | .createStream type => [Db.create ⟨0, type, 0⟩]
  | .deleteStream id =>
      [beginTransaction, deleteEvents id, deleteStreamRow id, commitTransaction]
  | .pushEvent _ event => [attachEvent event]
  | _ => []

/-- What is in the file when the process ends after so many of these statements. -/
def cutOff (request : StoreRequest) (completed : Nat) (c : Connection) : Database :=
  ((Prog.sequence ((writeStatements request).take completed) c).state.map durable).getD
    c.database

/-- All statements of the request that write are completed. -/
def Completed (request : StoreRequest) (completed : Nat) : Prop :=
  (writeStatements request).length ≤ completed

instance (request : StoreRequest) (completed : Nat) : Decidable (Completed request completed) :=
  inferInstanceAs (Decidable (_ ≤ _))

/-- What a crash leaves is what a rollback would. -/
theorem durable_eq_undo (c : Connection) : durable c = c.undo.database := by
  obtain ⟨database, foreignKeys, rollback⟩ := c
  cases rollback <;> rfl

theorem durable_of_idle {c : Connection} (hIdle : c.rollback = none) :
    durable c = c.database := by
  rw [durable, hIdle]
  rfl

theorem cutOff_of_state {request : StoreRequest} {completed : Nat} {c t : Connection}
    (hState : (Prog.sequence ((writeStatements request).take completed) c).state = some t) :
    cutOff request completed c = durable t := by
  rw [cutOff, hState]
  rfl

/-- However far a list of statements comes within a transaction, all of it can be
undone. -/
theorem sequence_keepsOpen {c t : Connection} {statements : List (DbProg Unit)}
    (hIdle : c.rollback = none) (hStatements : ∀ p ∈ statements, KeepsOpen c p)
    (hOpen : OpenFrom c t) :
    ∃ t', (Prog.sequence statements t).state = some t' ∧ t'.undo = c := by
  induction statements generalizing t with
  | nil => exact ⟨t, rfl, hOpen.undo_eq hIdle⟩
  | cons p statements ih =>
      rcases hStatements p List.mem_cons_self t hOpen with
        ⟨_, t', hReturned, hOpen'⟩ | ⟨error, t', hThrew, hUndone⟩
      · rw [Prog.sequence, Prog.bind_of_returned hReturned]
        exact ih (fun q hMem => hStatements q (List.mem_cons_of_mem _ hMem)) hOpen'
      · rw [Prog.sequence, Prog.bind_of_threw hThrew]
        exact ⟨t', rfl, hUndone⟩

section

variable {c : Connection}

/-- Before `COMMIT`, a delete has changed nothing for good. -/
theorem cutOff_delete_of_lt (hReady : c.Ready) (id : Int32) {completed : Nat}
    (hLess : completed < 4) :
    cutOff (.deleteStream id) completed c = c.database := by
  have hIdle := hReady.idle
  cases completed with
  | zero => exact (cutOff_of_state rfl).trans (durable_of_idle hIdle)
  | succ more =>
      have hBegin : beginTransaction c = .returned () { c with rollback := some c.database } := by
        simp only [beginTransaction, hIdle]
      have hTake : (writeStatements (.deleteStream id)).take (more + 1) =
          beginTransaction :: [deleteEvents id, deleteStreamRow id].take more := by
        show _ :: ([deleteEvents id, deleteStreamRow id] ++ [commitTransaction]).take more = _
        rw [List.take_append_of_le_length (by simp; omega)]
      have hInside : ∀ p ∈ [deleteEvents id, deleteStreamRow id].take more, KeepsOpen c p := by
        intro p hMem
        have hBoth := List.mem_of_mem_take hMem
        simp only [List.mem_cons, List.not_mem_nil, or_false] at hBoth
        rcases hBoth with rfl | rfl
        · exact keepsOpen_deleteEvents hIdle id
        · exact keepsOpen_deleteStreamRow hIdle id
      obtain ⟨t, hState, hUndone⟩ :=
        @sequence_keepsOpen c { c with rollback := some c.database } _ hIdle hInside ⟨rfl, rfl⟩
      have hAll : (Prog.sequence ((writeStatements (.deleteStream id)).take (more + 1)) c).state =
          some t := by
        rw [hTake, Prog.sequence, Prog.bind_of_returned hBegin, hState]
      rw [cutOff_of_state hAll, durable_eq_undo, hUndone]

/-- After `COMMIT`, the delete is there to stay. -/
theorem cutOff_delete_of_le (hReady : c.Ready) (id : Int32) {completed : Nat}
    (hAll : 4 ≤ completed) :
    cutOff (.deleteStream id) completed c = { c.database with
      events := c.database.events.filter fun row => row.streamId ≠ id.toInt
      streams := c.database.streams.filter fun row => row.id ≠ id.toInt } := by
  have hIdle := hReady.idle
  have hBegin : beginTransaction c = .returned () { c with rollback := some c.database } := by
    simp only [beginTransaction, hIdle]
  have hDeletes := @deletes_apply id { c with rollback := some c.database } hReady.schema
  have hSequence : (Prog.sequence (writeStatements (.deleteStream id)) c).state =
      some { c with database := { c.database with
        events := c.database.events.filter fun row => row.streamId ≠ id.toInt
        streams := c.database.streams.filter fun row => row.id ≠ id.toInt } } := by
    show ((do
      beginTransaction
      deleteEvents id
      deleteStreamRow id
      commitTransaction
      pure () : DbProg Unit) c).state = _
    rw [Prog.bind_of_returned hBegin, ← bind_assoc, Prog.bind_of_returned hDeletes]
    simp only [commitTransaction, Prog.bind_apply, Prog.pure_apply, Outcome.state_returned,
      hIdle]
  have hTake : (writeStatements (.deleteStream id)).take completed =
      writeStatements (.deleteStream id) := List.take_of_length_le hAll
  have hDurable : cutOff (.deleteStream id) completed c = durable { c with database :=
      { c.database with
        events := c.database.events.filter fun row => row.streamId ≠ id.toInt
        streams := c.database.streams.filter fun row => row.id ≠ id.toInt } } :=
    cutOff_of_state (by rw [hTake, hSequence])
  rw [hDurable]
  exact durable_of_idle hIdle

/-- A request of one statement, cut off before it or after it. -/
theorem cutOff_single (hReady : c.Ready) {request : StoreRequest} {statement : DbProg Unit} {t : Connection}
    (hStatements : writeStatements request = [statement])
    (hState : (statement c).state = some t) (hIdle : t.rollback = none) (completed : Nat) :
    cutOff request completed c = if Completed request completed then t.database
      else c.database := by
  cases completed with
  | zero =>
      rw [if_neg (by simp [Completed, hStatements])]
      exact (cutOff_of_state rfl).trans (durable_of_idle hReady.idle)
  | succ more =>
      have hSequence : (Prog.sequence ((writeStatements request).take (more + 1)) c).state =
          some t := by
        rw [hStatements, List.take_succ_cons, List.take_nil, Prog.sequence]
        have hLast : (statement >>= fun _ => Prog.sequence []) = statement := bind_pure statement
        rw [hLast, hState]
      rw [if_pos (by simp [Completed, hStatements]), cutOff_of_state hSequence,
        durable_of_idle hIdle]

/-- The file after a process that ended during a request is the one before the request,
or the one after it when the last statement was completed. -/
theorem cutOff_eq {plan : Plan} {c' : Connection} {entry : StoreEntry} (hReady : c.Ready)
    (completed : Nat) (hStep : StoreStep plan c entry c') :
    cutOff entry.request completed c =
      if Completed entry.request completed then c'.database else c.database := by
  cases storeStep_effect hReady hStep with
  | created type =>
      have hState : (Db.create ⟨0, type, 0⟩ c).state = some _ :=
        congrArg Outcome.state (create_apply ⟨0, type, 0⟩ hReady)
      have hStatements : writeStatements (.createStream type) = [Db.create ⟨0, type, 0⟩] := rfl
      exact cutOff_single hReady hStatements hState hReady.idle completed
  | deleted id =>
      by_cases hAll : 4 ≤ completed
      · exact (cutOff_delete_of_le hReady id hAll).trans (if_pos hAll).symm
      · exact (cutOff_delete_of_lt hReady id (by omega)).trans (if_neg hAll).symm
  | pushed streamId event hAccepted =>
      have hAttach := attachEvent_apply event hReady
      rw [hAccepted] at hAttach
      have hStatements : writeStatements (.pushEvent streamId event) = [attachEvent event] := rfl
      exact cutOff_single hReady hStatements (congrArg Outcome.state hAttach) hReady.idle completed
  | refused streamId event error hRefused =>
      have hAttach := attachEvent_apply event hReady
      rw [hRefused] at hAttach
      have hStatements : writeStatements (.pushEvent streamId event) = [attachEvent event] := rfl
      exact cutOff_single hReady hStatements (congrArg Outcome.state hAttach) hReady.idle completed
  | read request reply hRead =>
      have hNone : writeStatements request = [] := by
        cases request <;> simp_all [StoreRequest.isRead, writeStatements]
      have hState : (Prog.sequence ((writeStatements request).take completed) c).state =
          some c := by
        rw [hNone, List.take_nil]
        rfl
      rw [ite_self, cutOff_of_state hState, durable_of_idle hReady.idle]

/-! ## All or nothing -/

/-- On the tables of the store every request comes back. -/
theorem serve_comes_back (plan : Plan) (request : StoreRequest) (hReady : c.Ready) :
    ∃ reply c', (serve plan request c).result = some reply ∧
      (serve plan request c).state = some c' := by
  by_cases hRead : request.isRead = true
  · obtain ⟨value, hServe⟩ := serve_read plan hReady hRead
    exact ⟨_, _, congrArg Outcome.result hServe, congrArg Outcome.state hServe⟩
  · cases request with
    | createStream type =>
        have hServe : serve plan (.createStream type) c = .returned .done _ :=
          Prog.bind_of_returned (create_apply ⟨0, type, 0⟩ hReady)
        exact ⟨_, _, congrArg Outcome.result hServe, congrArg Outcome.state hServe⟩
    | deleteStream id =>
        have hServe : serve plan (.deleteStream id) c = .returned .done _ :=
          Prog.bind_of_returned (remove_apply id hReady)
        exact ⟨_, _, congrArg Outcome.result hServe, congrArg Outcome.state hServe⟩
    | pushEvent streamId event =>
        have hPush := pushEvent_apply streamId event hReady
        cases hError : insertError c (newEventRow c.database event) with
        | none =>
            simp only [hError] at hPush
            have hServe : serve plan (.pushEvent streamId event) c = .returned .done _ :=
              Prog.bind_of_returned hPush
            exact ⟨_, _, congrArg Outcome.result hServe, congrArg Outcome.state hServe⟩
        | some error =>
            simp only [hError] at hPush
            have hServe : serve plan (.pushEvent streamId event) c = .threw _ c :=
              Prog.bind_of_threw hPush
            exact ⟨_, _, congrArg Outcome.result hServe, congrArg Outcome.state hServe⟩
    | getAllStreams => exact absurd rfl hRead
    | getStreamsByType type => exact absurd rfl hRead
    | getStream id => exact absurd rfl hRead
    | getEventsByStreamId id => exact absurd rfl hRead
    | getEventsByStreamType type => exact absurd rfl hRead

/-- Every request about streams and events on every reachable store is all or nothing.
Whichever of its statements fail, it is served as without faults or throws and leaves
everything as it was; and after however many of its statements that write the process ends,
the file is the one before the request, or the one after it when all of them were
completed. -/
theorem requests_atomic (hReachable : Reachable c) (plan : Plan) (request : StoreRequest) :
    ∃ c', (serve plan request c).state = some c' ∧
      (∀ faults, serveFailing plan faults request c = serve plan request c ∨
        ∃ error, serveFailing plan faults request c = .threw error c) ∧
      ∀ completed, cutOff request completed c =
        if Completed request completed then c'.database else c.database := by
  have hReady := hReachable.invariant.store.ready
  obtain ⟨reply, c', hReply, hState⟩ := serve_comes_back plan request hReady
  have hStep : StoreStep plan c ⟨request, reply, createdId c request reply⟩ c' :=
    ⟨hReply, hState, rfl⟩
  exact ⟨c', hState, fun faults => serveFailing_cases plan faults request hReady,
    fun completed => cutOff_eq hReady completed hStep⟩

theorem requests_atomic_delete :
    ∃ c', (serve ⟨.streamsOuter, .rowid⟩ (.deleteStream 1) oneEventConnection).state = some c' ∧
      (∀ faults, serveFailing ⟨.streamsOuter, .rowid⟩ faults (.deleteStream 1)
          oneEventConnection =
            serve ⟨.streamsOuter, .rowid⟩ (.deleteStream 1) oneEventConnection ∨
        ∃ error, serveFailing ⟨.streamsOuter, .rowid⟩ faults (.deleteStream 1)
          oneEventConnection = .threw error oneEventConnection) ∧
      ∀ completed, cutOff (.deleteStream 1) completed oneEventConnection =
        if Completed (.deleteStream 1) completed then c'.database
          else oneEventConnection.database :=
  requests_atomic oneEventConnection_reachable ⟨.streamsOuter, .rowid⟩ (.deleteStream 1)

end

end ActionHandler
end Yess
