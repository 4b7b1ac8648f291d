import Yess.Db.SqliteStreamRepo

namespace Yess
namespace Db

open Foundation

/-!
# Statements that fail

Any statement may fail: the disk may be full, the file locked by somebody else.  A
statement that fails changes nothing itself; some failures make SQLite end the open
transaction as well.  `withTransactionFailing` is the scope of a transaction in which
`BEGIN` and `COMMIT` may fail, and `withTransactionFailing_cases` the one rule about it:
a body that can be undone is committed, or the connection is what it was.
-/

/-- A failure, and whether SQLite rolls back the open transaction on its own account. -/
structure Fault where
  error : Exn
  rollsBack : Bool

/-- What a rollback makes of the connection. -/
def Connection.undo (c : Connection) : Connection :=
  match c.rollback with
  | some saved => { c with database := saved, rollback := none }
  | none => c

/-- A statement, which fails if there is a fault. -/
def failing {α : Type} (fault : Option Fault) (statement : DbProg α) : DbProg α :=
  match fault with
  | none => statement
  | some fault => fun c =>
      .threw fault.error (if fault.rollsBack then c.undo else c)

/-- `withTransaction`, where the first and the last statement may fail. -/
def withTransactionFailing (atBegin atCommit : Option Fault) (body : DbProg Unit) :
    DbProg Unit := do
  failing atBegin beginTransaction
  Prog.tryCatch (do body; failing atCommit commitTransaction) fun error => do
    rollbackTransaction
    Prog.throw error

theorem withTransactionFailing_none (body : DbProg Unit) :
    withTransactionFailing none none body = withTransaction body := rfl

theorem rollbackTransaction_apply (c : Connection) :
    rollbackTransaction c = .returned () c.undo := by
  unfold rollbackTransaction Connection.undo
  cases c.rollback <;> rfl

@[simp] theorem Connection.undo_undo (c : Connection) : c.undo.undo = c.undo := by
  obtain ⟨database, foreignKeys, rollback⟩ := c
  cases rollback <;> rfl

/-! ## Open transactions -/

/-- A transaction is open in `t` that goes back to `c`. -/
structure OpenFrom (c t : Connection) : Prop where
  saved : t.rollback = some c.database
  foreignKeys : t.foreignKeys = c.foreignKeys

/-- The program stays within the transaction: it returns with the transaction open, or
throws and can be undone. -/
def KeepsOpen {α : Type} (c : Connection) (p : DbProg α) : Prop :=
  ∀ t, OpenFrom c t → (∃ a t', p t = .returned a t' ∧ OpenFrom c t') ∨
    ∃ error t', p t = .threw error t' ∧ t'.undo = c

variable {α : Type} {c t : Connection}

theorem OpenFrom.undo_eq (hIdle : c.rollback = none) (hOpen : OpenFrom c t) : t.undo = c := by
  obtain ⟨database, foreignKeys, rollback⟩ := c
  simp only at hIdle
  simp only [Connection.undo, hOpen.saved, hOpen.foreignKeys, hIdle]

theorem keepsOpen_bind {p : DbProg Unit} {q : DbProg α} (hFirst : KeepsOpen c p)
    (hSecond : KeepsOpen c q) : KeepsOpen c (do p; q) := by
  intro t hOpen
  rcases hFirst t hOpen with ⟨a, t', hReturned, hOpen'⟩ | ⟨error, t', hThrew, hUndone⟩
  · rw [Prog.bind_of_returned hReturned]
    exact hSecond t' hOpen'
  · rw [Prog.bind_of_threw hThrew]
    exact Or.inr ⟨error, t', rfl, hUndone⟩

/-- A statement that fails can be undone, whether or not SQLite has done so. -/
theorem failing_some (fault : Fault) (p : DbProg α) (hIdle : c.rollback = none)
    (hOpen : OpenFrom c t) :
    ∃ t', failing (some fault) p t = .threw fault.error t' ∧ t'.undo = c := by
  refine ⟨_, rfl, ?_⟩
  cases fault.rollsBack with
  | true =>
      show t.undo.undo = c
      rw [Connection.undo_undo, hOpen.undo_eq hIdle]
  | false => exact hOpen.undo_eq hIdle

theorem keepsOpen_failing {p : DbProg α} (hIdle : c.rollback = none) (fault : Option Fault)
    (hStatement : KeepsOpen c p) : KeepsOpen c (failing fault p) := by
  cases fault with
  | none => exact hStatement
  | some fault =>
      intro t hOpen
      obtain ⟨t', hThrew, hUndone⟩ := failing_some fault p hIdle hOpen
      exact Or.inr ⟨fault.error, t', hThrew, hUndone⟩

theorem keepsOpen_requireTable (hIdle : c.rollback = none) (present : Schema → Bool)
    (table : String) : KeepsOpen c (requireTable present table) := by
  intro t hOpen
  unfold requireTable
  by_cases hPresent : present t.database.schema = true
  · rw [if_pos hPresent]
    exact Or.inl ⟨(), t, rfl, hOpen⟩
  · rw [if_neg hPresent]
    exact Or.inr ⟨_, t, rfl, hOpen.undo_eq hIdle⟩

theorem keepsOpen_update (f : Database → Database) : KeepsOpen c (update f) :=
  fun _ hOpen => Or.inl ⟨(), _, rfl, hOpen.saved, hOpen.foreignKeys⟩

theorem keepsOpen_deleteEvents (hIdle : c.rollback = none) (streamId : Int32) :
    KeepsOpen c (deleteEvents streamId) :=
  keepsOpen_bind (keepsOpen_requireTable hIdle _ _) (keepsOpen_update _)

theorem keepsOpen_deleteStreamRow (hIdle : c.rollback = none) (id : Int32) :
    KeepsOpen c (deleteStreamRow id) := by
  apply keepsOpen_bind (keepsOpen_requireTable hIdle _ _)
  intro t hOpen
  rw [Prog.bind_of_returned (Prog.get_apply t)]
  by_cases hRefers : (t.foreignKeys && t.database.streams.any (fun row => row.id = id.toInt) &&
      t.database.events.any (fun row => row.streamId = id.toInt)) = true
  · rw [if_pos hRefers]
    exact Or.inr ⟨_, t, rfl, hOpen.undo_eq hIdle⟩
  · rw [if_neg hRefers]
    exact keepsOpen_update _ t hOpen

/-! ## The scope of a transaction -/

/-- With a body that stays within the transaction, either everything returned and is
committed, or the exception leaves the connection as it was before `BEGIN`. -/
theorem withTransactionFailing_cases {body : DbProg Unit} (atBegin atCommit : Option Fault)
    (hIdle : c.rollback = none) (hBody : KeepsOpen c body) :
    (atBegin = none ∧ atCommit = none ∧
      ∃ t, body { c with rollback := some c.database } = .returned () t ∧
        withTransactionFailing atBegin atCommit body c =
          .returned () { t with rollback := none }) ∨
      ∃ error, withTransactionFailing atBegin atCommit body c = .threw error c := by
  cases atBegin with
  | some fault =>
      have hBegin : failing (some fault) beginTransaction c = .threw fault.error c := by
        have hUndo : c.undo = c := by rw [Connection.undo, hIdle]
        simp only [failing, hUndo, ite_self]
      exact Or.inr ⟨fault.error, by rw [withTransactionFailing, Prog.bind_of_threw hBegin]⟩
  | none =>
      have hBegin : failing none beginTransaction c =
          .returned () { c with rollback := some c.database } := by
        simp only [failing, beginTransaction, hIdle]
      rw [withTransactionFailing, Prog.bind_of_returned hBegin]
      rcases hBody { c with rollback := some c.database } ⟨rfl, rfl⟩ with
        ⟨_, t, hReturned, hOpen⟩ | ⟨error, t, hThrew, hUndone⟩
      · cases atCommit with
        | none =>
            have hCommit : commitTransaction t = .returned () { t with rollback := none } := by
              simp only [commitTransaction, hOpen.saved]
            refine Or.inl ⟨rfl, rfl, t, hReturned, ?_⟩
            apply Prog.tryCatch_of_returned
            rw [Prog.bind_of_returned hReturned, failing, hCommit]
        | some fault =>
            -- The changes are made and lost again with the transaction.
            obtain ⟨t', hCommit, hUndone⟩ :=
              failing_some fault commitTransaction hIdle hOpen
            have hBoth : (do body; failing (some fault) commitTransaction : DbProg Unit)
                { c with rollback := some c.database } = .threw fault.error t' := by
              rw [Prog.bind_of_returned hReturned, hCommit]
            refine Or.inr ⟨fault.error, ?_⟩
            rw [Prog.tryCatch_of_threw hBoth,
              Prog.bind_of_returned (rollbackTransaction_apply t'), hUndone, Prog.throw_apply]
      · refine Or.inr ⟨error, ?_⟩
        rw [Prog.tryCatch_of_threw (Prog.bind_of_threw hThrew),
          Prog.bind_of_returned (rollbackTransaction_apply t), hUndone, Prog.throw_apply]

/-! ## Removing a stream -/

/-- Where the statements of `remove` fail, if they do. -/
structure RemoveFaults where
  atBegin : Option Fault
  atEvents : Option Fault
  atStream : Option Fault
  atCommit : Option Fault

/-- No statement fails. -/
def RemoveFaults.None (faults : RemoveFaults) : Prop :=
  faults.atBegin = none ∧ faults.atEvents = none ∧ faults.atStream = none ∧
    faults.atCommit = none

/-- `Sqlite_stream_repo::remove`, where statements may fail. -/
def removeFailing (faults : RemoveFaults) (id : Int32) : DbProg Unit :=
  withTransactionFailing faults.atBegin faults.atCommit do
    failing faults.atEvents (deleteEvents id)
    failing faults.atStream (deleteStreamRow id)

theorem removeFailing_of_none {faults : RemoveFaults} (hNone : faults.None) (id : Int32) :
    removeFailing faults id = remove id := by
  obtain ⟨hBegin, hEvents, hStream, hCommit⟩ := hNone
  rw [removeFailing, hBegin, hEvents, hStream, hCommit, withTransactionFailing_none]
  rfl

/-- Where a statement fails, `remove` throws and the connection is as it was. -/
theorem removeFailing_of_some {faults : RemoveFaults} (hSome : ¬faults.None) (id : Int32)
    (hIdle : c.rollback = none) : ∃ error, removeFailing faults id c = .threw error c := by
  have hEvents := keepsOpen_failing hIdle faults.atEvents (keepsOpen_deleteEvents hIdle id)
  have hStream := keepsOpen_failing hIdle faults.atStream (keepsOpen_deleteStreamRow hIdle id)
  rcases withTransactionFailing_cases faults.atBegin faults.atCommit hIdle
    (keepsOpen_bind hEvents hStream) with ⟨hBegin, hCommit, t, hBody, -⟩ | hThrew
  · -- The body returned, so neither delete failed.
    obtain ⟨_, t', hFirst, hSecond⟩ := Prog.bind_eq_returned.mp hBody
    refine absurd ⟨hBegin, ?_, ?_, hCommit⟩ hSome
    · cases hFault : faults.atEvents with
      | none => rfl
      | some fault => simp [hFault, failing] at hFirst
    · cases hFault : faults.atStream with
      | none => rfl
      | some fault => simp [hFault, failing] at hSecond
  · exact hThrew

end Db
end Yess
