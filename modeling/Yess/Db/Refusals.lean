import Yess.Db.EventTable

namespace Yess
namespace Db

open Foundation VersionedLog

/-!
# What refuses a row, and why

On numbered rows the error of a refused insert depends on three things: how many
rows there are under its stream id, its version, and whether it would refer to no
stream (`insertError_eq_refusal`).  The version is looked at first, so that a row of
a wrong version is refused for its version even where its stream does not exist.
-/

/-- What refuses a row of this version under an id with so many rows. -/
def refusal (rows : Nat) (version : Int) (orphan : Bool) : Option DbError :=
  if version = rows + 1 then
    if orphan then some .foreignKeyFailed else none
  else if rows = 0 then some (.raised "The stream should starts with event version 1.")
  else some (.raised "Event version mismatch.")

/-- The message of the trigger, on numbered rows. -/
theorem verValid_eq {events : List EventRow} (hNumbered : EventsNumbered events)
    (new : EventRow) :
    verValid events new =
      if new.version = (eventsOf new.streamId events).length + 1 then none
      else if (eventsOf new.streamId events).length = 0 then
        some "The stream should starts with event version 1."
      else some "Event version mismatch." := by
  by_cases hNext : new.version = (eventsOf new.streamId events).length + 1
  · rw [if_pos hNext]
    exact (verValid_eq_none_iff hNumbered new).mpr hNext
  · rw [if_neg hNext]
    have hLast := lastVersion_of_numbered (hNumbered.versions new.streamId)
    unfold verValid
    simp only [hLast]
    by_cases hEmpty : (eventsOf new.streamId events).length = 0
    · have hFirst : Sql.conj (Sql.equal (some ((eventsOf new.streamId events).length : Int))
          (some 0)) (Sql.notEqual (some new.version) (some 1)) = some true := by
        rw [Sql.conj_eq_true_iff, Sql.equal_eq_true_iff, Sql.notEqual_eq_true_iff]
        omega
      rw [Sql.searchedCase, if_pos hFirst, if_pos hEmpty]
    · have hFirst : Sql.conj (Sql.equal (some ((eventsOf new.streamId events).length : Int))
          (some 0)) (Sql.notEqual (some new.version) (some 1)) ≠ some true := by
        rw [ne_eq, Sql.conj_eq_true_iff, Sql.equal_eq_true_iff, Sql.notEqual_eq_true_iff]
        omega
      have hSecond : Sql.notEqual (some ((eventsOf new.streamId events).length : Int))
          (Sql.minus (some new.version) (some 1)) = some true := by
        rw [Sql.minus_some, Sql.notEqual_eq_true_iff]
        omega
      rw [Sql.searchedCase, if_neg hFirst, Sql.searchedCase, if_neg hEmpty, if_neg hEmpty,
        if_pos hSecond]

/-- The error of an insert. -/
theorem insertError_eq_refusal {c : Connection} (hReady : c.Ready)
    (hNumbered : EventsNumbered c.database.events) (row : EventRow) :
    insertError c row = refusal (eventsOf row.streamId c.database.events).length row.version
      (c.foreignKeys && !c.database.streams.any fun s => s.id = row.streamId) := by
  have hTrigger : c.database.schema.verValid = true := by rw [hReady.schema]; rfl
  have hMessage := verValid_eq hNumbered row
  unfold refusal
  by_cases hNext : row.version = (eventsOf row.streamId c.database.events).length + 1
  · rw [if_pos hNext]
    rw [if_pos hNext] at hMessage
    -- The new version is larger than those present.
    have hUnique : (c.database.events.any fun old =>
        old.streamId = row.streamId && old.version = row.version) = false := by
      rw [List.any_eq_false]
      intro old hOld hSame
      simp only [Bool.and_eq_true, decide_eq_true_eq] at hSame
      have hMem : old.version ∈
          (eventsOf row.streamId c.database.events).map EventRow.version :=
        List.mem_map_of_mem (mem_eventsOf.mpr ⟨hOld, hSame.1⟩)
      rw [hNumbered.versions, mem_upTo] at hMem
      omega
    rw [insertError, hTrigger, if_pos rfl, hMessage]
    simp only [hUnique, Bool.false_eq_true, if_false]
  · rw [if_neg hNext]
    rw [if_neg hNext] at hMessage
    rw [insertError, hTrigger, if_pos rfl, hMessage]
    by_cases hEmpty : (eventsOf row.streamId c.database.events).length = 0
    · simp only [if_pos hEmpty]
    · simp only [if_neg hEmpty]

end Db
end Yess
