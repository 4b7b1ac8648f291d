import Yess.Db.EventTable
import Yess.Handler.StreamActions

namespace Yess
namespace ActionHandler

open Foundation Db VersionedLog

/-!
# Sessions on one database file

A session ends and the next one opens the same file; the contents stay and the
foreign-key switch is lost.  The numbering of the events does not depend on the
switch, so it holds in every state of every run of sessions
(`versions_gap_free`).
-/

/-- What happens on a database file over time: a request on the present
connection, or the next session, which starts with `init_db` on the file. -/
inductive SessionLabel where
  | request (entry : StoreEntry)
  | restart

inductive SessionStep (plan : Plan) : Connection → SessionLabel → Connection → Prop
  | request {c c' : Connection} {entry : StoreEntry} (hStep : StoreStep plan c entry c') :
      SessionStep plan c (.request entry) c'
  | restart {c c' : Connection} (hInit : initDb (some c.database) = .returned () c') :
      SessionStep plan c .restart c'

theorem SessionStep.invariant {plan : Plan} {c c' : Connection} {label : SessionLabel}
    (hStep : SessionStep plan c label c') (hInv : StoreInvariant c) :
    StoreInvariant c' := by
  cases hStep with
  | request hStep => exact (storeStep_effect hInv.ready hStep).invariant hInv
  | restart hInit =>
      rw [eq_of_initDb_some hInit]
      exact ⟨⟨hInv.ready.schema, rfl⟩, hInv.streamIds, hInv.numbered⟩

/-- The invariant at every state of every run of sessions. -/
theorem sessions_invariant {plan : Plan} {c₀ c : Connection} {labels : List SessionLabel}
    (hInit : initDb none = .returned () c₀)
    (hRun : Run (SessionStep plan) c₀ labels c) : StoreInvariant c := by
  obtain rfl := eq_of_initDb_none hInit
  exact hRun.stateInvariant StoreInvariant freshConnection_invariant
    fun c label c' hInv hStep => hStep.invariant hInv

/-- In every state that a run of any number of sessions reaches after a first
`init_db`, whatever the versions and stream ids pushed and with foreign keys
enforced or not: the rows of each stream that occurs in `events` carry exactly
the versions `1, ..., n`, each once, and of two such rows the one with the larger
version has the larger id. -/
theorem versions_gap_free (plan : Plan) {c₀ c : Connection} {labels : List SessionLabel}
    (hInit : initDb none = .returned () c₀)
    (hRun : Run (SessionStep plan) c₀ labels c) (streamId : Int)
    (hOccurs : ∃ row ∈ c.database.events, row.streamId = streamId) :
    (∃ n : Nat, 0 < n ∧
      (eventsOf streamId c.database.events).map EventRow.version = upTo n) ∧
    ∀ a ∈ c.database.events, ∀ b ∈ c.database.events,
      a.streamId = streamId → b.streamId = streamId →
        a.version < b.version → a.id < b.id := by
  have hNumbered := (sessions_invariant hInit hRun).numbered
  refine ⟨⟨_, ?_, hNumbered.versions streamId⟩, ?_⟩
  · obtain ⟨row, hRow, hStream⟩ := hOccurs
    exact List.length_pos_of_mem (mem_eventsOf.mpr ⟨hRow, hStream⟩)
  · intro a hA b hB hStreamA hStreamB hVersion
    exact hNumbered.id_lt_of_version_lt hA hB (hStreamA.trans hStreamB.symm) hVersion

/-- A store with one stream and one event in it. -/
def oneEventConnection : Connection := { freshConnection with
  database := { freshConnection.database with
    streams := [⟨1, "User", 0⟩]
    events := [⟨1, 1, "UserCreated", "{}", 1⟩] } }

/-- A create and a push on a fresh connection. -/
theorem oneEventConnection_run (plan : Plan) :
    Run (SessionStep plan) freshConnection
      [.request ⟨.createStream "User", .ok .done, some 1⟩,
        .request ⟨.pushEvent 1 ⟨0, 1, "UserCreated", "{}", 1⟩, .ok .done, none⟩]
      oneEventConnection := by
  have hCreate : SessionStep plan freshConnection
      (.request ⟨.createStream "User", .ok .done, some 1⟩)
      { freshConnection with database := { freshConnection.database with
        streams := [⟨1, "User", 0⟩] } } := .request ⟨rfl, rfl, rfl⟩
  exact Run.tail (Run.single hCreate) (.request ⟨rfl, rfl, rfl⟩)

theorem versions_gap_free_one_event :
    (∃ n : Nat, 0 < n ∧
      (eventsOf 1 oneEventConnection.database.events).map EventRow.version = upTo n) ∧
    ∀ a ∈ oneEventConnection.database.events, ∀ b ∈ oneEventConnection.database.events,
      a.streamId = 1 → b.streamId = 1 → a.version < b.version → a.id < b.id :=
  versions_gap_free ⟨.streamsOuter, .rowid⟩ initDb_none (oneEventConnection_run _) 1
    ⟨⟨1, 1, "UserCreated", "{}", 1⟩, by decide, rfl⟩

end ActionHandler
end Yess
