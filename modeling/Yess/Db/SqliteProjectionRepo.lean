import Yess.Db.SqliteStreamRepo

namespace Yess
namespace Db
namespace ProjectionRepo

open Foundation

/-!
# `Sqlite_projection_repo`

The columns are `data` and `type`; the constructor of `Projection` takes `data`
before `type`.  Each reader below passes the columns to it in the order in which
its source does.
-/

/-- `Sqlite_projection_repo::create`. -/
def create (p : Projection) : DbProg Unit := do
  requireTable (·.projections) "projections"
  update fun db => { db with
    projections := db.projections ++
      [{ id := Sql.nextRowid (db.projections.map ProjectionRow.id)
         type := p.type
         data := p.data }] }

/-- `Sqlite_projection_repo::all`. -/
def all : DbProg (List Projection) := do
  requireTable (·.projections) "projections"
  let c ← Prog.get
  pure (c.database.projections.map fun row =>
    Projection.new (getInt row.id) row.type row.data)

/-- `Sqlite_projection_repo::id`.  Without a row, the first `getColumn` throws. -/
def id (id : Int32) : DbProg Projection := do
  requireTable (·.projections) "projections"
  let c ← Prog.get
  match c.database.projections.find? fun row => row.id = id.toInt with
  | none => fail .noRow
  | some row => pure (Projection.new id row.type row.data)

/-- `Sqlite_projection_repo::type`. -/
def type (t : String) : DbProg (List Projection) := do
  requireTable (·.projections) "projections"
  let c ← Prog.get
  -- Here the columns are in the order of the constructor.
  pure ((c.database.projections.filter fun row => row.type = t).map fun row =>
    Projection.new (getInt row.id) row.data row.type)

/-- `Sqlite_projection_repo::remove`. -/
def remove (id : Int32) : DbProg Unit := do
  requireTable (·.projections) "projections"
  update fun db => { db with
    projections := db.projections.filter fun row => row.id ≠ id.toInt }

/-! ## What the functions do on a database with its full schema -/

variable {c : Connection}

theorem requireProjections (hReady : c.Ready) :
    requireTable (·.projections) "projections" c = .returned () c :=
  requireTable_apply (by rw [hReady.schema]; rfl)

theorem create_apply (p : Projection) (hReady : c.Ready) :
    create p c = .returned () { c with database := { c.database with
      projections := c.database.projections ++
        [{ id := Sql.nextRowid (c.database.projections.map ProjectionRow.id)
           type := p.type
           data := p.data }] } } := by
  rw [create, Prog.bind_of_returned (requireProjections hReady), update, Prog.modify_apply]

theorem all_apply (hReady : c.Ready) :
    all c = .returned (c.database.projections.map fun row =>
      Projection.new (getInt row.id) row.type row.data) c := by
  rw [all, Prog.bind_of_returned (requireProjections hReady),
    Prog.bind_of_returned (Prog.get_apply c), Prog.pure_apply]

theorem id_apply (id : Int32) (hReady : c.Ready) :
    ProjectionRepo.id id c =
      match c.database.projections.find? fun row => row.id = id.toInt with
      | none => .threw (.sqliteException .noRow) c
      | some row => .returned (Projection.new id row.type row.data) c := by
  rw [ProjectionRepo.id, Prog.bind_of_returned (requireProjections hReady),
    Prog.bind_of_returned (Prog.get_apply c)]
  cases c.database.projections.find? fun row => row.id = id.toInt <;> rfl

theorem type_apply (t : String) (hReady : c.Ready) :
    type t c = .returned
      ((c.database.projections.filter fun row => row.type = t).map fun row =>
        Projection.new (getInt row.id) row.data row.type) c := by
  rw [type, Prog.bind_of_returned (requireProjections hReady),
    Prog.bind_of_returned (Prog.get_apply c), Prog.pure_apply]

theorem remove_apply (id : Int32) (hReady : c.Ready) :
    remove id c = .returned () { c with database := { c.database with
      projections := c.database.projections.filter fun row => row.id ≠ id.toInt } } := by
  rw [remove, Prog.bind_of_returned (requireProjections hReady), update, Prog.modify_apply]

end ProjectionRepo
end Db
end Yess
