import LineageLoad.Store.Server

/-!
Connections to the database of a name: they all reach the same contents, and a call through any of
them changes these contents as it would if they were asked directly.
-/

namespace LineageLoad
namespace Server

variable {server : Server} {name : String} {connection : Connection} {db : Database}

/-- What connections to a name find. A name without a database stands for one without contents,
since connecting creates it.
-/
def Holds (server : Server) (name : String) (db : Database) : Prop :=
  match server.names[name]? with
  | some connection => server.databases[connection]? = some db
  | none => db = .empty

/-- A name stands for one database only. -/
theorem Holds.unique {other : Database} (holds : server.Holds name db)
    (again : server.Holds name other)
    : other = db := by
  unfold Holds at holds again
  cases named : server.names[name]? with
  | none =>
      rw [named] at holds again
      exact Eq.trans again holds.symm
  | some connection =>
      rw [named] at holds again
      exact Option.some.inj (Eq.trans (Eq.symm again) holds)

/-- A connection is the one of a name and reaches these contents. -/
structure Reaches (server : Server) (name : String) (connection : Connection) (db : Database)
    : Prop where
  named : server.names[name]? = some connection
  stored : server.databases[connection]? = some db

theorem Reaches.holds (reaches : server.Reaches name connection db)
    : server.Holds name db := by
  unfold Holds
  rw [reaches.named]
  exact reaches.stored

theorem Reaches.connect (reaches : server.Reaches name connection db)
    : server.connect (.inMemory name) = (connection, server) := by
  simp only [Server.connect, reaches.named]

theorem Holds.connect (holds : server.Holds name db)
    : (server.connect (.inMemory name)).2.Reaches name (server.connect (.inMemory name)).1 db := by
  cases named : server.names[name]? with
  | some connection =>
      have reaches : server.Reaches name connection db := by
        unfold Holds at holds
        rw [named] at holds
        exact ⟨named, holds⟩
      rwa [reaches.connect]
  | none =>
      unfold Holds at holds
      rw [named] at holds
      subst holds
      simp only [Server.connect, named, create]
      exact ⟨Std.ExtTreeMap.getElem?_insert_self, Array.getElem?_push_size⟩

theorem Reaches.database_eq (reaches : server.Reaches name connection db)
    : server.database connection = db := by
  simp [Server.database, Array.getD_eq_getD_getElem?, reaches.stored]

/-- A call through a connection is answered by the contents that it reaches, which become what the
call makes of them.
-/
theorem Reaches.serve (reaches : server.Reaches name connection db) (call : Call)
    : ((store connection).serve call server).1 = (Database.serve call db).1
      ∧ ((store connection).serve call server).2.Reaches name connection
        (Database.serve call db).2 := by
  have contents := reaches.database_eq
  have inside := (Array.getElem?_eq_some_iff.mp reaches.stored).1
  refine ⟨by simp only [store, contents], reaches.named, ?_⟩
  simp only [store, contents]
  exact Array.getElem?_setIfInBounds_self_of_lt inside

end Server
end LineageLoad
