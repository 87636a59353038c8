import LineageLoad.Store.Call

/-!
Named databases that all connections of one name share, and private ones. A name that is dropped
starts anew with its next connection, while open connections keep their database.
-/

namespace LineageLoad

/-- How a connection is opened. -/
inductive ConnectionConfig where
  /-- The database of that name, which is created if the name has none. -/
  | inMemory (name : String)
  /-- A new database that no other connection reaches. -/
  | fakeDatabase
  deriving DecidableEq, Repr, Inhabited

/-- The position of the database that a connection reaches. -/
abbrev Connection := Nat

/-- All databases ever created, and the positions of those that have a name now. -/
structure Server where
  databases : Array Database := #[]
  names : Std.ExtTreeMap String Connection compare := ∅
  deriving Inhabited

namespace Server

def empty : Server := {}

def create (server : Server) : Connection × Server :=
  (server.databases.size, { server with databases := server.databases.push .empty })

def connect (server : Server) : ConnectionConfig → Connection × Server
  | .fakeDatabase => server.create
  | .inMemory name =>
    match server.names[name]? with
    | some connection => (connection, server)
    | none =>
      let (connection, server) := server.create
      (connection, { server with names := server.names.insert name connection })

/-- Takes a name from its database and tells whether it had one. -/
def dropDatabase (server : Server) (name : String) : Bool × Server :=
  (server.names.contains name, { server with names := server.names.erase name })

def database (server : Server) (connection : Connection) : Database :=
  server.databases.getD connection .empty

def store (connection : Connection) : Store Server where
  serve call server :=
    let (reply, db) := (server.database connection).serve call
    (reply, { server with databases := server.databases.setIfInBounds connection db })

end Server

end LineageLoad
