import LineageLoad.Store.Server

/-!
Programs that open connections, close them, drop databases and make calls through the connections
that are open; and what became of each of their steps.
-/

namespace LineageLoad

/-- One step of a program. Its connections are numbered in the order in which they are opened. -/
inductive Action where
  | connect (config : ConnectionConfig)
  | close (handle : Nat)
  | dropDatabase (name : String)
  | call (handle : Nat) (call : Call)
  deriving DecidableEq, Inhabited

/-- What became of a step. -/
inductive Happening where
  | opened (config : ConnectionConfig)
  | closed (handle : Nat)
  | dropped (name : String) (existed : Bool)
  | served (handle : Nat) (call : Call) (reply : Except StoreError call.Reply)
  /-- The step is about a connection that is not open. -/
  | passedOver (action : Action)
  deriving Inhabited

/-- The step that something became of. -/
def Happening.action : Happening → Action
  | .opened config => .connect config
  | .closed handle => .close handle
  | .dropped name _ => .dropDatabase name
  | .served handle call _ => .call handle call
  | .passedOver action => action

/-- A program that is under way. -/
structure Session where
  server : Server := .empty
  /-- What the connections reach, until they are closed. -/
  handles : List (Option Connection) := []
  /-- What became of the steps, the latest first. -/
  history : List Happening := []
  deriving Inhabited

namespace Session

/-- What an open connection reaches. -/
def connection? (session : Session) (handle : Nat) : Option Connection :=
  session.handles[handle]?.join

def record (session : Session) (happening : Happening) : Session :=
  { session with history := happening :: session.history }

def act (session : Session) : Action → Session
  | .connect config =>
    let (connection, server) := session.server.connect config
    { session with server, handles := session.handles ++ [some connection] }.record (.opened config)
  | .close handle =>
    match session.connection? handle with
    | none => session.record (.passedOver (.close handle))
    | some _ => { session with handles := session.handles.set handle none }.record (.closed handle)
  | .dropDatabase name =>
    let (existed, server) := session.server.dropDatabase name
    { session with server }.record (.dropped name existed)
  | .call handle call =>
    match session.connection? handle with
    | none => session.record (.passedOver (.call handle call))
    | some connection =>
      let (reply, server) := (Server.store connection).serve call session.server
      { session with server }.record (.served handle call reply)

def run (script : List Action) : Session := script.foldl act {}

end Session

end LineageLoad
