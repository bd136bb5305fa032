import Mathlib.Data.List.AList
import Qlabs.Http.Request

/-!
# The state of the server

A `SimpleHttpServer` is used on the *main* thread, whose task queue is that of
`handler_runner_`. Every `SimpleHttpServer::Start` that is not refused makes a
`SimpleHttpHandler`, which starts a *server thread*, with a task queue of its
own; that thread makes the `ServerWrapper`. Threads are destroyed by tasks of
the *thread pool*.

The `n`th handler made, its thread, its socket factory and its wrapper are all
known by the number `n` of the start, a `Gen`: a pointer to one of these objects
is the number, a null one is `none`, and a weak pointer to a handler is valid
while the handler with that number is the one alive.

The state keeps what happened to the objects that are gone: which thread deleted
them (`State.deleted`), and the events and calls of the wrappers
(`ServerWrapper.log`). It also says whether the program went wrong
(`State.fault`), by going through a null pointer or to a deleted object.
-/

namespace Qlabs.Http

/-- The number of a start. -/
abbrev Gen := ℕ

/-- `net::IPEndPoint` -/
structure IPEndPoint where
  address : Bytes
  port : ℕ
  deriving DecidableEq

/-- A listening `net::ServerSocket`: where it listens. -/
abbrev ServerSocket := IPEndPoint

/-- The objects that are owned, and deleted. -/
inductive Resource
  | thread (g : Gen)
  | socketFactory (g : Gen)
  | serverWrapper (g : Gen)
  deriving DecidableEq

/-- The start an object is from. -/
def Resource.gen : Resource → Gen
  | .thread g | .socketFactory g | .serverWrapper g => g

@[simp] theorem Resource.gen_thread (g : Gen) : (thread g).gen = g := rfl
@[simp] theorem Resource.gen_socketFactory (g : Gen) : (socketFactory g).gen = g := rfl
@[simp] theorem Resource.gen_serverWrapper (g : Gen) : (serverWrapper g).gen = g := rfl

/-- The threads. -/
inductive Runner
  | main
  | server (g : Gen)
  | pool
  deriving DecidableEq

/-! ## Tasks and events -/

/-- The calls of `net::HttpServer` to its delegate. -/
inductive Event
  | onConnect (connectionId : ℤ)
  | onHttpRequest (connectionId : ℤ) (info : HttpServerRequestInfo)
  | onWebSocketRequest (connectionId : ℤ) (info : HttpServerRequestInfo)
  | onWebSocketMessage (connectionId : ℤ) (data : Bytes)
  | onClose (connectionId : ℤ)
  deriving DecidableEq

def Event.connectionId : Event → ℤ
  | .onConnect c | .onHttpRequest c _ | .onWebSocketRequest c _ | .onWebSocketMessage c _
  | .onClose c => c

/-- The connection an event asks to upgrade to a WebSocket. -/
def Event.upgrade? : Event → Option ℤ
  | .onWebSocketRequest c _ => some c
  | _ => none

/-- The connections asked to be upgraded. -/
def upgrades (events : List Event) : List ℤ := events.filterMap Event.upgrade?

theorem upgrades_concat (events : List Event) (e : Event) :
    upgrades (events ++ [e]) = upgrades events ++ e.upgrade?.toList := by
  cases h : e.upgrade? <;> simp [upgrades, h]

/-- The tasks posted to a server thread. The wrapper of the two `base::Unretained`
    ones is a raw pointer. -/
inductive ServerTask
  | startServerOnHandlerThread (handler thread socketFactory : Gen)
      (outputDirectory frontendDir : FilePath)
  | acceptWebSocket (serverWrapper : Option Gen) (connectionId : ℤ)
      (request : HttpServerRequestInfo)
  | sendOverWebSocket (serverWrapper : Option Gen) (connectionId : ℤ) (message : Bytes)
  | deleteServerWrapper (serverWrapper : Gen)
  | deleteSocketFactory (socketFactory : Gen)
  deriving DecidableEq

/-- The tasks posted to the main thread. The handler is a weak pointer. -/
inductive MainTask
  | serverStartedOnDedicatedRunner (handler : Gen) (thread serverWrapper socketFactory : Option Gen)
      (ipAddress : Option IPEndPoint)
  | onWebSocketRequest (handler : Gen) (connectionId : ℤ) (info : HttpServerRequestInfo)
  | onWebSocketMessage (handler : Gen) (connectionId : ℤ) (data : Bytes)
  deriving DecidableEq

/-- The handler a task is bound to. -/
def MainTask.handler : MainTask → Gen
  | .serverStartedOnDedicatedRunner h .. | .onWebSocketRequest h .. | .onWebSocketMessage h .. => h

/-! ## Objects -/

/-- `Agent`: a WebSocket connection, as the handler knows it. -/
structure Agent where
  taskRunner : Gen
  serverWrapper : Option Gen
  connectionId : ℤ
  deriving DecidableEq

/-- `SimpleHttpHandler` -/
structure SimpleHttpHandler where
  /-- The number of the start: what a weak pointer to the handler points to. -/
  id : Gen
  thread : Option Gen := none
  serverWrapper : Option Gen := none
  serverIpAddress : Option IPEndPoint := none
  socketFactory : Option Gen := none
  connectionToClient : AList fun _ : ℤ => Agent := ∅

/-- What a wrapper did: on an event, or in a task of its thread. -/
inductive Entry
  | event (e : Event) (calls : List Call)
  | task (t : ServerTask) (calls : List Call)
  deriving DecidableEq

@[simp] def Entry.calls : Entry → List Call
  | .event _ calls | .task _ calls => calls

@[simp] def Entry.event? : Entry → Option Event
  | .event e _ => some e
  | .task .. => none

@[simp] def Entry.task? : Entry → Option ServerTask
  | .event .. => none
  | .task t _ => some t

@[simp] theorem filterMap_event_event (log : List Entry) (e : Event) (calls : List Call) :
    (log ++ [Entry.event e calls]).filterMap Entry.event? = log.filterMap Entry.event? ++ [e] :=
  List.filterMap_append

@[simp] theorem filterMap_event_task (log : List Entry) (t : ServerTask) (calls : List Call) :
    (log ++ [Entry.task t calls]).filterMap Entry.event? = log.filterMap Entry.event? :=
  List.filterMap_append.trans (List.append_nil _)

@[simp] theorem filterMap_task_event (log : List Entry) (e : Event) (calls : List Call) :
    (log ++ [Entry.event e calls]).filterMap Entry.task? = log.filterMap Entry.task? :=
  List.filterMap_append.trans (List.append_nil _)

@[simp] theorem filterMap_task_task (log : List Entry) (t : ServerTask) (calls : List Call) :
    (log ++ [Entry.task t calls]).filterMap Entry.task? = log.filterMap Entry.task? ++ [t] :=
  List.filterMap_append

/-- `ServerWrapper`: it owns a `net::HttpServer`, known by its socket. -/
structure ServerWrapper where
  handler : Gen
  server : ServerSocket
  frontendDir : FilePath
  log : List Entry := []

/-- The events the wrapper received, in order. -/
def ServerWrapper.events (w : ServerWrapper) : List Event := w.log.filterMap Entry.event?

/-- The tasks the wrapper ran, in order. -/
def ServerWrapper.tasks (w : ServerWrapper) : List ServerTask := w.log.filterMap Entry.task?

/-- The calls the wrapper made, in order. -/
def ServerWrapper.calls (w : ServerWrapper) : List Call := w.log.flatMap Entry.calls

/-- The wrapper, with one more entry in its log. -/
def ServerWrapper.record (w : ServerWrapper) (entry : Entry) : ServerWrapper :=
  { w with log := w.log ++ [entry] }

namespace ServerWrapper

variable (w : ServerWrapper) (entry : Entry)

@[simp] theorem record_handler : (w.record entry).handler = w.handler := rfl
@[simp] theorem record_server : (w.record entry).server = w.server := rfl
@[simp] theorem record_frontendDir : (w.record entry).frontendDir = w.frontendDir := rfl
@[simp] theorem record_log : (w.record entry).log = w.log ++ [entry] := rfl

@[simp] theorem events_record : (w.record entry).events = w.events ++ entry.event?.toList := by
  cases entry <;> simp [events]

@[simp] theorem tasks_record : (w.record entry).tasks = w.tasks ++ entry.task?.toList := by
  cases entry <;> simp [tasks]

@[simp] theorem calls_record : (w.record entry).calls = w.calls ++ entry.calls := by
  simp [calls]

end ServerWrapper

/-! ## Threads -/

/-- How far `StartServerOnHandlerThread` has got: before `CreateForHttpServer`,
    before `GetLocalAddress`, or before it posts what came out. -/
inductive Stage
  | create
  | address
  | post (serverWrapper : Option Gen) (ipAddress : Option IPEndPoint)
  deriving DecidableEq

/-- A running `StartServerOnHandlerThread`: its parameters, and how far it got. -/
structure StartFrame where
  handler : Gen
  thread : Gen
  socketFactory : Gen
  outputDirectory : FilePath
  frontendDir : FilePath
  stage : Stage
  deriving DecidableEq

/-- A running `TerminateOnDeciatedRunner`: the start it terminates, and what its
    parameters still own. -/
structure Termination where
  gen : Gen
  thread : Option Gen
  serverWrapper : Option Gen
  socketFactory : Option Gen
  deriving DecidableEq

/-- The server thread of a start, and what `StartServerOnHandlerThread` made on it. -/
structure Server where
  /-- Whether `StartWithOptions` started the thread. -/
  started : Bool := false
  queue : List ServerTask := []
  running : Option StartFrame := none
  /-- What `CreateForHttpServer` returned, once it has. -/
  created : Option (Option ServerSocket) := none
  /-- The wrapper, from its construction on. -/
  serverWrapper : Option ServerWrapper := none

/-- How the program goes wrong. -/
inductive Fault
  | nullThread
  | nullWrapper
  | useAfterDelete (r : Resource)
  | deleteTwice (r : Resource)
  deriving DecidableEq

/-- The state of the program. -/
structure State where
  /-- The number of handlers made so far. -/
  starts : ℕ := 0
  /-- `http_handler_`: the handler alive, if any. -/
  httpHandler : Option SimpleHttpHandler := none
  /-- The task queue of the main thread. -/
  tasks : List MainTask := []
  /-- The `TerminateOnDeciatedRunner` the main thread is in, if any. -/
  terminating : Option Termination := none
  server : Gen → Server := fun _ => {}
  /-- The tasks of the thread pool: the threads to destroy. -/
  pool : List Gen := []
  /-- What has been deleted, in order, and on which thread. -/
  deleted : List (Resource × Runner) := []
  fault : Option Fault := none

namespace State

variable (s : State)

/-- A weak pointer to the handler `h` is valid. -/
def Alive (h : Gen) : Prop := ∃ handler ∈ s.httpHandler, handler.id = h

instance (h : Gen) : Decidable (s.Alive h) :=
  inferInstanceAs (Decidable (∃ handler ∈ s.httpHandler, handler.id = h))

def IsDeleted (r : Resource) : Prop := r ∈ s.deleted.map Prod.fst

instance (r : Resource) : Decidable (s.IsDeleted r) :=
  inferInstanceAs (Decidable (r ∈ s.deleted.map Prod.fst))

/-- Posting a task to the main thread. -/
def postMain (task : MainTask) : State := { s with tasks := s.tasks ++ [task] }

/-- The state with the server of the start `g` replaced. -/
def setServer (g : Gen) (v : Server) : State := { s with server := Function.update s.server g v }

/-- Posting a task to the server thread `t`. -/
def post (t : Gen) (task : ServerTask) : State :=
  s.setServer t { s.server t with queue := (s.server t).queue ++ [task] }

/-- Posting a task through a pointer to a thread. -/
def postOn (thread : Option Gen) (task : ServerTask) : State :=
  match thread with
  | none => { s with fault := some .nullThread }
  | some t =>
    if s.IsDeleted (.thread t) then { s with fault := some (.useAfterDelete (.thread t)) }
    else s.post t task

/-- Deleting an object, on some thread. -/
def delete (r : Resource) (runner : Runner) : State :=
  if s.IsDeleted r then { s with fault := some (.deleteTwice r) }
  else { s with deleted := s.deleted ++ [(r, runner)] }

/-- Running a method of a wrapper through a raw pointer: what it logs. -/
def onWrapper (serverWrapper : Option Gen) (entry : Entry) : State :=
  match serverWrapper with
  | none => { s with fault := some .nullWrapper }
  | some w =>
    if s.IsDeleted (.serverWrapper w) then
      { s with fault := some (.useAfterDelete (.serverWrapper w)) }
    else match (s.server w).serverWrapper with
      | none => { s with fault := some .nullWrapper }
      | some wrapper =>
        s.setServer w { s.server w with serverWrapper := some (wrapper.record entry) }

/-- Running a method of the handler through a weak pointer: what becomes of the
    handler, and the task it posts. It is dropped if the handler is no more. -/
def onHandler (handler : Gen)
    (method : SimpleHttpHandler → SimpleHttpHandler × Option (Gen × ServerTask)) : State :=
  match s.httpHandler with
  | none => s
  | some h =>
    if h.id = handler then
      match method h with
      | (h', none) => { s with httpHandler := some h' }
      | (h', some (t, task)) => { s with httpHandler := some h' }.post t task
    else s

end State

end Qlabs.Http
