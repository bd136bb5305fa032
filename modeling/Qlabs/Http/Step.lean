import Qlabs.Http.State
import Qlabs.Machine

/-!
# The steps of the server

The functions of the program, as functions on its state, and the machine they
make (`machine`). A task runs in one step, except for two functions whose parts
interleave with the other threads:

* `StartServerOnHandlerThread` calls `CreateForHttpServer` and `GetLocalAddress`,
  which may return anything, and then posts to the main thread: three steps;
* `TerminateOnDeciatedRunner` posts up to three times: a step for each post
  (`State.terminateStep`).

On the server thread, between two tasks, the `net::HttpServer` of the wrapper may
call its delegate, as long as it keeps to its protocol (`Event.Allowed`).
A thread is destroyed once its queue is empty: its destructor waits for the
tasks already queued.
-/

namespace Qlabs.Http

/-! ## The main thread -/

/-- `TerminateOnDeciatedRunner`, for the start `g`: it is over at once if there
    is nothing to do. -/
def terminateOnDeciatedRunner (g : Gen) (thread serverWrapper socketFactory : Option Gen) :
    Option Termination :=
  if thread.isNone ∧ serverWrapper.isNone ∧ socketFactory.isNone then none
  else some ⟨g, thread, serverWrapper, socketFactory⟩

/-- The next post of `TerminateOnDeciatedRunner`. -/
def State.terminateStep (s : State) (f : Termination) : State :=
  match f.serverWrapper, f.socketFactory, f.thread with
  | some w, socketFactory, thread =>
    { s.postOn thread (.deleteServerWrapper w) with
      terminating := terminateOnDeciatedRunner f.gen thread none socketFactory }
  | none, some c, thread =>
    { s.postOn thread (.deleteSocketFactory c) with
      terminating := terminateOnDeciatedRunner f.gen thread none none }
  | none, none, some t => { s with pool := s.pool ++ [t], terminating := none }
  | none, none, none => { s with terminating := none }

/-- What three owning pointers own. -/
def pointees (thread serverWrapper socketFactory : Option Gen) : List Resource :=
  (thread.map .thread).toList ++ (serverWrapper.map .serverWrapper).toList ++
    (socketFactory.map .socketFactory).toList

/-- What the members of a handler own. -/
def SimpleHttpHandler.owned (h : SimpleHttpHandler) : List Resource :=
  pointees h.thread h.serverWrapper h.socketFactory

/-- `SimpleHttpHandler::ServerStarted` -/
def SimpleHttpHandler.serverStarted (h : SimpleHttpHandler)
    (thread serverWrapper socketFactory : Option Gen) (ipAddress : Option IPEndPoint) :
    SimpleHttpHandler :=
  { h with
    thread := thread
    serverWrapper := serverWrapper
    socketFactory := socketFactory
    serverIpAddress := ipAddress }

/-- `ServerStartedOnDedicatedRunner`. What the members of the handler owned
    before is deleted. -/
def State.serverStartedOnDedicatedRunner (s : State) (handler : Gen)
    (thread serverWrapper socketFactory : Option Gen) (ipAddress : Option IPEndPoint) : State :=
  match s.httpHandler with
  | some h =>
    if h.id = handler ∧ thread.isSome ∧ serverWrapper.isSome then
      { h.owned.foldl (fun s r => s.delete r .main) s with
        httpHandler := some (h.serverStarted thread serverWrapper socketFactory ipAddress) }
    else { s with terminating :=
      terminateOnDeciatedRunner handler thread serverWrapper socketFactory }
  | none => { s with terminating :=
      terminateOnDeciatedRunner handler thread serverWrapper socketFactory }

/-- The text of `Agent::OnMessage`. -/
def agentMessage (connectionId : ℤ) (data : Bytes) : Bytes :=
  stringPrintf (bytes "[%d] OnMessage(%s)") [.int connectionId, .str data]

/-- `Agent::OnMessage`: the task posted, and where. -/
def Agent.onMessage (a : Agent) (data : Bytes) : Gen × ServerTask :=
  (a.taskRunner,
    .sendOverWebSocket a.serverWrapper a.connectionId (agentMessage a.connectionId data))

/-- `SimpleHttpHandler::OnWebSocketRequest` -/
def SimpleHttpHandler.onWebSocketRequest (connectionId : ℤ) (info : HttpServerRequestInfo)
    (h : SimpleHttpHandler) : SimpleHttpHandler × Option (Gen × ServerTask) :=
  match h.thread with
  | none => (h, none)
  | some t =>
    ({ h with connectionToClient :=
        h.connectionToClient.insert connectionId ⟨t, h.serverWrapper, connectionId⟩ },
      some (t, .acceptWebSocket h.serverWrapper connectionId info))

/-- `SimpleHttpHandler::OnWebSocketMessage` -/
def SimpleHttpHandler.onWebSocketMessage (connectionId : ℤ) (data : Bytes)
    (h : SimpleHttpHandler) : SimpleHttpHandler × Option (Gen × ServerTask) :=
  (h, (h.connectionToClient.lookup connectionId).map (·.onMessage data))

/-- Running a task of the main thread. -/
def State.runMainTask (s : State) : MainTask → State
  | .serverStartedOnDedicatedRunner handler thread serverWrapper socketFactory ipAddress =>
    s.serverStartedOnDedicatedRunner handler thread serverWrapper socketFactory ipAddress
  | .onWebSocketRequest handler connectionId info =>
    s.onHandler handler (SimpleHttpHandler.onWebSocketRequest connectionId info)
  | .onWebSocketMessage handler connectionId data =>
    s.onHandler handler (SimpleHttpHandler.onWebSocketMessage connectionId data)

/-- The constructor of `SimpleHttpHandler`, which `http_handler_` is then set to.
    If the thread does not start, it is destroyed, and so is the socket factory. -/
def State.makeHandler (s : State) (threadStarts : Bool) (outputDirectory frontendDir : FilePath) :
    State :=
  let g := s.starts
  let made := { s with starts := g + 1, httpHandler := some { id := g } }
  if threadStarts then
    (made.setServer g { s.server g with started := true }).post g
      (.startServerOnHandlerThread g g g outputDirectory frontendDir)
  else (made.delete (.thread g) .main).delete (.socketFactory g) .main

/-- `SimpleHttpServer::Start` -/
def State.start (s : State) (threadStarts : Bool) (outputDirectory frontendDir : FilePath) :
    State :=
  if s.httpHandler.isSome then s  -- "Server is already started"
  else s.makeHandler threadStarts outputDirectory frontendDir

/-- `SimpleHttpServer::Stop`, with the destructor of the handler. -/
def State.stop (s : State) : State :=
  match s.httpHandler with
  | none => s
  | some h => { s with
      httpHandler := none
      terminating := terminateOnDeciatedRunner h.id h.thread h.serverWrapper h.socketFactory }

/-! ## The server threads -/

/-- The calls of `ServerWrapper::AcceptWebSocket`. -/
def ServerWrapper.acceptWebSocket (connectionId : ℤ) (request : HttpServerRequestInfo) :
    List Call :=
  [.setSendBufferSize connectionId kSendBufferSize,
    .setReceiveBufferSize connectionId kReceiveBufferSize, .acceptWebSocket connectionId request]

/-- The calls of `ServerWrapper::SendOverWebSocket`. -/
def ServerWrapper.sendOverWebSocket (connectionId : ℤ) (message : Bytes) : List Call :=
  [.sendOverWebSocket connectionId message]

/-- The calls a task makes on the wrapper it is bound to. -/
def ServerTask.calls : ServerTask → List Call
  | .acceptWebSocket _ connectionId request => ServerWrapper.acceptWebSocket connectionId request
  | .sendOverWebSocket _ connectionId message =>
    ServerWrapper.sendOverWebSocket connectionId message
  | _ => []

/-- Running a task of the server thread `g`. -/
def State.runServerTask (s : State) (g : Gen) (task : ServerTask) : State :=
  match task with
  | .startServerOnHandlerThread handler thread socketFactory outputDirectory frontendDir =>
    s.setServer g { s.server g with
      running := some ⟨handler, thread, socketFactory, outputDirectory, frontendDir, .create⟩ }
  | .acceptWebSocket w .. | .sendOverWebSocket w .. => s.onWrapper w (.task task task.calls)
  | .deleteServerWrapper w => s.delete (.serverWrapper w) (.server g)
  | .deleteSocketFactory c => s.delete (.socketFactory c) (.server g)

/-- `StartServerOnHandlerThread`, once `CreateForHttpServer` has returned: it
    makes the wrapper if there is a socket. -/
def Server.createForHttpServer (v : Server) (f : StartFrame) (socket : Option ServerSocket) :
    Server :=
  match socket with
  | some server => { v with
      running := some { f with stage := .address }
      created := some socket
      serverWrapper := some {
        handler := f.handler
        server := server
        frontendDir := f.frontendDir } }
  | none => { v with running := some { f with stage := .post none none }, created := some none }

/-- The end of `StartServerOnHandlerThread`: it posts what came out. -/
def State.postServerStarted (s : State) (g : Gen) (f : StartFrame) (serverWrapper : Option Gen)
    (ipAddress : Option IPEndPoint) : State :=
  (s.setServer g { s.server g with running := none }).postMain
    (.serverStartedOnDedicatedRunner f.handler (some f.thread) serverWrapper (some f.socketFactory)
      ipAddress)

/-- What `net::HttpServer` keeps to, given the calls it has made so far: it uses a
    connection id for one connection, which is upgraded at most once, and has
    messages only then. -/
def Event.Allowed (events : List Event) : Event → Prop
  | .onConnect c => ∀ e ∈ events, e.connectionId ≠ c
  | .onHttpRequest c _ => .onConnect c ∈ events
  | .onWebSocketRequest c _ => .onConnect c ∈ events ∧ c ∉ upgrades events
  | .onWebSocketMessage c _ => c ∈ upgrades events
  | .onClose c => .onConnect c ∈ events ∧ .onClose c ∉ events

instance (events : List Event) : (e : Event) → Decidable (e.Allowed events)
  | .onConnect c => inferInstanceAs (Decidable (∀ e ∈ events, e.connectionId ≠ c))
  | .onHttpRequest c _ => inferInstanceAs (Decidable (.onConnect c ∈ events))
  | .onWebSocketRequest c _ =>
    inferInstanceAs (Decidable (.onConnect c ∈ events ∧ c ∉ upgrades events))
  | .onWebSocketMessage c _ => inferInstanceAs (Decidable (c ∈ upgrades events))
  | .onClose c => inferInstanceAs (Decidable (.onConnect c ∈ events ∧ .onClose c ∉ events))

/-- The calls a wrapper makes on an event, at once. -/
def Event.calls (env : Env) (frontendDir : FilePath) (read : FilePath → ReadResult) :
    Event → List Call
  | .onHttpRequest connectionId info =>
    ServerWrapper.onHttpRequest env frontendDir read connectionId info
  | _ => []

/-- The task a wrapper bound to the handler `h` posts on an event, if any. -/
def Event.mainTask (h : Gen) : Event → Option MainTask
  | .onWebSocketRequest connectionId info => some (.onWebSocketRequest h connectionId info)
  | .onWebSocketMessage connectionId data => some (.onWebSocketMessage h connectionId data)
  | _ => none

/-- The delegate of the wrapper `w`, of the start `g`, is called. -/
def State.onEvent (env : Env) (s : State) (g : Gen) (w : ServerWrapper) (e : Event)
    (read : FilePath → ReadResult) : State :=
  { s.setServer g { s.server g with
      serverWrapper := some (w.record (.event e (e.calls env w.frontendDir read))) } with
    tasks := s.tasks ++ (e.mainTask w.handler).toList }

/-! ## The machine -/

/-- What happens next: a call to the server, the next step of a thread, with what
    the functions it calls return, or a call of `net::HttpServer`. -/
inductive Action
  | start (threadStarts : Bool) (outputDirectory frontendDir : FilePath)
  | stop
  | terminate
  | runMain
  | runServer (g : Gen)
  | createForHttpServer (g : Gen) (socket : Option ServerSocket)
  | getLocalAddress (g : Gen) (address : Option IPEndPoint)
  | postServerStarted (g : Gen)
  | event (g : Gen) (e : Event) (read : FilePath → ReadResult)
  | deleteThread (g : Gen)

/-- The next state, if the action is possible. The main thread does one thing at a
    time, and so does a server thread. -/
def step (env : Env) (s : State) (a : Action) : Option State :=
  if s.fault.isSome then none
  else match a with
  | .start threadStarts outputDirectory frontendDir =>
    if s.terminating.isSome then none else some (s.start threadStarts outputDirectory frontendDir)
  | .stop => if s.terminating.isSome then none else some s.stop
  | .terminate => s.terminating.map s.terminateStep
  | .runMain =>
    if s.terminating.isSome then none
    else match s.tasks with
      | [] => none
      | task :: tasks => some ({ s with tasks := tasks }.runMainTask task)
  | .runServer g =>
    if (s.server g).running.isSome then none
    else match (s.server g).queue with
      | [] => none
      | task :: queue =>
        some ((s.setServer g { s.server g with queue := queue }).runServerTask g task)
  | .createForHttpServer g socket =>
    match (s.server g).running with
    | some f => if f.stage = .create then
        some (s.setServer g ((s.server g).createForHttpServer f socket))
      else none
    | none => none
  | .getLocalAddress g address =>
    match (s.server g).running with
    | some f => if f.stage = .address then
        some (s.setServer g { s.server g with
          running := some { f with stage := .post (some g) address } })
      else none
    | none => none
  | .postServerStarted g =>
    match (s.server g).running with
    | some f => match f.stage with
      | .post serverWrapper ipAddress => some (s.postServerStarted g f serverWrapper ipAddress)
      | _ => none
    | none => none
  | .event g e read =>
    match (s.server g).serverWrapper with
    | some w =>
      if (s.server g).running.isNone ∧ ¬s.IsDeleted (.serverWrapper g) ∧ e.Allowed w.events then
        some (s.onEvent env g w e read)
      else none
    | none => none
  | .deleteThread g =>
    if g ∈ s.pool ∧ (s.server g).running.isNone ∧ (s.server g).queue = [] then
      some ({ s with pool := s.pool.erase g }.delete (.thread g) .pool)
    else none

/-- The server, before any start. -/
def machine (env : Env) : Machine State Action := ⟨{}, step env⟩

/-- The actions of a start, the `g`th, that succeeds: its server then listens on
    `address`, and is owned by the handler. -/
def startUp (g : Gen) (address : IPEndPoint) : List Action :=
  [.start true [] (bytes "/srv"), .runServer g, .createForHttpServer g (some address),
    .getLocalAddress g (some address), .postServerStarted g, .runMain]

/-- The actions of a client that connects to the server `g`, upgrades to a WebSocket
    and sends a message, until both have been forwarded. -/
def chat (g : Gen) (connectionId : ℤ) (data : Bytes) : List Action :=
  [.event g (.onConnect connectionId) noFiles,
    .event g (.onWebSocketRequest connectionId pageRequest) noFiles,
    .event g (.onWebSocketMessage connectionId data) noFiles, .runMain, .runMain]

/-! ## What a step does -/

/-- The steps of the machine, one by one. -/
inductive Transition (env : Env) (s : State) : Action → State → Prop
  | startRefused {threadStarts : Bool} {od fd : FilePath} (hm : s.terminating = none)
    (hh : s.httpHandler.isSome) : Transition env s (.start threadStarts od fd) s
  | start {threadStarts : Bool} {od fd : FilePath} (hm : s.terminating = none)
    (hh : s.httpHandler = none) :
    Transition env s (.start threadStarts od fd) (s.makeHandler threadStarts od fd)
  | stop (hm : s.terminating = none) : Transition env s .stop s.stop
  | terminate {f : Termination} (hf : s.terminating = some f) :
    Transition env s .terminate (s.terminateStep f)
  | runMain {task : MainTask} {tasks : List MainTask} (hm : s.terminating = none)
    (ht : s.tasks = task :: tasks) :
    Transition env s .runMain ({ s with tasks := tasks }.runMainTask task)
  | runServer {g : Gen} {task : ServerTask} {queue : List ServerTask}
    (hf : (s.server g).running = none) (hq : (s.server g).queue = task :: queue) :
    Transition env s (.runServer g)
      ((s.setServer g { s.server g with queue := queue }).runServerTask g task)
  | createForHttpServer {g : Gen} {f : StartFrame} {socket : Option ServerSocket}
    (hf : (s.server g).running = some f) (hstage : f.stage = .create) :
    Transition env s (.createForHttpServer g socket)
      (s.setServer g ((s.server g).createForHttpServer f socket))
  | getLocalAddress {g : Gen} {f : StartFrame} {address : Option IPEndPoint}
    (hf : (s.server g).running = some f) (hstage : f.stage = .address) :
    Transition env s (.getLocalAddress g address)
      (s.setServer g { s.server g with running := some { f with stage := .post (some g) address } })
  | postServerStarted {g : Gen} {f : StartFrame} {serverWrapper : Option Gen}
    {ip : Option IPEndPoint} (hf : (s.server g).running = some f)
    (hstage : f.stage = .post serverWrapper ip) :
    Transition env s (.postServerStarted g) (s.postServerStarted g f serverWrapper ip)
  | event {g : Gen} {e : Event} {read : FilePath → ReadResult} {w : ServerWrapper}
    (hw : (s.server g).serverWrapper = some w) (hf : (s.server g).running = none)
    (hdel : ¬s.IsDeleted (.serverWrapper g)) (he : e.Allowed w.events) :
    Transition env s (.event g e read) (s.onEvent env g w e read)
  | deleteThread {g : Gen} (hg : g ∈ s.pool) (hf : (s.server g).running = none)
    (hq : (s.server g).queue = []) :
    Transition env s (.deleteThread g)
      ({ s with pool := s.pool.erase g }.delete (.thread g) .pool)

theorem transition_of_step {env : Env} {s s' : State} {a : Action} (h : step env s a = some s') :
    s.fault = none ∧ Transition env s a s' := by
  unfold step at h
  obtain ⟨hfault, h⟩ := Option.ite_none_left_eq_some.1 h
  refine ⟨by simpa using hfault, ?_⟩
  cases a with
  | start threadStarts od fd =>
    simp only [Option.ite_none_left_eq_some, Option.some.injEq] at h
    obtain ⟨hm, rfl⟩ := h
    rw [State.start]
    split_ifs with hh
    · exact .startRefused (by simpa using hm) hh
    · exact .start (by simpa using hm) (by simpa using hh)
  | stop =>
    simp only [Option.ite_none_left_eq_some, Option.some.injEq] at h
    obtain ⟨hm, rfl⟩ := h
    exact .stop (by simpa using hm)
  | terminate =>
    obtain ⟨f, hf, rfl⟩ := Option.map_eq_some_iff.1 h
    exact .terminate hf
  | runMain =>
    obtain ⟨hm, h⟩ := Option.ite_none_left_eq_some.1 h
    cases ht : s.tasks with
    | nil => simp [ht] at h
    | cons task tasks =>
      simp only [ht, Option.some.injEq] at h
      exact h ▸ .runMain (by simpa using hm) ht
  | runServer g =>
    obtain ⟨hf, h⟩ := Option.ite_none_left_eq_some.1 h
    cases hq : (s.server g).queue with
    | nil => simp [hq] at h
    | cons task queue =>
      simp only [hq, Option.some.injEq] at h
      exact h ▸ .runServer (by simpa using hf) hq
  | createForHttpServer g socket =>
    cases hf : (s.server g).running with
    | none => simp [hf] at h
    | some f =>
      simp only [hf, Option.ite_none_right_eq_some, Option.some.injEq] at h
      exact h.2 ▸ .createForHttpServer hf h.1
  | getLocalAddress g address =>
    cases hf : (s.server g).running with
    | none => simp [hf] at h
    | some f =>
      simp only [hf, Option.ite_none_right_eq_some, Option.some.injEq] at h
      exact h.2 ▸ .getLocalAddress hf h.1
  | postServerStarted g =>
    cases hf : (s.server g).running with
    | none => simp [hf] at h
    | some f =>
      cases hstage : f.stage with
      | post w ip =>
        simp only [hf, hstage, Option.some.injEq] at h
        exact h ▸ .postServerStarted hf hstage
      | _ => simp [hf, hstage] at h
  | event g e read =>
    cases hw : (s.server g).serverWrapper with
    | none => simp [hw] at h
    | some w =>
      simp only [hw, Option.ite_none_right_eq_some, Option.some.injEq] at h
      obtain ⟨⟨hf, hdel, he⟩, rfl⟩ := h
      exact .event hw (by simpa using hf) hdel he
  | deleteThread g =>
    simp only [Option.ite_none_right_eq_some, Option.some.injEq] at h
    obtain ⟨⟨hg, hf, hq⟩, rfl⟩ := h
    exact .deleteThread hg (by simpa using hf) hq

end Qlabs.Http
