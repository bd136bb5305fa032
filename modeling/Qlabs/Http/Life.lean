import Mathlib.Data.Finset.Dedup
import Mathlib.Data.Finset.Insert
import Qlabs.Http.Step
import Qlabs.Relay

/-!
# The life of a start

What the state says about one start (`State.view`): its handler, while it is
alive, its tasks in the queue of the main thread, its server thread, and what of
it has been deleted. The views of a reachable state are those of the *life* of a
start (`Life`):

* its thread may not start (`Life.unstarted`);
* else `StartServerOnHandlerThread` waits in the queue of the thread, runs, and
  posts `ServerStartedOnDedicatedRunner` (`Life.pending` to `Life.posted`);
* if there is a wrapper, and the handler is still alive, the handler then owns
  everything, and serves (`Life.live`);
* else, and also when the live handler is destroyed, what has been made is
  deleted (`Life.condemned`): the wrapper and the factory by tasks posted to the
  thread, and then the thread, by the pool (`Condemned`).

All along, a view is a relay (`View.relay`), from the events of the wrapper to
the calls it makes in its tasks, through the queues of the two threads: the
handler forwards a request as an `AcceptWebSocket`, and a message as a
`SendOverWebSocket` if it knows the connection (`forward`).
-/

namespace Qlabs.Http

/-! ## Views -/

/-- What the state says about one start. -/
@[ext] structure View where
  handler : Option SimpleHttpHandler := none
  tasks : List MainTask := []
  terminating : Option Termination := none
  server : Server := {}
  pool : List Gen := []
  deleted : List (Resource × Runner) := []

/-- What the state says about the start `g`. -/
def State.view (s : State) (g : Gen) : View where
  handler := s.httpHandler.filter (·.id = g)
  tasks := s.tasks.filter (·.handler = g)
  terminating := s.terminating.filter (·.gen = g)
  server := s.server g
  pool := s.pool.filter (· = g)
  deleted := s.deleted.filter (·.1.gen = g)

/-- A task from an event, bound to the handler `g`. -/
def MainTask.IsWebSocket (g : Gen) : MainTask → Prop
  | .onWebSocketRequest h .. | .onWebSocketMessage h .. => h = g
  | .serverStartedOnDedicatedRunner .. => False

/-- A task bound, through a raw pointer, to the wrapper of the start `g`. -/
def ServerTask.IsUnretained (g : Gen) : ServerTask → Prop
  | .acceptWebSocket w .. | .sendOverWebSocket w .. => w = some g
  | _ => False

/-- A task about the objects of the start `g`. -/
def ServerTask.IsOf (g : Gen) : ServerTask → Prop
  | .startServerOnHandlerThread h t c _ _ => h = g ∧ t = g ∧ c = g
  | .acceptWebSocket w .. | .sendOverWebSocket w .. => w = some g
  | .deleteServerWrapper w => w = g
  | .deleteSocketFactory c => c = g

theorem ServerTask.IsUnretained.isOf {g : Gen} {t : ServerTask} (h : t.IsUnretained g) :
    t.IsOf g := by
  cases t with
  | acceptWebSocket => exact h
  | sendOverWebSocket => exact h
  | _ => cases h

theorem ServerTask.IsUnretained.eq {g g' : Gen} {t : ServerTask} (h : t.IsUnretained g)
    (h' : t.IsOf g') : g = g' := by
  cases t with
  | acceptWebSocket => exact Option.some.inj (h.symm.trans h')
  | sendOverWebSocket => exact Option.some.inj (h.symm.trans h')
  | _ => cases h

instance (g : Gen) : (t : MainTask) → Decidable (t.IsWebSocket g)
  | .onWebSocketRequest h .. | .onWebSocketMessage h .. => inferInstanceAs (Decidable (h = g))
  | .serverStartedOnDedicatedRunner .. => inferInstanceAs (Decidable False)

instance (g : Gen) : (t : ServerTask) → Decidable (t.IsUnretained g)
  | .acceptWebSocket w .. | .sendOverWebSocket w .. => inferInstanceAs (Decidable (w = some g))
  | .startServerOnHandlerThread .. | .deleteServerWrapper _ | .deleteSocketFactory _ =>
    inferInstanceAs (Decidable False)

@[simp] theorem MainTask.isWebSocket_request {g h : Gen} {c : ℤ} {info : HttpServerRequestInfo} :
    (onWebSocketRequest h c info).IsWebSocket g ↔ h = g := .rfl

@[simp] theorem MainTask.isWebSocket_message {g h : Gen} {c : ℤ} {data : Bytes} :
    (onWebSocketMessage h c data).IsWebSocket g ↔ h = g := .rfl

@[simp] theorem MainTask.not_isWebSocket {g h : Gen} {t w c : Option Gen} {ip : Option IPEndPoint} :
    ¬(serverStartedOnDedicatedRunner h t w c ip).IsWebSocket g := id

theorem MainTask.IsWebSocket.handler {g : Gen} {t : MainTask} (h : t.IsWebSocket g) :
    t.handler = g := by
  cases t with
  | serverStartedOnDedicatedRunner => cases h
  | onWebSocketRequest => exact h
  | onWebSocketMessage => exact h

theorem Event.isWebSocket_mainTask {g : Gen} {e : Event} :
    ∀ t ∈ (e.mainTask g).toList, t.IsWebSocket g := by
  cases e <;> simp [Event.mainTask]

/-! ## The wrapper and the handler -/

variable (env : Env) (g : Gen)

/-- What a wrapper may have done: it received events as `net::HttpServer` calls
    it, and ran tasks bound to it, making the calls of each. -/
inductive LogValid (frontendDir : FilePath) : List Entry → Prop
  | nil : LogValid frontendDir []
  | event {log : List Entry} (e : Event) (read : FilePath → ReadResult) :
    LogValid frontendDir log → e.Allowed (log.filterMap Entry.event?) →
    LogValid frontendDir (log ++ [.event e (e.calls env frontendDir read)])
  | task {log : List Entry} (t : ServerTask) :
    LogValid frontendDir log → t.IsUnretained g → LogValid frontendDir (log ++ [.task t t.calls])

/-- A wrapper of the start `g`. -/
structure ServerWrapper.Valid (w : ServerWrapper) : Prop where
  handler : w.handler = g
  log : LogValid env g w.frontendDir w.log

theorem ServerWrapper.Valid.some {env : Env} {g : Gen} {w : ServerWrapper} (hw : w.Valid env g) :
    ∀ w' ∈ some w, w'.Valid env g :=
  fun _ h => Option.some.inj h ▸ hw

theorem ServerWrapper.Valid.event {env : Env} {g : Gen} {w : ServerWrapper} (hw : w.Valid env g)
    {e : Event} (he : e.Allowed w.events) (read : FilePath → ReadResult) :
    (w.record (.event e (e.calls env w.frontendDir read))).Valid env g :=
  ⟨hw.handler, hw.log.event e read he⟩

theorem ServerWrapper.Valid.task {env : Env} {g : Gen} {w : ServerWrapper} (hw : w.Valid env g)
    {t : ServerTask} (ht : t.IsUnretained g) :
    (w.record (.task t t.calls)).Valid env g :=
  ⟨hw.handler, hw.log.task t ht⟩

/-- The handler, once it owns the server of its start. -/
structure SimpleHttpHandler.Owns (h : SimpleHttpHandler) : Prop where
  id : h.id = g
  thread : h.thread = some g
  serverWrapper : h.serverWrapper = some g
  socketFactory : h.socketFactory = some g
  agents : ∀ c a, h.connectionToClient.lookup c = some a → a = ⟨g, some g, c⟩

/-- The handler, before it owns anything, if it is alive. -/
def waiting (alive : Bool) : Option SimpleHttpHandler := if alive then some { id := g } else none

/-- The pointer to the wrapper, if there is one. -/
def pointer (w : Option ServerWrapper) : Option Gen := w.map fun _ => g

/-! ## Deletion -/

/-- The wrapper, if there was one, is deleted or to be deleted by the thread,
    after the tasks bound to it: what is in the queue, and what is deleted. -/
inductive WrapperDeletion : Bool → List ServerTask → List (Resource × Runner) → Prop
  | absent : WrapperDeletion false [] []
  | queued {q : List ServerTask} (hq : ∀ t ∈ q, t.IsUnretained g) :
    WrapperDeletion true (q ++ [.deleteServerWrapper g]) []
  | done : WrapperDeletion true [] [(.serverWrapper g, .server g)]

/-- So is the socket factory, after the wrapper. -/
inductive FactoryDeletion (hasWrapper : Bool) : List ServerTask → List (Resource × Runner) → Prop
  | queued {q : List ServerTask} {d : List (Resource × Runner)} :
    WrapperDeletion g hasWrapper q d →
    FactoryDeletion hasWrapper (q ++ [.deleteSocketFactory g]) d
  | done {d : List (Resource × Runner)} : WrapperDeletion g hasWrapper [] d →
    FactoryDeletion hasWrapper [] (d ++ [(.socketFactory g, .server g)])

/-- The deletion of what a start made: the running `TerminateOnDeciatedRunner`
    and what it still holds, the queue of the thread, the thread in the pool,
    and what is deleted. -/
inductive Condemned (hasWrapper : Bool) :
    Option Termination → List ServerTask → List Gen → List (Resource × Runner) → Prop
  | wrapperHeld {q : List ServerTask} (hw : hasWrapper) (hq : ∀ t ∈ q, t.IsUnretained g) :
    Condemned hasWrapper (some ⟨g, some g, some g, some g⟩) q [] []
  | factoryHeld {q : List ServerTask} {d : List (Resource × Runner)} :
    WrapperDeletion g hasWrapper q d →
    Condemned hasWrapper (some ⟨g, some g, none, some g⟩) q [] d
  | threadHeld {q : List ServerTask} {d : List (Resource × Runner)} :
    FactoryDeletion g hasWrapper q d →
    Condemned hasWrapper (some ⟨g, some g, none, none⟩) q [] d
  | pooled {q : List ServerTask} {d : List (Resource × Runner)} :
    FactoryDeletion g hasWrapper q d → Condemned hasWrapper none q [g] d
  | done {d : List (Resource × Runner)} : FactoryDeletion g hasWrapper [] d →
    Condemned hasWrapper none [] [] (d ++ [(.thread g, .pool)])

section Deletion

variable {g} {b : Bool} {q : List ServerTask} {d : List (Resource × Runner)}

theorem WrapperDeletion.mem (h : WrapperDeletion g b q d) :
    ∀ t ∈ q, t.IsUnretained g ∨ t = .deleteServerWrapper g := by
  cases h with
  | absent => simp
  | done => simp
  | queued hq =>
    intro t ht
    simpa using (List.mem_append.1 ht).imp_left (hq t)

theorem FactoryDeletion.mem (h : FactoryDeletion g b q d) :
    ∀ t ∈ q, t.IsUnretained g ∨ t = .deleteServerWrapper g ∨ t = .deleteSocketFactory g := by
  cases h with
  | done => simp
  | queued h =>
    intro t ht
    rcases List.mem_append.1 ht with ht | ht
    · exact (h.mem t ht).imp_right .inl
    · exact .inr (.inr (by simpa using ht))

theorem Condemned.mem {f : Option Termination} {pool : List Gen} (h : Condemned g b f q pool d) :
    ∀ t ∈ q, t.IsUnretained g ∨ t = .deleteServerWrapper g ∨ t = .deleteSocketFactory g := by
  cases h with
  | wrapperHeld hw hq => exact fun t ht => .inl (hq t ht)
  | factoryHeld h => exact fun t ht => (h.mem t ht).imp_right .inl
  | threadHeld h => exact h.mem
  | pooled h => exact h.mem
  | done h => exact h.mem

/-- The deletion of the wrapper, once posted, waits or has run. -/
theorem WrapperDeletion.deletionPosted (h : WrapperDeletion g true q d) :
    .deleteServerWrapper g ∈ q ∨ .serverWrapper g ∈ d.map Prod.fst := by
  generalize hb : true = b at h
  cases h <;> simp at hb ⊢

theorem FactoryDeletion.deletionPosted (h : FactoryDeletion g b q d) :
    (.deleteSocketFactory g ∈ q ∨ .socketFactory g ∈ d.map Prod.fst) ∧
      (b = true → .deleteServerWrapper g ∈ q ∨ .serverWrapper g ∈ d.map Prod.fst) := by
  cases h with
  | queued h =>
    refine ⟨.inl (by simp), ?_⟩
    rintro rfl
    simpa using h.deletionPosted
  | done h =>
    refine ⟨.inr (by simp), ?_⟩
    rintro rfl
    simpa using h.deletionPosted

end Deletion

/-! ## The life of a start -/

/-- The server of a start, on its thread. -/
def serverOf (queue : List ServerTask) (running : Option StartFrame)
    (created : Option (Option ServerSocket)) (w : Option ServerWrapper) : Server :=
  { started := true, queue := queue, running := running, created := created, serverWrapper := w }

section serverOf

variable (q : List ServerTask) (f : Option StartFrame) (c : Option (Option ServerSocket))
  (w : Option ServerWrapper)

@[simp] theorem serverOf_started : (serverOf q f c w).started = true := rfl
@[simp] theorem serverOf_queue : (serverOf q f c w).queue = q := rfl
@[simp] theorem serverOf_running : (serverOf q f c w).running = f := rfl
@[simp] theorem serverOf_created : (serverOf q f c w).created = c := rfl
@[simp] theorem serverOf_serverWrapper : (serverOf q f c w).serverWrapper = w := rfl

end serverOf

/-- The views of a start, from before it to after everything is deleted. -/
inductive Life : View → Prop
  | unborn : Life {}
  | unstarted (alive : Bool) :
    Life {
      handler := waiting g alive
      deleted := [(.thread g, .main), (.socketFactory g, .main)] }
  | pending (alive : Bool) (od fd : FilePath) :
    Life {
      handler := waiting g alive
      server := serverOf [.startServerOnHandlerThread g g g od fd] none none none }
  | creating (alive : Bool) (od fd : FilePath) :
    Life {
      handler := waiting g alive
      server := serverOf [] (some ⟨g, g, g, od, fd, .create⟩) none none }
  | addressing (alive : Bool) (od fd : FilePath) {w : ServerWrapper} (hw : w.Valid env g)
    (hlog : w.log = []) :
    Life {
      handler := waiting g alive
      server := serverOf [] (some ⟨g, g, g, od, fd, .address⟩) (some (some w.server)) (some w) }
  | posting (alive : Bool) (od fd : FilePath) (ip : Option IPEndPoint) {w : Option ServerWrapper}
    (hw : ∀ w' ∈ w, w'.Valid env g) (hlog : ∀ w' ∈ w, w'.log = []) :
    Life {
      handler := waiting g alive
      server := serverOf [] (some ⟨g, g, g, od, fd, .post (pointer g w) ip⟩)
        (some (w.map ServerWrapper.server)) w }
  | posted (alive : Bool) (ip : Option IPEndPoint) {w : Option ServerWrapper}
    {tasks : List MainTask} (hw : ∀ w' ∈ w, w'.Valid env g) (ht : ∀ t ∈ tasks, t.IsWebSocket g)
    (hnone : w = none → tasks = []) :
    Life {
      handler := waiting g alive
      tasks := .serverStartedOnDedicatedRunner g (some g) (pointer g w) (some g) ip :: tasks
      server := serverOf [] none (some (w.map ServerWrapper.server)) w }
  | live {h : SimpleHttpHandler} {w : ServerWrapper} {tasks : List MainTask}
    {queue : List ServerTask} (hh : h.Owns g) (hw : w.Valid env g)
    (ht : ∀ t ∈ tasks, t.IsWebSocket g) (hq : ∀ t ∈ queue, t.IsUnretained g) :
    Life {
      handler := some h
      tasks := tasks
      server := serverOf queue none (some (some w.server)) (some w) }
  | condemned (alive : Bool) {w : Option ServerWrapper} {tasks : List MainTask}
    {f : Option Termination} {queue : List ServerTask} {pool : List Gen}
    {deleted : List (Resource × Runner)} (halive : alive → w = none ∧ tasks = [])
    (hw : ∀ w' ∈ w, w'.Valid env g) (ht : ∀ t ∈ tasks, t.IsWebSocket g)
    (hc : Condemned g w.isSome f queue pool deleted) :
    Life {
      handler := waiting g alive
      tasks := tasks
      terminating := f
      server := serverOf queue none (some (w.map ServerWrapper.server)) w
      pool := pool
      deleted := deleted }

/-- The queue of the thread of a start has tasks about the start only. -/
theorem Life.isOf {env : Env} {g : Gen} {v : View} (h : Life env g v) :
    ∀ t ∈ v.server.queue, t.IsOf g := by
  cases h with
  | pending alive od fd => exact fun t ht => List.mem_singleton.1 ht ▸ ⟨rfl, rfl, rfl⟩
  | live hh hw ht hq => exact fun t ht => (hq t ht).isOf
  | condemned alive halive hw ht hc =>
    intro t ht
    rcases hc.mem t ht with h | rfl | rfl
    · exact h.isOf
    · exact rfl
    · exact rfl
  | _ => exact fun t ht => absurd ht List.not_mem_nil

/-! ## A start as a relay -/

/-- What the handler posts for a task, and the connections it knows after it. -/
def forward (known : Finset ℤ) : MainTask → Finset ℤ × List ServerTask
  | .onWebSocketRequest _ c info => (insert c known, [.acceptWebSocket (some g) c info])
  | .onWebSocketMessage _ c data =>
    (known, if c ∈ known then [.sendOverWebSocket (some g) c (agentMessage c data)] else [])
  | .serverStartedOnDedicatedRunner .. => (known, [])

/-- The connections a handler has agents for. -/
def SimpleHttpHandler.known (h : SimpleHttpHandler) : Finset ℤ :=
  h.connectionToClient.keys.toFinset

theorem SimpleHttpHandler.mem_known {h : SimpleHttpHandler} {c : ℤ} :
    c ∈ h.known ↔ ∃ a, h.connectionToClient.lookup c = some a := by
  rw [known, List.mem_toFinset, ← AList.mem_keys, ← AList.lookup_isSome, Option.isSome_iff_exists]

/-- The tasks a wrapper has posted to the main thread. -/
def ServerWrapper.posts (w : ServerWrapper) : List MainTask := w.events.filterMap (Event.mainTask g)

/-- A start as a relay, from what its wrapper posts to the tasks it runs. -/
def View.relay (v : View) : Relay (Finset ℤ) MainTask ServerTask where
  source := v.server.serverWrapper.elim [] (·.posts g)
  mailbox := v.tasks.filter (·.IsWebSocket g)
  outbox := v.server.queue.filter (·.IsUnretained g)
  sink := v.server.serverWrapper.elim [] ServerWrapper.tasks
  state := v.handler.map SimpleHttpHandler.known

/-- What a step does to a start, as a relay. -/
inductive FlowStep (v v' : View) : Prop
  | birth (h : v = {}) (h' : v'.relay g = .empty ∅)
  | stutter (h : v'.relay g = v.relay g)
  | step (a : Relay.Action MainTask) (h : Relay.step (forward g) (v.relay g) a = some (v'.relay g))

end Qlabs.Http
