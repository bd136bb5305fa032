import Mathlib.Algebra.Order.BigOperators.Group.Finset
import Qlabs.Http.Ownership
import Qlabs.Http.Replies

/-!
# Draining

The threads of the program go on by themselves, whatever they are interleaved: what is
left for them to do (`State.work`) gets less with each step, unless the program is
started or stopped, or `net::HttpServer` calls a delegate (`advances_step`). As no thread
waits for another one, they only come to a halt when nothing is left (`settled_of_stuck`).

Once the server has been stopped, everything that was ever made is thus deleted
(`stop_completes`). While a server is up, all that its clients have sent is answered
(`answers_complete`).
-/

namespace Qlabs.Http

variable {env : Env} {s s' s'' : State} {g : Gen}

/-- The actions of the threads of the program. -/
def Action.Internal : Action → Prop
  | .start .. | .stop | .event .. => False
  | _ => True

/-! ## What is left to do -/

/-- What is left to do for a running `TerminateOnDeciatedRunner`: a post and the task that
    is posted, for each object, and its end. -/
def Termination.work (f : Termination) : ℕ :=
  1 + 2 * f.thread.toList.length + 2 * f.serverWrapper.toList.length +
    2 * f.socketFactory.toList.length

/-- What a task of the main thread leads to. -/
def MainTask.work : MainTask → ℕ
  | .serverStartedOnDedicatedRunner _ thread serverWrapper socketFactory _ =>
    1 + (Termination.mk 0 thread serverWrapper socketFactory).work
  | _ => 2

/-- What is left to do for a running `StartServerOnHandlerThread`. -/
def Stage.work : Stage → ℕ
  | .create => 11
  | .address => 10
  | .post .. => 9

/-- What a task of a server thread leads to. -/
def ServerTask.work : ServerTask → ℕ
  | .startServerOnHandlerThread .. => 12
  | _ => 1

/-- What is left to do on a server thread. -/
def Server.work (v : Server) : ℕ :=
  (v.queue.map ServerTask.work).sum + v.running.elim 0 fun f => f.stage.work

/-- What is left to do on the server threads. -/
def State.serversWork (s : State) : ℕ := ∑ g ∈ Finset.range s.starts, (s.server g).work

/-- What is left to do. -/
def State.work (s : State) : ℕ :=
  (s.tasks.map MainTask.work).sum + s.terminating.elim 0 Termination.work + s.pool.length +
    s.serversWork

theorem terminateOnDeciatedRunner_work (g : Gen) (thread serverWrapper socketFactory : Option Gen) :
    (terminateOnDeciatedRunner g thread serverWrapper socketFactory).elim 0 Termination.work ≤
      (Termination.mk g thread serverWrapper socketFactory).work := by
  rw [terminateOnDeciatedRunner]
  split_ifs
  · exact Nat.zero_le _
  · exact le_rfl

/-! ## What the functions of the program cost -/

/-- The server has no other directories than these two, to write to and to serve. -/
structure Server.Dirs (outputDirectory frontendDir : FilePath) (v : Server) : Prop where
  queue : ∀ h t c od fd, .startServerOnHandlerThread h t c od fd ∈ v.queue →
    od = outputDirectory ∧ fd = frontendDir
  running : ∀ f, v.running = some f →
    f.outputDirectory = outputDirectory ∧ f.frontendDir = frontendDir
  wrapper : ∀ w, v.serverWrapper = some w → w.frontendDir = frontendDir

/-- The server `v'` is `v`, further on: its wrapper has had the same events, and it has the
    same directories. -/
structure Server.Keeps (v v' : Server) : Prop where
  started : v'.started = v.started
  events : ∀ w ∈ v.serverWrapper, ∃ w' ∈ v'.serverWrapper, w'.events = w.events
  dirs : ∀ od fd, v.Dirs od fd → v'.Dirs od fd

/-- From `s` to `s'`, nothing is started or stopped, and no wrapper has an event. -/
structure Keeps (s s' : State) : Prop where
  starts : s'.starts = s.starts
  handler : s'.httpHandler.map SimpleHttpHandler.id = s.httpHandler.map SimpleHttpHandler.id
  server : ∀ g, (s.server g).Keeps (s'.server g)

/-- From `s` to `s'`, what is left to do on the server threads has become `k` more, at
    most, and the other threads are as they were. -/
structure Costs (k : ℕ) (s s' : State) : Prop extends Keeps s s' where
  tasks : s'.tasks = s.tasks
  terminating : s'.terminating = s.terminating
  pool : s'.pool = s.pool
  serversWork : s'.serversWork ≤ s.serversWork + k

theorem Server.Keeps.refl (v : Server) : v.Keeps v :=
  ⟨rfl, fun w hw => ⟨w, hw, rfl⟩, fun _ _ h => h⟩

theorem Server.Keeps.trans {v v' v'' : Server} (h : v.Keeps v') (h' : v'.Keeps v'') :
    v.Keeps v'' where
  started := h'.started.trans h.started
  events w hw := by
    obtain ⟨w', hw', he⟩ := h.events w hw
    obtain ⟨w'', hw'', he'⟩ := h'.events w' hw'
    exact ⟨w'', hw'', he'.trans he⟩
  dirs od fd hdirs := h'.dirs od fd (h.dirs od fd hdirs)

/-- Some of the queue is left, and what runs has the same directories, if anything does. -/
theorem Server.keeps_of_queue {v : Server} {queue : List ServerTask} {running : Option StartFrame}
    (hqueue : queue ⊆ v.queue) (hrunning : ∀ od fd, v.Dirs od fd → ∀ f, running = some f →
      f.outputDirectory = od ∧ f.frontendDir = fd) :
    v.Keeps { v with queue := queue, running := running } where
  started := rfl
  events w hw := ⟨w, hw, rfl⟩
  dirs od fd hdirs :=
    ⟨fun h t c od' fd' ht => hdirs.queue h t c od' fd' (hqueue ht), hrunning od fd hdirs,
      hdirs.wrapper⟩

theorem Keeps.trans (h : Keeps s s') (h' : Keeps s' s'') : Keeps s s'' where
  starts := h'.starts.trans h.starts
  handler := h'.handler.trans h.handler
  server g := (h.server g).trans (h'.server g)

theorem Keeps.of_eq (hstarts : s'.starts = s.starts)
    (hhandler : s'.httpHandler.map SimpleHttpHandler.id = s.httpHandler.map SimpleHttpHandler.id)
    (hserver : s'.server = s.server) : Keeps s s' :=
  ⟨hstarts, hhandler, fun g => by rw [hserver]; exact .refl _⟩

theorem Keeps.alive (h : Keeps s s') : s'.Alive g ↔ s.Alive g := by
  have hiff : ∀ s : State, s.Alive g ↔ s.httpHandler.map SimpleHttpHandler.id = some g :=
    fun s => by simp [State.Alive]
  rw [hiff, hiff, h.handler]

theorem keeps_setServer {v : Server} (hv : (s.server g).Keeps v) : Keeps s (s.setServer g v) := by
  refine ⟨rfl, rfl, fun g' => ?_⟩
  rcases eq_or_ne g' g with rfl | hne
  · simpa using hv
  · simpa [State.setServer, hne] using .refl _

theorem Costs.work_le {k : ℕ} (h : Costs k s s') : s'.work ≤ s.work + k := by
  have := h.serversWork
  rw [State.work, State.work, h.tasks, h.terminating, h.pool]
  omega

theorem Costs.trans {k k' : ℕ} (h : Costs k s s') (h' : Costs k' s' s'') :
    Costs (k + k') s s'' where
  toKeeps := h.toKeeps.trans h'.toKeeps
  tasks := h'.tasks.trans h.tasks
  terminating := h'.terminating.trans h.terminating
  pool := h'.pool.trans h.pool
  serversWork := by
    have := h.serversWork
    have := h'.serversWork
    omega

theorem Costs.mono {k k' : ℕ} (h : Costs k s s') (hk : k ≤ k') : Costs k' s s' :=
  { h with serversWork := h.serversWork.trans (Nat.add_le_add_left hk _) }

theorem serversWork_of_eq (hstarts : s'.starts = s.starts) (hserver : s'.server = s.server) :
    s'.serversWork = s.serversWork := by
  rw [State.serversWork, State.serversWork, hstarts, hserver]

/-- Only the handler, what is deleted, and the fault may have changed. -/
theorem Costs.of_eq (hstarts : s'.starts = s.starts)
    (hhandler : s'.httpHandler.map SimpleHttpHandler.id = s.httpHandler.map SimpleHttpHandler.id)
    (htasks : s'.tasks = s.tasks) (hterminating : s'.terminating = s.terminating)
    (hpool : s'.pool = s.pool) (hserver : s'.server = s.server) : Costs 0 s s' :=
  ⟨.of_eq hstarts hhandler hserver, htasks, hterminating, hpool,
    (serversWork_of_eq hstarts hserver).le⟩

theorem serversWork_setServer (hg : g < s.starts) (v : Server) :
    (s.setServer g v).serversWork + (s.server g).work = s.serversWork + v.work := by
  have hmem : g ∈ Finset.range s.starts := Finset.mem_range.2 hg
  have hrest : ∑ g' ∈ (Finset.range s.starts).erase g, ((s.setServer g v).server g').work =
      ∑ g' ∈ (Finset.range s.starts).erase g, (s.server g').work :=
    Finset.sum_congr rfl fun g' hg' => by
      rw [State.server_setServer_of_ne v (Finset.ne_of_mem_erase hg')]
  calc (s.setServer g v).serversWork + (s.server g).work
      = ((s.setServer g v).server g).work +
          ∑ g' ∈ (Finset.range s.starts).erase g, ((s.setServer g v).server g').work +
          (s.server g).work := congrArg (· + _) (Finset.add_sum_erase _ _ hmem).symm
    _ = (s.server g).work + ∑ g' ∈ (Finset.range s.starts).erase g, (s.server g').work +
          v.work := by rw [hrest, State.server_setServer]; omega
    _ = s.serversWork + v.work :=
      congrArg (· + _) (Finset.add_sum_erase _ (fun g' => (s.server g').work) hmem)

/-- The server of a start to come does not count. -/
theorem serversWork_setServer_of_le (hg : s.starts ≤ g) (v : Server) :
    (s.setServer g v).serversWork = s.serversWork :=
  Finset.sum_congr rfl fun g' hg' => by
    rw [State.server_setServer_of_ne v ((Finset.mem_range.1 hg').trans_le hg).ne]

theorem costs_setServer {v : Server} {k : ℕ} (hkeeps : (s.server g).Keeps v)
    (hv : v.work ≤ (s.server g).work + k) : Costs k s (s.setServer g v) := by
  refine ⟨keeps_setServer hkeeps, rfl, rfl, rfl, ?_⟩
  rcases lt_or_ge g s.starts with hg | hg
  · have := serversWork_setServer hg v
    omega
  · rw [serversWork_setServer_of_le hg]
    exact Nat.le_add_right _ _

theorem costs_post (t : Gen) {task : ServerTask} (htask : task.work = 1) :
    Costs 1 s (s.post t task) := by
  refine costs_setServer ⟨rfl, fun w hw => ⟨w, hw, rfl⟩, fun od fd hdirs => ?_⟩ ?_
  · refine ⟨fun h t' c od' fd' ht => ?_, hdirs.running, hdirs.wrapper⟩
    rcases List.mem_append.1 ht with ht | ht
    · exact hdirs.queue h t' c od' fd' ht
    · -- A start is more work.
      rw [← List.mem_singleton.1 ht] at htask
      cases htask
  · simp only [Server.work, List.map_append, List.sum_append, List.map_singleton,
      List.sum_singleton, htask]
    omega

theorem costs_fault {k : ℕ} (fault : Option Fault) : Costs k s { s with fault := fault } :=
  Costs.mono (k := 0) (.of_eq rfl rfl rfl rfl rfl rfl) (Nat.zero_le k)

theorem costs_postOn (thread : Option Gen) {task : ServerTask} (htask : task.work = 1) :
    Costs 1 s (s.postOn thread task) := by
  cases thread with
  | none => exact costs_fault _
  | some t =>
    rw [State.postOn]
    split_ifs
    · exact costs_fault _
    · exact costs_post t htask

theorem costs_delete (r : Resource) (runner : Runner) : Costs 0 s (s.delete r runner) := by
  rw [State.delete]
  split_ifs
  · exact costs_fault _
  · exact .of_eq rfl rfl rfl rfl rfl rfl

theorem costs_foldl_delete (rs : List Resource) (runner : Runner) :
    Costs 0 s (rs.foldl (fun s r => s.delete r runner) s) := by
  induction rs generalizing s with
  | nil => exact .of_eq rfl rfl rfl rfl rfl rfl
  | cons r rs ih => exact (costs_delete r runner).trans ih

theorem costs_onWrapper (w : Option Gen) {entry : Entry} (he : entry.event? = none) :
    Costs 0 s (s.onWrapper w entry) := by
  cases w with
  | none => exact costs_fault _
  | some w =>
    rw [State.onWrapper]
    split_ifs
    · exact costs_fault _
    · cases hw : (s.server w).serverWrapper with
      | none => exact costs_fault _
      | some wrapper =>
        refine costs_setServer ⟨rfl, fun w' hw' => ⟨_, rfl, ?_⟩, fun od fd hdirs => ?_⟩ le_rfl
        · obtain rfl : wrapper = w' := Option.some.inj (hw.symm.trans hw')
          rw [ServerWrapper.events_record, he]
          exact List.append_nil _
        · refine ⟨hdirs.queue, hdirs.running, fun w' hw' => ?_⟩
          rw [← Option.some.inj hw', ServerWrapper.record_frontendDir]
          exact hdirs.wrapper wrapper hw

/-- The members of the handler alive change. -/
theorem costs_handler {h : SimpleHttpHandler}
    (hid : s.httpHandler.map SimpleHttpHandler.id = some h.id) :
    Costs 0 s { s with httpHandler := some h } :=
  .of_eq rfl hid.symm rfl rfl rfl rfl

/-- A method of the handler that posts at most one task, from which no other comes. -/
theorem costs_onHandler (h : Gen)
    {method : SimpleHttpHandler → SimpleHttpHandler × Option (Gen × ServerTask)}
    (hid : ∀ h, (method h).1.id = h.id) (hwork : ∀ h, ∀ p ∈ (method h).2, p.2.work = 1) :
    Costs 1 s (s.onHandler h method) := by
  have hrefl : Costs 1 s s := costs_fault s.fault
  cases hh : s.httpHandler with
  | none => rwa [State.onHandler, hh]
  | some handler =>
    rcases eq_or_ne handler.id h with rfl | hne
    · have hrun : Costs 0 s { s with httpHandler := some (method handler).1 } :=
        costs_handler (by simp [hh, hid])
      rw [State.onHandler_eq hh rfl]
      cases hp : (method handler).2 with
      | none => exact hrun.mono (Nat.zero_le 1)
      | some p => exact hrun.trans (costs_post p.1 (hwork handler p hp))
    · simpa only [State.onHandler, hh, if_neg hne] using hrefl

/-! ## Steps -/

/-- A thread goes on: it has less to do. -/
structure Advances (s s' : State) : Prop extends Keeps s s' where
  work : s'.work < s.work

/-- `TerminateOnDeciatedRunner` posts a task, and holds less. -/
theorem advances_postOn {f : Termination} {next : Option Termination} {thread : Option Gen}
    {task : ServerTask} (hf : s.terminating = some f)
    (htask : task.work = 1) (hwork : 1 + next.elim 0 Termination.work < f.work) :
    Advances s { s.postOn thread task with terminating := next } := by
  have hcosts : Costs 1 s (s.postOn thread task) := costs_postOn thread htask
  refine ⟨hcosts.toKeeps.trans (.of_eq rfl rfl rfl), ?_⟩
  have hafter : { s.postOn thread task with terminating := next }.work =
      ((s.postOn thread task).tasks.map MainTask.work).sum + next.elim 0 Termination.work +
        (s.postOn thread task).pool.length + (s.postOn thread task).serversWork := rfl
  have hservers := hcosts.serversWork
  rw [hafter, hcosts.tasks, hcosts.pool, State.work, hf, Option.elim_some]
  omega

theorem advances_terminateStep {f : Termination} (hf : s.terminating = some f) :
    Advances s (s.terminateStep f) := by
  rcases f with ⟨g, thread, serverWrapper, socketFactory⟩
  cases serverWrapper with
  | some w =>
    refine advances_postOn hf rfl ?_
    have := terminateOnDeciatedRunner_work g thread none socketFactory
    simp [Termination.work] at this ⊢
    omega
  | none =>
    cases socketFactory with
    | some c =>
      refine advances_postOn hf rfl ?_
      have := terminateOnDeciatedRunner_work g thread none none
      simp [Termination.work] at this ⊢
      omega
    | none =>
      cases thread with
      | some t =>
        refine ⟨.of_eq rfl rfl rfl, ?_⟩
        have hservers : (s.terminateStep ⟨g, some t, none, none⟩).serversWork = s.serversWork :=
          rfl
        simp [State.work, State.terminateStep, hf, Termination.work] at hservers ⊢
        omega
      | none =>
        refine ⟨.of_eq rfl rfl rfl, ?_⟩
        have hservers : (s.terminateStep ⟨g, none, none, none⟩).serversWork = s.serversWork :=
          rfl
        simp [State.work, State.terminateStep, hf, Termination.work] at hservers ⊢
        omega

/-- What the main thread runs is taken from its queue. -/
theorem work_tasks {task : MainTask} {tasks : List MainTask} (ht : s.tasks = task :: tasks) :
    { s with tasks := tasks }.work + task.work = s.work := by
  have hservers : { s with tasks := tasks }.serversWork = s.serversWork := rfl
  simp only [State.work, ht, List.map_cons, List.sum_cons, hservers]
  omega

/-- What `ServerStartedOnDedicatedRunner` gets goes to the handler, or is to be deleted. -/
theorem serverStarted_cases (handler : Gen) (thread serverWrapper socketFactory : Option Gen)
    (ip : Option IPEndPoint) :
    (∃ h, s.httpHandler = some h ∧
      s.serverStartedOnDedicatedRunner handler thread serverWrapper socketFactory ip =
        { h.owned.foldl (fun s r => s.delete r .main) s with
          httpHandler := some (h.serverStarted thread serverWrapper socketFactory ip) }) ∨
      s.serverStartedOnDedicatedRunner handler thread serverWrapper socketFactory ip =
        { s with terminating :=
          terminateOnDeciatedRunner handler thread serverWrapper socketFactory } := by
  rw [State.serverStartedOnDedicatedRunner]
  cases s.httpHandler with
  | none => exact .inr rfl
  | some h =>
    dsimp only
    split_ifs
    · exact .inl ⟨h, rfl, rfl⟩
    · exact .inr rfl

theorem costs_serverStarted {h : SimpleHttpHandler} (hh : s.httpHandler = some h)
    (thread serverWrapper socketFactory : Option Gen) (ip : Option IPEndPoint) :
    Costs 0 s { h.owned.foldl (fun s r => s.delete r .main) s with
      httpHandler := some (h.serverStarted thread serverWrapper socketFactory ip) } := by
  have hdelete : Costs 0 s (h.owned.foldl (fun s r => s.delete r .main) s) :=
    costs_foldl_delete h.owned .main
  exact hdelete.trans (costs_handler (hdelete.handler.trans (by rw [hh]; rfl)))

/-- A task that costs less than it leads to. -/
theorem Costs.advances_runMain {k : ℕ} {task : MainTask} {tasks : List MainTask}
    (ht : s.tasks = task :: tasks) (h : Costs k { s with tasks := tasks } s')
    (hk : k < task.work) : Advances s s' := by
  have hpop : Keeps s { s with tasks := tasks } := .of_eq rfl rfl rfl
  have hle := h.work_le
  have hwork := work_tasks ht
  exact ⟨hpop.trans h.toKeeps, by omega⟩

theorem advances_runMain {task : MainTask} {tasks : List MainTask} (hm : s.terminating = none)
    (ht : s.tasks = task :: tasks) : Advances s ({ s with tasks := tasks }.runMainTask task) := by
  cases task with
  | serverStartedOnDedicatedRunner handler thread serverWrapper socketFactory ip =>
    rw [State.runMainTask]
    rcases serverStarted_cases (s := { s with tasks := tasks }) handler thread serverWrapper
      socketFactory ip with ⟨h, hh, heq⟩ | heq
    · rw [heq]
      exact (costs_serverStarted hh _ _ _ _).advances_runMain ht (by simp [MainTask.work])
    · -- Everything is to be deleted.
      have hwork := work_tasks ht
      have hle := terminateOnDeciatedRunner_work handler thread serverWrapper socketFactory
      refine heq ▸ ⟨.of_eq rfl rfl rfl, ?_⟩
      rw [← hwork]
      simp only [State.work, State.serversWork, hm, Option.elim_none, MainTask.work]
      simp only [Termination.work] at hle ⊢
      omega
  | onWebSocketRequest handler c info =>
    refine (costs_onHandler handler (fun h => ?_) fun h p hp => ?_).advances_runMain ht
      (by simp [MainTask.work])
    · rw [SimpleHttpHandler.onWebSocketRequest]
      cases h.thread <;> rfl
    · rw [SimpleHttpHandler.onWebSocketRequest] at hp
      cases ht : h.thread with
      | none => simp [ht] at hp
      | some t =>
        simp only [ht, Option.mem_some_iff] at hp
        exact hp ▸ rfl
  | onWebSocketMessage handler c data =>
    refine (costs_onHandler handler (fun h => rfl) fun h p hp => ?_).advances_runMain ht
      (by simp [MainTask.work])
    obtain ⟨a, -, rfl⟩ := Option.map_eq_some_iff.1 hp
    rfl

/-- Only a start that was made has work left on its thread. -/
theorem Good.lt_starts_of_work (hs : Good env s) (h : 0 < (s.server g).work) : g < s.starts := by
  refine lt_of_not_ge fun hg => ?_
  have hserver : s.server g = {} := congrArg View.server (hs.fresh g hg)
  simp [hserver, Server.work] at h

/-- A server thread goes on, by itself. -/
theorem advances_setServer (hs : Good env s) {v : Server} (hkeeps : (s.server g).Keeps v)
    (hv : v.work < (s.server g).work) : Advances s (s.setServer g v) := by
  have hservers := serversWork_setServer (hs.lt_starts_of_work (Nat.zero_lt_of_lt hv)) v
  refine ⟨keeps_setServer hkeeps, ?_⟩
  have hafter : (s.setServer g v).work = (s.tasks.map MainTask.work).sum +
      s.terminating.elim 0 Termination.work + s.pool.length + (s.setServer g v).serversWork := rfl
  rw [hafter, State.work]
  omega

theorem advances_runServer (hs : Good env s) {task : ServerTask} {queue : List ServerTask}
    (hf : (s.server g).running = none) (hq : (s.server g).queue = task :: queue) :
    Advances s ((s.setServer g { s.server g with queue := queue }).runServerTask g task) := by
  have hqueue : queue ⊆ (s.server g).queue := by
    rw [hq]
    exact List.subset_cons_self _ _
  have hkeeps : (s.server g).Keeps { s.server g with queue := queue } :=
    Server.keeps_of_queue hqueue fun od fd hdirs => hdirs.running
  -- The tasks but one are done once they have run.
  have hrun : task.work = 1 → (∀ s : State, Costs 0 s (s.runServerTask g task)) →
      Advances s ((s.setServer g { s.server g with queue := queue }).runServerTask g task) := by
    intro htask hcosts
    have hpop : Advances s (s.setServer g { s.server g with queue := queue }) :=
      advances_setServer hs hkeeps (by simp [Server.work, hq, htask])
    have hle := (hcosts (s.setServer g { s.server g with queue := queue })).work_le
    exact ⟨hpop.toKeeps.trans (hcosts _).toKeeps, lt_of_le_of_lt hle hpop.work⟩
  cases task with
  | startServerOnHandlerThread =>
    rw [State.runServerTask, State.setServer_setServer, State.server_setServer]
    refine advances_setServer hs (Server.keeps_of_queue hqueue fun od fd hdirs f hf => ?_) ?_
    · obtain rfl := Option.some.inj hf
      exact hdirs.queue _ _ _ _ _ (hq ▸ List.mem_cons_self)
    simp [Server.work, hq, hf, ServerTask.work, Stage.work, Nat.add_comm]
  | acceptWebSocket => exact hrun rfl fun s => costs_onWrapper _ rfl
  | sendOverWebSocket => exact hrun rfl fun s => costs_onWrapper _ rfl
  | deleteServerWrapper => exact hrun rfl fun s => costs_delete _ _
  | deleteSocketFactory => exact hrun rfl fun s => costs_delete _ _

theorem advances_createForHttpServer (hs : Good env s) {f : StartFrame}
    (hf : (s.server g).running = some f) (hstage : f.stage = .create)
    (socket : Option ServerSocket) :
    Advances s (s.setServer g ((s.server g).createForHttpServer f socket)) := by
  refine advances_setServer hs ⟨?_, fun w hw => ?_, fun od fd hdirs => ?_⟩ ?_
  · cases socket <;> rfl
  · rw [hs.serverWrapper_eq_none hf hstage] at hw
    cases hw
  · obtain ⟨hod, hfd⟩ := hdirs.running f hf
    cases socket with
    | none =>
      refine ⟨hdirs.queue, fun f' hf' => ?_, hdirs.wrapper⟩
      obtain rfl := Option.some.inj hf'
      exact ⟨hod, hfd⟩
    | some socket =>
      refine ⟨hdirs.queue, fun f' hf' => ?_, fun w hw => ?_⟩
      · obtain rfl := Option.some.inj hf'
        exact ⟨hod, hfd⟩
      · obtain rfl := Option.some.inj hw
        exact hfd
  · cases socket <;> simp [Server.createForHttpServer, Server.work, hf, hstage, Stage.work]

theorem advances_getLocalAddress (hs : Good env s) {f : StartFrame}
    (hf : (s.server g).running = some f) (hstage : f.stage = .address)
    (address : Option IPEndPoint) :
    Advances s (s.setServer g { s.server g with
      running := some { f with stage := .post (some g) address } }) := by
  refine advances_setServer hs
    (Server.keeps_of_queue (List.Subset.refl _) fun od fd hdirs f' hf' => ?_)
    (by simp [Server.work, hf, hstage, Stage.work])
  obtain rfl := Option.some.inj hf'
  exact hdirs.running f hf

theorem advances_postServerStarted (hs : Good env s) {f : StartFrame} {serverWrapper : Option Gen}
    {ip : Option IPEndPoint} (hf : (s.server g).running = some f)
    (hstage : f.stage = .post serverWrapper ip) :
    Advances s (s.postServerStarted g f serverWrapper ip) := by
  have hkeeps : Keeps s (s.setServer g { s.server g with running := none }) :=
    keeps_setServer (Server.keeps_of_queue (List.Subset.refl _) fun od fd hdirs f hf => by cases hf)
  refine ⟨hkeeps.trans (.of_eq rfl rfl rfl), ?_⟩
  -- What the frame leaves on its thread is enough for what it posts.
  have hwork : (s.server g).work = ({ s.server g with running := none } : Server).work + 9 := by
    simp [Server.work, hf, hstage, Stage.work]
  have hservers := serversWork_setServer (hs.lt_starts_of_work (by omega : 0 < (s.server g).work))
    { s.server g with running := none }
  have hpost : (MainTask.serverStartedOnDedicatedRunner f.handler (some f.thread) serverWrapper
      (some f.socketFactory) ip).work ≤ 8 := by
    cases serverWrapper <;> simp [MainTask.work, Termination.work]
  have hafter : (s.postServerStarted g f serverWrapper ip).work =
      (s.tasks.map MainTask.work).sum + (MainTask.serverStartedOnDedicatedRunner f.handler
        (some f.thread) serverWrapper (some f.socketFactory) ip).work +
        s.terminating.elim 0 Termination.work + s.pool.length +
        (s.setServer g { s.server g with running := none }).serversWork := by
    simp [State.work, State.postServerStarted, State.postMain, State.serversWork, State.setServer]
  rw [hafter, State.work]
  omega

theorem advances_deleteThread (hg : g ∈ s.pool) :
    Advances s ({ s with pool := s.pool.erase g }.delete (.thread g) .pool) := by
  have hpop : Keeps s { s with pool := s.pool.erase g } := .of_eq rfl rfl rfl
  have hcosts : Costs 0 { s with pool := s.pool.erase g }
      ({ s with pool := s.pool.erase g }.delete (.thread g) .pool) := costs_delete _ _
  refine ⟨hpop.trans hcosts.toKeeps, ?_⟩
  have hle := hcosts.work_le
  have hlength := List.length_erase_of_mem hg
  have hpos := List.length_pos_of_mem hg
  refine lt_of_le_of_lt hle ?_
  have hservers : { s with pool := s.pool.erase g }.serversWork = s.serversWork := rfl
  simp only [State.work, hservers]
  omega

/-- Each step of a thread leaves less to do. -/
theorem advances_step {a : Action} (hs : Good env s) (ha : a.Internal)
    (h : step env s a = some s') : Advances s s' := by
  obtain ⟨-, h⟩ := transition_of_step h
  cases h with
  | startRefused | start | stop | event => cases ha
  | terminate hf => exact advances_terminateStep hf
  | runMain hm ht => exact advances_runMain hm ht
  | runServer hf hq => exact advances_runServer hs hf hq
  | createForHttpServer hf hstage => exact advances_createForHttpServer hs hf hstage _
  | getLocalAddress hf hstage => exact advances_getLocalAddress hs hf hstage _
  | postServerStarted hf hstage => exact advances_postServerStarted hs hf hstage
  | deleteThread hg => exact advances_deleteThread hg

/-! ## The end -/

/-- The threads have nothing left to do. -/
structure State.Settled (s : State) : Prop where
  tasks : s.tasks = []
  terminating : s.terminating = none
  pool : s.pool = []
  queue : ∀ g, (s.server g).queue = []
  running : ∀ g, (s.server g).running = none

/-- As long as something is left to do, some thread goes on. -/
theorem settled_of_stuck (hs : Good env s) (h : (machine env).Stuck Action.Internal s) :
    s.Settled := by
  have hnone : ∀ a : Action, a.Internal → step env s a = none := h
  have hterminating : s.terminating = none := by
    simpa [step, hs.fault] using hnone .terminate trivial
  have hrunning : ∀ g, (s.server g).running = none := by
    intro g
    rw [Option.eq_none_iff_forall_ne_some]
    intro f hf
    cases hstage : f.stage with
    | create =>
      simpa [step, hs.fault, hf, hstage] using hnone (.createForHttpServer g none) trivial
    | address => simpa [step, hs.fault, hf, hstage] using hnone (.getLocalAddress g none) trivial
    | post w ip => simpa [step, hs.fault, hf, hstage] using hnone (.postServerStarted g) trivial
  have hqueue : ∀ g, (s.server g).queue = [] := by
    intro g
    cases hq : (s.server g).queue with
    | nil => rfl
    | cons task queue =>
      simpa [step, hs.fault, hrunning g, hq] using hnone (.runServer g) trivial
  refine ⟨?_, hterminating, ?_, hqueue, hrunning⟩
  · cases ht : s.tasks with
    | nil => rfl
    | cons task tasks =>
      simpa [step, hs.fault, hterminating, ht] using hnone .runMain trivial
  · refine List.eq_nil_iff_forall_not_mem.2 fun g hg => ?_
    simpa [step, hs.fault, hrunning g, hqueue g, hg] using hnone (.deleteThread g) trivial

/-- What follows of the threads from where they come to a halt, if their steps keep `Q`. -/
theorem leads_of_settled {P Q : State → Prop}
    (hstep : ∀ s a s', (machine env).Reachable s → Advances s s' → a.Internal → Q s →
      step env s a = some s' → Q s')
    (hsettled : ∀ s, (machine env).Reachable s → Q s → s.Settled → P s)
    (hs : (machine env).Reachable s) (hQ : Q s) :
    (machine env).Leads Action.Internal s.work P s := by
  have hadvances : ∀ s a s', (machine env).Reachable s → a.Internal →
      (machine env).step s a = some s' → Advances s s' := fun s a s' hs ha h =>
    advances_step (good_of_reachable hs) ha h
  exact Machine.leads_of_rank (fun s a s' hs ha h => (hadvances s a s' hs ha h).work)
    (fun s a s' hs ha hQ h => hstep s a s' hs (hadvances s a s' hs ha h) ha hQ h)
    (fun s hs hQ hstuck => hsettled s hs hQ (settled_of_stuck (good_of_reachable hs) hstuck)) hs hQ

/-! ## After the server has been stopped -/

/-- The thread of the start `g` has started, or has been destroyed. -/
def State.Begun (s : State) (g : Gen) : Prop := (s.server g).started ∨ s.IsDeleted (.thread g)

theorem server_makeHandler (threadStarts : Bool) (od fd : FilePath) (h : g ≠ s.starts) :
    (s.makeHandler threadStarts od fd).server g = s.server g := by
  rw [State.makeHandler]
  split_ifs
  · rw [State.post, State.server_setServer_of_ne _ h, State.server_setServer_of_ne _ h]
  · rw [State.server_delete, State.server_delete]

/-- The start that is made begins. -/
theorem begun_makeHandler (threadStarts : Bool) (od fd : FilePath) :
    (s.makeHandler threadStarts od fd).Begun s.starts := by
  rw [State.makeHandler]
  split_ifs
  · exact .inl (by simp [State.post])
  · exact .inr (((adds_delete _ _).deleted.map Prod.fst).subset (State.isDeleted_delete _ _))

theorem begun_of_reachable (hs : (machine env).Reachable s) (hg : g < s.starts) : s.Begun g := by
  revert g
  refine hs.invariant (P := fun s => ∀ {g}, g < s.starts → s.Begun g)
    (fun hg => absurd hg (Nat.not_lt_zero _)) ?_
  intro s a s' hs ih h g hg
  have hgood := good_of_reachable hs
  -- What is deleted stays so: it is enough that a thread that has started stays so.
  have hkept : g < s.starts → (s'.server g).started = (s.server g).started → s'.Begun g :=
    fun hg hstarted => (ih hg).imp (fun h => hstarted ▸ h) (isDeleted_step hgood h)
  by_cases ha : a.Internal
  · have hkeeps := (advances_step hgood ha h).toKeeps
    exact hkept (hkeeps.starts ▸ hg) (hkeeps.server g).started
  · obtain ⟨-, hstep⟩ := transition_of_step h
    cases hstep with
    | startRefused => exact ih hg
    | start hm hh =>
      rcases eq_or_ne g s.starts with rfl | hne
      · exact begun_makeHandler _ _ _
      · rw [starts_makeHandler] at hg
        exact hkept (by omega) (by rw [server_makeHandler _ _ _ hne])
    | stop =>
      rw [State.stop] at hg hkept ⊢
      cases hh : s.httpHandler with
      | none => exact ih (by simpa [hh] using hg)
      | some => simpa [hh] using hkept (by simpa [hh] using hg) (by simp [hh])
    | @event g' =>
      rcases eq_or_ne g g' with rfl | hne
      · exact hkept hg (by simp [State.onEvent])
      · refine hkept hg ?_
        simp [State.onEvent, State.server_setServer_of_ne _ hne]
    | _ => exact absurd trivial ha

/-- Wherever the threads have come to a halt, and no handler is left, all that was ever
    made has been deleted, once. -/
structure State.Cleared (s : State) : Prop where
  quiescent : s.Quiescent
  deleted : ∀ g < s.starts, ∀ r ∈ s.made g, (s.deleted.map Prod.fst).count r = 1

/-- Once there is no handler, because the server was stopped or never started, the threads
    of the program come to a halt, however they interleave, and all that was ever made has
    then been deleted, once. -/
theorem stop_completes (hs : (machine env).Reachable s) (hnone : s.httpHandler = none) :
    (machine env).Leads Action.Internal s.work State.Cleared s := by
  refine leads_of_settled (Q := fun s => s.httpHandler = none) ?_ ?_ hs hnone
  · intro s a s' hs hadv ha hnone h
    simpa [hnone] using hadv.handler
  · intro s hs hnone hsettled
    have hquiescent : s.Quiescent := ⟨hnone, hsettled.tasks, hsettled.terminating, hsettled.pool,
      hsettled.queue, hsettled.running⟩
    refine ⟨hquiescent, fun g hg r hr => ?_⟩
    have hne : s.view g ≠ {} := by
      rcases begun_of_reachable hs hg with hstarted | hdeleted
      · exact ne_empty_of_started hstarted
      · rintro hview
        rw [State.isDeleted_iff] at hdeleted
        simp [hview] at hdeleted
    have hcount := (good_of_reachable hs).count_made_of_ne hg hne hr
    rwa [hquiescent.owned_eq_nil, List.count_nil, Nat.zero_add] at hcount

/-- A client has upgraded and sent a message when the server is stopped. -/
theorem stop_completes_chat :
    let s := (machine localEnv).after (.start false [] (bytes "/srv") :: .stop ::
      startUp 1 ⟨bytes "127.0.0.1", 3101⟩ ++ chat 1 1 (bytes "hi") ++ [.stop])
    s.httpHandler = none ∧ (s.server 1).serverWrapper.isSome ∧ s.work = 9 ∧
      (machine localEnv).Leads Action.Internal s.work State.Cleared s :=
  ⟨by decide, by decide, by decide,
    stop_completes (Machine.reachable_after _) (by decide)⟩

/-! ## While a server is up -/

/-- The task a wrapper of the start `g` runs in answer to an event, in the end. -/
def Event.answer (g : Gen) : Event → Option ServerTask
  | .onWebSocketRequest c info => some (.acceptWebSocket (some g) c info)
  | .onWebSocketMessage c data => some (.sendOverWebSocket (some g) c (agentMessage c data))
  | _ => none

/-- The task that answers a task of the handler `g`, on the server thread. -/
def MainTask.answer (g : Gen) : MainTask → Option ServerTask
  | .onWebSocketRequest _ c info => some (.acceptWebSocket (some g) c info)
  | .onWebSocketMessage _ c data => some (.sendOverWebSocket (some g) c (agentMessage c data))
  | .serverStartedOnDedicatedRunner .. => none

/-- Everything a wrapper has forwarded has been answered, in order. -/
theorem process_answer {tasks : List MainTask} (hcov : Covered tasks) :
    (Relay.process (forward g) ∅ tasks).2 = tasks.filterMap (MainTask.answer g) := by
  induction tasks using List.reverseRecOn with
  | nil => rfl
  | append_singleton tasks t ih =>
    rw [Relay.process_concat, List.filterMap_append, ← ih (hcov.mono (List.prefix_append _ _))]
    cases t with
    | serverStartedOnDedicatedRunner => rfl
    | onWebSocketRequest => rfl
    | onWebSocketMessage h c data =>
      -- The request comes before the message: the handler knows the connection.
      have hknown : c ∈ (Relay.process (forward g) ∅ tasks).1 :=
        mem_process_known tasks |>.2 (hcov tasks h c data List.prefix_rfl)
      simp [forward, hknown, MainTask.answer]

/-- The call about a WebSocket that a wrapper makes in answer to an event, in the end. -/
def Event.webSocketCall : Event → Option Call
  | .onWebSocketRequest c info => some (.acceptWebSocket c info)
  | .onWebSocketMessage c data => some (.sendOverWebSocket c (agentMessage c data))
  | _ => none

theorem filterMap_answer_posts (w : ServerWrapper) :
    (w.posts g).filterMap (MainTask.answer g) = w.events.filterMap (Event.answer g) := by
  rw [ServerWrapper.posts, List.filterMap_filterMap]
  refine List.filterMap_congr fun e _ => ?_
  cases e <;> rfl

/-- The tasks that answer some events call what answers them. -/
theorem filterMap_webSocketCall_answer (events : List Event) :
    (events.filterMap (Event.answer g)).filterMap ServerTask.webSocketCall =
      events.filterMap Event.webSocketCall := by
  rw [List.filterMap_filterMap]
  refine List.filterMap_congr fun e _ => ?_
  cases e <;> rfl

/-- The wrapper of the start `g`, whose handler is alive, has had some events, and has
    answered them all, in order: the tasks have run, and the calls have been made. -/
def State.Answered (s : State) (g : Gen) (events : List Event) : Prop :=
  s.Alive g ∧ ∃ w, (s.server g).serverWrapper = some w ∧ w.events = events ∧
    w.tasks = events.filterMap (Event.answer g) ∧
    w.webSocketCalls = events.filterMap Event.webSocketCall ∧ ∀ c, w.replies c = w.expected c

/-- While no client does anything more, and the server is not stopped, the threads of the
    program come to a halt, however they interleave, and everything the clients had sent
    has then been answered. -/
theorem answers_complete {w : ServerWrapper} (hs : (machine env).Reachable s)
    (hw : (s.server g).serverWrapper = some w) (halive : s.Alive g) :
    (machine env).Leads Action.Internal s.work (State.Answered · g w.events) s := by
  refine leads_of_settled (Q := fun s => s.Alive g ∧
    ∃ w', (s.server g).serverWrapper = some w' ∧ w'.events = w.events) ?_ ?_ hs ⟨halive, w, hw, rfl⟩
  · rintro s a s' hs hadv ha ⟨halive, w', hw', he'⟩ h
    obtain ⟨w'', hw'', he''⟩ := (hadv.server g).events w' hw'
    exact ⟨hadv.toKeeps.alive.2 halive, w'', hw'', he''.trans he'⟩
  · rintro s hs ⟨halive, w', hw', he⟩ hsettled
    have hvalid := ((good_of_reachable hs).life g).valid w' hw'
    obtain ⟨h, hh, hid⟩ := halive
    have htasks : w'.tasks = w.events.filterMap (Event.answer g) := by
      -- Nothing is left in the queues of the relay.
      have hmailbox : ((s.view g).relay g).mailbox = [] := by
        rw [relay_mailbox, hsettled.tasks, List.filter_nil]
      have houtbox : ((s.view g).relay g).outbox = [] := by
        simp [View.relay, State.view, hsettled.queue]
      have hcomplete := Relay.open_complete (relay_inv hs g) (known_mem_relay_state hh hid)
      rw [hmailbox, houtbox, relay_source hw', relay_sink hw'] at hcomplete
      have hprocess := process_answer (g := g) hvalid.covered
      rw [hcomplete, filterMap_answer_posts, he] at hprocess
      simpa [Relay.process] using hprocess
    refine ⟨⟨h, hh, hid⟩, w', hw', he, htasks, ?_, fun c => ?_⟩
    · rw [hvalid.webSocketCalls, htasks, filterMap_webSocketCall_answer]
    · have hreplies := replies_complete hs hw' ⟨h, hh, hid⟩ c
      rw [State.queuedReplies, State.pendingReplies, hsettled.tasks, hsettled.queue] at hreplies
      simpa using hreplies.symm

/-- Two messages wait in the queues of the two threads. -/
theorem answers_complete_chat :
    let s := (machine localEnv).after (startUp 0 ⟨bytes "127.0.0.1", 3101⟩ ++
      chat 0 1 (bytes "a") ++ [.event 0 (.onWebSocketMessage 1 (bytes "b")) noFiles])
    ∃ w, (s.server 0).serverWrapper = some w ∧ w.replies 1 = [] ∧
      w.expected 1 = [bytes "[1] OnMessage(a)", bytes "[1] OnMessage(b)"] ∧
      (machine localEnv).Leads Action.Internal s.work (State.Answered · 0 w.events) s := by
  intro s
  obtain ⟨w, hw⟩ : ∃ w, (s.server 0).serverWrapper = some w :=
    Option.isSome_iff_exists.1 (by decide)
  have hget : w = (s.server 0).serverWrapper.get (by decide) := by simp [hw]
  refine ⟨w, hw, ?_, ?_, answers_complete (Machine.reachable_after _) hw (by decide)⟩
  · rw [hget]
    decide
  · rw [hget]
    decide

end Qlabs.Http
