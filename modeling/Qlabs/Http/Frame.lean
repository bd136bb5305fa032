import Qlabs.Http.Refinement

/-!
# What a step leaves

The functions of the program only add to the queues, to what is deleted, and to
the logs of the wrappers, and a start under way goes on (`Extends`). Most of them
leave the main thread its tasks, and the starts as far as they are (`Adds`). A step of
the machine thus takes at most one task from the front of one queue, and then only adds:

* `tasks_step` and `queue_step` for the queues;
* `isDeleted_step` for what is deleted;
* `wrapper_step` for the wrappers;
* `handler_step` for the handler;
* `starting_step` for the starts.
-/

namespace Qlabs.Http

variable {env : Env} {s s' s'' : State} {g : Gen}

/-- The start `g` is under way: its `StartServerOnHandlerThread` waits or runs, or its
    `ServerStartedOnDedicatedRunner` waits. -/
inductive State.Starting (s : State) (g : Gen) : Prop
  | pending {thread socketFactory : Gen} {od fd : FilePath}
    (h : .startServerOnHandlerThread g thread socketFactory od fd ∈ (s.server g).queue)
  | running (h : (s.server g).running.isSome)
  | posted {thread serverWrapper socketFactory : Option Gen} {ip : Option IPEndPoint}
    (h : .serverStartedOnDedicatedRunner g thread serverWrapper socketFactory ip ∈ s.tasks)

/-- The state `s'` is `s`, with more tasks, deletions, and entries in the logs, and
    the starts that were running further on. -/
structure Extends (s s' : State) : Prop where
  tasks : s.tasks <+: s'.tasks
  queue : ∀ g, (s.server g).queue <+: (s'.server g).queue
  deleted : s.deleted <+: s'.deleted
  wrapper : ∀ g, ∀ w ∈ (s.server g).serverWrapper, ∃ w' ∈ (s'.server g).serverWrapper,
    w.log <+: w'.log
  running : ∀ g, (s.server g).running.isSome → s'.Starting g

theorem Extends.refl (s : State) : Extends s s :=
  ⟨List.prefix_rfl, fun _ => List.prefix_rfl, List.prefix_rfl,
    fun _ w hw => ⟨w, hw, List.prefix_rfl⟩, fun _ h => .running h⟩

theorem Extends.starting (h : Extends s s') (hg : s.Starting g) : s'.Starting g := by
  rcases hg with hg | hg | hg
  · exact .pending ((h.queue g).subset hg)
  · exact h.running g hg
  · exact .posted (h.tasks.subset hg)

theorem Extends.trans (h : Extends s s') (h' : Extends s' s'') : Extends s s'' where
  tasks := h.tasks.trans h'.tasks
  queue g := (h.queue g).trans (h'.queue g)
  deleted := h.deleted.trans h'.deleted
  wrapper g w hw := by
    obtain ⟨w', hw', hlog⟩ := h.wrapper g w hw
    obtain ⟨w'', hw'', hlog'⟩ := h'.wrapper g w' hw'
    exact ⟨w'', hw'', hlog.trans hlog'⟩
  running g hg := h'.starting (h.running g hg)

/-- The server `v'` is `v`, with more tasks, and more entries in the log of its wrapper:
    its `StartServerOnHandlerThread` is as far as it was. -/
structure Server.Adds (v v' : Server) : Prop where
  queue : v.queue <+: v'.queue
  wrapper : ∀ w ∈ v.serverWrapper, ∃ w' ∈ v'.serverWrapper, w.log <+: w'.log
  running : v'.running = v.running
  created : v'.created = v.created

/-- The state `s'` is `s`, with more tasks for the servers, deletions, and entries in the
    logs: the tasks of the main thread are the same, and no start moves. -/
structure Adds (s s' : State) : Prop where
  tasks : s'.tasks = s.tasks
  deleted : s.deleted <+: s'.deleted
  server : ∀ g, (s.server g).Adds (s'.server g)

theorem Server.Adds.refl (v : Server) : v.Adds v :=
  ⟨List.prefix_rfl, fun w hw => ⟨w, hw, List.prefix_rfl⟩, rfl, rfl⟩

theorem Server.Adds.trans {v v' v'' : Server} (h : v.Adds v') (h' : v'.Adds v'') : v.Adds v'' where
  queue := h.queue.trans h'.queue
  wrapper w hw := by
    obtain ⟨w', hw', hlog⟩ := h.wrapper w hw
    obtain ⟨w'', hw'', hlog'⟩ := h'.wrapper w' hw'
    exact ⟨w'', hw'', hlog.trans hlog'⟩
  running := h'.running.trans h.running
  created := h'.created.trans h.created

theorem Adds.extends (h : Adds s s') : Extends s s' where
  tasks := by rw [h.tasks]
  queue g := (h.server g).queue
  deleted := h.deleted
  wrapper g := (h.server g).wrapper
  running g hg := .running (by rwa [(h.server g).running])

theorem Adds.trans (h : Adds s s') (h' : Adds s' s'') : Adds s s'' where
  tasks := h'.tasks.trans h.tasks
  deleted := h.deleted.trans h'.deleted
  server g := (h.server g).trans (h'.server g)

/-- A state with the same queues, deletions and servers. -/
theorem Adds.of_eq (htasks : s'.tasks = s.tasks) (hserver : s'.server = s.server)
    (hdeleted : s'.deleted = s.deleted) : Adds s s' :=
  ⟨htasks, by rw [hdeleted], fun g => by rw [hserver]; exact .refl _⟩

/-! ## The functions of the program -/

theorem extends_setServer {v : Server} (hqueue : (s.server g).queue <+: v.queue)
    (hwrapper : ∀ w ∈ (s.server g).serverWrapper, ∃ w' ∈ v.serverWrapper, w.log <+: w'.log)
    (hrunning : (s.server g).running.isSome → v.running.isSome) :
    Extends s (s.setServer g v) where
  tasks := List.prefix_rfl
  deleted := List.prefix_rfl
  queue g' := by
    rcases eq_or_ne g' g with rfl | h
    · simpa using hqueue
    · simp [State.setServer, h]
  wrapper g' w hw := by
    rcases eq_or_ne g' g with rfl | h
    · simpa using hwrapper w hw
    · exact ⟨w, by simpa [State.setServer, h] using hw, List.prefix_rfl⟩
  running g' hg' := by
    rcases eq_or_ne g' g with rfl | h
    · exact .running (by simpa using hrunning hg')
    · exact .running (by simpa [State.setServer, h] using hg')

theorem extends_tasks {tasks : List MainTask} (h : s.tasks <+: tasks) :
    Extends s { s with tasks := tasks } :=
  ⟨h, fun _ => List.prefix_rfl, List.prefix_rfl, fun _ w hw => ⟨w, hw, List.prefix_rfl⟩,
    fun _ h => .running h⟩

theorem adds_setServer {v : Server} (h : (s.server g).Adds v) : Adds s (s.setServer g v) := by
  refine ⟨rfl, List.prefix_rfl, fun g' => ?_⟩
  rcases eq_or_ne g' g with rfl | hne
  · simpa using h
  · simpa [State.setServer, hne] using .refl _

theorem adds_post (task : ServerTask) : Adds s (s.post g task) :=
  adds_setServer ⟨List.prefix_append _ _, fun w hw => ⟨w, hw, List.prefix_rfl⟩, rfl, rfl⟩

theorem adds_postOn (thread : Option Gen) (task : ServerTask) : Adds s (s.postOn thread task) := by
  cases thread with
  | none => exact .of_eq rfl rfl rfl
  | some t =>
    rw [State.postOn]
    split_ifs
    · exact .of_eq rfl rfl rfl
    · exact adds_post task

theorem adds_delete (r : Resource) (runner : Runner) : Adds s (s.delete r runner) := by
  rw [State.delete]
  split_ifs
  · exact .of_eq rfl rfl rfl
  · exact ⟨rfl, List.prefix_append _ _, fun _ => .refl _⟩

theorem adds_foldl_delete (rs : List Resource) (runner : Runner) :
    Adds s (rs.foldl (fun s r => s.delete r runner) s) := by
  induction rs generalizing s with
  | nil => exact .of_eq rfl rfl rfl
  | cons r rs ih => exact (adds_delete r runner).trans ih

/-- A wrapper records what it does. -/
theorem adds_record {w : ServerWrapper} (hw : (s.server g).serverWrapper = some w)
    (entry : Entry) :
    Adds s (s.setServer g { s.server g with serverWrapper := some (w.record entry) }) := by
  refine adds_setServer ⟨List.prefix_rfl, fun w' hw' => ⟨_, rfl, ?_⟩, rfl, rfl⟩
  obtain rfl : w = w' := Option.some.inj (hw.symm.trans hw')
  exact List.prefix_append _ _

theorem adds_onWrapper (w : Option Gen) (entry : Entry) : Adds s (s.onWrapper w entry) := by
  cases w with
  | none => exact .of_eq rfl rfl rfl
  | some w =>
    simp only [State.onWrapper]
    split_ifs
    · exact .of_eq rfl rfl rfl
    · cases hw : (s.server w).serverWrapper with
      | none => exact .of_eq rfl rfl rfl
      | some wrapper => exact adds_record hw entry

theorem adds_onHandler (h : Gen)
    (method : SimpleHttpHandler → SimpleHttpHandler × Option (Gen × ServerTask)) :
    Adds s (s.onHandler h method) := by
  cases hh : s.httpHandler with
  | none => rw [State.onHandler, hh]; exact .of_eq rfl rfl rfl
  | some handler =>
    rcases eq_or_ne handler.id h with rfl | hid
    · rw [State.onHandler_eq hh rfl]
      cases (method handler).2 with
      | none => exact .of_eq rfl rfl rfl
      | some p =>
        have hrun : Adds s { s with httpHandler := some (method handler).1 } := .of_eq rfl rfl rfl
        exact hrun.trans (adds_post p.2)
    · simp only [State.onHandler, hh, if_neg hid]
      exact .of_eq rfl rfl rfl

theorem adds_terminateStep (f : Termination) : Adds s (s.terminateStep f) := by
  have hpost : ∀ thread task next,
      Adds s { s.postOn thread task with terminating := next } := fun thread task next =>
    (adds_postOn thread task).trans (.of_eq rfl rfl rfl)
  rcases f with ⟨g, thread, serverWrapper, socketFactory⟩
  cases serverWrapper with
  | some w => exact hpost _ _ _
  | none =>
    cases socketFactory with
    | some c => exact hpost _ _ _
    | none => cases thread <;> exact .of_eq rfl rfl rfl

theorem adds_stop : Adds s s.stop := by
  rw [State.stop]
  cases s.httpHandler <;> exact .of_eq rfl rfl rfl

theorem adds_serverStarted (h : Gen) (thread serverWrapper socketFactory : Option Gen)
    (ip : Option IPEndPoint) : Adds s
      (s.serverStartedOnDedicatedRunner h thread serverWrapper socketFactory ip) := by
  rw [State.serverStartedOnDedicatedRunner]
  cases s.httpHandler with
  | none => exact .of_eq rfl rfl rfl
  | some handler =>
    dsimp only
    split_ifs
    · exact (adds_foldl_delete handler.owned .main).trans (.of_eq rfl rfl rfl)
    · exact .of_eq rfl rfl rfl

theorem adds_makeHandler (threadStarts : Bool) (od fd : FilePath) :
    Adds s (s.makeHandler threadStarts od fd) := by
  have hmade :
      Adds s { s with starts := s.starts + 1, httpHandler := some { id := s.starts } } :=
    .of_eq rfl rfl rfl
  rw [State.makeHandler]
  split_ifs
  · refine hmade.trans ((adds_setServer ?_).trans (adds_post _))
    exact ⟨List.prefix_rfl, fun w hw => ⟨w, hw, List.prefix_rfl⟩, rfl, rfl⟩
  · exact hmade.trans ((adds_delete _ _).trans (adds_delete _ _))

theorem adds_runMainTask (task : MainTask) : Adds s (s.runMainTask task) := by
  cases task with
  | serverStartedOnDedicatedRunner => exact adds_serverStarted _ _ _ _ _
  | onWebSocketRequest => exact adds_onHandler _ _
  | onWebSocketMessage => exact adds_onHandler _ _

/-- The tasks of a server thread move no start, but for `StartServerOnHandlerThread`. -/
theorem adds_runServerTask {task : ServerTask}
    (htask : ∀ h t c od fd, task ≠ .startServerOnHandlerThread h t c od fd) :
    Adds s (s.runServerTask g task) := by
  cases task with
  | startServerOnHandlerThread => exact absurd rfl (htask _ _ _ _ _)
  | acceptWebSocket => exact adds_onWrapper _ _
  | sendOverWebSocket => exact adds_onWrapper _ _
  | deleteServerWrapper => exact adds_delete _ _
  | deleteSocketFactory => exact adds_delete _ _

theorem adds_deleteThread :
    Adds s ({ s with pool := s.pool.erase g }.delete (.thread g) .pool) := by
  have hpool : Adds s { s with pool := s.pool.erase g } := .of_eq rfl rfl rfl
  exact hpool.trans (adds_delete _ _)

theorem extends_runServerTask (task : ServerTask) : Extends s (s.runServerTask g task) := by
  cases task with
  | startServerOnHandlerThread =>
    exact extends_setServer List.prefix_rfl (fun w hw => ⟨w, hw, List.prefix_rfl⟩) fun _ => rfl
  | _ => exact (adds_runServerTask (by simp)).extends

/-- A start that calls `CreateForHttpServer` has no wrapper yet. -/
theorem Good.serverWrapper_eq_none (hs : Good env s) {f : StartFrame}
    (hf : (s.server g).running = some f) (hstage : f.stage = .create) :
    (s.server g).serverWrapper = none := by
  have hlife := hs.life g
  have hf : (s.view g).server.running = some f := hf
  change (s.view g).server.serverWrapper = none
  generalize s.view g = v at hlife hf
  cases hlife with
  | creating => rfl
  | addressing | posting => obtain rfl := Option.some.inj hf; cases hstage
  | _ => cases hf

/-- `StartServerOnHandlerThread` makes the first wrapper of its start. -/
theorem extends_createForHttpServer (hs : Good env s) {f : StartFrame}
    (hf : (s.server g).running = some f) (hstage : f.stage = .create)
    (socket : Option ServerSocket) :
    Extends s (s.setServer g ((s.server g).createForHttpServer f socket)) := by
  refine extends_setServer ?_ (fun w hw => ?_) fun _ => ?_
  · cases socket <;> exact List.prefix_rfl
  · rw [hs.serverWrapper_eq_none hf hstage] at hw
    cases hw
  · cases socket <;> rfl

theorem extends_onEvent {w : ServerWrapper} (hw : (s.server g).serverWrapper = some w) (e : Event)
    (read : FilePath → ReadResult) : Extends s (s.onEvent env g w e read) :=
  (adds_record hw _).extends.trans (extends_tasks (List.prefix_append _ _))

/-- `StartServerOnHandlerThread` ends, and posts its outcome. -/
theorem extends_postServerStarted (hs : Good env s) {f : StartFrame}
    (hf : (s.server g).running = some f) (serverWrapper : Option Gen) (ip : Option IPEndPoint) :
    Extends s (s.postServerStarted g f serverWrapper ip) where
  tasks := List.prefix_append _ _
  deleted := List.prefix_rfl
  queue g' := by
    rcases eq_or_ne g' g with rfl | h
    · simp [State.postServerStarted, State.postMain]
    · simp [State.postServerStarted, State.postMain, State.setServer, h]
  wrapper g' w hw := by
    refine ⟨w, ?_, List.prefix_rfl⟩
    rcases eq_or_ne g' g with rfl | h
    · simpa [State.postServerStarted, State.postMain] using hw
    · simpa [State.postServerStarted, State.postMain, State.setServer, h] using hw
  running g' hg' := by
    rcases eq_or_ne g' g with rfl | h
    · obtain rfl : f.handler = g' := (hs.life g').handler_of_running hf
      exact .posted (List.mem_append_right _ (List.mem_singleton_self _))
    · refine .running ?_
      simpa [State.postServerStarted, State.postMain, State.setServer, h] using hg'

/-! ## Steps -/

/-- A step takes at most one task from a queue, and then only adds. -/
theorem extends_step {a : Action} (hs : Good env s) (h : step env s a = some s') :
    Extends s s' ∨
    (∃ task tasks, a = .runMain ∧ s.tasks = task :: tasks ∧ Extends { s with tasks := tasks } s') ∨
    ∃ g task queue, a = .runServer g ∧ (s.server g).queue = task :: queue ∧
      Extends (s.setServer g { s.server g with queue := queue }) s' := by
  obtain ⟨-, h⟩ := transition_of_step h
  cases h with
  | startRefused => exact .inl (.refl s)
  | start => exact .inl (adds_makeHandler _ _ _).extends
  | stop => exact .inl adds_stop.extends
  | terminate => exact .inl (adds_terminateStep _).extends
  | runMain hm ht => exact .inr (.inl ⟨_, _, rfl, ht, (adds_runMainTask _).extends⟩)
  | runServer hf hq => exact .inr (.inr ⟨_, _, _, rfl, hq, extends_runServerTask _⟩)
  | createForHttpServer hf hstage => exact .inl (extends_createForHttpServer hs hf hstage _)
  | getLocalAddress =>
    exact .inl
      (extends_setServer List.prefix_rfl (fun w hw => ⟨w, hw, List.prefix_rfl⟩) fun _ => rfl)
  | postServerStarted hf => exact .inl (extends_postServerStarted hs hf _ _)
  | event hw hf hdel he => exact .inl (extends_onEvent hw _ _)
  | deleteThread => exact .inl adds_deleteThread.extends

/-- The queue of the main thread is only added to, but for the task it runs. -/
theorem tasks_step {a : Action} (hs : Good env s) (h : step env s a = some s') :
    s.tasks <+: s'.tasks ∨
      ∃ task tasks, a = .runMain ∧ s.tasks = task :: tasks ∧ tasks <+: s'.tasks := by
  rcases extends_step hs h with h | ⟨task, tasks, ha, ht, h⟩ | ⟨g, task, queue, ha, hq, h⟩
  · exact .inl h.tasks
  · exact .inr ⟨task, tasks, ha, ht, h.tasks⟩
  · exact .inl h.tasks

/-- The queue of a server thread is only added to, but for the task it runs. -/
theorem queue_step {a : Action} (hs : Good env s) (h : step env s a = some s') (g : Gen) :
    (s.server g).queue <+: (s'.server g).queue ∨
      ∃ task queue, a = .runServer g ∧ (s.server g).queue = task :: queue ∧
        queue <+: (s'.server g).queue := by
  rcases extends_step hs h with h | ⟨task, tasks, ha, ht, h⟩ | ⟨g', task, queue, ha, hq, h⟩
  · exact .inl (h.queue g)
  · exact .inl (h.queue g)
  · rcases eq_or_ne g g' with rfl | hg
    · exact .inr ⟨task, queue, ha, hq, by simpa using h.queue g⟩
    · exact .inl (by simpa [State.setServer, hg] using h.queue g)

/-- What is deleted stays so. -/
theorem isDeleted_step {a : Action} {r : Resource} (hs : Good env s)
    (h : step env s a = some s') (hr : s.IsDeleted r) : s'.IsDeleted r := by
  have hdeleted : s.deleted <+: s'.deleted := by
    rcases extends_step hs h with h | ⟨_, _, _, _, h⟩ | ⟨_, _, _, _, _, h⟩ <;> exact h.deleted
  exact (hdeleted.map Prod.fst).subset hr

/-- A wrapper stays, and its log only grows. -/
theorem wrapper_step {a : Action} {w : ServerWrapper} (hs : Good env s)
    (h : step env s a = some s') (hw : (s.server g).serverWrapper = some w) :
    ∃ w', (s'.server g).serverWrapper = some w' ∧ w.log <+: w'.log := by
  rcases extends_step hs h with h | ⟨_, _, _, _, h⟩ | ⟨g', _, _, _, _, h⟩
  · exact h.wrapper g w hw
  · exact h.wrapper g w hw
  · refine h.wrapper g w ?_
    rcases eq_or_ne g g' with rfl | hg
    · simpa using hw
    · simpa [State.setServer, hg] using hw

theorem httpHandler_terminateStep (f : Termination) :
    (s.terminateStep f).httpHandler = s.httpHandler := by
  rcases f with ⟨g, thread, serverWrapper, socketFactory⟩
  cases serverWrapper with
  | some w => exact State.httpHandler_postOn _ _
  | none =>
    cases socketFactory with
    | some c => exact State.httpHandler_postOn _ _
    | none => cases thread <;> rfl

theorem httpHandler_runServerTask (task : ServerTask) :
    (s.runServerTask g task).httpHandler = s.httpHandler := by
  cases task with
  | startServerOnHandlerThread => rfl
  | acceptWebSocket => exact State.httpHandler_onWrapper _ _
  | sendOverWebSocket => exact State.httpHandler_onWrapper _ _
  | deleteServerWrapper => exact State.httpHandler_delete _ _
  | deleteSocketFactory => exact State.httpHandler_delete _ _

theorem httpHandler_makeHandler (threadStarts : Bool) (od fd : FilePath) :
    (s.makeHandler threadStarts od fd).httpHandler = some { id := s.starts } := by
  cases threadStarts <;> simp [State.makeHandler, State.post, State.setServer]

theorem starts_makeHandler (threadStarts : Bool) (od fd : FilePath) :
    (s.makeHandler threadStarts od fd).starts = s.starts + 1 := by
  cases threadStarts <;> simp [State.makeHandler, State.post, State.setServer]

/-- What `ServerStarted` sets. -/
def SimpleHttpHandler.members (h : SimpleHttpHandler) :
    Option Gen × Option Gen × Option Gen × Option IPEndPoint :=
  (h.thread, h.serverWrapper, h.socketFactory, h.serverIpAddress)

/-- What a method leaves of the handler. -/
theorem httpHandler_onHandler {β : Type*} {π : SimpleHttpHandler → β} {h' : SimpleHttpHandler}
    {method : SimpleHttpHandler → SimpleHttpHandler × Option (Gen × ServerTask)}
    (hmethod : ∀ h, π (method h).1 = π h) (hh' : (s.onHandler g method).httpHandler = some h') :
    ∃ h, s.httpHandler = some h ∧ π h' = π h := by
  cases hh : s.httpHandler with
  | none =>
    rw [State.onHandler, hh] at hh'
    simp [hh] at hh'
  | some h =>
    rcases eq_or_ne h.id g with rfl | hid
    · rw [State.onHandler_eq hh rfl] at hh'
      have hrun : (method h).1 = h' := by
        cases hpost : (method h).2 <;> rw [hpost] at hh' <;> exact Option.some.inj hh'
      exact ⟨h, rfl, hrun ▸ hmethod h⟩
    · simp only [State.onHandler, hh, if_neg hid, Option.some.injEq] at hh'
      exact ⟨h, rfl, hh' ▸ rfl⟩

/-- A task of the main thread leaves the members of the handler, unless it is the
    `ServerStartedOnDedicatedRunner` of its start. -/
theorem httpHandler_runMainTask {task : MainTask} {h' : SimpleHttpHandler}
    (hh' : (s.runMainTask task).httpHandler = some h') :
    ∃ h, s.httpHandler = some h ∧ h'.id = h.id ∧ (h'.members = h.members ∨
      ∃ t w c ip, task = .serverStartedOnDedicatedRunner h.id (some t) (some w) c ip ∧
        h' = h.serverStarted (some t) (some w) c ip) := by
  cases task with
  | serverStartedOnDedicatedRunner handler thread w c ip =>
    rw [State.runMainTask, State.serverStartedOnDedicatedRunner] at hh'
    cases hh : s.httpHandler with
    | none => simp [hh] at hh'
    | some h =>
      rw [hh] at hh'
      dsimp only at hh'
      split_ifs at hh' with hserve
      · obtain ⟨rfl, ht, hw⟩ := hserve
        obtain ⟨t, rfl⟩ := Option.isSome_iff_exists.1 ht
        obtain ⟨w, rfl⟩ := Option.isSome_iff_exists.1 hw
        obtain rfl := Option.some.inj hh'
        exact ⟨h, rfl, rfl, .inr ⟨t, w, c, ip, rfl, rfl⟩⟩
      · have hsame : h = h' := Option.some.inj hh'
        exact ⟨h, rfl, hsame ▸ rfl, .inl (hsame ▸ rfl)⟩
  | onWebSocketRequest handler c info =>
    have hmethod : ∀ h : SimpleHttpHandler, ((h.onWebSocketRequest c info).1.id,
        (h.onWebSocketRequest c info).1.members) = (h.id, h.members) := by
      intro h
      cases ht : h.thread <;> simp [SimpleHttpHandler.onWebSocketRequest,
        SimpleHttpHandler.members, ht]
    obtain ⟨h, hh, heq⟩ :=
      httpHandler_onHandler (π := fun h => (h.id, h.members)) hmethod hh'
    obtain ⟨hid, hmembers⟩ := Prod.mk.inj heq
    exact ⟨h, hh, hid, .inl hmembers⟩
  | onWebSocketMessage handler c data =>
    obtain ⟨h, hh, heq⟩ :=
      httpHandler_onHandler (π := fun h => (h.id, h.members)) (fun h => rfl) hh'
    obtain ⟨hid, hmembers⟩ := Prod.mk.inj heq
    exact ⟨h, hh, hid, .inl hmembers⟩

/-- Where the handler alive after a step comes from: it was there, with the same members
    or without its server yet, or it is made by the step. -/
inductive HandlerStep (s : State) (a : Action) (h' : SimpleHttpHandler) : Prop
  | kept {h : SimpleHttpHandler} (hh : s.httpHandler = some h) (hid : h'.id = h.id)
    (hmembers : h'.members = h.members)
  | serverStarted {h : SimpleHttpHandler} {t w : Gen} {c : Option Gen} {ip : Option IPEndPoint}
    (hh : s.httpHandler = some h) (ha : a = .runMain) (ht : s.tasks.head? =
      some (.serverStartedOnDedicatedRunner h.id (some t) (some w) c ip))
    (hh' : h' = h.serverStarted (some t) (some w) c ip)
  | made {threadStarts : Bool} {od fd : FilePath} (hh : s.httpHandler = none)
    (ha : a = .start threadStarts od fd) (hh' : h' = { id := s.starts })

theorem handlerStep {a : Action} {h' : SimpleHttpHandler} (hstep : step env s a = some s')
    (hh' : s'.httpHandler = some h') : HandlerStep s a h' := by
  have hsame : s'.httpHandler = s.httpHandler → HandlerStep s a h' := fun heq =>
    .kept (heq ▸ hh') rfl rfl
  obtain ⟨-, hstep⟩ := transition_of_step hstep
  cases hstep with
  | start hm hh =>
    rw [httpHandler_makeHandler] at hh'
    exact .made hh rfl (Option.some.inj hh').symm
  | stop hm =>
    rw [State.stop] at hh'
    cases hh : s.httpHandler <;> simp [hh] at hh'
  | terminate hf => exact hsame (httpHandler_terminateStep _)
  | @runMain task tasks hm ht =>
    obtain ⟨h, hh, hid, hmembers | ⟨t, w, c, ip, rfl, hstarted⟩⟩ :=
      httpHandler_runMainTask (s := { s with tasks := tasks }) hh'
    · exact .kept hh hid hmembers
    · exact .serverStarted hh rfl (by rw [ht]; rfl) hstarted
  | runServer hf hq => exact hsame (httpHandler_runServerTask _)
  | deleteThread => exact hsame (State.httpHandler_delete _ _)
  | _ => exact hsame rfl

/-- The handler alive was there before the step, or is made by it. -/
theorem handler_step {a : Action} {h' : SimpleHttpHandler} (h : step env s a = some s')
    (hh' : s'.httpHandler = some h') :
    (∃ h, s.httpHandler = some h ∧ h'.id = h.id) ∨
      s.httpHandler = none ∧ ∃ threadStarts od fd, a = .start threadStarts od fd := by
  cases handlerStep h hh' with
  | kept hh hid => exact .inl ⟨_, hh, hid⟩
  | serverStarted hh _ _ hstarted => exact .inl ⟨_, hh, hstarted ▸ rfl⟩
  | made hh ha => exact .inr ⟨hh, _, _, _, ha⟩

/-- A start under way goes on, until its `ServerStartedOnDedicatedRunner` runs. -/
theorem starting_step {a : Action} (hs : Good env s) (h : step env s a = some s')
    (hg : s.Starting g) : s'.Starting g ∨
      a = .runMain ∧ ∃ thread serverWrapper socketFactory ip, s.tasks.head? =
        some (.serverStartedOnDedicatedRunner g thread serverWrapper socketFactory ip) := by
  rcases hg with hg | hg | hg
  · rcases queue_step hs h g with hq | ⟨task, queue, rfl, hqueue, hq⟩
    · exact .inl (.pending (hq.subset hg))
    · rw [hqueue] at hg
      rcases List.mem_cons.1 hg with rfl | hg
      · -- The task is at the front, and now runs.
        obtain ⟨-, h⟩ := transition_of_step h
        cases h with
        | runServer hf hqueue' =>
          obtain ⟨rfl, rfl⟩ := List.cons.inj (hqueue'.symm.trans hqueue)
          exact .inl (.running (by simp [State.runServerTask]))
      · exact .inl (.pending (hq.subset hg))
  · refine .inl ?_
    rcases extends_step hs h with h | ⟨_, _, _, _, h⟩ | ⟨g', _, _, _, _, h⟩
    · exact h.running g hg
    · exact h.running g hg
    · refine h.running g ?_
      rcases eq_or_ne g g' with rfl | hne
      · simpa using hg
      · simpa [State.setServer, hne] using hg
  · rcases tasks_step hs h with ht | ⟨task, tasks, rfl, htasks, ht⟩
    · exact .inl (.posted (ht.subset hg))
    · rw [htasks] at hg
      rcases List.mem_cons.1 hg with rfl | hg
      · exact .inr ⟨rfl, _, _, _, _, by rw [htasks]; rfl⟩
      · exact .inl (.posted (ht.subset hg))

/-! ## What a step forwards -/

/-- What a step forwards for the start `g`: the task the main thread runs, if it is
    from an event and the handler is alive. -/
def State.forwarded (s : State) (g : Gen) : Action → Option MainTask
  | .runMain => s.tasks.head?.filter fun t => t.IsWebSocket g ∧ s.Alive g
  | _ => none

theorem relay_mailbox : ((s.view g).relay g).mailbox = s.tasks.filter (·.IsWebSocket g) := by
  simp only [View.relay, State.view, List.filter_filter]
  refine List.filter_congr fun t _ => ?_
  by_cases ht : t.IsWebSocket g
  · simp [ht, ht.handler]
  · simp [ht]

theorem relay_source {w : ServerWrapper} (hw : (s.server g).serverWrapper = some w) :
    ((s.view g).relay g).source = w.posts g := by
  simp [View.relay, State.view, hw]

theorem relay_sink {w : ServerWrapper} (hw : (s.server g).serverWrapper = some w) :
    ((s.view g).relay g).sink = w.tasks := by
  simp [View.relay, State.view, hw]

theorem relay_state : ((s.view g).relay g).state = (s.view g).handler.map SimpleHttpHandler.known :=
  rfl

/-- The handler alive keeps the relay of its start open. -/
theorem known_mem_relay_state {h : SimpleHttpHandler} (hh : s.httpHandler = some h)
    (hid : h.id = g) : h.known ∈ ((s.view g).relay g).state := by
  rw [relay_state, State.view_handler_eq_some.2 ⟨hh, hid⟩]
  rfl

theorem relay_isSome : ((s.view g).relay g).state.isSome ↔ s.Alive g := by
  rw [State.alive_iff, View.relay, Option.isSome_map, Option.isSome_iff_exists]

/-- The front of the mailbox is gone exactly when the main thread runs it. -/
theorem mailbox_step {a : Action} (hs : Good env s) (h : step env s a = some s') (t : MainTask) :
    ((s.view g).relay g).mailbox = t :: ((s'.view g).relay g).mailbox ↔
      a = .runMain ∧ s.tasks.head? = some t ∧ t.IsWebSocket g := by
  rw [relay_mailbox, relay_mailbox]
  constructor
  · intro hm
    rcases tasks_step hs h with hp | ⟨task, tasks, rfl, ht, hp⟩
    · -- If no task is taken, the mailbox does not get shorter.
      have := (hp.filter (·.IsWebSocket g)).length_le
      simp only [hm, List.length_cons] at this
      omega
    · by_cases hws : task.IsWebSocket g
      · rw [ht, List.filter_cons_of_pos (by simpa using hws)] at hm
        obtain ⟨rfl, -⟩ := List.cons.inj hm
        exact ⟨rfl, by simp [ht], hws⟩
      · have := (hp.filter (·.IsWebSocket g)).length_le
        rw [ht, List.filter_cons_of_neg (by simpa using hws)] at hm
        simp only [hm, List.length_cons] at this
        omega
  · rintro ⟨rfl, hhead, hws⟩
    obtain ⟨-, h⟩ := transition_of_step h
    cases h with
    | @runMain task tasks hm ht =>
      obtain rfl : task = t := by simpa [ht] using hhead
      have htasks : ({ s with tasks := tasks }.runMainTask task).tasks = tasks :=
        (adds_runMainTask task).tasks
      rw [htasks, ht, List.filter_cons_of_pos (by simpa using hws)]

theorem mem_forwarded {a : Action} {t : MainTask} : t ∈ s.forwarded g a ↔
    a = .runMain ∧ s.tasks.head? = some t ∧ t.IsWebSocket g ∧ s.Alive g := by
  cases a <;> simp [State.forwarded, Option.filter_eq_some_iff]

theorem mem_forwarded_iff {a : Action} {t : MainTask} (hs : Good env s)
    (h : step env s a = some s') : t ∈ s.forwarded g a ↔
      s.Alive g ∧ ((s.view g).relay g).mailbox = t :: ((s'.view g).relay g).mailbox := by
  rw [mem_forwarded, mailbox_step hs h]
  tauto

/-- A start forwards what its steps forward. -/
theorem split_step {a : Action} {forwarded dropped : List MainTask} (hs : Good env s)
    (h : step env s a = some s')
    (hr : Relay.Split (forward g) ∅ ((s.view g).relay g) forwarded dropped) :
    ∃ dropped', Relay.Split (forward g) ∅ ((s'.view g).relay g)
      (forwarded ++ (s.forwarded g a).toList) dropped' := by
  -- Nothing is forwarded while the mailbox stays as it is.
  have hnone : ((s.view g).relay g).mailbox.length ≤ ((s'.view g).relay g).mailbox.length →
      s.forwarded g a = none := by
    intro hle
    refine Option.eq_none_iff_forall_not_mem.2 fun t ht => ?_
    rw [((mem_forwarded_iff hs h).1 ht).2] at hle
    simp at hle
  cases (good_step hs h).2 g with
  | birth hv hempty =>
    obtain rfl : forwarded = [] := by
      have hsource := hr.source
      rw [hv] at hsource
      exact (List.append_eq_nil_iff.1 (List.append_eq_nil_iff.1 hsource.symm).1).1
    rw [hnone (by simp [hv, View.relay]), hempty]
    exact ⟨[], Relay.split_empty⟩
  | stutter hrelay =>
    rw [hnone (by rw [hrelay]), hrelay]
    exact ⟨dropped, by simpa using hr⟩
  | step act hstep =>
    have hmoved : ((s.view g).relay g).moved act = s.forwarded g a := by
      refine Option.ext fun t => ?_
      rw [← Option.mem_def, ← Option.mem_def, Relay.mem_moved hstep, mem_forwarded_iff hs h,
        relay_isSome]
    rw [← hmoved]
    exact hr.step hstep

end Qlabs.Http
