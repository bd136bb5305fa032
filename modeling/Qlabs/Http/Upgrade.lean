import Qlabs.Http.HostCheck

/-!
# Upgrades

A client may ask for a WebSocket as soon as its server listens, before the handler
has been told that it does. Its request goes through the queue of the main thread,
behind the `ServerStartedOnDedicatedRunner` of the start: the handler that runs it has
its thread and its wrapper (`Good.owns_of_request`), and posts one `AcceptWebSocket`.

What is sent on a connection goes the same way, behind the request: whatever the
wrapper sends, it has accepted before, in the tasks that it runs and hence in the calls
that its `net::HttpServer` gets. While the handler is alive, no request is lost
(`upgrades_accepted`).
-/

namespace Qlabs.Http

variable {env : Env} {s s' : State} {g : Gen} {c : ℤ}

/-- The connection a task accepts. -/
def ServerTask.accept? : ServerTask → Option ℤ
  | .acceptWebSocket _ c _ => some c
  | _ => none

/-- The connection a call accepts. -/
def Call.accept? : Call → Option ℤ
  | .acceptWebSocket c _ => some c
  | _ => none

/-- Whatever the tasks send on a connection, they have accepted it before, on the
    wrapper `g`. -/
def AcceptedFirst (g : Gen) (tasks : List ServerTask) : Prop :=
  ∀ before w c message, before ++ [.sendOverWebSocket w c message] <+: tasks →
    ∃ info, .acceptWebSocket (some g) c info ∈ before

/-- Whatever is sent on a connection, a call has accepted the connection before. -/
def SentAfterAccept (calls : List Call) : Prop :=
  ∀ before c message, before ++ [.sendOverWebSocket c message] <+: calls →
    ∃ info, .acceptWebSocket c info ∈ before

/-- The connections whose requests wait in the queue of the main thread. -/
def State.pendingUpgrades (s : State) (g : Gen) : List ℤ :=
  (s.tasks.filter (·.IsWebSocket g)).filterMap MainTask.request?

/-! ## What is made of the requests -/

theorem AcceptedFirst.concat {tasks : List ServerTask} {t : ServerTask}
    (hfirst : AcceptedFirst g tasks)
    (ht : ∀ w c message, t = .sendOverWebSocket w c message →
      ∃ info, .acceptWebSocket (some g) c info ∈ tasks) : AcceptedFirst g (tasks ++ [t]) := by
  intro before w c message hb
  rcases List.prefix_concat_iff.1 hb with heq | hb
  · obtain ⟨rfl, hlast⟩ := List.append_inj' heq rfl
    exact ht w c message (List.cons.inj hlast).1.symm
  · exact hfirst before w c message hb

/-- What is forwarded is sent after the connection is accepted. -/
theorem acceptedFirst_process (tasks : List MainTask) :
    AcceptedFirst g (Relay.process (forward g) ∅ tasks).2 := by
  induction tasks using List.reverseRecOn with
  | nil => intro before w c message hb; simp [Relay.process] at hb
  | append_singleton tasks t ih =>
    rw [Relay.process_concat]
    cases t with
    | serverStartedOnDedicatedRunner => simpa [forward] using ih
    | onWebSocketRequest h c info => exact ih.concat fun w c message ht => by cases ht
    | onWebSocketMessage h c data =>
      by_cases hknown : c ∈ (Relay.process (forward g) ∅ tasks).1
      · simp only [forward, if_pos hknown]
        refine ih.concat fun w c' message hsend => ?_
        obtain ⟨-, rfl, -⟩ := ServerTask.sendOverWebSocket.inj hsend
        -- The handler knows the connection from a request, which is forwarded.
        obtain ⟨t, ht, hc⟩ := List.mem_filterMap.1 ((mem_process_known tasks).1 hknown)
        cases t with
        | onWebSocketRequest h' c' info =>
          obtain rfl : c' = c := Option.some.inj hc
          exact ⟨info, accept_mem_process ht ∅⟩
        | _ => cases hc
      · simpa [forward, hknown] using ih

/-- Every request forwarded is accepted, once, in order. -/
theorem filterMap_accept_process (known : Finset ℤ) (tasks : List MainTask) :
    (Relay.process (forward g) known tasks).2.filterMap ServerTask.accept? =
      tasks.filterMap MainTask.request? := by
  induction tasks generalizing known with
  | nil => rfl
  | cons t tasks ih =>
    rw [Relay.process, List.filterMap_append, ih]
    cases t with
    | serverStartedOnDedicatedRunner => rfl
    | onWebSocketRequest => rfl
    | onWebSocketMessage =>
      simp only [forward]
      split_ifs <;> rfl

/-! ## The tasks of a wrapper -/

/-- Running or waiting, what is sent on a connection comes after it is accepted. -/
theorem acceptedFirst_bound (hs : Good env s) {w : ServerWrapper}
    (hw : (s.server g).serverWrapper = some w) {forwarded dropped : List MainTask}
    (hr : Relay.Split (forward g) ∅ ((s.view g).relay g) forwarded dropped) :
    AcceptedFirst g (w.tasks ++ (s.server g).queue) := by
  intro before w' c message hb
  have hsend : (ServerTask.sendOverWebSocket w' c message).IsUnretained g :=
    isUnretained_of_connection hs hw (hb.subset (List.mem_append_right _ List.mem_cons_self)) rfl
  have hfilter := hb.filter (·.IsUnretained g)
  rw [filter_bound hs hw, hr.delivered, List.filter_append, List.filter_cons_of_pos (by simpa),
    List.filter_nil] at hfilter
  obtain ⟨info, hinfo⟩ := acceptedFirst_process _ _ _ _ _ hfilter
  exact ⟨info, (List.mem_filter.1 hinfo).1⟩

/-- The connections accepted are those of the requests forwarded. -/
theorem filterMap_accept_bound (hs : Good env s) {w : ServerWrapper}
    (hw : (s.server g).serverWrapper = some w) {forwarded dropped : List MainTask}
    (hr : Relay.Split (forward g) ∅ ((s.view g).relay g) forwarded dropped) :
    (w.tasks ++ (s.server g).queue).filterMap ServerTask.accept? =
      forwarded.filterMap MainTask.request? := by
  rw [← filterMap_accept_process (g := g) ∅, ← hr.delivered, ← filter_bound hs hw,
    List.filterMap_filter]
  refine List.filterMap_congr fun t ht => ?_
  by_cases hbound : t.IsUnretained g
  · simp [hbound]
  · cases t with
    | acceptWebSocket => exact absurd (isUnretained_of_connection hs hw ht rfl) hbound
    | _ => simp [ServerTask.accept?]

/-! ## The calls of a wrapper -/

theorem AcceptedFirst.mono {tasks tasks' : List ServerTask} (h : AcceptedFirst g tasks)
    (hp : tasks' <+: tasks) : AcceptedFirst g tasks' :=
  fun before w c message hb => h before w c message (hb.trans hp)

/-- A call that sends comes from a task that does, and so does one that accepts. -/
theorem sentAfterAccept_filterMap {tasks : List ServerTask} (h : AcceptedFirst g tasks) :
    SentAfterAccept (tasks.filterMap ServerTask.webSocketCall) := by
  rintro before c message ⟨rest, hrest⟩
  rw [List.append_assoc] at hrest
  obtain ⟨front, back, rfl, rfl, hback⟩ := List.filterMap_eq_append_iff.1 hrest.symm
  obtain ⟨skipped, t, back, rfl, hskipped, ht, -⟩ := List.filterMap_eq_cons_iff.1 hback
  cases t with
  | sendOverWebSocket w c' message' =>
    obtain ⟨rfl, rfl⟩ := Call.sendOverWebSocket.inj (Option.some.inj ht)
    obtain ⟨info, hinfo⟩ := h (front ++ skipped) w c' message' (by simp)
    -- The tasks in between call nothing about a WebSocket.
    have hfront : .acceptWebSocket (some g) c' info ∈ front :=
      (List.mem_append.1 hinfo).resolve_right fun hmem => by cases hskipped _ hmem
    exact ⟨info, List.mem_filterMap.2 ⟨_, hfront, rfl⟩⟩
  | _ => cases ht

/-- A wrapper sends what it sends on a connection after it has accepted it. -/
theorem sentAfterAccept_calls {w : ServerWrapper} (hw : w.Valid env g)
    (h : AcceptedFirst g w.tasks) : SentAfterAccept w.calls := by
  intro before c message hb
  have hfilter := hb.filter Call.isWebSocket
  rw [← ServerWrapper.webSocketCalls, hw.webSocketCalls, List.filter_append] at hfilter
  obtain ⟨info, hinfo⟩ := sentAfterAccept_filterMap h _ c message hfilter
  exact ⟨info, (List.mem_filter.1 hinfo).1⟩

/-- The connections a wrapper has accepted are those of the tasks it has run. -/
theorem filterMap_accept_calls {w : ServerWrapper} (hw : w.Valid env g) :
    w.calls.filterMap Call.accept? = w.tasks.filterMap ServerTask.accept? := by
  have hfilter : w.calls.filterMap Call.accept? = w.webSocketCalls.filterMap Call.accept? := by
    rw [ServerWrapper.webSocketCalls, List.filterMap_filter]
    refine List.filterMap_congr fun call _ => ?_
    cases call <;> rfl
  rw [hfilter, hw.webSocketCalls, List.filterMap_filterMap]
  refine List.filterMap_congr fun t _ => ?_
  cases t <;> rfl

/-! ## The handler -/

/-- A handler that runs a request to upgrade owns the server that received it. -/
theorem Good.owns_of_request (hs : Good env s) {h : SimpleHttpHandler}
    {info : HttpServerRequestInfo} {tasks : List MainTask} (hh : s.httpHandler = some h)
    (ht : s.tasks = .onWebSocketRequest h.id c info :: tasks) : h.Owns h.id := by
  have hlife := hs.life h.id
  have htasks := State.tasks_of_view (g := h.id) ht rfl
  have hhandler : (s.view h.id).handler = some h := State.view_handler_eq_some.2 ⟨hh, rfl⟩
  generalize s.view h.id = v at hlife htasks hhandler
  cases hlife with
  | posted => cases (List.cons.inj htasks).1
  | live howns => exact Option.some.inj hhandler ▸ howns
  | condemned alive halive =>
    -- A handler that is alive has nothing to run.
    obtain ⟨rfl, -⟩ := waiting_eq_some.1 hhandler
    simp only at htasks
    simp [(halive rfl).2] at htasks
  | _ => cases htasks

/-- A request that waits has been received by the server it is bound to. -/
theorem event_of_task (hs : (machine env).Reachable s) {info : HttpServerRequestInfo}
    (ht : .onWebSocketRequest g c info ∈ s.tasks) :
    ∃ w ∈ (s.server g).serverWrapper, .onWebSocketRequest c info ∈ w.events := by
  obtain ⟨forwarded, dropped, hsource, -, -⟩ := relay_inv hs g
  have hmailbox : .onWebSocketRequest g c info ∈ ((s.view g).relay g).mailbox := by
    rw [relay_mailbox]
    exact List.mem_filter.2 ⟨ht, by simp⟩
  have hmem : .onWebSocketRequest g c info ∈ ((s.view g).relay g).source :=
    hsource ▸ List.mem_append_right _ hmailbox
  cases hw : (s.server g).serverWrapper with
  | none => simp [View.relay, State.view, hw] at hmem
  | some w => exact ⟨w, rfl, event_of_post (relay_source hw ▸ hmem)⟩

/-- Running a request on the handler that owns its server posts one `AcceptWebSocket`
    to that server. -/
theorem queue_runMain {h : SimpleHttpHandler} {info : HttpServerRequestInfo}
    {tasks : List MainTask} (hh : s.httpHandler = some h) (howns : h.Owns h.id)
    (ht : s.tasks = .onWebSocketRequest h.id c info :: tasks)
    (hstep : step env s .runMain = some s') (g : Gen) : (s'.server g).queue =
      (s.server g).queue ++ if g = h.id then [.acceptWebSocket (some h.id) c info] else [] := by
  obtain ⟨-, hstep⟩ := transition_of_step hstep
  cases hstep with
  | @runMain task tasks hm ht' =>
    obtain ⟨rfl, rfl⟩ := List.cons.inj (ht'.symm.trans ht)
    obtain ⟨h', hrun⟩ : ∃ h', SimpleHttpHandler.onWebSocketRequest c info h =
        (h', some (h.id, .acceptWebSocket (some h.id) c info)) := by
      rw [SimpleHttpHandler.onWebSocketRequest, howns.thread, howns.serverWrapper]
      exact ⟨_, rfl⟩
    rw [State.runMainTask, State.onHandler_eq (s := { s with tasks := tasks }) hh hrun]
    exact State.queue_post _ _

/-- A request to upgrade that runs on the handler alive finds its thread and its wrapper,
    those of the server that received it, and is accepted there, once. On every server,
    a connection is accepted before anything is sent on it, and at most once, by the tasks
    posted to its thread, and by the calls that its wrapper makes: these are those of the
    tasks that have run. While the handler is alive, the requests received are those
    accepted, and those that wait. -/
theorem upgrades_accepted (hs : (machine env).Reachable s) :
    (∀ h c info tasks, s.httpHandler = some h → s.tasks = .onWebSocketRequest h.id c info :: tasks →
      h.thread = some h.id ∧ h.serverWrapper = some h.id ∧
      (∃ w ∈ (s.server h.id).serverWrapper, .onWebSocketRequest c info ∈ w.events) ∧
      ∀ s', step env s .runMain = some s' → ∀ g, (s'.server g).queue =
        (s.server g).queue ++ if g = h.id then [.acceptWebSocket (some h.id) c info] else []) ∧
    ∀ g w, (s.server g).serverWrapper = some w →
      AcceptedFirst g (w.tasks ++ (s.server g).queue) ∧
      ((w.tasks ++ (s.server g).queue).filterMap ServerTask.accept?).Nodup ∧
      (s.Alive g → upgrades w.events =
        (w.tasks ++ (s.server g).queue).filterMap ServerTask.accept? ++ s.pendingUpgrades g) ∧
      w.webSocketCalls = w.tasks.filterMap ServerTask.webSocketCall ∧
      SentAfterAccept w.calls ∧ (w.calls.filterMap Call.accept?).Nodup := by
  have hgood := good_of_reachable hs
  refine ⟨fun h c info tasks hh ht => ?_, fun g w hw => ?_⟩
  · have howns := hgood.owns_of_request hh ht
    exact ⟨howns.thread, howns.serverWrapper, event_of_task hs (ht ▸ List.mem_cons_self),
      fun s' hstep => queue_runMain hh howns ht hstep⟩
  · obtain ⟨forwarded, dropped, hr⟩ := relay_inv hs g
    have hvalid := (hgood.life g).valid w hw
    -- The requests received are those forwarded, dropped and pending.
    have hupgrades : upgrades w.events = forwarded.filterMap MainTask.request? ++
        dropped.filterMap MainTask.request? ++ s.pendingUpgrades g := by
      rw [← filterMap_request_mainTask (g := g), ← ServerWrapper.posts, ← relay_source hw,
        hr.source, State.pendingUpgrades, ← relay_mailbox, List.filterMap_append,
        List.filterMap_append]
    have hfirst := acceptedFirst_bound hgood hw hr
    have honce : ((w.tasks ++ (s.server g).queue).filterMap ServerTask.accept?).Nodup := by
      have hnodup := hvalid.log.nodup_upgrades
      rw [show upgrades (w.log.filterMap Entry.event?) = upgrades w.events from rfl, hupgrades,
        List.append_assoc] at hnodup
      rw [filterMap_accept_bound hgood hw hr]
      exact hnodup.of_append_left
    refine ⟨hfirst, honce, fun halive => ?_, hvalid.webSocketCalls,
      sentAfterAccept_calls hvalid (hfirst.mono (List.prefix_append _ _)), ?_⟩
    · obtain ⟨h, hh, hid⟩ := halive
      obtain ⟨rfl, -⟩ := hr.state h.known (known_mem_relay_state hh hid)
      rw [hupgrades, filterMap_accept_bound hgood hw hr]
      simp
    · rw [List.filterMap_append] at honce
      rw [filterMap_accept_calls hvalid]
      exact honce.of_append_left

/-- A client that asks for a WebSocket, and sends a message on it, before the handler knows
    of its server. -/
def earlyClient : List Action :=
  [.start true [] (bytes "/srv"), .runServer 0,
    .createForHttpServer 0 (some ⟨bytes "127.0.0.1", 3101⟩),
    .getLocalAddress 0 (some ⟨bytes "127.0.0.1", 3101⟩), .postServerStarted 0,
    .event 0 (.onConnect 1) noFiles, .event 0 (.onWebSocketRequest 1 pageRequest) noFiles,
    .event 0 (.onWebSocketMessage 1 (bytes "hi")) noFiles, .runMain]

/-- The handler that runs its request has been told; it is accepted, and then answered. -/
theorem upgrades_accepted_early :
    let s := (machine localEnv).after earlyClient
    let s' := (machine localEnv).after
      (earlyClient ++ [.runMain, .runMain, .runServer 0, .runServer 0])
    (∃ h, s.httpHandler = some h ∧ h.thread = some 0 ∧ h.serverWrapper = some 0) ∧
    ∃ w, (s'.server 0).serverWrapper = some w ∧
      w.webSocketCalls =
        [.acceptWebSocket 1 pageRequest, .sendOverWebSocket 1 (bytes "[1] OnMessage(hi)")] ∧
      SentAfterAccept w.calls ∧ (w.calls.filterMap Call.accept?).Nodup := by
  intro s s'
  constructor
  · have hh : s.httpHandler.isSome := by decide
    have hid : (s.httpHandler.get hh).id = 0 := by decide +revert
    have ht : s.tasks = [.onWebSocketRequest (s.httpHandler.get hh).id 1 pageRequest,
        .onWebSocketMessage (s.httpHandler.get hh).id 1 (bytes "hi")] := by decide +revert
    have haccepted := (upgrades_accepted (Machine.reachable_after _)).1 _ 1 pageRequest _
      (Option.some_get hh).symm ht
    rw [hid] at haccepted
    exact ⟨_, (Option.some_get hh).symm, haccepted.1, haccepted.2.1⟩
  · obtain ⟨w, hw⟩ : ∃ w, (s'.server 0).serverWrapper = some w :=
      Option.isSome_iff_exists.1 (by decide)
    have hget : w = (s'.server 0).serverWrapper.get (by decide) := by simp [hw]
    obtain ⟨-, -, -, -, hsent, honce⟩ := (upgrades_accepted (Machine.reachable_after _)).2 0 w hw
    refine ⟨w, hw, ?_, hsent, honce⟩
    rw [hget]
    decide

end Qlabs.Http
