import Qlabs.Http.Agents

/-!
# The check of the Host header

`OnHttpRequest` answers a request whose Host header is not trusted with an error,
and does nothing else about it. `OnWebSocketRequest` does not look at the header:
such a request to upgrade is forwarded to the handler, which accepts it, if it is
alive by then (`not_host_checked`).

That is the only way it goes wrong: a run does nothing about the requests that
are not trusted exactly when the main thread runs none of them while the handler
is alive (`host_checked_iff`).
-/

namespace Qlabs.Http

variable {env : Env} {s s' : State} {g : Gen} {c : ℤ}

/-- The connection a task bound to a wrapper is about. -/
def ServerTask.connection? : ServerTask → Option ℤ
  | .acceptWebSocket _ c _ | .sendOverWebSocket _ c _ => some c
  | _ => none

/-- Nothing is done about the requests that are not trusted, beyond an error. -/
structure HostChecked (env : Env) (s : State) : Prop where
  /-- A plain request is answered with an error, and nothing else. -/
  http : ∀ g, ∀ w ∈ (s.server g).serverWrapper, ∀ c info calls,
    .event (.onHttpRequest c info) calls ∈ w.log → env.requestIsSafeToServe info = false →
    calls = [.respond c (.internalError unsafeHostMessage)]
  /-- The wrapper makes no call on a request to upgrade. -/
  upgrade : ∀ g, ∀ w ∈ (s.server g).serverWrapper, ∀ c info calls,
    .event (.onWebSocketRequest c info) calls ∈ w.log → env.requestIsSafeToServe info = false →
    calls = []
  /-- There is no agent for its connection. -/
  agents : ∀ g, ∀ w ∈ (s.server g).serverWrapper, ∀ c info,
    .onWebSocketRequest c info ∈ w.events → env.requestIsSafeToServe info = false →
    ∀ h ∈ s.httpHandler, h.id = g → c ∉ h.connectionToClient.keys
  /-- It is not accepted, nor sent anything, and will not be. -/
  tasks : ∀ g, ∀ w ∈ (s.server g).serverWrapper, ∀ c info,
    .onWebSocketRequest c info ∈ w.events → env.requestIsSafeToServe info = false →
    ∀ t ∈ w.tasks ++ (s.server g).queue, t.connection? ≠ some c

/-- If the main thread runs a request to upgrade, and the handler is alive, then the
    request is trusted. -/
def ChecksHost (env : Env) (s : State) (a : Action) : Prop :=
  ∀ h c info, a = .runMain → s.tasks.head? = some (.onWebSocketRequest h c info) → s.Alive h →
    env.requestIsSafeToServe info

/-- The requests to upgrade among the tasks are trusted. -/
def Trusted (env : Env) (tasks : List MainTask) : Prop :=
  ∀ h c info, .onWebSocketRequest h c info ∈ tasks → env.requestIsSafeToServe info

/-! ## What is made of the requests forwarded -/

/-- A request forwarded is accepted. -/
theorem accept_mem_process {tasks : List MainTask} {h : Gen} {info : HttpServerRequestInfo}
    (ht : .onWebSocketRequest h c info ∈ tasks) (known : Finset ℤ) :
    .acceptWebSocket (some g) c info ∈ (Relay.process (forward g) known tasks).2 := by
  induction tasks generalizing known with
  | nil => cases ht
  | cons t tasks ih =>
    rw [Relay.process, List.mem_append]
    rcases List.mem_cons.1 ht with rfl | ht
    · exact .inl (by simp [forward])
    · exact .inr (ih ht _)

/-- What is done is about the connections of the requests forwarded. -/
theorem connection_mem_process {tasks : List MainTask} {t : ServerTask}
    (ht : t ∈ (Relay.process (forward g) ∅ tasks).2) (hc : t.connection? = some c) :
    c ∈ tasks.filterMap MainTask.request? := by
  induction tasks using List.reverseRecOn with
  | nil => cases ht
  | append_singleton tasks task ih =>
    rw [Relay.process_concat, List.mem_append] at ht
    rw [List.filterMap_append, List.mem_append]
    rcases ht with ht | ht
    · exact .inl (ih ht)
    · cases task with
      | onWebSocketRequest h c' info =>
        obtain rfl : t = .acceptWebSocket (some g) c' info := by simpa [forward] using ht
        obtain rfl : c' = c := Option.some.inj hc
        exact .inr (by simp [MainTask.request?])
      | onWebSocketMessage h c' data =>
        -- A message is forwarded if the handler knows its connection, from its request.
        by_cases hknown : c' ∈ (Relay.process (forward g) ∅ tasks).1
        · obtain rfl : t = .sendOverWebSocket (some g) c' (agentMessage c' data) := by
            simpa [forward, hknown] using ht
          obtain rfl : c' = c := Option.some.inj hc
          exact .inl ((mem_process_known tasks).1 hknown)
        · simp [forward, hknown] at ht
      | serverStartedOnDedicatedRunner => cases ht

/-! ## The requests of a wrapper -/

/-- The calls of an event are those its method makes. -/
theorem LogValid.calls_eq {frontendDir : FilePath} {log : List Entry}
    (h : LogValid env g frontendDir log) {e : Event} {calls : List Call}
    (he : .event e calls ∈ log) : ∃ read, calls = e.calls env frontendDir read := by
  induction h with
  | nil => cases he
  | event e' read hlog _ ih =>
    rcases List.mem_append.1 he with he | he
    · exact ih he
    · obtain ⟨rfl, rfl⟩ := Entry.event.inj (List.mem_singleton.1 he)
      exact ⟨read, rfl⟩
  | task t hlog ht ih =>
    rcases List.mem_append.1 he with he | he
    · exact ih he
    · cases List.mem_singleton.1 he

/-- A connection is upgraded by one request. -/
theorem LogValid.request_unique {frontendDir : FilePath} {log : List Entry}
    (h : LogValid env g frontendDir log) {info info' : HttpServerRequestInfo}
    (hinfo : .onWebSocketRequest c info ∈ log.filterMap Entry.event?)
    (hinfo' : .onWebSocketRequest c info' ∈ log.filterMap Entry.event?) : info = info' := by
  have hpair := List.pairwise_filterMap.1 h.nodup_upgrades
  have hsymm : Std.Symm fun e e' : Event =>
      ∀ b, e.upgrade? = some b → ∀ b', e'.upgrade? = some b' → b ≠ b' :=
    ⟨fun e e' h b hb b' hb' => (h b' hb' b hb).symm⟩
  by_contra hne
  exact hpair.forall hinfo hinfo' (fun heq => hne (Event.onWebSocketRequest.inj heq).2)
    c rfl c rfl rfl

section Wrapper

variable {w : ServerWrapper} {forwarded dropped : List MainTask}

/-- The tasks of a thread about connections are bound to its wrapper. -/
theorem isUnretained_of_connection (hs : Good env s) (hw : (s.server g).serverWrapper = some w)
    {t : ServerTask} (ht : t ∈ w.tasks ++ (s.server g).queue) (hc : t.connection? = some c) :
    t.IsUnretained g := by
  rcases List.mem_append.1 ht with ht | ht
  · exact ((hs.life g).valid w hw).log.isUnretained t ht
  · have hof : t.IsOf g := (hs.life g).isOf t ht
    cases t with
    | acceptWebSocket => exact hof
    | sendOverWebSocket => exact hof
    | _ => cases hc

/-- The tasks about a connection are those that have come out of the relay. -/
theorem mem_bound_iff (hs : Good env s) (hw : (s.server g).serverWrapper = some w) {t : ServerTask}
    (hc : t.connection? = some c) : t ∈ w.tasks ++ (s.server g).queue ↔
      t ∈ ((s.view g).relay g).sink ++ ((s.view g).relay g).outbox := by
  rw [← filter_bound hs hw, List.mem_filter]
  exact ⟨fun ht => ⟨ht, decide_eq_true (isUnretained_of_connection hs hw ht hc)⟩, And.left⟩

/-- A request that a wrapper has posted is from one of its events. -/
theorem event_of_post {h : Gen} {info : HttpServerRequestInfo}
    (ht : .onWebSocketRequest h c info ∈ w.posts g) : .onWebSocketRequest c info ∈ w.events := by
  obtain ⟨e, he, hpost⟩ := List.mem_filterMap.1 ht
  cases e with
  | onWebSocketRequest c' info' =>
    obtain ⟨-, rfl, rfl⟩ := MainTask.onWebSocketRequest.inj (Option.some.inj hpost)
    exact he
  | _ => cases hpost

/-- What is forwarded was posted by the wrapper. -/
theorem post_of_forwarded (hw : (s.server g).serverWrapper = some w)
    (hr : Relay.Split (forward g) ∅ ((s.view g).relay g) forwarded dropped) {t : MainTask}
    (ht : t ∈ forwarded) : t ∈ w.posts g := by
  have hsource := hr.source
  rw [relay_source hw, List.append_assoc] at hsource
  exact hsource ▸ List.mem_append_left _ ht

/-- A request forwarded is from an event of the wrapper. -/
theorem event_of_forwarded (hw : (s.server g).serverWrapper = some w)
    (hr : Relay.Split (forward g) ∅ ((s.view g).relay g) forwarded dropped) {h : Gen}
    {info : HttpServerRequestInfo} (ht : .onWebSocketRequest h c info ∈ forwarded) :
    .onWebSocketRequest c info ∈ w.events :=
  event_of_post (post_of_forwarded hw hr ht)

/-- If the requests forwarded are trusted, the connection of one is from a trusted request. -/
theorem Trusted.safe (htrusted : Trusted env forwarded)
    (hw : (s.server g).serverWrapper = some w) (hvalid : w.Valid env g)
    (hr : Relay.Split (forward g) ∅ ((s.view g).relay g) forwarded dropped)
    (hc : c ∈ forwarded.filterMap MainTask.request?) {info : HttpServerRequestInfo}
    (hinfo : .onWebSocketRequest c info ∈ w.events) : env.requestIsSafeToServe info := by
  obtain ⟨t, ht, hc⟩ := List.mem_filterMap.1 hc
  cases t with
  | onWebSocketRequest h c' info' =>
    obtain rfl : c' = c := Option.some.inj hc
    obtain rfl := hvalid.log.request_unique hinfo (event_of_forwarded hw hr ht)
    exact htrusted _ _ _ ht
  | _ => cases hc

/-- If nothing is done about the requests that are not trusted, none is forwarded. -/
theorem HostChecked.trusted (hs : Good env s) (h : HostChecked env s)
    (hr : Relay.Split (forward g) ∅ ((s.view g).relay g) forwarded dropped) :
    Trusted env forwarded := by
  intro h' c info ht
  obtain ⟨w, hw⟩ : ∃ w, (s.server g).serverWrapper = some w := by
    -- Without a wrapper, there is nothing to forward.
    refine Option.ne_none_iff_exists'.1 fun hnone => ?_
    have hsource := hr.source
    simp only [View.relay, State.view, hnone, Option.elim_none] at hsource
    simp [(List.append_eq_nil_iff.1 (List.append_eq_nil_iff.1 hsource.symm).1).1] at ht
  have haccept : .acceptWebSocket (some g) c info ∈ w.tasks ++ (s.server g).queue := by
    rw [mem_bound_iff (c := c) hs hw rfl, hr.delivered]
    exact accept_mem_process ht ∅
  by_contra hsafe
  exact h.tasks g w hw c info (event_of_forwarded hw hr ht) (by simpa using hsafe) _ haccept rfl

end Wrapper

/-- If the requests forwarded are trusted, nothing is done about the others. -/
theorem hostChecked_of_trusted (hs : Good env s)
    (h : ∀ g, ∃ forwarded dropped, Trusted env forwarded ∧
      Relay.Split (forward g) ∅ ((s.view g).relay g) forwarded dropped) : HostChecked env s where
  http g w hw c info calls hcalls huntrusted := by
    obtain ⟨read, rfl⟩ := ((hs.life g).valid w hw).log.calls_eq hcalls
    simp [Event.calls, ServerWrapper.onHttpRequest, huntrusted]
  upgrade g w hw c info calls hcalls _ := by
    obtain ⟨read, rfl⟩ := ((hs.life g).valid w hw).log.calls_eq hcalls
    rfl
  agents g w hw c info hinfo huntrusted handler hh hid hc := by
    obtain ⟨forwarded, dropped, htrusted, hr⟩ := h g
    have hknown : c ∈ handler.known := List.mem_toFinset.2 hc
    rw [(hr.state _ (known_mem_relay_state hh hid)).2, mem_process_known] at hknown
    have hsafe := htrusted.safe hw ((hs.life g).valid w hw) hr hknown hinfo
    simp [huntrusted] at hsafe
  tasks g w hw c info hinfo huntrusted t ht hc := by
    obtain ⟨forwarded, dropped, htrusted, hr⟩ := h g
    rw [mem_bound_iff hs hw hc, hr.delivered] at ht
    have hsafe := htrusted.safe hw ((hs.life g).valid w hw) hr (connection_mem_process ht hc) hinfo
    simp [huntrusted] at hsafe

/-! ## Runs -/

/-- A step does nothing about a request that is not trusted exactly when it does not
    run one, with the handler alive. -/
theorem hostChecked_step {a : Action} (hs : (machine env).Reachable s)
    (hchecked : HostChecked env s) (h : step env s a = some s') :
    HostChecked env s' ↔ ChecksHost env s a := by
  have hgood := good_of_reachable hs
  have hgood' := good_of_reachable (hs.step h)
  constructor
  · rintro hchecked' g c info rfl hhead halive
    obtain ⟨forwarded, dropped, hr⟩ := relay_inv hs g
    obtain ⟨dropped', hr'⟩ := split_step hgood h hr
    -- The request is forwarded, so that it is trusted.
    have hmoved : .onWebSocketRequest g c info ∈ s.forwarded g .runMain :=
      mem_forwarded.2 ⟨rfl, hhead, rfl, halive⟩
    exact hchecked'.trusted hgood' hr' _ _ _
      (List.mem_append_right _ (Option.mem_toList.2 hmoved))
  · intro hcheck
    refine hostChecked_of_trusted hgood' fun g => ?_
    obtain ⟨forwarded, dropped, hr⟩ := relay_inv hs g
    obtain ⟨dropped', hr'⟩ := split_step hgood h hr
    -- What is forwarded is what was, and what the step forwards.
    refine ⟨_, dropped', fun h' c info ht => ?_, hr'⟩
    rcases List.mem_append.1 ht with ht | ht
    · exact hchecked.trusted hgood hr _ _ _ ht
    · obtain ⟨ha, hhead, rfl, halive⟩ := mem_forwarded.1 (Option.mem_toList.1 ht)
      exact hcheck _ _ _ ha hhead halive

/-- Before any start, there is nothing to check. -/
theorem hostChecked_init : HostChecked env (machine env).init :=
  hostChecked_of_trusted (good_of_reachable .init) fun _ =>
    ⟨[], [], fun _ _ _ h => absurd h List.not_mem_nil, rfl, rfl, fun _ h => by cases h⟩

/-- A run does nothing about the requests that are not trusted, beyond an error for
    the plain ones, exactly when the main thread runs no request to upgrade that is not
    trusted while its handler is alive. -/
theorem host_checked_iff (as : List Action) :
    (machine env).Always (HostChecked env) (machine env).init as ↔
      (machine env).Steps (ChecksHost env) (machine env).init as :=
  Machine.always_iff_steps (fun _ _ _ hs hchecked h => hostChecked_step hs hchecked h)
    .init hostChecked_init as

/-- A request to upgrade from a page of another host. -/
def foreignRequest : HttpServerRequestInfo where
  path := bytes "/"
  headers := [(bytes "host", bytes "evil.example")]
  data := []

/-- It is not trusted, and the wrapper accepts it all the same. -/
theorem not_host_checked :
    let s := (machine localEnv).after (startUp 0 ⟨bytes "127.0.0.1", 3101⟩ ++
      [.event 0 (.onConnect 1) noFiles, .event 0 (.onWebSocketRequest 1 foreignRequest) noFiles,
        .runMain, .runServer 0])
    localEnv.requestIsSafeToServe foreignRequest = false ∧ ¬HostChecked localEnv s := by
  intro s
  have huntrusted : localEnv.requestIsSafeToServe foreignRequest = false := by decide
  have hw : (s.server 0).serverWrapper.isSome := by decide
  have hinfo :
      .onWebSocketRequest 1 foreignRequest ∈ ((s.server 0).serverWrapper.get hw).events := by
    decide +revert
  have haccept : .acceptWebSocket (some 0) 1 foreignRequest ∈
      ((s.server 0).serverWrapper.get hw).tasks ++ (s.server 0).queue := by
    decide +revert
  exact ⟨huntrusted, fun hchecked =>
    hchecked.tasks 0 _ (Option.get_mem hw) 1 foreignRequest hinfo huntrusted _ haccept rfl⟩

end Qlabs.Http
