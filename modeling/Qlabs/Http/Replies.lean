import Qlabs.Http.Frame

/-!
# Replies

A message that arrives on a WebSocket is echoed: the wrapper posts it to the main
thread, where the agent of the connection makes a text of it (`agentMessage`),
which is posted back to the server thread, to be sent.

For each start and each connection, the texts sent are a prefix of those of the
messages received, in order. While the handler is alive, the missing ones are
those that wait in the two queues; once it is gone, those already in the queue of
the server thread are all there is to come (`replies_in_order`).
-/

namespace Qlabs.Http

variable {env : Env} {s s' : State} {g : Gen} {c : ℤ}

/-! ## Texts -/

/-- The text a call sends on the connection `c`. -/
def Call.reply? (c : ℤ) : Call → Option Bytes
  | .sendOverWebSocket c' message => if c' = c then some message else none
  | _ => none

/-- The text due for an event, on the connection `c`. -/
def Event.reply? (c : ℤ) : Event → Option Bytes
  | .onWebSocketMessage c' data => if c' = c then some (agentMessage c data) else none
  | _ => none

/-- The text a task sends through the wrapper `g`, on the connection `c`. -/
def ServerTask.reply? (g : Gen) (c : ℤ) : ServerTask → Option Bytes
  | .sendOverWebSocket w c' message => if w = some g ∧ c' = c then some message else none
  | _ => none

/-- The text due for a task of the handler `g`, on the connection `c`. -/
def MainTask.reply? (g : Gen) (c : ℤ) : MainTask → Option Bytes
  | .onWebSocketMessage h c' data => if h = g ∧ c' = c then some (agentMessage c data) else none
  | _ => none

/-- The replies a wrapper has handed to its `net::HttpServer`. -/
def ServerWrapper.replies (w : ServerWrapper) (c : ℤ) : List Bytes :=
  w.calls.filterMap (Call.reply? c)

/-- The replies due for the messages a wrapper has received. -/
def ServerWrapper.expected (w : ServerWrapper) (c : ℤ) : List Bytes :=
  w.events.filterMap (Event.reply? c)

/-- The call is about a WebSocket that there is, or is to be. -/
def Call.isWebSocket : Call → Bool
  | .acceptWebSocket .. | .sendOverWebSocket .. => true
  | _ => false

/-- The call of a task about a WebSocket. -/
def ServerTask.webSocketCall : ServerTask → Option Call
  | .acceptWebSocket _ c request => some (.acceptWebSocket c request)
  | .sendOverWebSocket _ c message => some (.sendOverWebSocket c message)
  | _ => none

/-- The calls about WebSockets that a wrapper has made, in order. -/
def ServerWrapper.webSocketCalls (w : ServerWrapper) : List Call :=
  w.calls.filter Call.isWebSocket

/-- The replies in the queue of the server thread. -/
def State.queuedReplies (s : State) (g : Gen) (c : ℤ) : List Bytes :=
  (s.server g).queue.filterMap (ServerTask.reply? g c)

/-- The replies due for the messages in the queue of the main thread. -/
def State.pendingReplies (s : State) (g : Gen) (c : ℤ) : List Bytes :=
  s.tasks.filterMap (MainTask.reply? g c)

/-! ## The log of a wrapper -/

/-- The connection a task asks to upgrade. -/
def MainTask.request? : MainTask → Option ℤ
  | .onWebSocketRequest _ c _ => some c
  | _ => none

/-- Every message comes after the request of its connection. -/
def Covered (tasks : List MainTask) : Prop :=
  ∀ before h c data, before ++ [.onWebSocketMessage h c data] <+: tasks →
    c ∈ before.filterMap MainTask.request?

theorem Covered.mono {tasks tasks' : List MainTask} (h : Covered tasks) (hp : tasks' <+: tasks) :
    Covered tasks' :=
  fun before h' c data hb => h before h' c data (hb.trans hp)

theorem covered_concat {tasks : List MainTask} {t : MainTask} (hcov : Covered tasks)
    (ht : ∀ h c data, t = .onWebSocketMessage h c data → c ∈ tasks.filterMap MainTask.request?) :
    Covered (tasks ++ [t]) := by
  intro before h c data hb
  rcases List.prefix_concat_iff.1 hb with heq | hb
  · obtain ⟨rfl, h⟩ := List.append_inj' heq rfl
    exact ht _ c data (List.cons.inj h).1.symm
  · exact hcov before h c data hb

/-- The connections a wrapper has asked to upgrade are those of its requests. -/
theorem filterMap_request_mainTask (events : List Event) :
    (events.filterMap (Event.mainTask g)).filterMap MainTask.request? = upgrades events := by
  rw [upgrades, List.filterMap_filterMap]
  refine List.filterMap_congr fun e _ => ?_
  cases e <;> rfl

theorem LogValid.covered {frontendDir : FilePath} {log : List Entry}
    (h : LogValid env g frontendDir log) :
    Covered ((log.filterMap Entry.event?).filterMap (Event.mainTask g)) := by
  induction h with
  | nil => intro before h c data hb; simp at hb
  | @event log e read hlog he ih =>
    rw [filterMap_event_event, List.filterMap_append]
    cases e with
    | onWebSocketRequest c info => exact covered_concat ih fun h c data ht => by cases ht
    | onWebSocketMessage c data =>
      refine covered_concat ih fun h c' data' ht => ?_
      obtain ⟨-, rfl, -⟩ := MainTask.onWebSocketMessage.inj ht
      rw [filterMap_request_mainTask]
      exact he
    | _ => simpa [Event.mainTask, List.filterMap_cons] using ih
  | task t hlog ht ih => rwa [filterMap_event_task]

theorem ServerWrapper.Valid.covered {w : ServerWrapper} (hw : w.Valid env g) :
    Covered (w.posts g) :=
  hw.log.covered

/-- No event makes the wrapper call anything about a WebSocket at once. -/
theorem Event.filter_isWebSocket_calls (frontendDir : FilePath) (read : FilePath → ReadResult)
    (e : Event) : (e.calls env frontendDir read).filter Call.isWebSocket = [] := by
  cases e with
  | onHttpRequest connectionId info =>
    rw [Event.calls, ServerWrapper.onHttpRequest]
    split_ifs <;> rfl
  | _ => rfl

theorem ServerTask.filter_isWebSocket_calls (t : ServerTask) :
    t.calls.filter Call.isWebSocket = t.webSocketCall.toList := by
  cases t <;> rfl

/-- A wrapper runs the tasks bound to it only. -/
theorem LogValid.isUnretained {frontendDir : FilePath} {log : List Entry}
    (h : LogValid env g frontendDir log) :
    ∀ t ∈ log.filterMap Entry.task?, t.IsUnretained g := by
  induction h with
  | nil => simp
  | event e read hlog he ih => rwa [filterMap_task_event]
  | task t hlog ht ih =>
    rw [filterMap_task_task]
    exact fun t' ht' => (List.mem_append.1 ht').elim (ih t') fun ht' =>
      List.mem_singleton.1 ht' ▸ ht

/-- What a wrapper has called about WebSockets is what the tasks it has run call. -/
theorem LogValid.webSocketCalls {frontendDir : FilePath} {log : List Entry}
    (h : LogValid env g frontendDir log) :
    (log.flatMap Entry.calls).filter Call.isWebSocket =
      (log.filterMap Entry.task?).filterMap ServerTask.webSocketCall := by
  induction h with
  | nil => rfl
  | event e read hlog he ih => simp [ih, Event.filter_isWebSocket_calls]
  | task t hlog ht ih =>
    cases ht' : t.webSocketCall <;> simp [ih, ServerTask.filter_isWebSocket_calls, ht']

theorem ServerWrapper.Valid.webSocketCalls {w : ServerWrapper} (hw : w.Valid env g) :
    w.webSocketCalls = w.tasks.filterMap ServerTask.webSocketCall :=
  hw.log.webSocketCalls

theorem Call.isWebSocket_of_reply {call : Call} {message : Bytes}
    (h : call.reply? c = some message) : call.isWebSocket = true := by
  cases call <;> first | rfl | cases h

/-- The replies of a wrapper are those of the tasks it has run. -/
theorem LogValid.replies {frontendDir : FilePath} {log : List Entry}
    (h : LogValid env g frontendDir log) :
    (log.flatMap Entry.calls).filterMap (Call.reply? c) =
      (log.filterMap Entry.task?).filterMap (ServerTask.reply? g c) := by
  have hfilter : (log.flatMap Entry.calls).filterMap (Call.reply? c) =
      ((log.flatMap Entry.calls).filter Call.isWebSocket).filterMap (Call.reply? c) := by
    rw [List.filterMap_filter]
    refine List.filterMap_congr fun call _ => ?_
    cases hreply : call.reply? c with
    | none => simp
    | some message => simp [Call.isWebSocket_of_reply hreply]
  rw [hfilter, h.webSocketCalls, List.filterMap_filterMap]
  refine List.filterMap_congr fun t ht => ?_
  have ht := h.isUnretained t ht
  cases t with
  | sendOverWebSocket w c' message =>
    obtain rfl := ht
    simp [ServerTask.webSocketCall, Call.reply?, ServerTask.reply?]
  | acceptWebSocket => rfl
  | _ => cases ht

/-! ## What is forwarded -/

/-- The handler knows the connections whose request it has forwarded. -/
theorem mem_process_known (tasks : List MainTask) :
    c ∈ (Relay.process (forward g) ∅ tasks).1 ↔ c ∈ tasks.filterMap MainTask.request? := by
  induction tasks using List.reverseRecOn with
  | nil => simp [Relay.process]
  | append_singleton tasks t ih =>
    rw [Relay.process_concat]
    cases t with
    | onWebSocketRequest h c' info =>
      simp [forward, ih, MainTask.request?, List.filterMap_append, or_comm]
    | _ => simp [forward, ih, MainTask.request?, List.filterMap_append, List.filterMap_cons]

/-- Messages whose connection has been requested before are all forwarded, in order. -/
theorem process_replies {tasks : List MainTask} (hcov : Covered tasks)
    (hws : ∀ t ∈ tasks, t.IsWebSocket g) :
    (Relay.process (forward g) ∅ tasks).2.filterMap (ServerTask.reply? g c) =
      tasks.filterMap (MainTask.reply? g c) := by
  induction tasks using List.reverseRecOn with
  | nil => rfl
  | append_singleton tasks t ih =>
    have ih := ih (hcov.mono (List.prefix_append _ _)) fun t ht => hws t (List.mem_append_left _ ht)
    rw [Relay.process_concat, List.filterMap_append, List.filterMap_append, ih]
    congr 1
    cases t with
    | serverStartedOnDedicatedRunner => rfl
    | onWebSocketRequest h c' info => rfl
    | onWebSocketMessage h c' data =>
      have ht : (MainTask.onWebSocketMessage h c' data).IsWebSocket g := hws _ (by simp)
      obtain rfl : h = g := ht
      -- The request comes before the message: the handler knows the connection.
      have hknown : c' ∈ (Relay.process (forward h) ∅ tasks).1 :=
        mem_process_known tasks |>.2 (hcov tasks h c' data List.prefix_rfl)
      rcases eq_or_ne c' c with rfl | hc
      · simp [forward, hknown, ServerTask.reply?, MainTask.reply?]
      · simp [forward, hknown, ServerTask.reply?, MainTask.reply?, hc]

theorem isWebSocket_posts (w : ServerWrapper) : ∀ t ∈ w.posts g, t.IsWebSocket g := by
  intro t ht
  obtain ⟨e, -, he⟩ := List.mem_filterMap.1 ht
  exact Event.isWebSocket_mainTask (e := e) t (by simp [he])

/-- The replies due for what a wrapper has posted. -/
theorem filterMap_reply_posts (w : ServerWrapper) :
    (w.posts g).filterMap (MainTask.reply? g c) = w.expected c := by
  rw [ServerWrapper.posts, ServerWrapper.expected, List.filterMap_filterMap]
  refine List.filterMap_congr fun e _ => ?_
  cases e <;> simp [Event.mainTask, MainTask.reply?, Event.reply?]

section Relay

variable {w : ServerWrapper}

/-- The tasks bound to a wrapper, run or in the queue, are those that have come out of
    the relay. -/
theorem filter_bound (hs : Good env s) (hw : (s.server g).serverWrapper = some w) :
    (w.tasks ++ (s.server g).queue).filter (·.IsUnretained g) =
      ((s.view g).relay g).sink ++ ((s.view g).relay g).outbox := by
  have htasks : w.tasks.filter (·.IsUnretained g) = w.tasks :=
    List.filter_eq_self.2 fun t ht =>
      decide_eq_true (((hs.life g).valid w hw).log.isUnretained t ht)
  rw [List.filter_append, htasks, relay_sink hw]
  rfl

/-- The replies sent, and those in the queue of the server thread. -/
theorem filterMap_reply_relay (hw : (s.server g).serverWrapper = some w) (hvalid : w.Valid env g) :
    (((s.view g).relay g).sink ++ ((s.view g).relay g).outbox).filterMap (ServerTask.reply? g c) =
      w.replies c ++ s.queuedReplies g c := by
  rw [List.filterMap_append, relay_sink hw, ServerWrapper.replies, ServerWrapper.calls,
    hvalid.log.replies]
  congr 1
  simp only [View.relay, State.queuedReplies, List.filterMap_filter]
  refine List.filterMap_congr fun t _ => ?_
  -- Only tasks bound to the wrapper send.
  cases t with
  | sendOverWebSocket w' c' message =>
    by_cases h : w' = some g <;> simp [ServerTask.IsUnretained, ServerTask.reply?, h]
  | _ => simp [ServerTask.reply?]

/-- The replies due for the messages in the queue of the main thread. -/
theorem filterMap_reply_mailbox :
    ((s.view g).relay g).mailbox.filterMap (MainTask.reply? g c) = s.pendingReplies g c := by
  simp only [View.relay, State.view, State.pendingReplies, List.filterMap_filter]
  refine List.filterMap_congr fun t _ => ?_
  cases t with
  | onWebSocketMessage h c' data =>
    by_cases hg : h = g <;> simp [MainTask.handler, MainTask.reply?, hg]
  | _ => simp [MainTask.reply?]

end Relay

/-! ## Replies, in order -/

/-- The replies sent and queued are a prefix of those due. -/
theorem replies_prefix_expected {w : ServerWrapper} (hs : (machine env).Reachable s)
    (hw : (s.server g).serverWrapper = some w) (c : ℤ) :
    w.replies c ++ s.queuedReplies g c <+: w.expected c := by
  have hvalid := ((good_of_reachable hs).life g).valid w hw
  have hsent : ((s.view g).relay g).sink ++ ((s.view g).relay g).outbox <+:
      (Relay.process (forward g) ∅ (w.posts g)).2 :=
    relay_source hw ▸ Relay.sink_prefix (relay_inv hs g)
  rw [← filterMap_reply_relay hw hvalid, ← filterMap_reply_posts (g := g),
    ← process_replies hvalid.covered (isWebSocket_posts w)]
  exact hsent.filterMap _

/-- While the handler is alive, the replies that are neither sent nor queued are due for
    the messages in the queue of the main thread. -/
theorem replies_complete {w : ServerWrapper} (hs : (machine env).Reachable s)
    (hw : (s.server g).serverWrapper = some w) (halive : s.Alive g) (c : ℤ) :
    w.expected c = w.replies c ++ s.queuedReplies g c ++ s.pendingReplies g c := by
  have hvalid := ((good_of_reachable hs).life g).valid w hw
  obtain ⟨h, hh, hid⟩ := halive
  obtain ⟨forwarded, dropped, hsource, hout, hopen⟩ := relay_inv hs g
  -- All that has been taken from the queue was forwarded.
  obtain ⟨rfl, -⟩ := hopen h.known (known_mem_relay_state hh hid)
  rw [relay_source hw, List.append_nil] at hsource
  have hforwarded : forwarded <+: w.posts g := hsource ▸ List.prefix_append _ _
  rw [← filterMap_reply_relay hw hvalid, hout,
    process_replies (hvalid.covered.mono hforwarded) fun t ht =>
      isWebSocket_posts w t (hforwarded.subset ht),
    ← filterMap_reply_mailbox, ← List.filterMap_append, ← hsource, filterMap_reply_posts]

/-- Once the handler is gone, it stays so, and what is queued is all there is to come. -/
theorem replies_step {a : Action} {w : ServerWrapper} (hs : (machine env).Reachable s)
    (h : step env s a = some s') (hw : (s.server g).serverWrapper = some w) (hdead : ¬s.Alive g) :
    ¬s'.Alive g ∧ ∃ w', (s'.server g).serverWrapper = some w' ∧
      w'.replies c ++ s'.queuedReplies g c = w.replies c ++ s.queuedReplies g c := by
  have hgood := good_of_reachable hs
  obtain ⟨hgood', hflow⟩ := good_step hgood h
  obtain ⟨w', hw', -⟩ := wrapper_step hgood h hw
  have hvalid := (hgood.life g).valid w hw
  have hvalid' := (hgood'.life g).valid w' hw'
  have hnone : (s.view g).handler = none := by
    simpa [State.alive_iff, Option.eq_none_iff_forall_ne_some] using hdead
  have hstep : ((s'.view g).relay g).state = none ∧
      ((s'.view g).relay g).sink ++ ((s'.view g).relay g).outbox =
        ((s.view g).relay g).sink ++ ((s.view g).relay g).outbox := by
    cases hflow g with
    | birth h =>
      have : (s.view g).server.serverWrapper = some w := hw
      simp [h] at this
    | stutter h => rw [h, relay_state, hnone]; exact ⟨rfl, rfl⟩
    | step a h => exact Relay.closed_step (by rw [relay_state, hnone]; rfl) h
  refine ⟨?_, w', hw', ?_⟩
  · simpa [State.alive_iff, relay_state, Option.eq_none_iff_forall_ne_some] using hstep.1
  · rw [← filterMap_reply_relay hw' hvalid', ← filterMap_reply_relay hw hvalid, hstep.2]

/-- The replies of a wrapper are a prefix of those due, in order. While the handler
    is alive, the others wait in the two queues. Once it is gone, those queued on
    the server thread are all there is to come. -/
theorem replies_in_order {w : ServerWrapper} (hs : (machine env).Reachable s)
    (hw : (s.server g).serverWrapper = some w) (c : ℤ) :
    w.replies c <+: w.expected c ∧
    (s.Alive g → w.expected c = w.replies c ++ s.queuedReplies g c ++ s.pendingReplies g c) ∧
    (¬s.Alive g → ∀ as s', (machine env).run s as = some s' →
      ∃ w', (s'.server g).serverWrapper = some w' ∧
        w'.replies c ++ s'.queuedReplies g c = w.replies c ++ s.queuedReplies g c) := by
  refine ⟨(List.prefix_append _ _).trans (replies_prefix_expected hs hw c),
    fun halive => replies_complete hs hw halive c, fun hdead as s' h => ?_⟩
  refine (hs.run_invariant (P := fun s' => ¬s'.Alive g ∧
    ∃ w', (s'.server g).serverWrapper = some w' ∧
      w'.replies c ++ s'.queuedReplies g c = w.replies c ++ s.queuedReplies g c) ?_
    ⟨hdead, w, hw, rfl⟩ h).2
  rintro s₁ a s₂ hs₁ ⟨hdead₁, w₁, hw₁, heq⟩ h
  obtain ⟨hdead₂, w₂, hw₂, heq₂⟩ := replies_step (c := c) hs₁ h hw₁ hdead₁
  exact ⟨hdead₂, w₂, hw₂, heq₂.trans heq⟩

/-- A client has sent three messages: the first is answered, the second is queued on
    the server thread, and the third on the main thread. -/
theorem replies_in_order_chat :
    let s := (machine localEnv).after (startUp 0 ⟨bytes "127.0.0.1", 3101⟩ ++
      chat 0 1 (bytes "a") ++ [.runServer 0, .runServer 0,
        .event 0 (.onWebSocketMessage 1 (bytes "b")) noFiles, .runMain,
        .event 0 (.onWebSocketMessage 1 (bytes "c")) noFiles])
    ∃ w, (s.server 0).serverWrapper = some w ∧
      s.queuedReplies 0 1 = [bytes "[1] OnMessage(b)"] ∧
      s.pendingReplies 0 1 = [bytes "[1] OnMessage(c)"] ∧
      w.replies 1 <+: w.expected 1 ∧
      w.expected 1 = w.replies 1 ++ s.queuedReplies 0 1 ++ s.pendingReplies 0 1 := by
  intro s
  obtain ⟨w, hw⟩ : ∃ w, (s.server 0).serverWrapper = some w :=
    Option.isSome_iff_exists.1 (by decide)
  have hreplies := replies_in_order (Machine.reachable_after _) hw 1
  exact ⟨w, hw, by decide, by decide, hreplies.1, hreplies.2.1 (by decide)⟩

end Qlabs.Http
