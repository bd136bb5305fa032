import Qlabs.Http.Replies

/-!
# The agents

The handler makes an agent for each connection that is upgraded to a WebSocket,
and keeps it: `OnClose` does nothing. Once the main thread has caught up with the
server thread, there is an agent for each connection that has been upgraded,
closed or not (`agents_upgraded`).
-/

namespace Qlabs.Http

variable {env : Env} {s : State} {g : Gen}

/-- The handler has an agent for each connection that is upgraded and not closed. -/
def AgentsOpen (h : SimpleHttpHandler) (w : ServerWrapper) : Prop :=
  ∀ c, c ∈ h.connectionToClient.keys ↔ c ∈ upgrades w.events ∧ .onClose c ∉ w.events

/-- A connection is upgraded at most once. -/
theorem LogValid.nodup_upgrades {frontendDir : FilePath} {log : List Entry}
    (h : LogValid env g frontendDir log) : (upgrades (log.filterMap Entry.event?)).Nodup := by
  induction h with
  | nil => exact List.nodup_nil
  | @event log e read hlog he ih =>
    rw [filterMap_event_event, upgrades_concat]
    cases e with
    | onWebSocketRequest c info => exact List.nodup_append_comm.1 (List.nodup_cons.2 ⟨he.2, ih⟩)
    | _ => simpa [Event.upgrade?] using ih
  | task t hlog ht ih => rwa [filterMap_event_task]

/-- Once the main thread has no task of its server left, the handler has an agent for
    each connection that has been upgraded. -/
theorem agents_upgraded {h : SimpleHttpHandler} {w : ServerWrapper}
    (hs : (machine env).Reachable s) (hh : s.httpHandler = some h)
    (hw : (s.server h.id).serverWrapper = some w) (hidle : ∀ t ∈ s.tasks, t.handler ≠ h.id) :
    h.connectionToClient.keys.Perm (upgrades w.events) := by
  have hlog := ((good_of_reachable hs).life h.id |>.valid w hw).log
  have hstate : h.known ∈ ((s.view h.id).relay h.id).state := known_mem_relay_state hh rfl
  have hmailbox : ((s.view h.id).relay h.id).mailbox = [] := by
    have htasks : (s.view h.id).tasks = [] := by
      simpa [State.view, List.filter_eq_nil_iff] using hidle
    simp [View.relay, htasks]
  have hknown := congrArg Prod.fst (Relay.open_complete (relay_inv hs h.id) hstate)
  rw [relay_source hw, hmailbox] at hknown
  refine (List.perm_ext_iff_of_nodup h.connectionToClient.keys_nodup hlog.nodup_upgrades).2
    fun c => ?_
  have hmem : c ∈ h.known ↔ c ∈ h.connectionToClient.keys := List.mem_toFinset
  rw [← hmem, ← filterMap_request_mainTask (g := h.id), ← mem_process_known (g := h.id)]
  exact hknown ▸ Iff.rfl

/-- A client has upgraded and sent a message, and the connection has been closed: its
    agent is still there. -/
def closedChat : List Action :=
  startUp 0 ⟨bytes "127.0.0.1", 3101⟩ ++ chat 0 1 (bytes "hi") ++ [.event 0 (.onClose 1) noFiles]

theorem not_agents_open :
    let s := (machine localEnv).after closedChat
    s.tasks = [] ∧ ∃ h w, s.httpHandler = some h ∧ (s.server h.id).serverWrapper = some w ∧
      ¬AgentsOpen h w := by
  intro s
  have hh : s.httpHandler.isSome := by decide
  have hw : (s.server (s.httpHandler.get hh).id).serverWrapper.isSome := by decide +revert
  have hkey : 1 ∈ (s.httpHandler.get hh).connectionToClient.keys := by decide +revert
  have hclosed :
      .onClose 1 ∈ ((s.server (s.httpHandler.get hh).id).serverWrapper.get hw).events := by
    decide +revert
  exact ⟨by decide, _, _, Option.some_get hh |>.symm, Option.some_get hw |>.symm,
    fun hopen => ((hopen 1).1 hkey).2 hclosed⟩

theorem agents_upgraded_closed :
    let s := (machine localEnv).after closedChat
    ∃ h w, s.httpHandler = some h ∧ (s.server h.id).serverWrapper = some w ∧
      h.connectionToClient.keys.Perm (upgrades w.events) := by
  intro s
  have hh : s.httpHandler.isSome := by decide
  have hw : (s.server (s.httpHandler.get hh).id).serverWrapper.isSome := by decide +revert
  have hidle : ∀ t ∈ s.tasks, t.handler ≠ (s.httpHandler.get hh).id := by decide +revert
  exact ⟨_, _, Option.some_get hh |>.symm, Option.some_get hw |>.symm,
    agents_upgraded (Machine.reachable_after _) (Option.some_get hh |>.symm)
      (Option.some_get hw |>.symm) hidle⟩

end Qlabs.Http
