import Qlabs.Http.Single

/-!
# Refusing to start

`SimpleHttpServer::Start` refuses, saying that the server is already started, when
there is a handler. That one may have no server, and no hope of one: its thread
did not start, or `CreateForHttpServer` failed, as it stays installed all the
same (`not_refused_busy`).

These are the only cases: in a run, `Start` is refused by nothing but a handler
that is starting a server, or serving, exactly when no thread fails to start, and
no handler is told that its server could not be made (`refusal_iff`).
-/

namespace Qlabs.Http

variable {env : Env} {s s' : State} {g : Gen}

/-- The handler owns a wrapper that exists, and its socket listens. -/
def State.Serving (s : State) (h : SimpleHttpHandler) : Prop :=
  ∃ w ∈ h.serverWrapper, s.HasServer w

/-- `Start` is refused only if there is a handler that is starting a server, or serving. -/
def RefusedBusy (s : State) : Prop :=
  ∀ threadStarts od fd, s.start threadStarts od fd = s →
    ∃ h ∈ s.httpHandler, s.Starting h.id ∨ s.Serving h

/-- The step leaves no handler without a server to come: it starts the thread of the
    handler it makes, and it does not run the `ServerStartedOnDedicatedRunner` of a
    start without a wrapper while the handler is alive. -/
structure ServerComes (s : State) (a : Action) : Prop where
  thread : ∀ od fd, a = .start false od fd → s.httpHandler.isSome
  wrapper : ∀ h thread socketFactory ip, a = .runMain → s.tasks.head? =
    some (.serverStartedOnDedicatedRunner h thread none socketFactory ip) → ¬s.Alive h

/-! ## Being refused -/

/-- `Start` is refused if there is a handler; it makes another one otherwise. -/
theorem start_eq_self_iff (threadStarts : Bool) (od fd : FilePath) :
    s.start threadStarts od fd = s ↔ s.httpHandler.isSome := by
  rw [State.start]
  split_ifs with h
  · exact iff_of_true rfl h
  · refine iff_of_false (fun heq => ?_) h
    have hstarts := congrArg State.starts heq
    rw [starts_makeHandler] at hstarts
    omega

theorem refusedBusy_iff :
    RefusedBusy s ↔ ∀ h, s.httpHandler = some h → s.Starting h.id ∨ s.Serving h := by
  constructor
  · intro hbusy h hh
    obtain ⟨h', hh', hbusy⟩ :=
      hbusy true [] [] ((start_eq_self_iff _ _ _).2 (by rw [hh]; rfl))
    obtain rfl : h = h' := Option.some.inj (hh.symm.trans hh')
    exact hbusy
  · intro hbusy threadStarts od fd hstart
    obtain ⟨h, hh⟩ := Option.isSome_iff_exists.1 ((start_eq_self_iff _ _ _).1 hstart)
    exact ⟨h, hh, hbusy h hh⟩

/-! ## Handlers -/

/-- A handler whose wrapper has been made is to own it, or does. -/
theorem Good.busy_of_wrapper (hs : Good env s) {h : SimpleHttpHandler}
    (hh : s.httpHandler = some h) (hw : (s.server h.id).serverWrapper.isSome) :
    s.Starting h.id ∨ s.Serving h := by
  have hlife := hs.life h.id
  have hhandler : (s.view h.id).handler = some h := State.view_handler_eq_some.2 ⟨hh, rfl⟩
  have hw : (s.view h.id).server.serverWrapper.isSome := hw
  generalize hv : s.view h.id = v at hlife hhandler hw
  cases hlife with
  | addressing | posting => exact .inl (.running (congrArg (·.server.running.isSome) hv))
  | @posted alive ip w tasks =>
    have htask : .serverStartedOnDedicatedRunner h.id (some h.id) (pointer h.id w) (some h.id) ip ∈
        (s.view h.id).tasks := by
      rw [hv]
      exact List.mem_cons_self
    exact .inl (.posted (List.mem_of_mem_filter htask))
  | live howns =>
    cases hhandler
    refine .inr ⟨h.id, howns.serverWrapper, congrArg (·.server.serverWrapper.isSome) hv, ?_⟩
    rw [State.isDeleted_iff, Resource.gen_serverWrapper, hv]
    exact List.not_mem_nil
  | condemned alive halive =>
    obtain ⟨rfl, -⟩ := waiting_eq_some.1 hhandler
    simp [(halive rfl).1] at hw
  | _ => cases hw

/-- A handler that owns a wrapper owns that of its start. -/
theorem Good.wrapper_of_serving (hs : Good env s) {h : SimpleHttpHandler}
    (hh : s.httpHandler = some h) (hserving : s.Serving h) :
    (s.server h.id).serverWrapper.isSome := by
  obtain ⟨w, hw, hserver, -⟩ := hserving
  have hlife := hs.life h.id
  have hhandler : (s.view h.id).handler = some h := State.view_handler_eq_some.2 ⟨hh, rfl⟩
  generalize hv : s.view h.id = v at hlife hhandler
  have hwaiting : ∀ alive, waiting h.id alive ≠ some h := by
    intro alive heq
    rw [(waiting_eq_some.1 heq).2] at hw
    cases hw
  cases hlife with
  | unborn => cases hhandler
  | live => exact congrArg (·.server.serverWrapper.isSome) hv
  | _ => exact absurd hhandler (hwaiting _)

/-- Once its wrapper has been made, a handler is to own it, or does, as long as it lives. -/
theorem busy_of_wrapper_step {a : Action} {h' : SimpleHttpHandler} (hs : (machine env).Reachable s)
    (hstep : step env s a = some s') (hh' : s'.httpHandler = some h')
    (hw : (s.server h'.id).serverWrapper.isSome) : s'.Starting h'.id ∨ s'.Serving h' := by
  obtain ⟨w, hw⟩ := Option.isSome_iff_exists.1 hw
  obtain ⟨w', hw', -⟩ := wrapper_step (good_of_reachable hs) hstep hw
  exact (good_of_reachable (hs.step hstep)).busy_of_wrapper hh' (by rw [hw']; rfl)

/-- A handler that is starting a server or serving goes on, until the
    `ServerStartedOnDedicatedRunner` of its start runs. -/
theorem busy_step {a : Action} {h h' : SimpleHttpHandler} (hs : (machine env).Reachable s)
    (hstep : step env s a = some s') (hh : s.httpHandler = some h) (hh' : s'.httpHandler = some h')
    (hid : h'.id = h.id) (hbusy : s.Starting h.id ∨ s.Serving h) :
    (s'.Starting h'.id ∨ s'.Serving h') ∨
      a = .runMain ∧ ∃ thread serverWrapper socketFactory ip, s.tasks.head? =
        some (.serverStartedOnDedicatedRunner h.id thread serverWrapper socketFactory ip) := by
  have hgood := good_of_reachable hs
  rcases hbusy with hstarting | hserving
  · rw [hid]
    exact (starting_step hgood hstep hstarting).imp_left .inl
  · refine .inl (busy_of_wrapper_step hs hstep hh' ?_)
    rw [hid]
    exact hgood.wrapper_of_serving hh hserving

/-- The `ServerStartedOnDedicatedRunner` of a start has its thread, and says whether there
    is a wrapper. If there is none, nothing else of the start is under way. -/
theorem Good.posted {thread serverWrapper socketFactory : Option Gen} {ip : Option IPEndPoint}
    {tasks : List MainTask} (hs : Good env s) (ht : s.tasks =
      .serverStartedOnDedicatedRunner g thread serverWrapper socketFactory ip :: tasks) :
    thread = some g ∧ serverWrapper = pointer g (s.server g).serverWrapper ∧
      (serverWrapper = none → (s.server g).queue = [] ∧ (s.server g).running = none ∧
        ∀ t ∈ tasks, t.handler ≠ g) ∧
      ∀ h, s.httpHandler = some h → h.id = g → h = { id := g } := by
  have hlife := hs.life g
  have htasks := State.tasks_of_view (g := g) ht rfl
  generalize hv : s.view g = v at hlife htasks
  cases hlife with
  | @posted alive ip' w tasks' hw hws hnone =>
    simp only [List.cons.injEq, MainTask.serverStartedOnDedicatedRunner.injEq, true_and] at htasks
    obtain ⟨⟨rfl, rfl, -, -⟩, rfl⟩ := htasks
    have hserver : s.server g = serverOf [] none (some (w.map ServerWrapper.server)) w :=
      congrArg View.server hv
    refine ⟨rfl, by rw [hserver]; rfl, fun hpointer => ?_, fun h hh hid => ?_⟩
    · have hrest : tasks.filter (·.handler = g) = [] := hnone (by simpa [pointer] using hpointer)
      rw [hserver]
      exact ⟨rfl, rfl, by simpa [List.filter_eq_nil_iff] using hrest⟩
    · have hhandler : (s.view g).handler = some h := State.view_handler_eq_some.2 ⟨hh, hid⟩
      rw [hv] at hhandler
      exact (waiting_eq_some.1 hhandler).2
  | live hh hw hws hq =>
    cases hws _ (htasks ▸ List.mem_cons_self)
  | condemned alive halive hw hws hc =>
    cases hws _ (htasks ▸ List.mem_cons_self)
  | _ => cases htasks

/-! ## Steps -/

theorem not_starting (hqueue : (s.server g).queue = []) (hrunning : (s.server g).running = none)
    (htasks : ∀ t ∈ s.tasks, t.handler ≠ g) : ¬s.Starting g := by
  rintro (h | h | h)
  · simp [hqueue] at h
  · simp [hrunning] at h
  · exact htasks _ h rfl

/-- A handler whose thread does not start has no server to come. -/
theorem not_busy_of_thread (hs : Good env s) (od fd : FilePath) :
    ¬RefusedBusy (s.makeHandler false od fd) := by
  intro hbusy
  rcases refusedBusy_iff.1 hbusy _ (httpHandler_makeHandler false od fd) with
    hstarting | ⟨w, hw, -⟩
  · -- Nothing of the start was there before.
    have hview := hs.fresh s.starts le_rfl
    have hserver : (s.makeHandler false od fd).server = s.server := by simp [State.makeHandler]
    have htasks : (s.makeHandler false od fd).tasks = s.tasks := by simp [State.makeHandler]
    have hfresh : s.server s.starts = {} := congrArg View.server hview
    have hnone : s.tasks.filter (·.handler = s.starts) = [] := congrArg View.tasks hview
    refine not_starting ?_ ?_ ?_ hstarting
    · rw [hserver, hfresh]
    · rw [hserver, hfresh]
    · rw [htasks]
      simpa [List.filter_eq_nil_iff] using hnone
  · cases hw

/-- Nor has one that is told that its server could not be made. -/
theorem not_busy_of_wrapper {h : SimpleHttpHandler} {thread socketFactory : Option Gen}
    {ip : Option IPEndPoint} {tasks : List MainTask} (hs : Good env s)
    (hh : s.httpHandler = some h) (ht : s.tasks =
      .serverStartedOnDedicatedRunner h.id thread none socketFactory ip :: tasks) :
    ¬RefusedBusy ({ s with tasks := tasks }.serverStartedOnDedicatedRunner h.id thread none
      socketFactory ip) := by
  obtain ⟨-, -, hnone, hid⟩ := hs.posted ht
  obtain ⟨hqueue, hrunning, htasks⟩ := hnone rfl
  rw [State.serverStarted_dropped (.inr rfl)]
  intro hbusy
  rcases refusedBusy_iff.1 hbusy h hh with hstarting | ⟨w, hw, -⟩
  · exact absurd hstarting (not_starting hqueue hrunning htasks)
  · rw [hid h hh rfl] at hw
    cases hw

/-- A step that leaves every handler with a server to come keeps the refusals right,
    and no other does. -/
theorem refusedBusy_step {a : Action} (hs : (machine env).Reachable s) (hbusy : RefusedBusy s)
    (h : step env s a = some s') : RefusedBusy s' ↔ ServerComes s a := by
  have hgood := good_of_reachable hs
  have hbusy := refusedBusy_iff.1 hbusy
  constructor
  · intro hbusy'
    refine ⟨fun od fd ha => ?_, fun g thread socketFactory ip ha hhead halive => ?_⟩
    · subst ha
      by_contra hnone
      obtain ⟨-, h⟩ := transition_of_step h
      cases h with
      | startRefused hm hh => exact hnone hh
      | start => exact not_busy_of_thread hgood od fd hbusy'
    · subst ha
      obtain ⟨handler, hh, rfl⟩ := halive
      obtain ⟨-, h⟩ := transition_of_step h
      cases h with
      | runMain hm ht =>
        rw [ht] at hhead
        obtain rfl := Option.some.inj hhead
        exact not_busy_of_wrapper hgood hh ht hbusy'
  · intro hcomes
    refine refusedBusy_iff.2 fun h' hh' => ?_
    rcases handler_step h hh' with ⟨handler, hh, hid⟩ | ⟨hnone, threadStarts, od, fd, rfl⟩
    · rcases busy_step hs h hh hh' hid (hbusy handler hh) with hbusy' |
        ⟨rfl, thread, w, socketFactory, ip, hhead⟩
      · exact hbusy'
      · -- There is a wrapper, which the handler takes.
        obtain ⟨tasks, ht⟩ := List.head?_eq_some_iff.1 hhead
        obtain ⟨-, hw, -, -⟩ := hgood.posted ht
        have halive : s.Alive handler.id := ⟨handler, hh, rfl⟩
        cases hwrapper : (s.server handler.id).serverWrapper with
        | none =>
          obtain rfl : w = none := by rw [hw, hwrapper]; rfl
          exact absurd halive (hcomes.wrapper _ _ _ _ rfl hhead)
        | some wrapper =>
          exact busy_of_wrapper_step hs h hh' (by rw [hid, hwrapper]; rfl)
    · cases threadStarts with
      | false => simpa [hnone] using hcomes.thread od fd rfl
      | true =>
        obtain ⟨-, h⟩ := transition_of_step h
        cases h with
        | startRefused hm hh => simp [hnone] at hh
        | start =>
          rw [httpHandler_makeHandler] at hh'
          obtain rfl := Option.some.inj hh'
          have htask : .startServerOnHandlerThread s.starts s.starts s.starts od fd ∈
              ((s.makeHandler true od fd).server s.starts).queue := by
            simp [State.makeHandler, State.post]
          exact .inl (.pending htask)

/-- In a run, `Start` is refused by nothing but a handler that is starting a server, or
    serving, exactly when no thread fails to start, and no handler alive is told that
    its server could not be made. -/
theorem refusal_iff (as : List Action) :
    (machine env).Always RefusedBusy (machine env).init as ↔
      (machine env).Steps ServerComes (machine env).init as :=
  Machine.always_iff_steps (fun _ _ _ hs hbusy h => refusedBusy_step hs hbusy h)
    .init (refusedBusy_iff.2 fun _ hh => by cases hh) as

/-- A handler whose thread did not start: the next start is refused, with nothing
    under way and no server. -/
theorem not_refused_busy :
    ¬RefusedBusy ((machine localEnv).after [.start false [] (bytes "/srv")]) :=
  @not_busy_of_thread localEnv {} good_init [] (bytes "/srv")

end Qlabs.Http
