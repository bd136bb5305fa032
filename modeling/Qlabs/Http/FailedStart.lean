import Qlabs.Http.Refusal

/-!
# Starts that fail

A start gets no address to listen on if `CreateForHttpServer` or `GetLocalAddress`
fails. In the first case there is no wrapper, and what has been made is terminated. In
the second there is one, which `ServerStartedOnDedicatedRunner` hands over to the
handler with a null address: the handler keeps a server that was said not to have
started (`not_failsCleanly`).

That is the only way a failed start leaves something behind: a run leaves nothing
exactly when no handler alive is told of a wrapper without an address
(`failsCleanly_iff`).
-/

namespace Qlabs.Http

variable {env : Env} {s s' s'' : State} {g : Gen}

/-- The start `g` got no address. -/
def NoAddress (as : List Action) (g : Gen) : Prop :=
  .createForHttpServer g none ∈ as ∨ .getLocalAddress g none ∈ as

/-- The starts that got no address left nothing behind. -/
structure FailsCleanly (as : List Action) (s : State) : Prop where
  /-- `ServerStarted`, which sets the members of a handler, was not called on theirs. -/
  members : ∀ h ∈ s.httpHandler, NoAddress as h.id → h.members = (none, none, none, none)
  /-- Their wrappers, if there are any, are about to be deleted. -/
  wrapper : ∀ g, NoAddress as g → s.HasServer g → s.Leaving g
  /-- Once nothing of such a start is left to run, its wrapper has been deleted. -/
  deleted : ∀ g, NoAddress as g → (s.server g).serverWrapper.isSome → ¬s.Leaving g →
    s.IsDeleted (.serverWrapper g)
  /-- A handler has a wrapper exactly when it has an address. -/
  address : ∀ h ∈ s.httpHandler, h.serverWrapper.isSome ↔ h.serverIpAddress.isSome

/-- The step does not run the `ServerStartedOnDedicatedRunner` of a start with a wrapper
    and no address while the handler is alive. -/
def TellsAddress (s : State) (a : Action) : Prop :=
  ∀ h thread w socketFactory, a = .runMain → s.tasks.head? =
    some (.serverStartedOnDedicatedRunner h thread (some w) socketFactory none) → ¬s.Alive h

/-! ## What moves a start -/

/-- No start moves: the `StartServerOnHandlerThread` that run are as far as they were, and
    no `ServerStartedOnDedicatedRunner` is posted. -/
structure Idle (s s' : State) : Prop where
  running : ∀ g, (s'.server g).running = (s.server g).running
  created : ∀ g, (s'.server g).created = (s.server g).created
  tasks : ∀ h t w c ip, .serverStartedOnDedicatedRunner h t w c ip ∈ s'.tasks →
    .serverStartedOnDedicatedRunner h t w c ip ∈ s.tasks

theorem Adds.idle (h : Adds s s') : Idle s s' :=
  ⟨fun g => (h.server g).running, fun g => (h.server g).created,
    fun _ _ _ _ _ ht => h.tasks ▸ ht⟩

theorem Idle.trans (h : Idle s s') (h' : Idle s' s'') : Idle s s'' where
  running g := (h'.running g).trans (h.running g)
  created g := (h'.created g).trans (h.created g)
  tasks _ _ _ _ _ ht := h.tasks _ _ _ _ _ (h'.tasks _ _ _ _ _ ht)

theorem idle_setServer {v : Server} (hrunning : v.running = (s.server g).running)
    (hcreated : v.created = (s.server g).created) : Idle s (s.setServer g v) where
  running g' := by
    rcases eq_or_ne g' g with rfl | h
    · simpa using hrunning
    · simp [State.setServer, h]
  created g' := by
    rcases eq_or_ne g' g with rfl | h
    · simpa using hcreated
    · simp [State.setServer, h]
  tasks _ _ _ _ _ ht := ht

/-- An event posts no `ServerStartedOnDedicatedRunner`. -/
theorem idle_onEvent {w : ServerWrapper} (hw : (s.server g).serverWrapper = some w) (e : Event)
    (read : FilePath → ReadResult) : Idle s (s.onEvent env g w e read) := by
  refine (adds_record hw _).idle.trans ⟨fun _ => rfl, fun _ => rfl, fun h t w' c ip ht => ?_⟩
  refine (List.mem_append.1 ht).resolve_right fun ht => ?_
  cases Event.isWebSocket_mainTask _ ht

/-! ## Starts without an address -/

/-- The start `g` has called `CreateForHttpServer`, and has no address to tell. -/
structure State.Failed (s : State) (g : Gen) : Prop where
  created : (s.server g).created.isSome
  running : ∀ f, (s.server g).running = some f → ∃ w, f.stage = .post w none
  tasks : ∀ t w c ip, .serverStartedOnDedicatedRunner g t w c ip ∈ s.tasks → ip = none

theorem State.Failed.idle (h : s.Failed g) (hidle : Idle s s') : s'.Failed g where
  created := by rw [hidle.created]; exact h.created
  running f hf := h.running f (hidle.running g ▸ hf)
  tasks _ _ _ _ ht := h.tasks _ _ _ _ (hidle.tasks _ _ _ _ _ ht)

theorem State.Failed.setServer {g' : Gen} (h : s.Failed g) (hne : g ≠ g') (v : Server) :
    (s.setServer g' v).Failed g where
  created := by simpa [State.setServer, hne] using h.created
  running f hf := h.running f (by simpa [State.setServer, hne] using hf)
  tasks := h.tasks

/-- What is there of a start while its `StartServerOnHandlerThread` runs. -/
theorem Good.running (hs : Good env s) {f : StartFrame} (hf : (s.server g).running = some f) :
    (f.stage = .create → (s.server g).created = none) ∧
      (f.stage = .address → (s.server g).created.isSome) ∧ (∀ t ∈ s.tasks, t.handler ≠ g) ∧
      ∀ h, s.httpHandler = some h → h.id = g → h = { id := g } := by
  have hlife := hs.life g
  have hf : (s.view g).server.running = some f := hf
  have hcreated : (s.view g).server.created = (s.server g).created := rfl
  have htasks : (∀ t ∈ s.tasks, t.handler ≠ g) ↔ (s.view g).tasks = [] := by
    simp [State.view, List.filter_eq_nil_iff]
  have hhandler : ∀ h, s.httpHandler = some h → h.id = g → (s.view g).handler = some h :=
    fun h hh hid => State.view_handler_eq_some.2 ⟨hh, hid⟩
  rw [← hcreated, htasks]
  generalize s.view g = v at hlife hf hhandler
  cases hlife with
  | creating | addressing | posting =>
    obtain rfl := Option.some.inj hf
    refine ⟨by simp, by simp, rfl, fun h hh hid => (waiting_eq_some.1 (hhandler h hh hid)).2⟩
  | _ => cases hf

/-- A start whose thread has not run `StartServerOnHandlerThread` has created nothing. -/
theorem Good.created_of_pending (hs : Good env s) {h t c : Gen} {od fd : FilePath}
    (hpending : .startServerOnHandlerThread h t c od fd ∈ (s.server g).queue) :
    (s.server g).created = none := by
  have hlife := hs.life g
  have hpending : .startServerOnHandlerThread h t c od fd ∈ (s.view g).server.queue := hpending
  have hcreated : (s.view g).server.created = (s.server g).created := rfl
  rw [← hcreated]
  generalize s.view g = v at hlife hpending
  cases hlife with
  | pending => rfl
  | live _ _ _ hq => cases hq _ hpending
  | condemned _ _ _ _ hc => rcases hc.mem _ hpending with h | h | h <;> cases h
  | _ => cases hpending

/-- The outcome of a failed start is posted without an address. -/
theorem State.Failed.postServerStarted (hs : Good env s) {g' : Gen} (h : s.Failed g)
    {f : StartFrame} {w : Option Gen} {ip : Option IPEndPoint}
    (hf : (s.server g').running = some f) (hstage : f.stage = .post w ip) :
    (s.postServerStarted g' f w ip).Failed g := by
  have hid : f.handler = g' := (hs.life g').handler_of_running hf
  rcases eq_or_ne g g' with rfl | hne
  · obtain ⟨w', hw'⟩ := h.running f hf
    obtain ⟨rfl, rfl⟩ := Stage.post.inj (hstage.symm.trans hw')
    refine ⟨?_, fun f' hf' => ?_, fun t w c ip ht => ?_⟩
    · simpa [State.postServerStarted, State.postMain] using h.created
    · simp [State.postServerStarted, State.postMain] at hf'
    · rcases List.mem_append.1 ht with ht | ht
      · exact h.tasks _ _ _ _ ht
      · exact (MainTask.serverStartedOnDedicatedRunner.inj (List.mem_singleton.1 ht)).2.2.2.2
  · have hother := h.setServer hne { s.server g' with running := none }
    refine ⟨hother.created, hother.running, fun t w c ip ht => ?_⟩
    rcases List.mem_append.1 ht with ht | ht
    · exact h.tasks _ _ _ _ ht
    · have hhandler := (MainTask.serverStartedOnDedicatedRunner.inj (List.mem_singleton.1 ht)).1
      exact absurd (hhandler.trans hid) hne

/-- The tasks of a server thread move no start, but for `StartServerOnHandlerThread`. -/
theorem State.Failed.runServer (hs : Good env s) {g' : Gen} (h : s.Failed g) {task : ServerTask}
    {queue : List ServerTask} (hq : (s.server g').queue = task :: queue) :
    ((s.setServer g' { s.server g' with queue := queue }).runServerTask g' task).Failed g := by
  have hpop : Idle s (s.setServer g' { s.server g' with queue := queue }) :=
    idle_setServer rfl rfl
  cases task with
  | startServerOnHandlerThread =>
    have hne : g ≠ g' := by
      rintro rfl
      have hnone := hs.created_of_pending (hq ▸ List.mem_cons_self)
      simpa [hnone] using h.created
    exact (h.idle hpop).setServer hne _
  | _ => exact h.idle (hpop.trans (adds_runServerTask (by simp)).idle)

/-- A start that gets no address, or has got none, has none to tell. -/
theorem failed_step {a : Action} (hs : Good env s) (h : step env s a = some s')
    (hg : s.Failed g ∨ a = .createForHttpServer g none ∨ a = .getLocalAddress g none) :
    s'.Failed g := by
  obtain ⟨-, h⟩ := transition_of_step h
  have hfailed : a ≠ .createForHttpServer g none → a ≠ .getLocalAddress g none → s.Failed g :=
    fun hcreate haddress => hg.resolve_right (not_or.2 ⟨hcreate, haddress⟩)
  cases h with
  | @createForHttpServer g' f socket hf hstage =>
    obtain ⟨hnone, -, htasks, -⟩ := hs.running hf
    rcases eq_or_ne g g' with rfl | hne
    · -- It has not failed before: it has created nothing.
      obtain rfl : socket = none := by
        by_contra hsome
        have hcreated := (hfailed (by simpa using hsome) (by simp)).created
        simp [hnone hstage] at hcreated
      refine ⟨by simp [Server.createForHttpServer], fun f' hf' => ⟨none, ?_⟩,
        fun t w c ip ht => absurd rfl (htasks _ ht)⟩
      obtain rfl : _ = f' := by simpa [Server.createForHttpServer] using hf'
      rfl
    · exact (hfailed (by simpa using fun h => absurd h hne.symm) (by simp)).setServer hne _
  | @getLocalAddress g' f address hf hstage =>
    obtain ⟨-, hcreated, htasks, -⟩ := hs.running hf
    rcases eq_or_ne g g' with rfl | hne
    · -- It has not failed before: it would not ask.
      obtain rfl : address = none := by
        by_contra hsome
        obtain ⟨w, hpost⟩ := (hfailed (by simp) (by simpa using hsome)).running f hf
        cases hstage.symm.trans hpost
      refine ⟨by simpa using hcreated hstage, fun f' hf' => ⟨some g, ?_⟩,
        fun t w c ip ht => absurd rfl (htasks _ ht)⟩
      obtain rfl : _ = f' := by simpa using hf'
      rfl
    · exact (hfailed (by simp) (by simpa using fun h => absurd h hne.symm)).setServer hne _
  | postServerStarted hf hstage =>
    exact (hfailed (by simp) (by simp)).postServerStarted hs hf hstage
  | runServer hf hq => exact (hfailed (by simp) (by simp)).runServer hs hq
  | startRefused => exact hfailed (by simp) (by simp)
  | start => exact (hfailed (by simp) (by simp)).idle (adds_makeHandler _ _ _).idle
  | stop => exact (hfailed (by simp) (by simp)).idle adds_stop.idle
  | terminate => exact (hfailed (by simp) (by simp)).idle (adds_terminateStep _).idle
  | @runMain task tasks hm ht =>
    have hpop : Idle s { s with tasks := tasks } :=
      ⟨fun _ => rfl, fun _ => rfl, fun _ _ _ _ _ h => ht ▸ List.mem_cons_of_mem _ h⟩
    exact (hfailed (by simp) (by simp)).idle (hpop.trans (adds_runMainTask _).idle)
  | event hw => exact (hfailed (by simp) (by simp)).idle (idle_onEvent hw _ _)
  | deleteThread => exact (hfailed (by simp) (by simp)).idle adds_deleteThread.idle

theorem noAddress_concat {as : List Action} {a : Action} : NoAddress (as ++ [a]) g ↔
    NoAddress as g ∨ a = .createForHttpServer g none ∨ a = .getLocalAddress g none := by
  simp only [NoAddress, List.mem_append, List.mem_singleton, eq_comm (b := a)]
  tauto

/-- The starts of a run that got no address have none to tell. -/
theorem failed_of_run {as : List Action} (h : (machine env).run (machine env).init as = some s)
    (hg : NoAddress as g) : s.Failed g := by
  induction as using List.reverseRecOn generalizing s with
  | nil => simp [NoAddress] at hg
  | append_singleton as a ih =>
    obtain ⟨t, ht, hstep⟩ := Machine.run_concat.1 h
    exact failed_step (good_of_reachable (Machine.reachable_of_run ht)) hstep
      ((noAddress_concat.1 hg).imp_left (ih ht))

/-! ## Runs -/

/-- What fails on a server thread is called while `StartServerOnHandlerThread` runs. -/
theorem running_of_noAddress {a : Action} (h : step env s a = some s')
    (ha : a = .createForHttpServer g none ∨ a = .getLocalAddress g none) :
    ∃ f, (s.server g).running = some f := by
  obtain ⟨-, h⟩ := transition_of_step h
  rcases ha with rfl | rfl <;> cases h <;> exact ⟨_, ‹_›⟩

/-- A handler told of a wrapper without an address keeps both. -/
theorem not_failsCleanly_of_wrapper {as : List Action} {h : SimpleHttpHandler} {w : Gen}
    {thread socketFactory : Option Gen} {tasks : List MainTask} (hs : Good env s)
    (hh : s.httpHandler = some h) (ht : s.tasks = .serverStartedOnDedicatedRunner h.id thread
      (some w) socketFactory none :: tasks) :
    ¬FailsCleanly as ({ s with tasks := tasks }.serverStartedOnDedicatedRunner h.id thread
      (some w) socketFactory none) := by
  obtain ⟨rfl, -, -, hid⟩ := hs.posted ht
  have howned : h.owned = [] := by rw [hid h hh rfl]; rfl
  rw [State.serverStarted_alive (s := { s with tasks := tasks }) hh howned]
  intro hclean
  have haddress := hclean.address _ rfl
  simp [SimpleHttpHandler.serverStarted] at haddress

/-- A step leaves nothing of the starts that fail exactly when it does not tell a handler
    of a wrapper without an address. -/
theorem failsCleanly_step {as : List Action} {a : Action}
    (hrun : (machine env).run (machine env).init as = some s) (hclean : FailsCleanly as s)
    (h : step env s a = some s') : FailsCleanly (as ++ [a]) s' ↔ TellsAddress s a := by
  have hgood := good_of_reachable (Machine.reachable_of_run hrun)
  have hrun' : (machine env).run (machine env).init (as ++ [a]) = some s' :=
    Machine.run_concat.2 ⟨s, hrun, h⟩
  have hgood' := good_of_reachable (Machine.reachable_of_run hrun')
  constructor
  · rintro hclean' g thread w socketFactory rfl hhead ⟨handler, hh, rfl⟩
    obtain ⟨-, h⟩ := transition_of_step h
    cases h with
    | runMain hm ht =>
      rw [ht] at hhead
      obtain rfl := Option.some.inj hhead
      exact not_failsCleanly_of_wrapper hgood hh ht hclean'
  · intro htells
    have hmembers : ∀ h' ∈ s'.httpHandler, NoAddress (as ++ [a]) h'.id →
        h'.members = (none, none, none, none) := by
      intro h' hh' hno
      cases handlerStep h hh' with
      | kept hh hid hkept =>
        rw [hkept]
        rcases noAddress_concat.1 hno with hno | hfails
        · exact hclean.members _ hh (hid ▸ hno)
        · -- The start fails now, before the handler is told anything.
          obtain ⟨f, hf⟩ := running_of_noAddress h hfails
          obtain ⟨-, -, -, hwaiting⟩ := hgood.running hf
          rw [hwaiting _ hh hid.symm]
          rfl
      | serverStarted hh ha ht hstarted =>
        -- A start that failed has told nothing but that.
        subst ha hstarted
        have hfailed : s.Failed _ :=
          failed_of_run hrun ((noAddress_concat.1 hno).resolve_right (by simp))
        obtain rfl := hfailed.tasks _ _ _ _ (List.mem_of_mem_head? ht)
        exact absurd ⟨_, hh, rfl⟩ (htells _ _ _ _ rfl ht)
      | made hh ha hmade => rw [hmade]; rfl
    have hleaving : ∀ g, NoAddress (as ++ [a]) g → s'.HasServer g → s'.Leaving g := by
      refine fun g hno hserver => (hgood'.owns_or_leaving hserver).resolve_left ?_
      rintro ⟨h', hh', howns⟩
      have hnone := (Prod.mk.inj (hmembers h' hh' (howns.id.symm ▸ hno))).1
      rw [howns.thread] at hnone
      cases hnone
    refine ⟨hmembers, hleaving, fun g hno hwrapper hleft => ?_, fun h' hh' => ?_⟩
    · by_contra hdeleted
      exact hleft (hleaving g hno ⟨hwrapper, hdeleted⟩)
    · cases handlerStep h hh' with
      | kept hh hid hkept =>
        obtain ⟨-, hw, -, hip⟩ : _ ∧ _ ∧ _ ∧ _ := by
          simpa only [SimpleHttpHandler.members, Prod.mk.injEq] using hkept
        rw [hw, hip]
        exact hclean.address _ hh
      | @serverStarted _ t w c ip hh ha ht hstarted =>
        subst ha hstarted
        cases ip with
        | none => exact absurd ⟨_, hh, rfl⟩ (htells _ _ _ _ rfl ht)
        | some ip => simp [SimpleHttpHandler.serverStarted]
      | made hh ha hmade => subst hmade; simp

/-- In a run, the starts that got no address leave nothing behind, and a handler has a
    wrapper exactly when it has an address, exactly when no handler alive is told of a
    wrapper without an address. -/
theorem failsCleanly_iff (as : List Action) :
    (∀ as' s, as' <+: as → (machine env).run (machine env).init as' = some s →
      FailsCleanly as' s) ↔ (machine env).Steps TellsAddress (machine env).init as := by
  refine Machine.forall_run_iff_steps ⟨fun h hh => ?_, fun g hno => ?_, fun g hno => ?_,
    fun h hh => ?_⟩ (fun _ _ _ _ hrun hclean h => failsCleanly_step hrun hclean h) as
  · cases hh
  · simp [NoAddress] at hno
  · simp [NoAddress] at hno
  · cases hh

/-- A start whose `GetLocalAddress` fails: its handler gets a server, which listens,
    without an address. -/
theorem not_failsCleanly :
    let as := [.start true [] (bytes "/srv"), .runServer 0,
      .createForHttpServer 0 (some ⟨bytes "127.0.0.1", 3101⟩), .getLocalAddress 0 none,
      .postServerStarted 0, .runMain]
    let s := (machine localEnv).after as
    (machine localEnv).run (machine localEnv).init as = some s ∧ s.HasServer 0 ∧
      ¬FailsCleanly as s := by
  intro as s
  have hh : s.httpHandler.isSome := by decide
  have hw : (s.httpHandler.get hh).serverWrapper.isSome := by decide +revert
  have hip : ¬(s.httpHandler.get hh).serverIpAddress.isSome := by decide +revert
  exact ⟨Machine.run_after (by decide), by decide, fun hclean =>
    hip ((hclean.address _ (Option.get_mem hh)).1 hw)⟩

end Qlabs.Http
