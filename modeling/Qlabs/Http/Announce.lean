import Qlabs.Http.FailedStart

/-!
# Announcing a server

Before it posts what came out, `StartServerOnHandlerThread` announces the address the
server listens on, if it got one: it prints the URLs, and writes the port to a file, from
where other programs pick it up. Else it says that it could not start.

The file can be read back (`readPortTarget_portTarget`). In a run, every start announces
itself once at most, an address only if it has made a wrapper, and a handler that was told
of a server holds the address that was announced. If `GetLocalAddress` is right about the
socket, the wrapper serves the address that is announced (`announced_truthfully`).
-/

namespace Qlabs.Http

variable {env : Env} {s s' : State} {g : Gen} {ip : Option IPEndPoint}

def kActivePortFileName : Bytes := bytes "SimpleActivePort"

def kPublicUrlPrefix : Bytes := bytes "/qlabs/public"

def kApiUrlPrefix : Bytes := bytes "/qlabs/api"

/-- What is done to be read outside of the program. -/
inductive Output
  | stderr (text : Bytes)
  | writeFile (path : FilePath) (data : Bytes)
  | logError (message : Bytes)
  deriving DecidableEq

/-- What announcing a server calls. -/
structure Outside where
  /-- `ip_address->ToString()` -/
  toString : IPEndPoint → Bytes
  /-- Whether `base::WriteFile` succeeds. -/
  writeFile : FilePath → Bytes → Bool

/-- The text that is printed of an address. -/
def listeningMessage (address : Bytes) : Bytes :=
  stringPrintf (bytes "\nSimpleHttpServer listening on ws://%s%s\n" ++
      bytes "\nSimpleHttpServer publishing on http://%s%s/index.html\n")
    [.str address, .str kApiUrlPrefix, .str address, .str kPublicUrlPrefix]

/-- What the file says: the port, and where to connect to. -/
def portTarget (ip : IPEndPoint) : Bytes :=
  stringPrintf (bytes "%d\n%s") [.int ip.port, .str kApiUrlPrefix]

/-- Reading the file back: its first line, and the rest. -/
def readPortTarget (data : Bytes) : ℤ × Bytes :=
  (readDecimal (data.takeWhile (· != 10)), (data.dropWhile (· != 10)).tail)

/-- What `StartServerOnHandlerThread` announces: the start it is from, where to write the
    port, and the address, if it got one. -/
structure Announcement where
  gen : Gen
  outputDirectory : FilePath
  ipAddress : Option IPEndPoint
  deriving DecidableEq

/-- How it is announced. `Append` is `AppendASCII`, on POSIX. -/
def Announcement.outputs (b : Base) (x : Outside) (a : Announcement) : List Output :=
  match a.ipAddress with
  | some ip =>
    .stderr (listeningMessage (x.toString ip)) ::
    if a.outputDirectory.isEmpty then []
    else
      let path := b.appendASCII a.outputDirectory kActivePortFileName
      .writeFile path (portTarget ip) ::
      if x.writeFile path (portTarget ip) then []
      else [.logError (bytes "Error writing active port to file")]
  | none => [.logError (bytes "Cannot start http server.")]

/-- What an action announces: the end of `StartServerOnHandlerThread` does. -/
def State.announced (s : State) : Action → List Announcement
  | .postServerStarted g =>
    match (s.server g).running with
    | some f =>
      match f.stage with
      | .post _ ipAddress => [⟨g, f.outputDirectory, ipAddress⟩]
      | _ => []
    | none => []
  | _ => []

/-- If `GetLocalAddress` succeeds, it returns the address of the socket. -/
def ReturnsLocalAddress (s : State) : Action → Prop
  | .getLocalAddress g (some ip) => ∀ w ∈ (s.server g).serverWrapper, w.server = ip
  | _ => True

instance (s : State) : (a : Action) → Decidable (ReturnsLocalAddress s a)
  | .getLocalAddress g (some ip) =>
    inferInstanceAs (Decidable (∀ w ∈ (s.server g).serverWrapper, w.server = ip))
  | .getLocalAddress _ none | .start .. | .stop | .terminate | .runMain | .runServer _
  | .createForHttpServer .. | .postServerStarted _ | .event .. | .deleteThread _ =>
    inferInstanceAs (Decidable True)

/-- What a run of the server announces. -/
def announcements (env : Env) (as : List Action) : List Announcement :=
  (machine env).observe State.announced (machine env).init as

/-! ## The file -/

theorem portTarget_eq (ip : IPEndPoint) :
    portTarget ip = decimal ip.port ++ 10 :: kApiUrlPrefix := by
  have hprefix : cStr kApiUrlPrefix = kApiUrlPrefix := by decide
  rw [portTarget]
  simp [stringPrintf, bytes, hprefix]

/-- The port and the path are what was written. -/
theorem readPortTarget_portTarget (ip : IPEndPoint) :
    readPortTarget (portTarget ip) = ((ip.port : ℤ), kApiUrlPrefix) := by
  have hline : ∀ b ∈ decimal ip.port, b != 10 := by
    intro b hb
    rw [bne_iff_ne]
    rintro rfl
    have := digit_of_mem_decimal hb
    revert this
    decide
  rw [readPortTarget, portTarget_eq, List.takeWhile_append_of_pos hline,
    List.dropWhile_append_of_pos hline]
  simp [readDecimal_decimal]

/-! ## The address of a start -/

/-- The start `g` has announced the address `ip`: it is over, and so has it told, or will
    tell, the handler. -/
structure State.Told (s : State) (g : Gen) (ip : Option IPEndPoint) : Prop where
  created : (s.server g).created.isSome
  running : (s.server g).running = none
  wrapper : ip.isSome → (s.server g).serverWrapper.isSome
  tasks : ∀ t w c ip', .serverStartedOnDedicatedRunner g t w c ip' ∈ s.tasks → ip' = ip
  handler : ∀ h ∈ s.httpHandler, h.id = g → h.thread.isSome → h.serverIpAddress = ip

/-- What a step does to the starts: nothing, or one of them goes on. -/
inductive StartStep (s : State) : Action → State → Prop
  | idle {a : Action} {s' : State} (ha : ∀ g, a ≠ .postServerStarted g) (h : Idle s s') :
    StartStep s a s'
  | begins {g h t c : Gen} {od fd : FilePath} {queue : List ServerTask}
    (hq : (s.server g).queue = .startServerOnHandlerThread h t c od fd :: queue) :
    StartStep s (.runServer g) (s.setServer g { s.server g with
      queue := queue
      running := some ⟨h, t, c, od, fd, .create⟩ })
  | creates {g : Gen} {f : StartFrame} {socket : Option ServerSocket}
    (hf : (s.server g).running = some f) (hstage : f.stage = .create) :
    StartStep s (.createForHttpServer g socket)
      (s.setServer g ((s.server g).createForHttpServer f socket))
  | addresses {g : Gen} {f : StartFrame} {address : Option IPEndPoint}
    (hf : (s.server g).running = some f) (hstage : f.stage = .address) :
    StartStep s (.getLocalAddress g address)
      (s.setServer g { s.server g with running := some { f with stage := .post (some g) address } })
  | posts {g : Gen} {f : StartFrame} {w : Option Gen} {ip : Option IPEndPoint}
    (hf : (s.server g).running = some f) (hstage : f.stage = .post w ip) :
    StartStep s (.postServerStarted g) (s.postServerStarted g f w ip)

theorem startStep {a : Action} (h : step env s a = some s') : StartStep s a s' := by
  obtain ⟨-, h⟩ := transition_of_step h
  cases h with
  | startRefused => exact .idle (by simp) ⟨fun _ => rfl, fun _ => rfl, fun _ _ _ _ _ ht => ht⟩
  | start => exact .idle (by simp) (adds_makeHandler _ _ _).idle
  | stop => exact .idle (by simp) adds_stop.idle
  | terminate => exact .idle (by simp) (adds_terminateStep _).idle
  | @runMain task tasks hm ht =>
    have hpop : Idle s { s with tasks := tasks } :=
      ⟨fun _ => rfl, fun _ => rfl, fun _ _ _ _ _ h => ht ▸ List.mem_cons_of_mem _ h⟩
    exact .idle (by simp) (hpop.trans (adds_runMainTask _).idle)
  | @runServer g task queue hf hq =>
    have hpop : Idle s (s.setServer g { s.server g with queue := queue }) := idle_setServer rfl rfl
    cases task with
    | startServerOnHandlerThread h t c od fd =>
      rw [State.runServerTask, State.setServer_setServer, State.server_setServer]
      exact .begins hq
    | _ => exact .idle (by simp) (hpop.trans (adds_runServerTask (by simp)).idle)
  | createForHttpServer hf hstage => exact .creates hf hstage
  | getLocalAddress hf hstage => exact .addresses hf hstage
  | postServerStarted hf hstage => exact .posts hf hstage
  | event hw => exact .idle (by simp) (idle_onEvent hw _ _)
  | deleteThread => exact .idle (by simp) adds_deleteThread.idle

/-- A start that is over stays so: nothing more is posted of it. -/
structure Over (s : State) (g : Gen) (s' : State) : Prop where
  created : (s'.server g).created.isSome
  running : (s'.server g).running = none
  tasks : ∀ t w c ip, .serverStartedOnDedicatedRunner g t w c ip ∈ s'.tasks →
    .serverStartedOnDedicatedRunner g t w c ip ∈ s.tasks

theorem over_step {a : Action} (hs : Good env s) (h : step env s a = some s')
    (hcreated : (s.server g).created.isSome) (hrunning : (s.server g).running = none) :
    Over s g s' := by
  have hother : ∀ {g' : Gen} (v : Server), g ≠ g' → Over s g (s.setServer g' v) := by
    rintro g' v hne
    exact ⟨by rwa [State.server_setServer_of_ne v hne], by rwa [State.server_setServer_of_ne v hne],
      fun _ _ _ _ ht => ht⟩
  -- The start has nothing running on its thread.
  have hne : ∀ {g' : Gen} {f : StartFrame}, (s.server g').running = some f → g ≠ g' := by
    rintro g' f hf rfl
    simp [hrunning] at hf
  cases startStep h with
  | idle ha h =>
    exact ⟨by rwa [h.created], by rwa [h.running], fun _ _ _ _ ht => h.tasks _ _ _ _ _ ht⟩
  | begins hq =>
    refine hother _ ?_
    rintro rfl
    simp [hs.created_of_pending (hq ▸ List.mem_cons_self)] at hcreated
  | creates hf => exact hother _ (hne hf)
  | addresses hf => exact hother _ (hne hf)
  | @posts g' f w ip hf =>
    have hover := hother { s.server g' with running := none } (hne hf)
    refine ⟨hover.created, hover.running, fun t w c ip ht => ?_⟩
    refine (List.mem_append.1 ht).resolve_right fun ht => hne hf ?_
    -- What is posted is of the start whose task has run.
    have hid := (hs.life g').handler_of_running hf
    exact (MainTask.serverStartedOnDedicatedRunner.inj (List.mem_singleton.1 ht)).1.trans hid

/-- What was announced stays what the handler is told. -/
theorem told_step {a : Action} (hs : Good env s) (h : step env s a = some s')
    (htold : s.Told g ip) : s'.Told g ip := by
  have hover := over_step hs h htold.created htold.running
  refine ⟨hover.created, hover.running, fun hip => ?_,
    fun t w c ip' ht => htold.tasks t w c ip' (hover.tasks t w c ip' ht),
    fun h' hh' hid hthread => ?_⟩
  · obtain ⟨w, hw⟩ := Option.isSome_iff_exists.1 (htold.wrapper hip)
    obtain ⟨w', hw', -⟩ := wrapper_step hs h hw
    rw [hw']
    rfl
  · cases handlerStep h hh' with
    | kept hh hid' hmembers =>
      obtain ⟨ht, -, -, hip⟩ : _ ∧ _ ∧ _ ∧ _ := by
        simpa only [SimpleHttpHandler.members, Prod.mk.injEq] using hmembers
      rw [hip]
      exact htold.handler _ hh (hid' ▸ hid) (ht ▸ hthread)
    | serverStarted hh ha ht hstarted =>
      subst hstarted hid
      exact htold.tasks _ _ _ _ (List.mem_of_mem_head? ht)
    | made hh ha hmade =>
      subst hmade
      cases hthread

/-- A running `StartServerOnHandlerThread` has an address only if it has made a wrapper. -/
def StartFrame.AddressOfWrapper (f : StartFrame) : Prop :=
  ∀ w ip, f.stage = .post w ip → ip.isSome → w.isSome

theorem addressOfWrapper_of_reachable (hs : (machine env).Reachable s) {f : StartFrame}
    (hf : (s.server g).running = some f) : f.AddressOfWrapper := by
  revert g f
  refine hs.invariant (P := fun s => ∀ {g f}, (s.server g).running = some f →
    f.AddressOfWrapper) (fun hf => by cases hf) ?_
  intro s a s' hs ih h g f hf
  -- What runs on a thread is replaced.
  have hset : ∀ {g' : Gen} {v : Server}, ((s.setServer g' v).server g).running = some f →
      (v.running = some f → f.AddressOfWrapper) → f.AddressOfWrapper := by
    rintro g' v hf hv
    rcases eq_or_ne g g' with rfl | hne
    · exact hv (by simpa using hf)
    · exact ih (State.server_setServer_of_ne v hne ▸ hf)
  cases startStep h with
  | idle ha h => exact ih (h.running g ▸ hf)
  | begins hq =>
    refine hset hf fun hv => ?_
    obtain rfl := Option.some.inj hv
    rintro w ip ⟨⟩
  | @creates g' f' socket hf' =>
    refine hset hf fun hv => ?_
    cases socket with
    | none =>
      obtain rfl := Option.some.inj hv
      rintro w ip hpost hip
      obtain ⟨-, rfl⟩ := Stage.post.inj hpost
      cases hip
    | some socket =>
      obtain rfl := Option.some.inj hv
      rintro w ip ⟨⟩
  | addresses hf' =>
    refine hset hf fun hv => ?_
    obtain rfl := Option.some.inj hv
    rintro w ip hpost -
    rw [← (Stage.post.inj hpost).1]
    rfl
  | posts hf' => exact hset hf fun hv => by cases hv

/-! ## What a run announces -/

/-- What has been announced, when a run has come to the state `s`, is what was told, or
    will be. -/
structure AnnouncedSoFar (announced : List Announcement) (s : State) : Prop where
  /-- Every start announces itself once, at most. -/
  once : (announced.map Announcement.gen).Nodup
  /-- It announces what it tells the handler, and an address only if it has a wrapper. -/
  told : ∀ a ∈ announced, s.Told a.gen a.ipAddress
  /-- What the handler is to be told was announced. -/
  tasks : ∀ g t w c ip, .serverStartedOnDedicatedRunner g t w c ip ∈ s.tasks →
    g ∈ announced.map Announcement.gen
  /-- So was what a handler that owns a thread was told. -/
  handler : ∀ h ∈ s.httpHandler, h.thread.isSome → h.id ∈ announced.map Announcement.gen

theorem announced_of_ne {a : Action} (ha : ∀ g, a ≠ .postServerStarted g) : s.announced a = [] := by
  cases a with
  | postServerStarted g => exact absurd rfl (ha g)
  | _ => rfl

/-- The start that announces itself now has not done it before. -/
theorem told_postServerStarted (hs : (machine env).Reachable s) {f : StartFrame} {w : Option Gen}
    (hf : (s.server g).running = some f) (hstage : f.stage = .post w ip) :
    (s.postServerStarted g f w ip).Told g ip := by
  have hgood := good_of_reachable hs
  obtain ⟨-, -, htasks, hwaiting⟩ := hgood.running hf
  have hcreated : (s.server g).created.isSome ∧ (w.isSome → (s.server g).serverWrapper.isSome) := by
    have hlife := hgood.life g
    have hf : (s.view g).server.running = some f := hf
    change (s.view g).server.created.isSome ∧ (w.isSome → (s.view g).server.serverWrapper.isSome)
    generalize s.view g = v at hlife hf
    cases hlife with
    | creating | addressing =>
      obtain rfl := Option.some.inj hf
      cases hstage
    | posting =>
      obtain rfl := Option.some.inj hf
      obtain ⟨rfl, -⟩ := Stage.post.inj hstage
      simp [pointer]
    | _ => cases hf
  have hserver : (s.postServerStarted g f w ip).server g =
      { s.server g with running := none } := by
    simp [State.postServerStarted, State.postMain]
  refine ⟨by simpa [hserver] using hcreated.1, by simp [hserver], fun hip => ?_,
    fun t w' c ip' ht => ?_, fun h hh hid hthread => ?_⟩
  · rw [hserver]
    exact hcreated.2 (addressOfWrapper_of_reachable hs hf w ip hstage hip)
  · rcases List.mem_append.1 ht with ht | ht
    · exact absurd rfl (htasks _ ht)
    · exact (MainTask.serverStartedOnDedicatedRunner.inj (List.mem_singleton.1 ht)).2.2.2.2
  · rw [hwaiting h hh hid] at hthread
    cases hthread

/-- Only a `StartServerOnHandlerThread` that ends posts `ServerStartedOnDedicatedRunner`. -/
theorem tasks_of_ne {a : Action} (h : step env s a = some s')
    (ha : ∀ g, a ≠ .postServerStarted g) {t w c : Option Gen}
    (ht : .serverStartedOnDedicatedRunner g t w c ip ∈ s'.tasks) :
    .serverStartedOnDedicatedRunner g t w c ip ∈ s.tasks := by
  cases startStep h with
  | idle _ h => exact h.tasks _ _ _ _ _ ht
  | posts => exact absurd rfl (ha _)
  | _ => exact ht

theorem announcedSoFar_step {l : List Announcement} {a : Action} (hs : (machine env).Reachable s)
    (htruth : AnnouncedSoFar l s) (h : step env s a = some s') :
    AnnouncedSoFar (l ++ s.announced a) s' := by
  have hgood := good_of_reachable hs
  have htold : ∀ a ∈ l, s'.Told a.gen a.ipAddress := fun a ha =>
    told_step hgood h (htruth.told a ha)
  have hhandler : ∀ h ∈ s'.httpHandler, h.thread.isSome → h.id ∈ l.map Announcement.gen := by
    intro h' hh' hthread
    cases handlerStep h hh' with
    | kept hh hid hmembers =>
      rw [hid]
      exact htruth.handler _ hh ((Prod.mk.inj hmembers).1 ▸ hthread)
    | serverStarted hh ha ht hstarted =>
      subst hstarted
      exact htruth.tasks _ _ _ _ _ (List.mem_of_mem_head? ht)
    | made hh ha hmade =>
      subst hmade
      cases hthread
  by_cases ha : ∃ g, a = .postServerStarted g
  · obtain ⟨g, rfl⟩ := ha
    cases startStep h with
    | idle ha => exact absurd rfl (ha g)
    | @posts _ f w ip hf hstage =>
      have hnew : s.announced (.postServerStarted g) = [⟨g, f.outputDirectory, ip⟩] := by
        simp only [State.announced, hf, hstage]
      rw [hnew]
      refine ⟨?_, fun a ha => ?_, fun g' t w' c ip' ht => ?_, fun h' hh' hthread => ?_⟩
      · rw [List.map_append, List.nodup_append]
        refine ⟨htruth.once, List.nodup_singleton _, fun g' hg' g'' hg'' => ?_⟩
        rintro rfl
        -- A start that has announced itself runs no more.
        obtain rfl : g' = g := List.mem_singleton.1 hg''
        obtain ⟨a, ha, rfl⟩ := List.mem_map.1 hg'
        simp [(htruth.told a ha).running] at hf
      · rcases List.mem_append.1 ha with ha | ha
        · exact htold a ha
        · rw [List.mem_singleton.1 ha]
          exact told_postServerStarted hs hf hstage
      · rw [List.map_append]
        rcases List.mem_append.1 ht with ht | ht
        · exact List.mem_append_left _ (htruth.tasks _ _ _ _ _ ht)
        · refine List.mem_append_right _ (List.mem_singleton.2 ?_)
          rw [(MainTask.serverStartedOnDedicatedRunner.inj (List.mem_singleton.1 ht)).1]
          exact (hgood.life g).handler_of_running hf
      · rw [List.map_append]
        exact List.mem_append_left _ (hhandler h' hh' hthread)
  · have ha : ∀ g, a ≠ .postServerStarted g := fun g h => ha ⟨g, h⟩
    rw [announced_of_ne ha, List.append_nil]
    exact ⟨htruth.once, htold, fun g t w c ip ht => htruth.tasks _ _ _ _ _ (tasks_of_ne h ha ht),
      hhandler⟩

theorem announcedSoFar_of_run {as : List Action}
    (h : (machine env).run (machine env).init as = some s) :
    AnnouncedSoFar (announcements env as) s := by
  refine Machine.observe_invariant (P := AnnouncedSoFar)
    ⟨List.nodup_nil, by simp, fun g t w c ip ht => ?_, fun h hh => ?_⟩
    (fun l s a s' hs htruth h => announcedSoFar_step hs htruth h) h
  · cases ht
  · cases hh

/-! ## The address that is announced -/

/-- The socket of a wrapper is the one that was created. -/
theorem Good.created_of_wrapper (hs : Good env s) {w : ServerWrapper}
    (hw : (s.server g).serverWrapper = some w) : (s.server g).created = some (some w.server) := by
  have hlife := hs.life g
  have hw : (s.view g).server.serverWrapper = some w := hw
  change (s.view g).server.created = _
  generalize s.view g = v at hlife hw
  cases hlife with
  | unborn | unstarted | pending | creating => cases hw
  | _ => simp_all

/-- A start that is to ask for its address has a wrapper. -/
theorem Good.wrapper_of_address (hs : Good env s) {f : StartFrame}
    (hf : (s.server g).running = some f) (hstage : f.stage = .address) :
    ∃ w, (s.server g).serverWrapper = some w := by
  have hlife := hs.life g
  have hf : (s.view g).server.running = some f := hf
  change ∃ w, (s.view g).server.serverWrapper = some w
  generalize s.view g = v at hlife hf
  cases hlife with
  | creating | posting =>
    obtain rfl := Option.some.inj hf
    cases hstage
  | addressing => exact ⟨_, rfl⟩
  | _ => cases hf

/-- What `CreateForHttpServer` has returned stays so. -/
theorem created_step {a : Action} (hs : Good env s) (h : step env s a = some s')
    {socket : Option ServerSocket} (hcreated : (s.server g).created = some socket) :
    (s'.server g).created = some socket := by
  have hset : ∀ {g' : Gen} {v : Server}, (g = g' → v.created = some socket) →
      ((s.setServer g' v).server g).created = some socket := by
    rintro g' v hv
    rcases eq_or_ne g g' with rfl | hne
    · simpa using hv rfl
    · rwa [State.server_setServer_of_ne v hne]
  cases startStep h with
  | idle _ hidle => rwa [hidle.created]
  | creates hf hstage =>
    refine hset ?_
    rintro rfl
    -- Nothing has been created before.
    rw [(hs.running hf).1 hstage] at hcreated
    cases hcreated
  | begins | addresses | posts =>
    refine hset ?_
    rintro rfl
    exact hcreated

/-- The addresses that are announced, or are going to be, are those of the sockets. -/
structure AnnouncedAddress (announced : List Announcement) (s : State) : Prop where
  running : ∀ g f w ip, (s.server g).running = some f → f.stage = .post w (some ip) →
    (s.server g).created = some (some ip)
  announced : ∀ a ∈ announced, ∀ ip, a.ipAddress = some ip →
    (s.server a.gen).created = some (some ip)

theorem announcedAddress_step {l : List Announcement} {a : Action} (hs : Good env s)
    (hlocal : AnnouncedAddress l s) (ha : ReturnsLocalAddress s a)
    (h : step env s a = some s') : AnnouncedAddress (l ++ s.announced a) s' := by
  refine ⟨fun g f w ip hf hstage => ?_, fun x hx ip hip => ?_⟩
  · -- It is known of the start already, unless it asks now.
    have hset : ∀ {g' : Gen} {v : Server}, ((s.setServer g' v).server g).running = some f →
        (g = g' → v.running = some f → (s.server g).created = some (some ip)) →
          (s.server g).created = some (some ip) := by
      intro g' v hf hv
      rcases eq_or_ne g g' with rfl | hne
      · exact hv rfl (by simpa using hf)
      · exact hlocal.running g f w ip (by rwa [State.server_setServer_of_ne v hne] at hf) hstage
    have hasks : (s.server g).created = some (some ip) := by
      cases startStep h with
      | idle _ hidle => exact hlocal.running g f w ip (hidle.running g ▸ hf) hstage
      | begins hq =>
        refine hset hf ?_
        rintro rfl hv
        obtain rfl := Option.some.inj hv
        cases hstage
      | @creates g' f' socket hf' =>
        refine hset hf ?_
        rintro rfl hv
        cases socket <;> obtain rfl := Option.some.inj hv <;> cases hstage
      | @addresses g' f' address hf' haddress =>
        refine hset hf ?_
        rintro rfl hv
        obtain rfl := Option.some.inj hv
        obtain ⟨-, rfl⟩ := Stage.post.inj hstage
        obtain ⟨w', hw'⟩ := hs.wrapper_of_address hf' haddress
        obtain rfl : w'.server = ip := ha w' hw'
        exact hs.created_of_wrapper hw'
      | posts =>
        refine hset hf ?_
        rintro rfl hv
        cases hv
    exact created_step hs h hasks
  · refine created_step hs h ?_
    rcases List.mem_append.1 hx with hx | hx
    · exact hlocal.announced x hx ip hip
    · cases a with
      | postServerStarted g =>
        rw [State.announced] at hx
        cases hf : (s.server g).running with
        | none => simp [hf] at hx
        | some f =>
          cases hstage : f.stage with
          | post w ip' =>
            obtain rfl : x = ⟨g, f.outputDirectory, ip'⟩ := by simpa [hf, hstage] using hx
            obtain rfl : ip' = some ip := hip
            exact hlocal.running g f w ip hf hstage
          | _ => simp [hf, hstage] at hx
      | _ => cases hx

/-- Where `GetLocalAddress` is right about the socket, so is what is announced. -/
theorem announcedAddress_of_run {as : List Action}
    (hlocal : (machine env).Steps ReturnsLocalAddress (machine env).init as)
    (h : (machine env).run (machine env).init as = some s) :
    AnnouncedAddress (announcements env as) s := by
  have hrun := Machine.run_restrict.2 ⟨hlocal, h⟩
  have hinit : AnnouncedAddress [] {} :=
    ⟨fun g f w ip hf => (by cases hf), fun a ha => (by cases ha)⟩
  rw [announcements, ← Machine.observe_restrict hrun]
  refine Machine.observe_invariant (P := AnnouncedAddress) hinit (fun l s a s' hs hl h => ?_) hrun
  obtain ⟨ha, h⟩ := Machine.step_restrict.1 h
  exact announcedAddress_step (good_of_reachable hs.of_restrict) hl ha h

/-! ## The truth -/

/-- What a run writes is about an address that was announced. -/
theorem mem_outputs_writeFile {b : Base} {x : Outside} {a : Announcement} {path : FilePath}
    {data : Bytes} (h : .writeFile path data ∈ a.outputs b x) :
    a.outputDirectory ≠ [] ∧ path = b.appendASCII a.outputDirectory kActivePortFileName ∧
      ∃ ip, a.ipAddress = some ip ∧ data = portTarget ip := by
  rw [Announcement.outputs] at h
  cases hip : a.ipAddress with
  | none => simp [hip] at h
  | some ip =>
    simp only [hip] at h
    split_ifs at h with hdir hwritten <;> simp_all

/-- What a run that leads to the state `s` announces is the truth. -/
structure AnnouncesTruth (env : Env) (x : Outside) (as : List Action) (s : State) : Prop where
  /-- Every start announces itself once, at most. -/
  once : ((announcements env as).map Announcement.gen).Nodup
  /-- A start that announces an address has made a wrapper, which serves it. -/
  wrapper : ∀ a ∈ announcements env as, ∀ ip, a.ipAddress = some ip →
    ∃ w, (s.server a.gen).serverWrapper = some w ∧ w.server = ip
  /-- A handler that was told of a server holds the address that was announced. -/
  handler : ∀ h ∈ s.httpHandler, h.thread.isSome →
    ∃ a ∈ announcements env as, a.gen = h.id ∧ a.ipAddress = h.serverIpAddress
  /-- The file that is written has the port of the address, and the path to connect to. -/
  file : ∀ a ∈ announcements env as, ∀ path data, .writeFile path data ∈ a.outputs env.base x →
    ∃ ip, a.ipAddress = some ip ∧ readPortTarget data = ((ip.port : ℤ), kApiUrlPrefix)

/-- Where `GetLocalAddress` is right about the socket, what is announced is the truth. -/
theorem announced_truthfully {as : List Action} (x : Outside)
    (hlocal : (machine env).Steps ReturnsLocalAddress (machine env).init as)
    (h : (machine env).run (machine env).init as = some s) : AnnouncesTruth env x as s := by
  have htruth := announcedSoFar_of_run h
  have haddress := announcedAddress_of_run hlocal h
  have hgood := good_of_reachable (Machine.reachable_of_run h)
  refine ⟨htruth.once, fun a ha ip hip => ?_, fun h hh hthread => ?_,
    fun a ha path data hwrite => ?_⟩
  · obtain ⟨w, hw⟩ := Option.isSome_iff_exists.1 ((htruth.told a ha).wrapper (by rw [hip]; rfl))
    have hcreated := (hgood.created_of_wrapper hw).symm.trans (haddress.announced a ha ip hip)
    exact ⟨w, hw, Option.some.inj (Option.some.inj hcreated)⟩
  · obtain ⟨a, ha, hid⟩ := List.mem_map.1 (htruth.handler h hh hthread)
    exact ⟨a, ha, hid, ((htruth.told a ha).handler h hh hid.symm hthread).symm⟩
  · obtain ⟨-, -, ip, hip, rfl⟩ := mem_outputs_writeFile hwrite
    exact ⟨ip, hip, readPortTarget_portTarget ip⟩

/-- A start that gets no address, and then one that does. -/
def failThenServe : List Action :=
  [.start true (bytes "/run") (bytes "/srv"), .runServer 0, .createForHttpServer 0 none,
    .postServerStarted 0, .stop, .start true (bytes "/run") (bytes "/srv"), .runServer 1,
    .createForHttpServer 1 (some ⟨bytes "127.0.0.1", 3101⟩),
    .getLocalAddress 1 (some ⟨bytes "127.0.0.1", 3101⟩), .postServerStarted 1]

/-- A file system that can be written to. -/
def writable : Outside where
  toString ip := ip.address ++ bytes ":" ++ decimal ip.port
  writeFile _ _ := true

theorem announced_truthfully_restart :
    (announcements localEnv failThenServe).flatMap (Announcement.outputs localEnv.base writable) =
      [.logError (bytes "Cannot start http server."),
        .stderr (listeningMessage (bytes "127.0.0.1:3101")),
        .writeFile (bytes "/run/SimpleActivePort") (bytes "3101\n/qlabs/api")] ∧
    AnnouncesTruth localEnv writable failThenServe ((machine localEnv).after failThenServe) :=
  ⟨by decide +kernel, announced_truthfully writable (by decide) (Machine.run_after (by decide))⟩

end Qlabs.Http
