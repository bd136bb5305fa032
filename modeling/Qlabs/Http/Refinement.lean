import Qlabs.Http.View

/-!
# Every start lives its life

In every reachable state the program has not gone wrong, and the view of each
start is one of its life (`Good`, `good_of_reachable`). A step moves one start,
as a relay, and leaves the others as they are (`good_step`).
-/

namespace Qlabs.Http

variable {env : Env} {s s' : State} {g g' : Gen}

/-! ## Good states -/

/-- The program has not gone wrong, every start lives its life, and those to come
    have not begun. -/
structure Good (env : Env) (s : State) : Prop where
  fault : s.fault = none
  life : ∀ g, Life env g (s.view g)
  fresh : ∀ g, s.starts ≤ g → s.view g = {}

/-- The step from `s` to `s'` keeps the state good, and moves every start as a relay. -/
def Moves (env : Env) (s s' : State) : Prop :=
  Good env s' ∧ ∀ g, FlowStep g (s.view g) (s'.view g)

theorem good_init : Good env {} :=
  ⟨rfl, fun _ => .unborn, fun _ _ => rfl⟩

theorem Good.moves_self (hs : Good env s) : Moves env s s :=
  ⟨hs, fun _ => .stutter rfl⟩

/-- A step that moves the start `g`, and no other. -/
theorem Good.moves_of_others (hs : Good env s) (hfault : s'.fault = none)
    (hfresh : ∀ g', s'.starts ≤ g' → s.starts ≤ g' ∧ g' ≠ g)
    (hothers : ∀ g' ≠ g, s'.view g' = s.view g') (hlife : Life env g (s'.view g))
    (hflow : FlowStep g (s.view g) (s'.view g)) : Moves env s s' := by
  refine ⟨⟨hfault, fun g' => ?_, fun g' hg' => ?_⟩, fun g' => ?_⟩
  · rcases eq_or_ne g' g with rfl | h
    · exact hlife
    · rw [hothers g' h]; exact hs.life g'
  · obtain ⟨hg', h⟩ := hfresh g' hg'
    rw [hothers g' h]; exact hs.fresh g' hg'
  · rcases eq_or_ne g' g with rfl | h
    · exact hflow
    · exact .stutter (by rw [hothers g' h])

/-- A step that moves a start that has begun, and no other. -/
theorem Good.moves (hs : Good env s) {v v' : View} (hv : s.view g = v) (hne : v ≠ {})
    (hfault : s'.fault = none) (hstarts : s'.starts = s.starts)
    (hview : ∀ g', s'.view g' = if g' = g then v' else s.view g')
    (hlife : Life env g v') (hflow : FlowStep g v v') : Moves env s s' := by
  have hv' : s'.view g = v' := by rw [hview, if_pos rfl]
  refine hs.moves_of_others (g := g) hfault (fun g' hg' => ⟨hstarts ▸ hg', ?_⟩)
    (fun g' h => by rw [hview, if_neg h]) (by rwa [hv']) (by rwa [hv, hv'])
  rintro rfl
  exact hne (hv ▸ hs.fresh g' (hstarts ▸ hg'))

theorem ne_empty_of_started {v : View} (h : v.server.started) : v ≠ {} := by
  rintro rfl
  cases h

/-! ## The main thread -/

theorem good_start (hs : Good env s) (hh : s.httpHandler = none) (threadStarts : Bool)
    (od fd : FilePath) : Moves env s (s.makeHandler threadStarts od fd) := by
  have hv := hs.fresh s.starts le_rfl
  have hdeleted : ∀ r, r.gen = s.starts → ¬s.IsDeleted r := by
    intro r hr
    rw [State.isDeleted_iff, hr, hv]
    simp
  -- What is made, and its view, in both cases.
  obtain ⟨v', hlife, hrelay, hfault, hstarts, hself, hothers⟩ :
      ∃ v', Life env s.starts v' ∧ v'.relay s.starts = .empty ∅ ∧
        (s.makeHandler threadStarts od fd).fault = none ∧
        (s.makeHandler threadStarts od fd).starts = s.starts + 1 ∧
        (s.makeHandler threadStarts od fd).view s.starts = v' ∧
        ∀ g' ≠ s.starts, (s.makeHandler threadStarts od fd).view g' = s.view g' := by
    simp only [State.view, View.mk.injEq] at hv
    cases threadStarts with
    | true =>
      refine ⟨_, .pending true od fd, rfl, hs.fault, rfl, ?_, fun g' hg' => ?_⟩
      · simp [State.makeHandler, State.view, State.post, State.setServer, hv, waiting, serverOf]
      · simp [State.makeHandler, State.view, State.post, State.setServer, hh, hg'.symm, hg']
    | false =>
      -- Without a thread, what the constructor has made is deleted at once.
      have hmade : s.makeHandler false od fd = { s with
          starts := s.starts + 1
          httpHandler := some { id := s.starts }
          deleted := s.deleted ++ [(.thread s.starts, .main), (.socketFactory s.starts, .main)] } :=
        State.delete_delete
          (s := { s with starts := s.starts + 1, httpHandler := some { id := s.starts } })
          (hdeleted (.thread s.starts) rfl) (hdeleted (.socketFactory s.starts) rfl) (by simp)
      rw [hmade]
      refine ⟨_, .unstarted true, rfl, hs.fault, rfl, ?_, fun g' hg' => ?_⟩
      · simp [State.view, hv, waiting]
      · simp [State.view, hh, hg'.symm]
  refine hs.moves_of_others hfault (fun g' hg' => ?_) hothers (by rwa [hself])
    (.birth hv (by rw [hself, hrelay]))
  rw [hstarts] at hg'
  omega

theorem waiting_eq_some {alive : Bool} {h : SimpleHttpHandler} :
    waiting g alive = some h ↔ alive = true ∧ h = { id := g } := by
  cases alive <;> simp [waiting, eq_comm]

/-- A start goes on without its handler, if this one owns nothing. -/
theorem Life.orphan {v : View} (hlife : Life env g v) (hwaiting : ∀ h ∈ v.handler, h.owned = []) :
    Life env g { v with handler := none } := by
  cases hlife with
  | unborn => exact .unborn
  | unstarted => exact .unstarted false
  | pending _ od fd => exact .pending false od fd
  | creating _ od fd => exact .creating false od fd
  | addressing _ od fd hw hlog => exact .addressing false od fd hw hlog
  | posting _ od fd ip hw hlog => exact .posting false od fd ip hw hlog
  | posted _ ip hw ht hnone => exact .posted false ip hw ht hnone
  | condemned _ halive hw ht hc => exact .condemned false (by simp) hw ht hc
  | live howns =>
    have howned := hwaiting _ rfl
    simp [SimpleHttpHandler.owned, pointees, howns.thread] at howned

/-- The destructor of the handler terminates what it owns, if anything. -/
theorem Life.stop {v : View} {h : SimpleHttpHandler} (hlife : Life env g v)
    (hh : v.handler = some h) (hm : v.terminating = none) : Life env g { v with
      handler := none
      terminating := terminateOnDeciatedRunner g h.thread h.serverWrapper h.socketFactory } := by
  by_cases howned : h.owned = []
  · have hnone : terminateOnDeciatedRunner g h.thread h.serverWrapper h.socketFactory = none := by
      simpa [SimpleHttpHandler.owned, pointees, terminateOnDeciatedRunner] using howned
    rw [hnone, ← hm]
    exact hlife.orphan fun h' hh' => Option.some.inj (hh.symm.trans hh') ▸ howned
  · -- Only a handler that serves owns something.
    have hnot : ∀ alive, waiting g alive ≠ some h := fun alive hwaiting =>
      howned (by rw [(waiting_eq_some.1 hwaiting).2]; rfl)
    cases hlife with
    | unborn => cases hh
    | live howns hw ht hq =>
      obtain rfl := Option.some.inj hh
      rw [howns.thread, howns.serverWrapper, howns.socketFactory]
      exact .condemned false (by simp) hw.some ht (.wrapperHeld rfl hq)
    | _ => exact absurd hh (hnot _)

theorem good_stop (hs : Good env s) (hm : s.terminating = none) : Moves env s s.stop := by
  cases hh : s.httpHandler with
  | none => simpa [State.stop, hh] using hs.moves_self
  | some h =>
    have hhandler : (s.view h.id).handler = some h := State.view_handler_eq_some.2 ⟨hh, rfl⟩
    have hterm : (s.view h.id).terminating = none := by simp [State.view, hm]
    have hview : ∀ g', s.stop.view g' = if g' = h.id then { s.view h.id with
        handler := none
        terminating := terminateOnDeciatedRunner h.id h.thread h.serverWrapper h.socketFactory }
        else s.view g' := by
      intro g'
      rw [State.stop, hh]
      split_ifs with hg
      · subst hg
        simp only [State.view, terminateOnDeciatedRunner]
        split_ifs <;> simp
      · simp only [State.view, terminateOnDeciatedRunner]
        split_ifs <;> simp [hh, hm, Option.filter_some, Ne.symm hg]
    have hne : s.view h.id ≠ {} := fun hempty => by simp [hempty] at hhandler
    exact hs.moves rfl hne (by simpa [State.stop, hh] using hs.fault) (by simp [State.stop, hh])
      hview ((hs.life h.id).stop hhandler hterm) (.step .close rfl)

theorem WrapperDeletion.not_thread {b : Bool} {q : List ServerTask} {d : List (Resource × Runner)}
    (h : WrapperDeletion g b q d) : .thread g ∉ d.map Prod.fst := by
  cases h <;> simp

theorem FactoryDeletion.not_thread {b : Bool} {q : List ServerTask} {d : List (Resource × Runner)}
    (h : FactoryDeletion g b q d) : .thread g ∉ d.map Prod.fst := by
  cases h with
  | queued h => exact h.not_thread
  | done h => simpa using h.not_thread

/-- `TerminateOnDeciatedRunner` posts a deletion to its thread, which is alive. -/
theorem Good.moves_deletion (hs : Good env s) {f : Termination} {next : Option Termination}
    {task : ServerTask} {v : View} (hf : s.terminating = some f) (hg : f.gen = g)
    (hnext : ∀ t ∈ next, t.gen = g) (hthread : .thread g ∉ v.deleted.map Prod.fst)
    (htask : ¬task.IsUnretained g) (hv : s.view g = v) (hne : v ≠ {})
    (hlife : Life env g { v with
      server := { v.server with queue := v.server.queue ++ [task] }
      terminating := next }) :
    Moves env s { s.postOn (some g) task with terminating := next } := by
  subst hv
  rw [State.postOn_eq (by rwa [State.isDeleted_iff])]
  have hold : ∀ t ∈ (s.post g task).terminating, t.gen = g := fun t ht => by
    obtain rfl : f = t := Option.some.inj (hf.symm.trans ht)
    exact hg
  refine hs.moves rfl hne hs.fault rfl (fun g' => ?_) hlife (.stutter ?_)
  · rw [State.view_terminating hold hnext, State.view_post, State.view_post, if_pos rfl]
    split_ifs <;> rfl
  · simp [View.relay, htask]

theorem good_terminate (hs : Good env s) {f : Termination} (hf : s.terminating = some f) :
    Moves env s (s.terminateStep f) := by
  obtain ⟨g, hg⟩ : ∃ g, f.gen = g := ⟨_, rfl⟩
  have hlife := hs.life g
  have hterm : (s.view g).terminating = some f := by simp [State.view, hf, hg, Option.filter_some]
  generalize hv : s.view g = v at hlife hterm
  cases hlife with
  | condemned alive halive hw ht hc =>
    cases hterm
    cases hc with
    | wrapperHeld hsome hq =>
      -- The wrapper goes first, behind the tasks bound to it.
      refine hs.moves_deletion hf rfl (by simp [terminateOnDeciatedRunner]) (by simp) (fun h => h)
        hv (ne_empty_of_started rfl) (.condemned alive halive hw ht (.factoryHeld ?_))
      rw [hsome]
      exact .queued hq
    | factoryHeld h =>
      exact hs.moves_deletion hf rfl (by simp [terminateOnDeciatedRunner]) h.not_thread (fun h => h)
        hv (ne_empty_of_started rfl) (.condemned alive halive hw ht (.threadHeld (.queued h)))
    | threadHeld h =>
      -- The thread goes last, to the pool.
      refine hs.moves hv (ne_empty_of_started rfl) hs.fault rfl (fun g' => ?_)
        (.condemned alive halive hw ht (.pooled h)) (.stutter rfl)
      split_ifs with hg'
      · subst hg'
        simp only [State.view, View.mk.injEq] at hv
        simp [State.terminateStep, State.view, hv]
      · simp [State.terminateStep, State.view, hf, Option.filter_some, Ne.symm hg']
  | _ => cases hterm

theorem good_serverStarted (hs : Good env s) {tasks : List MainTask}
    {thread serverWrapper socketFactory : Option Gen} {ip : Option IPEndPoint}
    (hm : s.terminating = none)
    (ht : s.tasks =
      .serverStartedOnDedicatedRunner g thread serverWrapper socketFactory ip :: tasks) :
    Moves env s ({ s with tasks := tasks }.serverStartedOnDedicatedRunner g thread serverWrapper
      socketFactory ip) := by
  have hlife := hs.life g
  have htasks := State.tasks_of_view (g := g) ht rfl
  generalize hv : s.view g = v at hlife htasks
  -- The other starts have no such task.
  have hothers := State.filter_tasks_of_ne (g := g) ht rfl
  cases hlife with
  | @posted alive ip' w tasks' hw hws hnone =>
    simp only [List.cons.injEq, MainTask.serverStartedOnDedicatedRunner.injEq, true_and] at htasks
    obtain ⟨⟨rfl, rfl, rfl, rfl⟩, rfl⟩ := htasks
    have hself := hv
    simp only [State.view, View.mk.injEq] at hself
    by_cases hserve : alive = true ∧ w.isSome
    · -- The handler gets its server.
      obtain ⟨rfl, hsome⟩ := hserve
      obtain ⟨w, rfl⟩ := Option.isSome_iff_exists.1 hsome
      obtain ⟨hh, -⟩ := State.view_handler_eq_some.1 (congrArg View.handler hv)
      have hrun :=
        State.serverStarted_alive (s := { s with tasks := tasks }) hh rfl g g (some g) ip'
      simp only [pointer, Option.map_some, hrun]
      have hlife : Life env g {
          handler :=
            some (SimpleHttpHandler.serverStarted { id := g } (some g) (some g) (some g) ip')
          tasks := tasks.filter (·.handler = g)
          server := serverOf [] none (some (some w.server)) (some w) } :=
        .live ⟨rfl, rfl, rfl, rfl, fun _ _ h => by cases h⟩ (hw w rfl) hws (List.forall_mem_nil _)
      refine hs.moves hv (ne_empty_of_started rfl) hs.fault rfl (fun g' => ?_) hlife (.stutter ?_)
      · split_ifs with hg'
        · subst hg'
          simp [State.view, hself, SimpleHttpHandler.serverStarted]
        · simp [State.view, hothers g' hg', hh, Option.filter_some, Ne.symm hg',
            SimpleHttpHandler.serverStarted]
      · simp [View.relay, waiting, SimpleHttpHandler.known, SimpleHttpHandler.serverStarted]
    · -- It is no more, or there is none to get.
      have halive : alive = true → w = none := by simpa using hserve
      have hdropped : ({ s with tasks := tasks }.view g).handler = none ∨ pointer g w = none := by
        cases alive with
        | false => exact .inl (congrArg View.handler hv)
        | true => exact .inr (by simp [halive rfl, pointer])
      have hc : Condemned g w.isSome (some ⟨g, some g, pointer g w, some g⟩) [] [] [] := by
        cases w with
        | none => exact .factoryHeld .absent
        | some w => exact .wrapperHeld rfl (List.forall_mem_nil _)
      rw [State.serverStarted_dropped hdropped]
      refine hs.moves hv (ne_empty_of_started rfl) hs.fault rfl (fun g' => ?_)
        (.condemned alive (fun h => ⟨halive h, hnone (halive h)⟩) hw hws hc) (.stutter ?_)
      · split_ifs with hg'
        · subst hg'
          simp [State.view, hself, terminateOnDeciatedRunner, Option.filter_some]
        · simp [State.view, hothers g' hg', hm, Option.filter_some, Ne.symm hg',
            terminateOnDeciatedRunner]
      · simp [View.relay]
  | live hh hw hws hq =>
    cases hws _ (htasks ▸ List.mem_cons_self)
  | condemned alive halive hw hws hc =>
    cases hws _ (htasks ▸ List.mem_cons_self)
  | _ => cases htasks

/-- What a method of a handler that owns its server does for a task: the task is
    forwarded, to the server. -/
structure Forwards (g : Gen) (t : MainTask)
    (method : SimpleHttpHandler → SimpleHttpHandler × Option (Gen × ServerTask)) : Prop where
  owns : ∀ h : SimpleHttpHandler, h.Owns g → (method h).1.Owns g
  posts : ∀ h : SimpleHttpHandler, h.Owns g → ∀ p ∈ (method h).2, p.1 = g ∧ p.2.IsUnretained g
  forward : ∀ h : SimpleHttpHandler, h.Owns g →
    forward g h.known t = ((method h).1.known, ((method h).2.map Prod.snd).toList)

theorem forwards_request (c : ℤ) (info : HttpServerRequestInfo) :
    Forwards g (.onWebSocketRequest g c info) (SimpleHttpHandler.onWebSocketRequest c info) := by
  refine ⟨fun h hh => ?_, fun h hh => ?_, fun h hh => ?_⟩
  · simp only [SimpleHttpHandler.onWebSocketRequest, hh.thread]
    refine ⟨hh.id, rfl, hh.serverWrapper, hh.socketFactory, fun c' a ha => ?_⟩
    rcases eq_or_ne c' c with rfl | hc
    · simpa [hh.serverWrapper, eq_comm] using ha
    · exact hh.agents c' a (by simpa [AList.lookup_insert_ne hc] using ha)
  · simp [SimpleHttpHandler.onWebSocketRequest, hh.thread, hh.serverWrapper,
      ServerTask.IsUnretained]
  · simp only [SimpleHttpHandler.onWebSocketRequest, hh.thread, hh.serverWrapper]
    refine Prod.ext (Finset.ext fun c' => ?_) rfl
    simp only [Http.forward, SimpleHttpHandler.known, Finset.mem_insert, List.mem_toFinset,
      ← AList.mem_keys, AList.mem_insert]

theorem forwards_message (c : ℤ) (data : Bytes) :
    Forwards g (.onWebSocketMessage g c data) (SimpleHttpHandler.onWebSocketMessage c data) := by
  -- The agent of a connection, if there is one, posts to the wrapper.
  have hpost : ∀ h : SimpleHttpHandler, h.Owns g →
      (SimpleHttpHandler.onWebSocketMessage c data h).2 = if c ∈ h.known then
        some (g, .sendOverWebSocket (some g) c (agentMessage c data)) else none := by
    intro h hh
    cases ha : h.connectionToClient.lookup c with
    | none => simp [SimpleHttpHandler.onWebSocketMessage, SimpleHttpHandler.mem_known, ha]
    | some a =>
      obtain rfl := hh.agents c a ha
      simp [SimpleHttpHandler.onWebSocketMessage, SimpleHttpHandler.mem_known, ha, Agent.onMessage]
  refine ⟨fun h hh => hh, fun h hh => ?_, fun h hh => ?_⟩
  · rw [hpost h hh]
    split_ifs <;> simp [ServerTask.IsUnretained]
  · rw [hpost h hh]
    refine Prod.ext rfl ?_
    simp only [Http.forward]
    split_ifs <;> rfl

/-- A task from an event runs on the handler that owns its server, and is forwarded,
    or is dropped. -/
theorem good_onHandler (hs : Good env s) {t : MainTask} {tasks : List MainTask}
    {method : SimpleHttpHandler → SimpleHttpHandler × Option (Gen × ServerTask)}
    (ht : s.tasks = t :: tasks) (hws : t.IsWebSocket g) (hmethod : Forwards g t method) :
    Moves env s ({ s with tasks := tasks }.onHandler g method) := by
  have hlife := hs.life g
  have htasks := State.tasks_of_view ht hws.handler
  generalize hv : s.view g = v at hlife htasks
  have hothers := State.filter_tasks_of_ne ht hws.handler
  cases hlife with
  | posted alive ip hw hws' hnone =>
    obtain ⟨rfl, -⟩ := List.cons.inj htasks
    cases hws
  | @live h w tasks' queue hh hw hws' hq =>
    simp only at htasks
    subst htasks
    obtain ⟨hhandler, hid⟩ := State.view_handler_eq_some.1 (congrArg View.handler hv)
    obtain ⟨⟨h', post⟩, hm⟩ : ∃ p, method h = p := ⟨_, rfl⟩
    have howns : h'.Owns g := by simpa only [hm] using hmethod.owns h hh
    have hposts : ∀ p ∈ post, p.1 = g ∧ p.2.IsUnretained g := by
      simpa only [hm] using hmethod.posts h hh
    have hposted : ∀ t ∈ (post.map Prod.snd).toList, t.IsUnretained g := by
      cases post with
      | none => simp
      | some p => simpa using (hposts p rfl).2
    have hforward : forward g h.known t = (h'.known, (post.map Prod.snd).toList) := by
      simpa only [hm] using hmethod.forward h hh
    have hrun := State.onHandler_eq (s := { s with tasks := tasks }) hhandler hm
    rw [hid] at hrun
    rw [hrun]
    -- What is posted, if anything, goes to the end of the queue of the server.
    have hlife : Life env g {
        handler := some h'
        tasks := tasks.filter (·.handler = g)
        server :=
          serverOf (queue ++ (post.map Prod.snd).toList) none (some (some w.server)) (some w) } :=
      .live howns hw (fun t ht => hws' t (List.mem_cons_of_mem _ ht)) fun t ht =>
        (List.mem_append.1 ht).elim (hq t) (hposted t)
    refine hs.moves hv (ne_empty_of_started rfl) ?_ ?_ (fun g' => ?_) hlife (.step .forward ?_)
    · cases post <;> exact hs.fault
    · cases post <;> rfl
    · simp only [State.view, View.mk.injEq] at hv
      split_ifs with hg'
      · subst hg'
        cases post with
        | none => simp [State.view, hv, Option.filter_some, howns.id]
        | some p =>
          simp [State.view, State.post, State.setServer, hv, Option.filter_some, howns.id,
            (hposts p rfl).1, serverOf]
      · cases post with
        | none =>
          simp [State.view, hothers g' hg', hhandler, hid, Option.filter_some, howns.id,
            Ne.symm hg']
        | some p =>
          simp [State.view, State.post, State.setServer, hothers g' hg', hhandler, hid,
            Option.filter_some, howns.id, (hposts p rfl).1, hg', Ne.symm hg']
    · simp [View.relay, Relay.step, hws, hforward, List.filter_append,
        List.filter_eq_self.2 fun t ht => decide_eq_true (hposted t ht)]
  | @condemned alive w tasks' f queue pool deleted halive hw hws' hc =>
    -- The handler is no more: if it were, there would be no wrapper, and no task.
    simp only at htasks
    subst htasks
    obtain rfl : alive = false := by
      by_contra h
      simpa using (halive (by simpa using h)).2
    rw [State.onHandler_dropped (s := { s with tasks := tasks }) (congrArg View.handler hv)]
    refine hs.moves hv (ne_empty_of_started rfl) hs.fault rfl (fun g' => ?_)
      (.condemned false (by simp) hw (fun t ht => hws' t (List.mem_cons_of_mem _ ht)) hc)
      (.step .forward ?_)
    · split_ifs with hg'
      · subst hg'
        simp only [State.view, View.mk.injEq] at hv
        simp [State.view, hv]
      · simp [State.view, hothers g' hg']
    · simp [View.relay, Relay.step, hws, waiting]
  | _ => cases htasks

/-! ## The server threads -/

/-- The task `t` is taken from the front of the queue of a thread, and run: the
    rest of the queue, and what is then deleted, satisfy `P`. -/
inductive Popped (g : Gen) (hasWrapper : Bool)
    (P : List ServerTask → List (Resource × Runner) → Prop)
    (t : ServerTask) (q : List ServerTask) (d : List (Resource × Runner)) : Prop
  | unretained (hw : hasWrapper) (ht : t.IsUnretained g) (hd : .serverWrapper g ∉ d.map Prod.fst)
    (h : P q d)
  | deleteServerWrapper (ht : t = .deleteServerWrapper g)
    (hd : .serverWrapper g ∉ d.map Prod.fst) (h : P q (d ++ [(.serverWrapper g, .server g)]))
  | deleteSocketFactory (ht : t = .deleteSocketFactory g)
    (hd : .socketFactory g ∉ d.map Prod.fst) (h : P q (d ++ [(.socketFactory g, .server g)]))

section Popped

variable {b : Bool} {t : ServerTask} {q : List ServerTask} {d : List (Resource × Runner)}
  {P P' : List ServerTask → List (Resource × Runner) → Prop}

theorem Popped.mono (h : Popped g b P t q d) (hP : ∀ d, P q d → P' q d) : Popped g b P' t q d := by
  cases h with
  | unretained hw ht hd h => exact .unretained hw ht hd (hP _ h)
  | deleteServerWrapper ht hd h => exact .deleteServerWrapper ht hd (hP _ h)
  | deleteSocketFactory ht hd h => exact .deleteSocketFactory ht hd (hP _ h)

/-- Popping from a queue that ends with `x`. -/
theorem append_singleton_eq_cons {q q' : List ServerTask} {x t : ServerTask}
    (h : q' ++ [x] = t :: q) : q' = [] ∧ t = x ∧ q = [] ∨ ∃ r, q' = t :: r ∧ q = r ++ [x] := by
  cases q' with
  | nil =>
    obtain ⟨rfl, rfl⟩ := List.cons.inj h
    exact .inl ⟨rfl, rfl, rfl⟩
  | cons y r =>
    obtain ⟨rfl, rfl⟩ := List.cons.inj h
    exact .inr ⟨r, rfl, rfl⟩

theorem WrapperDeletion.pop (h : WrapperDeletion g b (t :: q) d) :
    Popped g b (WrapperDeletion g b) t q d := by
  generalize hq' : t :: q = q' at h
  cases h with
  | absent => cases hq'
  | done => cases hq'
  | queued hq =>
    rcases append_singleton_eq_cons hq'.symm with ⟨rfl, rfl, rfl⟩ | ⟨r, rfl, rfl⟩
    · exact .deleteServerWrapper rfl (by simp) .done
    · exact .unretained rfl (hq t List.mem_cons_self) (by simp)
        (.queued fun t ht => hq t (List.mem_cons_of_mem _ ht))

theorem WrapperDeletion.not_socketFactory (h : WrapperDeletion g b q d) :
    .socketFactory g ∉ d.map Prod.fst := by
  cases h <;> simp

theorem FactoryDeletion.pop (h : FactoryDeletion g b (t :: q) d) :
    Popped g b (FactoryDeletion g b) t q d := by
  generalize hq' : t :: q = q' at h
  cases h with
  | done => cases hq'
  | queued h =>
    rcases append_singleton_eq_cons hq'.symm with ⟨rfl, rfl, rfl⟩ | ⟨r, rfl, rfl⟩
    · exact .deleteSocketFactory rfl h.not_socketFactory (.done h)
    · cases h.pop with
      | unretained hw ht hd h => exact .unretained hw ht hd (.queued h)
      | deleteServerWrapper ht hd h => exact .deleteServerWrapper ht hd (.queued h)
      | deleteSocketFactory ht hd h => exact .deleteSocketFactory ht hd (.queued h)

theorem Condemned.pop {f : Option Termination} {pool : List Gen}
    (h : Condemned g b f (t :: q) pool d) :
    Popped g b (fun q d => Condemned g b f q pool d) t q d := by
  generalize hq' : t :: q = q' at h
  cases h with
  | wrapperHeld hw hq =>
    subst hq'
    exact .unretained hw (hq t List.mem_cons_self) (by simp)
      (.wrapperHeld hw fun t ht => hq t (List.mem_cons_of_mem _ ht))
  | factoryHeld h => subst hq'; exact h.pop.mono fun _ => .factoryHeld
  | threadHeld h => subst hq'; exact h.pop.mono fun _ => .threadHeld
  | pooled h => subst hq'; exact h.pop.mono fun _ => .pooled
  | done => cases hq'

end Popped

theorem Good.moves_setServer (hs : Good env s) {v : View} {server : Server} (hv : s.view g = v)
    (hne : v ≠ {}) (hlife : Life env g { v with server := server })
    (hflow : FlowStep g v { v with server := server }) : Moves env s (s.setServer g server) :=
  hs.moves hv hne hs.fault rfl (fun g' => by rw [State.view_setServer, hv]) hlife hflow

theorem good_createForHttpServer (hs : Good env s) {f : StartFrame}
    (hf : (s.view g).server.running = some f) (hstage : f.stage = .create)
    (socket : Option ServerSocket) :
    Moves env s (s.setServer g ((s.view g).server.createForHttpServer f socket)) := by
  have hlife := hs.life g
  generalize hv : s.view g = v at hlife hf ⊢
  cases hlife with
  | creating alive od fd =>
    obtain rfl := Option.some.inj hf
    refine hs.moves_setServer hv (ne_empty_of_started rfl) ?_ ?_
    · cases socket with
      | none =>
        -- There is no wrapper to ask for its address.
        exact .posting alive od fd none (w := none) (by simp) (by simp)
      | some server => exact .addressing alive od fd (w := ⟨g, server, fd, []⟩) ⟨rfl, .nil⟩ rfl
    · cases socket <;> exact .stutter rfl
  | addressing | posting => obtain rfl := Option.some.inj hf; cases hstage
  | _ => cases hf

theorem good_getLocalAddress (hs : Good env s) {f : StartFrame}
    (hf : (s.view g).server.running = some f) (hstage : f.stage = .address)
    (address : Option IPEndPoint) :
    Moves env s (s.setServer g { (s.view g).server with
      running := some { f with stage := .post (some g) address } }) := by
  have hlife := hs.life g
  generalize hv : s.view g = v at hlife hf ⊢
  cases hlife with
  | @addressing alive od fd w hw hlog =>
    obtain rfl := Option.some.inj hf
    exact hs.moves_setServer hv (ne_empty_of_started rfl)
      (.posting alive od fd address (w := some w) hw.some (by simpa using hlog))
      (.stutter rfl)
  | creating | posting => obtain rfl := Option.some.inj hf; cases hstage
  | _ => cases hf

theorem good_postServerStarted (hs : Good env s) {f : StartFrame} {serverWrapper : Option Gen}
    {ip : Option IPEndPoint} (hf : (s.view g).server.running = some f)
    (hstage : f.stage = .post serverWrapper ip) :
    Moves env s (s.postServerStarted g f serverWrapper ip) := by
  have hlife := hs.life g
  generalize hv : s.view g = v at hlife hf
  cases hlife with
  | @posting alive od fd ip' w hw hlog =>
    obtain rfl := Option.some.inj hf
    cases hstage
    have hlife : Life env g {
        handler := waiting g alive
        tasks := [.serverStartedOnDedicatedRunner g (some g) (pointer g w) (some g) ip]
        server := serverOf [] none (some (w.map ServerWrapper.server)) w } :=
      .posted alive ip hw (List.forall_mem_nil _) fun _ => rfl
    have hserver : s.server g = (s.view g).server := rfl
    refine hs.moves hv (ne_empty_of_started rfl) hs.fault rfl (fun g' => ?_) hlife (.stutter ?_)
    · rw [State.postServerStarted, State.view_postMain (g := g) rfl, State.view_setServer,
        State.view_setServer, if_pos rfl, hserver, hv]
      split_ifs <;> rfl
    · simp [View.relay]
  | creating | addressing => obtain rfl := Option.some.inj hf; cases hstage
  | _ => cases hf

theorem State.runServerTask_unretained {task : ServerTask} (h : task.IsUnretained g) :
    s.runServerTask g task = s.onWrapper (some g) (.task task task.calls) := by
  cases task with
  | acceptWebSocket => obtain rfl := h; rfl
  | sendOverWebSocket => obtain rfl := h; rfl
  | _ => cases h

/-- A task bound to the wrapper, which is alive, runs on it: it is delivered. -/
theorem Good.moves_unretained (hs : Good env s) {v : View} {w : ServerWrapper} {task : ServerTask}
    {queue : List ServerTask} (hv : s.view g = v) (hstarted : v.server.started)
    (hw : v.server.serverWrapper = some w) (hqueue : v.server.queue = task :: queue)
    (htask : task.IsUnretained g) (hdel : .serverWrapper g ∉ v.deleted.map Prod.fst)
    (hlife : Life env g { v with server := { v.server with
      queue := queue
      serverWrapper := some (w.record (.task task task.calls)) } }) :
    Moves env s ((s.setServer g { v.server with queue := queue }).runServerTask g task) := by
  have hdel' : ¬(s.setServer g { v.server with queue := queue }).IsDeleted (.serverWrapper g) := by
    change ¬s.IsDeleted (.serverWrapper g)
    rwa [State.isDeleted_iff, Resource.gen_serverWrapper, hv]
  have hw' :
      ((s.setServer g { v.server with queue := queue }).server g).serverWrapper = some w := by
    simpa using hw
  rw [State.runServerTask_unretained htask, State.onWrapper_eq hdel' hw', State.setServer_setServer,
    State.server_setServer]
  refine hs.moves_setServer hv (ne_empty_of_started hstarted) hlife (.step .deliver ?_)
  simp [View.relay, Relay.step, hw, hqueue, htask, ServerWrapper.posts]

/-- A deletion, of what is still there, runs. -/
theorem Good.moves_delete (hs : Good env s) {v : View} {r : Resource} {task : ServerTask}
    {queue : List ServerTask} (hv : s.view g = v) (hstarted : v.server.started)
    (hqueue : v.server.queue = task :: queue) (htask : ¬task.IsUnretained g) (hr : r.gen = g)
    (hdel : r ∉ v.deleted.map Prod.fst)
    (hlife : Life env g { v with
      server := { v.server with queue := queue }
      deleted := v.deleted ++ [(r, .server g)] }) :
    Moves env s ((s.setServer g { v.server with queue := queue }).delete r (.server g)) := by
  subst hr
  have hdel' : ¬(s.setServer r.gen { v.server with queue := queue }).IsDeleted r := by
    change ¬s.IsDeleted r
    rwa [State.isDeleted_iff, hv]
  rw [State.delete_eq hdel']
  refine hs.moves hv (ne_empty_of_started hstarted) hs.fault rfl (fun g' => ?_) hlife (.stutter ?_)
  · rw [State.view_deleted, State.view_setServer, State.view_setServer, if_pos rfl, hv]
    split_ifs <;> rfl
  · simp [View.relay, hqueue, htask]

theorem good_runServerTask (hs : Good env s) {task : ServerTask} {queue : List ServerTask}
    (hqueue : (s.view g).server.queue = task :: queue) :
    Moves env s
      ((s.setServer g { (s.view g).server with queue := queue }).runServerTask g task) := by
  have hlife := hs.life g
  generalize hv : s.view g = v at hlife hqueue ⊢
  cases hlife with
  | pending alive od fd =>
    obtain ⟨rfl, rfl⟩ := List.cons.inj hqueue
    rw [State.runServerTask, State.setServer_setServer, State.server_setServer]
    exact hs.moves_setServer hv (ne_empty_of_started rfl) (.creating alive od fd) (.stutter rfl)
  | live hh hw ht hq =>
    simp only [serverOf_queue] at hqueue
    subst hqueue
    have htask := hq task List.mem_cons_self
    exact hs.moves_unretained hv rfl rfl rfl htask (by simp)
      (.live hh (hw.task htask) ht fun t ht => hq t (List.mem_cons_of_mem _ ht))
  | @condemned alive w tasks f q pool deleted halive hw ht hc =>
    simp only [serverOf_queue] at hqueue
    subst hqueue
    cases hc.pop with
    | unretained hsome htask hdel hc' =>
      -- There is a wrapper, so that the handler is no more.
      obtain ⟨w, rfl⟩ := Option.isSome_iff_exists.1 hsome
      have halive' : ¬alive := fun h => by simpa using (halive h).1
      exact hs.moves_unretained hv rfl rfl rfl htask hdel
        (.condemned alive (fun h => absurd h halive') ((hw w rfl).task htask).some ht hc')
    | deleteServerWrapper htask hdel hc' =>
      subst htask
      exact hs.moves_delete hv rfl rfl (fun h => h) rfl hdel (.condemned alive halive hw ht hc')
    | deleteSocketFactory htask hdel hc' =>
      subst htask
      exact hs.moves_delete hv rfl rfl (fun h => h) rfl hdel (.condemned alive halive hw ht hc')
  | _ => cases hqueue

/-- A wrapper records an event, and what it posts is received. -/
theorem Good.moves_onEvent (hs : Good env s) {v : View} {w : ServerWrapper} {e : Event}
    {read : FilePath → ReadResult} (hv : s.view g = v) (hstarted : v.server.started)
    (hw : v.server.serverWrapper = some w) (hhandler : w.handler = g)
    (hlife : Life env g { v with
      tasks := v.tasks ++ (e.mainTask g).toList
      server := { v.server with
        serverWrapper := some (w.record (.event e (e.calls env w.frontendDir read))) } }) :
    Moves env s (s.onEvent env g w e read) := by
  subst hv
  refine hs.moves rfl (ne_empty_of_started hstarted) hs.fault rfl (fun g' => ?_) hlife ?_
  · have hmain : (e.mainTask g).toList.filter (·.handler = g') =
        if g' = g then (e.mainTask g).toList else [] := by
      split_ifs with hg'
      · exact List.filter_eq_self.2 fun t ht => by
          simpa [hg'] using (Event.isWebSocket_mainTask t ht).handler
      · exact List.filter_eq_nil_iff.2 fun t ht => by
          simpa [(Event.isWebSocket_mainTask t ht).handler] using Ne.symm hg'
    split_ifs with hg'
    · subst hg'
      simp [State.onEvent, State.view, State.setServer, hhandler, hmain]
    · simp [State.onEvent, State.view, State.setServer, hhandler, hmain, hg']
  · cases hmain : e.mainTask g with
    | none => exact .stutter (by simp [View.relay, hw, ServerWrapper.posts, hmain])
    | some t =>
      have ht : t.IsWebSocket g := Event.isWebSocket_mainTask (e := e) t (by simp [hmain])
      refine .step (.receive t) ?_
      simp [View.relay, Relay.step, hw, ServerWrapper.posts, hmain, ht]

theorem good_onEvent (hs : Good env s) {w : ServerWrapper} {e : Event}
    (read : FilePath → ReadResult) (hw : (s.view g).server.serverWrapper = some w)
    (hrunning : (s.view g).server.running = none) (he : e.Allowed w.events) :
    Moves env s (s.onEvent env g w e read) := by
  have hlife := hs.life g
  generalize hv : s.view g = v at hlife hw hrunning
  -- What is posted goes after the tasks from the earlier events.
  have hpost : ∀ tasks : List MainTask, (∀ t ∈ tasks, t.IsWebSocket g) →
      ∀ t ∈ tasks ++ (e.mainTask g).toList, t.IsWebSocket g := fun tasks htasks t ht =>
    (List.mem_append.1 ht).elim (htasks t) (Event.isWebSocket_mainTask t)
  cases hlife with
  | posted alive ip hvalid ht hnone =>
    simp only [serverOf_serverWrapper] at hw
    subst hw
    have hvalid := hvalid w rfl
    exact hs.moves_onEvent hv rfl rfl hvalid.handler
      (.posted alive ip (hvalid.event he read).some (hpost _ ht) (by simp))
  | live hh hvalid ht hq =>
    obtain rfl := Option.some.inj hw
    exact hs.moves_onEvent hv rfl rfl hvalid.handler
      (.live hh (hvalid.event he read) (hpost _ ht) hq)
  | condemned alive halive hvalid ht hc =>
    simp only [serverOf_serverWrapper] at hw
    subst hw
    have hvalid := hvalid w rfl
    exact hs.moves_onEvent hv rfl rfl hvalid.handler
      (.condemned alive (fun h => by simpa using (halive h).1) (hvalid.event he read).some
        (hpost _ ht) hc)
  | addressing | posting => cases hrunning
  | _ => cases hw

theorem good_deleteThread (hs : Good env s) (hg : g ∈ s.pool)
    (hqueue : (s.view g).server.queue = []) :
    Moves env s ({ s with pool := s.pool.erase g }.delete (.thread g) .pool) := by
  have hlife := hs.life g
  have hpool : g ∈ (s.view g).pool := by simpa [State.view] using hg
  generalize hv : s.view g = v at hlife hqueue hpool
  cases hlife with
  | condemned alive halive hw ht hc =>
    cases hc with
    | pooled h =>
      simp only [serverOf_queue] at hqueue
      subst hqueue
      have hdel : ¬{ s with pool := s.pool.erase g }.IsDeleted (.thread g) := by
        change ¬s.IsDeleted (.thread g)
        rw [State.isDeleted_iff, Resource.gen_thread, hv]
        exact h.not_thread
      rw [State.delete_eq hdel]
      refine hs.moves hv (ne_empty_of_started rfl) hs.fault rfl (fun g' => ?_)
        (.condemned alive halive hw ht (.done h)) (.stutter rfl)
      simp only [State.view, View.mk.injEq] at hv
      split_ifs with hg'
      · subst hg'
        simp [State.view, hv, ← List.erase_filter]
      · simp [State.view, Ne.symm hg', ← List.erase_filter]
    | _ => cases hpool
  | _ => cases hpool

/-! ## Every step -/

theorem good_runMainTask (hs : Good env s) {task : MainTask} {tasks : List MainTask}
    (hm : s.terminating = none) (ht : s.tasks = task :: tasks) :
    Moves env s ({ s with tasks := tasks }.runMainTask task) := by
  cases task with
  | serverStartedOnDedicatedRunner => exact good_serverStarted hs hm ht
  | onWebSocketRequest _ c info => exact good_onHandler hs ht rfl (forwards_request c info)
  | onWebSocketMessage _ c data => exact good_onHandler hs ht rfl (forwards_message c data)

/-- A step keeps the state good, and moves every start as a relay. -/
theorem good_step {a : Action} (hs : Good env s) (h : step env s a = some s') :
    Moves env s s' := by
  obtain ⟨-, h⟩ := transition_of_step h
  cases h with
  | startRefused => exact hs.moves_self
  | start hm hh => exact good_start hs hh _ _ _
  | stop hm => exact good_stop hs hm
  | terminate hf => exact good_terminate hs hf
  | runMain hm ht => exact good_runMainTask hs hm ht
  | runServer hf hq => exact good_runServerTask hs hq
  | createForHttpServer hf hstage => exact good_createForHttpServer hs hf hstage _
  | getLocalAddress hf hstage => exact good_getLocalAddress hs hf hstage _
  | postServerStarted hf hstage => exact good_postServerStarted hs hf hstage
  | event hw hf hdel he => exact good_onEvent hs _ hw hf he
  | deleteThread hg hf hq => exact good_deleteThread hs hg hq

theorem good_of_reachable (hs : (machine env).Reachable s) : Good env s :=
  hs.invariant (P := Good env) good_init fun _ _ _ _ hs h => (good_step hs h).1

theorem Life.valid {v : View} (h : Life env g v) : ∀ w ∈ v.server.serverWrapper, w.Valid env g := by
  cases h with
  | addressing alive od fd hw => exact hw.some
  | posting alive od fd ip hw => exact hw
  | posted alive ip hw => exact hw
  | live hh hw => exact hw.some
  | condemned alive halive hw => exact hw
  | _ => simp

theorem Life.handler_of_running {v : View} (h : Life env g v) {f : StartFrame}
    (hf : v.server.running = some f) : f.handler = g := by
  cases h with
  | creating | addressing | posting => rw [← Option.some.inj hf]
  | _ => cases hf

/-- Every start is a relay, of what the handler forwards. -/
theorem relay_inv (hs : (machine env).Reachable s) (g : Gen) :
    Relay.Inv (forward g) ∅ ((s.view g).relay g) := by
  refine hs.invariant (P := fun s => Relay.Inv (forward g) ∅ ((s.view g).relay g)) ?_ ?_
  · exact ⟨[], [], rfl, rfl, fun _ h => by cases h⟩
  · intro s a s' hs hinv h
    cases (good_step (good_of_reachable hs) h).2 g with
    | birth _ h => rw [h]; exact Relay.inv_empty
    | stutter h => rwa [h]
    | step a h => exact Relay.inv_step hinv h

end Qlabs.Http
