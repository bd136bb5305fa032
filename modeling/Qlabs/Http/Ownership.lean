import Qlabs.Http.Lifetime

/-!
# Ownership

Who owns the thread, the socket factory and the wrapper of a start: a task that
waits or runs, on either thread, the members of the handler, or the pool
(`State.owned`). Once the thread has started, each of them has one owner, and is
then deleted once (`single_owner`): the factory and the wrapper on their thread,
and the thread by the pool, after the other two deletions have been queued. When
nothing is left to run, everything has been deleted.

The owners of the objects of a start are all in its view, so it is enough to
count in there (`count_owned`, `Life.count`).
-/

namespace Qlabs.Http

variable {env : Env} {s : State} {g : Gen}

/-! ## Owners -/

/-- What a task of the main thread owns. -/
def MainTask.owned : MainTask → List Resource
  | .serverStartedOnDedicatedRunner _ thread serverWrapper socketFactory _ =>
    pointees thread serverWrapper socketFactory
  | _ => []

/-- What a task of a server thread owns. -/
def ServerTask.owned : ServerTask → List Resource
  | .startServerOnHandlerThread _ thread socketFactory _ _ =>
    pointees (some thread) none (some socketFactory)
  | .deleteServerWrapper w => [.serverWrapper w]
  | .deleteSocketFactory c => [.socketFactory c]
  | _ => []

/-- The wrapper a running `StartServerOnHandlerThread`, on the thread `g`, has made. -/
def Stage.serverWrapper (g : Gen) : Stage → Option Gen
  | .create => none
  | .address => some g
  | .post serverWrapper _ => serverWrapper

/-- What a running `StartServerOnHandlerThread`, on the thread `g`, owns. -/
def StartFrame.owned (g : Gen) (f : StartFrame) : List Resource :=
  pointees (some f.thread) (f.stage.serverWrapper g) (some f.socketFactory)

/-- What the tasks of the server thread `g` own. -/
def Server.owned (g : Gen) (v : Server) : List Resource :=
  v.queue.flatMap ServerTask.owned ++ v.running.toList.flatMap (StartFrame.owned g)

/-- What a running `TerminateOnDeciatedRunner` owns. -/
def Termination.owned (f : Termination) : List Resource :=
  pointees f.thread f.serverWrapper f.socketFactory

/-- What is owned, once for each owner. -/
def State.owned (s : State) : List Resource :=
  s.httpHandler.toList.flatMap SimpleHttpHandler.owned ++ s.tasks.flatMap MainTask.owned ++
    s.terminating.toList.flatMap Termination.owned ++ s.pool.map .thread ++
    (List.range s.starts).flatMap fun g => (s.server g).owned g

/-- What has been made for the start `g`. -/
def State.made (s : State) (g : Gen) : List Resource :=
  pointees (some g) (pointer g (s.server g).serverWrapper) (some g)

/-- Nothing is left to run, and there is no handler. -/
structure State.Quiescent (s : State) : Prop where
  handler : s.httpHandler = none
  tasks : s.tasks = []
  terminating : s.terminating = none
  pool : s.pool = []
  queue : ∀ g, (s.server g).queue = []
  running : ∀ g, (s.server g).running = none

/-- The objects of the start `g` are owned as they should. -/
structure SingleOwner (s : State) (g : Gen) : Prop where
  /-- No null thread is gone through, and nothing is deleted twice. -/
  fault : s.fault = none
  /-- What has been made has one owner, or has been deleted, once. -/
  count : ∀ r ∈ s.made g, s.owned.count r + (s.deleted.map Prod.fst).count r = 1
  /-- The wrapper and the factory are deleted on their own thread. -/
  ownThread : ∀ r runner, (r, runner) ∈ s.deleted → r = .serverWrapper g ∨ r = .socketFactory g →
    runner = .server g
  /-- The thread goes to the pool after both deletions have been queued. -/
  threadLast : g ∈ s.pool ∨ s.IsDeleted (.thread g) →
    (.deleteSocketFactory g ∈ (s.server g).queue ∨ s.IsDeleted (.socketFactory g)) ∧
    ((s.server g).serverWrapper.isSome → s.DeletePosted g)
  /-- When nothing is left to run, everything has been deleted. -/
  quiescent : s.Quiescent → ∀ r ∈ s.made g, s.IsDeleted r

/-! ## Counting in a view -/

/-- What is owned, in the view of the start `g`. -/
def View.owned (g : Gen) (v : View) : List Resource :=
  v.handler.toList.flatMap SimpleHttpHandler.owned ++ v.tasks.flatMap MainTask.owned ++
    v.terminating.toList.flatMap Termination.owned ++ v.pool.map .thread ++ v.server.owned g

section Count

variable {b : Bool} {q : List ServerTask} {d : List (Resource × Runner)} {r : Resource}

theorem flatMap_owned_of_isUnretained (hq : ∀ t ∈ q, t.IsUnretained g) :
    q.flatMap ServerTask.owned = [] := by
  refine List.flatMap_eq_nil_iff.2 fun t ht => ?_
  have := hq t ht
  cases t with
  | acceptWebSocket => rfl
  | sendOverWebSocket => rfl
  | _ => cases this

theorem flatMap_owned_of_isWebSocket {tasks : List MainTask} (ht : ∀ t ∈ tasks, t.IsWebSocket g) :
    tasks.flatMap MainTask.owned = [] := by
  refine List.flatMap_eq_nil_iff.2 fun t h => ?_
  have := ht t h
  cases t with
  | onWebSocketRequest => rfl
  | onWebSocketMessage => rfl
  | serverStartedOnDedicatedRunner => cases this

@[simp] theorem count_pointees (thread serverWrapper socketFactory : Option Gen) :
    (pointees thread serverWrapper socketFactory).count r =
      (thread.map Resource.thread).toList.count r +
        (serverWrapper.map Resource.serverWrapper).toList.count r +
        (socketFactory.map Resource.socketFactory).toList.count r := by
  simp [pointees, Nat.add_assoc]

/-- The wrapper, if there was one, is to be deleted, or has been. -/
theorem WrapperDeletion.count (h : WrapperDeletion g b q d) :
    (q.flatMap ServerTask.owned).count r + (d.map Prod.fst).count r =
      (pointees none (if b then some g else none) none).count r := by
  cases h with
  | absent => rfl
  | queued hq => simp [flatMap_owned_of_isUnretained hq, ServerTask.owned]
  | done => simp

/-- So is the factory. -/
theorem FactoryDeletion.count (h : FactoryDeletion g b q d) :
    (q.flatMap ServerTask.owned).count r + (d.map Prod.fst).count r =
      (pointees none (if b then some g else none) (some g)).count r := by
  cases h with
  | queued h =>
    have hcount := h.count (r := r)
    simp [ServerTask.owned] at hcount ⊢
    omega
  | done h =>
    have hcount := h.count (r := r)
    simp at hcount ⊢
    omega

/-- Then the thread goes to the pool. -/
theorem Condemned.count {f : Option Termination} {pool : List Gen}
    (h : Condemned g b f q pool d) :
    (f.toList.flatMap Termination.owned).count r + (pool.map Resource.thread).count r +
      (q.flatMap ServerTask.owned).count r + (d.map Prod.fst).count r =
      (pointees (some g) (if b then some g else none) (some g)).count r := by
  cases h with
  | wrapperHeld hw hq =>
    subst hw
    simp [flatMap_owned_of_isUnretained hq, Termination.owned]
  | factoryHeld h =>
    have hcount := h.count (r := r)
    simp [Termination.owned] at hcount ⊢
    omega
  | threadHeld h =>
    have hcount := h.count (r := r)
    simp [Termination.owned] at hcount ⊢
    omega
  | pooled h =>
    have hcount := h.count (r := r)
    simp at hcount ⊢
    omega
  | done h =>
    have hcount := h.count (r := r)
    simp at hcount ⊢
    omega

theorem flatMap_owned_waiting (alive : Bool) :
    (waiting g alive).toList.flatMap SimpleHttpHandler.owned = [] := by
  cases alive <;> rfl

/-- What has been made for a start is owned or deleted, all in its view. -/
theorem Life.count {v : View} (h : Life env g v) (hne : v ≠ {}) :
    (v.owned g).count r + (v.deleted.map Prod.fst).count r =
      (pointees (some g) (pointer g v.server.serverWrapper) (some g)).count r := by
  cases h with
  | unborn => exact absurd rfl hne
  | unstarted alive => simp [View.owned, flatMap_owned_waiting, Server.owned, pointees, pointer]
  | pending alive od fd =>
    simp [View.owned, flatMap_owned_waiting, Server.owned, ServerTask.owned, pointer]
  | creating alive od fd =>
    simp [View.owned, flatMap_owned_waiting, Server.owned, StartFrame.owned, Stage.serverWrapper,
      pointer]
  | addressing alive od fd =>
    simp [View.owned, flatMap_owned_waiting, Server.owned, StartFrame.owned, Stage.serverWrapper,
      pointer]
  | posting alive od fd ip =>
    simp [View.owned, flatMap_owned_waiting, Server.owned, StartFrame.owned, Stage.serverWrapper]
  | posted alive ip hw ht =>
    simp [View.owned, flatMap_owned_waiting, Server.owned, MainTask.owned,
      flatMap_owned_of_isWebSocket ht]
  | live hh hw ht hq =>
    simp [View.owned, Server.owned, SimpleHttpHandler.owned, hh.thread, hh.serverWrapper,
      hh.socketFactory, flatMap_owned_of_isWebSocket ht, flatMap_owned_of_isUnretained hq, pointer]
  | @condemned alive w tasks f q pool d halive hw ht hc =>
    have hpointer : pointer g w = if w.isSome then some g else none := by cases w <;> rfl
    have := hc.count (r := r)
    simp [View.owned, flatMap_owned_waiting, Server.owned, flatMap_owned_of_isWebSocket ht,
      hpointer, ← this, Nat.add_assoc]

theorem gen_of_mem_pointees {w : Option ServerWrapper}
    (hr : r ∈ pointees (some g) (pointer g w) (some g)) : r.gen = g := by
  cases w <;> simp [pointees, pointer] at hr <;> rcases hr with rfl | rfl | rfl <;> rfl

/-- A start owns nothing of another one. -/
theorem Life.gen_of_mem_owned {v : View} (h : Life env g v) (hr : r ∈ v.owned g) : r.gen = g := by
  rcases eq_or_ne v {} with rfl | hne
  · simp [View.owned, Server.owned] at hr
  · have hpos : 0 < (v.owned g).count r := List.count_pos_iff.2 hr
    have hcount := h.count (r := r) hne
    exact gen_of_mem_pointees (w := v.server.serverWrapper)
      (List.count_pos_iff.1 (hcount ▸ Nat.add_pos_left hpos _))

end Count

/-- What does not count may be filtered out. -/
theorem count_flatMap_filter {α : Type*} {l : List α} {f : α → List Resource} {r : Resource}
    {p : α → Bool} (h : ∀ a ∈ l, r ∈ f a → p a) :
    ((l.filter p).flatMap f).count r = (l.flatMap f).count r := by
  induction l with
  | nil => rfl
  | cons a l ih =>
    have ih := ih fun a' ha' => h a' (List.mem_cons_of_mem _ ha')
    by_cases hp : p a
    · simp [hp, ih]
    · have : r ∉ f a := fun hr => hp (h a List.mem_cons_self hr)
      simp [hp, ih, List.count_eq_zero_of_not_mem this]

/-- The owners of the objects of a start are in its view. -/
theorem Good.count_owned (hs : Good env s) {r : Resource} (hg : r.gen < s.starts) :
    s.owned.count r = ((s.view r.gen).owned r.gen).count r := by
  -- An owner of the object, in the view of any start, is of its own start.
  have hmem : ∀ g', r ∈ (s.view g').owned g' → g' = r.gen := fun g' h =>
    ((hs.life g').gen_of_mem_owned h).symm
  have hhandler : ((s.view r.gen).handler.toList.flatMap SimpleHttpHandler.owned).count r =
      (s.httpHandler.toList.flatMap SimpleHttpHandler.owned).count r := by
    rw [State.view, Option.toList_filter]
    refine count_flatMap_filter fun h hh hr => decide_eq_true (hmem h.id ?_)
    have : (s.view h.id).handler = some h :=
      State.view_handler_eq_some.2 ⟨Option.mem_toList.1 hh, rfl⟩
    simp [View.owned, this, hr]
  have htasks : ((s.view r.gen).tasks.flatMap MainTask.owned).count r =
      (s.tasks.flatMap MainTask.owned).count r := by
    refine count_flatMap_filter fun t ht hr => decide_eq_true (hmem t.handler ?_)
    have : t ∈ (s.view t.handler).tasks := by simp [State.view, ht]
    simp only [View.owned, List.mem_append, List.mem_flatMap]
    exact .inl (.inl (.inl (.inr ⟨t, this, hr⟩)))
  have hterminating : ((s.view r.gen).terminating.toList.flatMap Termination.owned).count r =
      (s.terminating.toList.flatMap Termination.owned).count r := by
    rw [State.view, Option.toList_filter]
    refine count_flatMap_filter fun f hf hr => decide_eq_true (hmem f.gen ?_)
    have : (s.view f.gen).terminating = some f := by
      simp [State.view, Option.mem_toList.1 hf, Option.filter_some]
    simp [View.owned, this, hr]
  have hpool : ((s.view r.gen).pool.map Resource.thread).count r =
      (s.pool.map Resource.thread).count r := by
    rw [List.map_eq_flatMap, List.map_eq_flatMap]
    refine count_flatMap_filter fun g' _ hr => decide_eq_true ?_
    rw [List.mem_singleton.1 hr]
    rfl
  have hserver : ((s.server r.gen).owned r.gen).count r =
      ((List.range s.starts).flatMap fun g => (s.server g).owned g).count r := by
    have hrange : (List.range s.starts).filter (· = r.gen) = [r.gen] := by
      simp [List.filter_eq, List.count_range, hg]
    rw [← count_flatMap_filter (p := (· = r.gen)), hrange, List.flatMap_singleton]
    refine fun g' _ hr => decide_eq_true (hmem g' ?_)
    simp [View.owned, State.view, hr]
  simp only [State.owned, View.owned, List.count_append, hhandler, htasks, hterminating, hpool,
    ← hserver]
  rfl

theorem State.count_deleted (r : Resource) :
    ((s.view r.gen).deleted.map Prod.fst).count r = (s.deleted.map Prod.fst).count r := by
  rw [List.map_eq_flatMap, List.map_eq_flatMap]
  refine count_flatMap_filter fun d _ hr => decide_eq_true ?_
  rw [List.mem_singleton.1 hr]

theorem Good.lt_starts (hs : Good env s) (hstarted : (s.server g).started) : g < s.starts := by
  refine lt_of_not_ge fun hg => ?_
  have hstarted : (s.view g).server.started := hstarted
  rw [hs.fresh g hg] at hstarted
  cases hstarted

/-- What has been made has one owner, or has been deleted. -/
theorem Good.count_made_of_ne (hs : Good env s) (hg : g < s.starts) (hne : s.view g ≠ {})
    {r : Resource} (hr : r ∈ s.made g) : s.owned.count r + (s.deleted.map Prod.fst).count r = 1 := by
  obtain rfl : r.gen = g := gen_of_mem_pointees hr
  have hnodup : (pointees (some r.gen) (pointer r.gen (s.view r.gen).server.serverWrapper)
      (some r.gen)).Nodup := by
    cases (s.view r.gen).server.serverWrapper <;> simp [pointees, pointer]
  rw [hs.count_owned hg, ← State.count_deleted, (hs.life r.gen).count hne]
  exact List.count_eq_one_of_mem hnodup hr

theorem Good.count_made (hs : Good env s) (hstarted : (s.server g).started) {r : Resource}
    (hr : r ∈ s.made g) : s.owned.count r + (s.deleted.map Prod.fst).count r = 1 :=
  hs.count_made_of_ne (hs.lt_starts hstarted) (ne_empty_of_started hstarted) hr

/-! ## Deletion -/

section Deleted

variable {b : Bool} {q : List ServerTask} {d : List (Resource × Runner)}

/-- The thread that deletes an object, once its thread has started. -/
def Resource.runner : Resource → Runner
  | .thread _ => .pool
  | .socketFactory g | .serverWrapper g => .server g

theorem WrapperDeletion.runner (h : WrapperDeletion g b q d) : ∀ p ∈ d, p.2 = p.1.runner := by
  cases h <;> simp [Resource.runner]

theorem FactoryDeletion.runner (h : FactoryDeletion g b q d) : ∀ p ∈ d, p.2 = p.1.runner := by
  cases h with
  | queued h => exact h.runner
  | done h => exact List.forall_mem_append.2 ⟨h.runner, List.forall_mem_singleton.2 rfl⟩

theorem Condemned.runner {f : Option Termination} {pool : List Gen}
    (h : Condemned g b f q pool d) : ∀ p ∈ d, p.2 = p.1.runner := by
  cases h with
  | wrapperHeld => simp
  | factoryHeld h => exact h.runner
  | threadHeld h => exact h.runner
  | pooled h => exact h.runner
  | done h => exact List.forall_mem_append.2 ⟨h.runner, List.forall_mem_singleton.2 rfl⟩

theorem Life.runner {v : View} (h : Life env g v) (hstarted : v.server.started) :
    ∀ p ∈ v.deleted, p.2 = p.1.runner := by
  cases h with
  | unstarted => cases hstarted
  | condemned alive halive hw ht hc => exact hc.runner
  | _ => simp

/-- Both deletions have been queued before the thread goes to the pool. -/
theorem Condemned.deletionPosted {f : Option Termination} {pool : List Gen}
    (h : Condemned g b f q pool d) (hthread : g ∈ pool ∨ .thread g ∈ d.map Prod.fst) :
    (.deleteSocketFactory g ∈ q ∨ .socketFactory g ∈ d.map Prod.fst) ∧
      (b = true → .deleteServerWrapper g ∈ q ∨ .serverWrapper g ∈ d.map Prod.fst) := by
  cases h with
  | wrapperHeld => simp at hthread
  | factoryHeld h => simp [h.not_thread] at hthread
  | threadHeld h => simp [h.not_thread] at hthread
  | pooled h => exact h.deletionPosted
  | done h => simpa using h.deletionPosted

theorem Life.deletionPosted {v : View} (h : Life env g v) (hstarted : v.server.started)
    (hthread : g ∈ v.pool ∨ .thread g ∈ v.deleted.map Prod.fst) :
    (.deleteSocketFactory g ∈ v.server.queue ∨ .socketFactory g ∈ v.deleted.map Prod.fst) ∧
      (v.server.serverWrapper.isSome →
        .deleteServerWrapper g ∈ v.server.queue ∨ .serverWrapper g ∈ v.deleted.map Prod.fst) := by
  cases h with
  | unstarted => cases hstarted
  | condemned alive halive hw ht hc => exact hc.deletionPosted hthread
  | _ => simp at hthread

end Deleted

theorem State.Quiescent.owned_eq_nil (h : s.Quiescent) : s.owned = [] := by
  simp [State.owned, h.handler, h.tasks, h.terminating, h.pool, Server.owned, h.queue, h.running]

/-- The objects of a start are owned as they should, once its thread has started, in
    every reachable state. -/
theorem single_owner (hs : (machine env).Reachable s) (hstarted : (s.server g).started) :
    SingleOwner s g := by
  have hgood := good_of_reachable hs
  have hcount : ∀ r ∈ s.made g, s.owned.count r + (s.deleted.map Prod.fst).count r = 1 :=
    fun r hr => hgood.count_made hstarted hr
  refine ⟨hgood.fault, hcount, fun r runner hr hgen => ?_, fun hthread => ?_, fun hq r hr => ?_⟩
  · have hr' : (r, runner) ∈ (s.view g).deleted := by
      rcases hgen with rfl | rfl <;> simp [State.view, hr]
    have hrunner := (hgood.life g).runner hstarted _ hr'
    rcases hgen with rfl | rfl <;> exact hrunner
  · have hpool : g ∈ s.pool → g ∈ (s.view g).pool := fun h => by simp [State.view, h]
    obtain ⟨hfactory, hwrapper⟩ := (hgood.life g).deletionPosted hstarted
      (hthread.imp hpool State.isDeleted_iff.1)
    exact ⟨hfactory.imp_right State.isDeleted_iff.2,
      fun h => (hwrapper h).imp (fun h => ⟨g, h⟩) State.isDeleted_iff.2⟩
  · -- Nothing is owned, so that it has been deleted.
    have hone := hcount r hr
    rw [hq.owned_eq_nil] at hone
    have hpos : 0 < (s.deleted.map Prod.fst).count r := by
      rw [List.count_nil, Nat.zero_add] at hone
      omega
    exact List.count_pos_iff.1 hpos

/-- A start whose `CreateForHttpServer` fails, and then one that makes a wrapper and is
    stopped, once everything has run. -/
theorem single_owner_deleted :
    let s := (machine localEnv).after ([.start true [] (bytes "/srv"), .runServer 0,
      .createForHttpServer 0 none, .postServerStarted 0, .runMain, .terminate, .terminate, .stop,
      .runServer 0, .deleteThread 0] ++ startUp 1 ⟨bytes "127.0.0.1", 3101⟩ ++
      [.stop, .terminate, .runServer 1, .terminate, .runServer 1, .terminate, .deleteThread 1])
    s.deleted = [(.socketFactory 0, .server 0), (.thread 0, .pool), (.serverWrapper 1, .server 1),
      (.socketFactory 1, .server 1), (.thread 1, .pool)] ∧ SingleOwner s 0 ∧ SingleOwner s 1 :=
  ⟨by decide, single_owner (Machine.reachable_after _) (by decide),
    single_owner (Machine.reachable_after _) (by decide)⟩

end Qlabs.Http
