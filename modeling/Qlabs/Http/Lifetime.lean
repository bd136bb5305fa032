import Qlabs.Http.Frame

/-!
# The lifetime of a wrapper

The tasks `AcceptWebSocket` and `SendOverWebSocket` hold a raw pointer to the
wrapper they are bound to. None of them runs after the wrapper is deleted
(`wrapper_safe`): they stand before its deletion in the queue of its thread, and
once this is posted there is no agent left to post another one.
-/

namespace Qlabs.Http

variable {env : Env} {s s' : State} {g w : Gen}

/-- The deletion of the wrapper `w` has been posted: it waits, or has run. -/
def State.DeletePosted (s : State) (w : Gen) : Prop :=
  (∃ t, .deleteServerWrapper w ∈ (s.server t).queue) ∨ s.IsDeleted (.serverWrapper w)

/-- The tasks in the queue of the thread `t` that are bound to the wrapper `w`. -/
def State.unretained (s : State) (t w : Gen) : List ServerTask :=
  (s.server t).queue.filter (·.IsUnretained w)

/-- If `first` deletes the wrapper `w`, then `second`, behind it, is not bound to `w`. -/
def NotBehind (w : Gen) (first second : ServerTask) : Prop :=
  first = .deleteServerWrapper w → ¬second.IsUnretained w

/-- The raw pointers to the wrapper `w` are safe. -/
structure WrapperSafe (env : Env) (s : State) (w : Gen) : Prop where
  /-- The program has not gone through a pointer that is null, or to what is deleted. -/
  fault : s.fault = none
  /-- No task bound to the wrapper stands behind its deletion. -/
  ordered : ∀ t, (s.server t).queue.Pairwise (NotBehind w)
  /-- Once the deletion is posted, no task bound to the wrapper is appended. -/
  final : s.DeletePosted w → ∀ as s', (machine env).run s as = some s' →
    s'.DeletePosted w ∧ ∀ t, s'.unretained t w <:+ s.unretained t w
  /-- Once the deletion is posted, no agent holds a pointer to the wrapper. -/
  agents : s.DeletePosted w → ∀ h ∈ s.httpHandler, ∀ c a,
    h.connectionToClient.lookup c = some a → a.serverWrapper ≠ some w
  /-- A task bound to the wrapper that is about to run finds it alive. -/
  alive : ∀ t task queue, (s.server t).queue = task :: queue → task.IsUnretained w →
    (s.server w).serverWrapper.isSome ∧ ¬s.IsDeleted (.serverWrapper w)

/-! ## The order of the queue -/

section Order

variable {b : Bool} {q : List ServerTask} {d : List (Resource × Runner)}

theorem pairwise_of_isUnretained (hq : ∀ t ∈ q, t.IsUnretained g) : q.Pairwise (NotBehind w) := by
  refine List.pairwise_of_forall_mem_list fun t ht _ _ => ?_
  rintro rfl
  cases hq _ ht

/-- A deletion may be appended to any queue. -/
theorem pairwise_concat {t : ServerTask} (h : q.Pairwise (NotBehind w)) (ht : ¬t.IsUnretained w) :
    (q ++ [t]).Pairwise (NotBehind w) := by
  refine List.pairwise_append.2 ⟨h, List.pairwise_singleton _ _, fun _ _ t' ht' _ => ?_⟩
  rwa [List.mem_singleton.1 ht']

theorem WrapperDeletion.pairwise (h : WrapperDeletion g b q d) : q.Pairwise (NotBehind w) := by
  cases h with
  | absent => exact .nil
  | done => exact .nil
  | queued hq => exact pairwise_concat (pairwise_of_isUnretained hq) fun h => h

theorem FactoryDeletion.pairwise (h : FactoryDeletion g b q d) : q.Pairwise (NotBehind w) := by
  cases h with
  | done => exact .nil
  | queued h => exact pairwise_concat h.pairwise fun h => h

theorem Condemned.pairwise {f : Option Termination} {pool : List Gen}
    (h : Condemned g b f q pool d) : q.Pairwise (NotBehind w) := by
  cases h with
  | wrapperHeld hw hq => exact pairwise_of_isUnretained hq
  | factoryHeld h => exact h.pairwise
  | threadHeld h => exact h.pairwise
  | pooled h => exact h.pairwise
  | done h => exact h.pairwise

theorem Life.pairwise {v : View} (h : Life env g v) : v.server.queue.Pairwise (NotBehind w) := by
  cases h with
  | pending => exact List.pairwise_singleton _ _
  | live hh hw ht hq => exact pairwise_of_isUnretained hq
  | condemned alive halive hw ht hc => exact hc.pairwise
  | _ => exact .nil

end Order

/-! ## Once the deletion is posted -/

section Posted

variable {b : Bool} {q : List ServerTask} {d : List (Resource × Runner)}

theorem WrapperDeletion.hasWrapper (h : WrapperDeletion g b q d)
    (hd : .deleteServerWrapper g ∈ q ∨ .serverWrapper g ∈ d.map Prod.fst) : b = true := by
  cases h with
  | absent => simp at hd
  | queued => rfl
  | done => rfl

theorem FactoryDeletion.hasWrapper (h : FactoryDeletion g b q d)
    (hd : .deleteServerWrapper g ∈ q ∨ .serverWrapper g ∈ d.map Prod.fst) : b = true := by
  cases h with
  | queued h => exact h.hasWrapper (by simpa using hd)
  | done h => exact h.hasWrapper (by simpa using hd)

theorem Condemned.hasWrapper {f : Option Termination} {pool : List Gen}
    (h : Condemned g b f q pool d)
    (hd : .deleteServerWrapper g ∈ q ∨ .serverWrapper g ∈ d.map Prod.fst) : b = true := by
  cases h with
  | wrapperHeld hw => exact hw
  | factoryHeld h => exact h.hasWrapper hd
  | threadHeld h => exact h.hasWrapper hd
  | pooled h => exact h.hasWrapper hd
  | done h => exact h.hasWrapper (by simpa using hd)

/-- The handler is gone before the deletion of its wrapper is posted. -/
theorem Life.handler_eq_none {v : View} (h : Life env g v)
    (hd : .deleteServerWrapper g ∈ v.server.queue ∨ .serverWrapper g ∈ v.deleted.map Prod.fst) :
    v ≠ {} ∧ v.handler = none := by
  cases h with
  | live hh hw ht hq =>
    rcases hd with hd | hd
    · cases hq _ hd
    · simp at hd
  | condemned alive halive hw ht hc =>
    refine ⟨ne_empty_of_started rfl, ?_⟩
    cases alive with
    | false => rfl
    | true => simpa [(halive rfl).1] using hc.hasWrapper hd
  | _ => simp at hd

theorem Good.handler_eq_none (hs : Good env s) (hd : s.DeletePosted w) :
    s.view w ≠ {} ∧ (s.view w).handler = none := by
  refine (hs.life w).handler_eq_none (hd.imp_left ?_ |>.imp_right State.isDeleted_iff.1)
  rintro ⟨t, ht⟩
  -- The deletion is in the queue of the thread of the wrapper.
  obtain rfl : w = t := (hs.life t).isOf _ ht
  exact ht

/-- A deletion that has been posted waits, or runs. -/
theorem deletePosted_step {a : Action} (hs : Good env s) (h : step env s a = some s')
    (hd : s.DeletePosted w) : s'.DeletePosted w := by
  rcases hd with ⟨t, ht⟩ | hd
  · rcases queue_step hs h t with hq | ⟨task, queue, rfl, hqueue, hq⟩
    · exact .inl ⟨t, hq.subset ht⟩
    · rw [hqueue] at ht
      rcases List.mem_cons.1 ht with rfl | ht
      · -- The deletion is at the front, and runs.
        obtain ⟨-, h⟩ := transition_of_step h
        cases h with
        | runServer hf hqueue' =>
          obtain ⟨rfl, rfl⟩ := List.cons.inj (hqueue'.symm.trans hqueue)
          exact .inr (State.isDeleted_delete _ _)
      · exact .inl ⟨t, hq.subset ht⟩
  · exact .inr (isDeleted_step hs h hd)

/-- A thread has tasks bound to its own wrapper only. -/
theorem Good.unretained_eq_nil (hs : Good env s) {t : Gen} (h : t ≠ w) : s.unretained t w = [] := by
  refine List.filter_eq_nil_iff.2 fun task htask => ?_
  have hof := (hs.life t).isOf task htask
  simpa using fun hw => h (ServerTask.IsUnretained.eq hw hof).symm

/-- Once the deletion is posted, the handler has nothing more to forward. -/
theorem unretained_step {a : Action} (hs : Good env s) (h : step env s a = some s')
    (hd : s.DeletePosted w) (t : Gen) : s'.unretained t w <:+ s.unretained t w := by
  obtain ⟨hs', hflow⟩ := good_step hs h
  rcases eq_or_ne t w with rfl | ht
  · -- The handler is gone: the relay is closed, and nothing goes into its outbox.
    obtain ⟨hne, hnone⟩ := hs.handler_eq_none hd
    have hclosed : ((s.view t).relay t).state = none := by simp [View.relay, hnone]
    cases hflow t with
    | birth h => exact absurd h hne
    | stutter h =>
      have hout : s'.unretained t t = s.unretained t t := congrArg Relay.outbox h
      rw [hout]
    | step a h => exact Relay.closed_outbox hclosed h
  · rw [hs'.unretained_eq_nil ht]
    exact List.nil_suffix

end Posted

/-! ## Running -/

theorem Life.agents {v : View} {h : SimpleHttpHandler} (hlife : Life env g v)
    (hh : v.handler = some h) {c : ℤ} {a : Agent} (ha : h.connectionToClient.lookup c = some a) :
    a = ⟨g, some g, c⟩ := by
  have hwaiting : ∀ alive, waiting g alive = some h → a = ⟨g, some g, c⟩ := by
    intro alive hw
    rw [(waiting_eq_some.1 hw).2] at ha
    cases ha
  cases hlife with
  | unborn => cases hh
  | live howns => cases hh; exact howns.agents c a ha
  | _ => exact hwaiting _ hh

/-- A task bound to the wrapper, at the front of the queue, finds it alive. -/
theorem Life.alive {v : View} (hlife : Life env g v) {task : ServerTask} {queue : List ServerTask}
    (hq : v.server.queue = task :: queue) (htask : task.IsUnretained g) :
    v.server.serverWrapper.isSome ∧ .serverWrapper g ∉ v.deleted.map Prod.fst := by
  cases hlife with
  | pending =>
    obtain ⟨rfl, -⟩ := List.cons.inj hq
    cases htask
  | live => exact ⟨rfl, by simp⟩
  | condemned alive halive hw ht hc =>
    simp only [serverOf_queue] at hq
    subst hq
    cases hc.pop with
    | unretained hsome _ hdel => exact ⟨hsome, hdel⟩
    | deleteServerWrapper h => subst h; cases htask
    | deleteSocketFactory h => subst h; cases htask
  | _ => cases hq

/-- The raw pointers to the wrappers are safe in every reachable state. -/
theorem wrapper_safe (hs : (machine env).Reachable s) (w : Gen) : WrapperSafe env s w := by
  have hgood := good_of_reachable hs
  refine ⟨hgood.fault, fun t => (hgood.life t).pairwise, fun hd as s' h => ?_,
    fun hd h hh c a ha => ?_, fun t task queue hq htask => ?_⟩
  · refine hs.run_invariant (P := fun s' => s'.DeletePosted w ∧
      ∀ t, s'.unretained t w <:+ s.unretained t w) ?_ ⟨hd, fun t => List.suffix_rfl⟩ h
    rintro s₁ a s₂ hs₁ ⟨hd₁, hsuffix⟩ h
    have hgood₁ := good_of_reachable hs₁
    exact ⟨deletePosted_step hgood₁ h hd₁,
      fun t => (unretained_step hgood₁ h hd₁ t).trans (hsuffix t)⟩
  · -- An agent lives with its handler, which is gone.
    rintro hw
    have hview : (s.view h.id).handler = some h := State.view_handler_eq_some.2 ⟨hh, rfl⟩
    obtain rfl := (hgood.life h.id).agents hview ha
    obtain rfl : h.id = w := Option.some.inj hw
    rw [(hgood.handler_eq_none hd).2] at hview
    cases hview
  · obtain rfl : w = t := htask.eq ((hgood.life t).isOf task (hq ▸ List.mem_cons_self))
    rw [State.isDeleted_iff]
    exact (hgood.life w).alive hq htask

/-- A client has upgraded and sent a message when the server is stopped. -/
theorem wrapper_safe_stopped :
    let s := (machine localEnv).after
      (startUp 0 ⟨bytes "127.0.0.1", 3101⟩ ++ chat 0 1 (bytes "hi") ++ [.stop, .terminate])
    (s.server 0).queue = [.acceptWebSocket (some 0) 1 pageRequest,
      .sendOverWebSocket (some 0) 1 (bytes "[1] OnMessage(hi)"), .deleteServerWrapper 0] ∧
    WrapperSafe localEnv s 0 :=
  ⟨by decide, wrapper_safe (Machine.reachable_after _) 0⟩

end Qlabs.Http
