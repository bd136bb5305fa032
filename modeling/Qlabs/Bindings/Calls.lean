import Qlabs.Bindings.Delivery

/-!
# What becomes of a call

Where both ends of an interface are in the hands of `bindings.js`, on a little-endian host,
a handler gets the calls of the page, each once and in their order, and a promise is resolved
with what the handler of its own call has answered, as far as the remote end knows of it
(`interface_correct`).

If the page leaves it at that, what is going on comes to an end, and every promise has been
settled then, unless its handler has thrown, or has returned null (`interface_settles`).
-/

namespace Qlabs.Bindings

variable {spec : InterfaceSpec} {s s' : Interface}

/-- The interface, where what is sent is of its type, and no id is given twice at a time. -/
noncomputable def properInterface (spec : InterfaceSpec) : Machine Interface Interface.Action :=
  (interface true spec).restrict fun s => s.Ok true spec

theorem step_proper {a : Interface.Action} :
    (properInterface spec).step s a = some s' ↔ s.Ok true spec a ∧ s.step true spec a = some s' :=
  Machine.step_restrict

theorem interface_inv (hs : (properInterface spec).Reachable s) : s.Inv spec :=
  hs.invariant (P := fun s => s.Inv spec) inv_initial fun _ _ _ _ h hstep =>
    inv_step_of_ok h (step_proper.1 hstep).1 (step_proper.1 hstep).2

/-! ## The interface of one method -/

/-- The page calls `execute`, and its handler answers. -/
def executeRun : List Interface.Action :=
  [.call 0 [textVal "a"], .dispatch .promise, .settle 0 (some (.object [("result", textVal "b")])),
    .read]

theorem ok_execute {x : Text} {w : List UInt16} (hlength : (x.encode w).length < 2 ^ 32)
    (hfresh : ∀ d ∈ s.remote.pending, d.requestId ≠ s.remote.nextId) :
    s.Ok true (echoInterface x) (.call 0 [.string w]) := by
  intro m hm
  obtain rfl := Option.some.inj hm
  exact ⟨accepts_string _ request_ne hlength, fun _ _ _ => hfresh⟩

/-- The tasks of an echo are to answer `execute`. -/
theorem ok_answer {x : Text} (h : s.Inv (echoInterface x)) {i : ℕ} {w : List UInt16}
    (hlength : (x.encode w).length < 2 ^ 32) :
    s.Ok true (echoInterface x) (.settle i (some (.object [("result", .string w)]))) := by
  intro t ht
  obtain ⟨y, hy, hto⟩ := h.dispatched.task t (List.mem_of_getElem? ht)
  have hmethod := List.mem_singleton.1 (h.requests.carried y (List.mem_of_getElem? hy)).method
  have hresponse := hto.response
  rw [hmethod, Option.some_inj] at hresponse
  rw [← hresponse]
  exact accepts_string _ result_ne hlength

theorem steps_executeRun : (interface true (echoInterface asciiText)).Steps
    (fun s => s.Ok true (echoInterface asciiText)) {} executeRun := by
  have hcall : Interface.Ok true {} (echoInterface asciiText) (.call 0 [textVal "a"]) :=
    ok_execute (by decide) fun _ hd => absurd hd List.not_mem_nil
  intro s₁ h₁
  refine ⟨hcall, fun s₂ h₂ => ⟨trivial, fun s₃ h₃ => ⟨?_, fun _ _ => ⟨trivial, trivial⟩⟩⟩⟩
  have hdispatch := inv_step_of_ok (inv_step_of_ok inv_initial hcall h₁)
    (a := .dispatch .promise) trivial h₂
  exact ok_answer hdispatch (by decide)

/-! ## Answers -/

/-- What the page may rely on. -/
structure Interface.Correct (s : Interface) : Prop where
  /-- The handlers are called with what the page has sent, each time once, and in order. -/
  invoked : s.receiver.invoked.map Prod.fst = (s.sent.take s.receiver.read).map Sent.invocation
  /-- No request is answered twice. -/
  answers : (s.receiver.answers.map Answer.request).Nodup
  /-- A request with a promise is that of the call that has made it. -/
  call : ∀ x ∈ s.sent, ∀ p, x.promise = some p →
    ∃ call, s.remote.calls[p]? = some call ∧ x.Requests call
  /-- There is no other request with that promise. -/
  promise : ∀ (i j : ℕ) x y p, s.sent[i]? = some x → s.sent[j]? = some y →
    x.promise = some p → y.promise = some p → i = j
  /-- A promise is resolved with the answer to its request. -/
  resolved : ∀ p v, (p, .resolved v) ∈ s.remote.settlements →
    ResolvedBy s.sent s.receiver.answers p v
  /-- It is rejected only if the request has not been sent, or the pipe was given up. -/
  rejected : ∀ p message, (p, .rejected message) ∈ s.remote.settlements →
    (∃ call, s.remote.calls[p]? = some call ∧ call.requestId = none) ∨ s.remote.started = false
  /-- The pipe is given up only when an end of it has been closed. -/
  stopped : s.remote.started = false → s.remote.bound = false ∨ s.receiver.started = false

theorem interface_correct (hs : (properInterface spec).Reachable s) : s.Correct := by
  have h := interface_inv hs
  exact {
    invoked := h.dispatched.invoked
    answers := (List.nodup_append.1 h.dispatched.ledger.nodup).2.1
    call := h.requests.call
    promise := fun _ _ _ _ _ hi hj => h.requests.index_eq hi hj
    resolved := h.resolved
    rejected := h.rejected
    stopped := h.stopped }

/-- The answer to the one call resolves its promise. -/
theorem interface_correct_execute :
    let s := (interface true (echoInterface asciiText)).after executeRun
    s.remote.settlements.map Prod.fst = [0] ∧ s.receiver.answers.map Answer.request = [0] ∧
      s.Correct :=
  ⟨by decide +kernel, by decide +kernel,
    interface_correct (Machine.reachable_restrict steps_executeRun (by decide +kernel))⟩

/-! ## Rest -/

namespace Interface

/-- What happens without the page. -/
def Internal : Action → Prop
  | .call _ _ | .close | .closeBindings => False
  | _ => True

/-- What is still to be done. -/
def rank (s : Interface) : ℕ :=
  3 * (s.remote.written.length - s.receiver.read) + 2 * s.receiver.tasks.length +
    s.remote.inbox.length + s.remote.started.toNat + s.receiver.started.toNat

/-- The handler that was called for the promise has thrown, or has returned null. -/
def Failed (s : Interface) (p : ℕ) : Prop :=
  ∃ (j : ℕ) (x : Sent) (o : Invocation × Returned), s.sent[j]? = some x ∧ x.promise = some p ∧
    s.receiver.invoked[j]? = some o ∧ o.2.Fails

/-- Every promise has been settled, but for those whose handlers have failed. -/
def Settled (s : Interface) : Prop :=
  ∀ p < s.remote.calls.length, p ∈ s.remote.settlements.map Prod.fst ∨ s.Failed p

end Interface

/-- A message that is read calls one handler at most, unless it is answered at once. -/
theorem onRead_rank (spec : InterfaceSpec) (c : Receiver) (m : Buffer) (returned : Returned) :
    (c.onRead true spec m returned).1.read = c.read + 1 ∧
      2 * (c.onRead true spec m returned).1.tasks.length +
        (c.onRead true spec m returned).2.toList.length ≤ 2 * c.tasks.length + 2 ∧
      (c.onRead true spec m returned).1.started.toNat ≤ c.started.toNat := by
  simp only [Receiver.onRead, Receiver.onMessage]
  repeat' split
  all_goals simp [Receiver.onError]
  all_goals omega

/-- Whatever happens without the page, there is less to be done. -/
theorem rank_lt (hs : s.Inv spec) {a : Interface.Action} (ha : Interface.Internal a)
    (h : s.step true spec a = some s') : s'.rank < s.rank := by
  cases a with
  | call | close | closeBindings => exact ha.elim
  | read =>
    obtain ⟨r, hr, rfl⟩ := Option.map_eq_some_iff.1 h
    rw [Remote.step] at hr
    cases hinbox : s.remote.inbox with
    | nil => simp [hinbox] at hr
    | cons m inbox =>
      simp only [hinbox] at hr
      split_ifs at hr with hstarted
      obtain ⟨a, x, p, q, -, rfl, hx, hto, -, -, hd⟩ := exists_answer hs hstarted hinbox
      have hread := onRead_answer (r := { s.remote with
        inbox := inbox, received := s.remote.received ++ [a.message] })
        (inv_of_reachable hs.reachable).ids hto (hs.requests.carried x (List.mem_of_getElem? hx)) hd
      rw [hread, Option.some_inj] at hr
      simp only [Interface.rank, ← hr, hinbox, List.length_cons]
      omega
  | disconnect =>
    obtain ⟨r, hr, rfl⟩ := Option.map_eq_some_iff.1 h
    rw [Remote.step] at hr
    split_ifs at hr with hguard
    obtain rfl := Option.some.inj hr
    simp only [Interface.rank, Remote.onError, Remote.rejectAll, hguard.1, Bool.toNat_true,
      Bool.toNat_false]
    omega
  | dispatch returned =>
    rw [Interface.step] at h
    cases hm : s.remote.written[s.receiver.read]? with
    | none => simp [hm] at h
    | some m =>
      simp only [hm] at h
      split_ifs at h
      obtain rfl := Option.some.inj h
      have hlt := (List.getElem?_eq_some_iff.1 hm).1
      obtain ⟨hread, htasks, hstarted⟩ := onRead_rank spec s.receiver m returned
      simp only [Interface.rank, Interface.update, hread, List.length_append]
      omega
  | hangUp =>
    rw [Interface.step] at h
    split_ifs at h with hguard
    obtain rfl := Option.some.inj h
    simp only [Interface.rank, Interface.update, Receiver.onError, hguard.1, Bool.toNat_true,
      Bool.toNat_false, Option.toList_none, List.append_nil]
    omega
  | settle i value =>
    obtain ⟨⟨c, m⟩, hsettle, rfl⟩ := Option.map_eq_some_iff.1 h
    obtain ⟨t, ht, hcases⟩ := settle_cases hsettle
    have hi := (List.getElem?_eq_some_iff.1 ht).1
    have hlength := List.length_eraseIdx_of_lt hi
    rcases hcases with ⟨errors, rfl, rfl⟩ | ⟨g, message, rfl, hstarted, hencode, rfl, rfl⟩
    · simp only [Interface.rank, Interface.update, hlength, Bool.toNat_false, Option.toList_none,
        List.append_nil]
      omega
    · simp only [Interface.rank, Interface.update, hlength, Option.toList_some, List.length_append,
        List.length_singleton]
      omega

/-- When all has come to rest, no promise is pending but those whose handlers have failed. -/
theorem settled_of_stuck (h : s.Inv spec)
    (hstuck : (properInterface spec).Stuck Interface.Internal s) : s.Settled := by
  -- No action is possible that keeps to what is proper.
  have hnone : ∀ {a s'}, Interface.Internal a → s.Ok true spec a → s.step true spec a ≠ some s' :=
    fun {a s'} ha hok hstep => by
      have hrestrict := step_proper.2 ⟨hok, hstep⟩
      rw [hstuck _ ha] at hrestrict
      cases hrestrict
  refine fun p hp => (h.accounted p hp).symm.imp_right fun hpending => ?_
  obtain ⟨d, hd, rfl⟩ := List.mem_map.1 hpending
  obtain ⟨j, x, hx, hwaits, hnot⟩ := h.waiting.request d hd
  have hstarted : s.remote.started = true := by
    by_contra hstopped
    have hempty : s.remote.pending = [] :=
      (inv_of_reachable h.reachable).stopped (Bool.eq_false_of_not_eq_true hstopped) h.unbound
    rw [hempty] at hd
    cases hd
  have hinbox : s.remote.inbox = [] := by
    by_contra hne
    obtain ⟨m, inbox, hinbox⟩ := List.exists_cons_of_ne_nil hne
    exact hnone (a := .read) trivial trivial
      (by simp only [Interface.step, Remote.step, hinbox, hstarted]; rfl)
  -- All answers have been read, and this one is not among them.
  have hanswered : j ∉ s.receiver.answers.map Answer.request := by
    have hmessages := congrArg List.length h.responses.messages
    rw [hinbox, List.append_nil, List.length_map] at hmessages
    rwa [Interface.answered, hmessages, List.take_length] at hnot
  have hreceiver : s.receiver.started = true := by
    by_contra hstopped
    have hclosed := h.peerClosed
    rw [Bool.not_eq_true] at hstopped
    rw [hstopped] at hclosed
    exact hnone (a := .disconnect) trivial trivial
      (by simp only [Interface.step, Remote.step, hinbox, hstarted, hclosed]; rfl)
  have hread : s.receiver.read = s.sent.length := by
    by_contra hne
    have hlt : s.receiver.read < s.sent.length := lt_of_le_of_ne h.dispatched.read_le hne
    have hget : s.remote.written[s.receiver.read]? = some s.sent[s.receiver.read].message := by
      rw [h.requests.written, List.getElem?_map, List.getElem?_eq_getElem hlt]
      rfl
    exact hnone (a := .dispatch .threw) trivial trivial
      (by simp only [Interface.step, hget, hreceiver]; rfl)
  have htasks : s.receiver.tasks = [] := by
    by_contra hne
    obtain ⟨t, tasks, htasks⟩ := List.exists_cons_of_ne_nil hne
    exact hnone (a := .settle 0 none) trivial trivial
      (by simp only [Interface.step, Receiver.settle, htasks]; rfl)
  have hj : j < s.receiver.invoked.length := by
    rw [h.dispatched.length_invoked, hread]
    exact (List.getElem?_eq_some_iff.1 hx).1
  have hresponse : x.method.response.isSome = true := by
    have hsome := congrArg Option.isSome hwaits.response
    rwa [Option.isSome_map] at hsome
  refine ⟨j, x, _, hx, hwaits.promise, List.getElem?_eq_getElem hj, ?_⟩
  by_contra hfails
  have hmem := h.dispatched.settled hreceiver j x _ hx hresponse (List.getElem?_eq_getElem hj)
    hfails
  rw [Receiver.ledger, htasks] at hmem
  exact hanswered hmem

/-- If the page leaves it at that, what is going on comes to an end, after no more steps than
    there are things to do; then every promise has been settled, unless its handler has thrown, or
    has returned null. -/
theorem interface_settles (hs : (properInterface spec).Reachable s) :
    (properInterface spec).Leads Interface.Internal s.rank Interface.Settled s :=
  Machine.leads_of_rank (Q := fun _ => True)
    (fun _ _ _ hs ha h => rank_lt (interface_inv hs) ha (step_proper.1 h).2)
    (fun _ _ _ _ _ _ _ => trivial) (fun _ hs _ hstuck => settled_of_stuck (interface_inv hs) hstuck)
    hs trivial

/-- After the page has called, there are five things to do: the request is read, and answered, the
    answer is read, and both ends may still be closed. -/
theorem interface_settles_execute :
    (properInterface (echoInterface asciiText)).Leads Interface.Internal 5 Interface.Settled
      ((interface true (echoInterface asciiText)).after [.call 0 [textVal "a"]]) := by
  have hsteps : (interface true (echoInterface asciiText)).Steps
      (fun s => s.Ok true (echoInterface asciiText)) {} [.call 0 [textVal "a"]] := fun _ _ =>
    ⟨ok_execute (by decide) fun _ hd => absurd hd List.not_mem_nil, trivial⟩
  have hrank : ((interface true (echoInterface asciiText)).after
      [.call 0 [textVal "a"]]).rank = 5 := by decide +kernel
  rw [← hrank]
  exact interface_settles (Machine.reachable_restrict hsteps (by decide +kernel))

end Qlabs.Bindings
