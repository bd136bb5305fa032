import Qlabs.Bindings.Interface

/-!
# Both ends agree

Where both ends of an interface are in the hands of `bindings.js`, on a little-endian host,
what each end holds goes together with what the other one does. The invariant is of four
parts: what has been sent (`Requests`), what the receiver has made of it (`Dispatched`), the
answers (`Responses`), and what the remote end waits for (`Waiting`).

Any step keeps it (`inv_step_of_ok`), as long as messages are of their types, and no request
gets the id of a pending one (`Interface.Ok`).
-/

namespace Qlabs.Bindings

/-! ## The invariant -/

namespace Sent

variable (x : Sent)

/-- The header of the message, as it is read. -/
def header : Header :=
  if x.method.response.isSome then ⟨32, 1, 0, x.method.ordinal, 1, x.requestId⟩
  else ⟨24, 0, 0, x.method.ordinal, 0, 0⟩

/-- What the message carries, as the receiver knows of it. -/
def params : Val := x.method.params.codec.norm (argsObject x.method.params.sent x.args)

/-- The call of the handler. -/
def invocation : Invocation :=
  ⟨x.method.ordinal, x.method.params.received.fields.map fun g => x.params.property g.name⟩

/-- The message carries a call of a method. -/
structure Carried (spec : InterfaceSpec) : Prop where
  method : x.method ∈ spec.methods
  promise : x.promise.isSome = x.method.response.isSome
  requestId_lt : x.requestId < 2 ^ 32
  received : Received true x.method.params.received x.message x.header x.params

/-- It is the request of the call. -/
structure Requests (call : Call) : Prop where
  ordinal : call.ordinal = x.method.ordinal
  params : call.params = x.method.params.sent
  response : x.method.response.map Payload.received = some call.response
  args : call.args = x.args
  requestId : call.requestId = some x.requestId

/-- It is the request of a pending promise. -/
structure Waits (d : Pending) : Prop where
  promise : x.promise = some d.promise
  ordinal : d.ordinal = x.method.ordinal
  response : x.method.response.map Payload.received = some d.response
  requestId : d.requestId = x.requestId

end Sent

/-- The task is to answer the request. -/
structure Task.To (t : Task) (x : Sent) : Prop where
  ordinal : t.ordinal = x.method.ordinal
  requestId : t.requestId = x.requestId
  response : x.method.response = some t.response

/-- The answer is one to the request. -/
structure Answer.To (a : Answer) (x : Sent) (p : Payload) : Prop where
  response : x.method.response = some p
  received : Received true p.received a.message ⟨32, 1, 0, x.method.ordinal, 2, x.requestId⟩
    (p.codec.norm a.value)

/-- What the page has sent. -/
structure Requests (spec : InterfaceSpec) (calls : List Call) (written : List Buffer)
    (sent : List Sent) : Prop where
  written : written = sent.map Sent.message
  carried : ∀ x ∈ sent, x.Carried spec
  call : ∀ x ∈ sent, ∀ p, x.promise = some p → ∃ call, calls[p]? = some call ∧ x.Requests call
  increasing : sent.Pairwise fun x y => ∀ p q, x.promise = some p → y.promise = some q → p < q

/-- The ledger of the requests. -/
def Receiver.ledger (c : Receiver) : Ledger :=
  ⟨c.read, c.tasks.map Task.request ++ c.answers.map Answer.request⟩

/-- What the receiver has made of it. -/
structure Dispatched (sent : List Sent) (c : Receiver) : Prop where
  read_le : c.read ≤ sent.length
  invoked : c.invoked.map Prod.fst = (sent.take c.read).map Sent.invocation
  ledger : c.ledger.Inv
  task : ∀ t ∈ c.tasks, ∃ x, sent[t.request]? = some x ∧ t.To x
  settled : c.started = true → ∀ j x o, sent[j]? = some x → x.method.response.isSome = true →
    c.invoked[j]? = some o → ¬o.2.Fails → j ∈ c.ledger.entries

/-- The answers, and what the remote end has got of them. -/
structure Responses (sent : List Sent) (answers : List Answer) (messages : List Buffer) : Prop where
  messages : messages = answers.map Answer.message
  answer : ∀ a ∈ answers, ∃ x p, sent[a.request]? = some x ∧ a.To x p

/-- What the remote end waits for. -/
structure Waiting (sent : List Sent) (answered : List ℕ) (started : Bool)
    (pending : List Pending) : Prop where
  request : ∀ d ∈ pending, ∃ j x, sent[j]? = some x ∧ x.Waits d ∧ j ∉ answered
  pending : started = true → ∀ j x d, sent[j]? = some x → x.Waits d → j ∉ answered → d ∈ pending

/-- The promise was resolved with the answer to its request. -/
def ResolvedBy (sent : List Sent) (answers : List Answer) (p : ℕ) (v : Val) : Prop :=
  ∃ a ∈ answers, ∃ x q, sent[a.request]? = some x ∧ x.promise = some p ∧
    x.method.response = some q ∧ v = q.codec.norm a.value

namespace Interface

variable (s : Interface)

/-- The requests whose answers the remote end has got. -/
def answered : List ℕ := (s.receiver.answers.take s.remote.received.length).map Answer.request

/-- What holds at any time. -/
structure Inv (spec : InterfaceSpec) : Prop where
  reachable : (Bindings.remote true).Reachable s.remote
  accounted : s.remote.Accounted
  peerClosed : s.remote.peerClosed = !s.receiver.started
  unbound : s.remote.unbound = false
  stopped : s.remote.started = false → s.remote.bound = false ∨ s.receiver.started = false
  requests : Requests spec s.remote.calls s.remote.written s.sent
  dispatched : Dispatched s.sent s.receiver
  responses : Responses s.sent s.receiver.answers (s.remote.received ++ s.remote.inbox)
  waiting : Waiting s.sent s.answered s.remote.started s.remote.pending
  resolved : ∀ p v, (p, .resolved v) ∈ s.remote.settlements →
    ResolvedBy s.sent s.receiver.answers p v
  rejected : ∀ p message, (p, .rejected message) ∈ s.remote.settlements →
    (∃ call, s.remote.calls[p]? = some call ∧ call.requestId = none) ∨ s.remote.started = false

end Interface

variable {spec : InterfaceSpec} {x : Sent} {sent : List Sent}

/-! ## Sending -/

/-- It is the request of one pending promise only. -/
theorem Sent.waits_iff {p : ℕ} {q : Payload} (hp : x.promise = some p)
    (hq : x.method.response = some q) {d : Pending} :
    x.Waits d ↔ d = ⟨x.requestId, x.method.ordinal, q.received, p⟩ := by
  constructor
  · rintro ⟨hpromise, hordinal, hresponse, hrequestId⟩
    rw [hp, Option.some_inj] at hpromise
    rw [hq, Option.map_some, Option.some_inj] at hresponse
    rw [← hrequestId, ← hordinal, hresponse, hpromise]
  · rintro rfl
    exact ⟨hp, rfl, by rw [hq]; rfl, rfl⟩

theorem Requests.append {calls : List Call} {written : List Buffer}
    (h : Requests spec calls written sent) (calls' : List Call) :
    Requests spec (calls ++ calls') written sent where
  written := h.written
  carried := h.carried
  call y hy p hp := by
    obtain ⟨call, hcall, hrequests⟩ := h.call y hy p hp
    exact ⟨call, getElem?_append_of_some hcall calls', hrequests⟩
  increasing := h.increasing

/-- A message is sent, and its promise is the next one. -/
theorem Requests.send {calls : List Call} {written : List Buffer}
    (h : Requests spec calls written sent) (hx : x.Carried spec) (calls' : List Call)
    (hcall : ∀ p, x.promise = some p →
      p = calls.length ∧ ∃ call, calls' = [call] ∧ x.Requests call) :
    Requests spec (calls ++ calls') (written ++ [x.message]) (sent ++ [x]) where
  written := by rw [h.written, List.map_append, List.map_singleton]
  carried y hy := by
    rcases List.mem_append.1 hy with hy | hy
    · exact h.carried y hy
    · exact List.mem_singleton.1 hy ▸ hx
  call y hy p hp := by
    rcases List.mem_append.1 hy with hy | hy
    · exact (h.append calls').call y hy p hp
    · obtain rfl := List.mem_singleton.1 hy
      obtain ⟨rfl, call, rfl, hrequests⟩ := hcall p hp
      exact ⟨call, List.getElem?_concat_length .., hrequests⟩
  increasing := by
    refine List.pairwise_append.2 ⟨h.increasing, List.pairwise_singleton _ _, ?_⟩
    intro y hy z hz p q hp hq
    obtain rfl := List.mem_singleton.1 hz
    obtain ⟨rfl, -⟩ := hcall q hq
    obtain ⟨call, hcall, -⟩ := h.call y hy p hp
    exact (List.getElem?_eq_some_iff.1 hcall).1

/-- The promises of two requests differ. -/
theorem Requests.index_eq {calls : List Call} {written : List Buffer}
    (h : Requests spec calls written sent) {i j p : ℕ} {y : Sent} (hi : sent[i]? = some x)
    (hj : sent[j]? = some y) (hx : x.promise = some p) (hy : y.promise = some p) : i = j := by
  obtain ⟨hilt, rfl⟩ := List.getElem?_eq_some_iff.1 hi
  obtain ⟨hjlt, rfl⟩ := List.getElem?_eq_some_iff.1 hj
  rcases Nat.lt_trichotomy i j with hlt | heq | hlt
  · exact absurd (List.pairwise_iff_getElem.1 h.increasing i j hilt hjlt hlt p p hx hy)
      (Nat.lt_irrefl p)
  · exact heq
  · exact absurd (List.pairwise_iff_getElem.1 h.increasing j i hjlt hilt hlt p p hy hx)
      (Nat.lt_irrefl p)

theorem Dispatched.length_invoked {c : Receiver} (h : Dispatched sent c) :
    c.invoked.length = c.read := by
  have hlength := congrArg List.length h.invoked
  rw [List.length_map, List.length_map, List.length_take, Nat.min_eq_left h.read_le] at hlength
  exact hlength

theorem Dispatched.append {c : Receiver} (h : Dispatched sent c) (sent' : List Sent) :
    Dispatched (sent ++ sent') c where
  read_le := by
    rw [List.length_append]
    exact h.read_le.trans (Nat.le_add_right _ _)
  invoked := by rw [h.invoked, List.take_append_of_le_length h.read_le]
  ledger := h.ledger
  task t ht := by
    obtain ⟨y, hy, hto⟩ := h.task t ht
    exact ⟨y, getElem?_append_of_some hy sent', hto⟩
  settled hstarted j y o hy hresponse ho := by
    have hj : j < sent.length :=
      ((List.getElem?_eq_some_iff.1 ho).1.trans_eq h.length_invoked).trans_le h.read_le
    exact h.settled hstarted j y o (List.getElem?_append_left hj ▸ hy) hresponse ho

theorem Responses.append {answers : List Answer} {messages : List Buffer}
    (h : Responses sent answers messages) (sent' : List Sent) :
    Responses (sent ++ sent') answers messages where
  messages := h.messages
  answer a ha := by
    obtain ⟨y, p, hy, hto⟩ := h.answer a ha
    exact ⟨y, p, getElem?_append_of_some hy sent', hto⟩

/-- A message is sent, and what it waits for is pending. -/
theorem Waiting.send {answered : List ℕ} {started : Bool} {pending : List Pending}
    (h : Waiting sent answered started pending) (hlt : ∀ j ∈ answered, j < sent.length)
    (pending' : List Pending) (hx : ∀ d, x.Waits d ↔ d ∈ pending') :
    Waiting (sent ++ [x]) answered started (pending ++ pending') where
  request d hd := by
    rcases List.mem_append.1 hd with hd | hd
    · obtain ⟨j, y, hy, hwaits⟩ := h.request d hd
      exact ⟨j, y, getElem?_append_of_some hy _, hwaits⟩
    · exact ⟨sent.length, x, List.getElem?_concat_length .., (hx d).2 hd,
        fun hmem => Nat.lt_irrefl _ (hlt _ hmem)⟩
  pending hstarted j y d hy hwaits hj := by
    rcases Nat.lt_trichotomy j sent.length with hjlt | rfl | hjlt
    · rw [List.getElem?_append_left hjlt] at hy
      exact List.mem_append_left _ (h.pending hstarted j y d hy hwaits hj)
    · rw [List.getElem?_concat_length, Option.some_inj] at hy
      exact List.mem_append_right _ ((hx d).1 (hy ▸ hwaits))
    · have hlength : j < (sent ++ [x]).length := (List.getElem?_eq_some_iff.1 hy).1
      rw [List.length_append, List.length_singleton] at hlength
      omega

theorem ResolvedBy.append {answers : List Answer} {p : ℕ} {v : Val}
    (h : ResolvedBy sent answers p v) (sent' : List Sent) (answers' : List Answer) :
    ResolvedBy (sent ++ sent') (answers ++ answers') p v := by
  obtain ⟨a, ha, y, q, hy, hrest⟩ := h
  exact ⟨a, List.mem_append_left _ ha, y, q, getElem?_append_of_some hy sent', hrest⟩

variable {s s' : Interface}

/-- A message that is encoded carries the call. -/
theorem carried_of_encodeMessage {m : Method} (hm : m ∈ spec.methods) {args : List Val}
    (haccepts : m.params.Accepts true (argsObject m.params.sent args)) {requestId : ℕ}
    (hid : requestId < 2 ^ 32) {message : Buffer} (promise : Option ℕ)
    (hpromise : promise.isSome = m.response.isSome)
    (hencode : encodeMessage true 0 (if m.response.isSome then 1 else 0) m.ordinal requestId
      m.params.sent (argsObject m.params.sent args) = .ok message) :
    Sent.Carried ⟨m, args, requestId, promise, message⟩ spec where
  method := hm
  promise := hpromise
  requestId_lt := hid
  received := by
    obtain ⟨hvalid, hsmall⟩ := haccepts _ _ _ _ hencode
    have hordinal : m.ordinal < 2 ^ 32 := (spec.ordinal_lt m hm).trans (by decide)
    have hfits : ∀ flags < 2 ^ 32, (newHeader 0 flags m.ordinal requestId).Fits :=
      fun flags hflags => by
        rw [newHeader]
        split_ifs <;> exact ⟨Nat.two_pow_pos 32, hordinal, hflags, hid⟩
    cases hresponse : m.response.isSome <;>
      simp only [hresponse, Sent.header, if_true, if_false, Bool.false_eq_true] at hencode ⊢ <;>
      exact received_of_encodeMessage (k := true) m.params.codec hvalid (hfits _ (by decide))
        hsmall hencode

theorem Interface.Inv.step_remote (h : s.Inv spec) {a : Remote.Action} {r : Remote}
    (hstep : s.remote.step true a = some r) (hkeeps : s.remote.Keeps true a) :
    (Bindings.remote true).Reachable r ∧ r.Accounted :=
  ⟨h.reachable.step (a := a) hstep,
    (accounted_step (inv_of_reachable h.reachable) h.accounted hstep).2 hkeeps⟩

theorem inv_call (h : s.Inv spec) {m : Method} (hm : m ∈ spec.methods) {args : List Val}
    (haccepts : m.params.Accepts true (argsObject m.params.sent args))
    (hkeeps : s.remote.Keeps true (.sendMessage m.ordinal m.params.sent
      (m.response.map Payload.received) args)) : (s.call true m args).Inv spec := by
  obtain ⟨hreach, hacc⟩ := h.step_remote (a := .sendMessage m.ordinal m.params.sent
      (m.response.map Payload.received) args) rfl hkeeps
  have hid := s.remote.nextId_lt
  have hlt : ∀ j ∈ s.answered, j < s.sent.length := fun j hj => by
    obtain ⟨a, ha, rfl⟩ := List.mem_map.1 hj
    obtain ⟨y, p, hy, -⟩ := h.responses.answer a (List.mem_of_mem_take ha)
    exact (List.getElem?_eq_some_iff.1 hy).1
  rw [Interface.call]
  generalize hr : s.remote.sendMessage true m.ordinal m.params.sent
    (m.response.map Payload.received) args = r at hreach hacc ⊢
  rcases sendMessage_cases _ _ _ _ _ hr with ⟨-, rfl⟩ | ⟨-, rfl⟩ |
    ⟨response, message, hresponse, -, rfl⟩ | ⟨message, hresponse, hencode, rfl⟩ |
      ⟨message, response, hresponse, hbound, hstarted, hencode, rfl⟩
  · simp only [List.drop_length, List.map_nil, List.append_nil]
    exact h
  · simp only [Remote.takeId, List.drop_length, List.map_nil, List.append_nil]
    exact ⟨hreach, hacc, h.peerClosed, h.unbound, h.stopped, h.requests, h.dispatched, h.responses,
      h.waiting, h.resolved, h.rejected⟩
  · simp only [Remote.settle, List.drop_length, List.map_nil, List.append_nil]
    refine ⟨hreach, hacc, h.peerClosed, h.unbound, h.stopped, h.requests.append _, h.dispatched,
      h.responses, h.waiting, fun p v hp => ?_, fun p message hp => ?_⟩
    · rcases List.mem_append.1 hp with hp | hp
      · exact h.resolved p v hp
      · cases List.mem_singleton.1 hp
    · rcases List.mem_append.1 hp with hp | hp
      · rcases h.rejected p message hp with ⟨call, hcall, hnone⟩ | hstopped
        · exact .inl ⟨call, getElem?_append_of_some hcall _, hnone⟩
        · exact .inr hstopped
      · cases List.mem_singleton.1 hp
        exact .inl ⟨_, List.getElem?_concat_length .., rfl⟩
  · have hnone : m.response = none := by simpa using hresponse
    have hcarried := carried_of_encodeMessage hm haccepts hid none (by simp [hnone])
      (by simpa [hnone] using hencode)
    simp only [Remote.takeId, List.drop_left, hnone, Option.map_none, List.map_singleton]
    have hrequests := h.requests.send hcarried [] fun p hp => by cases hp
    have hwaiting := h.waiting.send hlt [] (x := ⟨m, args, s.remote.nextId, none, message⟩)
      fun d => iff_of_false (fun hd => by cases hd.promise) List.not_mem_nil
    rw [List.append_nil] at hrequests hwaiting
    refine ⟨hreach, hacc, h.peerClosed, h.unbound, h.stopped, hrequests, h.dispatched.append _,
      h.responses.append _, hwaiting, fun p v hp => ?_, h.rejected⟩
    simpa using (h.resolved p v hp).append _ []
  · obtain ⟨q, hq, rfl⟩ := Option.map_eq_some_iff.1 hresponse
    have hcarried := carried_of_encodeMessage hm haccepts hid (some s.remote.calls.length)
      (by simp [hq]) (by simpa [hq] using hencode)
    have hfresh : ∀ d ∈ s.remote.pending, d.requestId ≠ s.remote.nextId := by
      rw [hresponse] at hkeeps
      exact hkeeps hbound hstarted ⟨message, hencode⟩
    have hset : setPending ⟨s.remote.nextId, m.ordinal, q.received, s.remote.calls.length⟩
        s.remote.pending = _ := setPending_of_fresh hfresh
    simp only [Remote.takeId, hset] at hreach hacc
    simp only [Remote.takeId, hset, List.drop_left, hq, Option.map_some, List.map_singleton]
    have hrequests := h.requests.send hcarried
      [⟨m.ordinal, m.params.sent, q.received, args, some s.remote.nextId⟩] fun p hp =>
        ⟨(Option.some.inj hp).symm, _, rfl, rfl, rfl, by rw [hq]; rfl, rfl, rfl⟩
    have hwaiting := h.waiting.send hlt
      [⟨s.remote.nextId, m.ordinal, q.received, s.remote.calls.length⟩]
      (x := ⟨m, args, s.remote.nextId, some s.remote.calls.length, message⟩) fun d =>
        (Sent.waits_iff rfl hq).trans List.mem_singleton.symm
    refine ⟨hreach, hacc, h.peerClosed, h.unbound, h.stopped, hrequests, h.dispatched.append _,
      h.responses.append _, hwaiting, fun p v hp => ?_, fun p message hp => ?_⟩
    · simpa using (h.resolved p v hp).append _ []
    · refine (h.rejected p message hp).imp_left ?_
      rintro ⟨call, hcall, hnone⟩
      exact ⟨call, getElem?_append_of_some hcall _, hnone⟩

/-! ## The remote end -/

/-- The remote end gives up the pipe: it is closed, or finds that the receiver has closed. -/
theorem inv_stop (h : s.Inv spec) {message : Option String} {bound : Bool} {errors : ℕ}
    (hstopped : bound = false ∨ s.receiver.started = false)
    (hremote : (remote true).Reachable
        { s.remote.rejectAll message with bound := bound, errors := errors } ∧
      ({ s.remote.rejectAll message with bound := bound, errors := errors } : Remote).Accounted) :
    Interface.Inv { s with
      remote := { s.remote.rejectAll message with bound := bound, errors := errors } } spec where
  reachable := hremote.1
  accounted := hremote.2
  peerClosed := h.peerClosed
  unbound := rfl
  stopped _ := hstopped
  requests := h.requests
  dispatched := h.dispatched
  responses := h.responses
  waiting := ⟨fun _ hd => absurd hd List.not_mem_nil, fun hstarted => by cases hstarted⟩
  resolved p v hp :=
    h.resolved p v ((List.mem_append.1 hp).resolve_right Promises.mem_rejected)
  rejected _ _ _ := .inr rfl

theorem find?_of_nodup {α β : Type*} [DecidableEq β] {f : α → β} {l : List α}
    (h : (l.map f).Nodup) {a : α} (ha : a ∈ l) : l.find? (fun b => f b = f a) = some a := by
  cases hfind : l.find? (fun b => f b = f a) with
  | none => exact absurd (decide_eq_true rfl) (List.find?_eq_none.1 hfind a ha)
  | some b =>
    have hb : f b = f a := by simpa using List.find?_some hfind
    rw [List.inj_on_of_nodup_map h (List.mem_of_find?_eq_some hfind) ha hb]

/-- The next message to the remote end is an answer that it waits for. -/
theorem exists_answer (h : s.Inv spec) (hstarted : s.remote.started = true) {m : Buffer}
    {inbox : List Buffer} (hinbox : s.remote.inbox = m :: inbox) :
    ∃ a x p q, s.receiver.answers[s.remote.received.length]? = some a ∧ a.message = m ∧
      s.sent[a.request]? = some x ∧ a.To x q ∧ x.promise = some p ∧ a.request ∉ s.answered ∧
      ⟨x.requestId, x.method.ordinal, q.received, p⟩ ∈ s.remote.pending := by
  have hmessages := h.responses.messages
  rw [hinbox] at hmessages
  have hget := congrArg (·[s.remote.received.length]?) hmessages
  simp only [List.getElem?_append_right (le_refl _), Nat.sub_self, List.getElem?_cons_zero,
    List.getElem?_map] at hget
  obtain ⟨a, ha, rfl⟩ := Option.map_eq_some_iff.1 hget.symm
  obtain ⟨x, q, hx, hto⟩ := h.responses.answer a (List.mem_of_getElem? ha)
  have hsome : x.promise.isSome = true := by
    rw [(h.requests.carried x (List.mem_of_getElem? hx)).promise, hto.response]
    rfl
  obtain ⟨p, hp⟩ := Option.isSome_iff_exists.1 hsome
  have hnot : a.request ∉ s.answered := fun hmem => by
    obtain ⟨halt, rfl⟩ := List.getElem?_eq_some_iff.1 ha
    have hnodup := (List.nodup_append.1 h.dispatched.ledger.nodup).2.1
    have hsplit : s.receiver.answers.map Answer.request = s.answered ++
        (s.receiver.answers.drop s.remote.received.length).map Answer.request := by
      rw [Interface.answered, ← List.map_append, List.take_append_drop]
    rw [hsplit, List.drop_eq_getElem_cons halt] at hnodup
    exact (List.nodup_append.1 hnodup).2.2 _ hmem _ (List.mem_cons_self ..) rfl
  exact ⟨a, x, p, q, ha, rfl, hx, hto, hp, hnot, h.waiting.pending hstarted _ _ _ hx
    ((Sent.waits_iff hp hto.response).2 rfl) hnot⟩

/-- An answer is for the remote end itself. -/
theorem route_answer {a : Answer} {q : Payload} (hto : a.To x q) (hx : x.Carried spec)
    (control : Option (List ℕ)) : route true control a.message =
      .ok (.message ⟨32, 1, 0, x.method.ordinal, 2, x.requestId⟩) :=
  route_of_header hto.received.1 rfl (spec.ordinal_lt _ hx.method)

/-- An answer that is waited for resolves the promise of its request. -/
theorem onRead_answer {r : Remote} (hids : (r.pending.map Pending.requestId).Nodup) {a : Answer}
    {q : Payload} {p : ℕ} (hto : a.To x q) (hx : x.Carried spec)
    (hd : ⟨x.requestId, x.method.ordinal, q.received, p⟩ ∈ r.pending) :
    r.onRead true a.message = { r with
      pending := r.pending.filter (·.requestId ≠ x.requestId)
      settlements := r.settlements ++ [(p, .resolved (q.codec.norm a.value))] } := by
  have hfind := find?_of_nodup hids hd
  obtain ⟨-, hpayload⟩ := hto.received
  rw [Remote.onRead, route_answer hto hx]
  simp only [Remote.onRouted]
  rw [Remote.onMessage, if_neg (show ¬(2 &&& 2 = 0 ∨ 2 &&& 1 ≠ 0) by decide)]
  simp only at hfind
  simp only [hfind, hpayload, if_true]
  rfl

theorem Waiting.receive {calls : List Call} {written : List Buffer} {answered : List ℕ}
    {started : Bool} {pending : List Pending} (h : Waiting sent answered started pending)
    (hrequests : Requests spec calls written sent)
    (hids : (pending.map Pending.requestId).Nodup) {j : ℕ} {d : Pending}
    (hj : sent[j]? = some x) (hwaits : x.Waits d) (hd : d ∈ pending) :
    Waiting sent (answered ++ [j]) started (pending.filter (·.requestId ≠ d.requestId)) where
  request e he := by
    obtain ⟨he, hne⟩ := List.mem_filter.1 he
    obtain ⟨i, y, hi, hy, hnot⟩ := h.request e he
    refine ⟨i, y, hi, hy, fun hmem => ?_⟩
    rcases List.mem_append.1 hmem with hmem | hmem
    · exact hnot hmem
    · -- It is the request that has just been answered.
      obtain rfl := List.mem_singleton.1 hmem
      obtain rfl := Option.some.inj (hi.symm.trans hj)
      exact of_decide_eq_true hne (hy.requestId.trans hwaits.requestId.symm)
  pending hstarted i y e hi hy hnot := by
    rw [List.mem_append, not_or, List.mem_singleton] at hnot
    have he := h.pending hstarted i y e hi hy hnot.1
    refine List.mem_filter.2 ⟨he, decide_eq_true fun hid => hnot.2 ?_⟩
    obtain rfl := List.inj_on_of_nodup_map hids he hd hid
    exact hrequests.index_eq hi hj hy.promise hwaits.promise

theorem inv_read (h : s.Inv spec) {r : Remote} (hstep : s.remote.step true .read = some r) :
    Interface.Inv { s with remote := r } spec := by
  have hids := (inv_of_reachable h.reachable).ids
  have hremote := h.step_remote hstep
  rw [Remote.step] at hstep
  cases hinbox : s.remote.inbox with
  | nil => simp [hinbox] at hstep
  | cons m inbox =>
    simp only [hinbox] at hstep
    split_ifs at hstep with hguard
    obtain ⟨a, x, p, q, ha, rfl, hx, hto, hp, hnot, hd⟩ := exists_answer h hguard hinbox
    have hcarried := h.requests.carried x (List.mem_of_getElem? hx)
    have hread := onRead_answer (r := { s.remote with
      inbox := inbox, received := s.remote.received ++ [a.message] }) hids hto hcarried hd
    rw [hread, Option.some_inj] at hstep
    have hproper : s.remote.Keeps true .read := by
      intro m hm h' _ e he hresponse hid
      obtain rfl : a.message = m := by simpa [hinbox] using hm
      obtain rfl := Option.some.inj (Except.ok.inj (hto.received.1.symm.trans hresponse.header))
      obtain rfl := List.inj_on_of_nodup_map hids hd he hid
      exact ⟨_, _, hresponse, rfl, rfl, hto.received.2⟩
    obtain ⟨hreach, hacc⟩ := hremote hproper
    have hresponses := h.responses
    rw [hinbox] at hresponses
    subst hstep
    refine ⟨hreach, hacc, h.peerClosed, h.unbound, h.stopped, h.requests, h.dispatched,
      ?_, ?_, ?_, ?_⟩
    · rw [List.append_assoc]
      exact hresponses
    · have hwaiting := h.waiting.receive h.requests hids hx
        ((Sent.waits_iff hp hto.response).2 rfl) hd
      have hanswered : s.answered ++ [a.request] =
          (s.receiver.answers.take (s.remote.received ++ [a.message]).length).map
            Answer.request := by
        rw [List.length_append, List.length_singleton, List.take_add_one, ha, List.map_append]
        rfl
      rw [hanswered] at hwaiting
      exact hwaiting
    · intro p' v hp'
      rcases List.mem_append.1 hp' with hp' | hp'
      · exact h.resolved p' v hp'
      · cases List.mem_singleton.1 hp'
        exact ⟨a, List.mem_of_getElem? ha, x, q, hx, hp, hto.response, rfl⟩
    · intro p' message hp'
      rcases List.mem_append.1 hp' with hp' | hp'
      · exact h.rejected p' message hp'
      · cases List.mem_singleton.1 hp'

/-! ## The receiver -/

/-- What the receiver does to the pipe is what a peer may do. -/
theorem remote_update (h : s.Inv spec) {c : Receiver} {m : Option Buffer}
    (hstarted : c.started = true → s.receiver.started = true)
    (hm : m.isSome = true → c.started = true) :
    (remote true).Reachable (s.update c m).remote := by
  have hpeer := h.peerClosed
  cases m with
  | none =>
    simp only [Interface.update, Option.toList_none, List.append_nil]
    cases hc : c.started with
    | true =>
      rw [hstarted hc] at hpeer
      rw [← hpeer]
      exact h.reachable
    | false =>
      cases hs : s.receiver.started with
      | true =>
        rw [hs] at hpeer
        exact h.reachable.step (a := .peerClose) (by simp [remote, Remote.step, hpeer])
      | false =>
        rw [hs] at hpeer
        rw [← hpeer]
        exact h.reachable
  | some m =>
    rw [hstarted (hm rfl)] at hpeer
    simp only [Interface.update, hm rfl, ← hpeer, Option.toList_some]
    exact h.reachable.step (a := .arrive m) (by simp [remote, Remote.step, hpeer])

theorem inv_update (h : s.Inv spec) {c : Receiver} {m : Option Buffer} {l : List Answer}
    (hstarted : c.started = true → s.receiver.started = true)
    (hanswers : c.answers = s.receiver.answers ++ l)
    (hm : m.isSome = true → c.started = true) (hd : Dispatched s.sent c)
    (hr : Responses s.sent c.answers (s.remote.received ++ s.remote.inbox ++ m.toList)) :
    (s.update c m).Inv spec where
  reachable := remote_update h hstarted hm
  accounted := h.accounted
  peerClosed := rfl
  unbound := h.unbound
  stopped hstopped := (h.stopped hstopped).imp_right fun hs => by
    by_contra hc
    rw [hstarted (Bool.eq_true_of_not_eq_false hc)] at hs
    cases hs
  requests := h.requests
  dispatched := hd
  responses := by rwa [List.append_assoc] at hr
  waiting := by
    have hle : s.remote.received.length ≤ s.receiver.answers.length := by
      have hlength := congrArg List.length h.responses.messages
      rw [List.length_append, List.length_map] at hlength
      omega
    have hanswered : (s.update c m).answered = s.answered := by
      simp only [Interface.answered, Interface.update, hanswers, List.take_append_of_le_length hle]
    rw [hanswered]
    exact h.waiting
  resolved p v hp := by
    have hresolved := (h.resolved p v hp).append [] l
    rw [List.append_nil, ← hanswers] at hresolved
    exact hresolved
  rejected := h.rejected

/-- The receiver closes its end of the pipe. -/
theorem inv_hangUp (h : s.Inv spec) {errors : ℕ} :
    (s.update { s.receiver with started := false, errors := errors } none).Inv spec := by
  refine inv_update h (l := []) (fun hc => by cases hc) (List.append_nil _).symm
    (fun hc => by cases hc) ?_ (by simpa using h.responses)
  exact ⟨h.dispatched.read_le, h.dispatched.invoked, h.dispatched.ledger, h.dispatched.task,
    fun hc => by cases hc⟩

/-- The receiver has read a message. -/
theorem Dispatched.read {c c' : Receiver} (h : Dispatched sent c) (hx : sent[c.read]? = some x)
    {returned : Returned} (hread : c'.read = c.read + 1)
    (hinvoked : c'.invoked = c.invoked ++ [(x.invocation, returned)])
    (hledger : Ledger.Make c.ledger c'.ledger ∨ Ledger.Skip c.ledger c'.ledger)
    (htask : ∀ t ∈ c'.tasks, t ∈ c.tasks ∨ t.request = c.read ∧ t.To x)
    (hsettled : c'.started = true → c.started = true ∧ (x.method.response.isSome = true →
      ¬returned.Fails → c.read ∈ c'.ledger.entries)) : Dispatched sent c' where
  read_le := by
    rw [hread]
    exact (List.getElem?_eq_some_iff.1 hx).1
  invoked := by
    rw [hinvoked, hread, List.map_append, h.invoked, List.take_add_one, hx, List.map_append]
    rfl
  ledger := hledger.elim (·.inv h.ledger) (·.inv h.ledger)
  task t ht := by
    rcases htask t ht with ht | ⟨ht, hto⟩
    · exact h.task t ht
    · exact ⟨x, ht ▸ hx, hto⟩
  settled hstarted j y o hy hresponse ho hfails := by
    obtain ⟨hstarted, hsettled⟩ := hsettled hstarted
    have hold : ∀ i ∈ c.ledger.entries, i ∈ c'.ledger.entries := fun i hi =>
      hledger.elim (fun hl => hl.perm.mem_iff.2 (List.mem_cons_of_mem _ hi))
        fun hl => hl.perm.mem_iff.2 hi
    rw [hinvoked] at ho
    rcases Nat.lt_trichotomy j c.invoked.length with hj | rfl | hj
    · rw [List.getElem?_append_left hj] at ho
      exact hold j (h.settled hstarted j y o hy hresponse ho hfails)
    · rw [List.getElem?_concat_length, Option.some_inj] at ho
      rw [h.length_invoked, hx, Option.some_inj] at hy
      rw [h.length_invoked]
      exact hsettled (hy ▸ hresponse) (by rwa [← ho] at hfails)
    · have hlength := (List.getElem?_eq_some_iff.1 ho).1
      rw [List.length_append, List.length_singleton] at hlength
      omega

/-- The receiver calls the handler of the method. -/
theorem onRead_request (hx : x.Carried spec) (c : Receiver) (returned : Returned) :
    c.onRead true spec x.message returned =
      let c' := { c with invoked := c.invoked ++ [(x.invocation, returned)], read := c.read + 1 }
      (match returned, x.method.response with
      | .threw, _ => c'
      | _, none => c'
      | .undefined, some _ => c'.onError
      | .null, some _ => c'
      | .promise, some response =>
        { c' with tasks := c.tasks ++ [⟨c.read, x.method.ordinal, x.requestId, response⟩] },
        none) := by
  obtain ⟨hheader, hpayload⟩ := hx.received
  have hfind := find?_of_nodup spec.nodup hx.method
  have hflags : ¬x.header.flags &&& 2 ≠ 0 ∧ x.header.interfaceId = 0 ∧
      x.header.ordinal = x.method.ordinal := by
    rw [Sent.header]
    split_ifs
    · exact ⟨show ¬(1 &&& 2 ≠ 0) by decide, rfl, rfl⟩
    · exact ⟨show ¬(0 &&& 2 ≠ 0) by decide, rfl, rfl⟩
  have hroute : route true (some []) x.message = .ok (.message x.header) :=
    route_of_header hheader hflags.2.1 (hflags.2.2 ▸ spec.ordinal_lt _ hx.method)
  rw [Receiver.onRead, hroute]
  simp only
  rw [Receiver.onMessage, if_neg hflags.1]
  simp only [hflags.2.2, hfind, hpayload]
  cases returned <;> cases hresponse : x.method.response <;>
    simp [Receiver.onError, Sent.invocation, Sent.params, Sent.header, hresponse]

theorem inv_dispatch (h : s.Inv spec) {m : Buffer} {returned : Returned}
    (hm : s.remote.written[s.receiver.read]? = some m) (hs : s.receiver.started = true) :
    (s.update (s.receiver.onRead true spec m returned).1
      (s.receiver.onRead true spec m returned).2).Inv spec := by
  rw [h.requests.written, List.getElem?_map] at hm
  obtain ⟨x, hx, rfl⟩ := Option.map_eq_some_iff.1 hm
  -- The messages in the pipe to the remote end are what they were.
  have hresponses : ∀ c : Receiver, c.answers = s.receiver.answers →
      Responses s.sent c.answers (s.remote.received ++ s.remote.inbox ++ none.toList) :=
    fun c hc => by
      rw [hc, Option.toList_none, List.append_nil]
      exact h.responses
  rw [onRead_request (h.requests.carried x (List.mem_of_getElem? hx))]
  have hskip : ∀ errors started, (started = true → x.method.response = none ∨ returned.Fails) →
      Dispatched s.sent { s.receiver with
        invoked := s.receiver.invoked ++ [(x.invocation, returned)]
        read := s.receiver.read + 1
        started := started
        errors := errors } := fun errors started hor =>
    h.dispatched.read hx rfl rfl (.inr ⟨rfl, .refl _⟩) (fun t ht => .inl ht) fun hstarted =>
      ⟨hs, fun hresponse hfails => (hor hstarted).elim (fun hnone => by simp [hnone] at hresponse)
        (absurd · hfails)⟩
  cases hresponse : x.method.response with
  | none =>
    cases returned <;>
      exact inv_update h (fun _ => hs) (List.append_nil _).symm (fun hc => by cases hc)
        (hskip _ _ fun _ => .inl hresponse) (hresponses _ rfl)
  | some response =>
    cases returned with
    | threw =>
      exact inv_update h (fun _ => hs) (List.append_nil _).symm (fun hc => by cases hc)
        (hskip _ _ fun _ => .inr (.inl rfl)) (hresponses _ rfl)
    | null =>
      exact inv_update h (fun _ => hs) (List.append_nil _).symm (fun hc => by cases hc)
        (hskip _ _ fun _ => .inr (.inr rfl)) (hresponses _ rfl)
    | undefined =>
      exact inv_update h (fun _ => hs) (List.append_nil _).symm (fun hc => by cases hc)
        (hskip _ false fun hc => by cases hc) (hresponses _ rfl)
    | promise =>
      refine inv_update h (fun _ => hs) (List.append_nil _).symm (fun hc => by cases hc)
        (h.dispatched.read hx rfl rfl (.inl ⟨rfl, ?_⟩) (fun t ht => ?_)
          fun _ => ⟨hs, fun _ _ => ?_⟩) (hresponses _ rfl)
      · simp only [Receiver.ledger, List.map_append, List.map_singleton, List.append_assoc]
        exact List.perm_middle
      · refine (List.mem_append.1 ht).imp_right fun ht => ?_
        obtain rfl := List.mem_singleton.1 ht
        exact ⟨rfl, rfl, rfl, hresponse⟩
      · simp [Receiver.ledger]

/-- A promise of a handler is settled: an answer is sent, or the pipe is, or has been, closed. -/
theorem settle_cases {c c' : Receiver} {i : ℕ} {value : Option Val} {m : Option Buffer}
    (h : c.settle true i value = some (c', m)) :
    ∃ t, c.tasks[i]? = some t ∧
      ((∃ errors, c' = { c with
          tasks := c.tasks.eraseIdx i, started := false, errors := errors } ∧ m = none) ∨
        ∃ g message, value = some g ∧ c.started = true ∧
          encodeMessage true 0 2 t.ordinal t.requestId t.response.sent g = .ok message ∧
          c' = { c with
            tasks := c.tasks.eraseIdx i
            answers := c.answers ++ [⟨t.request, g, message⟩] } ∧ m = some message) := by
  rw [Receiver.settle] at h
  cases ht : c.tasks[i]? with
  | none => simp [ht] at h
  | some t =>
    refine ⟨t, rfl, ?_⟩
    simp only [ht] at h
    cases value with
    | none =>
      cases h
      exact .inl ⟨_, rfl, rfl⟩
    | some g =>
      simp only at h
      cases hencode : encodeMessage true 0 2 t.ordinal t.requestId t.response.sent g with
      | error e =>
        simp only [hencode] at h
        cases h
        exact .inl ⟨_, rfl, rfl⟩
      | ok message =>
        simp only [hencode] at h
        split_ifs at h with hstarted
        · cases h
          exact .inr ⟨g, message, rfl, hstarted, hencode, rfl, rfl⟩
        · cases h
          refine .inl ⟨c.errors, ?_, rfl⟩
          rw [Bool.not_eq_true] at hstarted
          rw [← hstarted]

theorem inv_settle (h : s.Inv spec) {c : Receiver} {i : ℕ} {value : Option Val} {m : Option Buffer}
    (haccepts : ∀ g ∈ value, ∀ t ∈ s.receiver.tasks[i]?, t.response.Accepts true g)
    (hsettle : s.receiver.settle true i value = some (c, m)) : (s.update c m).Inv spec := by
  obtain ⟨t, ht, hcases⟩ := settle_cases hsettle
  obtain ⟨hi, hti⟩ := List.getElem?_eq_some_iff.1 ht
  have hperm := (List.getElem_cons_eraseIdx_perm hi).map Task.request
  rw [hti, List.map_cons] at hperm
  have htask : ∀ t ∈ s.receiver.tasks.eraseIdx i, ∃ x, s.sent[t.request]? = some x ∧ t.To x :=
    fun t ht => h.dispatched.task t (List.mem_of_mem_eraseIdx ht)
  obtain ⟨x, hx, hto⟩ := h.dispatched.task t (hti ▸ List.getElem_mem hi)
  rcases hcases with ⟨errors, rfl, rfl⟩ | ⟨g, message, rfl, hstarted, hencode, rfl, rfl⟩
  · have hdrop : Ledger.Drop s.receiver.ledger [t.request]
        ⟨s.receiver.read, (s.receiver.tasks.eraseIdx i).map Task.request ++
          s.receiver.answers.map Answer.request⟩ := ⟨rfl, (hperm.symm.append_right _)⟩
    refine inv_update h (fun hc => by cases hc) (List.append_nil _).symm (fun hc => by cases hc)
      ⟨h.dispatched.read_le, h.dispatched.invoked, hdrop.inv h.dispatched.ledger, htask,
        fun hc => by cases hc⟩ (by simpa using h.responses)
  · have hcarried := h.requests.carried x (List.mem_of_getElem? hx)
    have hsame : Ledger.Same s.receiver.ledger ⟨s.receiver.read,
        (s.receiver.tasks.eraseIdx i).map Task.request ++
          (s.receiver.answers ++ [(⟨t.request, g, message⟩ : Answer)]).map Answer.request⟩ := by
      refine ⟨rfl, ?_⟩
      rw [List.map_append, List.map_singleton, ← List.append_assoc]
      exact (List.perm_append_singleton _ _).trans (hperm.append_right _)
    obtain ⟨hvalid, hsmall⟩ := haccepts g rfl t ht _ _ _ _ hencode
    have hordinal : t.ordinal < 2 ^ 32 :=
      hto.ordinal ▸ (spec.ordinal_lt _ hcarried.method).trans (by decide)
    have hfits : (newHeader 0 2 t.ordinal t.requestId).Fits :=
      ⟨Nat.two_pow_pos 32, hordinal, show 2 < 2 ^ 32 by decide,
        show t.requestId < 2 ^ 32 from hto.requestId ▸ hcarried.requestId_lt⟩
    have hreceived := received_of_encodeMessage (k := true) t.response.codec hvalid hfits hsmall
      hencode
    refine inv_update h (l := [⟨t.request, g, message⟩]) id rfl (fun _ => hstarted)
      ⟨h.dispatched.read_le, h.dispatched.invoked, hsame.inv h.dispatched.ledger, htask,
        fun hc j y o hy hresponse ho hfails => hsame.perm.mem_iff.2
          (h.dispatched.settled hc j y o hy hresponse ho hfails)⟩ ⟨?_, fun a ha => ?_⟩
    · rw [h.responses.messages, List.map_append]
      rfl
    · rcases List.mem_append.1 ha with ha | ha
      · exact h.responses.answer a ha
      · obtain rfl := List.mem_singleton.1 ha
        refine ⟨x, t.response, hx, hto.response, ?_⟩
        rw [← hto.ordinal, ← hto.requestId]
        exact hreceived

/-! ## Steps -/

theorem inv_initial : Interface.Inv {} spec where
  reachable := .init
  accounted _ hp := absurd hp (Nat.not_lt_zero _)
  peerClosed := rfl
  unbound := rfl
  stopped hs := by cases hs
  requests := ⟨rfl, by simp, by simp, .nil⟩
  dispatched := ⟨le_rfl, rfl, Ledger.inv_empty, by simp, fun _ j x o hx => by simp at hx⟩
  responses := ⟨rfl, by simp⟩
  waiting := ⟨by simp, fun _ j x d hx => by simp at hx⟩
  resolved := by simp
  rejected := by simp

theorem inv_step_of_ok (h : s.Inv spec) {a : Interface.Action} (hok : s.Ok true spec a)
    (hstep : s.step true spec a = some s') : s'.Inv spec := by
  cases a with
  | call i args =>
    obtain ⟨m, hm, rfl⟩ := Option.map_eq_some_iff.1 hstep
    obtain ⟨haccepts, hkeeps⟩ := hok m hm
    exact inv_call h (List.mem_of_getElem? hm) haccepts hkeeps
  | close =>
    obtain rfl := Option.some.inj hstep
    exact inv_stop h (.inl rfl) (h.step_remote (a := .close) rfl trivial)
  | read =>
    obtain ⟨r, hr, rfl⟩ := Option.map_eq_some_iff.1 hstep
    exact inv_read h hr
  | disconnect =>
    obtain ⟨r, hr, rfl⟩ := Option.map_eq_some_iff.1 hstep
    have hremote := h.step_remote hr trivial
    rw [Remote.step] at hr
    split_ifs at hr with hguard
    obtain rfl := Option.some.inj hr
    have hclosed := h.peerClosed
    rw [hguard.2.2] at hclosed
    exact inv_stop h (.inr (by simpa using hclosed)) hremote
  | dispatch returned =>
    rw [Interface.step] at hstep
    cases hm : s.remote.written[s.receiver.read]? with
    | none => simp [hm] at hstep
    | some m =>
      simp only [hm] at hstep
      split_ifs at hstep with hguard
      obtain rfl := Option.some.inj hstep
      exact inv_dispatch h hm hguard
  | hangUp =>
    rw [Interface.step] at hstep
    split_ifs at hstep
    obtain rfl := Option.some.inj hstep
    exact inv_hangUp h
  | settle i value =>
    obtain ⟨⟨c, m⟩, hsettle, rfl⟩ := Option.map_eq_some_iff.1 hstep
    refine inv_settle h (fun g hg t ht => ?_) hsettle
    obtain rfl : value = some g := hg
    exact hok t ht
  | closeBindings =>
    obtain rfl := Option.some.inj hstep
    exact inv_hangUp h

end Qlabs.Bindings
