import Mathlib.Logic.Relation
import Qlabs.Bindings.RoundTrip
import Qlabs.Ledger
import Qlabs.Machine

/-!
# The remote end of an interface

`InterfaceRemoteBase` of `bindings.js` sends requests over a message pipe, and keeps the
promises of their responses until these come. Its peer is anyone: it may send whatever
messages it likes, those that control the pipe among them, and close its end of the pipe.

A promise is pending under the id of its request. It is settled when a response with that
id comes, or else rejected when the remote end goes wrong or is closed. But three things lose
it: a request that gets the id of another one that is pending, which takes its place; a
response that turns out to be malformed, since its promise has been taken out by then; and
binding the remote end to another pipe, which makes a new map of promises. A remote end that
was not unbound before still gets the messages from its former pipe, then.

Messages with handles are left out, and interfaces that share a pipe.
-/

namespace Qlabs.Bindings

variable (k : Bool)

/-! ## The remote end -/

/-- What a promise is settled with. -/
inductive Outcome
  | resolved (value : Val)
  | rejected (message : Option String)

/-- A call of `sendMessage` that has made a promise. -/
structure Call where
  ordinal : ℕ
  params : StructSpec
  response : StructSpec
  args : List Val
  /-- The id of its request, if it was sent. -/
  requestId : Option ℕ

/-- An entry of the map of the promises whose responses are to come. -/
structure Pending where
  requestId : ℕ
  ordinal : ℕ
  response : StructSpec
  /-- Which promise it is: that of which call. -/
  promise : ℕ

/-- An endpoint that the remote end was bound to before, and that has it as its client still. -/
structure Former extends Endpoint where
  /-- The router knows the endpoint. -/
  known : Bool := true

/-- A remote end that has been bound to a new pipe. -/
structure Remote extends Endpoint where
  /-- `g` of `V`: it has an endpoint. -/
  bound : Bool := true
  /-- The endpoint has it as its client; the router knows the endpoint, and its reader watches
      the pipe. -/
  started : Bool := true
  /-- It has been unbound, and has kept its promises. -/
  unbound : Bool := false
  former : List Former := []
  /-- `i` of `V` -/
  pending : List Pending := []
  /-- How many ids have been taken of the endpoint, at the least. -/
  taken : ℕ := 0
  /-- The calls that have made a promise, in order. -/
  calls : List Call := []
  /-- The promises that were settled, in order. -/
  settlements : List (ℕ × Outcome) := []
  /-- The messages that were read, in order. -/
  received : List Buffer := []
  /-- How often the listeners of connection errors were called. -/
  errors : ℕ := 0

/-- The value that carries the arguments of a call. -/
def argsObject (spec : StructSpec) (args : List Val) : Val :=
  .object (spec.fields.zipIdx.map fun d => (d.1.name, args.getD d.2 .undefined))

/-- `Map.prototype.set`: an entry with that key is replaced where it is. -/
def setPending (d : Pending) (pending : List Pending) : List Pending :=
  if pending.any (·.requestId = d.requestId) then
    pending.map fun e => if e.requestId = d.requestId then d else e
  else pending ++ [d]

namespace Remote

variable (r : Remote)

/-- `bb`: the ids of requests are 32 bits wide. -/
def takeId : Remote :=
  { r with
    nextId := if 4294967295 < r.nextId + 1 then 0 else r.nextId + 1
    nextId_lt := by split_ifs <;> omega
    taken := r.taken + 1 }

def settle (promise : ℕ) (o : Outcome) : Remote :=
  { r with settlements := r.settlements ++ [(promise, o)] }

/-- `gb`: the endpoint is taken from the router, and all pending promises are rejected. -/
def rejectAll (message : Option String) : Remote :=
  { r with
    control := none
    started := false
    unbound := false
    pending := []
    settlements := r.settlements ++ r.pending.map fun d => (d.promise, .rejected message) }

/-- `h` of `V` -/
def onError (message : Option String) : Remote :=
  { r.rejectAll message with errors := r.errors + 1 }

/-- `close` of `V` -/
def close : Remote := { r.rejectAll (some "Message pipe closed.") with bound := false }

/-- `ma`: the endpoint is given back, and the promises stay pending. -/
def unbind : Remote :=
  if r.bound then { r with control := none, bound := false, started := false, unbound := true }
  else r

/-- `B`, with a new endpoint, or one that has been given back. -/
def bindHandle (e : Endpoint) : Remote :=
  { r with
    toEndpoint := e
    bound := true
    started := true
    unbound := false
    former := if r.started then r.former ++ [⟨r.toEndpoint, true⟩] else r.former
    pending := []
    taken := e.nextId }

/-- `M`: the endpoint asks for a flush. What becomes of its promise is left out. -/
def flushForTesting : Remote :=
  match r.bound, r.control with
  | true, some ids =>
    let input : Val := .object [("input", .object [("flushForTesting", .object [])])]
    match encodeMessage k 0 1 runMessageId r.nextId (runMessageParamsSpec k) input with
    | .error _ => r.takeId
    | .ok m =>
      { r.takeId with control := some (ids ++ [r.nextId]), written := r.written ++ [m] }
  | _, _ => r

/-- `va`: a message with a response makes a promise; one that cannot be encoded throws. -/
def sendMessage (ordinal : ℕ) (params : StructSpec) (response : Option StructSpec)
    (args : List Val) : Remote :=
  match response with
  | some response =>
    if !r.bound || !r.started then
      { r.settle r.calls.length (.rejected (some "The pipe has already been closed.")) with
        calls := r.calls ++ [⟨ordinal, params, response, args, none⟩] }
    else
      match encodeMessage k 0 1 ordinal r.nextId params (argsObject params args) with
      | .error _ => r.takeId
      | .ok m =>
        { r.takeId with
          written := r.written ++ [m]
          calls := r.calls ++ [⟨ordinal, params, response, args, some r.nextId⟩]
          pending := setPending ⟨r.nextId, ordinal, response, r.calls.length⟩ r.pending }
  | none =>
    if !r.bound then r
    else
      match encodeMessage k 0 0 ordinal r.nextId params (argsObject params args) with
      | .error _ => r.takeId
      | .ok m => { r.takeId with written := r.written ++ [m] }

/-- `F` of `V`, for a message to its endpoint. The entry is taken out before the response is
    decoded; if that throws, nothing else happens. -/
def onMessage (m : Buffer) (h : Header) : Remote :=
  if h.flags &&& 2 = 0 ∨ h.flags &&& 1 ≠ 0 then r.onError (some "Received unexpected request message")
  else
    match r.pending.find? (·.requestId = h.requestId) with
    | none => r.onError (some "Received unexpected response message")
    | some d =>
      let r := { r with pending := r.pending.filter (·.requestId ≠ h.requestId) }
      match decodePayload k d.response m h with
      | .error _ => r
      | .ok v =>
        if h.ordinal = d.ordinal then r.settle d.promise (.resolved v)
        else r.onError (some "Received malformed response message")

/-- What it does when that has been made of a message from a pipe. -/
def onRouted (m : Buffer) : Routed → Remote
  | .rejected | .peerClosed => r.onError none
  | .dropped | .flushed | .reply _ => r
  | .message h => r.onMessage k m h

/-- The router gets a message; where it throws, nothing else happens. -/
def onRead (m : Buffer) : Remote :=
  match route k r.control m with
  | .error _ => r
  | .ok (.reply m') => { r with written := r.written ++ [m'] }
  | .ok d => r.onRouted k m d

/-- What happens to a pipe: its reader reads the next message, or finds that the peer has closed;
    the peer sends a message, or closes. -/
inductive PipeAction
  | read
  | disconnect
  | arrive (m : Buffer)
  | peerClose

def setFormer (i : ℕ) (e : Former) : Remote := { r with former := r.former.set i e }

/-- The router of a former pipe gets a message. It forgets the endpoint when it rejects one. -/
def onFormerRead (i : ℕ) (e : Former) (m : Buffer) : Remote :=
  match route k e.control m with
  | .error _ => r.setFormer i e
  | .ok (.reply m') => r.setFormer i { e with written := e.written ++ [m'] }
  | .ok .rejected => (r.setFormer i { e with known := false }).onRouted k m .rejected
  | .ok d => (r.setFormer i e).onRouted k m d

/-- A step of a former pipe. A router that does not know the endpoint reports the messages. -/
def formerStep (i : ℕ) (e : Former) : PipeAction → Option Remote
  | .read =>
    match e.inbox with
    | [] => none
    | m :: inbox =>
      let e := { e with inbox := inbox }
      let r := { r with received := r.received ++ [m] }
      some (if e.known then r.onFormerRead k i e m else r.setFormer i e)
  | .disconnect =>
    if e.known ∧ e.inbox = [] ∧ e.peerClosed then
      some ((r.setFormer i { e with known := false }).onError none)
    else none
  | .arrive m =>
    if e.peerClosed then none else some (r.setFormer i { e with inbox := e.inbox ++ [m] })
  | .peerClose => if e.peerClosed then none else some (r.setFormer i { e with peerClosed := true })

/-- What happens: the page sends a message, closes or unbinds, binds another endpoint, or asks
    for a flush; something happens to the pipe, or to a former one. -/
inductive Action
  | sendMessage (ordinal : ℕ) (params : StructSpec) (response : Option StructSpec)
      (args : List Val)
  | close
  | unbind
  | bindHandle (e : Endpoint)
  | flushForTesting
  | read
  | disconnect
  | arrive (m : Buffer)
  | peerClose
  | former (i : ℕ) (a : PipeAction)

/-- One step. -/
def step : Action → Option Remote
  | .sendMessage ordinal params response args => some (r.sendMessage k ordinal params response args)
  | .close => some r.close
  | .unbind => some r.unbind
  | .bindHandle e => some (r.bindHandle e)
  | .flushForTesting => some (r.flushForTesting k)
  | .read =>
    match r.inbox with
    | [] => none
    | m :: inbox =>
      if r.started then some ({ r with inbox := inbox, received := r.received ++ [m] }.onRead k m)
      else none
  | .disconnect => if r.started ∧ r.inbox = [] ∧ r.peerClosed then some (r.onError none) else none
  | .arrive m => if r.peerClosed then none else some { r with inbox := r.inbox ++ [m] }
  | .peerClose => if r.peerClosed then none else some { r with peerClosed := true }
  | .former i a => r.former[i]?.bind fun e => r.formerStep k i e a

end Remote

/-- A remote end, with a peer that may do anything. -/
def remote : Machine Remote Remote.Action where
  init := {}
  step := Remote.step k

/-! ## What a step does to the promises -/

/-- What concerns the promises of a remote end. -/
structure Promises where
  started : Bool
  unbound : Bool
  pending : List Pending
  calls : List Call
  settlements : List (ℕ × Outcome)
  received : List Buffer

def Remote.promises (r : Remote) : Promises :=
  ⟨r.started, r.unbound, r.pending, r.calls, r.settlements, r.received⟩

/-- The message is a response to the endpoint. -/
structure IsResponse (m : Buffer) (h : Header) : Prop where
  header : decodeHeader k m = .ok (some h)
  interfaceId : h.interfaceId = 0
  flags : ¬(h.flags &&& 2 = 0 ∨ h.flags &&& 1 ≠ 0)

/-- It is the response to a request, and carries this value. -/
def Responds (m : Buffer) (requestId ordinal : ℕ) (response : StructSpec) (v : Val) : Prop :=
  ∃ h, IsResponse k m h ∧ h.requestId = requestId ∧ h.ordinal = ordinal ∧
    decodePayload k response m h = .ok v

/-- If the message is taken for a response to a pending request, it can be taken for what it
    should be. -/
def Proper (control : Option (List ℕ)) (pending : List Pending) (m : Buffer) : Prop :=
  ∀ h, route k control m = .ok (.message h) → ∀ d ∈ pending, IsResponse k m h →
    h.requestId = d.requestId → ∃ v, Responds k m d.requestId d.ordinal d.response v

/-- No promise is lost by the action. -/
def Remote.Keeps (r : Remote) : Remote.Action → Prop
  | .sendMessage ordinal params (some _) args => r.bound = true → r.started = true →
      (∃ m, encodeMessage k 0 1 ordinal r.nextId params (argsObject params args) = .ok m) →
        ∀ d ∈ r.pending, d.requestId ≠ r.nextId
  | .bindHandle _ => r.pending = []
  | .read => ∀ m ∈ r.inbox.head?, Proper k r.control r.pending m
  | .former i .read => ∀ e ∈ r.former[i]?, e.known = true → ∀ m ∈ e.inbox.head?,
      Proper k e.control r.pending m
  | _ => True

namespace Promises

/-- The moves that lose no promise. -/
inductive Keep (c : Promises) : Promises → Prop
  | receive (m : Buffer) : Keep c { c with received := c.received ++ [m] }
  | refuse {call : Call} (hid : call.requestId = none) (message : Option String) :
      Keep c { c with
        calls := c.calls ++ [call]
        settlements := c.settlements ++ [(c.calls.length, .rejected message)] }
  | send (call : Call) {id : ℕ} (hstarted : c.started = true) (hid : call.requestId = some id)
      (hfresh : ∀ d ∈ c.pending, d.requestId ≠ id) :
      Keep c { c with
        calls := c.calls ++ [call]
        pending := c.pending ++ [⟨id, call.ordinal, call.response, c.calls.length⟩] }
  | unbind : Keep c { c with started := false, unbound := true }
  | bind (hpending : c.pending = []) : Keep c { c with started := true, unbound := false }
  | stop (message : Option String) :
      Keep c { c with
        started := false
        unbound := false
        pending := []
        settlements := c.settlements ++ c.pending.map fun d => (d.promise, .rejected message) }
  | resolve {d : Pending} {m : Buffer} {v : Val} (hd : d ∈ c.pending) (hm : m ∈ c.received)
      (hresponds : Responds k m d.requestId d.ordinal d.response v) :
      Keep c { c with
        pending := c.pending.filter (·.requestId ≠ d.requestId)
        settlements := c.settlements ++ [(d.promise, .resolved v)] }

/-- Those that lose promises: the id of a pending request is given again, a response cannot be
    taken for what it should be, or another pipe is bound while they are pending. -/
inductive Lose (c : Promises) : Promises → Prop
  | replace (call : Call) {d : Pending} (hstarted : c.started = true) (hd : d ∈ c.pending)
      (hid : call.requestId = some d.requestId) :
      Lose c { c with
        calls := c.calls ++ [call]
        pending := setPending ⟨d.requestId, call.ordinal, call.response, c.calls.length⟩ c.pending }
  | drop {d : Pending} (hd : d ∈ c.pending) :
      Lose c { c with pending := c.pending.filter (·.requestId ≠ d.requestId) }
  | bind (hpending : c.pending ≠ []) :
      Lose c { c with started := true, unbound := false, pending := [] }

/-- The call of a pending promise. -/
def CallOf (calls : List Call) (d : Pending) : Prop :=
  ∃ call, calls[d.promise]? = some call ∧ call.ordinal = d.ordinal ∧
    call.response = d.response ∧ call.requestId = some d.requestId

/-- A call was answered with this value. -/
def Answered (k : Bool) (calls : List Call) (received : List Buffer) (p : ℕ) (v : Val) : Prop :=
  ∃ call id, calls[p]? = some call ∧ call.requestId = some id ∧
    ∃ m ∈ received, Responds k m id call.ordinal call.response v

/-- The ledger of the promises. -/
def ledger (c : Promises) : Ledger :=
  ⟨c.calls.length, c.pending.map Pending.promise ++ c.settlements.map Prod.fst⟩

/-- What holds at any time. -/
structure Inv (c : Promises) : Prop where
  ledger : c.ledger.Inv
  ids : (c.pending.map Pending.requestId).Nodup
  call : ∀ d ∈ c.pending, CallOf c.calls d
  resolved : ∀ p v, (p, .resolved v) ∈ c.settlements → Answered k c.calls c.received p v
  stopped : c.started = false → c.unbound = false → c.pending = []

end Promises

/-! ## The map of the promises -/

theorem getElem?_append_of_some {α : Type*} {l : List α} {j : ℕ} {a : α} (h : l[j]? = some a)
    (l' : List α) : (l ++ l')[j]? = some a := by
  rw [List.getElem?_append_left (List.getElem?_eq_some_iff.1 h).1, h]

/-- An entry, and the others. -/
theorem perm_filter {d : Pending} : ∀ {l : List Pending}, (l.map Pending.requestId).Nodup → d ∈ l →
    l.Perm (d :: l.filter (·.requestId ≠ d.requestId))
  | e :: l, hids, hd => by
    obtain ⟨he, hids⟩ := List.nodup_cons.1 hids
    rcases List.mem_cons.1 hd with rfl | hd
    · have hother : ∀ e ∈ l, e.requestId ≠ d.requestId := fun e hel heq =>
        he (heq ▸ List.mem_map_of_mem hel)
      rw [List.filter_cons, if_neg (by simp),
        List.filter_eq_self.2 fun e he => decide_eq_true (hother e he)]
    · have hne : e.requestId ≠ d.requestId := fun heq => he (heq ▸ List.mem_map_of_mem hd)
      rw [List.filter_cons, if_pos (decide_eq_true hne)]
      exact ((perm_filter hids hd).cons e).trans (List.Perm.swap ..)

theorem setPending_of_fresh {d : Pending} {l : List Pending}
    (h : ∀ e ∈ l, e.requestId ≠ d.requestId) : setPending d l = l ++ [d] := by
  rw [setPending, if_neg (by simpa using h)]

theorem mem_setPending {d e : Pending} {l : List Pending} (h : e ∈ setPending d l) :
    e = d ∨ e ∈ l := by
  rw [setPending] at h
  split_ifs at h
  · obtain ⟨e', he', rfl⟩ := List.mem_map.1 h
    split_ifs
    · exact .inl rfl
    · exact .inr he'
  · simpa [or_comm] using h

/-- An entry takes the place of that with its id. -/
theorem perm_setPending {d e : Pending} {l : List Pending} (hids : (l.map Pending.requestId).Nodup)
    (he : e ∈ l) (hid : d.requestId = e.requestId) :
    (setPending d l).Perm (d :: l.filter (·.requestId ≠ e.requestId)) := by
  have hperm := (perm_filter hids he).map fun x => if x.requestId = d.requestId then d else x
  have hkeep : (l.filter (·.requestId ≠ e.requestId)).map
      (fun x => if x.requestId = d.requestId then d else x) =
        l.filter (·.requestId ≠ e.requestId) := by
    refine List.map_congr_left (fun x hx => ?_) |>.trans (List.map_id _)
    have hne := of_decide_eq_true (List.mem_filter.1 hx).2
    exact if_neg (hid ▸ hne)
  rw [List.map_cons, if_pos hid.symm, hkeep] at hperm
  rw [setPending, if_pos (List.any_eq_true.2 ⟨e, he, decide_eq_true hid.symm⟩)]
  exact hperm

namespace Promises

variable {k} {c c' : Promises}

theorem inv_init : Inv k ⟨true, false, [], [], [], []⟩ where
  ledger := Ledger.inv_empty
  ids := List.nodup_nil
  call := by simp
  resolved := by simp
  stopped := by simp

/-- A call that has been made stays what it is. -/
theorem CallOf.append {calls : List Call} {d : Pending} (h : CallOf calls d) (calls' : List Call) :
    CallOf (calls ++ calls') d := by
  obtain ⟨call, hcall, hrest⟩ := h
  exact ⟨call, getElem?_append_of_some hcall calls', hrest⟩

theorem Answered.append {calls : List Call} {received : List Buffer} {p : ℕ} {v : Val}
    (h : Answered k calls received p v) (calls' : List Call) (received' : List Buffer) :
    Answered k (calls ++ calls') (received ++ received') p v := by
  obtain ⟨call, id, hcall, hid, m, hm, hresponds⟩ := h
  exact ⟨call, id, getElem?_append_of_some hcall calls', hid, m, List.mem_append_left _ hm,
    hresponds⟩

/-- Only a move that resolves a promise adds anything but a rejection. -/
theorem mem_rejected {l : List Pending} {message : Option String} {p : ℕ} {v : Val} :
    (p, Outcome.resolved v) ∉ l.map fun d => (d.promise, .rejected message) := by
  intro h
  obtain ⟨d, -, hd⟩ := List.mem_map.1 h
  cases hd

theorem Keep.ledger (hm : Keep k c c') (h : Inv k c) :
    Ledger.Same c.ledger c'.ledger ∨ Ledger.Make c.ledger c'.ledger := by
  cases hm with
  | receive m => exact .inl ⟨rfl, .refl _⟩
  | refuse hid message =>
    refine .inr ⟨List.length_append, ?_⟩
    simp only [Promises.ledger, List.map_append, List.map_cons, List.map_nil, ← List.append_assoc]
    exact List.perm_append_singleton _ _
  | send call hstarted hid hfresh =>
    refine .inr ⟨List.length_append, ?_⟩
    simp only [Promises.ledger, List.map_append, List.map_cons, List.map_nil, List.append_assoc]
    exact List.perm_middle
  | unbind => exact .inl ⟨rfl, .refl _⟩
  | bind hpending => exact .inl ⟨rfl, .refl _⟩
  | stop message =>
    refine .inl ⟨rfl, ?_⟩
    simp only [Promises.ledger, List.map_append, List.map_nil, List.nil_append, List.map_map]
    exact List.perm_append_comm
  | resolve hd hm hresponds =>
    refine .inl ⟨rfl, ?_⟩
    have hperm := (perm_filter h.ids hd).map Pending.promise
    simp only [Promises.ledger, List.map_append, List.map_cons, List.map_nil, ← List.append_assoc]
    refine (List.perm_append_singleton _ _).trans ?_
    exact (hperm.append_right _).symm

theorem Keep.inv (hm : Keep k c c') (h : Inv k c) : Inv k c' := by
  have hledger : c'.ledger.Inv := (hm.ledger h).elim (·.inv h.ledger) (·.inv h.ledger)
  cases hm with
  | receive m =>
    exact ⟨hledger, h.ids, h.call, fun p v hp => by simpa using (h.resolved p v hp).append [] [m],
      h.stopped⟩
  | refuse hid message =>
    refine ⟨hledger, h.ids, fun d hd => (h.call d hd).append _, fun p v hp => ?_, h.stopped⟩
    have hp := (List.mem_append.1 hp).resolve_right fun hp => by cases List.mem_singleton.1 hp
    simpa using (h.resolved p v hp).append _ []
  | @send call id hstarted hid hfresh =>
    refine ⟨hledger, ?_, fun d hd => ?_, fun p v hp => ?_, fun hs => ?_⟩
    · simp only [List.map_append, List.map_cons, List.map_nil]
      refine List.nodup_append.2 ⟨h.ids, List.nodup_singleton _, ?_⟩
      rintro _ ha _ hb rfl
      obtain ⟨d, hd, heq⟩ := List.mem_map.1 ha
      exact hfresh d hd (heq.trans (List.mem_singleton.1 hb))
    · rcases List.mem_append.1 hd with hd | hd
      · exact (h.call d hd).append _
      · obtain rfl := List.mem_singleton.1 hd
        exact ⟨call, List.getElem?_concat_length .., rfl, rfl, hid⟩
    · simpa using (h.resolved p v hp).append _ []
    · rw [hstarted] at hs
      cases hs
  | unbind => exact ⟨hledger, h.ids, h.call, h.resolved, fun _ hu => by cases hu⟩
  | bind hpending => exact ⟨hledger, h.ids, h.call, h.resolved, fun hs => by cases hs⟩
  | stop message =>
    refine ⟨hledger, List.nodup_nil, by simp, fun p v hp => ?_, fun _ _ => rfl⟩
    exact h.resolved p v ((List.mem_append.1 hp).resolve_right mem_rejected)
  | @resolve d m v hd hm hresponds =>
    refine ⟨hledger, h.ids.sublist (List.filter_sublist.map _),
      fun e he => h.call e (List.mem_of_mem_filter he), fun p w hp => ?_, fun hs => ?_⟩
    · rcases List.mem_append.1 hp with hp | hp
      · exact h.resolved p w hp
      · obtain ⟨rfl, hw⟩ := Prod.mk.inj (List.mem_singleton.1 hp)
        obtain rfl := Outcome.resolved.inj hw
        obtain ⟨call, hcall, hordinal, hresponse, hid⟩ := h.call d hd
        exact ⟨call, _, hcall, hid, m, hm, hordinal ▸ hresponse ▸ hresponds⟩
    · intro hu
      rw [h.stopped hs hu]
      rfl

theorem Lose.ledger (hm : Lose c c') (h : Inv k c) :
    ∃ ps l, ps ≠ [] ∧ Ledger.Drop c.ledger ps l ∧
      (Ledger.Same l c'.ledger ∨ Ledger.Make l c'.ledger) := by
  -- The entry that is taken out.
  have hdrop : ∀ d ∈ c.pending, Ledger.Drop c.ledger [d.promise]
      ({ c with pending := c.pending.filter (·.requestId ≠ d.requestId) } : Promises).ledger :=
    fun d hd => ⟨rfl, ((perm_filter h.ids hd).map Pending.promise).append_right _⟩
  cases hm with
  | @replace call d hstarted hd hid =>
    have hset := (perm_setPending h.ids hd (d := ⟨d.requestId, call.ordinal, call.response,
      c.calls.length⟩) rfl).map Pending.promise
    exact ⟨_, _, List.cons_ne_nil _ _, hdrop d hd,
      .inr ⟨List.length_append, hset.append_right _⟩⟩
  | drop hd => exact ⟨_, _, List.cons_ne_nil _ _, hdrop _ hd, .inl ⟨rfl, .refl _⟩⟩
  | bind hpending =>
    exact ⟨c.pending.map Pending.promise, ⟨c.calls.length, c.settlements.map Prod.fst⟩,
      by simpa using hpending, ⟨rfl, .refl _⟩, .inl ⟨rfl, .refl _⟩⟩

theorem Lose.inv (hm : Lose c c') (h : Inv k c) : Inv k c' := by
  obtain ⟨ps, l, -, hdrop, hl⟩ := hm.ledger h
  have hl' := hdrop.inv h.ledger
  have hledger : c'.ledger.Inv := hl.elim (·.inv hl') (·.inv hl')
  cases hm with
  | @replace call d hstarted hd hid =>
    have hset := perm_setPending h.ids hd (d := ⟨d.requestId, call.ordinal, call.response,
      c.calls.length⟩) rfl
    have hfilter : ((c.pending.filter (·.requestId ≠ d.requestId)).map Pending.requestId).Nodup :=
      h.ids.sublist (List.filter_sublist.map _)
    refine ⟨hledger, ?_, fun e he => ?_, fun p v hp => ?_, fun hs => ?_⟩
    · refine (hset.map Pending.requestId).nodup_iff.2 (List.nodup_cons.2 ⟨fun hmem => ?_, hfilter⟩)
      obtain ⟨e, he, heq⟩ := List.mem_map.1 hmem
      exact of_decide_eq_true (List.mem_filter.1 he).2 heq
    · rcases List.mem_cons.1 (hset.mem_iff.1 he) with rfl | he
      · exact ⟨call, List.getElem?_concat_length .., rfl, rfl, hid⟩
      · exact (h.call e (List.mem_of_mem_filter he)).append _
    · simpa using (h.resolved p v hp).append _ []
    · rw [hstarted] at hs
      cases hs
  | @drop d hd =>
    refine ⟨hledger, h.ids.sublist (List.filter_sublist.map _),
      fun e he => h.call e (List.mem_of_mem_filter he), h.resolved, fun hs hu => ?_⟩
    rw [h.stopped hs hu]
    rfl
  | bind hpending =>
    exact ⟨hledger, List.nodup_nil, by simp, h.resolved, fun _ _ => rfl⟩

/-- No promise is lost. -/
def Accounted (c : Promises) : Prop := c.ledger.Accounted

theorem Keep.accounted (hm : Keep k c c') (h : Inv k c) : c'.Accounted ↔ c.Accounted :=
  (hm.ledger h).elim (·.accounted) (·.accounted)

theorem Lose.not_accounted (hm : Lose c c') (h : Inv k c) : ¬c'.Accounted := by
  obtain ⟨ps, l, hps, hdrop, hl⟩ := hm.ledger h
  have hnot := hdrop.not_accounted hps h.ledger
  exact hl.elim (fun hl => hl.accounted.not.2 hnot) fun hl => hl.accounted.not.2 hnot

end Promises

/-! ## Steps -/

open Relation

variable {k} {r r' : Remote} {m : Buffer}

/-- What a call does: nothing but to take an id, or it makes a promise that is rejected, or it
    sends a message, whose promise, if it has one, is pending. -/
theorem sendMessage_cases (r : Remote) (ordinal : ℕ) (params : StructSpec)
    (response : Option StructSpec) (args : List Val) {r' : Remote}
    (h : r.sendMessage k ordinal params response args = r') :
    (response = none ∧ r' = r) ∨
    ((∀ response', response = some response' → ∀ m,
      encodeMessage k 0 1 ordinal r.nextId params (argsObject params args) ≠ .ok m) ∧
      r' = r.takeId) ∨
    (∃ response' message, response = some response' ∧ ¬(r.bound = true ∧ r.started = true) ∧
      r' = { r.settle r.calls.length (.rejected message) with
        calls := r.calls ++ [⟨ordinal, params, response', args, none⟩] }) ∨
    (∃ m, response = none ∧
      encodeMessage k 0 0 ordinal r.nextId params (argsObject params args) = .ok m ∧
      r' = { r.takeId with written := r.written ++ [m] }) ∨
    ∃ m response', response = some response' ∧ r.bound = true ∧ r.started = true ∧
      encodeMessage k 0 1 ordinal r.nextId params (argsObject params args) = .ok m ∧
      r' = { r.takeId with
        written := r.written ++ [m]
        calls := r.calls ++ [⟨ordinal, params, response', args, some r.nextId⟩]
        pending := setPending ⟨r.nextId, ordinal, response', r.calls.length⟩ r.pending } := by
  cases response with
  | none =>
    simp only [Remote.sendMessage] at h
    split_ifs at h
    · exact .inl ⟨rfl, h.symm⟩
    · cases hencode : encodeMessage k 0 0 ordinal r.nextId params (argsObject params args) with
      | error e =>
        exact .inr (.inl ⟨fun _ hnone => (by cases hnone), by simpa only [hencode] using h.symm⟩)
      | ok m => exact .inr (.inr (.inr (.inl ⟨m, rfl, rfl, by simpa only [hencode] using h.symm⟩)))
  | some response =>
    simp only [Remote.sendMessage] at h
    split_ifs at h with hclosed
    · exact .inr (.inr (.inl ⟨response, _, rfl, fun hopen => by simp [hopen.1, hopen.2] at hclosed,
        h.symm⟩))
    · simp only [Bool.or_eq_true, Bool.not_eq_true', not_or, Bool.not_eq_false] at hclosed
      cases hencode : encodeMessage k 0 1 ordinal r.nextId params (argsObject params args) with
      | error e =>
        exact .inr (.inl ⟨fun _ _ _ hm => (by cases hm), by simpa only [hencode] using h.symm⟩)
      | ok m =>
        exact .inr (.inr (.inr (.inr ⟨m, response, rfl, hclosed.1, hclosed.2, rfl,
          by simpa only [hencode] using h.symm⟩)))

theorem promises_onError (message : Option String) :
    Promises.Keep k r.promises (r.onError message).promises := .stop message

/-- Where the promises get, if they are to be kept, and if not. -/
def Moves (k : Bool) (keeps : Prop) (c c' : Promises) : Prop :=
  keeps ∧ ReflTransGen (Promises.Keep k) c c' ∨
    ¬keeps ∧ ∃ d d', ReflTransGen (Promises.Keep k) c d ∧ Promises.Lose d d' ∧
      ReflTransGen (Promises.Keep k) d' c'

theorem Moves.head {keeps : Prop} {c d c' : Promises} (hkeep : Promises.Keep k c d)
    (h : Moves k keeps d c') : Moves k keeps c c' := by
  rcases h with ⟨hkeeps, hmoves⟩ | ⟨hkeeps, e, e', hmoves, hlose⟩
  · exact .inl ⟨hkeeps, hmoves.head hkeep⟩
  · exact .inr ⟨hkeeps, e, e', hmoves.head hkeep, hlose⟩

theorem Moves.congr {keeps keeps' : Prop} {c c' : Promises} (h : Moves k keeps c c')
    (hiff : keeps' ↔ keeps) : Moves k keeps' c c' := by
  rwa [Moves, hiff]

variable {control : Option (List ℕ)}

/-- A message to the endpoint settles a promise, or loses one, or stops it all. -/
theorem onMessage_moves {h : Header} (hids : (r.pending.map Pending.requestId).Nodup)
    (hm : m ∈ r.received) (hroute : route k control m = .ok (.message h)) :
    Moves k (Proper k control r.pending m) r.promises (r.onMessage k m h).promises := by
  obtain ⟨hh, hi⟩ := header_of_route hroute
  -- The header is the only one that the message has.
  have hheader : ∀ h', route k control m = .ok (.message h') → h' = h := fun h' h'' => by
    cases h''.symm.trans hroute
    rfl
  rw [Remote.onMessage]
  split_ifs with hflags
  · refine .inl ⟨fun h' hroute' d _ h'' _ => absurd hflags ?_, .single (promises_onError _)⟩
    exact hheader h' hroute' ▸ h''.flags
  · have hresponse : IsResponse k m h := ⟨hh, hi, hflags⟩
    cases hfind : r.pending.find? (·.requestId = h.requestId) with
    | none =>
      refine .inl ⟨fun h' hroute' d hd h'' hid => ?_, .single (promises_onError _)⟩
      rw [hheader h' hroute'] at hid
      exact absurd (decide_eq_true hid.symm) (List.find?_eq_none.1 hfind d hd)
    | some d =>
      have hd := List.mem_of_find?_eq_some hfind
      have hid : d.requestId = h.requestId := by simpa using List.find?_some hfind
      have hdrop := Promises.Lose.drop (c := r.promises) hd
      rw [hid] at hdrop
      have hproper : Proper k control r.pending m → ∃ v, decodePayload k d.response m h = .ok v ∧
          h.ordinal = d.ordinal := fun hproper => by
        obtain ⟨v, h', h'', -, hordinal, hv⟩ := hproper h hroute d hd hresponse hid.symm
        obtain rfl := Option.some.inj (Except.ok.inj (h''.header.symm.trans hh))
        exact ⟨v, hv, hordinal⟩
      simp only
      cases hv : decodePayload k d.response m h with
      | error e =>
        refine .inr ⟨fun h' => ?_, _, _, .refl, hdrop, .refl⟩
        obtain ⟨v, hv', -⟩ := hproper h'
        rw [hv] at hv'
        cases hv'
      | ok v =>
        simp only
        split_ifs with hordinal
        · have hresponds : Responds k m d.requestId d.ordinal d.response v :=
            ⟨h, hresponse, hid.symm, hordinal, hv⟩
          have hresolve := Promises.Keep.resolve (c := r.promises) hd hm hresponds
          rw [hid] at hresolve
          refine .inl ⟨fun h' hroute' e he h'' he' => ?_, .single hresolve⟩
          rw [hheader h' hroute', ← hid] at he'
          obtain rfl : d = e := List.inj_on_of_nodup_map hids hd he he'
          exact ⟨v, hresponds⟩
        · refine .inr ⟨fun h' => ?_, _, _, .refl, hdrop, .single (.stop _)⟩
          obtain ⟨v, -, hordinal'⟩ := hproper h'
          exact hordinal hordinal'

/-- What is not for the client may still stop it all. -/
theorem onRouted_moves {d : Routed} (hids : (r.pending.map Pending.requestId).Nodup)
    (hm : m ∈ r.received) (hroute : route k control m = .ok d) :
    Moves k (Proper k control r.pending m) r.promises (r.onRouted k m d).promises := by
  cases d with
  | message h => exact onMessage_moves hids hm hroute
  | rejected | peerClosed =>
    refine .inl ⟨fun h hroute' => ?_, .single (promises_onError _)⟩
    cases hroute.symm.trans hroute'
  | dropped | flushed | reply _ =>
    refine .inl ⟨fun h hroute' => ?_, .refl⟩
    cases hroute.symm.trans hroute'

/-- Without the answer to a flush, reading a message is what the remote end does to it. -/
theorem onRead_moves (hids : (r.pending.map Pending.requestId).Nodup) (hm : m ∈ r.received) :
    Moves k (Proper k r.control r.pending m) r.promises (r.onRead k m).promises := by
  rw [Remote.onRead]
  cases hroute : route k r.control m with
  | error e => exact .inl ⟨fun h hroute' => (by cases hroute.symm.trans hroute'), .refl⟩
  | ok d =>
    have hmoves := onRouted_moves hids hm hroute
    cases d <;> exact hmoves

/-- The same for a former pipe. -/
theorem formerStep_moves {i : ℕ} {e : Former} {a : Remote.PipeAction}
    (hids : (r.pending.map Pending.requestId).Nodup) (he : r.former[i]? = some e)
    (h : r.formerStep k i e a = some r') :
    Moves k (r.Keeps k (.former i a)) r.promises r'.promises := by
  cases a with
  | read =>
    cases hinbox : e.inbox with
    | nil => simp [Remote.formerStep, hinbox] at h
    | cons m inbox =>
      have hkeeps : r.Keeps k (.former i .read) ↔
          (e.known = true → Proper k e.control r.pending m) := by
        simp [Remote.Keeps, he, hinbox]
      refine (Moves.head (.receive m) ?_).congr hkeeps
      simp only [Remote.formerStep, hinbox] at h
      obtain rfl := Option.some.inj h
      split_ifs with hknown
      · refine Moves.congr ?_ (forall_prop_of_true hknown)
        rw [Remote.onFormerRead]
        cases hroute : route k e.control m with
        | error e => exact .inl ⟨fun h hroute' => (by cases hroute.symm.trans hroute'), .refl⟩
        | ok d =>
          have hmoves : ∀ e, Moves k _ _ _ := fun e' =>
            onRouted_moves (r := { r with received := r.received ++ [m] }.setFormer i e') hids
              (List.mem_append_right _ (.head _)) hroute
          cases d <;> exact hmoves _
      · exact .inl ⟨fun h => absurd h hknown, .refl⟩
  | disconnect =>
    rw [Remote.formerStep] at h
    split_ifs at h
    obtain rfl := Option.some.inj h
    exact .inl ⟨trivial, .single (promises_onError _)⟩
  | arrive m | peerClose =>
    rw [Remote.formerStep] at h
    split_ifs at h
    obtain rfl := Option.some.inj h
    exact .inl ⟨trivial, .refl⟩

/-- A call adds a promise, which takes the place of another if it is given the id of that. -/
theorem sendMessage_moves (r : Remote) (ordinal : ℕ) (params : StructSpec)
    (response : Option StructSpec) (args : List Val) :
    Moves k (r.Keeps k (.sendMessage ordinal params response args)) r.promises
      (r.sendMessage k ordinal params response args).promises := by
  generalize hr : r.sendMessage k ordinal params response args = r'
  rcases sendMessage_cases r ordinal params response args hr with
    ⟨rfl, rfl⟩ | ⟨hencode, rfl⟩ | ⟨response, message, rfl, hclosed, rfl⟩ | ⟨m, rfl, -, rfl⟩ |
      ⟨m, response, rfl, hbound, hstarted, hencode, rfl⟩
  · exact .inl ⟨trivial, .refl⟩
  · refine .inl ⟨?_, .refl⟩
    cases response with
    | none => trivial
    | some response =>
      rintro - - ⟨m, hm⟩
      exact absurd hm (hencode response rfl m)
  · exact .inl ⟨fun hbound hstarted => absurd ⟨hbound, hstarted⟩ hclosed,
      .single (.refuse rfl message)⟩
  · exact .inl ⟨trivial, .refl⟩
  · by_cases hfresh : ∀ d ∈ r.pending, d.requestId ≠ r.nextId
    · have hsend := Promises.Keep.send (k := k) (c := r.promises)
        ⟨ordinal, params, response, args, some r.nextId⟩ hstarted rfl hfresh
      have hset : setPending ⟨r.nextId, ordinal, response, r.calls.length⟩ r.pending =
          r.pending ++ [⟨r.nextId, ordinal, response, r.calls.length⟩] :=
        setPending_of_fresh hfresh
      refine .inl ⟨fun _ _ _ => hfresh, .single ?_⟩
      simp only [Remote.promises, Remote.takeId, hset]
      exact hsend
    · refine .inr ⟨fun hkeeps => hfresh (hkeeps hbound hstarted ⟨m, hencode⟩), ?_⟩
      simp only [not_forall, not_not, exists_prop] at hfresh
      obtain ⟨d, hd, hid⟩ := hfresh
      have hreplace := Promises.Lose.replace (c := r.promises)
        ⟨ordinal, params, response, args, some r.nextId⟩ hstarted hd (hid ▸ rfl)
      rw [hid] at hreplace
      exact ⟨_, _, .refl, hreplace, .refl⟩

/-- A step moves the promises, and loses one unless it keeps them. -/
theorem step_moves {a : Remote.Action} (hids : (r.pending.map Pending.requestId).Nodup)
    (h : r.step k a = some r') : Moves k (r.Keeps k a) r.promises r'.promises := by
  cases a with
  | sendMessage ordinal params response args =>
    exact Option.some.inj h ▸ sendMessage_moves r ordinal params response args
  | close =>
    obtain rfl := Option.some.inj h
    exact .inl ⟨trivial, .single (.stop _)⟩
  | unbind =>
    obtain rfl := Option.some.inj h
    rw [Remote.unbind]
    split_ifs
    · exact .inl ⟨trivial, .single .unbind⟩
    · exact .inl ⟨trivial, .refl⟩
  | bindHandle e =>
    obtain rfl := Option.some.inj h
    by_cases hpending : r.pending = []
    · have hbind := Promises.Keep.bind (k := k) (c := r.promises) hpending
      refine .inl ⟨hpending, .single ?_⟩
      rw [Remote.promises, hpending] at hbind ⊢
      exact hbind
    · exact .inr ⟨hpending, _, _, .refl, .bind hpending, .refl⟩
  | flushForTesting =>
    obtain rfl := Option.some.inj h
    refine .inl ⟨trivial, ?_⟩
    rw [Remote.flushForTesting]
    split
    · simp only
      split <;> exact .refl
    · exact .refl
  | read =>
    rw [Remote.step] at h
    cases hinbox : r.inbox with
    | nil => simp [hinbox] at h
    | cons m inbox =>
      simp only [hinbox] at h
      split_ifs at h
      obtain rfl := Option.some.inj h
      have hkeeps : r.Keeps k .read ↔ Proper k r.control r.pending m := by
        simp [Remote.Keeps, hinbox]
      refine (Moves.head (.receive m) ?_).congr hkeeps
      exact onRead_moves (r := { r with inbox := inbox, received := r.received ++ [m] }) hids
        (List.mem_append_right _ (.head _))
  | disconnect =>
    rw [Remote.step] at h
    split_ifs at h
    obtain rfl := Option.some.inj h
    exact .inl ⟨trivial, .single (promises_onError _)⟩
  | arrive m =>
    rw [Remote.step] at h
    split_ifs at h
    obtain rfl := Option.some.inj h
    exact .inl ⟨trivial, .refl⟩
  | peerClose =>
    rw [Remote.step] at h
    split_ifs at h
    obtain rfl := Option.some.inj h
    exact .inl ⟨trivial, .refl⟩
  | former i a =>
    obtain ⟨e, he, h⟩ := Option.bind_eq_some_iff.1 h
    exact formerStep_moves hids he h

/-! ## Runs -/

theorem inv_of_moves {c c' : Promises} (h : ReflTransGen (Promises.Keep k) c c') (hc : c.Inv k) :
    c'.Inv k := by
  induction h with
  | refl => exact hc
  | tail _ hkeep ih => exact hkeep.inv ih

theorem accounted_of_moves {c c' : Promises} (h : ReflTransGen (Promises.Keep k) c c')
    (hc : c.Inv k) : c'.Accounted ↔ c.Accounted := by
  induction h with
  | refl => rfl
  | tail hmoves hkeep ih => exact (hkeep.accounted (inv_of_moves hmoves hc)).trans ih

theorem inv_step {a : Remote.Action} (hr : r.promises.Inv k) (h : r.step k a = some r') :
    r'.promises.Inv k := by
  rcases step_moves hr.ids h with ⟨-, hmoves⟩ | ⟨-, c, c', hmoves, hlose, hmoves'⟩
  · exact inv_of_moves hmoves hr
  · exact inv_of_moves hmoves' (hlose.inv (inv_of_moves hmoves hr))

theorem inv_of_reachable (hr : (remote k).Reachable r) : r.promises.Inv k :=
  hr.invariant (P := fun r => r.promises.Inv k) Promises.inv_init
    fun _ _ _ _ hr h => inv_step hr h

/-- No id is taken, and no promise becomes pending. -/
structure Remote.SameIds (r r' : Remote) : Prop where
  nextId : r'.nextId = r.nextId
  taken : r'.taken = r.taken
  pending : r'.pending.Sublist r.pending

theorem sameIds_onRouted (r : Remote) (m : Buffer) (d : Routed) :
    r.SameIds (r.onRouted k m d) := by
  cases d with
  | rejected | peerClosed => exact ⟨rfl, rfl, List.nil_sublist _⟩
  | dropped | flushed | reply _ => exact ⟨rfl, rfl, .refl _⟩
  | message h =>
    simp only [Remote.onRouted, Remote.onMessage]
    repeat' split
    all_goals constructor <;> simp [Remote.onError, Remote.rejectAll, Remote.settle]

theorem sameIds_onRead (r : Remote) (m : Buffer) : r.SameIds (r.onRead k m) := by
  rw [Remote.onRead]
  split
  · exact ⟨rfl, rfl, .refl _⟩
  · exact ⟨rfl, rfl, .refl _⟩
  · exact sameIds_onRouted ..

theorem sameIds_formerStep {i : ℕ} {e : Former} {a : Remote.PipeAction}
    (h : r.formerStep k i e a = some r') : r.SameIds r' := by
  -- The former endpoints, and what has been received, do not matter.
  have hrouted : ∀ received e m d, r.SameIds
      (({ r with received := received }.setFormer i e).onRouted k m d) := fun received e m d =>
    have h := sameIds_onRouted (k := k) ({ r with received := received }.setFormer i e) m d
    ⟨h.nextId, h.taken, h.pending⟩
  cases a with
  | read =>
    rw [Remote.formerStep] at h
    split at h
    · cases h
    · obtain rfl := Option.some.inj h
      split
      · rw [Remote.onFormerRead]
        split
        · exact ⟨rfl, rfl, .refl _⟩
        · exact ⟨rfl, rfl, .refl _⟩
        · exact hrouted ..
        · exact hrouted ..
      · exact ⟨rfl, rfl, .refl _⟩
  | disconnect =>
    rw [Remote.formerStep] at h
    split_ifs at h
    obtain rfl := Option.some.inj h
    exact ⟨rfl, rfl, List.nil_sublist _⟩
  | arrive m | peerClose =>
    rw [Remote.formerStep] at h
    split_ifs at h
    obtain rfl := Option.some.inj h
    exact ⟨rfl, rfl, .refl _⟩

/-- The ids of requests are taken in turn, and that of a pending one has been taken. -/
structure Remote.Ids (r : Remote) : Prop where
  nextId : r.nextId = r.taken % 2 ^ 32
  pending : ∀ d ∈ r.pending, d.requestId < r.taken

theorem Remote.Ids.takeId (h : r.Ids) : r.takeId.Ids where
  nextId := by
    have hnext := h.nextId
    simp only [Remote.takeId]
    split_ifs <;> omega
  pending d hd := Nat.lt_succ_of_lt (h.pending d hd)

theorem Remote.SameIds.ids (hs : r.SameIds r') (h : r.Ids) : r'.Ids where
  nextId := by rw [hs.nextId, hs.taken, h.nextId]
  pending d hd := hs.taken ▸ h.pending d (hs.pending.subset hd)

theorem Remote.Ids.sendMessage (hr : r.Ids) (ordinal : ℕ) (params : StructSpec)
    (response : Option StructSpec) (args : List Val) :
    (r.sendMessage k ordinal params response args).Ids := by
  generalize hr' : r.sendMessage k ordinal params response args = r'
  rcases sendMessage_cases r ordinal params response args hr' with
    ⟨-, rfl⟩ | ⟨-, rfl⟩ | ⟨-, -, -, -, rfl⟩ | ⟨-, -, -, rfl⟩ | ⟨-, response, -, -, -, -, rfl⟩
  · exact hr
  · exact hr.takeId
  · exact ⟨hr.nextId, hr.pending⟩
  · exact ⟨hr.takeId.nextId, hr.takeId.pending⟩
  · refine ⟨hr.takeId.nextId, fun d hd => ?_⟩
    rcases mem_setPending hd with rfl | hd
    · -- The id that has just been taken.
      exact Nat.lt_succ_of_le (hr.nextId ▸ Nat.mod_le _ _)
    · exact hr.takeId.pending d hd

theorem ids_step {a : Remote.Action} (hr : r.Ids) (h : r.step k a = some r') : r'.Ids := by
  cases a with
  | sendMessage ordinal params response args =>
    exact Option.some.inj h ▸ hr.sendMessage ordinal params response args
  | close => exact Option.some.inj h ▸ ⟨hr.nextId, by simp [Remote.close, Remote.rejectAll]⟩
  | unbind =>
    obtain rfl := Option.some.inj h
    rw [Remote.unbind]
    split_ifs
    · exact ⟨hr.nextId, hr.pending⟩
    · exact hr
  | bindHandle e =>
    obtain rfl := Option.some.inj h
    exact ⟨(Nat.mod_eq_of_lt e.nextId_lt).symm, by simp [Remote.bindHandle]⟩
  | flushForTesting =>
    obtain rfl := Option.some.inj h
    rw [Remote.flushForTesting]
    split
    · simp only
      split
      · exact hr.takeId
      · exact ⟨hr.takeId.nextId, hr.takeId.pending⟩
    · exact hr
  | read =>
    simp only [Remote.step] at h
    split at h
    · cases h
    · rename_i m inbox _
      split_ifs at h
      obtain rfl := Option.some.inj h
      exact (sameIds_onRead _ m).ids ⟨hr.nextId, hr.pending⟩
  | disconnect =>
    simp only [Remote.step] at h
    split_ifs at h
    exact Option.some.inj h ▸ ⟨hr.nextId, by simp [Remote.onError, Remote.rejectAll]⟩
  | arrive m | peerClose =>
    simp only [Remote.step] at h
    split_ifs at h
    exact Option.some.inj h ▸ ⟨hr.nextId, hr.pending⟩
  | former i a =>
    obtain ⟨e, -, h⟩ := Option.bind_eq_some_iff.1 h
    exact (sameIds_formerStep h).ids hr

theorem ids_of_reachable (hr : (remote k).Reachable r) : r.Ids :=
  hr.invariant (P := Remote.Ids) ⟨rfl, by simp [remote]⟩ fun _ _ _ _ hr h => ids_step hr h

/-- No id is given twice before all have been. -/
theorem fresh_of_taken_lt (hr : (remote k).Reachable r) (htaken : r.taken < 2 ^ 32) :
    ∀ d ∈ r.pending, d.requestId ≠ r.nextId := by
  have hids := ids_of_reachable hr
  intro d hd
  rw [hids.nextId, Nat.mod_eq_of_lt htaken]
  exact (hids.pending d hd).ne

/-- No promise is lost: it is pending, or it has been settled. -/
def Remote.Accounted (r : Remote) : Prop :=
  ∀ p < r.calls.length, p ∈ r.pending.map Pending.promise ∨ p ∈ r.settlements.map Prod.fst

theorem accounted_iff : r.Accounted ↔ r.promises.Accounted := by
  simp only [Remote.Accounted, Promises.Accounted, Ledger.Accounted, Promises.ledger,
    List.mem_append]
  rfl

/-- A step from where no promise is lost loses one unless it keeps them. -/
theorem accounted_step {a : Remote.Action} (hr : r.promises.Inv k) (hacc : r.Accounted)
    (h : r.step k a = some r') : r'.Accounted ↔ r.Keeps k a := by
  rw [accounted_iff] at hacc ⊢
  rcases step_moves hr.ids h with ⟨hkeeps, hmoves⟩ | ⟨hkeeps, c, c', hmoves, hlose, hmoves'⟩
  · exact iff_of_true ((accounted_of_moves hmoves hr).2 hacc) hkeeps
  · have hc := inv_of_moves hmoves hr
    exact iff_of_false ((accounted_of_moves hmoves' (hlose.inv hc)).not.2 (hlose.not_accounted hc))
      hkeeps

/-- What the page may rely on, whatever the peer does. -/
structure Remote.Safe (k : Bool) (r : Remote) : Prop where
  /-- No promise is settled twice. -/
  once : (r.settlements.map Prod.fst).Nodup
  /-- A promise that is pending has not been settled. -/
  pending : ∀ d ∈ r.pending, d.promise ∉ r.settlements.map Prod.fst
  /-- A promise is resolved only with what a response to its own request carries. -/
  resolved : ∀ p v, (p, .resolved v) ∈ r.settlements → Promises.Answered k r.calls r.received p v
  /-- Once the pipe has been given up, no promise is pending any more, unless the remote end was
      unbound and has kept them. -/
  stopped : r.started = false → r.unbound = false → r.pending = []

theorem remote_safe (hr : (remote k).Reachable r) : r.Safe k := by
  have hinv := inv_of_reachable hr
  have hnodup := List.nodup_append.1 hinv.ledger.nodup
  refine ⟨hnodup.2.1, fun d hd hp => ?_, hinv.resolved, hinv.stopped⟩
  exact hnodup.2.2 _ (List.mem_map_of_mem hd) _ hp rfl

/-- A string of characters that take a byte. -/
def textVal (s : String) : Val := .string (s.toList.map fun c => UInt16.ofNat c.toNat)

/-- The page calls `execute`. -/
def callExecute (request : String) : Remote.Action :=
  .sendMessage executeOrdinal (executeParamsSpec true asciiText)
    (some (executeResponseParamsSpec true asciiText)) [textVal request]

/-- A response of the peer arrives. -/
def arriveResult (requestId : ℕ) (result : String) : Remote.Action :=
  .arrive ((encodeMessage true 0 2 executeOrdinal requestId
    (executeResponseParamsSpec true asciiText)
    (.object [("result", textVal result)])).toOption.getD (.zero 0))

/-- The peer asks for a flush. -/
def arriveFlush : Remote.Action :=
  .arrive ((encodeMessage true 0 1 runMessageId 0 (runMessageParamsSpec true)
    (.object [("input", .object [("flushForTesting", .object [])])])).toOption.getD (.zero 0))

/-- The peer says that it has closed its side of the endpoint. -/
def arriveClosed : Remote.Action :=
  .arrive ((encodeMessage true 0 0 runOrClosePipeMessageId 0
    (runOrClosePipeMessageParamsSpec true asciiText) (.object [("input",
      .object [("peerAssociatedEndpointClosedEvent", .object [("id", .number 0)])])])).toOption.getD
        (.zero 0))

/-- The peer answers the second request first, then asks for a flush, which is answered, and then
    gives up the endpoint, so that the third request is never answered. -/
theorem remote_safe_reordered :
    let r := (remote true).after [callExecute "a", callExecute "b", callExecute "c",
      arriveResult 1 "b", arriveResult 0 "a", arriveFlush, arriveClosed, .read, .read, .read, .read]
    r.settlements.map Prod.fst = [1, 0, 2] ∧ r.written.length = 4 ∧ r.started = false ∧
      r.Safe true :=
  ⟨by decide +kernel, by decide +kernel, by decide +kernel, remote_safe (Machine.reachable_after _)⟩

/-- Along a run no promise is lost if, and only if, no id is given to a request while another
    one with that id is pending, every response to a pending request is proper, and no pipe is
    bound while a promise is pending. -/
theorem accounted_iff_keeps (as : List Remote.Action) :
    (remote k).Always Remote.Accounted (remote k).init as ↔
      (remote k).Steps (Remote.Keeps k) (remote k).init as :=
  Machine.always_iff_steps (fun _ _ _ hr hacc h => accounted_step (inv_of_reachable hr) hacc h)
    .init (fun _ hp => absurd hp (Nat.not_lt_zero _)) as

end Qlabs.Bindings
