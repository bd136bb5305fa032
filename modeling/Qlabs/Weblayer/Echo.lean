import Mathlib.Data.List.Infix
import Mathlib.Logic.Function.Basic
import Qlabs.Bytes
import Qlabs.Relay

/-!
# The echo service

The pages of the browser share one `EchoImpl`, which has one receiver. A page makes a
pipe and passes its receiving end to `BindEcho`, which drops it for a subframe; for a
main frame, the service resets its receiver, which closes the pipe it was bound to with
the requests in it, and binds the new one. Meanwhile the clients send requests, on pipes
that are bound or not, and disconnect.

* The receiver is not bound when `Bind` is called, and is the one of the last main
  frame (`Good.effect`);
* each pipe is a relay of its own requests (`Pipe.relay`), which moves one step at a
  time (`Pipe.Move`): only the bound one replies (`Pipe.Move.replied`).

So the replies a client gets are to a prefix of its own requests, in order
(`delivers_of_run`).
-/

namespace Qlabs.Weblayer

/-! ## Pipes -/

/-- A message pipe, one for each client. -/
abbrev PipeId := ℕ

/-- The callback of a call of `Execute`: the pipe it replies on, and which call it is. -/
structure ExecuteCallback where
  pipe : PipeId
  index : ℕ
  deriving DecidableEq

/-- A call of `Execute`. -/
structure ExecuteRequest where
  request : Bytes
  callback : ExecuteCallback
  deriving DecidableEq

/-- A run of a callback. -/
structure ExecuteReply where
  callback : ExecuteCallback
  result : Bytes
  deriving DecidableEq

/-- Where the receiving end of a pipe is: on its way to `BindEcho`, bound to a receiver,
    or closed. -/
inductive ReceivingEnd
  | pending
  | bound
  | closed
  deriving DecidableEq

/-- A pipe, with the history of its client. -/
structure Pipe where
  /-- The client has not disconnected. -/
  connected : Bool := true
  receivingEnd : ReceivingEnd := .pending
  /-- The strings that the client has sent, in order. -/
  sent : List Bytes := []
  /-- The requests in the pipe. -/
  requests : List ExecuteRequest := []
  /-- The replies in the pipe. -/
  replies : List ExecuteReply := []
  /-- The replies that the client has got, in order. -/
  received : List ExecuteReply := []

namespace Pipe

/-- The client calls `Execute`: the request is lost if the receiving end is closed. -/
def send (v : Pipe) (p : PipeId) (request : Bytes) : Pipe :=
  { v with
    sent := v.sent ++ [request]
    requests := if v.receivingEnd = .closed then v.requests
      else v.requests ++ [⟨request, ⟨p, v.sent.length⟩⟩] }

/-- The receiving end is closed: the requests in the pipe are discarded. -/
def close (v : Pipe) : Pipe := { v with receivingEnd := .closed, requests := [] }

end Pipe

/-! ## The service -/

/-- A frame, as far as `BindEcho` looks at it. -/
structure RenderFrameHost where
  /-- It has a `WebContents`. -/
  contents : Bool
  /-- It has a parent: it is a subframe. -/
  parent : Bool
  deriving DecidableEq

/-- The pipes, and the service. -/
structure State where
  pipe : PipeId → Pipe := fun _ => {}
  /-- `receiver_` of the one `EchoImpl`: the pipe it is bound to. -/
  receiver : Option PipeId := none
  /-- `Bind` has been called on a receiver that was bound. -/
  fault : Bool := false

namespace State

variable (s : State)

def setPipe (p : PipeId) (v : Pipe) : State := { s with pipe := Function.update s.pipe p v }

/-- A receiving end is destroyed. -/
def closePipe (p : PipeId) : State := s.setPipe p (s.pipe p).close

/-- `receiver_.reset()` -/
def reset : State :=
  match s.receiver with
  | none => s
  | some p => { s.closePipe p with receiver := none }

/-- `receiver_.Bind` -/
def bind (p : PipeId) : State :=
  if s.receiver.isSome then { s with fault := true }
  else { s.setPipe p { s.pipe p with receivingEnd := .bound } with receiver := some p }

/-- `EchoImpl::BindInterface` -/
def bindInterface (pendingReceiver : PipeId) : State :=
  let s := if s.receiver.isSome then s.reset else s
  s.bind pendingReceiver

/-- A callback replies on its pipe. -/
def runCallback (callback : ExecuteCallback) (result : Bytes) : State :=
  let v := s.pipe callback.pipe
  s.setPipe callback.pipe { v with replies := v.replies ++ [⟨callback, result⟩] }

/-- `EchoImpl::Execute` -/
def execute (request : Bytes) (callback : ExecuteCallback) : State :=
  s.runCallback callback request

/-- `BindEcho` -/
def bindEcho (host : RenderFrameHost) (receiver : PipeId) : State :=
  if !host.contents then s.closePipe receiver
  else if host.parent then s.closePipe receiver
  else s.bindInterface receiver

/-- What happens: a client sends a string, a frame passes a receiving end to `BindEcho`,
    the service runs its next request, a client gets its next reply, or disconnects. -/
inductive Action
  | send (p : PipeId) (request : Bytes)
  | bindEcho (host : RenderFrameHost) (p : PipeId)
  | dispatch
  | deliver (p : PipeId)
  | disconnect (p : PipeId)

/-- One step. The receiver stays bound when its client disconnects. -/
def step : Action → Option State
  | .send p request =>
    if (s.pipe p).connected then some (s.setPipe p ((s.pipe p).send p request)) else none
  | .bindEcho host p =>
    if (s.pipe p).receivingEnd = .pending then some (s.bindEcho host p) else none
  | .dispatch =>
    match s.receiver with
    | none => none
    | some p =>
      match (s.pipe p).requests with
      | [] => none
      | r :: requests =>
        some ((s.setPipe p { s.pipe p with requests := requests }).execute r.request r.callback)
  | .deliver p =>
    match (s.pipe p).replies with
    | [] => none
    | r :: replies =>
      if (s.pipe p).connected then
        some (s.setPipe p { s.pipe p with
          replies := replies, received := (s.pipe p).received ++ [r] })
      else none
  | .disconnect p =>
    if (s.pipe p).connected then some (s.setPipe p { s.pipe p with connected := false }) else none

end State

open State

/-- The service, before any page has come. -/
def machine : Machine State Action where
  init := {}
  step := step

/-! ## Pipes as relays -/

/-- A request with its own string. -/
def ExecuteRequest.reply (r : ExecuteRequest) : ExecuteReply := ⟨r.callback, r.request⟩

/-- The requests of a client that has sent some strings. -/
def requestsOf (p : PipeId) (sent : List Bytes) : List ExecuteRequest :=
  sent.mapIdx fun i request => ⟨request, ⟨p, i⟩⟩

/-- A request is replied to at once. -/
def echo (_ : Unit) (r : ExecuteRequest) : Unit × List ExecuteReply := ((), [r.reply])

/-- The relay of a pipe, open until its receiving end is closed. -/
def Pipe.relay (v : Pipe) (p : PipeId) : Relay Unit ExecuteRequest ExecuteReply where
  source := requestsOf p v.sent
  mailbox := v.requests
  outbox := v.replies
  sink := v.received
  state := if v.receivingEnd = .closed then none else some ()

/-- The replies on a pipe: those that the client has got, and those in the pipe. -/
def Pipe.replied (v : Pipe) : List ExecuteReply := v.received ++ v.replies

/-- What a step does to a pipe. -/
inductive Pipe.Move (p : PipeId) (v : Pipe) : Pipe → Prop
  | same : Move p v v
  | send (request : Bytes) : Move p v (v.send p request)
  | close : Move p v v.close
  | bind (hend : v.receivingEnd = .pending) : Move p v { v with receivingEnd := .bound }
  | reply {r : ExecuteRequest} {requests : List ExecuteRequest} (hend : v.receivingEnd = .bound)
      (hrequests : v.requests = r :: requests) :
      Move p v { v with requests := requests, replies := v.replies ++ [r.reply] }
  | deliver {r : ExecuteReply} {replies : List ExecuteReply} (hreplies : v.replies = r :: replies) :
      Move p v { v with replies := replies, received := v.received ++ [r] }
  | disconnect : Move p v { v with connected := false }

theorem process_echo (requests : List ExecuteRequest) :
    Relay.process echo () requests = ((), requests.map ExecuteRequest.reply) := by
  induction requests with
  | nil => rfl
  | cons r requests ih => simp [Relay.process, echo, ih]

theorem requestsOf_concat (p : PipeId) (sent : List Bytes) (request : Bytes) :
    requestsOf p (sent ++ [request]) = requestsOf p sent ++ [⟨request, ⟨p, sent.length⟩⟩] := by
  simp [requestsOf, List.mapIdx_concat]

namespace Pipe

variable {p : PipeId} {v v' : Pipe}

/-- What holds of a pipe at any time. -/
structure Inv (p : PipeId) (v : Pipe) : Prop where
  relay : Relay.Inv echo () (v.relay p)
  closed : v.receivingEnd = .closed → v.requests = []
  pending : v.receivingEnd = .pending → v.replied = []

theorem inv_init : Inv p {} := ⟨Relay.inv_empty, by simp, fun _ => rfl⟩

/-- The relay of a pipe receives a request that is sent, or loses it if it is closed. -/
theorem Inv.send (hv : v.Inv p) (request : Bytes) :
    Relay.Inv echo () ((v.send p request).relay p) := by
  by_cases hend : v.receivingEnd = .closed
  · have hlose := Relay.inv_lose hv.relay (by simp [Pipe.relay, hend]) (hv.closed hend)
      ⟨request, ⟨p, v.sent.length⟩⟩
    simpa [Pipe.send, Pipe.relay, hend, requestsOf_concat] using hlose
  · have hreceive := Relay.inv_step hv.relay (a := .receive ⟨request, ⟨p, v.sent.length⟩⟩) rfl
    simpa [Pipe.send, Pipe.relay, hend, requestsOf_concat] using hreceive

/-- A pipe moves as a relay does. -/
theorem Move.relay (h : v.Move p v') (hv : v.Inv p) : Relay.Inv echo () (v'.relay p) := by
  cases h with
  | same => exact hv.relay
  | send request => exact hv.send request
  | close => exact Relay.inv_discard hv.relay
  | bind hend => simpa [Pipe.relay, hend] using hv.relay
  | reply hend hrequests =>
    exact Relay.inv_step hv.relay (a := .forward)
      (by simp [Relay.step, Pipe.relay, hend, hrequests, echo])
  | deliver hreplies =>
    exact Relay.inv_step hv.relay (a := .deliver) (by simp [Relay.step, Pipe.relay, hreplies])
  | disconnect => exact hv.relay

/-- Only a pipe that is bound replies. -/
theorem Move.replied (h : v.Move p v') (hend : v.receivingEnd ≠ .bound) :
    v'.replied = v.replied := by
  cases h with
  | reply hbound => exact absurd hbound hend
  | deliver hreplies => simp [Pipe.replied, hreplies]
  | same | send | close | bind | disconnect => rfl

/-- A receiving end is bound only if it was pending, and stays closed. -/
theorem Move.receivingEnd (h : v.Move p v') :
    (v'.receivingEnd = .pending → v.receivingEnd = .pending) ∧
      (v.receivingEnd = .closed → v'.receivingEnd = .closed) := by
  cases h with
  | close => exact ⟨by simp [Pipe.close], fun _ => rfl⟩
  | bind hend => exact ⟨fun _ => hend, by simp [hend]⟩
  | same | send | reply | deliver | disconnect => exact ⟨id, id⟩

theorem Move.inv (h : v.Move p v') (hv : v.Inv p) : v'.Inv p := by
  refine ⟨h.relay hv, fun hclosed => ?_, fun hpending => ?_⟩
  · cases h with
    | same | deliver | disconnect => exact hv.closed hclosed
    | send request =>
      have hend : v.receivingEnd = .closed := hclosed
      simp [Pipe.send, hend, hv.closed hend]
    | close => rfl
    | bind => cases hclosed
    | reply hend =>
      rw [show v.receivingEnd = .closed from hclosed] at hend
      cases hend
  · have hend := h.receivingEnd.1 hpending
    rw [h.replied (by simp [hend]), hv.pending hend]

/-- The requests in a pipe are those of its own client. -/
theorem Inv.callback (hv : v.Inv p) {r : ExecuteRequest} (hr : r ∈ v.requests) :
    r.callback.pipe = p := by
  have hmem : r ∈ requestsOf p v.sent := (Relay.mailbox_suffix hv.relay).subset hr
  obtain ⟨i, hi, rfl⟩ := List.mem_mapIdx.1 hmem
  rfl

end Pipe

/-! ## Steps -/

variable {s s' : State} {p q : PipeId}

/-- The page of a frame is in a main frame: `BindEcho` takes it. -/
def RenderFrameHost.MainFrame (host : RenderFrameHost) : Prop :=
  host.contents = true ∧ host.parent = false

instance (host : RenderFrameHost) : Decidable host.MainFrame :=
  inferInstanceAs (Decidable (_ ∧ _))

/-- The pipe that an action binds, if it does. -/
def State.Action.binds : Action → Option PipeId
  | .bindEcho host p => if host.MainFrame then some p else none
  | _ => none

/-- What holds at any time. -/
structure Good (s : State) : Prop where
  fault : s.fault = false
  /-- A receiving end is bound to the one receiver. -/
  bound : ∀ p, (s.pipe p).receivingEnd = .bound ↔ s.receiver = some p
  inv : ∀ p, (s.pipe p).Inv p

/-- What a step does: each pipe makes a move, and the receiver is as given. -/
structure Effect (s s' : State) (receiver : Option PipeId) : Prop where
  fault : s'.fault = false
  receiver : s'.receiver = receiver
  bound : ∀ p, (s'.pipe p).receivingEnd = .bound ↔ s'.receiver = some p
  moves : ∀ p, (s.pipe p).Move p (s'.pipe p)

theorem good_init : Good {} := ⟨rfl, by simp, fun _ => Pipe.inv_init⟩

theorem Good.of_effect (hs : Good s) {receiver : Option PipeId} (h : Effect s s' receiver) :
    Good s' :=
  ⟨h.fault, h.bound, fun p => (h.moves p).inv (hs.inv p)⟩

theorem pipe_setPipe (v : Pipe) (q : PipeId) :
    (s.setPipe p v).pipe q = if q = p then v else s.pipe q := by
  simp [setPipe, Function.update_apply]

/-- A step that moves one pipe, without binding or closing one that is bound. -/
theorem Good.effect_setPipe (hs : Good s) {v : Pipe} (hmove : (s.pipe p).Move p v)
    (hend : v.receivingEnd = .bound ↔ (s.pipe p).receivingEnd = .bound) :
    Effect s (s.setPipe p v) s.receiver := by
  refine ⟨hs.fault, rfl, fun q => ?_, fun q => ?_⟩ <;> rw [pipe_setPipe]
  · split_ifs with h
    · subst h
      exact hend.trans (hs.bound q)
    · exact hs.bound q
  · split_ifs with h
    · subst h
      exact hmove
    · exact .same

/-- Resetting the receiver closes the pipe it is bound to, if any. -/
theorem Good.effect_reset (hs : Good s) : Effect s s.reset none := by
  cases hreceiver : s.receiver with
  | none =>
    rw [reset, hreceiver]
    exact ⟨hs.fault, hreceiver, hs.bound, fun _ => .same⟩
  | some o =>
    rw [reset, hreceiver]
    refine ⟨hs.fault, rfl, fun q => ?_, fun q => ?_⟩
    · show ((s.closePipe o).pipe q).receivingEnd = .bound ↔ none = some q
      rw [closePipe, pipe_setPipe]
      split_ifs with h
      · simp [Pipe.close]
      · rw [hs.bound q, hreceiver]
        simp [Ne.symm h]
    · show (s.pipe q).Move q ((s.closePipe o).pipe q)
      rw [closePipe, pipe_setPipe]
      split_ifs with h
      · subst h
        exact .close
      · exact .same

/-- Only the pipe of the receiver is closed. -/
theorem pipe_reset (h : s.receiver ≠ some p) : s.reset.pipe p = s.pipe p := by
  rw [reset]
  cases hreceiver : s.receiver with
  | none => rfl
  | some o =>
    have hne : p ≠ o := fun heq => h (heq ▸ hreceiver)
    exact (pipe_setPipe _ _).trans (if_neg hne)

/-- A receiver that has been reset can be bound. -/
theorem Effect.bind {t : State} (h : Effect s t none) (heq : t.pipe p = s.pipe p)
    (hend : (s.pipe p).receivingEnd = .pending) : Effect s (t.bind p) (some p) := by
  have hbind : t.bind p = { t.setPipe p { t.pipe p with receivingEnd := .bound } with
      receiver := some p } := by
    rw [State.bind, if_neg (by simp [h.receiver])]
  rw [hbind]
  refine ⟨h.fault, rfl, fun q => ?_, fun q => ?_⟩
  · show ((t.setPipe p _).pipe q).receivingEnd = .bound ↔ some p = some q
    rw [pipe_setPipe]
    split_ifs with hq
    · simp [hq]
    · rw [h.bound q, h.receiver]
      simp [Ne.symm hq]
  · show (s.pipe q).Move q ((t.setPipe p _).pipe q)
    rw [pipe_setPipe]
    split_ifs with hq
    · subst hq
      rw [heq]
      exact .bind hend
    · exact h.moves q

/-- `EchoImpl::BindInterface` resets the receiver, if it is bound, and binds it. -/
theorem bindInterface_eq : s.bindInterface p = s.reset.bind p := by
  rw [bindInterface]
  cases hreceiver : s.receiver <;> simp [reset, hreceiver]

theorem bindEcho_of_mainFrame {host : RenderFrameHost} (h : host.MainFrame) :
    s.bindEcho host p = s.bindInterface p := by
  simp [bindEcho, h.1, h.2]

theorem bindEcho_of_not_mainFrame {host : RenderFrameHost} (h : ¬host.MainFrame) :
    s.bindEcho host p = s.closePipe p := by
  rw [bindEcho]
  split_ifs with hcontents hparent
  · rfl
  · rfl
  · exact absurd ⟨by simpa using hcontents, by simpa using hparent⟩ h

theorem Good.effect_bindEcho (hs : Good s) (host : RenderFrameHost)
    (hend : (s.pipe p).receivingEnd = .pending) :
    Effect s (s.bindEcho host p) ((Action.bindEcho host p).binds.or s.receiver) := by
  by_cases h : host.MainFrame
  · have hne : s.receiver ≠ some p := fun hreceiver => by
      simp [(hs.bound p).2 hreceiver] at hend
    rw [bindEcho_of_mainFrame h, bindInterface_eq, Action.binds, if_pos h]
    exact hs.effect_reset.bind (pipe_reset hne) hend
  · rw [bindEcho_of_not_mainFrame h, Action.binds, if_neg h]
    exact hs.effect_setPipe .close (by simp [Pipe.close, hend])

/-- A request is replied to on the pipe it came on. -/
theorem execute_setPipe {r : ExecuteRequest} {v : Pipe} (h : r.callback.pipe = p) :
    (s.setPipe p v).execute r.request r.callback =
      s.setPipe p { v with replies := v.replies ++ [r.reply] } := by
  subst h
  simp [execute, runCallback, setPipe, ExecuteRequest.reply]

/-- One lemma for all actions: the receiver is the pipe that the action binds, or stays. -/
theorem Good.effect {a : Action} (hs : Good s) (h : s.step a = some s') :
    Effect s s' (a.binds.or s.receiver) := by
  cases a with
  | send p request =>
    obtain ⟨-, h⟩ := Option.ite_none_right_eq_some.1 h
    obtain rfl := Option.some.inj h
    exact hs.effect_setPipe (.send request) Iff.rfl
  | bindEcho host p =>
    obtain ⟨hend, h⟩ := Option.ite_none_right_eq_some.1 h
    obtain rfl := Option.some.inj h
    exact hs.effect_bindEcho host hend
  | dispatch =>
    cases hreceiver : s.receiver with
    | none => simp [step, hreceiver] at h
    | some p =>
      cases hrequests : (s.pipe p).requests with
      | nil => simp [step, hreceiver, hrequests] at h
      | cons r requests =>
        simp only [step, hreceiver, hrequests, Option.some.injEq] at h
        have hcallback := (hs.inv p).callback (hrequests ▸ List.mem_cons_self)
        rw [execute_setPipe hcallback] at h
        subst h
        rw [← hreceiver]
        exact hs.effect_setPipe (.reply ((hs.bound p).2 hreceiver) hrequests) Iff.rfl
  | deliver p =>
    cases hreplies : (s.pipe p).replies with
    | nil => simp [step, hreplies] at h
    | cons r replies =>
      simp only [step, hreplies] at h
      obtain ⟨-, h⟩ := Option.ite_none_right_eq_some.1 h
      obtain rfl := Option.some.inj h
      exact hs.effect_setPipe (.deliver hreplies) Iff.rfl
  | disconnect p =>
    obtain ⟨-, h⟩ := Option.ite_none_right_eq_some.1 h
    obtain rfl := Option.some.inj h
    exact hs.effect_setPipe .disconnect Iff.rfl

/-! ## Runs -/

theorem good_of_reachable (hs : machine.Reachable s) : Good s :=
  hs.invariant good_init fun _ _ _ _ hs h => hs.of_effect (hs.effect h)

/-- The pipe that a sequence of actions binds last. -/
def lastBound (as : List Action) : Option PipeId := (as.filterMap Action.binds).getLast?

/-- The receiver is bound to the pipe that was bound last. -/
theorem receiver_of_run {as : List Action} (h : machine.run machine.init as = some s) :
    s.receiver = lastBound as := by
  induction as using List.reverseRecOn generalizing s with
  | nil => exact Option.some.inj h ▸ rfl
  | append_singleton as a ih =>
    obtain ⟨t, ht, hstep⟩ := Machine.run_concat.1 h
    have hgood := good_of_reachable (Machine.reachable_of_run ht)
    rw [(hgood.effect hstep).receiver, ih ht, lastBound, lastBound, List.filterMap_append,
      List.getLast?_append]
    cases hbinds : a.binds <;> simp [hbinds]

/-- Only the client of the receiver's pipe is served. -/
theorem Good.replied (hs : Good s) {a : Action} (h : s.step a = some s')
    (hne : s.receiver ≠ some p) : (s'.pipe p).replied = (s.pipe p).replied :=
  ((hs.effect h).moves p).replied fun hend => hne ((hs.bound p).1 hend)

/-- A pipe whose receiving end is closed does not reply any more. -/
theorem replied_of_closed {as : List Action} (hs : machine.Reachable s)
    (hclosed : (s.pipe p).receivingEnd = .closed) (h : machine.run s as = some s') :
    (s'.pipe p).replied = (s.pipe p).replied := by
  refine (hs.run_invariant (P := fun t => (t.pipe p).receivingEnd = .closed ∧
    (t.pipe p).replied = (s.pipe p).replied) ?_ ⟨hclosed, rfl⟩ h).2
  rintro t a t' ht ⟨hclosed, hreplied⟩ hstep
  have hmove := ((good_of_reachable ht).effect hstep).moves p
  exact ⟨hmove.receivingEnd.2 hclosed, (hmove.replied (by simp [hclosed])).trans hreplied⟩

/-- The replies to the strings that a client has sent, each with its own string. -/
def repliesTo (p : PipeId) (sent : List Bytes) : List ExecuteReply :=
  sent.mapIdx fun i request => ⟨⟨p, i⟩, request⟩

theorem map_reply_requestsOf (p : PipeId) (sent : List Bytes) :
    (requestsOf p sent).map ExecuteRequest.reply = repliesTo p sent := by
  rw [requestsOf, repliesTo, List.mapIdx_eq_zipIdx_map, List.mapIdx_eq_zipIdx_map, List.map_map]
  rfl

/-- The replies on a pipe are to the first strings of its client. -/
theorem Pipe.Inv.replied_prefix {v : Pipe} (hv : v.Inv p) :
    v.replied <+: repliesTo p v.sent := by
  have hprefix := Relay.sink_prefix hv.relay
  rwa [process_echo, Pipe.relay, map_reply_requestsOf] at hprefix

/-- After the actions `as`, no reply has gone astray. -/
structure Delivers (as : List Action) (s : State) : Prop where
  /-- The receiver was not bound, whenever `Bind` was called. -/
  fault : s.fault = false
  /-- It is the one of the last main frame, -/
  receiver : s.receiver = lastBound as
  /-- whose client is the only one that is served. -/
  served : ∀ a s', s.step a = some s' → ∀ p, s.receiver ≠ some p →
    (s'.pipe p).replied = (s.pipe p).replied
  /-- A frame that is not a main frame changes nothing, and never gets a reply. -/
  refused : ∀ host p s', ¬host.MainFrame → s.step (.bindEcho host p) = some s' →
    s'.receiver = s.receiver ∧ (∀ q ≠ p, s'.pipe q = s.pipe q) ∧
      ∀ bs t, machine.run s' bs = some t → (t.pipe p).replied = []
  /-- A client gets the replies to its own strings, in order, as far as they come. -/
  replies : ∀ p, (s.pipe p).received <+: repliesTo p (s.pipe p).sent

/-- The pending receiver of a subframe is closed: nothing else changes. -/
theorem refused_of_reachable (hs : machine.Reachable s) {host : RenderFrameHost}
    (hhost : ¬host.MainFrame) (h : s.step (.bindEcho host p) = some s') :
    s'.receiver = s.receiver ∧ (∀ q ≠ p, s'.pipe q = s.pipe q) ∧
      ∀ bs t, machine.run s' bs = some t → (t.pipe p).replied = [] := by
  have hs' : machine.Reachable s' := hs.step (a := .bindEcho host p) h
  obtain ⟨hend, h⟩ := Option.ite_none_right_eq_some.1 h
  obtain rfl := Option.some.inj h
  rw [bindEcho_of_not_mainFrame hhost] at hs' ⊢
  have hp : (s.closePipe p).pipe p = (s.pipe p).close := by
    rw [closePipe, pipe_setPipe, if_pos rfl]
  refine ⟨rfl, fun q hq => by rw [closePipe, pipe_setPipe, if_neg hq], fun bs t hrun => ?_⟩
  rw [replied_of_closed hs' (by rw [hp]; rfl) hrun, hp]
  exact ((good_of_reachable hs).inv p).pending hend

/-- However binding, sending, replying and disconnecting interleave, the receiver is
    rebound to the last main frame, only its client is served, and every client gets
    the replies to its own strings, in order and once each. -/
theorem delivers_of_run {as : List Action} (h : machine.run machine.init as = some s) :
    Delivers as s := by
  have hs := Machine.reachable_of_run h
  have hgood := good_of_reachable hs
  refine ⟨hgood.fault, receiver_of_run h, fun a s' hstep p hne => hgood.replied hstep hne,
    fun host p s' hhost hstep => refused_of_reachable hs hhost hstep, fun p => ?_⟩
  exact (List.prefix_append _ _).trans (Pipe.Inv.replied_prefix (hgood.inv p))

/-- Two pages, the second one with a subframe: the first one is served until the second
    one comes, and loses its last request. -/
theorem delivers_pages :
    let as : List Action :=
      [.send 0 (bytes "a"), .bindEcho ⟨true, false⟩ 0, .dispatch, .send 0 (bytes "b"),
        .bindEcho ⟨true, true⟩ 1, .send 1 (bytes "c"), .bindEcho ⟨true, false⟩ 2,
        .send 2 (bytes "d"), .dispatch, .deliver 0, .deliver 2, .disconnect 0]
    Delivers as (machine.after as) ∧ (machine.after as).receiver = some 2 ∧
      ((machine.after as).pipe 0).received = [⟨⟨0, 0⟩, bytes "a"⟩] ∧
      ((machine.after as).pipe 1).received = [] ∧
      ((machine.after as).pipe 2).received = [⟨⟨2, 0⟩, bytes "d"⟩] := by
  intro as
  exact ⟨delivers_of_run (Machine.run_after (by decide)), by decide, by decide, by decide,
    by decide⟩

end Qlabs.Weblayer
