import Qlabs.Bindings.Remote

/-!
# Both ends of an interface

`InterfaceReceiverHelperInternal` of `bindings.js` is the other end of a pipe: it reads the
requests, calls their handlers, and sends a response when what a handler has returned is
fulfilled. Here a remote end and a receiver have the two ends of one pipe (`interface`).

Each end has been made from its own version of the interface: the structures that it sends
need not be those that the other one knows of (`Payload`). What a message goes through is
recorded, from the call on to the answer.

The page neither unbinds the remote end nor binds it again, and neither end asks for a flush. As
before, handles are left out, and interfaces that share a pipe; so are the routers of callbacks.
-/

namespace Qlabs.Bindings

variable (k : Bool)

/-! ## Interfaces -/

/-- A structure as one end sends it, and as the other end knows it. -/
structure Payload where
  sent : StructSpec
  received : StructSpec
  codec : StructCodec sent received

/-- What can be encoded as one is valid, and not too large. -/
def Payload.Accepts (p : Payload) (a : Val) : Prop :=
  ∀ flags ordinal requestId m, encodeMessage k 0 flags ordinal requestId p.sent a = .ok m →
    p.codec.Valid a ∧ 32 + p.sent.packedSize + p.codec.rest a < 2 ^ 53

/-- A method: the remote end sends its parameters, and the receiver the response. -/
structure Method where
  ordinal : ℕ
  params : Payload
  response : Option Payload

/-- An interface. -/
structure InterfaceSpec where
  methods : List Method
  nodup : (methods.map Method.ordinal).Nodup
  /-- The other ordinals are for control messages. -/
  ordinal_lt : ∀ m ∈ methods, m.ordinal < 4294967294

/-! ## The receiver -/

/-- What a handler does: it throws; it returns nothing; it returns null, whose constructor cannot be
    asked for its name, or an object with that flaw; or it returns a promise, which any other value
    is made into. -/
inductive Returned
  | threw
  | undefined
  | null
  | promise
  deriving DecidableEq

/-- Where a response is expected, an error is thrown, and the receiver stays as it is: by the
    handler, or else by looking for the name of the constructor, which null does not have. -/
def Returned.Fails (returned : Returned) : Prop := returned = .threw ∨ returned = .null

instance : DecidablePred Returned.Fails := fun _ => inferInstanceAs (Decidable (_ ∨ _))

/-- A call of a handler. -/
structure Invocation where
  ordinal : ℕ
  args : List Val

/-- A promise that a handler has returned. -/
structure Task where
  /-- Which of the messages that were read is answered. -/
  request : ℕ
  ordinal : ℕ
  requestId : ℕ
  response : Payload

/-- An answer that was sent. -/
structure Answer where
  request : ℕ
  value : Val
  message : Buffer

/-- A receiver that has been bound to an end of a pipe. -/
structure Receiver where
  /-- `g` of `Y` has the endpoint; its end of the pipe is open, and its reader watches it. -/
  started : Bool := true
  /-- How many messages it has read. -/
  read : ℕ := 0
  tasks : List Task := []
  /-- The calls of the handlers, in order, and what they did. -/
  invoked : List (Invocation × Returned) := []
  answers : List Answer := []
  /-- How often the listeners of connection errors were called. -/
  errors : ℕ := 0

namespace Receiver

variable (c : Receiver)

/-- `h` of `Y` -/
def onError : Receiver := { c with started := false, errors := c.errors + 1 }

/-- `ga` of `Y` -/
def closeBindings : Receiver := { c with started := false }

/-- `F` of `Y`, for a message to its endpoint: where it throws, before it calls the handler or
    after, nothing else happens. -/
def onMessage (spec : InterfaceSpec) (m : Buffer) (h : Header) (returned : Returned) : Receiver :=
  if h.flags &&& 2 ≠ 0 then c
  else
    match spec.methods.find? (·.ordinal = h.ordinal) with
    | none => c
    | some d =>
      match decodePayload k d.params.received m h with
      | .error _ => c
      | .ok f =>
        let args := d.params.received.fields.map fun g => f.property g.name
        let c := { c with invoked := c.invoked ++ [(⟨h.ordinal, args⟩, returned)] }
        match returned, d.response with
        | .threw, _ => c
        | _, none => c
        | .undefined, some _ => c.onError
        | .null, some _ => c
        | .promise, some response =>
          { c with tasks := c.tasks ++ [⟨c.read, h.ordinal, h.requestId, response⟩] }

/-- The router gets a message, as that of a remote end does; the answer to a flush is written to
    the pipe. -/
def onRead (spec : InterfaceSpec) (m : Buffer) (returned : Returned) : Receiver × Option Buffer :=
  let c' := { c with read := c.read + 1 }
  match route k (some []) m with
  | .error _ => (c', none)
  | .ok .rejected | .ok .peerClosed => (c'.onError, none)
  | .ok .dropped | .ok .flushed => (c', none)
  | .ok (.reply m') => (c', some m')
  | .ok (.message h) => ({ c.onMessage k spec m h returned with read := c.read + 1 }, none)

/-- A promise of a handler is fulfilled, or else rejected: what is written to the pipe then, if
    that is open. -/
def settle (i : ℕ) (value : Option Val) : Option (Receiver × Option Buffer) :=
  match c.tasks[i]? with
  | none => none
  | some t =>
    let c := { c with tasks := c.tasks.eraseIdx i }
    match value with
    | none => some (c.onError, none)
    | some g =>
      match encodeMessage k 0 2 t.ordinal t.requestId t.response.sent g with
      | .error _ => some (c.onError, none)
      | .ok m =>
        if c.started then some ({ c with answers := c.answers ++ [⟨t.request, g, m⟩] }, some m)
        else some (c, none)

end Receiver

/-! ## The system -/

/-- A message that the page has sent. -/
structure Sent where
  method : Method
  args : List Val
  requestId : ℕ
  /-- The promise of its response, if it has one. -/
  promise : Option ℕ
  message : Buffer

/-- A remote end and a receiver. -/
structure Interface where
  remote : Remote := {}
  receiver : Receiver := {}
  /-- The messages that the page has sent, in order. -/
  sent : List Sent := []

namespace Interface

variable (s : Interface)

/-- What happens: the page calls a method, or closes the remote end; this reads the next message,
    or finds that the other end of the pipe has been closed; the same for the receiver, whose
    handler does something with the message; a promise of a handler is settled. -/
inductive Action
  | call (i : ℕ) (args : List Val)
  | close
  | read
  | disconnect
  | dispatch (returned : Returned)
  | hangUp
  | settle (i : ℕ) (value : Option Val)
  | closeBindings

/-- The page calls a method. -/
def call (m : Method) (args : List Val) : Interface :=
  let r := s.remote.sendMessage k m.ordinal m.params.sent (m.response.map Payload.received) args
  { s with
    remote := r
    sent := s.sent ++ (r.written.drop s.remote.written.length).map fun message =>
      ⟨m, args, s.remote.nextId, m.response.map fun _ => s.remote.calls.length, message⟩ }

/-- The receiver has moved, and has written to the pipe, or has closed it. -/
def update (c : Receiver) (m : Option Buffer) : Interface :=
  { s with
    receiver := c
    remote := { s.remote with
      peerClosed := !c.started
      inbox := s.remote.inbox ++ m.toList } }

/-- One step. -/
def step (spec : InterfaceSpec) : Action → Option Interface
  | .call i args => spec.methods[i]?.map fun m => s.call k m args
  | .close => some { s with remote := s.remote.close }
  | .read => (s.remote.step k .read).map fun r => { s with remote := r }
  | .disconnect => (s.remote.step k .disconnect).map fun r => { s with remote := r }
  | .dispatch returned =>
    match s.remote.written[s.receiver.read]? with
    | none => none
    | some m =>
      if s.receiver.started then
        let (c, m') := s.receiver.onRead k spec m returned
        some (s.update c m')
      else none
  | .hangUp =>
    if s.receiver.started ∧ s.receiver.read = s.remote.written.length ∧ s.remote.bound = false then
      some (s.update s.receiver.onError none)
    else none
  | .settle i value => (s.receiver.settle k i value).map fun p => s.update p.1 p.2
  | .closeBindings => some (s.update s.receiver.closeBindings none)

/-- What is sent is of the type that it is sent as, if it can be encoded at all; and no request
    gets the id of a pending one. -/
def Ok (spec : InterfaceSpec) : Action → Prop
  | .call i args => ∀ m ∈ spec.methods[i]?, m.params.Accepts k (argsObject m.params.sent args) ∧
      s.remote.Keeps k (.sendMessage m.ordinal m.params.sent (m.response.map Payload.received) args)
  | .settle i (some g) => ∀ t ∈ s.receiver.tasks[i]?, t.response.Accepts k g
  | _ => True

end Interface

/-- A remote end and a receiver, at the ends of one pipe. -/
def interface (spec : InterfaceSpec) : Machine Interface Interface.Action where
  init := {}
  step s := s.step k spec

/-! ## The interface of `echo.mojom.m.js` -/

/-- A structure of one string, as both ends know it. -/
def Payload.string (x : Text) (name field : String) (hfield : field ≠ "__proto__") : Payload :=
  ⟨stringStruct true x name field hfield, stringStruct true x name field hfield,
    .string true x name field hfield⟩

/-- `Echo`, with its one method. -/
def echoInterface (x : Text) : InterfaceSpec where
  methods := [⟨executeOrdinal, .string x "Echo_Execute_Params" "request" request_ne,
    some (.string x "Echo_Execute_ResponseParams" "result" result_ne)⟩]
  nodup := List.nodup_singleton _
  ordinal_lt m hm := by
    obtain rfl := List.mem_singleton.1 hm
    exact show 531230075 < 4294967294 by decide

theorem accepts_string {x : Text} (name : String) {field : String} (hfield : field ≠ "__proto__")
    {w : List UInt16} (hlength : (x.encode w).length < 2 ^ 32) :
    (Payload.string x name field hfield).Accepts true (.object [(field, .string w)]) := by
  intro flags ordinal requestId m _
  have hget : (Val.object [(field, .string w)]).property field = .string w := by
    simp [Val.property]
  refine ⟨⟨⟨_, rfl⟩, fun s hs => .inl ?_⟩, ?_⟩
  · obtain rfl := List.mem_singleton.1 hs
    exact ⟨w, by simp [SentField.value, SentField.string, hget, Val.isNil], hlength⟩
  · have hrest : (Payload.string x name field hfield).codec.rest (.object [(field, .string w)]) =
        padded (8 + (x.encode w).length) := by
      simp [Payload.string, StructCodec.string, StructCodec.same, StructCodec.rest, SentField.size,
        SentField.value, SentField.string, hget, Val.isNil, Val.isNull, Codec.string]
    have hsize : (Payload.string x name field hfield).sent.packedSize = 16 := rfl
    rw [hrest, hsize, padded]
    omega

end Qlabs.Bindings
