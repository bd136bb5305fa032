import Qlabs.Bindings.Types

/-!
# Endpoints, and the messages that control them

A pipe belongs to an endpoint, whose router reads it: most messages are for the client of the
endpoint, that is, a remote end or a receiver. Others are for control. The peer may say that it
has closed an endpoint, or ask for a flush, which is answered at once. What becomes of a message
is `route`.

Endpoints that share a pipe are left out, and so are messages with handles.
-/

namespace Qlabs.Bindings

variable (k : Bool)

/-! ## The structures of control messages -/

/-- `mojo.interfaceControl.QueryVersionSpec` -/
def queryVersionSpec : StructSpec := ⟨"QueryVersion", [], [(0, 8)], by simp⟩

/-- `mojo.interfaceControl.QueryVersionResultSpec` -/
def queryVersionResultSpec : StructSpec where
  name := "QueryVersionResult"
  fields := [⟨"version", 0, 0, uintType k 4, .number 0, false, 0⟩]
  versions := [(0, 16)]

/-- `mojo.interfaceControl.FlushForTestingSpec` -/
def flushForTestingSpec : StructSpec := ⟨"FlushForTesting", [], [(0, 8)], by simp⟩

/-- `mojo.interfaceControl.RunInputSpec` -/
def runInputSpec : UnionSpec where
  name := "RunInput"
  fields := [⟨"queryVersion", 0, structType k queryVersionSpec, false⟩,
    ⟨"flushForTesting", 1, structType k flushForTestingSpec, false⟩]

/-- `mojo.interfaceControl.RunOutputSpec` -/
def runOutputSpec : UnionSpec where
  name := "RunOutput"
  fields := [⟨"queryVersionResult", 0, structType k (queryVersionResultSpec k), false⟩]

/-- `mojo.interfaceControl.RunMessageParamsSpec` -/
def runMessageParamsSpec : StructSpec where
  name := "RunMessageParams"
  fields := [⟨"input", 0, 0, unionType k (runInputSpec k), .null, false, 0⟩]
  versions := [(0, 24)]

/-- `mojo.interfaceControl.RunResponseMessageParamsSpec` -/
def runResponseMessageParamsSpec : StructSpec where
  name := "RunResponseMessageParams"
  fields := [⟨"output", 0, 0, unionType k (runOutputSpec k), .null, true, 0⟩]
  versions := [(0, 24)]

variable (x : Text)

/-- `mojo.pipeControl.DisconnectReasonSpec` -/
def disconnectReasonSpec : StructSpec where
  name := "DisconnectReason"
  fields := [⟨"customReason", 0, 0, uintType k 4, .number 0, false, 0⟩,
    ⟨"description", 8, 0, stringType k x, .null, false, 0⟩]
  versions := [(0, 24)]

/-- `mojo.pipeControl.PeerAssociatedEndpointClosedEventSpec` -/
def peerAssociatedEndpointClosedEventSpec : StructSpec where
  name := "PeerAssociatedEndpointClosedEvent"
  fields := [⟨"id", 0, 0, uintType k 4, .number 0, false, 0⟩,
    ⟨"disconnectReason", 8, 0, structType k (disconnectReasonSpec k x), .null, true, 0⟩]
  versions := [(0, 24)]

/-- `mojo.pipeControl.PauseUntilFlushCompletesSpec` -/
def pauseUntilFlushCompletesSpec : StructSpec where
  name := "PauseUntilFlushCompletes"
  fields := [⟨"flushPipe", 0, 0, handleType k, .null, false, 0⟩]
  versions := [(0, 16)]

/-- `mojo.pipeControl.FlushAsyncSpec` -/
def flushAsyncSpec : StructSpec where
  name := "FlushAsync"
  fields := [⟨"flusherPipe", 0, 0, handleType k, .null, false, 0⟩]
  versions := [(0, 16)]

/-- `mojo.pipeControl.RunOrClosePipeInputSpec` -/
def runOrClosePipeInputSpec : UnionSpec where
  name := "RunOrClosePipeInput"
  fields := [⟨"peerAssociatedEndpointClosedEvent", 0,
      structType k (peerAssociatedEndpointClosedEventSpec k x), false⟩,
    ⟨"pauseUntilFlushCompletes", 1, structType k (pauseUntilFlushCompletesSpec k), false⟩,
    ⟨"flushAsync", 2, structType k (flushAsyncSpec k), false⟩]

/-- `mojo.pipeControl.RunOrClosePipeMessageParamsSpec` -/
def runOrClosePipeMessageParamsSpec : StructSpec where
  name := "RunOrClosePipeMessageParams"
  fields := [⟨"input", 0, 0, unionType k (runOrClosePipeInputSpec k x), .null, false, 0⟩]
  versions := [(0, 24)]

/-! ## Endpoints -/

theorem firstId_lt : 0 < 2 ^ 32 := Nat.two_pow_pos 32

/-- `J`, with its end of a pipe. -/
structure Endpoint where
  /-- `F`: the id of the next request. -/
  nextId : ℕ := 0
  nextId_lt : nextId < 2 ^ 32 := by exact firstId_lt
  /-- `s`, which it loses with its client: the ids of the flushes that it has asked for. -/
  control : Option (List ℕ) := some []
  /-- The messages in the pipe, from the peer. -/
  inbox : List Buffer := []
  /-- The peer has closed its end. -/
  peerClosed : Bool := false
  /-- The messages that have been written to the pipe, in order. -/
  written : List Buffer := []

/-- What the router makes of a message. -/
inductive Routed
  /-- It is too short: the pipe is closed. -/
  | rejected
  /-- It is of no concern to the endpoint. -/
  | dropped
  /-- The peer has closed its side of the endpoint. -/
  | peerClosed
  /-- The answer to a flush: its promise is resolved. -/
  | flushed
  /-- A flush, and the answer that is written to the pipe. -/
  | reply (m : Buffer)
  /-- It is for the client. -/
  | message (h : Header)

/-- `mojo.interfaceControl.RUN_MESSAGE_ID` -/
def runMessageId : ℕ := 4294967295

/-- `mojo.pipeControl.RUN_OR_CLOSE_PIPE_MESSAGE_ID` -/
def runOrClosePipeMessageId : ℕ := 4294967294

/-- What the description of a disconnection says is never looked at. -/
def Text.unread : Text := ⟨fun _ => [], fun _ => []⟩

/-- The id of the endpoint that the peer says it has closed. -/
def closedEndpoint (m : Buffer) (h : Header) : Js (Option Val) := do
  let params ← decodePayload k (runOrClosePipeMessageParamsSpec k .unread) m h
  let input ← params.get "input"
  if ← input.hasOwnProperty "peerAssociatedEndpointClosedEvent" then
    let event ← input.get "peerAssociatedEndpointClosedEvent"
    return some (← event.get "id")
  return none

/-- A control message of an interface. Another request than that for a flush is left to the
    client, and so is an answer that was not asked for. -/
def routeControl (control : Option (List ℕ)) (m : Buffer) (h : Header) : Js Routed := do
  let f ← viewFrom m h.headerSize
  if h.flags &&& 1 ≠ 0 then
    let params ← decodeStructInline k (runMessageParamsSpec k) m f
    let input ← params.get "input"
    if ← input.hasOwnProperty "flushForTesting" then
      if control.isNone then throw .typeError
      return .reply (← encodeMessage k 0 2 runMessageId h.requestId
        (runResponseMessageParamsSpec k) (.object [("output", .null)]))
    return .message h
  match control with
  | none => throw .typeError
  | some ids => return if h.requestId ∈ ids then .flushed else .message h

/-- `wa`, for a pipe with one endpoint. -/
def route (control : Option (List ℕ)) (m : Buffer) : Js Routed := do
  match ← decodeHeader k m with
  | none => return .rejected
  | some h =>
    if h.ordinal = runOrClosePipeMessageId then
      match ← closedEndpoint k m h with
      | some (.number 0) => return .peerClosed
      | _ => return .dropped
    if h.interfaceId ≠ 0 then return .dropped
    if h.ordinal = runMessageId then routeControl k control m h
    else return .message h

variable {k} {control : Option (List ℕ)} {m : Buffer} {h h' : Header}

theorem routeControl_message (hroute : routeControl k control m h = .ok (.message h')) :
    h' = h := by
  simp only [routeControl, Bind.bind, Except.bind, Pure.pure, Except.pure] at hroute
  repeat' split at hroute
  all_goals cases hroute
  all_goals rfl

/-- What is for the client is a message to its endpoint. -/
theorem header_of_route (hroute : route k control m = .ok (.message h)) :
    decodeHeader k m = .ok (some h) ∧ h.interfaceId = 0 := by
  rw [route] at hroute
  cases hheader : decodeHeader k m with
  | error e =>
    rw [hheader] at hroute
    cases hroute
  | ok header =>
    cases header with
    | none =>
      rw [hheader] at hroute
      cases hroute
    | some h' =>
      rw [hheader] at hroute
      simp only [Bind.bind, Except.bind, Pure.pure, Except.pure] at hroute
      split_ifs at hroute with hpipe hi hrun
      · repeat' split at hroute
        all_goals cases hroute
      · cases hroute
      · obtain rfl := routeControl_message hroute
        exact ⟨rfl, not_not.1 hi⟩
      · cases hroute
        exact ⟨rfl, not_not.1 hi⟩

/-- A message with any other ordinal is for the client. -/
theorem route_of_header (hheader : decodeHeader k m = .ok (some h)) (hi : h.interfaceId = 0)
    (hordinal : h.ordinal < runOrClosePipeMessageId) : route k control m = .ok (.message h) := by
  have hne : h.ordinal ≠ runMessageId := by
    rw [runOrClosePipeMessageId] at hordinal
    rw [runMessageId]
    omega
  rw [route, hheader]
  simp only [Bind.bind, Except.bind, hordinal.ne, if_false, hi, ne_eq, not_true_eq_false, hne]
  rfl

end Qlabs.Bindings
