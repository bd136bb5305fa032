import Mathlib.Data.Set.Function
import Qlabs.Http.Step

/-!
# What a reply says

`Agent::OnMessage` prints the id of its connection and the message it has received.
The message goes through `%s`, as a C string: what comes after its first NUL is
lost, and the reply is that to another message (`not_carryWhole_nul`).

Messages without a NUL are the ones whose replies carry them whole; such replies tell
the connection and the message (`carryWhole_iff`).
-/

namespace Qlabs.Http

/-- What the reply to a message should say. -/
def wholeMessage (connectionId : ℤ) (data : Bytes) : Bytes :=
  bytes "[" ++ decimal connectionId ++ bytes "] OnMessage(" ++ data ++ bytes ")"

/-- What a reply says: the connection, between the brackets, and the message, between
    the first parenthesis after these and the end. -/
def readMessage (reply : Bytes) : ℤ × Bytes :=
  let connection := (reply.drop 1).takeWhile (· != 93)
  (readDecimal connection,
    (reply.drop (connection.length + (bytes "[] OnMessage(").length)).dropLast)

/-- The replies to some messages, each given with its connection, carry them whole. -/
structure CarryWhole (messages : Set (ℤ × Bytes)) : Prop where
  /-- The agent of the connection posts the whole message. -/
  posts : ∀ (a : Agent) (data : Bytes), (a.connectionId, data) ∈ messages → a.onMessage data =
    (a.taskRunner, .sendOverWebSocket a.serverWrapper a.connectionId
      (wholeMessage a.connectionId data))
  /-- Different messages have different replies. -/
  injOn : messages.InjOn fun m => agentMessage m.1 m.2
  /-- The connection and the message can be read in the reply. -/
  reads : ∀ m ∈ messages, readMessage (agentMessage m.1 m.2) = m

/-- The message is printed up to its first NUL. -/
theorem agentMessage_eq (c : ℤ) (data : Bytes) :
    agentMessage c data = wholeMessage c (cStr data) := by
  rw [agentMessage, wholeMessage]
  simp [stringPrintf, bytes]

theorem agentMessage_eq_iff (c : ℤ) (data : Bytes) :
    agentMessage c data = wholeMessage c data ↔ 0 ∉ data := by
  rw [agentMessage_eq, ← cStr_eq_self_iff, wholeMessage, wholeMessage]
  simp

/-- The bracket after the id is the first one, and the last parenthesis ends the reply:
    those of the message do not matter. -/
theorem readMessage_wholeMessage (c : ℤ) (data : Bytes) :
    readMessage (wholeMessage c data) = (c, data) := by
  have hnot : ∀ b ∈ decimal c, b != 93 := by
    intro b hb
    rw [bne_iff_ne]
    rintro rfl
    have := digit_of_mem_decimal hb
    revert this
    decide
  have hconnection : ((wholeMessage c data).drop 1).takeWhile (· != 93) = decimal c := by
    simp [wholeMessage, bytes, List.takeWhile_append_of_pos hnot]
  have hstart : (bytes "[" ++ decimal c ++ bytes "] OnMessage(").length =
      (decimal c).length + (bytes "[] OnMessage(").length := by
    simp [bytes]
  have hdata : (wholeMessage c data).drop ((decimal c).length + (bytes "[] OnMessage(").length) =
      data ++ bytes ")" := by
    rw [wholeMessage, List.append_assoc _ data, List.drop_left' hstart]
  rw [readMessage, hconnection, hdata, readDecimal_decimal]
  exact congrArg _ List.dropLast_concat

/-- The replies to messages carry them whole exactly when no message has a NUL. -/
theorem carryWhole_iff (messages : Set (ℤ × Bytes)) :
    CarryWhole messages ↔ ∀ m ∈ messages, 0 ∉ m.2 := by
  constructor
  · intro hcarry m hm
    have hposts := (hcarry.posts ⟨0, none, m.1⟩ m.2 hm).symm
    exact (agentMessage_eq_iff m.1 m.2).1 (ServerTask.sendOverWebSocket.inj
      (Prod.mk.inj hposts).2).2.2.symm
  · intro hnul
    have hwhole : ∀ m ∈ messages, agentMessage m.1 m.2 = wholeMessage m.1 m.2 := fun m hm =>
      (agentMessage_eq_iff m.1 m.2).2 (hnul m hm)
    have hreads : ∀ m ∈ messages, readMessage (agentMessage m.1 m.2) = m := by
      intro m hm
      rw [hwhole m hm, readMessage_wholeMessage]
    refine ⟨fun a data hm => ?_, fun m hm m' hm' heq => ?_, hreads⟩
    · rw [Agent.onMessage, hwhole _ hm]
    · rw [← hreads m hm, ← hreads m' hm']
      exact congrArg readMessage heq

/-- A message with a NUL in it: its reply is that to the text before. -/
theorem not_carryWhole_nul :
    agentMessage 1 [97, 0, 98] = bytes "[1] OnMessage(a)" ∧
      agentMessage 1 [97, 0, 98] = agentMessage 1 [97] ∧ ¬CarryWhole Set.univ := by
  have hnul : agentMessage 1 [97, 0, 98] = agentMessage 1 [97] := by decide
  refine ⟨by decide, hnul, fun hcarry => ?_⟩
  exact absurd (hcarry.injOn (Set.mem_univ (1, [97, 0, 98])) (Set.mem_univ (1, [97])) hnul)
    (by decide)

end Qlabs.Http
