import Mathlib.Data.Int.Notation
import Mathlib.Data.List.Forall2
import Mathlib.Data.Nat.Notation
import Qlabs.Machine

/-!
# The math service

A `MathService` is bound to a message pipe, from which its requests come in order.
`MathService::Divide` replies to each with the quotient that C++ gives, and C++
may not give any: a division by zero is undefined, and so is one whose quotient
is not an `int32_t` (`quotient`). The process may trap there; the requests that
come after are not answered.

So a stream of requests is answered exactly when no division is by zero, nor that
of the least `int32_t` by minus one (`survives_iff`).
-/

namespace Qlabs.Mojo

/-! ## Division -/

/-- An integer that is the value of some `int32_t`. -/
def FitsInt32 (n : ℤ) : Prop := Int32.minValue.toInt ≤ n ∧ n ≤ Int32.maxValue.toInt

instance (n : ℤ) : Decidable (FitsInt32 n) := inferInstanceAs (Decidable (_ ∧ _))

/-- `dividend / divisor`, truncated toward zero. It is undefined by zero, and if the
    quotient is not an `int32_t`. -/
def quotient (dividend divisor : Int32) : Option Int32 :=
  if divisor ≠ 0 ∧ FitsInt32 (dividend.toInt.tdiv divisor.toInt) then
    some (.ofInt (dividend.toInt.tdiv divisor.toInt))
  else none

theorem fitsInt32_toInt (n : Int32) : FitsInt32 n.toInt := ⟨n.minValue_le_toInt, n.toInt_le⟩

/-- The only quotient that is not an `int32_t`. -/
theorem fitsInt32_tdiv_iff (dividend divisor : Int32) :
    FitsInt32 (dividend.toInt.tdiv divisor.toInt) ↔
      ¬(dividend = Int32.minValue ∧ divisor = -1) := by
  constructor
  · rintro hfits ⟨rfl, rfl⟩
    exact absurd hfits (by decide)
  · intro h
    rcases not_and_or.1 h with h | h
    · exact Int32.toInt_div_of_ne_left _ _ h ▸ fitsInt32_toInt _
    · exact Int32.toInt_div_of_ne_right _ _ h ▸ fitsInt32_toInt _

/-! ## Requests and replies -/

/-- A call of `Divide`: its arguments, and the callback for its reply. -/
structure DivideRequest where
  dividend : Int32
  divisor : Int32
  callback : ℕ
  deriving DecidableEq

/-- A run of a callback. -/
structure DivideReply where
  callback : ℕ
  quotient : Int32
  deriving DecidableEq

namespace DivideRequest

/-- The division of a request is defined. -/
def Defined (r : DivideRequest) : Prop :=
  r.divisor ≠ 0 ∧ ¬(r.dividend = Int32.minValue ∧ r.divisor = -1)

/-- The reply to a request, if its division is defined. -/
def reply (r : DivideRequest) : DivideReply where
  callback := r.callback
  quotient := .ofInt (r.dividend.toInt.tdiv r.divisor.toInt)

/-- A reply is for a request, and has its quotient if there is one. -/
structure Answers (r : DivideRequest) (reply : DivideReply) : Prop where
  callback : reply.callback = r.callback
  quotient : r.divisor ≠ 0 → FitsInt32 (r.dividend.toInt.tdiv r.divisor.toInt) →
    reply.quotient.toInt = r.dividend.toInt.tdiv r.divisor.toInt

theorem quotient_of_defined {r : DivideRequest} (h : r.Defined) :
    Mojo.quotient r.dividend r.divisor = some r.reply.quotient :=
  if_pos ⟨h.1, (fitsInt32_tdiv_iff _ _).2 h.2⟩

theorem quotient_of_not_defined {r : DivideRequest} (h : ¬r.Defined) :
    Mojo.quotient r.dividend r.divisor = none :=
  if_neg fun hq => h ⟨hq.1, (fitsInt32_tdiv_iff _ _).1 hq.2⟩

theorem answers_reply (r : DivideRequest) : r.Answers r.reply :=
  ⟨rfl, fun _ hfits => Int32.toInt_ofInt_of_le hfits.1 (Int.lt_of_le_of_lt hfits.2 (by decide))⟩

end DivideRequest

/-! ## The service -/

/-- `MathService`, with the pipe of its receiver, and its history. -/
structure MathService where
  /-- The requests that have come, in order. -/
  received : List DivideRequest := []
  /-- Those that have not been dispatched yet. -/
  pipe : List DivideRequest := []
  /-- The replies, in order. -/
  replies : List DivideReply := []
  /-- An undefined division has been performed. -/
  trapped : Bool := false

namespace MathService

/-- `MathService::Divide` -/
def divide (s : MathService) (dividend divisor : Int32) (callback : ℕ) : MathService :=
  match quotient dividend divisor with
  | none => { s with trapped := true }
  | some q => { s with replies := s.replies ++ [⟨callback, q⟩] }

/-- What happens to the service: a request comes, or one is dispatched. -/
inductive Action
  | receive (request : DivideRequest)
  | dispatch

/-- One step of the service. -/
def step (s : MathService) : Action → Option MathService
  | .receive request =>
    some { s with received := s.received ++ [request], pipe := s.pipe ++ [request] }
  | .dispatch =>
    match s.pipe with
    | [] => none
    | request :: pipe =>
      if s.trapped then none
      else some ({ s with pipe := pipe }.divide request.dividend request.divisor request.callback)

/-- The service, as it starts. -/
def machine : Machine MathService Action where
  init := {}
  step := step

/-- The service has survived, and answers. -/
structure Survives (s : MathService) : Prop where
  /-- No division was undefined. -/
  trapped : s.trapped = false
  /-- The requests dispatched have one reply each, in order. -/
  replies : ∃ answered, s.received = answered ++ s.pipe ∧
    List.Forall₂ DivideRequest.Answers answered s.replies
  /-- Dispatching those in the pipe answers them too. -/
  complete : ∃ s', machine.run s (List.replicate s.pipe.length .dispatch) = some s' ∧
    List.Forall₂ DivideRequest.Answers s.received s'.replies

/-! ## The requests of a run -/

variable {s s' : MathService} {answered : List DivideRequest} {fatal : Option DivideRequest}

theorem divide_of_defined {r : DivideRequest} (h : r.Defined) :
    s.divide r.dividend r.divisor r.callback = { s with replies := s.replies ++ [r.reply] } := by
  rw [divide, DivideRequest.quotient_of_defined h]
  rfl

theorem divide_of_not_defined {r : DivideRequest} (h : ¬r.Defined) :
    s.divide r.dividend r.divisor r.callback = { s with trapped := true } := by
  rw [divide, DivideRequest.quotient_of_not_defined h]

/-- How the requests split up: those that have been answered, the one that is
    undefined, if it has come to one, and those in the pipe. -/
structure Split (s : MathService) (answered : List DivideRequest)
    (fatal : Option DivideRequest) : Prop where
  received : s.received = answered ++ fatal.toList ++ s.pipe
  replies : s.replies = answered.map DivideRequest.reply
  defined : ∀ r ∈ answered, r.Defined
  not_defined : ∀ r ∈ fatal, ¬r.Defined
  trapped : s.trapped = fatal.isSome

/-- The requests split up after a step. -/
theorem Split.step {a : Action} (hs : s.Split answered fatal) (h : s.step a = some s') :
    ∃ answered fatal, s'.Split answered fatal := by
  cases a with
  | receive request =>
    cases h
    exact ⟨answered, fatal, by simp [hs.received], hs.replies, hs.defined, hs.not_defined,
      hs.trapped⟩
  | dispatch =>
    obtain ⟨received, pipe, replies, trapped⟩ := s
    cases pipe with
    | nil => cases h
    | cons r pipe =>
      cases trapped with
      | true => cases h
      | false =>
        -- The service has not trapped: no request was undefined so far.
        obtain rfl : fatal = none := by simpa using hs.trapped.symm
        have hreceived : received = answered ++ r :: pipe := by simpa using hs.received
        have hreplies : replies = answered.map DivideRequest.reply := hs.replies
        obtain rfl := Option.some.inj h
        by_cases hr : r.Defined
        · rw [divide_of_defined hr]
          refine ⟨answered ++ [r], none, by simp [hreceived], by simp [hreplies], ?_, by simp, rfl⟩
          simpa [or_imp, forall_and] using ⟨hs.defined, hr⟩
        · rw [divide_of_not_defined hr]
          exact ⟨answered, some r, by simp [hreceived], hreplies, hs.defined,
            fun _ h => Option.some.inj h ▸ hr, rfl⟩

/-- The requests of a run split up. -/
theorem split_of_reachable (hs : machine.Reachable s) :
    ∃ answered fatal, s.Split answered fatal := by
  refine hs.invariant (P := fun s : MathService => ∃ answered fatal, s.Split answered fatal) ?_ ?_
  · exact ⟨[], none, rfl, rfl, by simp, by simp, rfl⟩
  · rintro s a s' - ⟨answered, fatal, hs⟩ h
    exact hs.step h

/-- If no request is undefined, the service has not trapped. -/
theorem Split.fatal_eq_none (hs : s.Split answered fatal)
    (h : ∀ r ∈ s.received, r.Defined) : fatal = none := by
  cases fatal with
  | none => rfl
  | some r => exact absurd (h r (by simp [hs.received])) (hs.not_defined r rfl)

/-- The requests come one after the other, and wait. -/
theorem run_receive (requests : List DivideRequest) :
    machine.run s (requests.map .receive) =
      some { s with received := s.received ++ requests, pipe := s.pipe ++ requests } := by
  induction requests generalizing s with
  | nil => simp [Machine.run]
  | cons r requests ih =>
    rw [List.map_cons, Machine.run, show machine.step s (.receive r) = some _ from rfl,
      Option.bind_some, ih]
    simp

theorem divide_received (dividend divisor : Int32) (callback : ℕ) :
    (s.divide dividend divisor callback).received = s.received := by
  rw [divide]
  cases quotient dividend divisor <;> rfl

/-- Dispatching receives nothing. -/
theorem received_dispatch {n : ℕ} (h : machine.run s (List.replicate n .dispatch) = some s') :
    s'.received = s.received := by
  induction n generalizing s with
  | zero => exact congrArg received (Option.some.inj h).symm
  | succ n ih =>
    obtain ⟨t, ht, h⟩ := Machine.run_cons.1 h
    obtain ⟨received, pipe, replies, trapped⟩ := s
    cases pipe with
    | nil => cases ht
    | cons r pipe =>
      cases trapped with
      | true => cases ht
      | false =>
        obtain rfl := Option.some.inj ht
        exact (ih h).trans (divide_received _ _ _)

/-- Requests that are all defined can all be dispatched. -/
theorem run_dispatch (htrapped : s.trapped = false) (hpipe : ∀ r ∈ s.pipe, r.Defined) :
    machine.run s (List.replicate s.pipe.length .dispatch) =
      some { s with pipe := [], replies := s.replies ++ s.pipe.map DivideRequest.reply } := by
  obtain ⟨received, pipe, replies, trapped⟩ := s
  obtain rfl : trapped = false := htrapped
  induction pipe generalizing replies with
  | nil => simp [Machine.run]
  | cons r pipe ih =>
    have hstep : machine.step ⟨received, r :: pipe, replies, false⟩ .dispatch =
        some ⟨received, pipe, replies ++ [r.reply], false⟩ :=
      congrArg some (divide_of_defined (hpipe r List.mem_cons_self))
    rw [List.length_cons, List.replicate_succ, Machine.run, hstep, Option.bind_some,
      ih _ fun r' hr' => hpipe r' (List.mem_cons_of_mem _ hr')]
    simp

/-! ## Streams of requests -/

theorem forall₂_answers_reply (requests : List DivideRequest) :
    List.Forall₂ DivideRequest.Answers requests (requests.map DivideRequest.reply) :=
  List.forall₂_map_right_iff.2 (List.forall₂_same.2 fun r _ => r.answers_reply)

/-- A service that has received defined requests only survives. -/
theorem survives_of_defined (hs : machine.Reachable s) (h : ∀ r ∈ s.received, r.Defined) :
    s.Survives := by
  obtain ⟨answered, fatal, hsplit⟩ := split_of_reachable hs
  obtain rfl := hsplit.fatal_eq_none h
  have hreceived : s.received = answered ++ s.pipe := by simpa using hsplit.received
  refine ⟨hsplit.trapped, ⟨answered, hreceived, ?_⟩, ?_⟩
  · rw [hsplit.replies]
    exact forall₂_answers_reply answered
  · have hpipe : ∀ r ∈ s.pipe, r.Defined := fun r hr =>
      h r (hreceived ▸ List.mem_append_right _ hr)
    refine ⟨_, run_dispatch hsplit.trapped hpipe, ?_⟩
    rw [hsplit.replies, hreceived, ← List.map_append]
    exact forall₂_answers_reply _

/-- A service that survives has received defined requests only. -/
theorem Survives.defined (hs : machine.Reachable s) (h : s.Survives) :
    ∀ r ∈ s.received, r.Defined := by
  obtain ⟨s', hrun, hanswers⟩ := h.complete
  obtain ⟨answered, fatal, hsplit⟩ := split_of_reachable (hs.run hrun)
  -- All of them are answered in the end.
  have hsub : answered <+: s.received := by
    rw [← received_dispatch hrun, hsplit.received, List.append_assoc]
    exact List.prefix_append _ _
  have hlength : s.received.length = answered.length := by
    rw [hanswers.length_eq, hsplit.replies, List.length_map]
  exact hsub.eq_of_length hlength.symm ▸ hsplit.defined

/-- A stream of requests is answered, each one once and in order, whenever they come
    and are dispatched, exactly when no division is by zero, nor that of the least
    `int32_t` by minus one. -/
theorem survives_iff (requests : List DivideRequest) :
    (∀ as s, machine.run machine.init as = some s → s.received <+: requests → s.Survives) ↔
      ∀ r ∈ requests, r.Defined := by
  constructor
  · intro h
    have hrun : machine.run machine.init (requests.map .receive) =
        some ⟨requests, requests, [], false⟩ :=
      run_receive requests
    exact (h _ _ hrun List.prefix_rfl).defined (Machine.reachable_of_run hrun)
  · intro h as s hrun hsub
    exact survives_of_defined (Machine.reachable_of_run hrun) fun r hr => h r (hsub.subset hr)

/-- A division by zero, and a request that comes after it. -/
theorem not_survives :
    ¬∀ as s, machine.run machine.init as = some s → s.received <+: [⟨1, 0, 0⟩, ⟨6, 3, 1⟩] →
      s.Survives := by
  intro h
  have hrun : machine.run machine.init
      [.receive ⟨1, 0, 0⟩, .receive ⟨6, 3, 1⟩, .dispatch] =
        some ⟨[⟨1, 0, 0⟩, ⟨6, 3, 1⟩], [⟨6, 3, 1⟩], [], true⟩ := rfl
  exact absurd (h _ _ hrun List.prefix_rfl).trapped (by decide)

end MathService

end Qlabs.Mojo
