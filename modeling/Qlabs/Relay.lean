import Qlabs.Machine

/-!
# Relays

A *relay* carries messages over two queues. A message received goes into the
`mailbox`; the relay takes it out, and what it makes of it, given a state it
keeps, goes into the `outbox`, from which it is delivered, into the `sink`. The
relay may be closed: from then on, the messages it takes out of the mailbox are
dropped, while those in the outbox are still delivered. Both queues are FIFO,
and receiving, forwarding, delivering and closing interleave in any order.

What the relay makes of a message is given by `f : σ → α → σ × List β`, and of a
sequence of them by `process f`. Whatever the interleaving, what has been
delivered is a prefix of what the messages received amount to (`sink_prefix`);
while the relay is open, the rest is what waits in the two queues
(`open_complete`); once it is closed, only what waits in the outbox is still to
come (`closed_step`). A relay may also be closed and its mailbox discarded in one
(`discard`).
-/

namespace Qlabs

/-- The state of a relay, with the history of what it received and delivered. -/
structure Relay (σ α β : Type*) where
  /-- The messages received, in order. -/
  source : List α
  /-- The messages received and not yet taken out. -/
  mailbox : List α
  /-- What is to be delivered. -/
  outbox : List β
  /-- What has been delivered, in order. -/
  sink : List β
  /-- The state kept while the relay is open. -/
  state : Option σ

namespace Relay

variable {σ α β : Type*}

/-- An open relay that has not received anything. -/
def empty (st : σ) : Relay σ α β := ⟨[], [], [], [], some st⟩

/-- What happens to a relay. -/
inductive Action (α : Type*)
  | receive (a : α)
  | forward
  | deliver
  | close

variable (f : σ → α → σ × List β)

/-- What is made of a sequence of messages, one after the other. -/
def process : σ → List α → σ × List β
  | st, [] => (st, [])
  | st, a :: as => ((process (f st a).1 as).1, (f st a).2 ++ (process (f st a).1 as).2)

/-- One step of a relay. -/
def step (r : Relay σ α β) : Action α → Option (Relay σ α β)
  | .receive a => some { r with source := r.source ++ [a], mailbox := r.mailbox ++ [a] }
  | .forward =>
    match r.mailbox, r.state with
    | [], _ => none
    | a :: as, some st =>
      some { r with mailbox := as, outbox := r.outbox ++ (f st a).2, state := some (f st a).1 }
    | _ :: as, none => some { r with mailbox := as }
  | .deliver =>
    match r.outbox with
    | [] => none
    | b :: bs => some { r with outbox := bs, sink := r.sink ++ [b] }
  | .close => some { r with state := none }

/-- How the messages received split up, for a relay that started with the state
    `st₀`: those forwarded, which amount to what has been delivered or is to be,
    those dropped, and those still in the mailbox. -/
structure Split (st₀ : σ) (r : Relay σ α β) (forwarded dropped : List α) : Prop where
  source : r.source = forwarded ++ dropped ++ r.mailbox
  delivered : r.sink ++ r.outbox = (process f st₀ forwarded).2
  state : ∀ st ∈ r.state, dropped = [] ∧ st = (process f st₀ forwarded).1

/-- The messages received split up somehow. -/
def Inv (st₀ : σ) (r : Relay σ α β) : Prop := ∃ forwarded dropped, Split f st₀ r forwarded dropped

/-- Closing a relay at once: what is in the mailbox is dropped with it. -/
def discard (r : Relay σ α β) : Relay σ α β := { r with mailbox := [], state := none }

/-- What a step forwards: the front of the mailbox, if the relay is open. -/
def moved (r : Relay σ α β) : Action α → Option α
  | .forward => if r.state.isSome then r.mailbox.head? else none
  | _ => none

variable {f} {st₀ : σ}

theorem process_append (st : σ) (as bs : List α) :
    process f st (as ++ bs) = ((process f (process f st as).1 bs).1,
      (process f st as).2 ++ (process f (process f st as).1 bs).2) := by
  induction as generalizing st with
  | nil => rfl
  | cons a as ih => simp only [List.cons_append, process, ih, List.append_assoc]

theorem process_concat (st : σ) (as : List α) (a : α) :
    process f st (as ++ [a]) =
      ((f (process f st as).1 a).1, (process f st as).2 ++ (f (process f st as).1 a).2) := by
  simp [process_append, process]

theorem split_empty : Split f st₀ (empty st₀) [] [] :=
  ⟨rfl, rfl, fun _ h => ⟨rfl, (Option.some.inj h).symm⟩⟩

theorem inv_empty : Inv f st₀ (empty st₀) := ⟨[], [], split_empty⟩

/-- A step forwards what it moves, and drops the front of the mailbox otherwise. -/
theorem Split.step {r r' : Relay σ α β} {a : Action α} {forwarded dropped : List α}
    (hr : Split f st₀ r forwarded dropped) (h : step f r a = some r') :
    ∃ dropped', Split f st₀ r' (forwarded ++ (r.moved a).toList) dropped' := by
  obtain ⟨hsrc, hout, hopen⟩ := hr
  cases a with
  | receive a =>
    cases h
    exact ⟨dropped, by simp [hsrc, moved], by simpa [moved] using hout,
      by simpa [moved] using hopen⟩
  | forward =>
    cases hm : r.mailbox with
    | nil => simp [Relay.step, hm] at h
    | cons a as =>
      cases hst : r.state with
      | some st =>
        -- The relay is open, so that nothing has been dropped: the front is forwarded.
        simp only [Relay.step, hm, hst, Option.some.injEq] at h
        subst h
        obtain ⟨rfl, rfl⟩ := hopen st hst
        refine ⟨[], by simp [hsrc, hm, hst, moved], ?_, fun _ h => ⟨rfl, ?_⟩⟩
        · simp [moved, hst, hm, process_concat, ← hout]
        · simp only [moved, hst, hm, Option.isSome_some, if_true, List.head?_cons,
            Option.toList_some, process_concat]
          exact (Option.some.inj h).symm
      | none =>
        -- The relay is closed: the front is dropped.
        simp only [Relay.step, hm, hst, Option.some.injEq] at h
        subst h
        exact ⟨dropped ++ [a], by simp [hsrc, hm, hst, moved], by simpa [moved, hst] using hout,
          fun _ h => by simp at h⟩
  | deliver =>
    cases ho : r.outbox with
    | nil => simp [Relay.step, ho] at h
    | cons b bs =>
      simp only [Relay.step, ho, Option.some.injEq] at h
      subst h
      exact ⟨dropped, by simp [hsrc, moved], by simpa [ho, moved] using hout,
        by simpa [moved] using hopen⟩
  | close =>
    cases h
    exact ⟨dropped, by simp [hsrc, moved], by simpa [moved] using hout, fun _ h => by cases h⟩

/-- What a step moves is gone from the front of the mailbox. -/
theorem mem_moved {r r' : Relay σ α β} {a : Action α} {x : α} (h : step f r a = some r') :
    x ∈ r.moved a ↔ r.state.isSome ∧ r.mailbox = x :: r'.mailbox := by
  have hne : ∀ {l : List α}, l.length ≤ r'.mailbox.length →
      ¬(r.state.isSome ∧ l = x :: r'.mailbox) := by
    rintro l hl ⟨-, rfl⟩
    exact absurd hl (by simp)
  cases a with
  | receive a =>
    cases h
    exact iff_of_false (Option.not_mem_none x) (hne (by simp))
  | forward =>
    cases hm : r.mailbox with
    | nil => simp [step, hm] at h
    | cons a as =>
      have hr' : r'.mailbox = as := by
        cases hst : r.state <;> simp only [step, hm, hst, Option.some.injEq] at h <;> subst h
          <;> rfl
      by_cases hst : r.state.isSome <;> simp [moved, hm, hst, hr']
  | deliver =>
    cases ho : r.outbox with
    | nil => simp [step, ho] at h
    | cons b bs =>
      simp only [step, ho, Option.some.injEq] at h
      subst h
      exact iff_of_false (Option.not_mem_none x) (hne (Nat.le_refl _))
  | close =>
    cases h
    exact iff_of_false (Option.not_mem_none x) (hne (Nat.le_refl _))

theorem inv_step {r r' : Relay σ α β} {a : Action α} (hr : Inv f st₀ r)
    (h : step f r a = some r') : Inv f st₀ r' := by
  obtain ⟨fwd, drp, hsplit⟩ := hr
  exact ⟨_, hsplit.step h⟩

theorem inv_discard {r : Relay σ α β} (hr : Inv f st₀ r) : Inv f st₀ r.discard := by
  obtain ⟨fwd, drp, hsrc, hout, -⟩ := hr
  exact ⟨fwd, drp ++ r.mailbox, by simp [discard, hsrc], hout, by simp [discard]⟩

/-- A message that comes after the relay has been closed and its mailbox discarded is lost. -/
theorem inv_lose {r : Relay σ α β} (hr : Inv f st₀ r) (hc : r.state = none)
    (hm : r.mailbox = []) (a : α) : Inv f st₀ { r with source := r.source ++ [a] } := by
  obtain ⟨fwd, drp, hsrc, hout, -⟩ := hr
  exact ⟨fwd, drp ++ [a], by simp [hsrc, hm], hout, by simp [hc]⟩

theorem mailbox_suffix {r : Relay σ α β} (hr : Inv f st₀ r) : r.mailbox <:+ r.source := by
  obtain ⟨fwd, drp, hsrc, -⟩ := hr
  exact hsrc ▸ List.suffix_append _ _

/-- What has been delivered, or is to be, is a prefix of what the messages
    received amount to. -/
theorem sink_prefix {r : Relay σ α β} (hr : Inv f st₀ r) :
    r.sink ++ r.outbox <+: (process f st₀ r.source).2 := by
  obtain ⟨fwd, drp, hsrc, hout, -⟩ := hr
  rw [hout, hsrc, List.append_assoc, process_append]
  exact List.prefix_append _ _

/-- While the relay is open, what is missing waits in the queues. -/
theorem open_complete {r : Relay σ α β} (hr : Inv f st₀ r) {st : σ} (hst : st ∈ r.state) :
    process f st₀ r.source =
      ((process f st r.mailbox).1, r.sink ++ r.outbox ++ (process f st r.mailbox).2) := by
  obtain ⟨fwd, drp, hsrc, hout, hopen⟩ := hr
  obtain ⟨rfl, rfl⟩ := hopen st hst
  rw [hsrc, hout, List.append_nil, process_append]

/-- Once the relay is closed, it stays so, and only delivers what it has. -/
theorem closed_step {r r' : Relay σ α β} {a : Action α} (hc : r.state = none)
    (h : step f r a = some r') :
    r'.state = none ∧ r'.sink ++ r'.outbox = r.sink ++ r.outbox := by
  cases a with
  | receive a => cases h; exact ⟨hc, rfl⟩
  | forward =>
    cases hm : r.mailbox with
    | nil => simp [step, hm] at h
    | cons a as =>
      simp only [step, hm, hc, Option.some.injEq] at h
      subst h
      exact ⟨rfl, rfl⟩
  | deliver =>
    cases ho : r.outbox with
    | nil => simp [step, ho] at h
    | cons b bs =>
      simp only [step, ho, Option.some.injEq] at h
      subst h
      exact ⟨hc, by simp⟩
  | close => cases h; exact ⟨rfl, rfl⟩

/-- Nothing goes into the outbox of a closed relay. -/
theorem closed_outbox {r r' : Relay σ α β} {a : Action α} (hc : r.state = none)
    (h : step f r a = some r') : r'.outbox <:+ r.outbox := by
  cases a with
  | receive a => cases h; exact List.suffix_rfl
  | forward =>
    cases hm : r.mailbox with
    | nil => simp [step, hm] at h
    | cons a as =>
      simp only [step, hm, hc, Option.some.injEq] at h
      subst h
      exact List.suffix_rfl
  | deliver =>
    cases ho : r.outbox with
    | nil => simp [step, ho] at h
    | cons b bs =>
      simp only [step, ho, Option.some.injEq] at h
      subst h
      exact List.suffix_cons b bs
  | close => cases h; exact List.suffix_rfl

end Relay

end Qlabs
