import Qlabs.Bindings.Calls

/-!
# Echoes

The interface of `echo.mojom.m.js` has one method. Where its handler echoes, as `EchoImpl` does,
each promise that is resolved is resolved with the string that the page has called `execute`
with (`echo_resolved`), in whatever order the answers are given; that is, for the first `2 ^ 32`
calls, and for strings that survive being encoded.
-/

namespace Qlabs.Bindings

variable (x : Text)

/-- The string is what its encoding stands for, and is not too long for an array. -/
structure Text.Carries (w : List UInt16) : Prop where
  decode_encode : x.decode (x.encode w) = w
  length_lt : (x.encode w).length < 2 ^ 32

/-- What happens where the page calls `execute`, and the handler answers, or fails. -/
inductive EchoAction
  | execute (w : List UInt16)
  | answer (i : ℕ)
  | fail (i : ℕ)
  | dispatch (returned : Returned)
  | close
  | read
  | disconnect
  | hangUp
  | closeBindings

namespace Interface

variable (s : Interface)

/-- What the handler was called with, whose promise is the `i`-th one. -/
def argument (i : ℕ) : Val :=
  ((s.receiver.tasks[i]?.bind fun t => s.receiver.invoked[t.request]?).bind fun o =>
    o.1.args.head?).getD .undefined

/-- The object that carries a result. -/
def result (v : Val) : Val := .object [("result", v)]

def echoAction : EchoAction → Action
  | .execute w => .call 0 [.string w]
  | .answer i => .settle i (some (result (s.argument i)))
  | .fail i => .settle i none
  | .dispatch returned => .dispatch returned
  | .close => .close
  | .read => .read
  | .disconnect => .disconnect
  | .hangUp => .hangUp
  | .closeBindings => .closeBindings

/-- The strings survive, and the ids have not all been taken. -/
def EchoOk : EchoAction → Prop
  | .execute w => x.Carries w ∧ s.remote.taken < 2 ^ 32
  | _ => True

end Interface

/-- The interface with a handler that echoes. -/
def echo : Machine Interface EchoAction where
  init := {}
  step s a := s.step true (echoInterface x) (s.echoAction a)

variable {x} {s s' : Interface} {w : List UInt16}

/-! ## The structures -/

theorem norm_string (name : String) {field : String} (hfield : field ≠ "__proto__")
    (hw : x.Carries w) : (Payload.string x name field hfield).codec.norm
      (.object [(field, .string w)]) = .object [(field, .string w)] := by
  simp [Payload.string, StructCodec.string, StructCodec.same, StructCodec.norm, SentField.norm,
    SentField.string, SentField.value, Val.property, Val.isNil, Val.isNull, Codec.string,
    hw.decode_encode]

/-- A request carries a string to the one method. -/
theorem invocation_args {y : Sent} (hy : y.Carried (echoInterface x)) (hargs : y.args = [.string w])
    (hw : x.Carries w) : y.invocation.args = [.string w] := by
  have hmethod := List.mem_singleton.1 hy.method
  have hparams : y.params = .object [("request", .string w)] := by
    rw [Sent.params, hmethod, hargs]
    exact norm_string _ request_ne hw
  have hfields : y.method.params.received.fields.map StructField.name = ["request"] := by
    rw [hmethod]
    rfl
  have hmap : y.invocation.args =
      (y.method.params.received.fields.map StructField.name).map y.params.property := by
    rw [List.map_map]
    rfl
  rw [hmap, hfields, hparams]
  simp [Val.property]

/-! ## Runs -/

/-- What holds at any time. -/
structure EchoInv (x : Text) (s : Interface) : Prop where
  inv : s.Inv (echoInterface x)
  args : ∀ y ∈ s.sent, ∃ w, y.args = [.string w] ∧ x.Carries w
  answer : ∀ a ∈ s.receiver.answers, ∃ o, s.receiver.invoked[a.request]? = some o ∧
    a.value = Interface.result (o.1.args.head?.getD .undefined)

/-- A handler has been called with the string of the page. -/
theorem EchoInv.invoked_args (h : EchoInv x s) {j : ℕ} {y : Sent} (hy : s.sent[j]? = some y)
    {o : Invocation × Returned} (ho : s.receiver.invoked[j]? = some o) (hw : y.args = [.string w])
    (hcarries : x.Carries w) : o.1.args = [.string w] := by
  have hj : j < s.receiver.read := by
    rw [← h.inv.dispatched.length_invoked]
    exact (List.getElem?_eq_some_iff.1 ho).1
  have hget := congrArg (·[j]?) h.inv.dispatched.invoked
  simp only [List.getElem?_map, List.getElem?_take_of_lt hj, ho, hy, Option.map_some,
    Option.some_inj] at hget
  rw [hget]
  exact invocation_args (h.inv.requests.carried y (List.mem_of_getElem? hy)) hw hcarries

/-- A task has been made by a call of the handler. -/
theorem EchoInv.exists_invoked (h : EchoInv x s) {t : Task} (ht : t ∈ s.receiver.tasks) :
    ∃ o, s.receiver.invoked[t.request]? = some o := by
  have hlt : t.request < s.receiver.read := h.inv.dispatched.ledger.lt_made t.request
    (List.mem_append_left _ (List.mem_map_of_mem ht))
  rw [← h.inv.dispatched.length_invoked] at hlt
  exact ⟨_, List.getElem?_eq_getElem hlt⟩

/-- The handler answers with what it was called with. -/
theorem argument_eq {i : ℕ} {t : Task} {o : Invocation × Returned}
    (ht : s.receiver.tasks[i]? = some t) (ho : s.receiver.invoked[t.request]? = some o) :
    s.argument i = o.1.args.head?.getD .undefined := by
  simp [Interface.argument, ht, ho]

/-- What happens here is proper. -/
theorem EchoInv.ok (h : EchoInv x s) {a : EchoAction} (ha : s.EchoOk x a) :
    s.Ok true (echoInterface x) (s.echoAction a) := by
  cases a with
  | execute w =>
    exact ok_execute ha.1.length_lt (fresh_of_taken_lt h.inv.reachable ha.2)
  | answer i =>
    intro t ht
    obtain ⟨o, ho⟩ := h.exists_invoked (List.mem_of_getElem? ht)
    obtain ⟨y, hy, -⟩ := h.inv.dispatched.task t (List.mem_of_getElem? ht)
    obtain ⟨w, hw, hcarries⟩ := h.args y (List.mem_of_getElem? hy)
    have hargument := argument_eq ht ho
    rw [h.invoked_args hy ho hw hcarries] at hargument
    have hok := ok_answer h.inv (i := i) hcarries.length_lt t ht
    rw [hargument]
    exact hok
  | fail | dispatch | close | read | disconnect | hangUp | closeBindings => trivial

/-- Reading a message calls one handler at most, and answers nothing. -/
theorem onRead_invoked (spec : InterfaceSpec) (c : Receiver) (m : Buffer) (returned : Returned) :
    (c.onRead true spec m returned).1.answers = c.answers ∧
      ∃ l, (c.onRead true spec m returned).1.invoked = c.invoked ++ l := by
  simp only [Receiver.onRead, Receiver.onMessage]
  repeat' split
  all_goals first
    | exact ⟨rfl, [], (List.append_nil _).symm⟩
    | exact ⟨rfl, _, rfl⟩

theorem echoInv_step (h : EchoInv x s) {a : EchoAction} (ha : s.EchoOk x a)
    (hstep : (echo x).step s a = some s') : EchoInv x s' := by
  have hinv : s'.Inv (echoInterface x) := inv_step_of_ok h.inv (h.ok ha) hstep
  cases a with
  | execute w =>
    simp only [echo, Interface.echoAction, Interface.step] at hstep
    obtain ⟨m, -, rfl⟩ := Option.map_eq_some_iff.1 hstep
    refine ⟨hinv, fun y hy => ?_, h.answer⟩
    rcases List.mem_append.1 hy with hy | hy
    · exact h.args y hy
    · obtain ⟨message, -, rfl⟩ := List.mem_map.1 hy
      exact ⟨w, rfl, ha.1⟩
  | dispatch returned =>
    simp only [echo, Interface.echoAction, Interface.step] at hstep
    split at hstep
    · cases hstep
    · rename_i m _
      split_ifs at hstep
      obtain rfl := Option.some.inj hstep
      obtain ⟨hanswers, l, hinvoked⟩ :=
        onRead_invoked (echoInterface x) s.receiver m returned
      refine ⟨hinv, h.args, fun a ha => ?_⟩
      simp only [Interface.update] at ha ⊢
      rw [hanswers] at ha
      obtain ⟨o, ho, hvalue⟩ := h.answer a ha
      exact ⟨o, by rw [hinvoked, getElem?_append_of_some ho], hvalue⟩
  | answer i =>
    obtain ⟨⟨c, m⟩, hsettle, rfl⟩ := Option.map_eq_some_iff.1 hstep
    obtain ⟨t, ht, ⟨errors, rfl, rfl⟩ | ⟨g, message, hg, -, -, rfl, rfl⟩⟩ := settle_cases hsettle
    · exact ⟨hinv, h.args, h.answer⟩
    · refine ⟨hinv, h.args, fun a ha => ?_⟩
      rcases List.mem_append.1 ha with ha | ha
      · exact h.answer a ha
      · obtain rfl := List.mem_singleton.1 ha
        obtain ⟨o, ho⟩ := h.exists_invoked (List.mem_of_getElem? ht)
        cases hg
        exact ⟨o, ho, by rw [argument_eq ht ho]⟩
  | fail i =>
    obtain ⟨⟨c, m⟩, hsettle, rfl⟩ := Option.map_eq_some_iff.1 hstep
    obtain ⟨t, -, ⟨errors, rfl, rfl⟩ | ⟨g, message, hg, -⟩⟩ := settle_cases hsettle
    · exact ⟨hinv, h.args, h.answer⟩
    · cases hg
  | read | disconnect =>
    obtain ⟨r, -, rfl⟩ := Option.map_eq_some_iff.1 hstep
    exact ⟨hinv, h.args, h.answer⟩
  | close | closeBindings =>
    obtain rfl := Option.some.inj hstep
    exact ⟨hinv, h.args, h.answer⟩
  | hangUp =>
    simp only [echo, Interface.echoAction, Interface.step] at hstep
    split_ifs at hstep
    obtain rfl := Option.some.inj hstep
    exact ⟨hinv, h.args, h.answer⟩

theorem echo_inv (hs : ((echo x).restrict fun s => s.EchoOk x).Reachable s) : EchoInv x s :=
  hs.invariant (P := EchoInv x)
    ⟨inv_initial, fun _ hy => absurd hy List.not_mem_nil, fun _ ha => absurd ha List.not_mem_nil⟩
    fun _ _ _ _ h hstep => echoInv_step h (Machine.step_restrict.1 hstep).1
      (Machine.step_restrict.1 hstep).2

/-- A promise that is resolved is resolved with the string of its own call. -/
theorem echo_resolved (hs : ((echo x).restrict fun s => s.EchoOk x).Reachable s) {p : ℕ} {v : Val}
    (hp : (p, .resolved v) ∈ s.remote.settlements) :
    ∃ call w, s.remote.calls[p]? = some call ∧ call.args = [.string w] ∧
      v = .object [("result", .string w)] := by
  have h := echo_inv hs
  obtain ⟨a, ha, y, q, hy, hpromise, hresponse, rfl⟩ := h.inv.resolved p v hp
  have hmem := List.mem_of_getElem? hy
  obtain ⟨w, hw, hcarries⟩ := h.args y hmem
  obtain ⟨call, hcall, hrequests⟩ := h.inv.requests.call y hmem p hpromise
  obtain ⟨o, ho, hvalue⟩ := h.answer a ha
  refine ⟨call, w, hcall, hrequests.args.trans hw, ?_⟩
  have hmethod := List.mem_singleton.1 (h.inv.requests.carried y hmem).method
  rw [hmethod, Option.some_inj] at hresponse
  rw [hvalue, h.invoked_args hy ho hw hcarries, ← hresponse]
  exact norm_string _ result_ne hcarries

/-- The page calls twice, and the second call is answered first. -/
def echoRun : List EchoAction :=
  [.execute [97], .execute [98], .dispatch .promise, .dispatch .promise, .answer 1, .answer 0,
    .read, .read]

theorem steps_echoRun :
    (echo asciiText).Steps (fun s => s.EchoOk asciiText) {} echoRun := by
  have ha : asciiText.Carries [97] := ⟨by decide, by decide⟩
  have hb : asciiText.Carries [98] := ⟨by decide, by decide⟩
  refine fun s₁ h₁ => ⟨⟨ha, by decide⟩, fun s₂ h₂ => ⟨⟨hb, ?_⟩, ?_⟩⟩
  · rw [← Option.some.inj h₁]
    decide +kernel
  · exact fun _ _ => ⟨trivial, fun _ _ => ⟨trivial, fun _ _ => ⟨trivial, fun _ _ => ⟨trivial,
      fun _ _ => ⟨trivial, fun _ _ => ⟨trivial, trivial⟩⟩⟩⟩⟩⟩

/-- Both calls have got what is theirs. -/
theorem echo_resolved_reordered :
    let s := (echo asciiText).after echoRun
    s.remote.settlements.map Prod.fst = [1, 0] ∧
      ∀ p v, (p, .resolved v) ∈ s.remote.settlements → ∃ call w, s.remote.calls[p]? = some call ∧
        call.args = [.string w] ∧ v = .object [("result", .string w)] :=
  ⟨by decide +kernel, fun _ _ hp =>
    echo_resolved (Machine.reachable_restrict steps_echoRun (by decide +kernel)) hp⟩

end Qlabs.Bindings
