import Mathlib.Data.List.Induction

/-!
# Machines

A *machine* is an initial state and a partial step, labelled by actions: an
action that is not enabled gives no state. A program whose threads interleave
is a machine whose actions say which thread goes on, and what the calls it
makes outside return; its runs are the interleavings.

* `Machine.Reachable`, and the invariant rule (`Reachable.invariant`);
* `Machine.run`, the executable form of a run (`reachable_of_run`);
* `Machine.observe`: what is observed of the steps of a run, and the invariant rule for it
  and the state the run leads to (`observe_invariant`);
* `Machine.Stuck`: no action of some kind is enabled. If those actions lower a rank, they
  come to a halt in any order, in states that are stuck (`Machine.Leads`, `leads_of_rank`);
* `Machine.Always` and `Machine.Steps`: a property of every state, or of every
  step, along a run. Where one step keeps a property exactly under a condition
  on that step, so does every run (`always_iff_steps`), also if the property is
  about the actions so far (`forall_run_iff_steps`);
* `Machine.restrict`: the machine whose steps all satisfy a condition. Its runs
  are those whose steps do (`run_restrict`).
-/

namespace Qlabs

/-- A labelled transition machine. -/
structure Machine (σ α : Type*) where
  /-- The initial state. -/
  init : σ
  /-- The state after an action, if it is enabled. -/
  step : σ → α → Option σ

namespace Machine

variable {σ α : Type*} (m : Machine σ α)

/-- The states reachable from the initial one. -/
inductive Reachable : σ → Prop
  | init : Reachable m.init
  | step {s s' : σ} {a : α} : Reachable s → m.step s a = some s' → Reachable s'

/-- The state after a sequence of actions, if all of them are enabled. -/
def run : σ → List α → Option σ
  | s, [] => some s
  | s, a :: as => (m.step s a).bind fun s' => run s' as

/-- Every state along the run of `as` from `s`, as far as it gets, satisfies `P`. -/
def Always (P : σ → Prop) : σ → List α → Prop
  | s, [] => P s
  | s, a :: as => P s ∧ ∀ s', m.step s a = some s' → Always P s' as

/-- Every step along the run of `as` from `s`, as far as it gets, satisfies `ok`. -/
def Steps (ok : σ → α → Prop) : σ → List α → Prop
  | _, [] => True
  | s, a :: as => ∀ s', m.step s a = some s' → ok s a ∧ Steps ok s' as

instance decidableSteps {ok : σ → α → Prop} [∀ s a, Decidable (ok s a)] :
    ∀ s as, Decidable (m.Steps ok s as)
  | _, [] => isTrue trivial
  | s, a :: as =>
    match h : m.step s a with
    | none => isTrue fun s' hs' => by rw [h] at hs'; cases hs'
    | some t =>
      have : Decidable (m.Steps ok t as) := decidableSteps t as
      decidable_of_iff (ok s a ∧ m.Steps ok t as)
        ⟨fun hok s' hs' => Option.some.inj (h.symm.trans hs') ▸ hok, fun hok => hok t h⟩

variable {m}

/-- The invariant rule. -/
theorem Reachable.invariant {P : σ → Prop} (h₀ : P m.init)
    (hstep : ∀ s a s', m.Reachable s → P s → m.step s a = some s' → P s')
    {s : σ} (hs : m.Reachable s) : P s := by
  induction hs with
  | init => exact h₀
  | step hs hst ih => exact hstep _ _ _ hs ih hst

theorem run_cons {s s' : σ} {a : α} {as : List α} :
    m.run s (a :: as) = some s' ↔ ∃ t, m.step s a = some t ∧ m.run t as = some s' := by
  rw [run, Option.bind_eq_some_iff]

/-- A run from a reachable state ends in a reachable state. -/
theorem Reachable.run {s s' : σ} {as : List α} (hs : m.Reachable s)
    (h : m.run s as = some s') : m.Reachable s' := by
  induction as generalizing s with
  | nil => exact Option.some.inj h ▸ hs
  | cons a as ih =>
    obtain ⟨t, ht, h⟩ := run_cons.1 h
    exact ih (hs.step ht) h

theorem reachable_of_run {s : σ} {as : List α} (h : m.run m.init as = some s) :
    m.Reachable s :=
  Reachable.init.run h

/-- The state after a sequence of actions, from the initial one: that one itself,
    if they are not all enabled. -/
def after (m : Machine σ α) (as : List α) : σ := (m.run m.init as).getD m.init

theorem run_after {as : List α} (h : (m.run m.init as).isSome) :
    m.run m.init as = some (m.after as) := by
  obtain ⟨s, hs⟩ := Option.isSome_iff_exists.1 h
  rw [after, hs, Option.getD_some]

theorem reachable_after (as : List α) : m.Reachable (m.after as) := by
  cases h : m.run m.init as with
  | none => simpa [after, h] using Reachable.init
  | some s => simpa [after, h] using reachable_of_run h

/-- What every step from a reachable state keeps is kept along a run. -/
theorem Reachable.run_invariant {P : σ → Prop}
    (hstep : ∀ s a s', m.Reachable s → P s → m.step s a = some s' → P s')
    {s s' : σ} {as : List α} (hs : m.Reachable s) (hP : P s) (h : m.run s as = some s') :
    P s' := by
  induction as generalizing s with
  | nil => exact Option.some.inj h ▸ hP
  | cons a as ih =>
    obtain ⟨t, ht, h⟩ := run_cons.1 h
    exact ih (hs.step ht) (hstep _ _ _ hs hP ht) h

theorem run_concat {s s' : σ} {a : α} {as : List α} :
    m.run s (as ++ [a]) = some s' ↔ ∃ t, m.run s as = some t ∧ m.step t a = some s' := by
  induction as generalizing s with
  | nil => simp [run]
  | cons b as ih =>
    simp only [List.cons_append, run_cons, ih]
    constructor
    · rintro ⟨t, ht, u, hu, hs'⟩
      exact ⟨u, ⟨t, ht, hu⟩, hs'⟩
    · rintro ⟨u, ⟨t, ht, hu⟩, hs'⟩
      exact ⟨t, ht, u, hu, hs'⟩

/-- A machine that repeats one action comes to a halt in one state, if at all. -/
theorem eq_of_run_replicate {s t u : σ} {a : α} {n k : ℕ}
    (ht : m.run s (List.replicate n a) = some t) (hu : m.run s (List.replicate k a) = some u)
    (hht : m.step t a = none) (hhu : m.step u a = none) : t = u := by
  induction n generalizing s k with
  | zero =>
    obtain rfl := Option.some.inj ht
    cases k with
    | zero => exact Option.some.inj hu
    | succ k =>
      obtain ⟨s', hs', -⟩ := run_cons.1 hu
      rw [hht] at hs'
      cases hs'
  | succ n ih =>
    obtain ⟨s', hs', ht⟩ := run_cons.1 ht
    cases k with
    | zero =>
      obtain rfl := Option.some.inj hu
      rw [hhu] at hs'
      cases hs'
    | succ k =>
      obtain ⟨s'', hs'', hu⟩ := run_cons.1 hu
      obtain rfl : s' = s'' := Option.some.inj (hs'.symm.trans hs'')
      exact ih ht hu

/-- If a step from a reachable state keeps `P` exactly when it is `ok`, then the
    runs along which `P` always holds are those whose steps are all `ok`. -/
theorem always_iff_steps {P : σ → Prop} {ok : σ → α → Prop}
    (hstep : ∀ s a s', m.Reachable s → P s → m.step s a = some s' → (P s' ↔ ok s a))
    {s : σ} (hs : m.Reachable s) (hP : P s) (as : List α) :
    m.Always P s as ↔ m.Steps ok s as := by
  induction as generalizing s with
  | nil => exact iff_of_true hP trivial
  | cons a as ih =>
    refine ⟨fun h s' hs' => ?_, fun h => ⟨hP, fun s' hs' => ?_⟩⟩
    · -- The state after the step is the first one of the rest of the run.
      have hP' : P s' := by
        cases as with
        | nil => exact h.2 s' hs'
        | cons => exact (h.2 s' hs').1
      exact ⟨(hstep _ _ _ hs hP hs').1 hP', (ih (hs.step hs') hP').1 (h.2 s' hs')⟩
    · obtain ⟨hok, h⟩ := h s' hs'
      have hP' := (hstep _ _ _ hs hP hs').2 hok
      exact (ih (hs.step hs') hP').2 h

/-- If a step of a run keeps `P`, a property of the actions so far and of the state they
    lead to, exactly when it is `ok`, then the runs that have `P` all along are those
    whose steps are all `ok`. -/
theorem forall_run_iff_steps {P : List α → σ → Prop} {ok : σ → α → Prop} (h₀ : P [] m.init)
    (hstep : ∀ as s a s', m.run m.init as = some s → P as s → m.step s a = some s' →
      (P (as ++ [a]) s' ↔ ok s a)) (as : List α) :
    (∀ as' s, as' <+: as → m.run m.init as' = some s → P as' s) ↔ m.Steps ok m.init as := by
  -- The run has come to a state `s`, by the actions `bs`.
  suffices h : ∀ bs s, m.run m.init bs = some s → P bs s →
      ((∀ as' s', as' <+: as → m.run s as' = some s' → P (bs ++ as') s') ↔ m.Steps ok s as) from
    h [] m.init rfl h₀
  induction as with
  | nil =>
    refine fun bs s hbs hP => iff_of_true (fun as' s' has' hrun => ?_) trivial
    obtain rfl := List.prefix_nil.1 has'
    obtain rfl := Option.some.inj hrun
    simpa using hP
  | cons a as ih =>
    intro bs s hbs hP
    have hbs' : ∀ {s'}, m.step s a = some s' → m.run m.init (bs ++ [a]) = some s' := fun hs' =>
      run_concat.2 ⟨s, hbs, hs'⟩
    constructor
    · intro h s' hs'
      have hP' : P (bs ++ [a]) s' :=
        h [a] s' (by simp) (by simp [run, hs'])
      refine ⟨(hstep _ _ _ _ hbs hP hs').1 hP', (ih _ _ (hbs' hs') hP').1 fun as' t has' hrun => ?_⟩
      rw [List.append_assoc]
      exact h (a :: as') t (List.cons_prefix_cons.2 ⟨rfl, has'⟩) (run_cons.2 ⟨s', hs', hrun⟩)
    · intro h as' t has' hrun
      cases as' with
      | nil =>
        obtain rfl := Option.some.inj hrun
        simpa using hP
      | cons b as' =>
        obtain ⟨rfl, hrest⟩ := List.cons_prefix_cons.1 has'
        obtain ⟨s', hs', hrun⟩ := run_cons.1 hrun
        obtain ⟨hok, h⟩ := h s' hs'
        have hP' := (hstep _ _ _ _ hbs hP hs').2 hok
        rw [← List.singleton_append, ← List.append_assoc]
        exact (ih _ _ (hbs' hs') hP').2 h as' t hrest hrun

/-! ## Restrictions -/

section Restrict

variable {ok : σ → α → Prop}

open Classical in
/-- The machine whose steps are all `ok`. -/
noncomputable def restrict (m : Machine σ α) (ok : σ → α → Prop) : Machine σ α where
  init := m.init
  step s a := if ok s a then m.step s a else none

theorem step_restrict {s s' : σ} {a : α} :
    (m.restrict ok).step s a = some s' ↔ ok s a ∧ m.step s a = some s' := by
  simp only [restrict]
  split_ifs with h
  · simp [h]
  · simp [h]

/-- It reaches nothing else. -/
theorem Reachable.of_restrict {s : σ} (hs : (m.restrict ok).Reachable s) : m.Reachable s := by
  induction hs with
  | init => exact .init
  | step _ h ih => exact ih.step (step_restrict.1 h).2

/-- Its runs are those whose steps are all `ok`. -/
theorem run_restrict {s s' : σ} {as : List α} :
    (m.restrict ok).run s as = some s' ↔ m.Steps ok s as ∧ m.run s as = some s' := by
  induction as generalizing s with
  | nil => simp [run, Steps]
  | cons a as ih =>
    simp only [run_cons, step_restrict, ih, Steps]
    constructor
    · rintro ⟨t, ⟨hok, ht⟩, hsteps, hrun⟩
      refine ⟨fun s' hs' => ?_, t, ht, hrun⟩
      obtain rfl := Option.some.inj (ht.symm.trans hs')
      exact ⟨hok, hsteps⟩
    · rintro ⟨hsteps, t, ht, hrun⟩
      exact ⟨t, ⟨(hsteps t ht).1, ht⟩, (hsteps t ht).2, hrun⟩

theorem reachable_restrict {as : List α} (hsteps : m.Steps ok m.init as)
    (hrun : (m.run m.init as).isSome) : (m.restrict ok).Reachable (m.after as) :=
  reachable_of_run (run_restrict.2 ⟨hsteps, run_after hrun⟩)

end Restrict

/-! ## Observations -/

section Observe

variable {ω : Type*} {f : σ → α → List ω}

/-- What `f` observes of the steps of a run, in order. -/
def observe (m : Machine σ α) (f : σ → α → List ω) : σ → List α → List ω
  | _, [] => []
  | s, a :: as => f s a ++ (m.step s a).elim [] fun s' => observe m f s' as

theorem observe_concat {s t : σ} {as : List α} (h : m.run s as = some t) (a : α) :
    m.observe f s (as ++ [a]) = m.observe f s as ++ f t a := by
  induction as generalizing s with
  | nil =>
    obtain rfl := Option.some.inj h
    cases hs : m.step s a <;> simp [observe, hs]
  | cons b as ih =>
    obtain ⟨s', hs', h⟩ := run_cons.1 h
    simp [observe, hs', ih h]

/-- What holds of the initial state, when nothing has been observed yet, and is kept by
    every step with what is observed of it, holds of a whole run. -/
theorem observe_invariant {P : List ω → σ → Prop} (h₀ : P [] m.init)
    (hstep : ∀ l s a s', m.Reachable s → P l s → m.step s a = some s' → P (l ++ f s a) s')
    {as : List α} {s : σ} (h : m.run m.init as = some s) : P (m.observe f m.init as) s := by
  induction as using List.reverseRecOn generalizing s with
  | nil => exact Option.some.inj h ▸ h₀
  | append_singleton as a ih =>
    obtain ⟨t, ht, hs⟩ := run_concat.1 h
    rw [observe_concat ht]
    exact hstep _ _ _ _ (reachable_of_run ht) (ih ht) hs

/-- A restricted machine shows what the machine does. -/
theorem observe_restrict {ok : σ → α → Prop} {s s' : σ} {as : List α}
    (h : (m.restrict ok).run s as = some s') :
    (m.restrict ok).observe f s as = m.observe f s as := by
  induction as generalizing s with
  | nil => rfl
  | cons a as ih =>
    obtain ⟨t, ht, h⟩ := run_cons.1 h
    simp only [observe, ht, (step_restrict.1 ht).2, Option.elim_some, ih h]

end Observe

/-! ## Ranks -/

variable {internal : α → Prop} {rank : σ → ℕ}

/-- No internal action is enabled. -/
def Stuck (m : Machine σ α) (internal : α → Prop) (s : σ) : Prop :=
  ∀ a, internal a → m.step s a = none

/-- A run of internal steps, each of which lowers the rank, is no longer than that. -/
theorem length_add_rank_le
    (hrank : ∀ s a s', m.Reachable s → internal a → m.step s a = some s' → rank s' < rank s)
    {s s' : σ} {as : List α} (hs : m.Reachable s) (has : ∀ a ∈ as, internal a)
    (h : m.run s as = some s') : as.length + rank s' ≤ rank s := by
  induction as generalizing s with
  | nil => simp [Option.some.inj h]
  | cons a as ih =>
    obtain ⟨t, ht, h⟩ := run_cons.1 h
    have hlt := hrank s a t hs (has a List.mem_cons_self) ht
    have hle := ih (hs.step ht) (fun b hb => has b (List.mem_cons_of_mem _ hb)) h
    rw [List.length_cons]
    omega

/-- If the internal steps lower the rank, some of them lead to a state that is stuck. -/
theorem exists_run_stuck
    (hrank : ∀ s a s', m.Reachable s → internal a → m.step s a = some s' → rank s' < rank s)
    {s : σ} (hs : m.Reachable s) :
    ∃ as s', (∀ a ∈ as, internal a) ∧ m.run s as = some s' ∧ m.Stuck internal s' := by
  induction hn : rank s using Nat.strongRecOn generalizing s with
  | ind n ih =>
    by_cases hstuck : m.Stuck internal s
    · exact ⟨[], s, by simp, rfl, hstuck⟩
    · -- Some internal action is enabled, and the state after it has a lower rank.
      simp only [Stuck, not_forall] at hstuck
      obtain ⟨a, ha, hne⟩ := hstuck
      obtain ⟨t, ht⟩ := Option.ne_none_iff_exists'.1 hne
      obtain ⟨as, s', has, hrun, hs'⟩ :=
        ih (rank t) (hn ▸ hrank s a t hs ha ht) (hs.step ht) rfl
      exact ⟨a :: as, s', by simpa using ⟨ha, has⟩, run_cons.2 ⟨t, ht, hrun⟩, hs'⟩

/-- What every internal step keeps is kept along a run of them. -/
theorem Reachable.internal_invariant {P : σ → Prop}
    (hstep : ∀ s a s', m.Reachable s → internal a → P s → m.step s a = some s' → P s')
    {s s' : σ} {as : List α} (hs : m.Reachable s) (has : ∀ a ∈ as, internal a) (hP : P s)
    (h : m.run s as = some s') : P s' := by
  induction as generalizing s with
  | nil => exact Option.some.inj h ▸ hP
  | cons a as ih =>
    obtain ⟨t, ht, h⟩ := run_cons.1 h
    exact ih (hs.step ht) (fun b hb => has b (List.mem_cons_of_mem _ hb))
      (hstep _ _ _ hs (has a List.mem_cons_self) hP ht) h

/-- From `s`, the internal actions in any order come to a halt, after `n` of them at most,
    and `P` holds when they have. -/
structure Leads (m : Machine σ α) (internal : α → Prop) (n : ℕ) (P : σ → Prop) (s : σ) : Prop where
  /-- There are at most `n` of them. -/
  bounded : ∀ as s', (∀ a ∈ as, internal a) → m.run s as = some s' → as.length ≤ n
  /-- Whatever has been done, it may come to a halt. -/
  halts : ∀ as s', (∀ a ∈ as, internal a) → m.run s as = some s' →
    ∃ as' s'', (∀ a ∈ as', internal a) ∧ m.run s' as' = some s'' ∧ m.Stuck internal s''
  /-- `P` holds wherever it has come to a halt. -/
  stuck : ∀ as s', (∀ a ∈ as, internal a) → m.run s as = some s' → m.Stuck internal s' → P s'

/-- Internal steps that lower the rank and keep `Q` lead to what follows, for a state that
    is stuck, from `Q`. -/
theorem leads_of_rank {P Q : σ → Prop}
    (hrank : ∀ s a s', m.Reachable s → internal a → m.step s a = some s' → rank s' < rank s)
    (hstep : ∀ s a s', m.Reachable s → internal a → Q s → m.step s a = some s' → Q s')
    (hstuck : ∀ s, m.Reachable s → Q s → m.Stuck internal s → P s)
    {s : σ} (hs : m.Reachable s) (hQ : Q s) : m.Leads internal (rank s) P s where
  bounded _ _ has h := Nat.le_of_add_right_le (length_add_rank_le hrank hs has h)
  halts _ _ _ h := exists_run_stuck hrank (hs.run h)
  stuck _ _ has h := hstuck _ (hs.run h) (hs.internal_invariant hstep has hQ h)

end Machine

end Qlabs
