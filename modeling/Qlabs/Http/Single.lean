import Qlabs.Http.Frame

/-!
# A single server

`SimpleHttpServer::Start` makes a new server as soon as there is no handler, and
`Stop` only posts the deletion of the old one: two wrappers may then exist, and
the new one listens elsewhere (`two_servers`).

But the wrappers that exist, save that of the handler alive, are all on their way
out (`others_leaving`), so that there is one again once they have left.
-/

namespace Qlabs.Http

variable {env : Env} {s : State} {g g' : Gen}

/-- The wrapper of the start `g` exists, and its socket listens. -/
def State.HasServer (s : State) (g : Gen) : Prop :=
  (s.server g).serverWrapper.isSome ∧ ¬s.IsDeleted (.serverWrapper g)

instance (s : State) (g : Gen) : Decidable (s.HasServer g) := inferInstanceAs (Decidable (_ ∧ _))

/-- The wrapper of the start `g` is about to be handed over, or deleted. -/
inductive State.Leaving (s : State) (g : Gen) : Prop
  | starting (h : (s.server g).running.isSome)
  | started {thread socketFactory : Option Gen} {ip : Option IPEndPoint}
    (h : .serverStartedOnDedicatedRunner g thread (some g) socketFactory ip ∈ s.tasks)
  | terminating {f : Termination} (h : s.terminating = some f) (hf : f.serverWrapper = some g)
  | deleted (h : .deleteServerWrapper g ∈ (s.server g).queue)

/-! ## Leaving -/

/-- A wrapper that is no longer to be deleted has been deleted. -/
theorem Condemned.leaving {f : Option Termination} {q : List ServerTask} {pool : List Gen}
    {d : List (Resource × Runner)} (h : Condemned g true f q pool d) :
    (∃ f', f = some f' ∧ f'.serverWrapper = some g) ∨ .deleteServerWrapper g ∈ q ∨
      .serverWrapper g ∈ d.map Prod.fst := by
  cases h with
  | wrapperHeld => exact .inl ⟨_, rfl, rfl⟩
  | factoryHeld h => exact .inr h.deletionPosted
  | threadHeld h => exact .inr (h.deletionPosted.2 rfl)
  | pooled h => exact .inr (h.deletionPosted.2 rfl)
  | done h => exact .inr (by simpa using h.deletionPosted.2 rfl)

/-- A wrapper that exists belongs to the handler alive, or is leaving. -/
theorem Good.owns_or_leaving (hs : Good env s) (h : s.HasServer g) :
    (∃ h, s.httpHandler = some h ∧ h.Owns g) ∨ s.Leaving g := by
  obtain ⟨hw, hdel⟩ := h
  have hlife := hs.life g
  have hw : (s.view g).server.serverWrapper.isSome := hw
  rw [State.isDeleted_iff, Resource.gen_serverWrapper] at hdel
  generalize hv : s.view g = v at hlife hw hdel
  cases hlife with
  | addressing | posting => exact .inr (.starting (congrArg (·.server.running.isSome) hv))
  | @posted alive ip w tasks hvalid =>
    obtain ⟨w, rfl⟩ := Option.isSome_iff_exists.1 hw
    have htask : .serverStartedOnDedicatedRunner g (some g) (some g) (some g) ip ∈
        (s.view g).tasks := by
      rw [hv]
      exact List.mem_cons_self
    exact .inr (.started (List.mem_of_mem_filter htask))
  | live howns =>
    exact .inl ⟨_, (State.view_handler_eq_some.1 (congrArg View.handler hv)).1, howns⟩
  | @condemned alive w tasks f q pool d halive hvalid ht hc =>
    obtain ⟨w, rfl⟩ := Option.isSome_iff_exists.1 hw
    rcases hc.leaving with ⟨f', rfl, hf⟩ | hq | hd
    · have hterm : (s.view g).terminating = some f' := congrArg View.terminating hv
      exact .inr (.terminating (Option.filter_eq_some_iff.1 hterm).1 hf)
    · exact .inr (.deleted ((congrArg (·.server.queue) hv) ▸ hq))
    · exact absurd hd hdel
  | _ => cases hw

/-- Of the wrappers that exist, one at most belongs to the handler alive, which owns it,
    and the others are leaving. Once they have left, there is one wrapper at most. -/
theorem others_leaving (hs : (machine env).Reachable s) :
    (∀ g, s.HasServer g → (∃ h, s.httpHandler = some h ∧ h.Owns g) ∨ s.Leaving g) ∧
    (∀ g g', s.Alive g → s.Alive g' → g = g') ∧
    ((∀ g, ¬s.Leaving g) → ∀ g g', s.HasServer g → s.HasServer g' → g = g') := by
  have hserver : ∀ g, s.HasServer g → (∃ h, s.httpHandler = some h ∧ h.Owns g) ∨ s.Leaving g :=
    fun g hg => (good_of_reachable hs).owns_or_leaving hg
  have halive : ∀ g g', s.Alive g → s.Alive g' → g = g' := by
    rintro g g' ⟨h, hh, rfl⟩ ⟨h', hh', rfl⟩
    obtain rfl : h = h' := Option.mem_unique hh hh'
    rfl
  refine ⟨hserver, halive, fun hnone g g' hg hg' => halive g g' ?_ ?_⟩
  · obtain ⟨h, hh, howns⟩ := (hserver g hg).resolve_right (hnone g)
    exact ⟨h, hh, howns.id⟩
  · obtain ⟨h, hh, howns⟩ := (hserver g' hg').resolve_right (hnone g')
    exact ⟨h, hh, howns.id⟩

/-! ## Two servers -/

/-- `MySocketFactory::CreateLocalHostServerSocket`, where `listen` is whether
    `ListenWithAddressAndPort` succeeds. -/
def createLocalHostServerSocket (listen : IPEndPoint → Bool) (port : ℕ) : Option ServerSocket :=
  if listen ⟨bytes "127.0.0.1", port⟩ then some ⟨bytes "127.0.0.1", port⟩
  else if listen ⟨bytes "::1", port⟩ then some ⟨bytes "::1", port⟩
  else none

/-- `MySocketFactory::CreateForHttpServer` -/
def MySocketFactory.createForHttpServer (listen : IPEndPoint → Bool) : Option ServerSocket :=
  createLocalHostServerSocket listen 3101

/-- No server of the program listens on the address. -/
def State.isFree (s : State) (address : IPEndPoint) : Bool :=
  (List.range s.starts).all fun g =>
    !(decide (s.HasServer g) && (s.server g).serverWrapper.any fun w => w.server = address)

/-- A server is started, stopped, and started again before the deletion of its
    wrapper has run. -/
def restart : List Action :=
  startUp 0 ⟨bytes "127.0.0.1", 3101⟩ ++
    [.stop, .terminate, .terminate, .terminate, .start true [] (bytes "/srv"), .runServer 1]

/-- The second server finds the port taken, and listens on another address. -/
theorem two_servers :
    let socket := MySocketFactory.createForHttpServer ((machine localEnv).after restart).isFree
    let s := (machine localEnv).after (restart ++ [.createForHttpServer 1 socket])
    socket = some ⟨bytes "::1", 3101⟩ ∧ s.HasServer 0 ∧ s.HasServer 1 ∧
      ¬∀ s, (machine localEnv).Reachable s → ∀ g g', s.HasServer g → s.HasServer g' → g = g' := by
  intro socket s
  have hsocket : socket = some ⟨bytes "::1", 3101⟩ := by decide
  have h0 : s.HasServer 0 := by decide
  have h1 : s.HasServer 1 := by decide
  exact ⟨hsocket, h0, h1, fun h =>
    absurd (h s (Machine.reachable_after _) 0 1 h0 h1) (by decide)⟩

/-- The first server is leaving. -/
theorem others_leaving_restart :
    let s := (machine localEnv).after
      (restart ++ [.createForHttpServer 1 (some ⟨bytes "::1", 3101⟩)])
    s.Alive 1 ∧ ((∃ h, s.httpHandler = some h ∧ h.Owns 0) ∨ s.Leaving 0) :=
  ⟨by decide, (others_leaving (Machine.reachable_after _)).1 0 (by decide)⟩

end Qlabs.Http
