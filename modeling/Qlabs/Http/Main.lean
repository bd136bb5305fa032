import Qlabs.Http.Announce
import Qlabs.Http.Drain
import Qlabs.Http.Single
import Qlabs.Http.Static

/-!
# The programs

`http_server_main` and `echo_server_main` make two directories next to the executable,
one for the file with the port and one to serve, start the server on them, and run the main
thread for ever: nothing quits their run loop, so that they never stop the server.

Whatever clients do, such a program listens on the local host only, opens files below the
public part of its own directory only, unless their path refers to a parent, and writes one
file, once, in the other directory (`program_confined`). If a directory cannot be made, it
opens, or writes, nothing at all.
-/

namespace Qlabs.Http

variable {env : Env} {s s' : State} {g : Gen}

/-- What a program finds of the file system. -/
structure Host where
  /-- What `base::PathService::Get(base::DIR_EXE, &parent)` leaves in `parent`. -/
  dirExe : FilePath
  pathExists : FilePath → Bool
  createDirectory : FilePath → Bool

/-- `GetOrCreateDirectory`: it leaves its second parameter alone if it fails. `Append` is
    `AppendASCII`, on POSIX. -/
def getOrCreateDirectory (b : Base) (host : Host) (dirName : Bytes) : Option FilePath :=
  let resultDir := b.appendASCII host.dirExe dirName
  if !host.pathExists resultDir then
    if !host.createDirectory resultDir then none else some resultDir
  else some resultDir

/-- What a program is about: the names of its directories. -/
structure Program where
  portDir : Bytes
  resDir : Bytes

def httpServerMain : Program := ⟨bytes "test_http_server_port", bytes "test_http_server_res"⟩

def echoServerMain : Program := ⟨bytes "echo_server_port", bytes "echo_server_res"⟩

/-- What happens next in a program: its main function starts the server, or a thread goes
    on, with what the functions it calls return, or `net::HttpServer` calls its delegate. -/
inductive Move
  | start (threadStarts : Bool)
  | terminate
  | runMain
  | runServer (g : Gen)
  | createForHttpServer (g : Gen) (listen : IPEndPoint → Bool)
  | getLocalAddress (g : Gen) (ok : Bool)
  | postServerStarted (g : Gen)
  | event (g : Gen) (e : Event) (read : FilePath → ReadResult)
  | deleteThread (g : Gen)

namespace Program

variable (p : Program) (env : Env) (host : Host)

/-- What `main` passes to `Start` to write the port to: empty if it cannot be made. -/
def socketDir : FilePath := (getOrCreateDirectory env.base host p.portDir).getD []

/-- What `main` passes to `Start` to serve: empty if it cannot be made. -/
def frontendDir : FilePath := (getOrCreateDirectory env.base host p.resDir).getD []

/-- What a move is for the server. The address of a server is that of its socket. -/
def action (s : State) : Move → Action
  | .start threadStarts => .start threadStarts (p.socketDir env host) (p.frontendDir env host)
  | .terminate => .terminate
  | .runMain => .runMain
  | .runServer g => .runServer g
  | .createForHttpServer g listen => .createForHttpServer g
    (MySocketFactory.createForHttpServer listen)
  | .getLocalAddress g ok => .getLocalAddress g
    (if ok then (s.server g).serverWrapper.map ServerWrapper.server else none)
  | .postServerStarted g => .postServerStarted g
  | .event g e read => .event g e read
  | .deleteThread g => .deleteThread g

/-- The next state. The server is started once, and then nothing else is done but to run
    the tasks. -/
def step (s : State) (m : Move) : Option State :=
  match m with
  | .start _ => if s.starts = 0 then Http.step env s (p.action env host s m) else none
  | _ => Http.step env s (p.action env host s m)

def machine : Machine State Move := ⟨{}, p.step env host⟩

/-- What the moves of a run are for the server. -/
def actions (ms : List Move) : List Action :=
  (p.machine env host).observe (fun s m => [p.action env host s m]) (p.machine env host).init ms

end Program

/-! ## Programs run the server -/

section Run

variable {p : Program} {host : Host}

theorem Program.action_step {m : Move} (h : p.step env host s m = some s') :
    Http.step env s (p.action env host s m) = some s' ∧
      ∀ threadStarts, m = .start threadStarts → s.starts = 0 := by
  cases m with
  | start threadStarts =>
    obtain ⟨hstarts, h⟩ := Option.ite_none_right_eq_some.1 h
    exact ⟨h, fun _ _ => hstarts⟩
  | _ => exact ⟨h, fun _ h => by cases h⟩

theorem Program.run_server {ms : List Move}
    (h : (p.machine env host).run (p.machine env host).init ms = some s) :
    (Http.machine env).run (Http.machine env).init (p.actions env host ms) = some s :=
  Machine.observe_invariant (m := p.machine env host)
    (P := fun as s => (Http.machine env).run (Http.machine env).init as = some s) rfl
    (fun _ s _ _ _ hrun h => Machine.run_concat.2 ⟨s, hrun, (p.action_step h).1⟩) h

theorem Program.reachable_server (hs : (p.machine env host).Reachable s) :
    (Http.machine env).Reachable s :=
  hs.invariant .init fun _ _ _ _ hs h => hs.step (Program.action_step h).1

end Run

/-! ## Directories -/

theorem Server.dirs_empty (od fd : FilePath) : Server.Dirs od fd {} where
  queue _ _ _ _ _ ht := absurd ht List.not_mem_nil
  running _ hf := by cases hf
  wrapper _ hw := by cases hw

/-- A step keeps the directories of the servers, but for those of the start it makes. -/
theorem dirs_step {a : Action} {od fd : FilePath} (hs : Good env s) (h : step env s a = some s')
    (hstart : ∀ threadStarts od' fd', a = .start threadStarts od' fd' → od' = od ∧ fd' = fd)
    (hdirs : ∀ g, (s.server g).Dirs od fd) (g : Gen) : (s'.server g).Dirs od fd := by
  by_cases ha : a.Internal
  · exact ((advances_step hs ha h).server g).dirs od fd (hdirs g)
  · obtain ⟨-, h⟩ := transition_of_step h
    cases h with
    | startRefused => exact hdirs g
    | @start threadStarts od' fd' hm hh =>
      obtain ⟨rfl, rfl⟩ := hstart _ _ _ rfl
      rcases eq_or_ne g s.starts with rfl | hne
      · -- The server of the new start is empty before.
        have hserver : s.server s.starts = {} := congrArg View.server (hs.fresh s.starts le_rfl)
        rw [State.makeHandler]
        split_ifs
        · refine ⟨fun h t c od fd ht => ?_, fun f hf => ?_, fun w hw => ?_⟩
          · simp [State.post, hserver] at ht
            exact ht.2.2.2
          · simp [State.post, hserver] at hf
          · simp [State.post, hserver] at hw
        · rw [State.server_delete, State.server_delete]
          exact hdirs _
      · rw [server_makeHandler _ _ _ hne]
        exact hdirs g
    | stop =>
      rw [State.stop]
      cases s.httpHandler <;> exact hdirs g
    | @event g' e read w hw =>
      rcases eq_or_ne g g' with rfl | hne
      · have hg := hdirs g
        refine ⟨fun h t c od' fd' ht => hg.queue h t c od' fd' (by simpa [State.onEvent] using ht),
          fun f hf => hg.running f (by simpa [State.onEvent] using hf), fun w' hw' => ?_⟩
        obtain rfl : _ = w' := by simpa [State.onEvent] using hw'
        exact hg.wrapper w hw
      · simpa [State.onEvent, State.server_setServer_of_ne _ hne] using hdirs g
    | _ => exact absurd trivial ha

/-! ## Addresses -/

/-- The addresses of the local host a program may listen on. -/
def localHosts : List IPEndPoint := [⟨bytes "127.0.0.1", 3101⟩, ⟨bytes "::1", 3101⟩]

theorem mem_localHosts {listen : IPEndPoint → Bool} {socket : ServerSocket}
    (h : MySocketFactory.createForHttpServer listen = some socket) : socket ∈ localHosts := by
  rw [MySocketFactory.createForHttpServer, createLocalHostServerSocket] at h
  split_ifs at h <;> simp_all [localHosts]

/-- The start `g` listens, and tells that it does, on the local host only. -/
structure State.Local (s : State) (g : Gen) : Prop where
  created : ∀ socket, (s.server g).created = some (some socket) → socket ∈ localHosts
  running : ∀ f w ip, (s.server g).running = some f → f.stage = .post w (some ip) →
    ip ∈ localHosts

theorem Program.local_step {p : Program} {host : Host} {m : Move} (hs : Good env s)
    (h : p.step env host s m = some s') (hlocal : ∀ g, s.Local g) (g : Gen) : s'.Local g := by
  obtain ⟨hstep, -⟩ := p.action_step h
  -- What is known of the start that goes on is enough.
  have hset : ∀ {g' : Gen} {v : Server}, (g = g' →
      (∀ socket, v.created = some (some socket) → socket ∈ localHosts) ∧
      ∀ f w ip, v.running = some f → f.stage = .post w (some ip) → ip ∈ localHosts) →
      (s.setServer g' v).Local g := by
    intro g' v hv
    rcases eq_or_ne g g' with rfl | hne
    · exact ⟨by simpa using (hv rfl).1, by simpa using (hv rfl).2⟩
    · exact ⟨by simpa [State.server_setServer_of_ne v hne] using (hlocal g).created,
        by simpa [State.server_setServer_of_ne v hne] using (hlocal g).running⟩
  generalize ha : p.action env host s m = a at hstep
  cases startStep hstep with
  | idle _ hidle =>
    exact ⟨by simpa [hidle.created] using (hlocal g).created,
      by simpa [hidle.running] using (hlocal g).running⟩
  | begins hq =>
    refine hset ?_
    rintro rfl
    exact ⟨(hlocal g).created, fun f w ip hf hstage => by cases hf; cases hstage⟩
  | @creates g' f socket hf =>
    refine hset ?_
    rintro rfl
    -- The socket is one that `CreateForHttpServer` returns.
    cases m with
    | createForHttpServer g' listen =>
      have hsocket := (Action.createForHttpServer.inj ha).2
      cases socket with
      | none =>
        refine ⟨fun socket hs => (by cases hs), fun f w ip hf hstage => ?_⟩
        obtain rfl := Option.some.inj hf
        cases hstage
      | some socket =>
        refine ⟨fun socket' hs => ?_, fun f w ip hf hstage => ?_⟩
        · obtain rfl := Option.some.inj (Option.some.inj hs)
          exact mem_localHosts hsocket
        · obtain rfl := Option.some.inj hf
          cases hstage
    | _ => cases ha
  | @addresses g' f address hf =>
    refine hset ?_
    rintro rfl
    refine ⟨(hlocal g).created, fun f w ip hf hstage => ?_⟩
    obtain rfl := Option.some.inj hf
    obtain ⟨-, rfl⟩ := Stage.post.inj hstage
    -- The address is that of the socket of the wrapper.
    cases m with
    | getLocalAddress g' ok =>
      obtain ⟨rfl, haddress⟩ := Action.getLocalAddress.inj ha
      obtain ⟨-, w, hw, rfl⟩ : ok ∧ ∃ w, (s.server g').serverWrapper = some w ∧
          w.server = ip := by
        simpa using haddress
      exact (hlocal g').created _ (hs.created_of_wrapper hw)
    | _ => cases ha
  | @posts g' f w ip hf hstage =>
    have hlocal' : (s.setServer g' { s.server g' with running := none }).Local g := by
      refine hset ?_
      rintro rfl
      exact ⟨(hlocal g).created, fun f w ip hf => by cases hf⟩
    exact ⟨hlocal'.created, hlocal'.running⟩

/-! ## What a program may do -/

/-- A file that a request names is below the public directory, or its path refers to a
    parent, so that it is not opened. -/
theorem below_or_parent {frontendDir : FilePath} {info : HttpServerRequestInfo}
    (hb : env.base.Lawful) (hdir : frontendDir ≠ []) (hpath : publicPrefix <+: info.path) :
    Path.Below (frontendDir ++ Path.separator :: bytes "public")
        (env.base.appendASCII frontendDir (requestedFile info.path)) ∨
      ∃ c ∈ Path.components (env.base.appendASCII frontendDir (requestedFile info.path)),
        Path.IsParentReference c := by
  obtain ⟨rest, dir, hnorm, htarget⟩ := exists_target hb hdir hpath
  rw [htarget]
  by_cases hrest : bytes ".." ∈ Path.components rest
  · refine .inr ⟨bytes "..", ?_, Path.isParentReference_dotdot⟩
    rw [Path.components_append]
    exact List.mem_append_right _ hrest
  · have hbelow := Path.below_append (p := dir ++ bytes "public") (by simp [bytes]) hrest
    rw [Path.Below, hnorm] at hbelow
    exact .inl hbelow

/-- A wrapper reads a file only for a request below the prefix. -/
theorem LogValid.read {frontendDir path : FilePath} {log : List Entry} (hb : env.base.Lawful)
    (h : LogValid env g frontendDir log) (hpath : .readFileToString path ∈ log.flatMap Entry.calls) :
    frontendDir ≠ [] ∧ ∃ info : HttpServerRequestInfo, publicPrefix <+: info.path ∧
      path = env.base.appendASCII frontendDir (requestedFile info.path) := by
  induction h with
  | nil => cases hpath
  | @event log e read hlog he ih =>
    rw [List.flatMap_append, List.mem_append, List.flatMap_singleton] at hpath
    refine hpath.elim ih fun hpath => ?_
    cases e with
    | onHttpRequest c info =>
      obtain ⟨-, hstart, hdir, rfl⟩ := mem_onHttpRequest_readFileToString hpath
      exact ⟨hdir, info, (hb.startsWith_iff _ _).1 hstart, rfl⟩
    | _ => cases hpath
  | @task log t hlog ht ih =>
    rw [List.flatMap_append, List.mem_append, List.flatMap_singleton] at hpath
    refine hpath.elim ih fun hpath => ?_
    cases t <;> simp [ServerTask.calls, ServerWrapper.acceptWebSocket,
      ServerWrapper.sendOverWebSocket] at hpath

/-- What holds of the server of a program, all along. -/
structure Program.Inv (p : Program) (env : Env) (host : Host) (s : State) : Prop where
  dirs : ∀ g, (s.server g).Dirs (p.socketDir env host) (p.frontendDir env host)
  addresses : ∀ g, s.Local g
  starts : s.starts ≤ 1

theorem Program.inv_of_reachable {p : Program} {host : Host}
    (hs : (p.machine env host).Reachable s) : p.Inv env host s := by
  have hinit : p.Inv env host {} := ⟨fun _ => Server.dirs_empty _ _,
    fun _ => ⟨fun _ h => (by cases h), fun _ _ _ h => (by cases h)⟩, Nat.zero_le 1⟩
  refine hs.invariant hinit fun s m s' hs hinv h => ?_
  have hgood := good_of_reachable (Program.reachable_server hs)
  obtain ⟨hstep, hstarts⟩ := p.action_step h
  refine ⟨dirs_step hgood hstep (fun b od fd hm => ?_) hinv.dirs,
    Program.local_step hgood h hinv.addresses, ?_⟩
  · cases m with
    | start threadStarts =>
      obtain ⟨-, rfl, rfl⟩ := Action.start.inj hm
      exact ⟨rfl, rfl⟩
    | _ => cases hm
  · by_cases hint : (p.action env host s m).Internal
    · rw [(advances_step hgood hint hstep).starts]
      exact hinv.starts
    · obtain ⟨-, htransition⟩ := transition_of_step hstep
      cases m with
      | start threadStarts =>
        have hzero := hstarts threadStarts rfl
        cases htransition with
        | startRefused => exact hinv.starts
        | start => rw [starts_makeHandler, hzero]
      | event => cases htransition; exact hinv.starts
      | _ => exact absurd trivial hint

/-- What a program announces is about its own directory, and the local host. -/
theorem Program.announcement {p : Program} {host : Host} {ms : List Move}
    (h : (p.machine env host).run (p.machine env host).init ms = some s) :
    ∀ a ∈ announcements env (p.actions env host ms),
      a.outputDirectory = p.socketDir env host ∧ ∀ ip, a.ipAddress = some ip → ip ∈ localHosts := by
  refine (Machine.observe_invariant (m := p.machine env host)
    (P := fun as s => (Http.machine env).run (Http.machine env).init as = some s ∧
      ∀ a ∈ announcements env as, a.outputDirectory = p.socketDir env host ∧
        ∀ ip, a.ipAddress = some ip → ip ∈ localHosts) ⟨rfl, by simp [announcements, Machine.observe]⟩
    ?_ h).2
  rintro as s m s' hs ⟨hrun, ih⟩ h
  obtain ⟨hstep, -⟩ := p.action_step h
  have hinv := p.inv_of_reachable hs
  refine ⟨Machine.run_concat.2 ⟨s, hrun, hstep⟩, fun a ha => ?_⟩
  rw [announcements, Machine.observe_concat hrun, List.mem_append] at ha
  refine ha.elim (ih a) fun ha => ?_
  generalize p.action env host s m = action at ha
  cases action with
  | postServerStarted g =>
    rw [State.announced] at ha
    cases hf : (s.server g).running with
    | none => simp [hf] at ha
    | some f =>
      cases hstage : f.stage with
      | post w ip =>
        obtain rfl : a = ⟨g, f.outputDirectory, ip⟩ := by simpa [hf, hstage] using ha
        refine ⟨((hinv.dirs g).running f hf).1, fun ip' hip => ?_⟩
        obtain rfl : ip = some ip' := hip
        exact (hinv.addresses g).running f w ip' hf hstage
      | _ => simp [hf, hstage] at ha
  | _ => cases ha

/-- What a program may do to its surroundings, when the moves of its server were `as`, and
    have led to the state `s`. -/
structure Program.Confined (p : Program) (env : Env) (host : Host) (x : Outside)
    (as : List Action) (s : State) : Prop where
  /-- It listens on the local host only. -/
  listens : ∀ g w, (s.server g).serverWrapper = some w → w.server ∈ localHosts
  /-- It reads files only below the public part of the directory it has made to serve,
      unless their path refers to a parent. -/
  reads : ∀ g w path, (s.server g).serverWrapper = some w → .readFileToString path ∈ w.calls →
    ∃ dir, getOrCreateDirectory env.base host p.resDir = some dir ∧
      (Path.Below (dir ++ Path.separator :: bytes "public") path ∨
        ∃ c ∈ Path.components path, Path.IsParentReference c)
  /-- It writes one file only, in the other directory it has made, and once. -/
  writes : ∀ path data,
    .writeFile path data ∈ (announcements env as).flatMap (Announcement.outputs env.base x) →
    ∃ dir, getOrCreateDirectory env.base host p.portDir = some dir ∧
      path = env.base.appendASCII dir kActivePortFileName ∧
      readPortTarget data = (3101, kApiUrlPrefix)
  once : (announcements env as).length ≤ 1

/-- Whatever the clients do, and however its threads interleave, a program is confined to
    the local host and to its two directories. -/
theorem program_confined {p : Program} {host : Host} {ms : List Move} (x : Outside)
    (hb : env.base.Lawful)
    (h : (p.machine env host).run (p.machine env host).init ms = some s) :
    p.Confined env host x (p.actions env host ms) s := by
  have hs := Machine.reachable_of_run h
  have hgood := good_of_reachable (Program.reachable_server hs)
  have hinv := p.inv_of_reachable hs
  -- A directory that is not empty was made.
  have hmade : ∀ {name : Bytes}, (getOrCreateDirectory env.base host name).getD [] ≠ [] →
      getOrCreateDirectory env.base host name =
        some ((getOrCreateDirectory env.base host name).getD []) := by
    intro name hne
    cases hdir : getOrCreateDirectory env.base host name with
    | none => simp [hdir] at hne
    | some dir => rfl
  refine ⟨fun g w hw => (hinv.addresses g).created _ (hgood.created_of_wrapper hw),
    fun g w path hw hpath => ?_, fun path data hwrite => ?_, ?_⟩
  · have hvalid := (hgood.life g).valid w hw
    obtain ⟨hdir, info, hprefix, rfl⟩ := hvalid.log.read hb hpath
    rw [(hinv.dirs g).wrapper w hw] at hdir ⊢
    exact ⟨_, hmade hdir, below_or_parent hb hdir hprefix⟩
  · obtain ⟨a, ha, hwrite⟩ := List.mem_flatMap.1 hwrite
    obtain ⟨hdir, rfl, ip, hip, rfl⟩ := mem_outputs_writeFile hwrite
    obtain ⟨hod, hlocal⟩ := p.announcement h a ha
    rw [hod] at hdir ⊢
    refine ⟨_, hmade hdir, rfl, ?_⟩
    have hport : ip.port = 3101 := by
      have := hlocal ip hip
      simp only [localHosts, List.mem_cons, List.not_mem_nil, or_false] at this
      rcases this with rfl | rfl <;> rfl
    rw [readPortTarget_portTarget, hport]
    rfl
  · -- There is only one start to announce.
    have hsofar := announcedSoFar_of_run (Program.run_server h)
    have hsub : ∀ g ∈ (announcements env (p.actions env host ms)).map Announcement.gen,
        g ∈ [0] := by
      intro g hg
      obtain ⟨a, ha, rfl⟩ := List.mem_map.1 hg
      have hcreated := (hsofar.told a ha).created
      have hlt : a.gen < s.starts := by
        refine lt_of_not_ge fun hge => ?_
        have hserver : s.server a.gen = {} := congrArg View.server (hgood.fresh a.gen hge)
        simp [hserver] at hcreated
      exact List.mem_singleton.2 (Nat.lt_one_iff.1 (hlt.trans_le hinv.starts))
    simpa using (hsofar.once.subperm hsub).length_le

/-- A disk where the directory to serve is there, and the other one cannot be made. -/
def fullDisk : Host where
  dirExe := bytes "/opt"
  pathExists path := path == bytes "/opt/echo_server_res"
  createDirectory _ := false

/-- A client gets a page from the program, which cannot write the port. -/
def servePage : List Move :=
  [.start true, .runServer 0, .createForHttpServer 0 fun _ => true, .getLocalAddress 0 true,
    .postServerStarted 0, .runMain, .event 0 (.onConnect 1) noFiles,
    .event 0 (.onHttpRequest 1 pageRequest) noFiles]

theorem program_confined_page :
    let s := (echoServerMain.machine localEnv fullDisk).after servePage
    (∃ w, (s.server 0).serverWrapper = some w ∧
      .readFileToString (bytes "/opt/echo_server_res/public/a.html") ∈ w.calls) ∧
    echoServerMain.Confined localEnv fullDisk writable
      (echoServerMain.actions localEnv fullDisk servePage) s := by
  intro s
  have hw : (s.server 0).serverWrapper.isSome := by decide +revert
  refine ⟨⟨(s.server 0).serverWrapper.get hw, (Option.some_get hw).symm, by decide +revert⟩, ?_⟩
  exact program_confined writable Base.posix_lawful (Machine.run_after (by decide))

end Qlabs.Http
