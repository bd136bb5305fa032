import Qlabs.Http.Request

/-!
# Serving static files

Two questions about `ServerWrapper.onHttpRequest`, for every request, every
`frontend_dir` and every content of the file system:

* does it answer the truth (`Truthful`)? It does so except where the file could
  not be read, as the failure is not looked at, and what was read of the file,
  if anything, is sent as the file; and except where the name has a NUL, as the
  file opened is then named by what comes before (`truthful_iff`);
* what may it open? Only files below the public directory, lexically
  (`opened_below`): the path is `frontend_dir`, `public`, and what the request
  says (`exists_target`), which does not go up, as a path that refers to a
  parent is not opened.

The query of a request has no part in it (`query_irrelevant`).
-/

namespace Qlabs.Http

variable {env : Env} {frontendDir : FilePath} {read : FilePath → ReadResult} {connectionId : ℤ}
  {info : HttpServerRequestInfo}

/-! ## The file requested -/

theorem pathWithoutParams_eq (path : Bytes) :
    pathWithoutParams path = path.takeWhile (· != 63) := by
  induction path with
  | nil => rfl
  | cons b path ih =>
    rw [pathWithoutParams] at ih ⊢
    rw [List.findIdx?_cons]
    by_cases hb : b = 63
    · simp [hb]
    · cases hf : path.findIdx? (· == 63) with
      | none => simpa [hb, hf] using ih
      | some i => simpa [hb, hf] using ih

/-- Neither the prefix nor what is left of it has a query. -/
theorem requestedFile_append (rest : Bytes) :
    requestedFile (publicPrefix ++ rest) = bytes "public/" ++ rest.takeWhile (· != 63) := by
  have hdrop : (publicPrefix ++ rest).drop (bytes "/qlabs/").length = bytes "public/" ++ rest := rfl
  rw [requestedFile, pathWithoutParams_eq, hdrop,
    List.takeWhile_append_of_pos (List.all_eq_true.1 (by decide))]

/-- Below the prefix, the file requested is in `public`: neither the query nor a
    NUL starts before. -/
theorem exists_requestedFile {path : Bytes} (h : publicPrefix <+: path) :
    ∃ rest, requestedFile path = bytes "public/" ++ rest := by
  obtain ⟨rest, rfl⟩ := h
  exact ⟨_, requestedFile_append rest⟩

theorem cStr_public (rest : Bytes) :
    cStr (bytes "public/" ++ rest) = bytes "public" ++ Path.separator :: cStr rest :=
  List.takeWhile_append_of_pos (List.all_eq_true.1 (by decide))

/-- The calls that read a file: there are some only for a request that is safe to
    serve, below the prefix, and then the file is the one requested. -/
theorem mem_onHttpRequest_readFileToString {path : FilePath}
    (h : .readFileToString path ∈
      ServerWrapper.onHttpRequest env frontendDir read connectionId info) :
    env.requestIsSafeToServe info ∧ env.base.startsWith info.path publicPrefix ∧ frontendDir ≠ [] ∧
      path = env.base.appendASCII frontendDir (requestedFile info.path) := by
  rw [ServerWrapper.onHttpRequest] at h
  split_ifs at h with hsafe hstart hdir <;> simp_all

/-! ## Queries -/

/-- The file a call reads. -/
def Call.file? : Call → Option FilePath
  | .readFileToString path => some path
  | _ => none

/-- What can be told of the calls for a request, whatever its connection: the responses
    sent, and the files read. -/
def outcome (calls : List Call) : List Response × List FilePath :=
  (calls.filterMap fun call => call.response.map Prod.snd, calls.filterMap Call.file?)

/-- The file a path stands for, below the prefix: the query is stripped last. -/
def fileBelow (b : Base) (path : Bytes) : Option Bytes :=
  if b.startsWith path publicPrefix then some (requestedFile path) else none

/-- The same, with the query stripped first. -/
def fileBelowStripped (b : Base) (path : Bytes) : Option Bytes :=
  if b.startsWith (pathWithoutParams path) publicPrefix then
    some ((pathWithoutParams path).drop (bytes "/qlabs/").length)
  else none

/-- The prefix has no query: a path starts with it exactly when it does so before its
    query. -/
theorem publicPrefix_takeWhile (path : Bytes) :
    publicPrefix <+: path.takeWhile (· != 63) ↔ publicPrefix <+: path := by
  constructor
  · exact fun h => h.trans (List.takeWhile_prefix _)
  · rintro ⟨rest, rfl⟩
    rw [List.takeWhile_append_of_pos (List.all_eq_true.1 (by decide))]
    exact List.prefix_append _ _

/-- Below the prefix, it does not matter whether the query is stripped before or after
    what comes first is cut. -/
theorem requestedFile_eq {path : Bytes} (h : publicPrefix <+: path) :
    requestedFile path = (path.takeWhile (· != 63)).drop (bytes "/qlabs/").length := by
  obtain ⟨rest, rfl⟩ := h
  rw [requestedFile_append, List.takeWhile_append_of_pos (List.all_eq_true.1 (by decide))]
  rfl

theorem startsWith_takeWhile {b : Base} (hb : b.Lawful) (path : Bytes) :
    b.startsWith (path.takeWhile (· != 63)) publicPrefix = b.startsWith path publicPrefix :=
  Bool.eq_iff_iff.2 ((hb.startsWith_iff _ _).trans
    ((publicPrefix_takeWhile path).trans (hb.startsWith_iff _ _).symm))

/-- Two requests that are both safe to serve, or both not, and whose paths are the same
    before their queries, have the same outcome. The query may as well be stripped first. -/
theorem query_irrelevant (hb : env.base.Lawful) :
    (∀ info info', env.requestIsSafeToServe info = env.requestIsSafeToServe info' →
      info.path.takeWhile (· != 63) = info'.path.takeWhile (· != 63) → ∀ c c',
      outcome (ServerWrapper.onHttpRequest env frontendDir read c info) =
        outcome (ServerWrapper.onHttpRequest env frontendDir read c' info')) ∧
    ∀ path, fileBelow env.base path = fileBelowStripped env.base path := by
  refine ⟨fun info info' hsafe hpath c c' => ?_, fun path => ?_⟩
  · have hstart : env.base.startsWith info.path publicPrefix =
        env.base.startsWith info'.path publicPrefix := by
      rw [← startsWith_takeWhile hb, hpath, startsWith_takeWhile hb]
    rw [ServerWrapper.onHttpRequest, ServerWrapper.onHttpRequest, hsafe, hstart]
    split_ifs with hunsafe hpre hdir
    · rfl
    · rfl
    · -- Both are served the same file.
      have hpre : publicPrefix <+: info'.path := (hb.startsWith_iff _ _).1 (by simpa using hpre)
      have hpre' : publicPrefix <+: info.path := by
        rwa [← publicPrefix_takeWhile, hpath, publicPrefix_takeWhile]
      have hfile : requestedFile info.path = requestedFile info'.path := by
        rw [requestedFile_eq hpre', requestedFile_eq hpre, hpath]
      rw [hfile]
      rfl
    · rfl
  · rw [fileBelow, fileBelowStripped, pathWithoutParams_eq, startsWith_takeWhile hb]
    split_ifs with hpre
    · rw [requestedFile_eq ((hb.startsWith_iff _ _).1 hpre)]
    · rfl

/-- A request for the page with another query, which looks like a path. -/
def otherPageRequest : HttpServerRequestInfo :=
  { pageRequest with path := bytes "/qlabs/public/a.html?../b.png" }

/-- It gets the page. -/
theorem query_irrelevant_page :
    outcome (ServerWrapper.onHttpRequest localEnv (bytes "/srv") noFiles 1 pageRequest) =
      outcome (ServerWrapper.onHttpRequest localEnv (bytes "/srv") noFiles 2 otherPageRequest) :=
  (query_irrelevant Base.posix_lawful).1 pageRequest otherPageRequest (by decide) (by decide) 1 2

/-! ## A server with one page -/

/-- A file system in which a page is all there is below `/srv`. -/
def pageContents (path : FilePath) : Option Bytes :=
  if path = bytes "/srv/public/a.html" then some (bytes "hello") else none

/-- Reading that file system, where `pages` says whether it has the page. -/
def readPage (pages : Bool) (path : FilePath) : ReadResult :=
  match pageContents path with
  | some data => if pages then ⟨true, true, data⟩ else ⟨false, false, []⟩
  | none => ⟨false, false, []⟩

/-! ## Confinement -/

/-- The file opened for a request: `public` and what the request says, after the
    directory or, where that is the current one, on their own. -/
theorem exists_target (hb : env.base.Lawful) (hdir : frontendDir ≠ [])
    (hpath : publicPrefix <+: info.path) :
    ∃ rest dir, Path.normalize (dir ++ bytes "public") =
        Path.normalize (frontendDir ++ Path.separator :: bytes "public") ∧
      env.base.appendASCII frontendDir (requestedFile info.path) =
        dir ++ bytes "public" ++ Path.separator :: rest := by
  obtain ⟨rest, hrest⟩ := exists_requestedFile hpath
  have hcut : cStr (requestedFile info.path) = bytes "public" ++ Path.separator :: cStr rest := by
    rw [hrest, cStr_public]
  refine ⟨cStr rest, ?_⟩
  rcases hb.appendASCII frontendDir (requestedFile info.path) hdir (by rw [hcut]; simp [bytes]) with
    ⟨rfl, happ⟩ | ⟨d, n, rfl, happ⟩
  · exact ⟨[], by decide, by rw [happ, hcut, List.nil_append]⟩
  · refine ⟨d ++ [Path.separator], ?_, by simp [happ, hcut]⟩
    rw [Path.normalize_trailing, List.append_assoc, List.singleton_append]

/-- Reading a file opens nothing for a path that refers to a parent. -/
def RefusesParents (read : FilePath → ReadResult) : Prop :=
  ∀ p, (∃ c ∈ Path.components p, Path.IsParentReference c) → (read p).opened = false

theorem readPage_refuses : RefusesParents (readPage true) := by
  rintro p ⟨c, hc, hpar⟩
  by_cases hp : p = bytes "/srv/public/a.html"
  · have hcs : c ∈ [[], bytes "srv", bytes "public", bytes "a.html"] := by
      have : Path.components (bytes "/srv/public/a.html") =
          [[], bytes "srv", bytes "public", bytes "a.html"] := by decide
      rwa [hp, this] at hc
    have hnot : ∀ d ∈ [[], bytes "srv", bytes "public", bytes "a.html"], ¬bytes ".." <:+: d := by
      decide +kernel
    exact absurd hpar.2 (hnot c hcs)
  · simp [readPage, pageContents, hp]

/-- The files a request opens are below the public directory: `frontend_dir` and
    `public`. -/
theorem opened_below (hb : env.base.Lawful) (hread : RefusesParents read) {path : FilePath}
    (hcall : .readFileToString path ∈
      ServerWrapper.onHttpRequest env frontendDir read connectionId info)
    (hopened : (read path).opened) :
    Path.Below (frontendDir ++ Path.separator :: bytes "public") path := by
  obtain ⟨-, hstart, hdir, rfl⟩ := mem_onHttpRequest_readFileToString hcall
  obtain ⟨rest, dir, hnorm, htarget⟩ := exists_target hb hdir ((hb.startsWith_iff _ _).1 hstart)
  rw [htarget] at hopened ⊢
  have hrest : bytes ".." ∉ Path.components rest := fun hmem => by
    have hclosed := hread (dir ++ bytes "public" ++ Path.separator :: rest)
      ⟨bytes "..", by rw [Path.components_append]; exact List.mem_append_right _ hmem,
        Path.isParentReference_dotdot⟩
    rw [hclosed] at hopened
    exact Bool.false_ne_true hopened
  have hbelow := Path.below_append (p := dir ++ bytes "public") (by simp [bytes]) hrest
  rwa [Path.Below, hnorm] at hbelow

/-- The page is opened, in the public directory. -/
theorem opened_below_page :
    (readPage true (bytes "/srv/public/a.html")).opened ∧
      Path.Below (bytes "/srv" ++ Path.separator :: bytes "public")
        (bytes "/srv/public/a.html") := by
  have hcall : Call.readFileToString (bytes "/srv/public/a.html") ∈
      ServerWrapper.onHttpRequest localEnv (bytes "/srv") (readPage true) 1 pageRequest := by decide
  have hopened : (readPage true (bytes "/srv/public/a.html")).opened := by decide
  exact ⟨hopened, opened_below Base.posix_lawful readPage_refuses hcall hopened⟩

/-! ## Truth -/

/-- Reading a file succeeds only if it has read it whole: the bytes it gives are
    then the contents of the file. -/
def ReadsWhole (contents : FilePath → Option Bytes) (read : FilePath → ReadResult) : Prop :=
  ∀ p, (read p).ok → contents p = some (read p).data

theorem readPage_whole (pages : Bool) : ReadsWhole pageContents (readPage pages) := by
  intro p hp
  rw [readPage] at hp ⊢
  cases hc : pageContents p with
  | none => simp [hc] at hp
  | some data =>
    cases pages
    · simp [hc] at hp
    · rfl

/-- The path the file requested is opened at. -/
def target (env : Env) (frontendDir : FilePath) (info : HttpServerRequestInfo) : FilePath :=
  env.base.appendASCII frontendDir (requestedFile info.path)

/-- What an answer should say: that the request is not trusted, or else that
    there is nothing to serve, or else the contents of the file requested. No
    file has a NUL in its name: the path would be that of another file, the one
    named by what comes before. -/
def TrueResponse (env : Env) (frontendDir : FilePath) (contents : FilePath → Option Bytes)
    (read : FilePath → ReadResult) (info : HttpServerRequestInfo) (response : Response) : Prop :=
  if env.requestIsSafeToServe info = false then ∃ message, response = .internalError message
  else if ¬publicPrefix <+: info.path ∨ frontendDir = [] ∨ 0 ∈ requestedFile info.path ∨
      (read (target env frontendDir info)).ok = false then response = .notFound
  else ∃ data, contents (target env frontendDir info) = some data ∧
    response = .ok data (getMimeType env.base (requestedFile info.path))

/-- The calls send exactly one response, on the connection of the request, and
    what it says is true. -/
def Truthful (env : Env) (frontendDir : FilePath) (contents : FilePath → Option Bytes)
    (read : FilePath → ReadResult) (connectionId : ℤ) (info : HttpServerRequestInfo)
    (calls : List Call) : Prop :=
  ∃ response, calls.filterMap Call.response = [(connectionId, response)] ∧
    TrueResponse env frontendDir contents read info response

/-- Every request is sent one response, on its connection. -/
theorem exists_response (env : Env) (frontendDir : FilePath) (read : FilePath → ReadResult)
    (connectionId : ℤ) (info : HttpServerRequestInfo) :
    ∃ response, (ServerWrapper.onHttpRequest env frontendDir read connectionId info).filterMap
      Call.response = [(connectionId, response)] := by
  rw [ServerWrapper.onHttpRequest]
  split_ifs <;> exact ⟨_, rfl⟩

/-- A request is answered truthfully except where it is served a file that could
    not be read, or another file than the one requested. -/
theorem truthful_iff {contents : FilePath → Option Bytes} (hb : env.base.Lawful)
    (hread : ReadsWhole contents read) :
    Truthful env frontendDir contents read connectionId info
        (ServerWrapper.onHttpRequest env frontendDir read connectionId info) ↔
      (env.requestIsSafeToServe info → publicPrefix <+: info.path → frontendDir ≠ [] →
        0 ∉ requestedFile info.path ∧ (read (target env frontendDir info)).ok) := by
  have hstart := hb.startsWith_iff info.path publicPrefix
  rw [ServerWrapper.onHttpRequest]
  split_ifs with hsafe hpre hdir
  · -- The request is not trusted.
    have hsafe : env.requestIsSafeToServe info = false := by simpa using hsafe
    exact iff_of_true ⟨_, rfl, by rw [TrueResponse, if_pos hsafe]; exact ⟨_, rfl⟩⟩
      fun h => absurd h (by simp [hsafe])
  · -- It is not below the prefix.
    have hpre : ¬publicPrefix <+: info.path := by rw [← hstart]; simpa using hpre
    refine iff_of_true ⟨_, rfl, ?_⟩ fun _ h => absurd h hpre
    rw [TrueResponse, if_neg (by simpa using hsafe), if_pos (.inl hpre)]
  · -- A file is read: the response is the same whether or not this succeeds.
    have hpre : publicPrefix <+: info.path := hstart.1 (by simpa using hpre)
    have hdir : frontendDir ≠ [] := by simpa using hdir
    have hsafe : env.requestIsSafeToServe info = true := by simpa using hsafe
    constructor
    · rintro ⟨response, hsent, htrue⟩ - - -
      have hsent : [(connectionId, Response.ok (read (target env frontendDir info)).data
        (getMimeType env.base (requestedFile info.path)))] = [(connectionId, response)] := hsent
      obtain ⟨-, rfl⟩ := Prod.mk.inj (List.cons.inj hsent).1
      by_contra hfail
      have hfail : 0 ∈ requestedFile info.path ∨
          (read (target env frontendDir info)).ok = false := by
        rwa [not_and_or, not_not, Bool.not_eq_true] at hfail
      rw [TrueResponse, if_neg (by simp [hsafe]), if_pos (.inr (.inr hfail))] at htrue
      cases htrue
    · intro hok
      refine ⟨_, rfl, ?_⟩
      obtain ⟨hnul, hok⟩ := hok hsafe hpre hdir
      rw [TrueResponse, if_neg (by simp [hsafe]), if_neg (by simp [hpre, hdir, hnul, hok])]
      exact ⟨_, hread _ hok, rfl⟩
  · -- There is no directory to serve.
    have hdir : frontendDir = [] := by simpa using hdir
    refine iff_of_true ⟨_, rfl, ?_⟩ fun _ _ h => absurd hdir h
    rw [TrueResponse, if_neg (by simpa using hsafe), if_pos (.inr (.inl hdir))]

/-- The page is served as it is. -/
theorem truthful_page :
    Truthful localEnv (bytes "/srv") pageContents (readPage true) 1 pageRequest
      (ServerWrapper.onHttpRequest localEnv (bytes "/srv") (readPage true) 1 pageRequest) :=
  (truthful_iff Base.posix_lawful (readPage_whole true)).2 fun _ _ _ => by decide

/-- Without the page, the request is answered with an empty one. -/
theorem not_truthful_missing :
    ServerWrapper.onHttpRequest localEnv (bytes "/srv") (readPage false) 1 pageRequest =
        [.setSendBufferSize 1 kSendBufferSize, .readFileToString (bytes "/srv/public/a.html"),
          .respond 1 (.ok [] (bytes "text/html"))] ∧
      ¬Truthful localEnv (bytes "/srv") pageContents (readPage false) 1 pageRequest
        (ServerWrapper.onHttpRequest localEnv (bytes "/srv") (readPage false) 1 pageRequest) := by
  have hcalls : ServerWrapper.onHttpRequest localEnv (bytes "/srv") (readPage false) 1 pageRequest =
      [.setSendBufferSize 1 kSendBufferSize, .readFileToString (bytes "/srv/public/a.html"),
        .respond 1 (.ok [] (bytes "text/html"))] := by decide
  refine ⟨hcalls, ?_⟩
  rintro ⟨response, hsent, htrue⟩
  rw [hcalls] at hsent
  have hsent : [((1 : ℤ), Response.ok [] (bytes "text/html"))] = [(1, response)] := hsent
  obtain ⟨-, rfl⟩ := Prod.mk.inj (List.cons.inj hsent).1
  rw [TrueResponse, if_neg (by decide), if_pos (.inr (.inr (.inr (by decide))))] at htrue
  cases htrue

end Qlabs.Http
