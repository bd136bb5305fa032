import Mathlib.Data.List.DropRight
import Qlabs.Path

/-!
# Requests over plain HTTP

What `ServerWrapper` does with an HTTP request, as the calls it makes on its
`net::HttpServer` and on the file system (`ServerWrapper.onHttpRequest`): it
turns away the requests whose Host header it does not trust, and serves the
files under `frontend_dir` whose path starts with `/qlabs/public/`.

The libraries the code calls are parameters: the string and path functions of
`base` (`Base`), with what the code relies on (`Base.Lawful`), the parts of `net`
that tell a local host (`Net`), and what reading a file gives (`ReadResult`).
-/

namespace Qlabs.Http

/-- `base::FilePath` -/
abbrev FilePath := Bytes

/-! ## The libraries -/

/-- The functions of `base` on strings and paths. -/
structure Base where
  /-- `base::StartsWith(str, prefix, SENSITIVE)` -/
  startsWith : Bytes → Bytes → Bool
  /-- `base::EndsWith(str, suffix, INSENSITIVE_ASCII)` -/
  endsWith : Bytes → Bytes → Bool
  /-- `dir.AppendASCII(component)` -/
  appendASCII : FilePath → Bytes → FilePath

/-- An ASCII letter in lower case, and any other byte as it is. -/
def toLowerASCII (b : UInt8) : UInt8 := if 65 ≤ b ∧ b ≤ 90 then b + 32 else b

/-- What the code relies on in `base`: the two tests on strings are what they
    say; `AppendASCII` cuts its argument at the first NUL and joins it to the
    directory, less some of its trailing separators, with one separator, except
    that the current directory is dropped. -/
structure Base.Lawful (b : Base) : Prop where
  startsWith_iff : ∀ s p, b.startsWith s p ↔ p <+: s
  endsWith_iff : ∀ s t, b.endsWith s t ↔ t.map toLowerASCII <:+ s.map toLowerASCII
  appendASCII : ∀ dir c, dir ≠ [] → cStr c ≠ [] →
    (dir = bytes "." ∧ b.appendASCII dir c = cStr c) ∨
    ∃ d n, dir = d ++ List.replicate n Path.separator ∧
      b.appendASCII dir c = d ++ Path.separator :: cStr c

/-- `net::HttpServerRequestInfo`, as far as the server reads it. -/
structure HttpServerRequestInfo where
  path : Bytes
  headers : List (Bytes × Bytes)
  data : Bytes
  deriving DecidableEq

/-- The functions of `net` that the check of the Host header calls. -/
structure Net where
  /-- `info.GetHeaderValue(name)` -/
  getHeaderValue : HttpServerRequestInfo → Bytes → Bytes
  /-- `GURL(spec).HostIsIPAddress()` -/
  hostIsIPAddress : Bytes → Bool
  /-- `net::IsLocalHostname(GURL(spec).host())` -/
  isLocalHostname : Bytes → Bool

/-- What `base::ReadFileToString` does with a path: whether it opens a file at
    all, what it returns, and what it leaves in the string. -/
structure ReadResult where
  opened : Bool
  ok : Bool
  data : Bytes

/-- `RequestIsSafeToServe` -/
def requestIsSafeToServe (net : Net) (info : HttpServerRequestInfo) : Bool :=
  let header := net.getHeaderValue info (bytes "host")
  if header.isEmpty then true
  else
    let url := bytes "https://" ++ header
    net.hostIsIPAddress url || net.isLocalHostname url

/-- What the server is run with: its check of a request, which may be any
    predicate here (`requestIsSafeToServe` is one), and the library. -/
structure Env where
  requestIsSafeToServe : HttpServerRequestInfo → Bool
  base : Base

/-! ## Serving a file -/

/-- The path up to its query. -/
def pathWithoutParams (path : Bytes) : Bytes :=
  match path.findIdx? (· == 63) with  -- `?`
  | some queryPosition => path.take queryPosition
  | none => path

/-- The MIME type served for a file name, by its suffix. -/
def getMimeType (b : Base) (filename : Bytes) : Bytes :=
  if b.endsWith filename (bytes ".html") then bytes "text/html"
  else if b.endsWith filename (bytes ".css") then bytes "text/css"
  else if b.endsWith filename (bytes ".js") then bytes "application/javascript"
  else if b.endsWith filename (bytes ".png") then bytes "image/png"
  else if b.endsWith filename (bytes ".gif") then bytes "image/gif"
  else if b.endsWith filename (bytes ".json") then bytes "application/json"
  else if b.endsWith filename (bytes ".svg") then bytes "image/svg+xml"
  else bytes "text/plain"

def kSendBufferSize : ℤ := 256 * 1024 * 1024

def kReceiveBufferSize : ℤ := 100 * 1024 * 1024

/-- A response to an HTTP request: `Send200`, `Send404` or `Send500`. -/
inductive Response
  | ok (data mimeType : Bytes)
  | notFound
  | internalError (message : Bytes)
  deriving DecidableEq

/-- The calls a `ServerWrapper` makes: on its `net::HttpServer`, each about a
    connection, and of `base::ReadFileToString`. -/
inductive Call
  | setSendBufferSize (connectionId : ℤ) (size : ℤ)
  | setReceiveBufferSize (connectionId : ℤ) (size : ℤ)
  | respond (connectionId : ℤ) (response : Response)
  | acceptWebSocket (connectionId : ℤ) (request : HttpServerRequestInfo)
  | sendOverWebSocket (connectionId : ℤ) (message : Bytes)
  | readFileToString (path : FilePath)
  deriving DecidableEq

/-- The response a call sends, and on which connection. -/
def Call.response : Call → Option (ℤ × Response)
  | .respond connectionId response => some (connectionId, response)
  | _ => none

def publicPrefix : Bytes := bytes "/qlabs/public/"

/-- The file name a request path stands for: less `/qlabs/` and the query. -/
def requestedFile (path : Bytes) : Bytes :=
  pathWithoutParams (path.drop (bytes "/qlabs/").length)

def unsafeHostMessage : Bytes :=
  bytes "Host header is specified and is not an IP address or localhost."

/-- The calls of `ServerWrapper::OnHttpRequest`; `read` is what reading each
    file gives at that time. -/
def ServerWrapper.onHttpRequest (env : Env) (frontendDir : FilePath)
    (read : FilePath → ReadResult) (connectionId : ℤ) (info : HttpServerRequestInfo) :
    List Call :=
  if !env.requestIsSafeToServe info then [.respond connectionId (.internalError unsafeHostMessage)]
  else
    .setSendBufferSize connectionId kSendBufferSize ::
    if !env.base.startsWith info.path publicPrefix then [.respond connectionId .notFound]
    else
      let filename := requestedFile info.path
      let mimeType := getMimeType env.base filename
      if !frontendDir.isEmpty then
        let path := env.base.appendASCII frontendDir filename
        -- The value `ReadFileToString` returns is not looked at.
        [.readFileToString path, .respond connectionId (.ok (read path).data mimeType)]
      else [.respond connectionId .notFound]

/-! ## A POSIX library -/

/-- The functions of `base` on a POSIX system. -/
def Base.posix : Base where
  startsWith s p := p.isPrefixOf s
  endsWith s t := (t.map toLowerASCII).isSuffixOf (s.map toLowerASCII)
  appendASCII dir c :=
    if dir = bytes "." then cStr c
    else dir.rdropWhile (· == Path.separator) ++ Path.separator :: cStr c

theorem Base.posix_lawful : Base.posix.Lawful where
  startsWith_iff _ _ := List.isPrefixOf_iff_prefix
  endsWith_iff _ _ := List.isSuffixOf_iff_suffix
  appendASCII dir c _ _ := by
    by_cases hdir : dir = bytes "."
    · exact .inl ⟨hdir, if_pos hdir⟩
    · refine .inr ⟨dir.rdropWhile (· == Path.separator),
        (dir.rtakeWhile (· == Path.separator)).length, ?_, if_neg hdir⟩
      have htake : dir.rtakeWhile (· == Path.separator) =
          List.replicate (dir.rtakeWhile (· == Path.separator)).length Path.separator :=
        List.eq_replicate_of_mem fun b hb => by simpa using List.mem_rtakeWhile_imp hb
      rw [← htake, List.rdropWhile_append_rtakeWhile]

/-- A server of local hosts, and of no others by name. -/
def localEnv : Env where
  requestIsSafeToServe := requestIsSafeToServe
    { getHeaderValue := fun info name => (info.headers.lookup name).getD []
      hostIsIPAddress := fun _ => false
      isLocalHostname := fun url => url == bytes "https://localhost" }
  base := .posix

/-- A file system without any file to open. -/
def noFiles : FilePath → ReadResult := fun _ => ⟨false, false, []⟩

/-- A request to a local host for `a.html` in the public directory. -/
def pageRequest : HttpServerRequestInfo where
  path := bytes "/qlabs/public/a.html?x"
  headers := [(bytes "host", bytes "localhost")]
  data := []

end Qlabs.Http
