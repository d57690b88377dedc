import DistroSync.Lib.Posix
import DistroSync.Lib.PyValue

/-!
# The HTTP server of the dashboard

`broker/http_api.py`: `handle_connection` reads one request, splits its first line and
dispatches on method and path.  The texts are lists of characters, for every decision here
is about characters: the splits, the query string, the tests of `_serve_static` and the
path that it opens.

The file system is the one of `Posix`, with an arbitrary working directory for a dashboard
directory that is relative.  The broker's own handlers and the start of a load generator
are parameters; they may raise, and `handle_connection` answers that with status 500.
-/

namespace DistroSync

open Posix Py

/-- What reading a file gives, as bytes and as text; `none` where it raises. -/
structure File where
  bytes : Option (List UInt8)
  text : Option String

/-- The handlers that the broker passes to the server. -/
inductive Handler where
  | metrics
  | dlq
  | stats
  | crashWorker
  | replayDlq
  | reset

/-- `HTTPAPIServer`: a handler that was not passed is `none`, one that raises an error. -/
structure HttpApiServer where
  dashboardDir : List Char
  handler : Handler → Option (Except String Json)
  /-- `subprocess.Popen` of `run_load.py` with the given options. -/
  popen : List String → Except String Unit

/-- What is written to the connection. -/
inductive HttpResponse where
  | nothing
  | head
  | json (statusCode : Nat) (body : Json)
  | html (html : String)
  | file (contentType : String) (body : List UInt8)

/-- The response, and the path that `_serve_static` opened, if it came to that. -/
structure Served where
  response : HttpResponse
  opened : Option (List Char) := none

namespace HttpApiServer

/-- The answer to an exception inside `handle_connection`. -/
def internalError : HttpResponse := .json 500 (.obj [("error", .str "Internal server error")])

/-- What is left of a response if `json.dumps` may fail to write its body: the exception is
answered like any other. -/
def settle (writes : Json → Bool) : HttpResponse → HttpResponse
  | .json statusCode body => if writes body then .json statusCode body else internalError
  | response => response

def notFound : HttpResponse := .json 404 (.obj [("error", .str "Not found")])

/-- `text.split("\r\n")[0]`. -/
def requestLine : List Char → List Char
  | '\r' :: '\n' :: _ => []
  | c :: rest => c :: requestLine rest
  | [] => []

/-- `path.split("?")[0]`. -/
def stripQuery (path : List Char) : List Char := path.takeWhile (· ≠ '?')

/-- `os.path.splitext(path)[1]`: from the last dot of the last component on, unless there are
only dots before it. -/
def splitext (path : List Char) : List Char :=
  let name := path.reverse.takeWhile (· ≠ '/')
  match name.dropWhile (· ≠ '.') with
  | '.' :: stem => if stem.any (· ≠ '.') then '.' :: (name.takeWhile (· ≠ '.')).reverse else []
  | _ => []

/-- The table `content_types`. -/
def contentType (path : List Char) : String :=
  match String.ofList ((splitext path).map Char.toLower) with
  | ".css" => "text/css"
  | ".js" => "application/javascript"
  | ".png" => "image/png"
  | ".svg" => "image/svg+xml"
  | ".ico" => "image/x-icon"
  | _ => "application/octet-stream"

section

variable (server : HttpApiServer) (files : Location → Option (Node File)) (cwd : Location)

/-- `_serve_dashboard`. -/
def serveDashboard : HttpResponse :=
  match locate files cwd (join server.dashboardDir "index.html".toList) with
  | none =>
    .json 404 (.obj [("error", .str "Dashboard not found. Create dashboard/index.html")])
  | some .directory => internalError
  | some (.file file) =>
    match file.text with
    | none => internalError
    | some html => .html html

/-- `_serve_static`. -/
def serveStatic (path : List Char) : Served :=
  let relative := path.drop "/static/".length
  if "..".toList <:+: relative ∨ "/".toList <+: relative then ⟨notFound, none⟩
  else
    let filePath := join server.dashboardDir relative
    match locate files cwd filePath with
    | some (.file file) =>
      match file.bytes with
      | none => ⟨internalError, some filePath⟩
      | some body => ⟨.file (contentType filePath) body, some filePath⟩
    | _ => ⟨notFound, none⟩

/-- `_serve_metrics`, `_serve_dlq`, `_serve_stats`: a handler that is missing is reported with
status 200. -/
def serveReport (handler : Handler) (missing : String) : HttpResponse :=
  match server.handler handler with
  | none => .json 200 (.obj [("error", .str missing)])
  | some (.error _) => internalError
  | some (.ok body) => .json 200 body

def serveMetrics : HttpResponse := server.serveReport .metrics "Metrics handler not configured"
def serveDlq : HttpResponse := server.serveReport .dlq "DLQ handler not configured"
def serveStats : HttpResponse := server.serveReport .stats "Stats handler not registered"

/-- `_crash_worker`, `_replay_dlq`, `_handle_reset`. -/
def administer (handler : Handler) : HttpResponse :=
  match server.handler handler with
  | none => .json 500 (.obj [("error", .str "Handler not configured")])
  | some (.error _) => internalError
  | some (.ok body) => .json 200 body

def crashWorker : HttpResponse := server.administer .crashWorker
def replayDlq : HttpResponse := server.administer .replayDlq
def handleReset : HttpResponse := server.administer .reset

/-- `_trigger_load_test`, `_trigger_flood`. -/
def trigger (options : List String) (started : String) : HttpResponse :=
  match server.popen options with
  | .ok () => .json 200 (.obj [("status", .str "ok"), ("message", .str started)])
  | .error e => .json 500 (.obj [("status", .str "error"), ("error", .str e)])

def triggerLoadTest : HttpResponse :=
  server.trigger ["--port", "5555", "--delay", "0.6"] "Load test started"

def triggerFlood : HttpResponse :=
  server.trigger ["--producers", "200", "--tasks", "500", "--port", "5555"] "Flood test started"

/-- The route dispatch, for a method that is supported. -/
def route (method path : List Char) : Served :=
  let methodIs (name : String) := method = name.toList
  let pathIs (name : String) := path = name.toList
  if methodIs "HEAD" then { response := .head }
  else if methodIs "GET" ∧ (pathIs "/" ∨ pathIs "/dashboard") then
    { response := server.serveDashboard files cwd }
  else if methodIs "GET" ∧ (pathIs "/metrics" ∨ pathIs "/metrics/") then
    { response := server.serveMetrics }
  else if methodIs "POST" ∧ pathIs "/admin/load-test" then { response := server.triggerLoadTest }
  else if methodIs "POST" ∧ pathIs "/admin/flood" then { response := server.triggerFlood }
  else if methodIs "POST" ∧ pathIs "/admin/crash-worker" then { response := server.crashWorker }
  else if methodIs "POST" ∧ pathIs "/admin/dlq/replay-all" then { response := server.replayDlq }
  else if methodIs "POST" ∧ pathIs "/admin/reset" then { response := server.handleReset }
  else if pathIs "/metrics/dlq" then { response := server.serveDlq }
  else if pathIs "/stats" then { response := server.serveStats }
  else if pathIs "/health" then
    { response := .json 200
        (.obj [("status", .str "healthy"), ("service", .str "distrosync-broker")]) }
  else if "/static/".toList <+: path then server.serveStatic files cwd path
  else
    { response := .json 404 (.obj [("error", .str ("Not found: " ++ String.ofList path))]) }

/-- `handle_connection`, on the text of the request. -/
def handleConnection (requestText : List Char) : Served :=
  if requestText = [] then { response := .nothing }
  else
    match (requestLine requestText).splitOn ' ' with
    | method :: target :: _ =>
      if method ∉ ["GET".toList, "POST".toList, "HEAD".toList] then
        { response := .json 405 (.obj [("error", .str "Method not allowed")]) }
      else server.route files cwd method (stripQuery target)
    | _ => { response := .json 400 (.obj [("error", .str "Bad request")]) }

end

section

variable {server : HttpApiServer} {files : Location → Option (Node File)} {cwd : Location}
  {path opened : List Char}

/-- What `_serve_static` opens is a file, and its path below the dashboard directory is relative
and has no two dots in a row. -/
theorem of_serveStatic (opens : (server.serveStatic files cwd path).opened = some opened) :
    ∃ relative file, opened = join server.dashboardDir relative ∧
      ¬parent <:+: relative ∧ ¬['/'] <+: relative ∧
      locate files cwd opened = some (.file file) := by
  unfold serveStatic at opens
  simp only at opens
  split at opens
  · cases opens
  · rename_i passed
    obtain ⟨noDots, relative⟩ := not_or.mp passed
    split at opens
    · rename_i file isFile
      have isOpened : join server.dashboardDir (path.drop "/static/".length) = opened := by
        split at opens <;> exact Option.some.inj opens
      exact ⟨_, file, isOpened.symm, noDots, relative, isOpened ▸ isFile⟩
    · cases opens

/-- A route that opens nothing is not the one taken. -/
theorem of_ite {c : Prop} [Decidable c] {response : HttpResponse} {other : Served}
    (opens : (if c then { response } else other : Served).opened = some opened) :
    other.opened = some opened := by
  split at opens
  · cases opens
  · exact opens

/-- Only the last route but one opens a file in `_serve_static`. -/
theorem of_route {method : List Char}
    (opens : (server.route files cwd method path).opened = some opened) :
    (server.serveStatic files cwd path).opened = some opened := by
  unfold route at opens
  simp only at opens
  iterate 11 replace opens := of_ite opens
  split at opens
  · exact opens
  · cases opens

/-- **No request makes the server open a file outside the dashboard directory.** -/
theorem static_inside (server : HttpApiServer) (files : Location → Option (Node File))
    (cwd : Location) (requestText opened : List Char)
    (opens : (server.handleConnection files cwd requestText).opened = some opened) :
    StrictlyBelow (normalise cwd opened) (normalise cwd server.dashboardDir) := by
  unfold handleConnection at opens
  split at opens
  · cases opens
  · split at opens
    · split at opens
      · cases opens
      · obtain ⟨relative, file, rfl, noDots, isRelative, isFile⟩ := of_serveStatic (of_route opens)
        refine file_below isRelative (fun isComponent => ?_) isFile
        exact noDots (infix_of_mem_components isComponent)
    · cases opens

/-- A server with one file. -/
def demoServer : HttpApiServer where
  dashboardDir := "/srv/../srv/dashboard/".toList
  handler _ := none
  popen _ := .ok ()

def demoFiles (location : Location) : Option (Node File) :=
  if location = ["srv".toList, "dashboard".toList, "app.css".toList] then
    some (.file ⟨some [], some ""⟩)
  else if location <+: ["srv".toList, "dashboard".toList] then some .directory
  else none

/-- A request with a query string and components that stay. -/
def demoRequest : List Char :=
  "GET /static/.//app.css?v=1 HTTP/1.1\r\nHost: a\r\n\r\n".toList

theorem static_inside_stylesheet :
    (demoServer.handleConnection demoFiles [] demoRequest).opened =
        some "/srv/../srv/dashboard/.//app.css".toList ∧
      StrictlyBelow (normalise [] "/srv/../srv/dashboard/.//app.css".toList)
        (normalise [] demoServer.dashboardDir) := by
  have opens : (demoServer.handleConnection demoFiles [] demoRequest).opened =
      some "/srv/../srv/dashboard/.//app.css".toList := by decide +kernel
  exact ⟨opens, static_inside demoServer demoFiles [] demoRequest _ opens⟩

end

end HttpApiServer

end DistroSync
