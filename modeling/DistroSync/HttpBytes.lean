import DistroSync.HttpApi
import DistroSync.Lib.HttpMessage
import DistroSync.Lib.JsonText

/-!
# What the dashboard's server writes

The responses of `broker/http_api.py` as bytes: `_send_response`, `_send_html_response`, the
response of `_serve_static` and the one to a HEAD request.  Each writes the head of its own
as one text.  They are the messages that they should be (`send_eq_write`), and so a client
reads exactly one response, with the status, the type and the body that the server settled on
(`response_understood`).

`json.dumps(body, indent=2)` is a parameter, and it may raise: it runs out of stack on a
dictionary that is nested too deeply.  Nothing has been written then, and `handle_connection`
answers the exception with status 500 (`HttpResponse.bytes`).  Writes succeed.
-/

namespace DistroSync

open Posix Py Framing

/-! ## The bytes -/

/-- The table `status_text`. -/
def statusText : Nat → String
  | 200 => "OK"
  | 400 => "Bad Request"
  | 404 => "Not Found"
  | 405 => "Method Not Allowed"
  | 500 => "Internal Server Error"
  | _ => "Unknown"

section

variable (indented : Json → Option String)

/-- `_send_response`: what it writes, or `none` where `json.dumps(body, indent=2)` raises. -/
def sendResponse (statusCode : Nat) (body : Json) (contentType : String) : Option Bytes :=
  (indented body).map fun text =>
    let bodyBytes := encode text
    encode ("HTTP/1.1 " ++ toString statusCode ++ " " ++ statusText statusCode ++ "\r\n" ++
      "Content-Type: " ++ contentType ++ "\r\n" ++
      "Content-Length: " ++ toString bodyBytes.length ++ "\r\n" ++
      "Access-Control-Allow-Origin: *\r\n" ++
      "Connection: close\r\n" ++
      "\r\n") ++ bodyBytes

/-- `_send_html_response`. -/
def sendHtmlResponse (html : String) : Bytes :=
  let bodyBytes := encode html
  encode ("HTTP/1.1 200 OK\r\n" ++
    "Content-Type: text/html; charset=utf-8\r\n" ++
    "Content-Length: " ++ toString bodyBytes.length ++ "\r\n" ++
    "Access-Control-Allow-Origin: *\r\n" ++
    "Cache-Control: no-cache\r\n" ++
    "Connection: close\r\n" ++
    "\r\n") ++ bodyBytes

/-- What `_serve_static` writes. -/
def sendFile (contentType : String) (body : Bytes) : Bytes :=
  encode ("HTTP/1.1 200 OK\r\n" ++
    "Content-Type: " ++ contentType ++ "\r\n" ++
    "Content-Length: " ++ toString body.length ++ "\r\n" ++
    "Access-Control-Allow-Origin: *\r\n" ++
    "Connection: close\r\n" ++
    "\r\n") ++ body

/-- What a HEAD request is answered with. -/
def headResponse : Bytes :=
  encode ("HTTP/1.1 200 OK\r\n" ++
    "Content-Type: text/html\r\n" ++
    "Connection: close\r\n\r\n")

/-- The bytes of a response, or `none` where they cannot be made. -/
def HttpResponse.send : HttpResponse → Option Bytes
  | .nothing => some []
  | .head => some headResponse
  | .json statusCode body => sendResponse indented statusCode body "application/json"
  | .html text => some (sendHtmlResponse text)
  | .file contentType body => some (sendFile contentType body)

/-- What `handle_connection` writes.  An exception is answered with status 500, and a second
one is passed over. -/
def HttpResponse.bytes (response : HttpResponse) : Bytes :=
  match response.send indented with
  | some bytes => bytes
  | none => (HttpApiServer.internalError.send indented).getD []

end

/-! ## The messages -/

/-- The message with these fields before the last one, which says that the connection ends. -/
def closing (status : Nat) (fields : List (String × String)) (body : Bytes) : Http.Response where
  status
  reason := statusText status
  fields := fields ++ [("Connection", "close")]
  body

/-- The message with a body. -/
def bodied (status : Nat) (contentType : String) (others : List (String × String)) (body : Bytes) :
    Http.Response :=
  closing status ([("Content-Type", contentType), ("Content-Length", toString body.length),
    ("Access-Control-Allow-Origin", "*")] ++ others) body

section

variable (indented : Json → Option String)

/-- What the response is as a message. -/
def HttpResponse.message : HttpResponse → Option Http.Response
  | .nothing => none
  | .head => some (closing 200 [("Content-Type", "text/html")] [])
  | .json statusCode body =>
    (indented body).map fun text => bodied statusCode "application/json" [] (encode text)
  | .html text =>
    some (bodied 200 "text/html; charset=utf-8" [("Cache-Control", "no-cache")] (encode text))
  | .file contentType body => some (bodied 200 contentType [] body)

/-- The heads that are written are those of the messages. -/
theorem send_eq_write {response : HttpResponse} {message : Http.Response}
    (meant : response.message indented = some message) :
    response.send indented = some message.write := by
  have text : ∀ {first second : String} {body : Bytes}, first.toList = second.toList →
      encode first ++ body = encode second ++ body := by
    intro first second body same
    rw [String.toList_inj.mp same]
  have ok : Nat.toDigits 10 200 = ['2', '0', '0'] := by decide
  cases response with
  | nothing => cases meant
  | head =>
    cases meant
    refine congrArg some ((List.append_nil _).symm.trans (text ?_))
    simp [Http.Response.head, Http.Response.lines, closing, statusText, Http.statusLine,
      Http.fieldLine, Http.version, ok]
  | json statusCode body =>
    obtain ⟨written, writes, rfl⟩ := Option.map_eq_some_iff.mp meant
    simp only [HttpResponse.send, sendResponse, writes, Option.map_some]
    refine congrArg some (text ?_)
    simp [Http.Response.head, Http.Response.lines, closing, bodied, Http.statusLine,
      Http.fieldLine, Http.version]
  | html html =>
    cases meant
    refine congrArg some (text ?_)
    simp [Http.Response.head, Http.Response.lines, closing, bodied, statusText,
      Http.statusLine, Http.fieldLine, Http.version, ok]
  | file contentType body =>
    cases meant
    refine congrArg some (text ?_)
    simp [Http.Response.head, Http.Response.lines, closing, bodied, statusText,
      Http.statusLine, Http.fieldLine, Http.version, ok]

end

/-! ## Every response is proper -/

/-- The responses of the server: the status is in the table `status_text`, the type of a file
in `content_types`. -/
inductive HttpResponse.Proper : HttpResponse → Prop
  | head : Proper .head
  | html (text : String) : Proper (.html text)
  | file (path : List Char) (body : Bytes) : Proper (.file (HttpApiServer.contentType path) body)
  | ok (body : Json) : Proper (.json 200 body)
  | badRequest (body : Json) : Proper (.json 400 body)
  | notFound (body : Json) : Proper (.json 404 body)
  | methodNotAllowed (body : Json) : Proper (.json 405 body)
  | internalServerError (body : Json) : Proper (.json 500 body)

namespace HttpApiServer

variable (server : HttpApiServer) (files : Location → Option (Node File)) (cwd : Location)

theorem serveDashboard_proper : (server.serveDashboard files cwd).Proper := by
  unfold serveDashboard
  split
  · exact .notFound _
  · exact .internalServerError _
  · split
    · exact .internalServerError _
    · exact .html _

/-- A path outside the directory, or without a file, is a 404. -/
theorem serveStatic_proper (path : List Char) :
    (server.serveStatic files cwd path).response.Proper := by
  unfold serveStatic
  simp only
  split
  · exact .notFound _
  · split
    · split
      · exact .internalServerError _
      · exact .file _ _
    · exact .notFound _

theorem serveReport_proper (handler : Handler) (missing : String) :
    (server.serveReport handler missing).Proper := by
  unfold serveReport
  split
  · exact .ok _
  · exact .internalServerError _
  · exact .ok _

theorem administer_proper (handler : Handler) : (server.administer handler).Proper := by
  unfold administer
  split
  · exact .internalServerError _
  · exact .internalServerError _
  · exact .ok _

theorem trigger_proper (options : List String) (started : String) :
    (server.trigger options started).Proper := by
  unfold trigger
  split
  · exact .ok _
  · exact .internalServerError _

/-- One more route. -/
theorem ite_proper {c : Prop} [Decidable c] {first other : Served}
    (isFirst : first.response.Proper) (isOther : other.response.Proper) :
    (if c then first else other).response.Proper := by
  split
  · exact isFirst
  · exact isOther

/-- **Whatever the request, the response has a status that the table knows.** -/
theorem route_proper (method path : List Char) :
    (server.route files cwd method path).response.Proper := by
  unfold route
  simp only
  apply ite_proper .head
  apply ite_proper (server.serveDashboard_proper files cwd)
  apply ite_proper (server.serveReport_proper _ _)
  apply ite_proper (server.trigger_proper _ _)
  apply ite_proper (server.trigger_proper _ _)
  apply ite_proper (server.administer_proper _)
  apply ite_proper (server.administer_proper _)
  apply ite_proper (server.administer_proper _)
  apply ite_proper (server.serveReport_proper _ _)
  apply ite_proper (server.serveReport_proper _ _)
  apply ite_proper (.ok _)
  apply ite_proper (server.serveStatic_proper files cwd path)
  exact .notFound _

/-- Whatever is sent, the response is proper. -/
theorem handleConnection_proper {requestText : List Char} (sent : requestText ≠ []) :
    (server.handleConnection files cwd requestText).response.Proper := by
  unfold handleConnection
  rw [if_neg sent]
  split
  · split
    · exact .methodNotAllowed _
    · exact server.route_proper files cwd _ _
  · exact .badRequest _

end HttpApiServer

/-! ## What a client reads -/

namespace HttpResponse

/-- The status that the server chose. -/
def statusCode : HttpResponse → Nat
  | .json statusCode _ => statusCode
  | _ => 200

/-- The type that the server chose. -/
def mediaType : HttpResponse → String
  | .json _ _ => "application/json"
  | .html _ => "text/html; charset=utf-8"
  | .file contentType _ => contentType
  | _ => "text/html"

/-- The body that the server chose. -/
def content (indented : Json → Option String) : HttpResponse → Bytes
  | .json _ body => encode ((indented body).getD "")
  | .html text => encode text
  | .file _ body => body
  | _ => []

/-- The client has read what the server meant, and knows that no response follows. -/
structure Understood (indented : Json → Option String) (response : HttpResponse)
    (message : Http.Response) : Prop where
  status : message.status = response.statusCode
  reason : message.reason = statusText response.statusCode ∧ message.reason ≠ "Unknown"
  contentType : message.field "Content-Type" = some response.mediaType
  closes : message.field "Connection" = some "close"
  body : message.body = response.content indented

end HttpResponse

section

variable {indented : Json → Option String}

theorem clean_contentType (path : List Char) :
    Http.Clean ("Content-Type", HttpApiServer.contentType path) := by
  unfold HttpApiServer.contentType
  split <;> constructor <;> simp [Http.Printable]

theorem printable_statusText (status : Nat) : Http.Printable (statusText status) := by
  unfold statusText
  split <;> simp [Http.Printable]

theorem clean_contentLength (n : Nat) : Http.Clean ("Content-Length", toString n) where
  name := by simp [Http.Printable]
  colon := by simp
  value := Http.printable_toString n
  blank := by
    intro blank
    have inside := List.mem_of_head? blank
    exact absurd (Http.isDigit_of_mem_toString inside) (by decide)

/-- A response that ends with `Connection: close` can be sent. -/
theorem sendable_closing {status : Nat} {fields : List (String × String)} {body : Bytes}
    (clean : ∀ field ∈ fields, Http.Clean field) : (closing status fields body).Sendable where
  reason := printable_statusText status
  fields := by
    intro field isField
    rcases List.mem_append.mp isField with isGiven | isLast
    · exact clean field isGiven
    · obtain rfl := List.mem_singleton.mp isLast
      constructor <;> simp [Http.Printable]

section

variable {contentType : String} {status : Nat} {others : List (String × String)} {body : Bytes}

theorem sendable_bodied (clean : Http.Clean ("Content-Type", contentType))
    (cleanOthers : ∀ field ∈ others, Http.Clean field) :
    (bodied status contentType others body).Sendable := by
  refine sendable_closing ?_
  intro field isField
  simp only [List.cons_append, List.nil_append, List.mem_cons] at isField
  rcases isField with rfl | rfl | rfl | isOther
  · exact clean
  · exact clean_contentLength body.length
  · constructor <;> simp [Http.Printable]
  · exact cleanOthers field isOther

theorem field_contentType :
    (bodied status contentType others body).field "Content-Type" = some contentType := by
  simp [Http.Response.field, bodied, closing]

theorem field_contentLength :
    (bodied status contentType others body).field "Content-Length" =
      some (toString body.length) := by
  have differs : "Content-Type".toLower ≠ "Content-Length".toLower := by decide +kernel
  simp [Http.Response.field, bodied, closing, differs]

theorem field_connection
    (absent : ∀ field ∈ others, field.1.toLower ≠ "Connection".toLower) :
    (bodied status contentType others body).field "Connection" = some "close" := by
  have differs : "Content-Type".toLower ≠ "Connection".toLower ∧
      "Content-Length".toLower ≠ "Connection".toLower ∧
      "Access-Control-Allow-Origin".toLower ≠ "Connection".toLower := by decide +kernel
  have passed : others.find? (fun field => field.1.toLower = "Connection".toLower) = none := by
    simpa using absent
  simp [Http.Response.field, bodied, closing, differs, passed]

/-- With a length the reader takes the body and nothing else. -/
theorem read_bodied (clean : Http.Clean ("Content-Type", contentType))
    (cleanOthers : ∀ field ∈ others, Http.Clean field) :
    Http.read (bodied status contentType others body).write =
      some (bodied status contentType others body, []) := by
  have whole := Http.read_write (sendable_bodied clean cleanOthers)
    (field_contentLength : (bodied status contentType others body).field _ = _) []
  rwa [List.append_nil] at whole

end

/-- A client reads the dictionary of a response with this status, if it can be written. -/
theorem read_json {statusCode : Nat} {body : Json} (known : statusText statusCode ≠ "Unknown")
    (writes : (indented body).isSome) :
    ∃ bytes message, (HttpResponse.json statusCode body).send indented = some bytes ∧
      Http.read bytes = some (message, []) ∧
      (HttpResponse.json statusCode body).Understood indented message := by
  obtain ⟨text, isText⟩ := Option.isSome_iff_exists.mp writes
  have clean : Http.Clean ("Content-Type", "application/json") := by
    constructor <;> simp [Http.Printable]
  have meant : (HttpResponse.json statusCode body).message indented =
      some (bodied statusCode "application/json" [] (encode text)) := by
    simp only [HttpResponse.message, isText, Option.map_some]
  have content : (HttpResponse.json statusCode body).content indented = encode text := by
    simp only [HttpResponse.content, isText, Option.getD_some]
  exact ⟨_, _, send_eq_write indented meant, read_bodied clean (by simp), rfl, ⟨rfl, known⟩,
    field_contentType, field_connection (by simp), content.symm⟩

/-- The dictionary of the response, if it has one, can be written. -/
def HttpResponse.Writable (indented : Json → Option String) (response : HttpResponse) : Prop :=
  ∀ statusCode body, response = .json statusCode body → (indented body).isSome

/-- **A client reads what the server meant**, from the first byte to the last. -/
theorem read_send {response : HttpResponse} (proper : response.Proper)
    (writes : response.Writable indented) :
    ∃ bytes message, response.send indented = some bytes ∧ Http.read bytes = some (message, []) ∧
      response.Understood indented message := by
  have known : statusText 200 ≠ "Unknown" := by decide
  cases proper with
  | head =>
    have clean : ∀ field ∈ [("Content-Type", "text/html")], Http.Clean field := by
      intro field isField
      obtain rfl := List.mem_singleton.mp isField
      constructor <;> simp [Http.Printable]
    have differs : "Content-Type".toLower ≠ "Connection".toLower ∧
        "Content-Type".toLower ≠ "Content-Length".toLower ∧
        "Connection".toLower ≠ "Content-Length".toLower := by decide +kernel
    refine ⟨_, closing 200 [("Content-Type", "text/html")] [], send_eq_write indented rfl, ?_,
      rfl, ⟨rfl, known⟩, ?_, ?_, rfl⟩
    · refine Http.read_write_undeclared (sendable_closing clean) ?_
      simp [Http.Response.field, closing, differs]
    · simp [Http.Response.field, closing, HttpResponse.mediaType]
    · simp [Http.Response.field, closing, differs]
  | html text =>
    have clean : Http.Clean ("Content-Type", "text/html; charset=utf-8") := by
      constructor <;> simp [Http.Printable]
    have cleanCache : ∀ field ∈ [("Cache-Control", "no-cache")], Http.Clean field := by
      intro field isField
      obtain rfl := List.mem_singleton.mp isField
      constructor <;> simp [Http.Printable]
    have absent : ∀ field ∈ [("Cache-Control", "no-cache")],
        field.1.toLower ≠ "Connection".toLower := by decide +kernel
    exact ⟨_, _, send_eq_write indented rfl, read_bodied clean cleanCache, rfl, ⟨rfl, known⟩,
      field_contentType, field_connection absent, rfl⟩
  | file path body =>
    exact ⟨_, _, send_eq_write indented rfl, read_bodied (clean_contentType path) (by simp),
      rfl, ⟨rfl, known⟩, field_contentType, field_connection (by simp), rfl⟩
  | ok body => exact read_json (by decide) (writes _ _ rfl)
  | badRequest body => exact read_json (by decide) (writes _ _ rfl)
  | notFound body => exact read_json (by decide) (writes _ _ rfl)
  | methodNotAllowed body => exact read_json (by decide) (writes _ _ rfl)
  | internalServerError body => exact read_json (by decide) (writes _ _ rfl)

end

namespace HttpApiServer

section

variable {indented : Json → Option String} {response : HttpResponse}

/-- What the server settles on in place of a proper response is proper too. -/
theorem settle_proper (writes : Json → Bool) (proper : response.Proper) :
    (settle writes response).Proper := by
  cases response with
  | json statusCode body =>
    simp only [settle]
    split
    · exact proper
    · exact .internalServerError _
  | _ => exact proper

/-- What the server settles on can be written, if a dictionary with one text can. -/
theorem settle_writable
    (flat : (indented (.obj [("error", .str "Internal server error")])).isSome) :
    (settle (fun body => (indented body).isSome) response).Writable indented := by
  intro statusCode body isJson
  cases response with
  | json _ chosen =>
    simp only [settle] at isJson
    split at isJson
    · rename_i writes
      cases isJson
      exact writes
    · cases isJson
      exact flat
  | _ => cases isJson

/-- The bytes are those of the response that the server settles on. -/
theorem bytes_of_settle {bytes : Bytes}
    (sends : (settle (fun body => (indented body).isSome) response).send indented = some bytes) :
    response.bytes indented = bytes := by
  unfold HttpResponse.bytes
  cases response with
  | json statusCode body =>
    simp only [settle] at sends
    split at sends
    · rw [sends]
    · rename_i fails
      have unwritten : (HttpResponse.json statusCode body).send indented = none := by
        simp only [HttpResponse.send, sendResponse, Option.map_eq_none_iff]
        simpa using fails
      rw [unwritten, sends]
      rfl
  | _ =>
    cases sends
    rfl

end

/-- **Every request is answered with exactly one response that its client can read.**  It has
the status, the type and the body that the server settled on: those that it chose, or the error
500 where the dictionary that it chose cannot be written.  A dictionary is read back as it was,
and there is no byte besides. -/
theorem response_understood (server : HttpApiServer) (files : Location → Option (Node File))
    (cwd : Location) (indented : Json → Option String) (loads : String → Option Json)
    (loads_indented : ∀ value text, indented value = some text → loads text = some value)
    (flat : (indented (.obj [("error", .str "Internal server error")])).isSome)
    (requestText : List Char) (sent : requestText ≠ []) :
    ∃ message,
      Http.read ((server.handleConnection files cwd requestText).response.bytes indented) =
        some (message, []) ∧
      (settle (fun body => (indented body).isSome)
        (server.handleConnection files cwd requestText).response).Understood indented message ∧
      ∀ statusCode body,
        settle (fun body => (indented body).isSome)
            (server.handleConnection files cwd requestText).response = .json statusCode body →
          (decode message.body).bind loads = some body := by
  have proper := server.handleConnection_proper files cwd sent
  generalize (server.handleConnection files cwd requestText).response = chosen at proper ⊢
  have writes : (settle (fun body => (indented body).isSome) chosen).Writable indented :=
    settle_writable flat
  obtain ⟨bytes, message, sends, whole, understood⟩ := read_send (settle_proper _ proper) writes
  refine ⟨message, by rw [bytes_of_settle sends, whole], understood, ?_⟩
  intro statusCode body isJson
  obtain ⟨text, isText⟩ := Option.isSome_iff_exists.mp (writes statusCode body isJson)
  have content : message.body = encode text := by
    rw [understood.body, isJson]
    simp only [HttpResponse.content, isText, Option.getD_some]
  rw [content, decode_encode, Option.bind_some, loads_indented body text isText]

/-- An indenting encoder with frames for 993 levels. -/
def demoIndented (value : Json) : Option String :=
  if value.depth ≤ 993 then some value.toText else none

theorem response_understood_stylesheet :
    demoRequest ≠ [] ∧
      ∃ message,
        Http.read ((demoServer.handleConnection demoFiles [] demoRequest).response.bytes
          demoIndented) = some (message, []) ∧
        (settle (fun body => (demoIndented body).isSome)
          (demoServer.handleConnection demoFiles [] demoRequest).response).Understood
            demoIndented message ∧
        ∀ statusCode body,
          settle (fun body => (demoIndented body).isSome)
              (demoServer.handleConnection demoFiles [] demoRequest).response =
                .json statusCode body →
            (decode message.body).bind Json.ofText = some body := by
  have sent : demoRequest ≠ [] := by decide +kernel
  refine ⟨sent, response_understood demoServer demoFiles [] demoIndented Json.ofText ?_ rfl
    demoRequest sent⟩
  intro value text isText
  unfold demoIndented at isText
  split at isText
  · rw [← Option.some.inj isText, Json.ofText_toText]
  · cases isText

end HttpApiServer

end DistroSync
