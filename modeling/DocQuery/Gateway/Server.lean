-- SUMMARY: The aggregate endpoint of the server: requests, and how its answers are read.
import DocQuery.Encoding.Stage
import DocQuery.Gateway.Call
import DocQuery.Json.Body
import DocQuery.Json.Writer

/-!
# The server

A pipeline runs at the server by a request to the aggregate endpoint of a class. The
pipeline is encoded for the server and sent as JSON text; nothing is sent when that
fails. An answer below status 400 holds the rows under `results`; every other answer is
an error with the code and the message that its body tells, if any.
-/

namespace DocQuery

/-- A reply of the server. -/
inductive ServerReply where
  /-- An answer with a status and a body. -/
  | answer (status : Int) (body : String)
  /-- The connection failed. -/
  | failure (message : String)

namespace ServerReply

/-- The least status of an error. -/
def errorStatus : Int := 400

/-- Code and message of an error, from the body of the answer: from its fields when it is
    a JSON mapping, otherwise the body itself. -/
def errorDetail (body : String) : Except Error (Value × Value) :=
  match Json.readBytes (Text.bytesOf body) with
  | .error .tooDeep => .error .tooDeep
  | .ok (.map es) =>
    let message := Value.getD es "error"
    if message.isGiven then .ok (Value.getD es "code", message)
    else (Json.compact (.map es)).map fun s => (Value.getD es "code", .text s)
  | _ => .ok (.null, .text body)

/-- The rows that an answer holds. -/
def resultRows (status : Int) (body : String) : Except Error (List Value) := do
  let unfit := Error.remote (.int status) .null (.text "response missing 'results'")
  match ← Json.readBytes (Text.bytesOf body) with
  | .map es =>
    match Value.getD es "results" with
    | .list rows => .ok rows
    | _ => .error unfit
  | _ => .error unfit

/-- The rows that a reply holds. -/
def rows : ServerReply → Except Error (List Value)
  | failure message => .error (.store message)
  | answer status body =>
    if errorStatus ≤ status then do
      let (code, detail) ← errorDetail body
      .error (.remote (.int status) code detail)
    else resultRows status body

end ServerReply

/-- The server: its address, the headers of every request, and the replies to come. -/
structure Server where
  url : String
  headers : List (String × Value)
  replies : Replies ServerReply

namespace Server

/-- What a server is reached by, as a caller wrote it. -/
structure Access where
  url : Value
  applicationId : Value
  restApiKey : Value := .null
  masterKey : Value := .null

/-- A header, when its value is given. -/
def header (name : String) (v : Value) : List (String × Value) :=
  if v.isGiven then [(name, v)] else []

/-- The headers of every request. -/
def headersOf (a : Access) : List (String × Value) :=
  ("X-Parse-Application-Id", if a.applicationId.isGiven then a.applicationId else .text "")
    :: (header "X-Parse-REST-API-Key" a.restApiKey ++ header "X-Parse-Master-Key" a.masterKey)

/-- The server that can be reached in a way. Slashes at the end of its address do not
    count. -/
def ofAccess (a : Access) (replies : Replies ServerReply) : Except Error Server :=
  if a.url.isGiven then
    match a.url.text? with
    | some url =>
      .ok ⟨String.ofList (Text.trimRight (· == '/') url.toList), headersOf a, replies⟩
    | none => .error .mistyped
  else .error (.configuration .noServerUrl)

/-- The address of the endpoint of a class. -/
def endpoint (s : Server) (className : Value) : String :=
  s.url ++ "/aggregate/" ++ className.display

/-- The text of a pipeline in a request. -/
def pipelineText (pipeline : Value) : Except Error String := do
  let stages ← Encoding.pipeline .remote pipeline
  Json.compact (.list stages)

/-- Sends a request for a pipeline. -/
def send (s : Server) (className : Value) (pipeline : String) : Run Server (List Value) :=
  let (reply, replies) := s.replies.next
  { outcome := reply.rows
    after := { s with replies := replies }
    calls := [.request (s.endpoint className) s.headers pipeline] }

/-- Runs a pipeline over a class. -/
def aggregate (s : Server) (className pipeline : Value) : Run Server (List Value) :=
  match pipelineText pipeline with
  | .ok text => s.send className text
  | .error e => .still s (.error e)

/-- Ends the connection. A later request opens it again. -/
def close (s : Server) : Run Server Unit :=
  ⟨.ok (), s, [.closeServer]⟩

end Server

end DocQuery
