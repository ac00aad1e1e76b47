import OffchainNames.Gateway
import OffchainNames.Http.MediaType
import OffchainNames.Http.Path
import OffchainNames.Http.Payload

/-!
# The server

A gateway is reached in two ways: a call is submitted in the body of a request, or fetched with the
contract and the calldata as two parts of the path. Whatever happens to a request, the answer to it is
in JSON: a rejection without a body of its own gets a message that names its status.
-/

namespace OffchainNames

namespace Http

/-- A request. -/
structure Request where
  method : String
  /-- The path with the query. -/
  target : String
  headers : List (String × String) := []
  body : Bytes := []

/-- The answer to a request. -/
structure Answer where
  status : Nat
  headers : List (String × String)
  body : String
  deriving DecidableEq, Repr

/-- An answer before headers: with a body in JSON, or a rejection without one. -/
inductive Reply where
  | json (status : Nat) (body : Body)
  | bare (status : Nat)
  deriving DecidableEq, Repr

/-- The value in JSON of a body. -/
def bodyValue : Body → Json.Value
  | .data content ttl =>
    .object (("data", .string (Hex.encode content)) :: match ttl with
      | some seconds => [("ttl", .number (.natural seconds.toNat))]
      | none => [])
  | .message text => .object [("message", .string text)]

namespace Reply

/-- The reply with a response; a status that no reply may have becomes 500. -/
def ofResponse (r : Response) : Reply :=
  let status := r.status.toNat
  json (if 100 ≤ status ∧ status ≤ 999 then status else 500) r.body

/-- The reply with an error. -/
def ofError (e : Error) : Reply := ofResponse (.ofError e)

/-- The message that names a status. -/
def reason (status : Nat) : String :=
  if status = 400 then "bad request"
  else if status = 404 then "not found"
  else if status = 405 then "method not allowed"
  else if status = 408 then "request timeout"
  else if status = 413 then "payload too large"
  else if status = 500 then "internal server error"
  else "request failed"

/-- The status of a reply. -/
def status : Reply → Nat
  | json status _ => status
  | bare status => status

/-- The body of a reply. -/
def body : Reply → Body
  | json _ body => body
  | bare status => .message (reason status)

end Reply

namespace Request

/-- The first value of a header whose name is given in lowercase. -/
def header? (r : Request) (name : String) : Option String :=
  (r.headers.find? fun h => h.1.toLower == name).map Prod.snd

/-- The length of the body that a request declares, if that is a natural number below `2 ^ 64`. -/
def declaredLength? (r : Request) : Option Nat := do
  let text ← r.header? "content-length"
  let digits := match text.toList with
    | '+' :: rest => rest
    | cs => cs
  if !digits.isEmpty && digits.all Char.isDigit then
    let n := digits.foldl (fun n d => n * 10 + (d.toNat - 48)) 0
    if n < UInt64.size then some n else none
  else none

/-- Whether a request declares that its body is in JSON. -/
def declaresJson (r : Request) : Bool :=
  match (r.header? "content-type").bind MediaType.parse? with
  | some m => m.isJson
  | none => false

/-- The body of a request, of which at most the given number of bytes is taken in. -/
def takeBody (r : Request) (limit : Nat) : Except Error Bytes :=
  let limit := match r.declaredLength? with
    | some n => min limit n
    | none => limit
  if limit < r.body.length then
    .error (.malformedRequest "Failed to buffer the request body: length limit exceeded")
  else .ok r.body

/-- The written call in the body of a request. -/
def readCallText (r : Request) (limit : Nat) : Except Error CallText :=
  if !r.declaresJson then
    .error (.malformedRequest "Expected request with \x60Content-Type: application/json\x60")
  else
    match r.takeBody limit with
    | .error e => .error e
    | .ok body =>
      match CallText.parseFront body with
      | .ok text => .ok text
      | .error .grammar =>
        .error (.malformedRequest "Failed to parse the request body as JSON: ")
      | .error .meaning =>
        .error (.malformedRequest "Failed to deserialize the JSON body into the target type: ")

/-- The call in the body of a request. -/
def readCall (r : Request) (limit : Nat) : Except Error Call :=
  match r.readCallText limit with
  | .error e => .error e
  | .ok text => text.read

end Request

/-- A text without `.json` at its end. -/
def withoutExtension (text : String) : String :=
  match (".json".toList.reverse).isPrefixOf text.toList.reverse with
  | true => String.ofList (text.toList.take (text.toList.length - 5))
  | false => text

/-- The call that two parts of a path write. -/
def readParts (sender data : String) : Except Error Call := do
  let recipient ← readSender sender
  let data ← readData (withoutExtension data)
  pure { recipient, data }

/-- The ways in which a gateway is reached. -/
inductive Endpoint where
  | submit
  | fetch
  deriving DecidableEq, Repr

namespace Endpoint

/-- The pattern of the paths of an endpoint. -/
def pattern : Endpoint → List Char
  | submit => "/".toList
  | fetch => "/:sender/:call_data".toList

/-- The methods of an endpoint. -/
def methods : Endpoint → List String
  | submit => ["POST"]
  | fetch => ["GET", "HEAD"]

end Endpoint

/-- A gateway behind paths, and how much of a body is taken in. -/
structure Server where
  gateway : Gateway
  mount : String := ""
  maxBody : Nat

namespace Server

/-- Hands a call over to the gateway. -/
def call (s : Server) : Except Error Call → Course (Ending Reply)
  | .error e => .done (.answered (.ofError e))
  | .ok c => (s.gateway.handle c).bind fun
    | .answered response => .done (.answered (.ofResponse response))
    | .crashed => .done .crashed
    | .never => .done .never

/-- Serves a request at an endpoint, given what stands in the open places of the path. -/
def serve (s : Server) (r : Request) (found : List (List Char)) :
    Endpoint → Course (Ending Reply)
  | .submit => s.call (r.readCall s.maxBody)
  | .fetch =>
    match found.mapM fun text => Utf8.decode? (resolvePercent text) with
    | none => .done (.answered (.bare 400))
    | some [sender, data] => s.call (readParts sender data)
    | some _ => .done (.answered (.bare 500))

/-- The endpoint of a path, with what stands in its open places. -/
def endpoint? (s : Server) (path : List Char) : Option (Endpoint × List (List Char)) :=
  [Endpoint.submit, .fetch].findSome? fun e =>
    (matchPattern? (below s.mount.toList e.pattern) path).map (e, ·)

/-- Headers that let pages of any origin ask. -/
def varyHeader : String × String :=
  ("vary", "origin, access-control-request-method, access-control-request-headers")

/-- The headers of an answer to a page of any origin. -/
def originHeaders : List (String × String) :=
  [("access-control-allow-origin", "*"), ("access-control-expose-headers", "*"), varyHeader]

/-- The headers of the answer to a page that asks what it may send. -/
def preflightHeaders : List (String × String) :=
  [("access-control-allow-origin", "*"), ("access-control-allow-methods", "*"),
   ("access-control-allow-headers", "*"), varyHeader]

/-- The header of a body in JSON. -/
def jsonHeader : String × String := ("content-type", "application/json")

/-- The answer that a reply leads to, with further headers. -/
def answerOf (reply : Reply) (headers : List (String × String)) : Answer :=
  ⟨reply.status, jsonHeader :: headers, (bodyValue reply.body).text⟩

/-- The answer to a request that ends in a given way. A request that does not end in time is given up. -/
def finish : Ending Reply → Answer
  | .answered reply => answerOf reply originHeaders
  | .never => answerOf (.bare 408) originHeaders
  | .crashed => answerOf (.bare 500) []

/-- What every request goes through: a page may ask what it may send, and too long a body is rejected
before it is read. -/
def guarded (s : Server) (r : Request) (inner : Course (Ending Reply)) : Course Answer :=
  if r.method = "OPTIONS" then .done ⟨200, preflightHeaders, ""⟩
  else
    match r.declaredLength? with
    | some n =>
      if s.maxBody < n then .done (finish (.answered (.bare 413)))
      else inner.bind fun ending => .done (finish ending)
    | none => inner.bind fun ending => .done (finish ending)

/-- Answers a request. -/
def answer (s : Server) (r : Request) : Course Answer :=
  match s.endpoint? (pathOf r.target) with
  | none => s.guarded r (.done (.answered (.bare 404)))
  | some (e, found) =>
    if e.methods.contains r.method then
      (s.guarded r (s.serve r found e)).bind fun a =>
        .done (if r.method = "HEAD" then { a with body := "" } else a)
    else
      (s.guarded r (.done (.answered (.bare 405)))).bind fun a =>
        .done { a with headers := ("allow", String.intercalate "," e.methods) :: a.headers }

end Server

end Http

end OffchainNames
