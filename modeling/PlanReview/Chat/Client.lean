import PlanReview.Chat.Endpoint
import PlanReview.Chat.Model
import PlanReview.Json.Encoding
import PlanReview.Json.Writer
import PlanReview.Redact
import PlanReview.Text.Utf8

/-!
# Models behind HTTP

A `Client` sends a conversation to a server and reads the reply. A request that does not get
through, and one that the server answers with "later" or a fault of its own, is sent again, with
a pause that doubles each time; three attempts are made in all. What the server says about a
failure is cut, and known secrets are removed from it.

The network is a function, the `Transport` : it answers the requests of a conversation by number.
-/

namespace PlanReview.Chat

/-- A request to a server, whose body is a document. -/
structure HttpRequest where
  url : String
  headers : List (String × String)
  body : Json

/-- The value of a header, letter case aside; several values are joined by commas. -/
def HttpRequest.header? (r : HttpRequest) (name : String) : Option String :=
  let values := (r.headers.filter fun h => h.1.toLower == name.toLower).map Prod.snd
  if values.isEmpty then none else some (String.intercalate ", " values)

/-- What a server answers. -/
structure HttpResponse where
  status : Int := 200
  body : Content

/-- Answers the requests of a conversation by number, or says why one did not get through. -/
abbrev Transport := Nat → HttpRequest → Except String HttpResponse

/-- The size of a body in bytes. -/
def HttpResponse.size (r : HttpResponse) : Nat :=
  match r.body with
  | .text s => s.utf8ByteSize
  | .binary bytes => bytes.size

/-- The text of a body. -/
def HttpResponse.text (r : HttpResponse) : String :=
  match r.body with
  | .text s => s
  | .binary bytes => String.ofList (Text.Utf8.lossy 0 bytes.toList)

/-- How a model is reached. -/
structure Client where
  baseUrl : String
  apiKey : String
  model : String
  timeoutSeconds : Int := 30
  maxResponseBytes : Int := 2000000
  extraHeaders : List (String × String) := []
  temperature : Option Json := none
  backoffSeconds : Float := 1.0

/-- A conversation with a server : the reply, the requests, and the pauses in seconds. -/
structure Exchange where
  reply : Except Failure ModelReply
  requests : List HttpRequest := []
  pauses : List Float := []

namespace Client

/-- How often a conversation is sent at most. -/
def maxAttempts : Nat := 3

/-- The base URL, as it is used. -/
def base (c : Client) : String :=
  Endpoint.normalize c.baseUrl

/-- The address that conversations are sent to. -/
def url (c : Client) : Except Failure String :=
  match Endpoint.address? c.base with
  | some url => .ok url
  | none => .error (.value "Invalid IPv6 URL")

/-- A text with the client's secrets removed. -/
def redacted (c : Client) (text : String) : String :=
  Redact.redact [c.apiKey] text

/-! ## Requests -/

/-- Headers with some more of them; a name given again has its new value. -/
def withHeaders (headers more : List (String × String)) : List (String × String) :=
  more.foldl (fun hs (name, value) =>
    if (hs.lookup name).isSome then hs.map fun h => if h.1 == name then (name, value) else h
    else hs ++ [(name, value)]) headers

/-- The headers of every request. -/
def headers (c : Client) : List (String × String) :=
  let given := withHeaders [("Authorization", "Bearer " ++ c.apiKey)] c.extraHeaders
  if given.any fun h => h.1.toLower == "content-type" then given
  else given ++ [("Content-Type", "application/json")]

/-- The body of the request for a conversation. -/
def payload (c : Client) (messages : List Message) : Json :=
  .obj ([("model", .str c.model), ("messages", .arr messages)] ++
    match c.temperature with
    | some t => [("temperature", t)]
    | none => [])

/-! ## Responses -/

/-- A count of tokens, which a truth value is too. -/
def count? : Json → Option Int
  | .int n => some n
  | .bool b => some (if b then 1 else 0)
  | _ => none

/-- A count under either of two names; the first goes first even if it holds no count. -/
def countUnder? (usage : Json.Fields) (name otherName : String) : Option Int :=
  match usage.lookup name with
  | some v => count? v
  | none => (usage.lookup otherName).bind count?

/-- The usage that a response reports, if it reports a count. -/
def usageOf (response : Json.Fields) : Option TokenUsage :=
  match response.lookup "usage" with
  | some (.obj usage) =>
    match countUnder? usage "prompt_tokens" "input_tokens",
        countUnder? usage "completion_tokens" "output_tokens" with
    | none, none => none
    | input, output => some { inputTokens := input.getD 0, outputTokens := output.getD 0 }
  | _ => none

/-- A value that counts, or what stands in for one that does not. -/
def orElse (value : Option Json) (other : Json) : Json :=
  match value with
  | some v => if v.truthy then v else other
  | none => other

/-- The first of the choices in a response. -/
def firstChoice (response : Json.Fields) : Except Failure Json :=
  match orElse (response.lookup "choices") (.arr [.obj []]) with
  | .arr (choice :: _) => .ok choice
  | .str s => .ok (.str (Text.takeChars 1 s))
  | .obj _ => .error (.crash (.key "0"))
  | choices => .error (.crash (.noItems choices.typeName))

/-- A part of a value, which has to be an object. -/
def partOf (value : Json) (name : String) : Except Failure (Option Json) :=
  match value with
  | .obj fields => .ok (fields.lookup name)
  | _ => .error (.crash (.noPart value.typeName "get"))

/-- The text of the first choice; a content that is no text counts as empty. -/
def textOf (response : Json.Fields) : Except Failure String := do
  let choice ← firstChoice response
  let message := orElse (← partOf choice "message") (.obj [])
  match ← partOf message "content" with
  | some (.str s) => return s
  | _ => return ""

/-- The document in a body. -/
def documentOf (body : Content) : Except Failure Json :=
  match Json.textOf? body with
  | none => .error (.crash (.decoding (Json.encodingFault body)))
  | some text => (Json.parse text).mapError fun _ => .chat "Malformed JSON response"

/-- Read a response. -/
def readResponse (c : Client) (r : HttpResponse) : Except Failure ModelReply := do
  if c.maxResponseBytes < r.size then throw (.chat "Response too large")
  match ← documentOf r.body with
  | .obj fields => return { text := some (← textOf fields), usage := usageOf fields }
  | _ => throw (.chat "Response body is not a JSON object")

/-! ## Attempts -/

/-- What came of an attempt : an end of the conversation, or a reason to try again. -/
inductive Attempt where
  | ended (reply : Except Failure ModelReply)
  | failed (reason : String)

/-- Whether a status says that the same request may succeed later. -/
def isRetryable (status : Int) : Bool :=
  status == 408 || status == 429 || 500 ≤ status

/-- What a server says about a failure : the start of the body, without secrets. -/
def detail (c : Client) (r : HttpResponse) : String :=
  c.redacted (Text.takeChars 200 r.text)

/-- What comes of an answer to a request. -/
def judge (c : Client) : Except String HttpResponse → Attempt
  | .error reason => .failed reason
  | .ok r =>
    if r.status < 400 then .ended (c.readResponse r)
    else if isRetryable r.status then
      .failed ("Retryable error " ++ toString r.status ++ ": " ++ c.detail r)
    else .ended (.error (.chat
      ("Request rejected with " ++ toString r.status ++ ": " ++ c.detail r)))

/-- The failure after the last attempt. -/
def givenUp (c : Client) (reason : String) : Failure :=
  .chat ("OpenAI-compatible request failed after " ++ toString maxAttempts ++ " attempts: " ++
    c.redacted reason)

/-- Send a request once more and then at most `left` times; `made` attempts came before. -/
def attempts (c : Client) (transport : Transport) (r : HttpRequest) (made : Nat) : Nat → Exchange
  | 0 =>
    match c.judge (transport made r) with
    | .ended reply => { reply := reply, requests := [r] }
    | .failed reason => { reply := .error (c.givenUp reason), requests := [r] }
  | left + 1 =>
    match c.judge (transport made r) with
    | .ended reply => { reply := reply, requests := [r] }
    | .failed _ =>
      let e := attempts c transport r (made + 1) left
      { e with
        requests := r :: e.requests
        pauses := c.backoffSeconds * Float.ofNat (Nat.pow 2 made) :: e.pauses }

/-- Have a conversation. -/
def converse (c : Client) (transport : Transport) (messages : List Message) : Exchange :=
  match c.url with
  | .error f => { reply := .error f }
  | .ok url =>
    let r : HttpRequest := { url := url, headers := c.headers, body := c.payload messages }
    if r.body.isFinite then attempts c transport r 0 (maxAttempts - 1)
    else { reply := .error (.value "Out of range float values are not JSON compliant") }

/-- The model behind a client. -/
def asModel (c : Client) (transport : Transport) : Model := fun _ messages =>
  let e := c.converse transport messages
  { reply := e.reply, waited := e.pauses.foldl (fun n x => n + Instant.microsOf x) 0 }

end Client

end PlanReview.Chat
