import GeoPlatform.Convex.Checkout
import GeoPlatform.Convex.JsNumbers

/-! The HTTP surface of Convex (`http.ts`), the comparison of secrets (`lib/crypto.ts`) and the
signatures of webhooks (`lib/wire.ts`). A handler replies at once or goes on to a transaction. -/
namespace GeoPlatform.Convex.Http
open Docs

/-- `/^[0-9a-f]{64}$/`. -/
def isHash (s : String) : Bool :=
  s.toList.length = 64 && s.toList.all fun c => c.isDigit || ('a' ≤ c && c ≤ 'f')

/-- `headers` is `request.headers.get` with a name in lower case, and `json` what `JSON.parse` makes
of the text. -/
structure HttpRequest where
  method : String
  path : String
  headers : String → Option String
  text : String
  json : Option Json

/-- A body that is no JSON is `none`. -/
structure HttpReply where
  status : ℕ
  body : Option Json

/-- `authRoutes` are those that Convex Auth adds to the router: its keys and its OpenID
configuration, which anyone may read. -/
structure HttpEnv extends ProcessEnv where
  GATEWAY_SECRET_PREVIOUS : Option String := none
  WIREPAYMENT_WEBHOOK_SECRET : Option String := none
  digest_valid : ∀ secret value, isHash (toProcessEnv.hmacSha256Hex secret value) = true
  authRoutes : HttpRequest → Option HttpReply := fun _ => none

theorem testEnv_digest (secret value : String) :
    isHash (testEnv.hmacSha256Hex secret value) = true := by
  simp only [testEnv]
  split_ifs <;> decide +kernel

def MAX_USAGE_BATCH : ℕ := 200
def MAX_USAGE_ENTRIES : ℕ := 1000
def MAX_BODY_BYTES : ℕ := 256 * 1024
def MIN_SECRET_LENGTH : ℕ := 32

def json (body : List (String × Json)) (status : ℕ) : HttpReply := ⟨status, some (.object body)⟩

def errorReply (error : String) (status : ℕ) : HttpReply := json [("error", .string error)] status

def unauthorized : HttpReply := errorReply "unauthorized" 401

def invalidBody : HttpReply := errorReply "invalid body" 400

/-- What an uncaught error becomes. -/
def serverError : HttpReply := ⟨500, none⟩

/-! ### Secrets -/

/-- The bytes of a `TextEncoder`. -/
def encode (s : String) : List ℕ := s.toByteArray.data.toList.map UInt8.toNat

/-- `timingSafeEqual` of `lib/crypto.ts`. -/
def timingSafeEqual (a b : String) : Bool :=
  let left := encode a
  let right := encode b
  let diff := (List.range (max left.length right.length)).foldl
    (fun diff i => diff ||| (left[i]?.getD 0 ^^^ right[i]?.getD 0)) (left.length ^^^ right.length)
  diff = 0

def HttpEnv.secrets (env : HttpEnv) : List (Option String) :=
  [env.GATEWAY_SECRET, env.GATEWAY_SECRET_PREVIOUS]

def authorized (env : HttpEnv) (r : HttpRequest) : Bool :=
  let header := (r.headers "authorization").getD ""
  env.secrets.foldl (fun ok secret => ok || secret.any fun secret =>
    MIN_SECRET_LENGTH ≤ jsLength secret.toList &&
      timingSafeEqual header ("Bearer " ++ secret)) false

/-! ### The gateway's requests -/

def readJson (r : HttpRequest) : Option Json :=
  let declared := JsNumber.ofString ((r.headers "content-length").getD "0")
  if declared.exceeds MAX_BODY_BYTES then none
  else if MAX_BODY_BYTES < jsLength r.text.toList then none
  else match r.json with
    | some (.object fields) => some (.object fields)
    | _ => none

/-- What a handler comes to. -/
inductive Handling where
  | reply (r : HttpReply)
  | transaction (txn : Txn)
  | usage (valid : List UsageEntry) (total : ℕ)
  | settle (paymentIntentId : String)
  | throws

def invalid : Handling := .reply invalidBody

def text? (body : Json) (name : String) : Option String := (body.get? name).bind Json.string?

/-- A member as `Number` reads it, where that is finite. -/
def number? (body : Json) (name : String) : Option ℚ :=
  (JsNumber.ofMember (body.get? name)).finite?

def kindOf (body : Json) : Option CredentialKind :=
  match text? body "kind" with
  | some "playground" => some .playground
  | some "key" => some .key
  | _ => none

def authorizeHandler (body : Json) : Handling :=
  match kindOf body, (text? body "hash").filter isHash,
      (number? body "defaultLimit").filter (1 ≤ ·) with
  | some kind, some hash, some defaultLimit =>
      .transaction (.authorize {
        kind
        hash
        endpoint := (text? body "endpoint").map (slice 64)
        defaultLimit := some defaultLimit
        clientIp := (text? body "clientIp").map (slice 64)
        perIpLimit := number? body "perIpLimit" })
  | _, _, _ => invalid

def demoHandler (body : Json) : Handling :=
  let value := fun name => (number? body name).filter (1 ≤ ·)
  match value "cost", value "minuteLimit", value "hourLimit", value "globalMinuteLimit" with
  | some cost, some minuteLimit, some hourLimit, some globalMinuteLimit =>
      .transaction (.authorizeDemo {
        clientIp := ((text? body "clientIp").map (slice 64)).getD "unknown"
        endpoint := ((text? body "endpoint").map (slice 32)).getD "unknown"
        cost
        minuteLimit := some minuteLimit
        hourLimit := some hourLimit
        globalMinuteLimit := some globalMinuteLimit })
  | _, _, _, _ => invalid

def describeHandler (body : Json) : Handling :=
  match (text? body "hash").filter isHash with
  | some hash => .transaction (.describe hash)
  | none => invalid

def toUsageEntry (raw : Json) : Option UsageEntry := do
  let keyId ← text? raw "keyId"
  let userId ← text? raw "userId"
  let endpoint ← text? raw "endpoint"
  let method ← text? raw "method"
  let statusCode ← number? raw "statusCode"
  let responseTimeMs ← number? raw "responseTimeMs"
  let timestamp ← number? raw "timestamp"
  return { keyId := slice 64 keyId, userId := slice 64 userId, endpoint := slice 100 endpoint,
           method := slice 10 method, statusCode := some statusCode,
           responseTimeMs := some responseTimeMs, timestamp := some timestamp }

def usageHandler (body : Json) : Handling :=
  match body.get? "entries" with
  | some (.array entries) =>
      if MAX_USAGE_ENTRIES < entries.length then invalid
      else .usage (entries.filterMap toUsageEntry) entries.length
  | _ => invalid

/-- The checks that the gateway's routes share. -/
def gatewayRoute (env : HttpEnv) (r : HttpRequest) (handler : Json → Handling) : Handling :=
  if !authorized env r then .reply unauthorized
  else match readJson r with
    | none => invalid
    | some body => handler body

/-! ### The webhook -/

def wireEntries (header : String) : List (List (List Char)) :=
  (header.toList.splitOn ',').map fun entry => (jsTrim entry).splitOn '='

/-- `entries.find(([name]) => name === …)?.[1]`. -/
def entryValue (entries : List (List (List Char))) (name : String) : Option (List Char) :=
  (entries.find? fun entry => entry.head? = some name.toList).bind (·[1]?)

/-- `/^\d+$/`. -/
def isWireTimestamp (cs : List Char) : Bool := !cs.isEmpty && cs.all Char.isDigit

/-- `/^[a-f\d]{64}$/i`. -/
def isWireSignature (cs : List Char) : Bool := cs.length = 64 && cs.all isHexDigit

def MAX_SAFE_INTEGER : ℕ := 2 ^ 53 - 1

/-- The bytes of hexadecimal digits. -/
def hexBytes : List Char → List ℕ
  | a :: b :: cs => (16 * JsNumber.digitValue a + JsNumber.digitValue b) :: hexBytes cs
  | _ => []

/-- `timingSafeEqual` of `lib/wire.ts`. -/
def sameBytes (a b : List ℕ) : Bool :=
  a.length = b.length && (a.zipWith (fun x y => x ^^^ y) b).foldl (fun diff d => diff ||| d) 0 = 0

def verifyWireSignature (env : HttpEnv) (body : String) (header : Option String) (secret : String)
    (nowMs : ℕ) : Bool :=
  match header.filter (· ≠ "") with
  | none => false
  | some header =>
      let entries := wireEntries header
      match (entryValue entries "t").filter isWireTimestamp,
          (entryValue entries "v1").filter isWireSignature with
      | some timestamp, some signature =>
          match JsNumber.digits 10 timestamp with
          | none => false
          | some seconds =>
              if MAX_SAFE_INTEGER < seconds ∨ 300 < |(nowMs : ℚ) / 1000 - seconds| then false
              else
                let expected := env.hmacSha256Hex secret (String.ofList timestamp ++ "." ++ body)
                sameBytes (hexBytes signature) (hexBytes expected.toList)
      | _, _ => false

/-- `value ?? fallback`. -/
def nullish (value fallback : Option Json) : Option Json :=
  match value with
  | none => fallback
  | some .null => fallback
  | some v => some v

def truthy : Json → Bool
  | .null => false
  | .bool b => b
  | .number q => q ≠ 0
  | .string s => s ≠ ""
  | _ => true

def PAYMENT_EVENTS : List String :=
  ["payment_intent.succeeded", "payment_intent.payment_failed", "payment_intent.canceled"]

/-- The intent that an event is about. -/
def intentOf (event : Json) : Option Json :=
  let data := event.get? "data"
  nullish ((data.bind (Json.get? "object")).bind (Json.get? "id")) (data.bind (Json.get? "id"))

def webhookEvent (event : Json) : Handling :=
  match event with
  | .null => .throws
  | event =>
      match (intentOf event).filter truthy with
      | none => .reply (json [("ok", .bool true)] 200)
      | some intentId =>
          if PAYMENT_EVENTS.contains ((text? event "type").getD "") then
            match intentId with
            | .string paymentIntentId => .settle paymentIntentId
            | _ => .throws
          else .reply (json [("ok", .bool true)] 200)

def webhook (env : HttpEnv) (now : ℕ) (r : HttpRequest) : Handling :=
  match env.WIREPAYMENT_WEBHOOK_SECRET.filter (· ≠ "") with
  | none => .reply (errorReply "not configured" 503)
  | some secret =>
      if 64 * 1024 < jsLength r.text.toList then .reply (errorReply "body too large" 413)
      else if !verifyWireSignature env r.text (r.headers "wirepayment-signature") secret now then
        .reply (errorReply "invalid signature" 400)
      else match r.json with
        | none => invalid
        | some event => webhookEvent event

/-! ### Routes -/

def handle (env : HttpEnv) (now : ℕ) (r : HttpRequest) : Handling :=
  match r.method, r.path with
  | "GET", "/gateway/health" =>
      if !authorized env r then .reply unauthorized
      else .reply (json [("status", .string "ok")] 200)
  | "POST", "/gateway/authorize" => gatewayRoute env r authorizeHandler
  | "POST", "/gateway/demo-authorize" => gatewayRoute env r demoHandler
  | "POST", "/gateway/describe" => gatewayRoute env r describeHandler
  | "POST", "/gateway/usage" => gatewayRoute env r usageHandler
  | "POST", "/wirepayment/webhook" => webhook env now r
  | _, _ => .reply ((env.authRoutes r).getD ⟨404, none⟩)

/-! ### Replies -/

def statusText : AuthorizeStatus → String
  | .ok => "ok"
  | .invalid => "invalid"
  | .expired => "expired"
  | .revoked => "revoked"
  | .paymentRequired => "payment_required"
  | .endpointNotAllowed => "endpoint_not_allowed"
  | .rateLimited => "rate_limited"
  | .quotaExceeded => "quota_exceeded"

/-- The id of a document as a text. -/
def idJson (id : ℕ) : Json := .string (toString id)

def natJson (n : ℕ) : Json := .number n

def principalJson (p : Principal) : Json :=
  .object [("keyId", idJson p.keyId), ("userId", idJson p.userId), ("tenantId", idJson p.tenantId),
    ("projectId", idJson p.projectId), ("isSiteKey", .bool p.isSiteKey),
    ("viaPlayground", .bool p.viaPlayground)]

def rateLimitJson (r : RateLimitReply) : Json :=
  .object [("limit", .number r.limit), ("remaining", .number r.remaining),
    ("reset", natJson r.reset)]

def endpointsJson (endpoints : List ApiEndpoint) : Json :=
  .array (endpoints.map fun e => .string e.name)

/-- A member that `JSON.stringify` leaves out when it is undefined. -/
def optionalMember {α : Type} (name : String) (f : α → Json) (value : Option α) :
    List (String × Json) :=
  (value.map fun v => (name, f v)).toList

def authorizeJson (reply : AuthorizeReply) : List (String × Json) :=
  ("status", .string (statusText reply.status)) ::
    (optionalMember "principal" principalJson reply.principal ++
      optionalMember "rateLimit" rateLimitJson reply.rateLimit ++
      optionalMember "allowedEndpoints" endpointsJson reply.allowedEndpoints)

def describeJson : DescribeReply → List (String × Json)
  | .ok d =>
      [("status", .string "ok"), ("keyId", idJson d.keyId), ("userId", idJson d.userId),
        ("isSiteKey", .bool d.isSiteKey),
        ("rateLimitPerMinute", (d.rateLimitPerMinute.map Json.number).getD .null),
        ("accountLimit", .number d.accountLimit), ("routeLimit", .number d.routeLimit),
        ("endpoints", (d.endpoints.map endpointsJson).getD .null)]
  | .invalid => [("status", .string "invalid")]
  | .revoked => [("status", .string "revoked")]
  | .expired => [("status", .string "expired")]
  | .paymentRequired => [("status", .string "payment_required")]

def demoStatusText : DemoStatus → String
  | .ok => "ok"
  | .rateLimited => "rate_limited"

def demoJson (reply : DemoReply) : List (String × Json) :=
  [("status", .string (demoStatusText reply.status)), ("rateLimit", rateLimitJson reply.rateLimit)]

def usageJson (reply : UsageReply) : List (String × Json) :=
  [("written", natJson reply.written), ("dropped", natJson reply.dropped)]

/-- The reply with what a transaction returned. -/
def answerReply : Answer → HttpReply
  | .demo reply => json (demoJson reply) 200
  | .authorized reply => json (authorizeJson reply) 200
  | .described reply => json (describeJson reply) 200
  | _ => serverError

end GeoPlatform.Convex.Http
