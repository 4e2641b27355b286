import GeoPlatform.Api.KeyCache
import GeoPlatform.Api.UsageRecorder
import GeoPlatform.Api.VisitorBucket
import GeoPlatform.ArcGIS.Requests
import GeoPlatform.Library.Interaction

/-! The middleware between the server and the endpoints of the API (`core/middleware.py`), with the
error envelope of `core/errors.py`. A layer is a program that runs the one inside it. The outermost
layer, the third-party one for browser origins, is left out: it answers preflights itself, adds
headers of its own to a response, and passes the other requests on. -/
namespace GeoPlatform.Api
open GeoPlatform.ArcGIS IpAddress Interaction

/-! ### Requests -/

abbrev Bytes := List UInt8

/-- `.encode("ascii")`. -/
def ascii (text : String) : Bytes := text.toList.map fun c => UInt8.ofNat c.toNat

/-- `.decode("latin-1")`. -/
def latin1 (b : Bytes) : List Char := b.map fun x => Char.ofNat x.toNat

/-- What the server knows of a request before its body; the names of headers are in lower case. -/
structure Scope where
  http : Bool := true
  method : String
  path : String
  queryString : Bytes := []
  headers : List (Bytes × Bytes) := []
  client : Option String := none

/-- `dict(scope["headers"]).get`: of headers with one name, the last counts. -/
def Scope.header (scope : Scope) (name : String) : Option Bytes :=
  (scope.headers.reverse.find? fun h => h.1 = ascii name).map Prod.snd

def startsWithAny (path : String) (starts : List String) : Bool :=
  starts.any fun start => start.toList.isPrefixOf path.toList

def PUBLIC_API_PREFIX : String := "/v1/"
def DEMO_API_PREFIX : String := "/demo/"
def DOCS_PATHS : List String := ["/docs", "/redoc"]

def Scope.isMetered (scope : Scope) : Bool :=
  startsWithAny scope.path [PUBLIC_API_PREFIX, DEMO_API_PREFIX]

def isRequestIdChar (c : Char) : Bool := c.isAlphanum || c = '.' || c = '_' || c = '-'

/-- `_REQUEST_ID.fullmatch`. -/
def requestIdPattern (text : List Char) : Bool :=
  8 ≤ text.length && text.length ≤ 64 && text.all isRequestIdChar

/-- `str(ip_address(text))`; the zone id of an IPv6 address stays as it is. -/
def normalAddress (text : List Char) : Option String :=
  match parseIPv4 text with
  | some a => some (String.ofList a.text)
  | none =>
      let address := text.takeWhile (· ≠ '%')
      match text.dropWhile (· ≠ '%') with
      | [] => (parseIPv6 address).map fun a => String.ofList a.text
      | _ :: zone =>
          if zone = [] ∨ '%' ∈ zone then none
          else (parseIPv6 address).map fun a => String.ofList (a.text ++ '%' :: zone)

/-! ### Responses -/

/-- The headers that the code writes or reads, and all others. -/
inductive HeaderName where
  | requestId
  | contentTypeOptions
  | referrerPolicy
  | frameOptions
  | permissionsPolicy
  | strictTransportSecurity
  | contentSecurityPolicy
  | cacheControl
  | rateLimitLimit
  | rateLimitRemaining
  | rateLimitReset
  | other (name : String)
  deriving DecidableEq, Repr

def HeaderName.text : HeaderName → String
  | requestId => "X-Request-ID"
  | contentTypeOptions => "X-Content-Type-Options"
  | referrerPolicy => "Referrer-Policy"
  | frameOptions => "X-Frame-Options"
  | permissionsPolicy => "Permissions-Policy"
  | strictTransportSecurity => "Strict-Transport-Security"
  | contentSecurityPolicy => "Content-Security-Policy"
  | cacheControl => "Cache-Control"
  | rateLimitLimit => "X-RateLimit-Limit"
  | rateLimitRemaining => "X-RateLimit-Remaining"
  | rateLimitReset => "X-RateLimit-Reset"
  | other name => name

inductive ErrorCode where
  | INVALID_REQUEST
  | INVALID_API_KEY
  | API_KEY_REVOKED
  | PAYMENT_REQUIRED
  | ENDPOINT_NOT_ALLOWED
  | NOT_FOUND
  | REQUEST_TIMEOUT
  | RATE_LIMIT_EXCEEDED
  | QUOTA_EXCEEDED
  | INTERNAL_ERROR
  | UPSTREAM_ERROR
  | SERVICE_UNAVAILABLE
  deriving DecidableEq, Repr

structure ErrorBody where
  code : ErrorCode
  message : String
  details : List (String × String) := []
  requestId : Option String := none
  deriving DecidableEq

/-- Starlette's `MutableHeaders` on the raw headers `H` of a response. -/
structure MutableHeaders (H : Type) where
  getlist : H → HeaderName → List String
  append : H → HeaderName → String → H
  setdefault : H → HeaderName → String → H
  setitem : H → HeaderName → String → H
  /-- The headers of a `JSONResponse` that is given none. -/
  json : ErrorBody → H
  getlist_append : ∀ h n v m,
    getlist (append h n v) m = if m = n then getlist h n ++ [v] else getlist h m
  getlist_setdefault : ∀ h n v m,
    getlist (setdefault h n v) m = if m = n ∧ getlist h n = [] then [v] else getlist h m
  getlist_setitem : ∀ h n v m, getlist (setitem h n v) m = if m = n then [v] else getlist h m
  getlist_json : ∀ b n, (∀ name, n ≠ .other name) → getlist (json b) n = []

/-- A response whose headers are pairs in the order in which they are sent. -/
def headerPairs : MutableHeaders (List (HeaderName × String)) where
  getlist h n := (h.filter fun e => e.1 = n).map Prod.snd
  append h n v := h ++ [(n, v)]
  setdefault h n v := if h.filter (fun e => e.1 = n) = [] then h ++ [(n, v)] else h
  setitem h n v := h.filter (fun e => e.1 ≠ n) ++ [(n, v)]
  json _ := [(.other "content-type", "application/json")]
  getlist_append h n v m := by
    by_cases hm : m = n
    · simp [hm]
    · simp [hm, Ne.symm hm]
  getlist_setdefault h n v m := by
    by_cases hnone : h.filter (fun e => e.1 = n) = []
    · rw [if_pos hnone, List.filter_append, hnone]
      by_cases hm : m = n
      · simp [hm, hnone]
      · simp [hm, Ne.symm hm]
    · rw [if_neg hnone, if_neg]
      exact fun hand => hnone (List.map_eq_nil_iff.mp hand.2)
  getlist_setitem h n v m := by
    by_cases hm : m = n
    · subst hm
      simp
    · rw [if_neg hm, List.filter_append, List.filter_filter]
      simp only [List.filter_cons, List.filter_nil, Ne.symm hm, decide_false,
        Bool.false_eq_true, if_false, List.append_nil]
      congr 2
      funext e
      by_cases he : e.1 = m <;> simp [he, hm]
  getlist_json b n h := by
    cases n <;> first | rfl | exact absurd rfl (h _)

inductive Content where
  | error (body : ErrorBody)
  | bytes (b : Bytes)

inductive Message (H : Type) where
  | start (status : ℕ) (headers : H)
  | body (content : Content) (moreBody : Bool)
  | other

inductive Incoming where
  | request (body : Bytes) (moreBody : Bool)
  | disconnect

/-- What may be raised: `_BodyTooLarge`, another `Exception`, or what is none, such as a
cancellation. -/
inductive Failure where
  | bodyTooLarge
  | exception (name : String)
  | baseException (name : String)
  deriving DecidableEq

/-! ### The state of a request -/

structure Principal where
  keyId : String
  userId : String
  tenantId : Option String := none
  projectId : Option String := none
  isSiteKey : Bool := false
  viaPlayground : Bool := false
  deriving DecidableEq

/-- `scope["state"]`. -/
structure RequestState where
  principal : Option Principal := none
  rateLimit : Option RateLimitState := none

structure AccessLine where
  method : String
  endpoint : String
  status : ℕ
  responseTimeMs : ℚ
  apiKeyId : Option String
  tenantId : Option String
  projectId : Option String
  sourceIp : Option String
  userAgent : String
  scope : Option String
  rateLimitResult : String

inductive Note where
  | usage (r : UsageRecord)
  | access (line : AccessLine)
  | unhandled (endpoint : String)

abbrev App (H ν : Type) := Prog RequestState Incoming (Message H) ν Failure

/-- What the clocks and `uuid4().hex` give in the course of a request. -/
structure Readings where
  uuid : List Char
  uuid_valid : requestIdPattern uuid = true
  accessTimeMs : ℚ
  usageTimeMs : ℤ
  timestampMs : ℤ

structure MiddlewareSettings where
  clientIpHeader : Option String := none
  hsts : Bool := true
  maxRequestBodyBytes : ℕ := 16 * 1024
  maxQueryStringBytes : ℕ := 2048
  maxQueryParams : ℕ := 16
  maxHeaderBytes : ℕ := 16 * 1024
  maxHeaderCount : ℕ := 64

section Layers
variable {H : Type} (M : MutableHeaders H) (P : PyText) (unquote : List Char → List Char)
variable (settings : MiddlewareSettings) (readings : Readings) (scope : Scope)
-- What `request_id_var` holds in the course of the request.
variable (contextId : Option String)

/-! ### The error envelope -/

def errorBody (code : ErrorCode) (message : String) (details : List (String × String)) :
    ErrorBody :=
  { code, message, details, requestId := contextId.filter (· ≠ "") }

/-- `error_response`, sent at once. -/
def errorResponse (status : ℕ) (code : ErrorCode) (message : String)
    (details : List (String × String)) : App H Note :=
  let body := errorBody contextId code message details
  .send (.start status (M.json body)) fun
    | .error e => .ret (.error e)
    | .ok () => .send (.body (.error body) false) .ret

/-! ### Unexpected exceptions -/

def Message.isStart : Message H → Bool
  | .start _ _ => true
  | _ => false

def unhandledError (app : App H Note) : App H Note :=
  if !scope.http then app
  else Wrapper.wrap (.sender (fun _ m => m) (fun started m => started || m.isStart)
    fun started r => match r with
      | .error (.exception e) => .note (.unhandled scope.path)
          (if started then .ret (.error (.exception e))
           else errorResponse M contextId 500 .INTERNAL_ERROR "Internal server error." [])
      | r => .ret r) false app

/-! ### Metering -/

def RateLimitState.headers (r : RateLimitState) : List (HeaderName × String) :=
  [(.rateLimitLimit, toString r.limit), (.rateLimitRemaining, toString r.remaining),
    (.rateLimitReset, toString r.reset)]

/-- The status of the last response that was started. -/
def Message.statusAfter (statusCode : ℕ) : Message H → ℕ
  | .start status _ => status
  | _ => statusCode

def meter (s : RequestState) : Message H → Message H
  | .start status h => .start status (match s.rateLimit with
      | some r => r.headers.foldl (fun h e => M.setitem h e.1 e.2) h
      | none => h)
  | m => m

def usageRecord (statusCode : ℕ) (p : Principal) : UsageRecord where
  keyId := p.keyId
  userId := p.userId
  endpoint := scope.path
  method := scope.method
  statusCode := statusCode
  responseTimeMs := readings.usageTimeMs
  timestampMs := readings.timestampMs

def apiMetering (app : App H Note) : App H Note :=
  if !scope.http || !scope.isMetered then app
  else Wrapper.wrap (.sender (meter M) Message.statusAfter fun statusCode r =>
    .get fun s => match s.principal with
      | some p => .note (.usage (usageRecord readings scope statusCode p)) (.ret r)
      | none => .ret r) 500 app

/-! ### Large bodies -/

/-- What `BodySizeLimitMiddleware` has seen of a request. -/
structure BodyProgress where
  received : ℕ := 0
  responseStarted : Bool := false

def bodyTooLargeResponse : App H Note :=
  errorResponse M contextId 413 .INVALID_REQUEST "The request body is too large." []

def countBody (t : BodyProgress) : Incoming → Except Failure Incoming × BodyProgress
  | .request body more =>
      let received := t.received + body.length
      (if settings.maxRequestBodyBytes < received then .error .bodyTooLarge
       else .ok (.request body more), { t with received })
  | m => (.ok m, t)

def bodyLimiter : Wrapper RequestState Incoming (Message H) Note Failure BodyProgress where
  onSend _ t m := (m, { t with responseStarted := t.responseStarted || m.isStart })
  onReceive := countBody settings
  finish t r := match r with
    | .error .bodyTooLarge =>
        if t.responseStarted then .ret (.ok ()) else bodyTooLargeResponse M contextId
    | r => .ret r

/-- `int` of a row of digits, of which it reads 4300 at most. -/
def intOfDigits (digits : Bytes) : Option ℕ :=
  if 4300 < digits.length then none
  else some (digits.foldl (fun n d => 10 * n + (d.toNat - 48)) 0)

def isDigits (b : Bytes) : Bool := b ≠ [] && b.all fun d => 48 ≤ d && d ≤ 57

def bodySizeLimit (app : App H Note) : App H Note :=
  if !scope.http then app
  else match (scope.header "content-length").filter isDigits with
    | some digits => match intOfDigits digits with
        | none => .ret (.error (.exception "ValueError"))
        | some declared =>
            if settings.maxRequestBodyBytes < declared then bodyTooLargeResponse M contextId
            else (bodyLimiter M settings contextId).wrap {} app
    | none => (bodyLimiter M settings contextId).wrap {} app

/-! ### Security headers -/

def securityDefaults : List (HeaderName × String) :=
  [(.contentTypeOptions, "nosniff"), (.referrerPolicy, "no-referrer"), (.frameOptions, "DENY"),
    (.permissionsPolicy, "geolocation=(), camera=(), microphone=(), payment=(), usb=()")] ++
  (if settings.hsts then
    [(.strictTransportSecurity, "max-age=63072000; includeSubDomains")] else []) ++
  (if startsWithAny scope.path DOCS_PATHS then []
   else [(.contentSecurityPolicy, "default-src 'none'; frame-ancestors 'none'")]) ++
  if scope.isMetered then [(.cacheControl, "no-store")] else []

def secure : Message H → Message H
  | .start status h => .start status
      ((securityDefaults settings scope).foldl (fun h e => M.setdefault h e.1 e.2) h)
  | m => m

def securityHeaders (app : App H Note) : App H Note :=
  if !scope.http then app
  else Wrapper.wrap (.sender (fun _ => secure M settings scope) (fun t _ => t)
    fun _ => .ret) () app

/-! ### Limits of requests -/

def QUERY_ALLOWLISTS (path : String) : Option (List String) :=
  match path with
  | "/v1/geocode" => some ["q", "lat", "lon", "limit"]
  | "/v1/route" => some ["origin", "destination", "mode"]
  | "/demo/geocode" => some ["q", "limit"]
  | "/demo/reverse" => some ["lat", "lon"]
  | "/demo/route" => some ["origin", "destination", "mode"]
  | _ => none

/-- `parse_qsl` that keeps blank values; `unquote` undoes the percent signs. -/
def parseQsl (maxNumFields : ℕ) (query : List Char) :
    Except PyException (List (String × String)) :=
  let fields := query.splitOn '&'
  if maxNumFields < fields.length then .error .valueError
  else
    let text := fun part : List Char =>
      String.ofList (unquote (part.map fun c => if c = '+' then ' ' else c))
    .ok ((fields.filter (· ≠ [])).map fun field =>
      (text (field.takeWhile (· ≠ '=')), text ((field.dropWhile (· ≠ '=')).drop 1)))

structure Problem where
  status : ℕ
  message : String
  details : List (String × String) := []

/-- The loop over the parameters, with the names `seen` so far. -/
def parameterProblem (allowed : Option (List String)) :
    List String → List (String × String) → Option Problem
  | _, [] => none
  | seen, (name, _) :: pairs =>
      let shown := String.ofList (name.toList.take 40)
      if name ∈ seen then
        some ⟨400, "Parameter '" ++ shown ++ "' must appear only once.", [("field", shown)]⟩
      else if allowed.any fun names => name ∉ names then
        some ⟨400, "Parameter '" ++ shown ++ "' is not supported.", [("field", shown)]⟩
      else parameterProblem allowed (name :: seen) pairs

/-- `_problem`. -/
def problem : Option Problem :=
  let headerBytes := (scope.headers.map fun h => h.1.length + h.2.length).sum
  if settings.maxHeaderCount < scope.headers.length ∨ settings.maxHeaderBytes < headerBytes then
    some ⟨431, "The request headers are too large.", []⟩
  else if settings.maxQueryStringBytes < scope.queryString.length then
    some ⟨414, "The query string is too long.", []⟩
  else if scope.isMetered ∧ scope.queryString ≠ [] then
    match parseQsl unquote settings.maxQueryParams (latin1 scope.queryString) with
    | .error _ => some ⟨400, "Too many query parameters (at most " ++
        toString settings.maxQueryParams ++ ").", []⟩
    | .ok pairs => parameterProblem (QUERY_ALLOWLISTS scope.path) [] pairs
  else none

def requestLimits (app : App H Note) : App H Note :=
  if !scope.http then app
  else match problem unquote settings scope with
    | none => app
    | some p => errorResponse M contextId p.status .INVALID_REQUEST p.message p.details

/-! ### The context of a request -/

def incomingId : List Char := latin1 ((scope.header "x-request-id").getD [])

def requestId : String :=
  String.ofList
    (if requestIdPattern (incomingId scope) then incomingId scope else readings.uuid)

def stamp (id : String) : Message H → Message H
  | .start status h => .start status (M.append h .requestId id)
  | m => m

def sourceIp : Option String :=
  let rawIp := match settings.clientIpHeader with
    | some name => latin1 ((scope.header name.toLower).getD [])
    | none => (scope.client.getD "").toList
  normalAddress (strip P rawIp)

def accessLine (statusCode : ℕ) (s : RequestState) : AccessLine where
  method := scope.method
  endpoint := scope.path
  status := statusCode
  responseTimeMs := readings.accessTimeMs
  apiKeyId := s.principal.map Principal.keyId
  tenantId := s.principal.bind Principal.tenantId
  projectId := s.principal.bind Principal.projectId
  sourceIp := sourceIp P settings scope
  userAgent := String.ofList ((latin1 ((scope.header "user-agent").getD [])).take 256)
  scope :=
    if startsWithAny scope.path [PUBLIC_API_PREFIX] then
      some (removePrefix PUBLIC_API_PREFIX scope.path)
    else none
  rateLimitResult := if statusCode = 429 then "denied" else "allowed"

/-- The layers inside run with the id in `request_id_var`. -/
def requestContext (app : Option String → App H Note) : App H Note :=
  if !scope.http then app none
  else
    let id := requestId readings scope
    Wrapper.wrap (.sender (fun _ => stamp M id) Message.statusAfter fun statusCode r =>
      .get fun s => .note (.access (accessLine P settings readings scope statusCode s)) (.ret r))
      500 (app (some id))

/-- The layers of `create_app` around the endpoints, inside the CORS layer. -/
def stack (app : App H Empty) : App H Note :=
  requestContext M P settings readings scope fun id =>
    requestLimits M unquote settings scope id <| securityHeaders M settings scope <|
      bodySizeLimit M settings scope id <| apiMetering M readings scope <|
        unhandledError M scope id app.quiet

end Layers

end GeoPlatform.Api
