import GeoPlatform.Api.FailureLimiter
import GeoPlatform.Api.LogRedaction
import GeoPlatform.Api.Middleware
import GeoPlatform.Convex.Backend

/-! Who gets access to the public endpoints: `require_api_key` (`api/deps.py`) with its gateway
calls (`services/gateway.py`). A request runs up to its gateway call, other requests and the
transactions of Convex come in between, and it runs on when the reply arrives. -/
namespace GeoPlatform.Api
open GeoPlatform.ArcGIS IpAddress
open GeoPlatform.Convex hiding KeyDescription RateLimitState Principal

/-! ### Requests -/

/-- `request.headers.get`: of headers with one name, the first counts. -/
def Scope.get (scope : Scope) (name : String) : Option (List Char) :=
  (scope.headers.find? fun h => h.1 = ascii name).map fun h => latin1 h.2

def Scope.getlist (scope : Scope) (name : String) : List (List Char) :=
  (scope.headers.filter fun h => h.1 = ascii name).map fun h => latin1 h.2

section Client
variable (P : PyText) (settings : MiddlewareSettings) (scope : Scope)

def clientAddress : Option String :=
  match settings.clientIpHeader with
  | some name => normalAddress (strip P ((scope.get name.toLower).getD []))
  | none => scope.client

/-- `bucket or …`, where there is one. -/
def bucketOf (value : String) : Option String :=
  match visitorBucket P value with
  | .ok bucket => bucket.filter (· ≠ "")
  | .error _ => none

theorem bucketOf_valid {value bucket : String} (h : bucketOf P value = some bucket) :
    ipPattern bucket = true := by
  unfold bucketOf at h
  cases haddress : ipAddress (withoutZone P value) with
  | none => simp [visitorBucket, haddress] at h
  | some a =>
    rw [visitorBucket_eq haddress] at h
    obtain ⟨heq, -⟩ := Option.filter_eq_some_iff.mp h
    rw [← Option.some.inj heq]
    exact a.visitor.ipPattern_text

theorem either_valid {value fallback bucket : String}
    (h : (bucketOf P value).or (bucketOf P fallback) = some bucket) :
    bucket = "unknown" ∨ ipPattern bucket = true := by
  rcases Option.or_eq_some_iff.mp h with h | ⟨-, h⟩
  · exact .inr (bucketOf_valid P h)
  · exact .inr (bucketOf_valid P h)

theorem unknown_valid : "unknown" = "unknown" ∨ ipPattern "unknown" = true := .inl rfl

/-- `_visitor_ip`. -/
def visitorIp : VisitorIp :=
  match h : (bucketOf P (String.ofList ((scope.get "x-client-ip").getD []))).or
      (bucketOf P ((clientAddress P settings scope).getD "")) with
  | some bucket => ⟨bucket, either_valid P h⟩
  | none => ⟨"unknown", unknown_valid⟩

/-- `_endpoint`. -/
def Scope.endpoint : String :=
  let path := (removePrefix PUBLIC_API_PREFIX scope.path).toList
  String.ofList (((path.dropWhile (· = '/')).reverse.dropWhile (· = '/')).reverse)

end Client

/-- What `require_api_key` reads of a request; the credentials are those that `HTTPBearer` found. -/
structure ApiRequest where
  authorizations : ℕ := 1
  credentials : Option String
  client : Option String
  ip : VisitorIp
  endpoint : String

def Scope.apiRequest (P : PyText) (settings : MiddlewareSettings) (scope : Scope)
    (credentials : Option String) : ApiRequest where
  authorizations := (scope.getlist "authorization").length
  credentials
  client := (clientAddress P settings scope).filter (· ≠ "")
  ip := visitorIp P settings scope
  endpoint := scope.endpoint

/-! ### Errors -/

inductive ErrorDetails where
  | none
  | reason (reason : String)
  | limit (limit : ℤ)
  | allowedEndpoints (endpoints : List String)
  deriving DecidableEq

structure ApiError where
  statusCode : ℕ
  code : ErrorCode
  message : String
  details : ErrorDetails := .none
  retryAfter : Option ℕ := none
  deriving DecidableEq

def severalHeaders : ApiError where
  statusCode := 401
  code := .INVALID_API_KEY
  message := "Send exactly one Authorization header."

def missingKey : ApiError where
  statusCode := 401
  code := .INVALID_API_KEY
  message :=
    "Missing API key. Send it in the Authorization header: 'Authorization: Bearer YOUR_API_KEY'."

def tooManyFailures (retryAfter : ℕ) : ApiError where
  statusCode := 429
  code := .RATE_LIMIT_EXCEEDED
  message := "Too many failed authentication attempts. Try again later."
  retryAfter := some retryAfter

def invalidKey : ApiError where
  statusCode := 401
  code := .INVALID_API_KEY
  message := "The API key is missing or invalid."

/-- `_refusal`. -/
def refusal (status : AuthorizeStatus) (kind : CredentialKind) : ApiError :=
  match status with
  | .paymentRequired =>
      { statusCode := 402, code := .PAYMENT_REQUIRED,
        message := "Activate the free tier or a paid plan to use API keys." }
  | .revoked =>
      { statusCode := 403, code := .API_KEY_REVOKED, message := "This API key has been revoked." }
  | .expired =>
      { statusCode := 401, code := .INVALID_API_KEY
        message := match kind with
          | .playground => "The playground token has expired. Reload the playground."
          | .key => "This API key has expired."
        details := .reason "expired" }
  | _ => invalidKey

def endpointNotAllowed (allowed : List String) : ApiError where
  statusCode := 403
  code := .ENDPOINT_NOT_ALLOWED
  message := "This API key is not allowed to call this endpoint. Create a key that includes it."
  details := .allowedEndpoints allowed

def tooManyRequests (limit : Option ℤ) (retryAfter : ℕ) : ApiError where
  statusCode := 429
  code := .RATE_LIMIT_EXCEEDED
  message := "Too many requests."
  details := limit.elim .none .limit
  retryAfter := some retryAfter

def quotaExhausted (retryAfter : ℕ) : ApiError where
  statusCode := 429
  code := .QUOTA_EXCEEDED
  message := "The usage quota has been exhausted."
  retryAfter := some retryAfter

/-- What a `ConvexGatewayError` becomes. -/
def serviceUnavailable : ApiError where
  statusCode := 503
  code := .SERVICE_UNAVAILABLE
  message := "Authentication is temporarily unavailable. Try again shortly."

def TERMINAL_STATUSES : List AuthorizeStatus := [.invalid, .revoked, .expired]

/-! ### Replies of the gateway -/

structure Authorization where
  status : AuthorizeStatus
  principal : Option Principal
  rateLimit : Option RateLimitState
  allowedEndpoints : Option (List String)

def Principal.of (p : Convex.Principal) : Principal where
  keyId := toString p.keyId
  userId := toString p.userId
  tenantId := some (toString p.tenantId)
  projectId := some (toString p.projectId)
  isSiteKey := p.isSiteKey
  viaPlayground := p.viaPlayground

/-- `model_validate`; a limit that is not whole fails it. -/
def RateLimitState.validate (r : RateLimitReply) : Option RateLimitState := do
  let limit ← wholeNumber r.limit
  let remaining ← wholeNumber r.remaining
  return ⟨limit, remaining, r.reset⟩

def validateLimit (r : Option RateLimitReply) : Option (Option RateLimitState) :=
  match r with
  | none => some none
  | some r => (RateLimitState.validate r).map some

/-- What `gateway.authorize` returns, or `none` for a `ConvexGatewayError`. -/
def gatewayAuthorize (answer : Answer) : Option Authorization :=
  match answer with
  | .authorized reply => do
      let rateLimit ← validateLimit reply.rateLimit
      return { status := reply.status, principal := reply.principal.map Principal.of, rateLimit,
               allowedEndpoints := reply.allowedEndpoints.map (List.map ApiEndpoint.name) }
  | _ => none

def describeAnswer (answer : Answer) : Option (Except AuthorizeStatus KeyDescription) :=
  match answer with
  | .described reply => gatewayDescribe (.ok reply)
  | _ => none

/-! ### The gate -/

structure AccessSettings where
  limits : Settings
  siteKeyHash : Option String := none
  /-- `hash_credential` with the pepper. -/
  hashCredential : String → String

/-- `app.state`. -/
structure Gate where
  failedAuth : FailureLimiter
  knownBad : TerminalStatusCache
  app : AppState

/-- The verdict on a request, and what its state holds then. -/
structure Reply where
  verdict : Except ApiError Principal
  state : RequestState := {}

def refuse (e : ApiError) : Reply := ⟨.error e, {}⟩

/-- What is to be remembered: a refusal of a hash, and a failure of a client. -/
structure Effects where
  refusal : Option (String × AuthorizeStatus) := none
  failure : Option String := none

/-- A request that waits for its gateway call. -/
structure Lookup where
  request : ApiRequest
  hash : String
  kind : CredentialKind
  txn : Txn

inductive Arrival where
  | done (reply : Reply)
  | lookup (l : Lookup)

def SiteRequest.of (r : ApiRequest) (now : ℕ) (monotonic : ℚ) : SiteRequest :=
  ⟨now, monotonic, r.ip, r.endpoint⟩

def Principal.ofDescription (d : KeyDescription) : Principal where
  keyId := toString d.keyId
  userId := toString d.userId
  tenantId := some (toString d.userId)
  projectId := some (toString d.keyId)
  isSiteKey := d.isSiteKey

/-- The end of `_authorize_cached`, from a good description on. -/
def enforceReply (settings : AccessSettings) (g : Gate) (r : SiteRequest) (d : KeyDescription) :
    Reply × Gate :=
  let (cached, app) := enforce settings.limits r g.app d
  let principal := Principal.ofDescription d
  let verdict : Except ApiError Principal := match cached.verdict with
    | .ok => .ok principal
    | .serviceUnavailable => .error serviceUnavailable
    | .refused status => .error (refusal status .key)
    | .endpointNotAllowed allowed => .error (endpointNotAllowed (allowed.map ApiEndpoint.name))
    | .tooMany limit retryAfter => .error (tooManyRequests (some limit) retryAfter)
  (⟨verdict, { principal := some principal, rateLimit := cached.rateLimit }⟩, { g with app })

def authorizeArgs (settings : AccessSettings) (r : ApiRequest) (kind : CredentialKind)
    (hash : String) (isSiteKey : Bool) : AuthorizeArgs where
  kind
  hash
  endpoint := some (slice 64 r.endpoint)
  defaultLimit := some settings.limits.rateLimitPerMinute
  clientIp := if isSiteKey then some (slice 64 r.ip.text) else none
  perIpLimit := if isSiteKey then some settings.limits.siteKeyPerIpPerMinute else none

/-- `require_api_key` up to its gateway call. -/
def Gate.arrive (P : PyText) (settings : AccessSettings) (g : Gate) (now : ℕ) (monotonic : ℚ)
    (r : ApiRequest) : Arrival × Effects × Gate :=
  if 1 < r.authorizations then (.done (refuse severalHeaders), {}, g)
  else match r.credentials.filter (· ≠ "") with
  | none => (.done (refuse missingKey), {}, g)
  | some credentials =>
      match r.client.bind fun client => g.failedAuth.blocked client now with
      | some retryAfter => (.done (refuse (tooManyFailures retryAfter)), {}, g)
      | none =>
          let token := strip P credentials.toList
          match credentialKind token with
          | none => (.done (refuse invalidKey), { failure := r.client }, g)
          | some kind =>
              let hash := settings.hashCredential (String.ofList token)
              let (known, knownBad) := g.knownBad.get hash monotonic
              let g := { g with knownBad }
              match known with
              | some status => (.done (refuse (refusal status kind)), { failure := r.client }, g)
              | none =>
                  let isSiteKey := decide (kind = .key ∧ settings.siteKeyHash = some hash)
                  if isSiteKey && g.app.keyCache.enabled then
                    let (description, keyCache) := g.app.keyCache.get hash monotonic
                    let g := { g with app := { g.app with keyCache } }
                    match description with
                    | some d =>
                        let (reply, g) := enforceReply settings g (.of r now monotonic) d
                        (.done reply, {}, g)
                    | none => (.lookup ⟨r, hash, kind, .describe hash⟩, {}, g)
                  else
                    let args := authorizeArgs settings r kind hash isSiteKey
                    (.lookup ⟨r, hash, kind, .authorize args⟩, {}, g)

/-- A status that is refused, and remembered when it cannot turn back. -/
def terminalEffects (l : Lookup) (status : AuthorizeStatus) : Effects :=
  if status ∈ TERMINAL_STATUSES then
    { refusal := some (l.hash, status), failure := l.request.client }
  else {}

def authorizationVerdict (l : Lookup) (now : ℕ) (result : Authorization) :
    Except ApiError Principal :=
  let retryAfter := fun fallback : ℕ =>
    result.rateLimit.elim fallback fun limit => max 1 (limit.reset - now / 1000)
  match result.status, result.principal with
  | .ok, some principal => .ok principal
  | .rateLimited, _ =>
      .error (tooManyRequests (result.rateLimit.map RateLimitState.limit) (retryAfter 60))
  | .quotaExceeded, _ => .error (quotaExhausted (retryAfter 3600))
  | .endpointNotAllowed, _ => .error (endpointNotAllowed (result.allowedEndpoints.getD []))
  | status, _ => .error (refusal status l.kind)

/-- `require_api_key` from the reply to its gateway call on. -/
def Gate.conclude (settings : AccessSettings) (g : Gate) (now : ℕ) (monotonic : ℚ) (l : Lookup)
    (answer : Answer) : Reply × Effects × Gate :=
  match l.txn with
  | .describe hash =>
      match describeAnswer answer with
      | none => (refuse serviceUnavailable, {}, g)
      | some (.error status) => (refuse (refusal status .key), terminalEffects l status, g)
      | some (.ok d) =>
          let g := { g with app := { g.app with keyCache := g.app.keyCache.set hash d monotonic } }
          let (reply, g) := enforceReply settings g (.of l.request now monotonic) d
          (reply, {}, g)
  | _ =>
      match gatewayAuthorize answer with
      | none => (refuse serviceUnavailable, {}, g)
      | some result =>
          let state : RequestState := ⟨result.principal, result.rateLimit⟩
          (⟨authorizationVerdict l now result, state⟩, terminalEffects l result.status, g)

/-- `known_bad.put` and `limiter.record_failure`. -/
def Gate.remember (g : Gate) (now : ℕ) (monotonic : ℚ) (e : Effects) : Gate :=
  let g := match e.refusal with
    | some (hash, status) => { g with knownBad := g.knownBad.put hash status monotonic }
    | none => g
  match e.failure with
  | some client => { g with failedAuth := g.failedAuth.recordFailure client now }
  | none => g

/-! ### The system -/

/-- A gateway call; Convex may commit it also after the request has given it up. -/
structure GatewayCall where
  lookup : Lookup
  committed : Option (ℕ × Answer) := none
  waiting : Bool := true

structure AccessSystem where
  gate : Gate
  calls : List GatewayCall := []
  db : Db := {}

inductive AccessEvent where
  | arrive (now : ℕ) (monotonic : ℚ) (r : ApiRequest)
  | commit (now i : ℕ)
  | receive (now : ℕ) (monotonic : ℚ) (i : ℕ)
  /-- A gateway call ends in `ConvexGatewayError`. -/
  | fail (i : ℕ)
  /-- Any other transaction of Convex. -/
  | call (c : Call)

/-- The reply that a step gives to a request, and what it remembers. -/
structure AccessReply where
  reply : Option Reply := none
  effects : Effects := {}

def AccessSystem.step (P : PyText) (settings : AccessSettings) (env : ProcessEnv)
    (s : AccessSystem) : AccessEvent → AccessReply × AccessSystem
  | .arrive now monotonic r =>
      let (arrival, effects, gate) := s.gate.arrive P settings now monotonic r
      let s := { s with gate := gate.remember now monotonic effects }
      match arrival with
      | .done reply => (⟨some reply, effects⟩, s)
      | .lookup l => (⟨none, effects⟩, { s with calls := s.calls ++ [{ lookup := l }] })
  | .commit now i =>
      match s.calls[i]? with
      | some { lookup, committed := none, waiting } =>
          let (answer, db) := Call.run env s.db ⟨now, lookup.txn⟩
          let call := { lookup, committed := some (now, answer), waiting }
          ({}, { s with db, calls := s.calls.set i call })
      | _ => ({}, s)
  | .receive now monotonic i =>
      match s.calls[i]? with
      | some { lookup, committed := some (at', answer), waiting := true } =>
          let (reply, effects, gate) := s.gate.conclude settings now monotonic lookup answer
          let call := { lookup, committed := some (at', answer), waiting := false }
          (⟨some reply, effects⟩, { s with
            gate := gate.remember now monotonic effects
            calls := s.calls.set i call })
      | _ => ({}, s)
  | .fail i =>
      match s.calls[i]? with
      | some { lookup, committed, waiting := true } =>
          (⟨some (refuse serviceUnavailable), {}⟩,
            { s with calls := s.calls.set i { lookup, committed, waiting := false } })
      | _ => ({}, s)
  | .call c => ({}, { s with db := (c.run env s.db).2 })

end GeoPlatform.Api
