import GeoPlatform.Convex.Quota

/-! The gateway's `describe` and `authorize` (`gateway.ts`). -/
namespace GeoPlatform.Convex
open Docs

inductive CredentialKind where
  | key | playground
  deriving DecidableEq, Repr

/-- The limits are `none` when absent or not finite. -/
structure AuthorizeArgs where
  kind : CredentialKind
  hash : String
  endpoint : Option String
  defaultLimit : Option ℚ
  clientIp : Option String := none
  perIpLimit : Option ℚ := none
  deriving DecidableEq, Repr

inductive AuthorizeStatus where
  | ok | invalid | expired | revoked | paymentRequired | endpointNotAllowed | rateLimited
  | quotaExceeded
  deriving DecidableEq, Repr

structure Principal where
  keyId : ℕ
  userId : ℕ
  tenantId : ℕ
  projectId : ℕ
  isSiteKey : Bool
  viaPlayground : Bool
  deriving DecidableEq, Repr

structure AuthorizeReply where
  status : AuthorizeStatus
  principal : Option Principal := none
  rateLimit : Option RateLimitReply := none
  allowedEndpoints : Option (List ApiEndpoint) := none
  deriving DecidableEq, Repr

/-- A reply given before anything is counted, with the audit event that goes with it. -/
structure Refusal where
  reply : AuthorizeReply
  event : String
  severity : AuditSeverity
  tenantId : Option ℕ := none
  apiKeyId : Option ℕ := none
  detail : String

inductive Stop where
  | throw (e : TxError)
  | refuse (r : Refusal)

def isKeyHash (hash : String) (k : ApiKey) : Bool := k.keyHash = hash

def isTokenHash (hash : String) (t : PlaygroundToken) : Bool := t.tokenHash = hash

/-- The refusal of a credential that leads to no key. -/
def unknownCredential (status : AuthorizeStatus) (severity : AuditSeverity) (detail : String) :
    Stop :=
  .refuse { reply := { status }, event := "api_authentication_failed", severity, detail }

/-- The key a credential stands for, and whether a playground token led to it. -/
def findKey (db : Db) (now : ℕ) (args : AuthorizeArgs) : Except Stop (Doc ApiKey × Bool) :=
  match args.kind with
  | .playground =>
      match db.playgroundTokens.unique (isTokenHash args.hash) with
      | .several => .error (.throw .notUnique)
      | .none => .error (unknownCredential .invalid .WARNING "invalid")
      | .one token =>
          if token.val.expiresAt ≤ now then .error (unknownCredential .expired .INFO "expired")
          else match db.apiKeys.get token.val.apiKeyId with
            | none => .error (unknownCredential .invalid .HIGH "token_binding")
            | some key =>
                if key.userId ≠ token.val.userId then
                  .error (unknownCredential .invalid .HIGH "token_binding")
                else .ok (⟨token.val.apiKeyId, key⟩, true)
  | .key =>
      match db.apiKeys.unique (isKeyHash args.hash) with
      | .several => .error (.throw .notUnique)
      | .none => .error (unknownCredential .invalid .WARNING "invalid")
      | .one key => .ok (key, false)

/-- A refusal recorded against the key and its owner. -/
def keyRefusal (key : Doc ApiKey) (reply : AuthorizeReply) (event : String)
    (severity : AuditSeverity) (detail : String) : Stop :=
  .refuse { reply, event, severity, tenantId := some key.val.userId, apiKeyId := some key.id,
            detail }

/-- Revocation, expiry and the owner account, in this order. -/
def checkKey (db : Db) (now : ℕ) (key : Doc ApiKey) : Except Stop User :=
  if key.val.revokedAt.isSome then
    .error (keyRefusal key { status := .revoked } "api_authentication_failed" .WARNING "revoked")
  else if key.val.expiresAt.any (· ≤ now) then
    .error (keyRefusal key { status := .expired } "api_authentication_failed" .INFO "expired")
  else match db.users.get key.val.userId with
    | none => .error (keyRefusal key { status := .revoked } "api_authentication_failed" .HIGH
        "tenant_disabled")
    | some owner =>
        if owner.disabledAt.isSome then
          .error (keyRefusal key { status := .revoked } "api_authentication_failed" .HIGH
            "tenant_disabled")
        else .ok owner

/-- What `authorize` knows once a request may be counted. -/
structure Admission where
  key : Doc ApiKey
  owner : User
  viaPlayground : Bool
  isSiteKey : Bool
  plan : Option PaidPlan
  deriving DecidableEq, Repr

def Admission.principal (a : Admission) : Principal :=
  ⟨a.key.id, a.key.val.userId, a.key.val.userId, a.key.id, a.isSiteKey, a.viaPlayground⟩

/-- The per-minute rate of the account's plan; the site key has none. -/
def Admission.planRate (a : Admission) : Option ℕ :=
  match a.plan with
  | some plan => some plan.requestsPerMinute
  | none => if a.isSiteKey then none else some FREE_RATE_LIMIT_PER_MINUTE

/-- Plan or free allowance, then the key's endpoint scope. -/
def checkScope (now : ℕ) (args : AuthorizeArgs) (key : Doc ApiKey) (viaPlayground : Bool)
    (owner : User) : Except Stop Admission :=
  let isSiteKey := key.val.isSiteKey && !viaPlayground
  let plan := if isSiteKey then none else activePlan owner now
  if !isSiteKey && !hasKeyAccess owner now then
    .error (keyRefusal key { status := .paymentRequired } "api_authorization_failed" .INFO
      "payment_required")
  else
    let a : Admission := ⟨key, owner, viaPlayground, isSiteKey, plan⟩
    match key.val.endpoints with
    | none => .ok a
    | some endpoints =>
        let allowed := normalizeEndpoints (endpoints.map StoredEndpoint.name)
        if allowed.any fun e => some e.name = args.endpoint then .ok a
        else .error (keyRefusal key
          { status := .endpointNotAllowed, principal := some a.principal,
            allowedEndpoints := some allowed }
          "api_authorization_failed" .HIGH (args.endpoint.getD "missing_scope"))

def admission (db : Db) (now : ℕ) (args : AuthorizeArgs) : Except Stop Admission := do
  let (key, viaPlayground) ← findKey db now args
  let owner ← checkKey db now key
  checkScope now args key viaPlayground owner

/-! ### Buckets -/

def keyBucket (keyId : ℕ) : String := "key:" ++ toString keyId

def userBucket (userId : ℕ) : String := "user:" ++ toString userId

def endpointBucket (keyId : ℕ) (endpoint : Option String) : String :=
  "key:" ++ toString keyId ++ ":endpoint:" ++ endpoint.getD "unknown"

def globalBucket : String := "customer:global"

def ipBucket (ipHash : String) : String := "ip:" ++ ipHash

/-- The address a site-key request is limited under. -/
def visitorAddress (clientIp : Option String) : String :=
  match clientIp with
  | some ip => if ip ≠ "" ∧ ipPattern ip then ip else "unknown"
  | none => "unknown"

def visitorHash (env : ProcessEnv) (secret : String) (clientIp : Option String) : String :=
  slice 32 (env.hmacSha256Hex secret ("ip:" ++ visitorAddress clientIp))

def perIpLimit (args : AuthorizeArgs) : ℕ := clampLimit args.perIpLimit 60

/-- The per-minute limit of the key's own bucket. -/
def perKeyLimit (args : AuthorizeArgs) (a : Admission) : ℕ :=
  if a.isSiteKey then clampLimit a.key.val.rateLimitPerMinute 10000
  else a.planRate.getD
    (clampLimit a.key.val.rateLimitPerMinute (clampLimit args.defaultLimit 100))

def perAccountLimit (env : ProcessEnv) (args : AuthorizeArgs) (a : Admission) : ℚ :=
  match a.planRate with
  | some rate => rate
  | none => max (perKeyLimit args a) env.accountRateLimitPerMinute

def perEndpointLimit (env : ProcessEnv) (args : AuthorizeArgs) (a : Admission) : ℚ :=
  let rate : ℚ := match a.planRate with
    | some rate => rate
    | none => env.endpointRateLimitPerMinute
  if args.endpoint = some "route" then
    min (min (perKeyLimit args a : ℚ) rate) env.routeRateLimitPerMinute
  else min (perKeyLimit args a) rate

/-- The buckets one request is counted in, with their limits. -/
def buckets (env : ProcessEnv) (args : AuthorizeArgs) (a : Admission) :
    Except TxError (List (String × ℚ)) :=
  if a.isSiteKey then do
    let secret ← env.gatewaySecret
    let ipHash := visitorHash env secret args.clientIp
    let perIp := perIpLimit args
    return [(ipBucket ipHash, (perIp : ℚ)), (keyBucket a.key.id, (perKeyLimit args a : ℚ))] ++
      if args.endpoint = some "route" then
        [("ip:" ++ ipHash ++ ":route", min (perIp : ℚ) env.routeRateLimitPerMinute)]
      else []
  else
    return [(keyBucket a.key.id, (perKeyLimit args a : ℚ)),
      (userBucket a.key.val.userId, perAccountLimit env args a),
      (endpointBucket a.key.id args.endpoint, perEndpointLimit env args a),
      (globalBucket, env.globalRateLimitPerMinute)]

/-! ### Counting -/

/-- The event of a decision made after the buckets were charged. -/
def auditDecision (db : Db) (now : ℕ) (args : AuthorizeArgs) (a : Admission) (event : String)
    (severity : AuditSeverity) (outcome : AuditOutcome) : Db :=
  writeAudit db now event severity outcome (some a.key.val.userId) (some a.key.id) args.endpoint

def countFree (users : Table User) (a : Admission) : Table User :=
  if a.plan = none then
    users.patch a.key.val.userId fun u =>
      { u with freeRequestsUsed := some (a.owner.freeRequestsUsed.getD 0 + 1) }
  else users

/-- Charge every bucket, then the quotas, and answer. -/
def charge (env : ProcessEnv) (now : ℕ) (args : AuthorizeArgs) (db : Db) (a : Admission) :
    Except TxError (AuthorizeReply × Db) := do
  let bs ← buckets env args a
  let (states, windows) ← hitAll db.rateLimitWindows now (bs.map fun b => hit b.1 b.2)
  let state := combine states
  let db := { db with rateLimitWindows := windows }
  if !state.allowed then
    return ({ status := .rateLimited, principal := some a.principal, rateLimit := state.reply },
      auditDecision db now args a "api_rate_limit_violation" .WARNING .failure)
  else
    let ok : AuthorizeReply :=
      { status := .ok, principal := some a.principal, rateLimit := state.reply }
    if a.isSiteKey then
      return (ok, auditDecision db now args a "api_authentication_succeeded" .INFO .success)
    else do
      let (quota, quotas) ← consumeCustomerQuotas env db.quotaWindows now a.key.id
        a.key.val.userId args.endpoint a.plan
      if !quota.allowed then
        return ({ status := .quotaExceeded, principal := some a.principal,
                  rateLimit := quota.reply },
          auditDecision db now args a "api_quota_exhausted" .WARNING .failure)
      else
        let db := { db with quotaWindows := quotas, users := countFree db.users a }
        return (ok, auditDecision db now args a "api_authentication_succeeded" .INFO .success)

def authorize (env : ProcessEnv) (now : ℕ) (args : AuthorizeArgs) (db : Db) :
    Except TxError (AuthorizeReply × Db) :=
  match admission db now args with
  | .error (.throw e) => .error e
  | .error (.refuse r) =>
      .ok (r.reply,
        writeAudit db now r.event r.severity .failure r.tenantId r.apiKeyId (some r.detail))
  | .ok a => charge env now args db a

/-! ### The read-only lookup -/

structure KeyDescription where
  keyId : ℕ
  userId : ℕ
  isSiteKey : Bool
  rateLimitPerMinute : Option ℚ
  accountLimit : ℚ
  routeLimit : ℚ
  endpoints : Option (List ApiEndpoint)
  deriving DecidableEq, Repr

inductive DescribeReply where
  | ok (d : KeyDescription)
  | invalid
  | revoked
  | expired
  | paymentRequired
  deriving DecidableEq, Repr

def describe (env : ProcessEnv) (now : ℕ) (hash : String) (db : Db) :
    Except TxError DescribeReply :=
  match db.apiKeys.unique (isKeyHash hash) with
  | .several => .error .notUnique
  | .none => .ok .invalid
  | .one key =>
      if key.val.revokedAt.isSome then .ok .revoked
      else if key.val.expiresAt.any (· ≤ now) then .ok .expired
      else match db.users.get key.val.userId with
        | none => .ok .revoked
        | some owner =>
            if owner.disabledAt.isSome then .ok .revoked
            else if !key.val.isSiteKey && !hasKeyAccess owner now then .ok .paymentRequired
            else .ok (.ok {
              keyId := key.id
              userId := key.val.userId
              isSiteKey := key.val.isSiteKey
              rateLimitPerMinute := key.val.rateLimitPerMinute
              accountLimit := env.accountRateLimitPerMinute
              routeLimit := env.routeRateLimitPerMinute
              endpoints := key.val.endpoints.map fun es =>
                normalizeEndpoints (es.map StoredEndpoint.name) })

end GeoPlatform.Convex
