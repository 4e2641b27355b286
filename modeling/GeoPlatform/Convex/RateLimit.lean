import GeoPlatform.Convex.Schema
import Mathlib.Data.List.Sort

/-! Fixed-window counters, the anonymous demo and the cleanup job (`gateway.ts`,
`maintenance.ts`). -/
namespace GeoPlatform.Convex
open Docs

structure RateLimitState where
  limit : ℚ
  remaining : ℚ
  reset : ℕ
  allowed : Bool
  deriving DecidableEq, Repr

def MAX_LIMIT : ℕ := 100000

/-- `none` stands for an undefined or non-finite value. -/
def clampLimit (value : Option ℚ) (fallback : ℕ) : ℕ :=
  match value with
  | some v => if 1 ≤ v then min ⌊v⌋₊ MAX_LIMIT else fallback
  | none => fallback

/-- `/^[0-9a-fA-F:./]{2,48}$/`. -/
def ipPattern (s : String) : Bool :=
  2 ≤ s.length && s.length ≤ 48 && s.toList.all fun c =>
    c.isDigit || ('a' ≤ c && c ≤ 'f') || ('A' ≤ c && c ≤ 'F') || c = ':' || c = '.' || c = '/'

structure Hit where
  bucket : String
  limit : ℚ
  durationMs : ℕ
  cost : ℕ
  deriving DecidableEq, Repr

/-- One request against the per-minute counter of a bucket. -/
def hit (bucket : String) (limit : ℚ) : Hit := ⟨bucket, limit, MINUTE_MS, 1⟩

def isWindow (bucket : String) (start : ℕ) (w : RateLimitWindow) : Bool :=
  w.bucket = bucket && w.windowStart = start

def rateLimitState (h : Hit) (start count : ℕ) : RateLimitState where
  limit := h.limit
  remaining := max 0 (h.limit - count)
  reset := (start + h.durationMs) / 1000
  allowed := (count : ℚ) ≤ h.limit

def hitWindow (t : Table RateLimitWindow) (now : ℕ) (h : Hit) :
    Except TxError (RateLimitState × Table RateLimitWindow) :=
  let start := windowStart now h.durationMs
  match t.unique (isWindow h.bucket start) with
  | .several => .error .notUnique
  | .one d =>
      let count := d.val.count + h.cost
      .ok (rateLimitState h start count, t.patch d.id fun w => { w with count })
  | .none => .ok (rateLimitState h start h.cost, t.insert ⟨h.bucket, start, h.cost⟩)

/-- The hits of one call, in order. -/
def hitAll (t : Table RateLimitWindow) (now : ℕ) :
    List Hit → Except TxError (List RateLimitState × Table RateLimitWindow)
  | [] => .ok ([], t)
  | h :: hs => do
      let (state, t) ← hitWindow t now h
      let (states, t) ← hitAll t now hs
      return (state :: states, t)

/-- The order of `combine`: refusals first, then by what remains. -/
def bindsBefore (a b : RateLimitState) : Bool :=
  if a.allowed = b.allowed then a.remaining ≤ b.remaining else !a.allowed

/-- The most restrictive of several limits; refused if any is exceeded. -/
def combine (states : List RateLimitState) : RateLimitState :=
  let allowed := states.all RateLimitState.allowed
  match states.insertionSort fun a b => bindsBefore a b with
  | [] => ⟨0, 0, 0, allowed⟩
  | binding :: _ => { binding with allowed }

structure RateLimitReply where
  limit : ℚ
  remaining : ℚ
  reset : ℕ
  deriving DecidableEq, Repr

def RateLimitState.reply (s : RateLimitState) : RateLimitReply := ⟨s.limit, s.remaining, s.reset⟩

/-! ### The anonymous demo -/

/-- The arguments reach the function checked to be finite; a limit that is not is `none`. -/
structure DemoArgs where
  clientIp : String
  endpoint : String
  cost : ℚ
  minuteLimit : Option ℚ
  hourLimit : Option ℚ
  globalMinuteLimit : Option ℚ
  deriving DecidableEq, Repr

inductive DemoStatus where
  | ok | rateLimited
  deriving DecidableEq, Repr

structure DemoReply where
  status : DemoStatus
  rateLimit : RateLimitReply
  deriving DecidableEq, Repr

/-- The clamped cost of a demo call. -/
def demoCost (cost : ℚ) : ℕ := min 100 (max 1 ⌊cost⌋).toNat

def demoEndpoint (endpoint : String) : String :=
  if isApiEndpoint (some endpoint) then endpoint
  else if endpoint = "reverse" then "reverse" else "unknown"

/-- The address a demo call is limited under. -/
def demoAddress (clientIp : String) : String :=
  if ipPattern clientIp then clientIp else "unknown"

def demoIpHash (env : ProcessEnv) (secret clientIp : String) : String :=
  slice 32 (env.hmacSha256Hex secret ("demo:" ++ demoAddress clientIp))

def demoHourBucket (ipHash : String) : String := "demo:ip:" ++ ipHash ++ ":hour"

/-- The four hits of a demo call. -/
def demoHits (ipHash : String) (args : DemoArgs) : List Hit :=
  let endpoint := demoEndpoint args.endpoint
  let cost := demoCost args.cost
  let minuteLimit := clampLimit args.minuteLimit 20
  let hourLimit := clampLimit args.hourLimit 100
  let globalLimit := clampLimit args.globalMinuteLimit 5000
  [⟨"demo:ip:" ++ ipHash ++ ":minute", minuteLimit, MINUTE_MS, cost⟩,
    ⟨demoHourBucket ipHash, hourLimit, 60 * MINUTE_MS, cost⟩,
    ⟨"demo:ip:" ++ ipHash ++ ":" ++ endpoint ++ ":minute", minuteLimit, MINUTE_MS, cost⟩,
    ⟨"demo:global:minute", globalLimit, MINUTE_MS, cost⟩]

def authorizeDemo (env : ProcessEnv) (now : ℕ) (args : DemoArgs) (db : Db) :
    Except TxError (DemoReply × Db) := do
  let secret ← env.gatewaySecret
  let (states, windows) ← hitAll db.rateLimitWindows now
    (demoHits (demoIpHash env secret args.clientIp) args)
  let state := combine states
  let db := { db with rateLimitWindows := windows }
  let status := if state.allowed then .ok else .rateLimited
  let db := if state.allowed then db else
    writeAudit db now "demo_rate_limit_violation" .WARNING .failure none none
      (some (demoEndpoint args.endpoint))
  return (⟨status, state.reply⟩, db)

/-! ### The cleanup job -/

def BATCH : ℕ := 1000

/-- Index order: by the indexed instant, then by creation. -/
def indexBefore {α : Type} (time : α → ℚ) (a b : Doc α) : Bool :=
  time a.val < time b.val || (time a.val = time b.val && a.id ≤ b.id)

/-- The first `BATCH` expired documents in index order. -/
def expiredBatch {α : Type} (t : Table α) (time : α → ℚ) (cutoff : ℚ) : List (Doc α) :=
  ((t.query fun a => time a < cutoff).insertionSort fun a b => indexBefore time a b).take BATCH

def windowCutoff (now : ℕ) : ℚ := (now : ℚ) - 5 * MINUTE_MS

def expiredWindows (db : Db) (now : ℕ) : List (Doc RateLimitWindow) :=
  expiredBatch db.rateLimitWindows (fun w => w.windowStart) (windowCutoff now)

structure PruneReply where
  windows : ℕ
  tokens : ℕ
  requests : ℕ
  quotas : ℕ
  audit : ℕ
  /-- A full batch schedules the next run at once. -/
  again : Bool
  deriving DecidableEq, Repr

def prune (env : ProcessEnv) (now : ℕ) (db : Db) : PruneReply × Db :=
  let windows := expiredWindows db now
  let tokens := expiredBatch db.playgroundTokens (fun t => t.expiresAt) now
  let requests := expiredBatch db.apiRequests (fun r => r.timestamp)
    ((now : ℚ) - env.usageRetentionDays * DAY_MS)
  let quotas := expiredBatch db.quotaWindows (fun q => q.periodStart)
    ((now : ℚ) - 400 * DAY_MS)
  let audit := expiredBatch db.securityAuditEvents (fun e => e.timestamp)
    ((now : ℚ) - env.auditRetentionDays * DAY_MS)
  let counts := [windows.length, tokens.length, requests.length, quotas.length, audit.length]
  (⟨windows.length, tokens.length, requests.length, quotas.length, audit.length,
      counts.contains BATCH⟩,
    { db with
      rateLimitWindows := db.rateLimitWindows.delete (windows.map Doc.id)
      playgroundTokens := db.playgroundTokens.delete (tokens.map Doc.id)
      apiRequests := db.apiRequests.delete (requests.map Doc.id)
      quotaWindows := db.quotaWindows.delete (quotas.map Doc.id)
      securityAuditEvents := db.securityAuditEvents.delete (audit.map Doc.id) })

end GeoPlatform.Convex
