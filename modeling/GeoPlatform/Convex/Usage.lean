import GeoPlatform.Library.OrderedMap
import GeoPlatform.Convex.Schema

/-! Usage records and daily rollups (`recordUsage` in `gateway.ts`). -/
namespace GeoPlatform.Convex
open Docs

/-- A number is `none` when it is not finite. -/
structure UsageEntry where
  keyId : String
  userId : String
  endpoint : String
  method : String
  statusCode : Option ℚ
  responseTimeMs : Option ℚ
  timestamp : Option ℚ
  deriving DecidableEq, Repr

def FAILED_STATUS_FROM : ℕ := 400
def MAX_USAGE_ENTRIES : ℕ := 200
def ENDPOINT_PATHS : List String := API_ENDPOINTS.map fun e => "/v1/" ++ e.name
def METHODS : List String := ["GET", "HEAD"]
def MAX_RECORD_AGE_MS : ℕ := 24 * 60 * MINUTE_MS
def MAX_CLOCK_SKEW_MS : ℕ := 5 * MINUTE_MS
def MAX_RESPONSE_TIME_MS : ℕ := 10 * MINUTE_MS

/-- The UTC day of an instant; a fraction of a millisecond is cut off. -/
def utcDay (timestamp : ℚ) : UtcDate := utcDate ⌊timestamp⌋₊

/-- `normalizeId` and `get` for a key id that arrives as a string. -/
def keyByIdString (keys : Table ApiKey) (s : String) : Option (Doc ApiKey) :=
  keys.docs.find? fun d => toString d.id = s

/-- A record that is kept, with the values it is stored under. -/
structure Accepted where
  key : Doc ApiKey
  endpoint : String
  method : String
  statusCode : ℕ
  responseTimeMs : ℕ
  timestamp : ℚ
  deriving DecidableEq, Repr

/-- The integer a plausible status code is. -/
def plausibleStatus (status : Option ℚ) : Option ℕ :=
  match status with
  | some q => if q.den = 1 ∧ 100 ≤ q ∧ q ≤ 599 then some q.num.toNat else none
  | none => none

/-- The stored instant of a plausible timestamp: not a day old, not five minutes ahead, and
never after `now`. -/
def plausibleTimestamp (now : ℕ) (timestamp : Option ℚ) : Option ℚ :=
  match timestamp with
  | some t =>
      if t < (now : ℚ) - MAX_RECORD_AGE_MS ∨ (now : ℚ) + MAX_CLOCK_SKEW_MS < t then none
      else some (min t now)
  | none => none

/-- The stored duration, rounded and clamped; zero for a number that is not finite. -/
def storedResponseTime (responseTimeMs : Option ℚ) : ℕ :=
  match responseTimeMs with
  | some r => min MAX_RESPONSE_TIME_MS (max 0 ⌊r + 1 / 2⌋).toNat
  | none => 0

/-- The `continue` conditions of the loop; they have no effect of their own. -/
def acceptEntry (now : ℕ) (key : Option (Doc ApiKey)) (entry : UsageEntry) : Option Accepted := do
  let key ← key
  guard (toString key.val.userId = entry.userId)
  guard (ENDPOINT_PATHS.contains entry.endpoint ∧ METHODS.contains entry.method)
  let statusCode ← plausibleStatus entry.statusCode
  let timestamp ← plausibleTimestamp now entry.timestamp
  return ⟨key, entry.endpoint, entry.method, statusCode, storedResponseTime entry.responseTimeMs,
    timestamp⟩

structure RollupKey where
  apiKeyId : ℕ
  endpoint : String
  day : UtcDate
  deriving DecidableEq, Repr

def Accepted.rollupKey (a : Accepted) : RollupKey := ⟨a.key.id, a.endpoint, utcDay a.timestamp⟩

def Accepted.failed (a : Accepted) : Bool := FAILED_STATUS_FROM ≤ a.statusCode

def Accepted.request (a : Accepted) : ApiRequest :=
  ⟨a.key.id, a.key.val.userId, a.endpoint, a.method, a.statusCode, a.responseTimeMs, a.timestamp⟩

/-- One accepted record added to its rollup. -/
def addToRollup (a : Accepted) (r : UsageDaily) : UsageDaily :=
  { r with
    total := r.total + 1
    failed := r.failed + if a.failed then 1 else 0
    successful := r.successful + if a.failed then 0 else 1
    totalResponseTimeMs := r.totalResponseTimeMs + a.responseTimeMs }

def emptyRollup (a : Accepted) : UsageDaily :=
  ⟨a.key.val.userId, a.key.id, a.endpoint, utcDay a.timestamp, 0, 0, 0, 0⟩

/-- The local state of the loop over a batch. -/
structure UsageLoop where
  keys : List (String × Option (Doc ApiKey)) := []
  lastUsed : List (ℕ × ℚ) := []
  rollups : List (RollupKey × UsageDaily) := []
  written : ℕ := 0
  apiRequests : Table ApiRequest

def cachedKeys (db : Db) (st : UsageLoop) (entry : UsageEntry) :
    List (String × Option (Doc ApiKey)) :=
  if (OrderedMap.get? st.keys entry.keyId).isSome then st.keys
  else OrderedMap.set st.keys entry.keyId (keyByIdString db.apiKeys entry.keyId)

def usageStep (db : Db) (now : ℕ) (st : UsageLoop) (entry : UsageEntry) : UsageLoop :=
  let keys := cachedKeys db st entry
  match acceptEntry now ((OrderedMap.get? keys entry.keyId).join) entry with
  | none => { st with keys }
  | some a =>
      let rollup := (OrderedMap.get? st.rollups a.rollupKey).getD (emptyRollup a)
      { keys
        lastUsed := OrderedMap.set st.lastUsed a.key.id
          (max ((OrderedMap.get? st.lastUsed a.key.id).getD 0) a.timestamp)
        rollups := OrderedMap.set st.rollups a.rollupKey (addToRollup a rollup)
        written := st.written + 1
        apiRequests := st.apiRequests.insert a.request }

def isUsageRow (k : RollupKey) (r : UsageDaily) : Bool :=
  r.apiKeyId = k.apiKeyId && r.endpoint = k.endpoint && r.day = k.day

/-- The patch of a stored row `d` by a rollup of the batch. -/
def mergedRow (d rollup r : UsageDaily) : UsageDaily :=
  { r with
    total := d.total + rollup.total
    successful := d.successful + rollup.successful
    failed := d.failed + rollup.failed
    totalResponseTimeMs := d.totalResponseTimeMs + rollup.totalResponseTimeMs }

/-- Merge one rollup of the batch into its stored row. -/
def mergeRollup (t : Table UsageDaily) (k : RollupKey) (rollup : UsageDaily) :
    Except TxError (Table UsageDaily) :=
  match t.unique (isUsageRow k) with
  | .several => .error .notUnique
  | .one d => .ok (t.patch d.id (mergedRow d.val rollup))
  | .none => .ok (t.insert rollup)

def mergeRollups (t : Table UsageDaily) :
    List (RollupKey × UsageDaily) → Except TxError (Table UsageDaily)
  | [] => .ok t
  | (k, r) :: rest => do
      let t ← mergeRollup t k r
      mergeRollups t rest

/-- `lastUsedAt` moves forward only; the cached document is the one compared with. -/
def touchKey (keys : List (String × Option (Doc ApiKey))) (t : Table ApiKey) (e : ℕ × ℚ) :
    Table ApiKey :=
  match (OrderedMap.get? keys (toString e.1)).join with
  | some key =>
      if key.val.lastUsedAt.getD 0 < e.2 then
        t.patch e.1 fun k => { k with lastUsedAt := some e.2 }
      else t
  | none => t

structure UsageReply where
  written : ℕ
  dropped : ℕ
  deriving DecidableEq, Repr

def recordUsage (now : ℕ) (entries : List UsageEntry) (db : Db) :
    Except TxError (UsageReply × Db) := do
  let st := (entries.take MAX_USAGE_ENTRIES).foldl (usageStep db now)
    { apiRequests := db.apiRequests }
  let usageDaily ← mergeRollups db.usageDaily st.rollups
  return (⟨st.written, entries.length - st.written⟩,
    { db with
      apiRequests := st.apiRequests
      usageDaily
      apiKeys := st.lastUsed.foldl (touchKey st.keys) db.apiKeys })

end GeoPlatform.Convex
