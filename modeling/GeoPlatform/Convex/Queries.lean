import GeoPlatform.Convex.Authorize
import GeoPlatform.Convex.Payments
import GeoPlatform.Convex.Usage

/-! The dashboard's queries (`list` of `apiKeys.ts`, `usage.ts`, `myBilling` and `paymentStatus` of
`payments.ts`). A query reads one snapshot and writes nothing. -/
namespace GeoPlatform.Convex
open Docs

/-- A stored document with its `_creationTime`. -/
structure Row (α : Type) where
  id : ℕ
  creationTime : ℚ
  val : α
  deriving DecidableEq, Repr

def stamp {α : Type} (creation : ℕ → ℚ) (d : Doc α) : Row α := ⟨d.id, creation d.id, d.val⟩

/-- The database, with the creation times of the documents whose creation time a query reads. -/
structure Snapshot where
  db : Db
  keyCreation : ℕ → ℚ := fun _ => 0
  requestCreation : ℕ → ℚ := fun _ => 0

/-- A JavaScript number as an argument. -/
inductive JsNumber where
  | nan
  | negInfinity
  | finite (q : ℚ)
  | infinity
  deriving DecidableEq, Repr

/-- `.unique()`. -/
def uniqueDoc {α : Type} (t : Table α) (p : α → Bool) : Except TxError (Option α) :=
  match t.unique p with
  | .none => .ok none
  | .one d => .ok (some d.val)
  | .several => .error .notUnique

/-! ### Days -/

/-- Days compare as their strings do. -/
def UtcDate.le (a b : UtcDate) : Bool :=
  a.fullYear < b.fullYear || (a.fullYear = b.fullYear &&
    (a.month < b.month || (a.month = b.month && a.date ≤ b.date)))

/-- `utcDay(now - days * DAY_MS)`, back to the first day of 1969. -/
def utcDayBefore (now days : ℕ) : UtcDate :=
  if days ≤ now / DAY_MS then utcDate (now - days * DAY_MS)
  else
    let (m, k) := monthOfDay (monthLengths 1969) (365 - (days - now / DAY_MS))
    ⟨1969, m, k + 1⟩

def utcMonthStartDay (timestamp : ℕ) : UtcDate := { utcDate timestamp with date := 1 }

example : utcDayBefore 1709210096000 29 = ⟨2024, 0, 31⟩ ∧ utcDayBefore 0 89 = ⟨1969, 9, 4⟩ := by
  decide +kernel

/-- The daily rows of a user from a day on, in the order of `by_user_day`. -/
def usageSince (db : Db) (userId : ℕ) (day : UtcDate) : List UsageDaily :=
  ((db.usageDaily.query fun r => r.userId = userId && day.le r.day).insertionSort
    fun a b => a.val.day.le b.val.day).map Doc.val

/-- Rows added up under a key each, the keys in the order of their first rows. -/
def tally {κ ν : Type} [DecidableEq κ] (key : UsageDaily → κ) (add : ν → UsageDaily → ν) (empty : ν)
    (rows : List UsageDaily) : List (κ × ν) :=
  rows.foldl (fun m r =>
    OrderedMap.set m (key r) (add ((OrderedMap.get? m (key r)).getD empty) r)) []

/-! ### The keys of an account -/

def MASK : String := "••••••••••••"

def maskedKey (keyPrefix : String) : String := keyPrefix ++ MASK

def USAGE_LOOKBACK_DAYS : ℕ := 30

structure ApiKeySummary where
  id : ℕ
  name : String
  maskedKey : String
  endpoints : List ApiEndpoint
  createdAt : ℚ
  lastUsedAt : Option ℚ
  expiresAt : Option ℕ
  revokedAt : Option ℕ
  rateLimitPerMinute : ℕ
  requestsLast30Days : ℕ
  requestsThisMinute : ℕ
  deriving DecidableEq, Repr

def summarize (key : Row ApiKey) (requests thisMinute rateLimitPerMinute : ℕ) : ApiKeySummary where
  id := key.id
  name := key.val.name
  maskedKey := maskedKey key.val.keyPrefix
  endpoints := match key.val.endpoints with
    | some es => normalizeEndpoints (es.map StoredEndpoint.name)
    | none => API_ENDPOINTS
  createdAt := key.creationTime
  lastUsedAt := key.val.lastUsedAt
  expiresAt := key.val.expiresAt
  revokedAt := key.val.revokedAt
  rateLimitPerMinute := rateLimitPerMinute
  requestsLast30Days := requests
  requestsThisMinute := thisMinute

/-- The order of the dashboard's list: active keys first, then the newest. -/
def listedBefore (a b : ApiKeySummary) : Bool :=
  if a.revokedAt.isNone = b.revokedAt.isNone then b.createdAt ≤ a.createdAt else a.revokedAt.isNone

def keysOf (s : Snapshot) (userId : ℕ) : List (Row ApiKey) :=
  (s.db.apiKeys.query fun k => k.userId = userId).map (stamp s.keyCreation)

/-- The summary of one key, with what it was used in the current minute. -/
def keySummary (db : Db) (now : ℕ) (totals : List (ℕ × ℕ)) (rateLimitPerMinute : ℕ)
    (key : Row ApiKey) : Except TxError ApiKeySummary := do
  let window ← uniqueDoc db.rateLimitWindows
    (isWindow (keyBucket key.id) (windowStart now MINUTE_MS))
  return summarize key ((OrderedMap.get? totals key.id).getD 0)
    ((window.map RateLimitWindow.count).getD 0) rateLimitPerMinute

/-- `list` of `apiKeys.ts`. -/
def ApiKeys.list (s : Snapshot) (now : ℕ) (caller : Caller) :
    Except TxError (List ApiKeySummary) := do
  let userId ← requireUserId s.db now caller
  let user := s.db.users.get userId
  let rateLimitPerMinute := match user.bind fun u => activePlan u now with
    | some plan => plan.requestsPerMinute
    | none => if user.any fun u => hasKeyAccess u now then FREE_RATE_LIMIT_PER_MINUTE else 0
  let daily := usageSince s.db userId (utcDayBefore now (USAGE_LOOKBACK_DAYS - 1))
  let totals := tally UsageDaily.apiKeyId (fun n r => n + r.total) 0 daily
  let summaries ← (keysOf s userId).mapM (keySummary s.db now totals rateLimitPerMinute)
  return summaries.insertionSort fun a b => listedBefore a b

/-! ### Usage -/

structure Counts where
  total : ℕ := 0
  successful : ℕ := 0
  failed : ℕ := 0
  deriving DecidableEq, Repr

def Counts.add (c : Counts) (r : UsageDaily) : Counts :=
  ⟨c.total + r.total, c.successful + r.successful, c.failed + r.failed⟩

structure QuotaUse where
  used : ℕ
  limit : ℕ
  deriving DecidableEq, Repr

structure UsageSummary where
  today : Counts
  month : Counts
  rateLimitPerMinute : ℕ
  activeKeys : ℕ
  totalKeys : ℕ
  daily : QuotaUse
  monthly : QuotaUse
  deriving DecidableEq, Repr

/-- `summary` of `usage.ts`. -/
def Usage.summary (s : Snapshot) (now : ℕ) (caller : Caller) : Except TxError UsageSummary := do
  let userId ← requireUserId s.db now caller
  let user := s.db.users.get userId
  let plan := user.bind fun u => activePlan u now
  let rows := usageSince s.db userId (utcMonthStartDay now)
  let keys := s.db.apiKeys.query fun k => k.userId = userId
  let date := utcDate now
  let bucket := tenantQuotaBucket plan userId
  let dailyQuota ← uniqueDoc s.db.quotaWindows
    (isQuota bucket .day (dateUTC date.fullYear date.month date.date))
  let monthlyQuota ← uniqueDoc s.db.quotaWindows
    (isQuota bucket .month (dateUTC date.fullYear date.month 1))
  let limit := (plan.map PaidPlan.monthlyRequests).getD FREE_TOTAL_REQUESTS
  return {
    today := (rows.filter fun r => r.day = utcDate now).foldl Counts.add {}
    month := rows.foldl Counts.add {}
    rateLimitPerMinute := match plan with
      | some p => p.requestsPerMinute
      | none => if user.any fun u => 0 < freeRequestsRemaining u then FREE_RATE_LIMIT_PER_MINUTE
          else 0
    activeKeys := (keys.filter fun k => k.val.revokedAt.isNone).length
    totalKeys := keys.length
    daily := ⟨(dailyQuota.map QuotaWindow.units).getD 0, limit⟩
    monthly := ⟨if plan.isSome then (monthlyQuota.map QuotaWindow.units).getD 0
      else (user.bind User.freeRequestsUsed).getD 0, limit⟩ }

def MAX_SERIES_DAYS : ℕ := 90

/-- The clamped number of days; `none` is the NaN that a NaN stays. -/
def seriesSpan (days : JsNumber) : Option ℕ :=
  match days with
  | .nan => none
  | .negInfinity => some 1
  | .finite q => some (min (max 1 ⌊q⌋) (MAX_SERIES_DAYS : ℤ)).toNat
  | .infinity => some MAX_SERIES_DAYS

/-- What `toISOString` throws on a NaN. -/
def invalidTime : TxError := .error "Invalid time value"

/-- The rows of the last `span` days, of one key if one is given. -/
def seriesRows (db : Db) (now userId span : ℕ) (keyId : Option ℕ) : List UsageDaily :=
  (usageSince db userId (utcDayBefore now (span - 1))).filter fun r => keyId.all (· = r.apiKeyId)

structure DayCounts where
  day : UtcDate
  counts : Counts
  deriving DecidableEq, Repr

/-- `daily` of `usage.ts`. -/
def Usage.daily (s : Snapshot) (now : ℕ) (caller : Caller) (days : JsNumber) (keyId : Option ℕ) :
    Except TxError (List DayCounts) := do
  let userId ← requireUserId s.db now caller
  match seriesSpan days with
  | none => .error invalidTime
  | some span =>
      let byDay := tally UsageDaily.day Counts.add {} (seriesRows s.db now userId span keyId)
      return (List.range span).map fun i =>
        let day := utcDayBefore now (span - 1 - i)
        ⟨day, (OrderedMap.get? byDay day).getD {}⟩

structure EndpointCounts where
  counts : Counts := {}
  totalResponseTimeMs : ℕ := 0
  deriving DecidableEq, Repr

def EndpointCounts.add (c : EndpointCounts) (r : UsageDaily) : EndpointCounts :=
  ⟨c.counts.add r, c.totalResponseTimeMs + r.totalResponseTimeMs⟩

structure EndpointUsage where
  endpoint : String
  counts : Counts
  avgResponseTimeMs : ℕ
  deriving DecidableEq, Repr

def EndpointCounts.usage (endpoint : String) (c : EndpointCounts) : EndpointUsage where
  endpoint := endpoint
  counts := c.counts
  avgResponseTimeMs :=
    if c.counts.total = 0 then 0
    else ⌊(c.totalResponseTimeMs : ℚ) / c.counts.total + 1 / 2⌋.toNat

/-- `endpoints` of `usage.ts`. -/
def Usage.endpoints (s : Snapshot) (now : ℕ) (caller : Caller) (days : JsNumber)
    (keyId : Option ℕ) : Except TxError (List EndpointUsage) := do
  let userId ← requireUserId s.db now caller
  match seriesSpan days with
  | none => .error invalidTime
  | some span =>
      let byEndpoint := tally UsageDaily.endpoint EndpointCounts.add {}
        (seriesRows s.db now userId span keyId)
      return (byEndpoint.map fun e => e.2.usage e.1).insertionSort
        fun a b => b.counts.total ≤ a.counts.total

/-! ### Recent requests -/

structure PaginationOpts where
  numItems : JsNumber
  cursor : Option String
  endCursor : Option (Option String) := none
  id : Option JsNumber := none
  maximumRowsRead : Option JsNumber := none
  maximumBytesRead : Option JsNumber := none
  deriving DecidableEq, Repr

inductive PageStatus where
  | SplitRecommended | SplitRequired
  deriving DecidableEq, Repr

structure PaginationResult (α : Type) where
  page : List α
  isDone : Bool
  continueCursor : String
  splitCursor : Option String := none
  pageStatus : Option PageStatus := none
  deriving DecidableEq, Repr

/-- The range of `apiRequests` a page is taken from, by its index. -/
inductive RequestRange where
  | by_key_time (apiKeyId : ℕ)
  | by_user_time (userId : ℕ)
  deriving DecidableEq, Repr

def RequestRange.holds (range : RequestRange) (r : ApiRequest) : Bool :=
  match range with
  | .by_key_time apiKeyId => r.apiKeyId = apiKeyId
  | .by_user_time userId => r.userId = userId

/-- Convex's `paginate`: a page of a range, whose rows come newest first. -/
structure Paginator where
  paginate : RequestRange → List (Row ApiRequest) → PaginationOpts →
    Except TxError (PaginationResult (Row ApiRequest))
  mem_of_page : ∀ {range rows opts result}, paginate range rows opts = .ok result →
    ∀ r ∈ result.page, r ∈ rows

def newestFirst (s : Snapshot) (range : RequestRange) : List (Row ApiRequest) :=
  ((s.db.apiRequests.query range.holds).insertionSort
    fun a b => indexBefore ApiRequest.timestamp a b).reverse.map (stamp s.requestCreation)

def MAX_PAGE_SIZE : ℕ := 100

/-- `Math.min(Math.max(1, n), MAX_PAGE_SIZE)`. -/
def pageSize : JsNumber → JsNumber
  | .nan => .nan
  | .negInfinity => .finite 1
  | .finite q => .finite (min (max 1 q) MAX_PAGE_SIZE)
  | .infinity => .finite MAX_PAGE_SIZE

structure RecentRequest where
  id : ℕ
  keyName : String
  endpoint : String
  method : String
  statusCode : ℕ
  responseTimeMs : ℕ
  timestamp : ℚ
  deriving DecidableEq, Repr

/-- A row of the page; the key's name is read at most once for each key. -/
def recentRequest (db : Db) (r : Row ApiRequest) : RecentRequest where
  id := r.id
  keyName := ((db.apiKeys.get r.val.apiKeyId).map ApiKey.name).getD "Deleted key"
  endpoint := r.val.endpoint
  method := r.val.method
  statusCode := r.val.statusCode
  responseTimeMs := r.val.responseTimeMs
  timestamp := r.val.timestamp

/-- The range a caller asked for; a key of someone else is not found. -/
def recentRange (db : Db) (userId : ℕ) (keyId : Option ℕ) : Except TxError RequestRange :=
  match keyId with
  | none => .ok (.by_user_time userId)
  | some keyId => do
      let _ ← requireOwnedKey db keyId userId
      return .by_key_time keyId

/-- `recent` of `usage.ts`. -/
def Usage.recent (p : Paginator) (s : Snapshot) (now : ℕ) (caller : Caller)
    (requested : PaginationOpts) (keyId : Option ℕ) :
    Except TxError (PaginationResult RecentRequest) := do
  let userId ← requireUserId s.db now caller
  let range ← recentRange s.db userId keyId
  let paginationOpts := { requested with numItems := pageSize requested.numItems }
  let page ← p.paginate range (newestFirst s range) paginationOpts
  return { page with
    page := (page.page.filter fun r => r.val.userId = userId).map (recentRequest s.db) }

/-! ### Billing -/

def PLAN_PRICE_MNT : ℕ := 1000

structure PlanLimits where
  monthlyRequests : ℕ
  requestsPerMinute : ℕ
  deriving DecidableEq, Repr

def PaidPlan.limits (plan : PaidPlan) : PlanLimits := ⟨plan.monthlyRequests, plan.requestsPerMinute⟩

def PAID_PLANS : List (PaidPlan × PlanLimits) :=
  [(.starter, PaidPlan.starter.limits), (.essentials, PaidPlan.essentials.limits),
    (.pro, PaidPlan.pro.limits)]

structure FreeTierView where
  activated : Bool
  remaining : ℕ
  total : ℕ
  deriving DecidableEq, Repr

structure PaymentView where
  id : ℕ
  plan : PaidPlan
  status : PaymentStatus
  amountMinor : ℚ
  createdAt : ℕ
  paidAt : Option ℕ
  deriving DecidableEq, Repr

def paymentView (d : Doc Payment) : PaymentView :=
  ⟨d.id, d.val.plan, d.val.status, d.val.amountMinor, d.val.createdAt, d.val.paidAt⟩

structure Billing where
  plan : Option PaidPlan
  planExpiresAt : Option ℕ
  canUseApiKeys : Bool
  freeTier : FreeTierView
  plans : List (PaidPlan × PlanLimits)
  priceMnt : ℕ
  payments : List PaymentView
  deriving DecidableEq, Repr

/-- The twenty newest succeeded payments of a user, newest first. -/
def succeededPayments (db : Db) (userId : ℕ) : List (Doc Payment) :=
  let succeeded := db.payments.query fun p => p.userId = userId && p.status = .succeeded
  ((succeeded.insertionSort fun a b => a.val.createdAt ≤ b.val.createdAt).reverse).take 20

/-- `myBilling` of `payments.ts`. -/
def myBilling (s : Snapshot) (now : ℕ) (caller : Caller) : Except TxError Billing := do
  let userId ← requireUserId s.db now caller
  match s.db.users.get userId with
  | none => .error (.convex "Account not found.")
  | some user =>
      return {
        plan := activePlan user now
        planExpiresAt := if (activePlan user now).isSome then user.planExpiresAt else none
        canUseApiKeys := hasKeyAccess user now
        freeTier := ⟨user.freeTierActivatedAt.isSome, freeRequestsRemaining user,
          FREE_TOTAL_REQUESTS⟩
        plans := PAID_PLANS
        priceMnt := PLAN_PRICE_MNT
        payments := (succeededPayments s.db userId).map paymentView }

/-- `paymentStatus` of `payments.ts`. -/
def paymentStatus (s : Snapshot) (now : ℕ) (caller : Caller) (paymentId : ℕ) :
    Except TxError PaymentStatus := do
  let userId ← requireUserId s.db now caller
  match (s.db.payments.get paymentId).filter fun p => p.userId = userId with
  | none => .error (.convex "Payment not found.")
  | some payment => return payment.status

/-! ### Every query -/

inductive Query where
  | list
  | summary
  | daily (days : JsNumber) (keyId : Option ℕ)
  | endpoints (days : JsNumber) (keyId : Option ℕ)
  | recent (paginationOpts : PaginationOpts) (keyId : Option ℕ)
  | myBilling
  | paymentStatus (paymentId : ℕ)

inductive QueryResult where
  | keys (keys : List ApiKeySummary)
  | summary (summary : UsageSummary)
  | daily (series : List DayCounts)
  | endpoints (rows : List EndpointUsage)
  | recent (page : PaginationResult RecentRequest)
  | billing (billing : Billing)
  | status (status : PaymentStatus)
  deriving DecidableEq

def Query.run (p : Paginator) (s : Snapshot) (now : ℕ) (caller : Caller) :
    Query → Except TxError QueryResult
  | .list => .keys <$> ApiKeys.list s now caller
  | .summary => .summary <$> Usage.summary s now caller
  | .daily days keyId => .daily <$> Usage.daily s now caller days keyId
  | .endpoints days keyId => .endpoints <$> Usage.endpoints s now caller days keyId
  | .recent paginationOpts keyId => .recent <$> Usage.recent p s now caller paginationOpts keyId
  | .myBilling => .billing <$> Convex.myBilling s now caller
  | .paymentStatus paymentId => .status <$> Convex.paymentStatus s now caller paymentId

end GeoPlatform.Convex
