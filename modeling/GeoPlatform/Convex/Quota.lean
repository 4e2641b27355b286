import GeoPlatform.Convex.RateLimit

/-! Customer quotas (`consumeCustomerQuotas` in `gateway.ts`): five windows are checked in one
pass and written in another, so a refusal consumes nothing. -/
namespace GeoPlatform.Convex
open Docs

structure QuotaPeriod where
  start : ℕ
  reset : ℕ
  deriving DecidableEq, Repr

def quotaPeriod (now : ℕ) (period : Period) : QuotaPeriod :=
  let date := utcDate now
  match period with
  | .day =>
      let start := dateUTC date.fullYear date.month date.date
      ⟨start, start + 24 * 60 * MINUTE_MS⟩
  | .month => ⟨dateUTC date.fullYear date.month 1, dateUTC date.fullYear (date.month + 1) 1⟩

structure QuotaSpec where
  bucket : String
  period : Period
  limit : ℕ
  deriving DecidableEq, Repr

/-- Free traffic keeps its windows apart from paid traffic. -/
def quotaPrefix (plan : Option PaidPlan) : String := if plan.isSome then "" else "free:"

def keyQuotaBucket (plan : Option PaidPlan) (keyId : ℕ) : String :=
  quotaPrefix plan ++ ("key:" ++ toString keyId)

def tenantQuotaBucket (plan : Option PaidPlan) (userId : ℕ) : String :=
  quotaPrefix plan ++ ("tenant:" ++ toString userId)

def endpointQuotaBucket (plan : Option PaidPlan) (userId : ℕ) (endpoint : String) : String :=
  quotaPrefix plan ++ ("tenant:" ++ toString userId ++ ":endpoint:" ++ endpoint)

/-- The endpoint a request is accounted under. -/
def endpointName (endpoint : Option String) : String :=
  if isApiEndpoint endpoint then endpoint.getD "unknown" else "unknown"

def quotaSpecs (env : ProcessEnv) (keyId userId : ℕ) (endpoint : Option String)
    (plan : Option PaidPlan) : List QuotaSpec :=
  let planQuota := match plan with
    | some p => p.monthlyRequests
    | none => FREE_TOTAL_REQUESTS
  let bounded := fun configured : ℕ => if plan.isSome then planQuota else min planQuota configured
  [⟨keyQuotaBucket plan keyId, .day, bounded env.keyDailyQuotaUnits⟩,
    ⟨keyQuotaBucket plan keyId, .month, bounded env.keyMonthlyQuotaUnits⟩,
    ⟨tenantQuotaBucket plan userId, .day, bounded env.tenantDailyQuotaUnits⟩,
    ⟨tenantQuotaBucket plan userId, .month, bounded env.tenantMonthlyQuotaUnits⟩,
    ⟨endpointQuotaBucket plan userId (endpointName endpoint), .month,
      bounded env.endpointMonthlyQuotaUnits⟩]

structure QuotaCheck where
  spec : QuotaSpec
  start : ℕ
  reset : ℕ
  existing : Option (Doc QuotaWindow)
  next : ℕ
  allowed : Bool
  deriving DecidableEq

def isQuota (bucket : String) (period : Period) (start : ℕ) (q : QuotaWindow) : Bool :=
  q.bucket = bucket && q.period = period && q.periodStart = start

/-- One step of the first pass; every request costs one unit. -/
def checkQuota (t : Table QuotaWindow) (now : ℕ) (spec : QuotaSpec) :
    Except TxError QuotaCheck :=
  let p := quotaPeriod now spec.period
  match t.unique (isQuota spec.bucket spec.period p.start) with
  | .several => .error .notUnique
  | .one d => .ok ⟨spec, p.start, p.reset, some d, d.val.units + 1, d.val.units + 1 ≤ spec.limit⟩
  | .none => .ok ⟨spec, p.start, p.reset, none, 1, 1 ≤ spec.limit⟩

def checkQuotas (t : Table QuotaWindow) (now : ℕ) :
    List QuotaSpec → Except TxError (List QuotaCheck)
  | [] => .ok []
  | spec :: specs => do
      let c ← checkQuota t now spec
      let cs ← checkQuotas t now specs
      return c :: cs

def QuotaCheck.state (c : QuotaCheck) : RateLimitState where
  limit := c.spec.limit
  remaining := if c.allowed then max 0 ((c.spec.limit : ℚ) - c.next) else 0
  reset := c.reset / 1000
  allowed := c.allowed

/-- One step of the second pass. -/
def writeQuota (t : Table QuotaWindow) (c : QuotaCheck) : Table QuotaWindow :=
  match c.existing with
  | some d => t.patch d.id fun q => { q with units := c.next }
  | none => t.insert ⟨c.spec.bucket, c.spec.period, c.start, c.next⟩

def consumeCustomerQuotas (env : ProcessEnv) (t : Table QuotaWindow) (now keyId userId : ℕ)
    (endpoint : Option String) (plan : Option PaidPlan) :
    Except TxError (RateLimitState × Table QuotaWindow) := do
  let checked ← checkQuotas t now (quotaSpecs env keyId userId endpoint plan)
  let combined := combine (checked.map QuotaCheck.state)
  if combined.allowed then return (combined, checked.foldl writeQuota t)
  else return (combined, t)

end GeoPlatform.Convex
