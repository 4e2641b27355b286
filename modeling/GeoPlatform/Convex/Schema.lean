import GeoPlatform.Library.Table
import GeoPlatform.Convex.Values

/-! The Convex data model (`schema.ts`). Fields that no modelled function reads or writes are
left out. An identifier is written in decimal where the source puts it into a string. -/
namespace GeoPlatform.Convex
open Docs

structure User where
  email : Option String := none
  isSystem : Bool := false
  disabledAt : Option ℕ := none
  plan : Option PaidPlan := none
  planExpiresAt : Option ℕ := none
  freeTierActivatedAt : Option ℕ := none
  freeRequestsUsed : Option ℕ := none
  deriving DecidableEq, Repr

structure ApiKey where
  userId : ℕ
  name : String := ""
  keyPrefix : String := ""
  keyHash : String
  endpoints : Option (List StoredEndpoint) := none
  /-- `none` when undefined or not finite. -/
  rateLimitPerMinute : Option ℚ := none
  isSiteKey : Bool := false
  lastUsedAt : Option ℚ := none
  expiresAt : Option ℕ := none
  revokedAt : Option ℕ := none
  deriving DecidableEq, Repr

structure PlaygroundToken where
  tokenHash : String
  apiKeyId : ℕ
  userId : ℕ
  expiresAt : ℕ
  deriving DecidableEq, Repr

structure RateLimitWindow where
  bucket : String
  windowStart : ℕ
  count : ℕ
  deriving DecidableEq, Repr

inductive Period where
  | day | month
  deriving DecidableEq, Repr

structure QuotaWindow where
  bucket : String
  period : Period
  periodStart : ℕ
  units : ℕ
  deriving DecidableEq, Repr

inductive PaymentStatus where
  | pending | succeeded | failed
  deriving DecidableEq, Repr

structure Payment where
  userId : ℕ
  plan : PaidPlan
  paymentIntentId : String
  amountMinor : ℚ
  currency : String
  status : PaymentStatus
  createdAt : ℕ
  paidAt : Option ℕ := none
  deriving DecidableEq, Repr

/-- `authSessions`, the table of Convex Auth. -/
structure AuthSession where
  userId : ℕ
  expirationTime : ℕ
  deriving DecidableEq, Repr

structure ApiRequest where
  apiKeyId : ℕ
  userId : ℕ
  endpoint : String
  method : String
  statusCode : ℕ
  responseTimeMs : ℕ
  timestamp : ℚ
  deriving DecidableEq, Repr

structure UsageDaily where
  userId : ℕ
  apiKeyId : ℕ
  endpoint : String
  day : UtcDate
  total : ℕ
  successful : ℕ
  failed : ℕ
  totalResponseTimeMs : ℕ
  deriving DecidableEq, Repr

inductive AuditSeverity where
  | INFO | WARNING | HIGH | CRITICAL
  deriving DecidableEq, Repr

inductive AuditOutcome where
  | success | failure
  deriving DecidableEq, Repr

structure AuditEvent where
  event : String
  severity : AuditSeverity
  outcome : AuditOutcome
  tenantId : Option ℕ
  apiKeyId : Option ℕ
  detail : Option String
  timestamp : ℕ
  deriving DecidableEq, Repr

structure Db where
  users : Table User := Table.empty
  apiKeys : Table ApiKey := Table.empty
  playgroundTokens : Table PlaygroundToken := Table.empty
  rateLimitWindows : Table RateLimitWindow := Table.empty
  quotaWindows : Table QuotaWindow := Table.empty
  payments : Table Payment := Table.empty
  authSessions : Table AuthSession := Table.empty
  apiRequests : Table ApiRequest := Table.empty
  usageDaily : Table UsageDaily := Table.empty
  securityAuditEvents : Table AuditEvent := Table.empty

instance : Inhabited Db := ⟨{}⟩

/-- `writeAudit`: the event and its detail are cut, an empty detail is dropped. -/
def writeAudit (db : Db) (now : ℕ) (event : String) (severity : AuditSeverity)
    (outcome : AuditOutcome) (tenantId apiKeyId : Option ℕ) (detail : Option String) : Db :=
  let entry : AuditEvent :=
    ⟨slice 80 event, severity, outcome, tenantId, apiKeyId,
      (detail.filter (· ≠ "")).map (slice 120), now⟩
  { db with securityAuditEvents := db.securityAuditEvents.insert entry }

/-! ### Plans of a user -/

def activePlan (user : User) (now : ℕ) : Option PaidPlan :=
  match user.plan, user.planExpiresAt with
  | some plan, some expires => if expires ≠ 0 ∧ now < expires then some plan else none
  | _, _ => none

def freeRequestsRemaining (user : User) : ℕ :=
  match user.freeTierActivatedAt with
  | none => 0
  | some _ => FREE_TOTAL_REQUESTS - user.freeRequestsUsed.getD 0

def hasKeyAccess (user : User) (now : ℕ) : Bool :=
  (activePlan user now).isSome || 0 < freeRequestsRemaining user

end GeoPlatform.Convex
