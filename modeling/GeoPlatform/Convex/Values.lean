import Mathlib.Algebra.Order.Floor.Semiring
import Mathlib.Data.Rat.Floor
import Mathlib.Tactic

/-! Numbers, environment variables, UTC dates, endpoints and plans, as the Convex functions
read them (`lib/env.ts`, `lib/time.ts`, `lib/endpoints.ts`, `lib/plans.ts`). Numbers are exact;
instants are whole milliseconds since the epoch. -/
namespace GeoPlatform.Convex

/-- What a function throws; the transaction then leaves the database as it was. -/
inductive TxError where
  | convex (message : String)
  | error (message : String)
  | notUnique
  deriving DecidableEq, Repr

theorem except_bind_ok {ε α β : Type} {x : Except ε α} {f : α → Except ε β} {b : β} :
    (x >>= f) = .ok b ↔ ∃ a, x = .ok a ∧ f a = .ok b := by
  cases x with
  | error e => exact ⟨fun h => (nomatch h), fun ⟨a, h, _⟩ => (nomatch h)⟩
  | ok a => exact ⟨fun h => ⟨a, rfl, h⟩, fun ⟨_, h, hb⟩ => by cases h; exact hb⟩

theorem except_map_ok {ε α β : Type} {x : Except ε α} {f : α → β} {b : β} :
    f <$> x = .ok b ↔ ∃ a, x = .ok a ∧ f a = b := by
  cases x with
  | error e => exact ⟨fun h => (nomatch h), fun ⟨a, h, _⟩ => (nomatch h)⟩
  | ok a => exact ⟨fun h => ⟨a, rfl, by cases h; rfl⟩, fun ⟨_, h, hb⟩ => by cases h; cases hb; rfl⟩

/-- `s.slice(0, n)` of a JavaScript string. -/
def slice (n : ℕ) (s : String) : String := String.ofList (s.toList.take n)

theorem isDigit_of_mem_toString {n : ℕ} {c : Char} (h : c ∈ (toString n).toList) :
    c.isDigit = true := by
  have hdigits : (toString n).toList = Nat.toDigits 10 n := Nat.toList_repr
  rw [hdigits] at h
  exact Nat.isDigit_of_mem_toDigits (by decide) (by decide) h

theorem toString_toList_inj {m n : ℕ} (h : (toString m).toList = (toString n).toList) : m = n := by
  have hdigits : Nat.toDigits 10 m = Nat.toDigits 10 n := by
    rw [← Nat.toList_repr, ← Nat.toList_repr]
    exact h
  calc m = Nat.ofDigitChars 10 (Nat.toDigits 10 m) 0 := Nat.ofDigitChars_ten_toDigits.symm
    _ = Nat.ofDigitChars 10 (Nat.toDigits 10 n) 0 := by rw [hdigits]
    _ = n := Nat.ofDigitChars_ten_toDigits

/-! ### Environment -/

/-- A variable as `Number(process.env.X)` sees it. -/
inductive EnvNumber where
  | unset
  | notFinite
  | finite (q : ℚ)
  deriving DecidableEq, Repr

/-- The readers that take any finite number above zero. -/
def EnvNumber.positive (v : EnvNumber) (fallback : ℚ) : ℚ :=
  match v with
  | .finite q => if 0 < q then q else fallback
  | _ => fallback

def EnvNumber.positiveInt (v : EnvNumber) (fallback : ℕ) : ℕ :=
  match v with
  | .finite q => if 1 ≤ q then ⌊q⌋₊ else fallback
  | _ => fallback

structure ProcessEnv where
  ACCOUNT_RATE_LIMIT_PER_MINUTE : EnvNumber := .unset
  ENDPOINT_RATE_LIMIT_PER_MINUTE : EnvNumber := .unset
  GLOBAL_RATE_LIMIT_PER_MINUTE : EnvNumber := .unset
  ROUTE_RATE_LIMIT_PER_MINUTE : EnvNumber := .unset
  KEY_DAILY_QUOTA_UNITS : EnvNumber := .unset
  KEY_MONTHLY_QUOTA_UNITS : EnvNumber := .unset
  TENANT_DAILY_QUOTA_UNITS : EnvNumber := .unset
  TENANT_MONTHLY_QUOTA_UNITS : EnvNumber := .unset
  ENDPOINT_MONTHLY_QUOTA_UNITS : EnvNumber := .unset
  USAGE_RETENTION_DAYS : EnvNumber := .unset
  AUDIT_RETENTION_DAYS : EnvNumber := .unset
  GATEWAY_SECRET : Option String := none
  ENVIRONMENT : Option String := none
  WIREPAYMENT_SECRET_KEY : Option String := none
  /-- Web Crypto's HMAC-SHA256 of a secret and a value, as lowercase hex. -/
  hmacSha256Hex : String → String → String

namespace ProcessEnv
variable (env : ProcessEnv)

def accountRateLimitPerMinute : ℚ := env.ACCOUNT_RATE_LIMIT_PER_MINUTE.positive 300
def endpointRateLimitPerMinute : ℚ := env.ENDPOINT_RATE_LIMIT_PER_MINUTE.positive 100
def globalRateLimitPerMinute : ℚ := env.GLOBAL_RATE_LIMIT_PER_MINUTE.positive 100000
def routeRateLimitPerMinute : ℚ := env.ROUTE_RATE_LIMIT_PER_MINUTE.positive 30
def keyDailyQuotaUnits : ℕ := env.KEY_DAILY_QUOTA_UNITS.positiveInt 10000
def keyMonthlyQuotaUnits : ℕ := env.KEY_MONTHLY_QUOTA_UNITS.positiveInt 100000
def tenantDailyQuotaUnits : ℕ := env.TENANT_DAILY_QUOTA_UNITS.positiveInt 25000
def tenantMonthlyQuotaUnits : ℕ := env.TENANT_MONTHLY_QUOTA_UNITS.positiveInt 250000
def endpointMonthlyQuotaUnits : ℕ := env.ENDPOINT_MONTHLY_QUOTA_UNITS.positiveInt 100000
def usageRetentionDays : ℚ := env.USAGE_RETENTION_DAYS.positive 30
def auditRetentionDays : ℕ := env.AUDIT_RETENTION_DAYS.positiveInt 365

/-- `requireEnv("GATEWAY_SECRET")`: a missing or empty variable throws. -/
def gatewaySecret : Except TxError String :=
  match env.GATEWAY_SECRET with
  | some s => if s = "" then .error (.error "Missing Convex environment variable GATEWAY_SECRET")
      else .ok s
  | none => .error (.error "Missing Convex environment variable GATEWAY_SECRET")

end ProcessEnv

/-- The environment of the repository's tests, with the digests of one visitor address. -/
def testEnv : ProcessEnv where
  GATEWAY_SECRET := some "test-gateway-secret-0123456789abcdefghijklmnop"
  hmacSha256Hex _ value :=
    if value = "demo:203.0.113.7" then
      "5dc8af1c7f90742d93259955feaa2cfaa458e5d3dae5c38140d55e106538ec02"
    else "0222c36204b1c345b3c8c73c8cfc44b9621757d8795e8672204a2cb58eb4eb11"

/-! ### Instants and UTC dates -/

def MINUTE_MS : ℕ := 60000
def DAY_MS : ℕ := 86400000

def windowStart (timestamp windowMs : ℕ) : ℕ := timestamp / windowMs * windowMs

theorem lt_windowStart_add (t : ℕ) {w : ℕ} (hw : 0 < w) : t < windowStart t w + w := by
  have h := Nat.lt_div_mul_add (a := t) hw
  unfold windowStart
  omega

def isLeapYear (y : ℕ) : Bool := y % 4 = 0 && (y % 100 ≠ 0 || y % 400 = 0)

def daysInYear (y : ℕ) : ℕ := if isLeapYear y then 366 else 365

def monthLengths (y : ℕ) : List ℕ :=
  [31, if isLeapYear y then 29 else 28, 31, 30, 31, 30, 31, 31, 30, 31, 30, 31]

/-- Year and day of the year of a day counted from the first day of year `y`. -/
def yearOfDay : ℕ → ℕ → ℕ → ℕ × ℕ
  | 0, y, d => (y, d)
  | fuel + 1, y, d =>
      if d < daysInYear y then (y, d) else yearOfDay fuel (y + 1) (d - daysInYear y)

/-- Month and day of the month, both from zero. -/
def monthOfDay : List ℕ → ℕ → ℕ × ℕ
  | [], d => (0, d)
  | m :: ms, d =>
      if d < m then (0, d) else ((monthOfDay ms (d - m)).1 + 1, (monthOfDay ms (d - m)).2)

/-- `getUTCFullYear`, `getUTCMonth` (from zero) and `getUTCDate` (from one). -/
structure UtcDate where
  fullYear : ℕ
  month : ℕ
  date : ℕ
  deriving DecidableEq, Repr

def utcDate (timestamp : ℕ) : UtcDate :=
  let (y, d) := yearOfDay (timestamp / DAY_MS) 1970 (timestamp / DAY_MS)
  let (m, k) := monthOfDay (monthLengths y) d
  ⟨y, m, k + 1⟩

/-- `Date.UTC(y, m, d)`; a month past December counts on into the next years. -/
def dateUTC (y m d : ℕ) : ℕ :=
  let y' := y + m / 12
  (((List.range (y' - 1970)).map fun k => daysInYear (1970 + k)).sum +
    ((monthLengths y').take (m % 12)).sum + (d - 1)) * DAY_MS

example : utcDate 1709210096000 = ⟨2024, 1, 29⟩ ∧ dateUTC 2024 1 29 = 1709164800000 := by
  decide +kernel

/-! ### Endpoints -/

inductive ApiEndpoint where
  | geocode | route
  deriving DecidableEq, Repr

def ApiEndpoint.name : ApiEndpoint → String
  | .geocode => "geocode"
  | .route => "route"

/-- Stored scopes may still hold the legacy reverse geocoding endpoint. -/
inductive StoredEndpoint where
  | geocode | reverseGeocode | route
  deriving DecidableEq, Repr

def StoredEndpoint.name : StoredEndpoint → String
  | .geocode => "geocode"
  | .reverseGeocode => "reverse-geocode"
  | .route => "route"

def API_ENDPOINTS : List ApiEndpoint := [.geocode, .route]

def normalizeEndpoint (endpoint : String) : Option ApiEndpoint :=
  if endpoint = "reverse-geocode" then some .geocode
  else API_ENDPOINTS.find? fun e => e.name = endpoint

def normalizeEndpoints (endpoints : List String) : List ApiEndpoint :=
  API_ENDPOINTS.filter fun e => (endpoints.filterMap normalizeEndpoint).contains e

/-- `API_ENDPOINTS.includes(endpoint)` for an optional string. -/
def isApiEndpoint (endpoint : Option String) : Bool :=
  API_ENDPOINTS.any fun e => some e.name = endpoint

/-! ### Plans -/

inductive PaidPlan where
  | starter | essentials | pro
  deriving DecidableEq, Repr

def PaidPlan.name : PaidPlan → String
  | .starter => "starter"
  | .essentials => "essentials"
  | .pro => "pro"

def PaidPlan.monthlyRequests : PaidPlan → ℕ
  | .starter => 10000
  | .essentials => 100000
  | .pro => 500000

def PaidPlan.requestsPerMinute : PaidPlan → ℕ
  | .starter => 100
  | .essentials => 500
  | .pro => 2000

def PLAN_WIRE_AMOUNT : ℕ := 1000
def PLAN_DURATION_MS : ℕ := 30 * 24 * 60 * 60 * 1000
def FREE_TOTAL_REQUESTS : ℕ := 500
def FREE_RATE_LIMIT_PER_MINUTE : ℕ := 30

end GeoPlatform.Convex
