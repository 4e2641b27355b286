import GeoPlatform.Convex.KeyStanding
import GeoPlatform.Library.BoundedCounter

/-! Authorization from the in-process cache: `_authorize_cached` (`api/deps.py`) with the
`WindowRateLimiter` of `core/abuse.py`, the `TTLCache` of `services/cache.py` and the key
descriptions of `services/gateway.py`. `time.time()` is read in milliseconds. -/
namespace GeoPlatform.Api
open GeoPlatform.Convex hiding KeyDescription RateLimitState

/-! ### The limiter -/

/-- The counts of buckets and minutes, in the order of their last hits. -/
structure WindowRateLimiter where
  maxBuckets : ℕ := 200000
  counts : List ((String × ℕ) × ℕ) := []

/-- Whether the hit is allowed, what remains, and when the minute is over, in seconds. -/
def WindowRateLimiter.hit (w : WindowRateLimiter) (bucket : String) (limit : ℤ) (now : ℕ) :
    (Bool × ℤ × ℕ) × WindowRateLimiter :=
  let window := now / 60000
  let (count, counts) := BoundedCounter.bump w.maxBuckets w.counts (bucket, window)
  let reset := (window + 1) * 60
  ((count ≤ limit, max 0 (limit - count), reset), { w with counts })

/-! ### The cache -/

structure TTLCache (V : Type) where
  ttl : ℚ
  max : ℕ
  data : List (String × ℚ × V) := []

def TTLCache.enabled {V : Type} (c : TTLCache V) : Bool := 0 < c.ttl

def TTLCache.get {V : Type} (c : TTLCache V) (key : String) (monotonic : ℚ) :
    Option V × TTLCache V :=
  if !c.enabled then (none, c)
  else match OrderedMap.get? c.data key with
    | none => (none, c)
    | some (expiresAt, value) =>
        if expiresAt < monotonic then (none, { c with data := OrderedMap.erase c.data key })
        else (some value,
          { c with data := OrderedMap.erase c.data key ++ [(key, expiresAt, value)] })

def TTLCache.set {V : Type} (c : TTLCache V) (key : String) (value : V) (monotonic : ℚ) :
    TTLCache V :=
  if !c.enabled then c
  else
    let data := OrderedMap.erase c.data key ++ [(key, monotonic + c.ttl, value)]
    { c with data := data.drop (data.length - c.max) }

/-- What the entries of the cache are known to be. -/
def TTLCache.Only {V : Type} (c : TTLCache V) (known : String → V → Prop) : Prop :=
  ∀ e ∈ c.data, known e.1 e.2.2

theorem TTLCache.Only.mono {V : Type} {c : TTLCache V} {known known' : String → V → Prop}
    (h : c.Only known) (hmono : ∀ key value, known key value → known' key value) :
    c.Only known' :=
  fun e he => hmono _ _ (h e he)

theorem TTLCache.Only.get {V : Type} {c : TTLCache V} {known : String → V → Prop}
    (h : c.Only known) (key : String) (monotonic : ℚ) :
    (c.get key monotonic).2.Only known ∧ ∀ v ∈ (c.get key monotonic).1, known key v := by
  have herase : ∀ e ∈ OrderedMap.erase c.data key, known e.1 e.2.2 :=
    fun e he => h e ((OrderedMap.erase_sublist _ _).subset he)
  unfold TTLCache.get
  split_ifs
  · exact ⟨h, by simp⟩
  · split
    · exact ⟨h, by simp⟩
    · case _ expiresAt value hfound =>
      have hvalue := h _ (OrderedMap.get?_eq_some hfound)
      split_ifs
      · exact ⟨herase, by simp⟩
      · refine ⟨fun e he => ?_, fun v hv => ?_⟩
        · rcases List.mem_append.mp he with he | he
          · exact herase e he
          · rw [List.mem_singleton.mp he]
            exact hvalue
        · rw [← Option.some.inj hv]
          exact hvalue

theorem TTLCache.Only.set {V : Type} {c : TTLCache V} {known : String → V → Prop}
    (h : c.Only known) {key : String} {value : V} (hvalue : known key value) (monotonic : ℚ) :
    (c.set key value monotonic).Only known := by
  unfold TTLCache.set
  split_ifs
  · exact h
  · intro e he
    rcases List.mem_append.mp ((List.drop_sublist _ _).subset he) with he | he
    · exact h e ((OrderedMap.erase_sublist _ _).subset he)
    · rw [List.mem_singleton.mp he]
      exact hvalue

/-! ### Key descriptions -/

structure KeyDescription where
  keyId : ℕ
  userId : ℕ
  isSiteKey : Bool
  rateLimitPerMinute : Option ℤ
  accountLimit : Option ℤ
  routeLimit : Option ℤ
  endpoints : Option (List ApiEndpoint)

/-- A number of a JSON document as an `int` field takes it. -/
def wholeNumber (q : ℚ) : Option ℤ := if q.den = 1 then some q.num else none

/-- A number or null as an optional `int` field takes it. -/
def wholeOrNull (q : Option ℚ) : Option (Option ℤ) :=
  match q with
  | none => some none
  | some q => (wholeNumber q).map some

/-- `model_validate` of a good description; a limit that is not whole fails it. -/
def KeyDescription.validate (d : Convex.KeyDescription) : Option KeyDescription := do
  let rateLimitPerMinute ← wholeOrNull d.rateLimitPerMinute
  let accountLimit ← wholeNumber d.accountLimit
  let routeLimit ← wholeNumber d.routeLimit
  return { keyId := d.keyId, userId := d.userId, isSiteKey := d.isSiteKey, rateLimitPerMinute,
           accountLimit := some accountLimit, routeLimit := some routeLimit,
           endpoints := d.endpoints }

/-- The answer of the gateway's `describe`, or `none` for a `ConvexGatewayError`. -/
def gatewayDescribe (r : Except TxError DescribeReply) :
    Option (Except AuthorizeStatus KeyDescription) :=
  match r with
  | .error _ => none
  | .ok (.ok d) => (KeyDescription.validate d).map .ok
  | .ok refused => some (.error refused.status)

/-- `value or fallback`: a limit that is absent or zero gives way to the fallback. -/
def orElse (value : Option ℤ) (fallback : ℤ) : ℤ :=
  match value with
  | none => fallback
  | some v => if v = 0 then fallback else v

/-! ### Authorization -/

structure Settings where
  rateLimitPerMinute : ℕ
  siteKeyPerIpPerMinute : ℕ

/-- What `_visitor_ip` makes of a request: an address, an IPv6 network or `unknown`. -/
structure VisitorIp where
  text : String
  valid : text = "unknown" ∨ ipPattern text = true

structure SiteRequest where
  now : ℕ
  monotonic : ℚ
  ip : VisitorIp
  endpoint : String

structure AppState where
  keyCache : TTLCache KeyDescription
  windowLimiter : WindowRateLimiter

/-- `RateLimitState` of `services/gateway.py`. -/
structure RateLimitState where
  limit : ℤ
  remaining : ℤ
  reset : ℕ
  deriving DecidableEq

inductive Verdict where
  | ok
  | serviceUnavailable
  | refused (status : AuthorizeStatus)
  | endpointNotAllowed (allowedEndpoints : List ApiEndpoint)
  | tooMany (limit : ℤ) (retryAfter : ℕ)
  deriving DecidableEq

/-- The verdict, and the limit left in `request.state`. -/
structure CachedReply where
  verdict : Verdict
  rateLimit : Option RateLimitState := none
  deriving DecidableEq

/-- The buckets of a request, with their limits. -/
def localBuckets (settings : Settings) (d : KeyDescription) (r : SiteRequest) :
    List (String × ℤ) :=
  let perKey := orElse d.rateLimitPerMinute settings.rateLimitPerMinute
  if d.isSiteKey then
    let ip := r.ip.text
    let perIp : ℤ := settings.siteKeyPerIpPerMinute
    [("ip:" ++ ip, perIp), (keyBucket d.keyId, orElse d.rateLimitPerMinute 10000)] ++
      if r.endpoint = "route" then
        [("ip:" ++ ip ++ ":route", min perIp (orElse d.routeLimit perIp))]
      else []
  else
    let account := orElse d.accountLimit perKey
    [(keyBucket d.keyId, perKey), (userBucket d.userId, max perKey account)] ++
      if r.endpoint = "route" then
        [(keyBucket d.keyId ++ ":route", min perKey (orElse d.routeLimit perKey))]
      else []

/-- The loop over the buckets: whether all allow the request, and the state with the least left. -/
def hitBuckets (now : ℕ) (acc : (Bool × Option RateLimitState) × WindowRateLimiter)
    (b : String × ℤ) : (Bool × Option RateLimitState) × WindowRateLimiter :=
  let ((allowed, binding), window) := acc
  let ((ok, remaining, reset), window) := window.hit b.1 b.2 now
  let state : RateLimitState := ⟨b.2, remaining, reset⟩
  let binding := match binding with
    | none => some state
    | some binding => if remaining < binding.remaining then some state else some binding
  ((allowed && ok, binding), window)

/-- From a valid description on. -/
def enforce (settings : Settings) (r : SiteRequest) (s : AppState) (d : KeyDescription) :
    CachedReply × AppState :=
  match d.endpoints.filter fun es => !es.any fun e => e.name = r.endpoint with
  | some allowed => (⟨.endpointNotAllowed allowed, none⟩, s)
  | none =>
      let ((allowed, binding), windowLimiter) :=
        (localBuckets settings d r).foldl (hitBuckets r.now) ((true, none), s.windowLimiter)
      let s := { s with windowLimiter }
      match binding with
      | none => (⟨.ok, none⟩, s)
      | some b =>
          if allowed then (⟨.ok, some b⟩, s)
          else (⟨.tooMany b.limit (max 1 (b.reset - r.now / 1000)), some b⟩, s)

/-- `_authorize_cached`; `described` is what the gateway would answer. -/
def authorizeCached (settings : Settings) (credentialHash : String)
    (described : Option (Except AuthorizeStatus KeyDescription)) (s : AppState) (r : SiteRequest) :
    CachedReply × AppState :=
  let (cached, keyCache) := s.keyCache.get credentialHash r.monotonic
  let s := { s with keyCache }
  match cached with
  | some d => enforce settings r s d
  | none =>
      match described with
      | none => (⟨.serviceUnavailable, none⟩, s)
      | some (.error status) => (⟨.refused status, none⟩, s)
      | some (.ok d) =>
          enforce settings r { s with keyCache := s.keyCache.set credentialHash d r.monotonic } d

end GeoPlatform.Api
