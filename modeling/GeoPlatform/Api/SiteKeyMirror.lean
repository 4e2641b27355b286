import GeoPlatform.Api.SiteKeyRun
import GeoPlatform.Convex.FreeTier

/-! The local path of the site key beside `authorize`: over a run both let the same requests
through, and they report the same limit unless one bucket shadows another. -/
namespace GeoPlatform.Api
open GeoPlatform.Convex hiding KeyDescription RateLimitState
open BoundedCounter Docs

variable {env : ProcessEnv} {settings : Settings} {hash : String} {db : Db}

/-! ### Limits that both read alike -/

/-- The limits of the settings and of the key are in the range that `clampLimit` keeps. A key's
limit may be absent or zero, which both take for the default. -/
structure ReadAlike (settings : Settings) (d : Convex.KeyDescription) : Prop where
  perIp : 1 ≤ settings.siteKeyPerIpPerMinute ∧ settings.siteKeyPerIpPerMinute ≤ MAX_LIMIT
  perKey : ∀ q, d.rateLimitPerMinute = some q → q = 0 ∨ 1 ≤ q ∧ q ≤ MAX_LIMIT

theorem wholeNumber_some {q : ℚ} {v : ℤ} (h : wholeNumber q = some v) : q = v := by
  unfold wholeNumber at h
  split_ifs at h with hden
  cases h
  exact (Rat.den_eq_one_iff q).mp hden |>.symm

/-- What a validated description keeps. -/
structure Validated (d : Convex.KeyDescription) (k : KeyDescription) : Prop where
  keyId : k.keyId = d.keyId
  site : k.isSiteKey = d.isSiteKey
  endpoints : k.endpoints = d.endpoints
  rate : d.rateLimitPerMinute = k.rateLimitPerMinute.map fun v : ℤ => (v : ℚ)
  route : ∃ v : ℤ, k.routeLimit = some v ∧ d.routeLimit = v

theorem validate_some {d : Convex.KeyDescription} {k : KeyDescription}
    (h : KeyDescription.validate d = some k) : Validated d k := by
  unfold KeyDescription.validate at h
  simp only [Option.bind_eq_bind, Option.bind_eq_some_iff, Option.pure_def, Option.some.injEq] at h
  obtain ⟨rate, hrate, account, -, route, hroute, rfl⟩ := h
  refine ⟨rfl, rfl, rfl, ?_, route, rfl, wholeNumber_some hroute⟩
  cases hd : d.rateLimitPerMinute with
  | none =>
    rw [hd] at hrate
    cases hrate
    rfl
  | some q =>
    rw [hd] at hrate
    obtain ⟨v, hv, rfl⟩ := Option.map_eq_some_iff.mp hrate
    rw [wholeNumber_some hv]
    rfl

theorem clampLimit_whole {v : ℤ} (h : 1 ≤ v) (hmax : v ≤ MAX_LIMIT) (fallback : ℕ) :
    (clampLimit (some (v : ℚ)) fallback : ℤ) = v := by
  obtain ⟨n, rfl⟩ := Int.eq_ofNat_of_zero_le (by omega : 0 ≤ v)
  have hone : (1 : ℚ) ≤ ((n : ℤ) : ℚ) := by exact_mod_cast h
  have hn : n ≤ MAX_LIMIT := by exact_mod_cast hmax
  rw [clampLimit, if_pos hone, Int.cast_natCast, Nat.floor_natCast, min_eq_left hn]

theorem routeRate_pos (env : ProcessEnv) : 0 < env.routeRateLimitPerMinute := by
  unfold ProcessEnv.routeRateLimitPerMinute EnvNumber.positive
  split
  · split_ifs with h
    · exact h
    · norm_num
  · norm_num

/-! ### The buckets of `authorize` -/

/-- The arguments of the `authorize` call for a request. -/
def SiteRequest.args (settings : Settings) (hash : String) (r : SiteRequest) : AuthorizeArgs where
  kind := .key
  hash := hash
  endpoint := some r.endpoint
  defaultLimit := some settings.rateLimitPerMinute
  clientIp := some r.ip.text
  perIpLimit := some settings.siteKeyPerIpPerMinute

def SiteRequest.call (settings : Settings) (hash : String) (r : SiteRequest) : Call :=
  ⟨r.now, .authorize (r.args settings hash)⟩

/-- What stands for an address in the names of `authorize`. -/
def ipHash (env : ProcessEnv) (secret ip : String) : String := visitorHash env secret (some ip)

theorem siteBuckets_eq {secret : String} (hsecret : env.gatewaySecret = .ok secret)
    {d : Convex.KeyDescription} {k : KeyDescription} (hd : Validated d k)
    (halike : ReadAlike settings d) (hroute : d.routeLimit = env.routeRateLimitPerMinute)
    {a : Admission} (hsite : a.isSiteKey = true) (hkey : a.key.id = d.keyId)
    (hrate : a.key.val.rateLimitPerMinute = d.rateLimitPerMinute) (r : SiteRequest) :
    buckets env (r.args settings hash) a = .ok (r.buckets.map fun b =>
      (b.name k.keyId (ipHash env secret), ((b.limit settings k : ℤ) : ℚ))) := by
  have hip : (perIpLimit (r.args settings hash) : ℚ) = (settings.siteKeyPerIpPerMinute : ℤ) := by
    have h := @clampLimit_whole (settings.siteKeyPerIpPerMinute : ℤ)
      (by exact_mod_cast halike.perIp.1) (by exact_mod_cast halike.perIp.2) 60
    exact_mod_cast h
  have hper : (perKeyLimit (r.args settings hash) a : ℚ) = orElse k.rateLimitPerMinute 10000 := by
    rw [perKeyLimit, if_pos hsite, hrate, hd.rate]
    cases hk : k.rateLimitPerMinute with
    | none => rfl
    | some v =>
      rcases halike.perKey v (by rw [hd.rate, hk]; rfl) with hzero | ⟨hone, hmax⟩
      · have hv : v = 0 := by exact_mod_cast hzero
        subst hv
        rfl
      · have hone' : 1 ≤ v := by exact_mod_cast hone
        have h := @clampLimit_whole v hone' (by exact_mod_cast hmax) 10000
        have hne : v ≠ 0 := by omega
        rw [Option.map_some, orElse, if_neg hne]
        exact_mod_cast h
  have hpath : env.routeRateLimitPerMinute =
      (orElse k.routeLimit settings.siteKeyPerIpPerMinute : ℤ) := by
    obtain ⟨v, hv, hdv⟩ := hd.route
    have hpos := routeRate_pos env
    rw [← hroute, hdv] at hpos ⊢
    have hne : v ≠ 0 := by
      rintro rfl
      simp at hpos
    rw [hv, orElse, if_neg hne]
  unfold buckets SiteRequest.buckets
  rw [if_pos hsite, hsecret]
  by_cases hend : r.endpoint = "route"
  · have hend' : (r.args settings hash).endpoint = some "route" := congrArg some hend
    simp only [hend, hend', if_true, hip, hper, hpath, hkey, ← hd.keyId, ← Int.cast_min]
    rfl
  · have hend' : (r.args settings hash).endpoint ≠ some "route" := fun he => hend (by
      simpa [SiteRequest.args] using he)
    simp only [hend, hend', if_false, hip, hper, hkey, ← hd.keyId]
    rfl

/-! ### The admission of a described site key -/

theorem checkScope_refuse_limit {now : ℕ} {args : AuthorizeArgs} {key : Doc ApiKey}
    {viaPlayground : Bool} {owner : User} {rf : Refusal}
    (h : checkScope now args key viaPlayground owner = .error (.refuse rf)) :
    rf.reply.rateLimit = none := by
  unfold checkScope keyRefusal at h
  simp only at h
  split at h
  · cases h
    rfl
  · split at h
    · cases h
    · split at h
      · cases h
      · cases h
        rfl

theorem outOfScope_iff {d : Convex.KeyDescription} {r : SiteRequest} :
    OutOfScope d.endpoints (r.args settings hash).endpoint ↔ ¬ InScope d.endpoints r := by
  simp [OutOfScope, not_inScope, SiteRequest.args]

/-- `authorize` admits a described site key where it may call the endpoint. -/
theorem described_admission {d : Convex.KeyDescription} {r : SiteRequest}
    (hdesc : describe env r.now hash db = .ok (.ok d)) (hsite : d.isSiteKey = true) :
    d.routeLimit = env.routeRateLimitPerMinute ∧
    ((InScope d.endpoints r ∧ ∃ a, admission db r.now (r.args settings hash) = .ok a ∧
        a.isSiteKey = true ∧ a.key.id = d.keyId ∧
        a.key.val.rateLimitPerMinute = d.rateLimitPerMinute) ∨
      (¬ InScope d.endpoints r ∧ ∃ rf,
        admission db r.now (r.args settings hash) = .error (.refuse rf) ∧
        rf.reply.status = .endpointNotAllowed ∧ rf.reply.rateLimit = none)) := by
  rw [describe_eq] at hdesc
  obtain ⟨s, hs, hsd⟩ : ∃ s, standing db r.now hash = .ok s ∧ s.describe env = .ok d := by
    cases hs : standing db r.now hash with
    | error e => simp [hs, Except.map] at hdesc
    | ok s => exact ⟨s, rfl, by simpa [hs, Except.map] using hdesc⟩
  rcases @admission_standing r.now db (r.args settings hash) rfl s hs with
    ⟨hbad, -⟩ | ⟨key, owner, rfl, haccess, hadm⟩
  · rw [← Standing.describe_status env, hsd] at hbad
    exact absurd rfl hbad
  · cases hsd
    refine ⟨rfl, ?_⟩
    rcases checkScope_good r.now (r.args settings hash) haccess with
      ⟨hin, a, ha⟩ | ⟨hout, rf, hrf, hstatus, -⟩
    · have hscope : InScope (listedEndpoints key) r := by
        by_contra h
        exact hin ((@outOfScope_iff settings hash (.of env key) r).mpr h)
      obtain ⟨rfl, -⟩ := checkScope_ok ha
      refine Or.inl ⟨hscope, _, hadm.trans ha, ?_, rfl, rfl⟩
      have hkey : key.val.isSiteKey = true := hsite
      simp [hkey]
    · exact Or.inr ⟨(@outOfScope_iff settings hash (.of env key) r).mp hout, rf,
        hadm.trans hrf, hstatus,
        checkScope_refuse_limit hrf⟩

/-! ### The counters of `authorize` over a run -/

theorem windowStart_minute (r : SiteRequest) : windowStart r.now MINUTE_MS = r.minute * 60000 := rfl

/-- What the hits of a request add to the counter of a bucket. -/
theorem addedBy_buckets {name : Bucket → String} {limit : Bucket → ℚ} {r : SiteRequest}
    {bs : List Bucket} {b : Bucket} (hname : ∀ b' ∈ bs, name b' = name b → b' = b) (w : ℕ) :
    addedBy (bs.map fun b => hit (name b) (limit b)) r.now (name b) (w * 60000) =
      (bs.map fun b => (b, r.minute)).count (b, w) := by
  induction bs with
  | nil => rfl
  | cons b' bs ih =>
    have hrest := ih fun c hc => hname c (List.mem_cons_of_mem _ hc)
    have hfirst : (hit (name b') (limit b')).addsTo r.now (name b) (w * 60000) =
        if (b', r.minute) = (b, w) then 1 else 0 := by
      have hstart : windowStart r.now MINUTE_MS = w * 60000 ↔ r.minute = w := by
        rw [windowStart_minute]
        omega
      have hbucket : name b' = name b ↔ b' = b :=
        ⟨hname b' (List.mem_cons_self ..), congrArg name⟩
      simp only [Hit.addsTo, hit, hbucket, hstart, Prod.mk.injEq]
    unfold addedBy at hrest ⊢
    rw [List.map_cons, List.map_cons, List.sum_cons, hrest, hfirst, List.map_cons,
      List.count_cons, Nat.add_comm]
    simp only [beq_iff_eq]

/-- What `authorize` answers to a site key whose buckets are charged. -/
theorem authorize_site {now : ℕ} {args : AuthorizeArgs} {a : Admission} {bs : List (String × ℚ)}
    {states : List Convex.RateLimitState} {t : Table RateLimitWindow}
    (hadm : admission db now args = .ok a) (hsite : a.isSiteKey = true)
    (hbs : buckets env args a = .ok bs)
    (hhits : hitAll db.rateLimitWindows now (bs.map fun b => hit b.1 b.2) = .ok (states, t)) :
    ∃ audit, authorize env now args db =
      .ok (⟨if (combine states).allowed then .ok else .rateLimited, some a.principal,
          some (combine states).reply, none⟩,
        { db with rateLimitWindows := t, securityAuditEvents := audit }) := by
  unfold authorize
  simp only [hadm, charge, hbs, hhits, bind, Except.bind, hsite, if_true]
  cases hallowed : (combine states).allowed with
  | true => exact ⟨_, rfl⟩
  | false => exact ⟨_, rfl⟩

/-- The database after the requests `pre`. -/
structure ConvexFollows (db : Db) (name : Bucket → String) (endpoints : Option (List ApiEndpoint))
    (rs pre : List SiteRequest) (db' : Db) : Prop where
  others : ∃ t audit, db' = { db with rateLimitWindows := t, securityAuditEvents := audit }
  unique : Table.AtMostOne windowTest db'.rateLimitWindows
  counts : ∀ r ∈ rs, ∀ b ∈ r.buckets, ∀ w, windowCount db'.rateLimitWindows (name b) (w * 60000) =
    (hitLog endpoints pre).count (b, w)

/-- The status and the limit that a caller sees. -/
abbrev Report := AuthorizeStatus × Option RateLimitReply

def convexReported : Answer → Option Report
  | .authorized reply => some (reply.status, reply.rateLimit)
  | _ => none

def Verdict.status : Verdict → Option AuthorizeStatus
  | .ok => some .ok
  | .serviceUnavailable => none
  | .refused status => some status
  | .endpointNotAllowed _ => some .endpointNotAllowed
  | .tooMany _ _ => some .rateLimited

def CachedReply.reported (reply : CachedReply) : Option Report :=
  reply.verdict.status.map fun status => (status, reply.rateLimit.map RateLimitState.reply)

/-- What `authorize` reports on a request with the loads `a :: ls`. -/
def convexReport (r : SiteRequest) (a : Load) (ls : List Load) : Report :=
  (if (a :: ls).all fun l => !l.exceeded then .ok else .rateLimited,
    some ((StableSort.first Load.binds a ls).convexState r.reset).reply)

theorem admission_others {db' : Db} {t : Table RateLimitWindow} {audit : Table AuditEvent}
    (h : db' = { db with rateLimitWindows := t, securityAuditEvents := audit }) (now : ℕ)
    (args : AuthorizeArgs) : admission db' now args = admission db now args := by
  subst h
  rfl

theorem counterState_load {t : Table RateLimitWindow} {bucket : String} {r : SiteRequest}
    {limit : ℤ} {n : ℕ} (h : windowCount t bucket (r.minute * 60000) = n) :
    counterState t r.now (hit bucket limit) = (⟨limit, n + 1⟩ : Load).convexState r.reset := by
  have hreset : (r.minute * 60000 + 60000) / 1000 = r.reset := by
    unfold SiteRequest.reset
    omega
  have hstate : counterState t r.now (hit bucket limit) =
      ⟨limit, max 0 ((limit : ℚ) - (n + 1 : ℕ)), (r.minute * 60000 + 60000) / 1000,
        ((n + 1 : ℕ) : ℚ) ≤ limit⟩ := by
    rw [← h]
    rfl
  have hallowed : decide (((n + 1 : ℕ) : ℚ) ≤ limit) = !(⟨limit, n + 1⟩ : Load).exceeded := by
    simp only [Load.exceeded, ← decide_not, not_lt]
    congr 1
    exact propext (by exact_mod_cast Iff.rfl)
  rw [hstate, hreset, hallowed]
  simp only [Load.convexState, Load.remaining]
  push_cast
  rfl

/-- A run of requests with one good site key, from empty counters. The digests of its addresses
are apart, and the names of any one minute fit the local limiter. -/
structure SiteKeyRun (env : ProcessEnv) (hash : String) (db : Db) (secret : String)
    (d : Convex.KeyDescription) (k : KeyDescription) (maxBuckets : ℕ) (rs : List SiteRequest) :
    Prop where
  fresh : db.rateLimitWindows.docs = []
  gatewaySecret : env.gatewaySecret = .ok secret
  described : ∀ r ∈ rs, describe env r.now hash db = .ok (.ok d)
  site : d.isSiteKey = true
  validated : KeyDescription.validate d = some k
  ordered : rs.Pairwise fun a b => a.now ≤ b.now
  fits : ∀ w, (names (hitLog k.endpoints rs) w).card ≤ maxBuckets
  digest : ∀ value, (env.hmacSha256Hex secret value).length = 64
  apart : ∀ r ∈ rs, ∀ r' ∈ rs,
    ipHash env secret r.ip.text = ipHash env secret r'.ip.text → r.ip.text = r'.ip.text

variable {secret : String} {d : Convex.KeyDescription} {k : KeyDescription} {maxBuckets : ℕ}
  {rs : List SiteRequest}

/-- The name of a bucket in `rateLimitWindows`. -/
def convexName (env : ProcessEnv) (secret : String) (keyId : ℕ) : Bucket → String :=
  Bucket.name keyId (ipHash env secret)

theorem SiteKeyRun.name_inj (h : SiteKeyRun env hash db secret d k maxBuckets rs)
    {r r' : SiteRequest} (hr : r ∈ rs) (hr' : r' ∈ rs) {b b' : Bucket} (hb : b ∈ r.buckets)
    (hb' : b' ∈ r'.buckets)
    (he : convexName env secret k.keyId b = convexName env secret k.keyId b') : b = b' := by
  have hlen : ∀ ip, (ipHash env secret ip).length = 32 := by
    intro ip
    have hdigest := h.digest ("ip:" ++ visitorAddress (some ip))
    simp only [ipHash, visitorHash, slice, String.length_ofList, List.length_take,
      String.length_toList, hdigest]
    rfl
  have hpath : ∀ ip ip', ipHash env secret ip ≠ ipHash env secret ip' ++ ":route" := by
    intro ip ip' hpath
    have hl := congrArg String.length hpath
    rw [String.length_append, hlen, hlen] at hl
    exact absurd hl (by decide)
  exact Bucket.name_inj hb hb' (h.apart r hr r' hr') (hpath _ _) (hpath _ _) he

/-- A refused request leaves the counters as they are. -/
theorem ConvexFollows.refused {pre : List SiteRequest} {db' : Db} {r : SiteRequest}
    (hdb : ConvexFollows db (convexName env secret k.keyId) k.endpoints rs pre db')
    (hout : ¬ InScope k.endpoints r) {rf : Refusal}
    (hrf : admission db' r.now (r.args settings hash) = .error (.refuse rf)) :
    ConvexFollows db (convexName env secret k.keyId) k.endpoints rs (pre ++ [r])
        ((r.call settings hash).run env db').2 ∧
      convexReported ((r.call settings hash).run env db').1 =
        some (rf.reply.status, rf.reply.rateLimit) := by
  obtain ⟨t, audit, hshape⟩ := hdb.others
  have hrun : (r.call settings hash).run env db' = (.authorized rf.reply,
      writeAudit db' r.now rf.event rf.severity .failure rf.tenantId rf.apiKeyId
        (some rf.detail)) := by
    simp only [SiteRequest.call, run_authorize, authorize, hrf]
    rfl
  rw [hrun]
  refine ⟨⟨?_, hdb.unique, fun q hq b hb w => ?_⟩, rfl⟩
  · subst hshape
    exact ⟨t, _, rfl⟩
  · rw [hitLog_outOfScope hout]
    exact hdb.counts q hq b hb w

/-- A request that is admitted finds the loads of its buckets, and counts its hits. -/
theorem ConvexFollows.charged (h : SiteKeyRun env hash db secret d k maxBuckets rs)
    {pre : List SiteRequest} {db' : Db} {r : SiteRequest} (hr : r ∈ rs)
    (hdb : ConvexFollows db (convexName env secret k.keyId) k.endpoints rs pre db')
    (hin : InScope k.endpoints r) {a : Admission}
    (hadm : admission db' r.now (r.args settings hash) = .ok a) (hsite : a.isSiteKey = true)
    (hbs : buckets env (r.args settings hash) a = .ok (r.buckets.map fun b =>
      (b.name k.keyId (ipHash env secret), ((b.limit settings k : ℤ) : ℚ)))) :
    ConvexFollows db (convexName env secret k.keyId) k.endpoints rs (pre ++ [r])
        ((r.call settings hash).run env db').2 ∧
      ∀ l ls, loads settings k pre r = l :: ls →
        convexReported ((r.call settings hash).run env db').1 = some (convexReport r l ls) := by
  obtain ⟨t, audit, hshape⟩ := hdb.others
  let hits := r.buckets.map fun b =>
    hit (convexName env secret k.keyId b) ((b.limit settings k : ℤ) : ℚ)
  have hhits : (r.buckets.map fun b => (b.name k.keyId (ipHash env secret),
      ((b.limit settings k : ℤ) : ℚ))).map (fun b => hit b.1 b.2) = hits := by
    rw [List.map_map]
    rfl
  obtain ⟨states, t', hok, hunique⟩ := hitAll_unique hdb.unique r.now hits
  obtain ⟨audit', hauth⟩ := authorize_site hadm hsite hbs (by rw [hhits]; exact hok)
  have hrun : (r.call settings hash).run env db' = (.authorized
      ⟨if (combine states).allowed then .ok else .rateLimited, some a.principal,
        some (combine states).reply, none⟩,
      { db' with rateLimitWindows := t', securityAuditEvents := audit' }) := by
    rw [SiteRequest.call, run_authorize, hauth]
    rfl
  rw [hrun]
  refine ⟨⟨?_, hunique, fun q hq b hb w => ?_⟩, fun l ls hl => ?_⟩
  · subst hshape
    exact ⟨t', audit', rfl⟩
  · have hapart : ∀ b' ∈ r.buckets, convexName env secret k.keyId b' =
        convexName env secret k.keyId b → b' = b :=
      fun b' hb' he => h.name_inj hr hq hb' hb he
    rw [hitAll_count hok, hdb.counts q hq b hb w, addedBy_buckets hapart, hitLog_inScope hin,
      List.count_append]
  · have hnodup : (hits.map Hit.bucket).Nodup := by
      rw [List.map_map]
      exact (siteBuckets_nodup r).map_on fun b hb b' hb' he => h.name_inj hr hr hb hb' he
    have hstates : states = (l :: ls).map (Load.convexState r.reset) := by
      rw [hitAll_states hnodup hok, ← hl, loads, List.map_map, List.map_map]
      exact List.map_congr_left fun b hb => counterState_load (hdb.counts r hr b hb r.minute)
    rw [hstates, combine_loads]
    rfl

theorem ConvexFollows.step (h : SiteKeyRun env hash db secret d k maxBuckets rs)
    (halike : ReadAlike settings d) {pre : List SiteRequest} {db' : Db}
    (hdb : ConvexFollows db (convexName env secret k.keyId) k.endpoints rs pre db')
    {r : SiteRequest} (hr : r ∈ rs) :
    ConvexFollows db (convexName env secret k.keyId) k.endpoints rs (pre ++ [r])
        ((r.call settings hash).run env db').2 ∧
      (¬ InScope k.endpoints r → convexReported ((r.call settings hash).run env db').1 =
        some (.endpointNotAllowed, none)) ∧
      (InScope k.endpoints r → ∀ a ls, loads settings k pre r = a :: ls →
        convexReported ((r.call settings hash).run env db').1 = some (convexReport r a ls)) := by
  have hd := validate_some h.validated
  obtain ⟨t, audit, hshape⟩ := hdb.others
  have hadmission := admission_others hshape r.now (r.args settings hash)
  obtain ⟨hroute, ⟨hin, a, hadm, hsite, hkey, hrate⟩ | ⟨hout, rf, hrf, hstatus, hlimit⟩⟩ :=
    @described_admission env settings hash db d r (h.described r hr) h.site
  · rw [← hd.endpoints] at hin
    have hbs := @siteBuckets_eq env settings hash secret h.gatewaySecret d k hd
        halike hroute a hsite
      hkey hrate r
    obtain ⟨hnext, hreport⟩ := hdb.charged h hr hin (hadmission.trans hadm) hsite hbs
    exact ⟨hnext, fun hout => absurd hin hout, fun _ => hreport⟩
  · rw [← hd.endpoints] at hout
    obtain ⟨hnext, hreport⟩ := hdb.refused hout (hadmission.trans hrf)
    refine ⟨hnext, fun _ => ?_, fun hin => absurd hin hout⟩
    rw [hreport, hstatus, hlimit]

/-! ### Both paths over a run -/

/-- A request on the local path; the gateway it may ask is the deployment `db`. -/
def localStep (env : ProcessEnv) (settings : Settings) (hash : String) (db : Db) (s : AppState)
    (r : SiteRequest) : CachedReply × AppState :=
  authorizeCached settings hash (gatewayDescribe (describe env r.now hash db)) s r

/-- Empty caches and counters. -/
def startState (ttl : ℚ) (maxEntries maxBuckets : ℕ) : AppState :=
  ⟨⟨ttl, maxEntries, []⟩, ⟨maxBuckets, []⟩⟩

/-- What the local path reports on `r` after the requests `pre`. -/
def localReported (env : ProcessEnv) (settings : Settings) (hash : String) (db : Db) (s : AppState)
    (pre : List SiteRequest) (r : SiteRequest) : Option Report :=
  (localStep env settings hash db (Runs.final (localStep env settings hash db) s pre) r).1.reported

/-- What `authorize` reports on `r` after the requests `pre`. -/
def gatewayReported (env : ProcessEnv) (settings : Settings) (hash : String) (db : Db)
    (pre : List SiteRequest) (r : SiteRequest) : Option Report :=
  convexReported ((r.call settings hash).run env
    (Runs.final (Call.run env) db (pre.map (SiteRequest.call settings hash)))).1

theorem mem_of_split {rs pre post : List SiteRequest} {r : SiteRequest}
    (hrs : rs = pre ++ r :: post) : r ∈ rs := by
  rw [hrs]
  exact List.mem_append_right _ (List.mem_cons_self ..)

section Run
variable (h : SiteKeyRun env hash db secret d k maxBuckets rs) {pre post : List SiteRequest}
  {r : SiteRequest} (hrs : rs = pre ++ r :: post)
include h hrs

theorem SiteKeyRun.late : ∀ q ∈ pre, q.minute ≤ r.minute := by
  intro q hq
  have hordered := h.ordered
  rw [hrs, List.pairwise_append] at hordered
  exact Nat.div_le_div_right (hordered.2.2 q hq r (List.mem_cons_self ..))

theorem SiteKeyRun.room : (names (hitLog k.endpoints (pre ++ [r])) r.minute).card ≤ maxBuckets := by
  have hlog : hitLog k.endpoints rs =
      hitLog k.endpoints (pre ++ [r]) ++ hitLog k.endpoints post := by
    rw [hrs, List.append_cons]
    exact List.flatMap_append
  refine (Finset.card_le_card (names_mono ?_ r.minute)).trans (h.fits r.minute)
  rw [hlog]
  exact List.sublist_append_left _ _

theorem SiteKeyRun.localStep_eq (settings : Settings) (s : AppState) :
    localStep env settings hash db s r = authorizeCached settings hash (some (.ok k)) s r := by
  unfold localStep
  rw [h.described r (mem_of_split hrs)]
  simp only [gatewayDescribe, h.validated, Option.map_some]

end Run

theorem localReply_reported (r : SiteRequest) (a : Load) (ls : List Load) :
    (localReply r a ls).reported =
      some (if (a :: ls).all fun l => !l.exceeded then .ok else .rateLimited,
        some ((StableSort.first Load.leastLeft a ls).localState r.reset).reply) := by
  cases hall : (a :: ls).all fun l => !l.exceeded with
  | true => simp only [localReply, CachedReply.reported, hall]; rfl
  | false => simp only [localReply, CachedReply.reported, hall]; rfl

theorem SiteKeyRun.site_validated (h : SiteKeyRun env hash db secret d k maxBuckets rs) :
    k.isSiteKey = true := (validate_some h.validated).site.trans h.site

theorem SiteKeyRun.follows (h : SiteKeyRun env hash db secret d k maxBuckets rs)
    (halike : ReadAlike settings d) (ttl : ℚ) (maxEntries : ℕ) {pre post : List SiteRequest}
    (hrs : rs = pre ++ post) :
    LocalFollows hash k maxBuckets pre
        (Runs.final (localStep env settings hash db) (startState ttl maxEntries maxBuckets) pre) ∧
      ConvexFollows db (convexName env secret k.keyId) k.endpoints rs pre
        (Runs.final (Call.run env) db (pre.map (SiteRequest.call settings hash))) := by
  induction pre using List.reverseRecOn generalizing post with
  | nil =>
    refine ⟨⟨by simp [CacheHolds, startState], tracks_nil, rfl⟩, ⟨_, _, rfl⟩, fun k => ?_, ?_⟩
    · simp only [List.map_nil, Runs.final_nil, Table.query, h.fresh]
      exact Nat.zero_le _
    · intro r _ b _ w
      simp only [List.map_nil, Runs.final_nil, windowCount, Table.sum, h.fresh]
      rfl
  | append_singleton pre r ih =>
    rw [List.append_assoc] at hrs
    obtain ⟨hlocal, hconvex⟩ := ih hrs
    rw [List.map_append, Runs.final_append, Runs.final_append]
    simp only [List.map_cons, List.map_nil, Runs.final_cons, Runs.final_nil, Runs.next]
    rw [h.localStep_eq hrs]
    exact ⟨(hlocal.step settings h.site_validated (h.late hrs) (h.room hrs)).1,
      (ConvexFollows.step h halike hconvex (mem_of_split hrs)).1⟩

/-- Over every run of requests with a site key whose settings both read alike, the local path lets
through what `authorize` lets through. It reports the same limit, remainder and reset on every
request exactly when at no request a full bucket shadows the one that refuses it. -/
theorem siteKey_mirrors_iff (h : SiteKeyRun env hash db secret d k maxBuckets rs)
    (halike : ReadAlike settings d) (ttl : ℚ) (maxEntries : ℕ) :
    (∀ pre r post, rs = pre ++ r :: post →
      (localReported env settings hash db (startState ttl maxEntries maxBuckets) pre r).map
        Prod.fst = (gatewayReported env settings hash db pre r).map Prod.fst) ∧
    ((∀ pre r post, rs = pre ++ r :: post →
        localReported env settings hash db (startState ttl maxEntries maxBuckets) pre r =
          gatewayReported env settings hash db pre r) ↔
      ∀ pre r post, rs = pre ++ r :: post → InScope k.endpoints r →
        ¬ Shadowed (loads settings k pre r)) := by
  have hstep : ∀ pre r post, rs = pre ++ r :: post →
      (localReported env settings hash db (startState ttl maxEntries maxBuckets) pre r).map
        Prod.fst = (gatewayReported env settings hash db pre r).map Prod.fst ∧
      (localReported env settings hash db (startState ttl maxEntries maxBuckets) pre r =
          gatewayReported env settings hash db pre r ↔
        (InScope k.endpoints r → ¬ Shadowed (loads settings k pre r))) := by
    intro pre r post hrs
    obtain ⟨hlocal, hconvex⟩ := h.follows halike ttl maxEntries hrs
    obtain ⟨-, hlocalOut, hlocalIn⟩ :=
      hlocal.step settings h.site_validated (h.late hrs) (h.room hrs)
    obtain ⟨-, hconvexOut, hconvexIn⟩ := ConvexFollows.step h halike hconvex (mem_of_split hrs)
    unfold localReported gatewayReported
    rw [h.localStep_eq hrs]
    by_cases hin : InScope k.endpoints r
    · cases hl : loads settings k pre r with
      | nil => cases hl
      | cons a ls =>
        rw [hlocalIn hin a ls hl, hconvexIn hin a ls hl, localReply_reported, convexReport,
          ← reports_agree_iff r.reset a ls]
        refine ⟨rfl, ?_⟩
        rw [Option.some.injEq, Prod.mk.injEq, Option.some.injEq]
        exact ⟨fun heq _ => heq.2, fun heq => ⟨rfl, heq hin⟩⟩
    · obtain ⟨es, hes⟩ := hlocalOut hin
      rw [hes, hconvexOut hin]
      exact ⟨rfl, fun _ hin' => absurd hin' hin, fun _ => rfl⟩
  refine ⟨fun pre r post hrs => (hstep pre r post hrs).1, ?_⟩
  exact forall₄_congr fun pre r post hrs => (hstep pre r post hrs).2

/-! ### The map of the website -/

/-- The deployment with the key of the website. -/
def website : Db := Runs.final (Call.run testEnv) {} siteSetup

def defaultSettings : Settings where
  rateLimitPerMinute := 100
  siteKeyPerIpPerMinute := 60

/-- A route of one visitor in the first minute. -/
def mapRoute : SiteRequest where
  now := 1000
  monotonic := 1
  ip := ⟨"203.0.113.7", Or.inr (by decide)⟩
  endpoint := "route"

def websiteKey : Convex.KeyDescription where
  keyId := 0
  userId := 0
  isSiteKey := true
  rateLimitPerMinute := none
  accountLimit := 300
  routeLimit := 30
  endpoints := none

def websiteLimits : KeyDescription where
  keyId := 0
  userId := 0
  isSiteKey := true
  rateLimitPerMinute := none
  accountLimit := some 300
  routeLimit := some 30
  endpoints := none

def sixtyRoutes : List SiteRequest := List.replicate 60 mapRoute

theorem website_run : SiteKeyRun testEnv "site-key" website
    "test-gateway-secret-0123456789abcdefghijklmnop" websiteKey websiteLimits 200000
    sixtyRoutes where
  fresh := rfl
  gatewaySecret := by decide
  described r hr := by
    rw [List.eq_of_mem_replicate hr]
    rfl
  site := rfl
  validated := by rfl
  ordered := by simp [sixtyRoutes]
  fits w := (card_names_le _ w).trans (by decide +kernel)
  digest value := by
    unfold testEnv
    dsimp only
    split_ifs <;> decide
  apart r hr r' hr' _ := by
    rw [List.eq_of_mem_replicate hr, List.eq_of_mem_replicate hr']

theorem website_alike : ReadAlike defaultSettings websiteKey :=
  ⟨by decide, fun q hq => by cases hq⟩

theorem siteKey_mirrors_website :
    (∀ pre r post, sixtyRoutes = pre ++ r :: post →
      (localReported testEnv defaultSettings "site-key" website (startState 30 50000 200000) pre
        r).map Prod.fst =
        (gatewayReported testEnv defaultSettings "site-key" website pre r).map Prod.fst) ∧
    ((∀ pre r post, sixtyRoutes = pre ++ r :: post →
        localReported testEnv defaultSettings "site-key" website
            (startState 30 50000 200000) pre r =
          gatewayReported testEnv defaultSettings "site-key" website pre r) ↔
      ∀ pre r post, sixtyRoutes = pre ++ r :: post → InScope none r →
        ¬ Shadowed (loads defaultSettings websiteLimits pre r)) :=
  siteKey_mirrors_iff website_run website_alike 30 50000

/-- The sixtieth route within a minute is refused on both paths, locally under the address's limit
and by `authorize` under the one of its routes. -/
theorem website_sixtieth_route :
    localReported testEnv defaultSettings "site-key" website (startState 30 50000 200000)
        (List.replicate 59 mapRoute) mapRoute = some (.rateLimited, some ⟨60, 0, 60⟩) ∧
      gatewayReported testEnv defaultSettings "site-key" website (List.replicate 59 mapRoute)
        mapRoute = some (.rateLimited, some ⟨30, 0, 60⟩) := by
  decide +kernel

end GeoPlatform.Api
