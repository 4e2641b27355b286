import GeoPlatform.Api.BucketLoads
import GeoPlatform.Convex.Lookups

/-! Runs of site-key requests against the local cache and against `authorize`. Both keep a count
for each bucket and minute, under names of their own; the counts are the same. -/
namespace GeoPlatform.Api
open GeoPlatform.Convex hiding KeyDescription RateLimitState
open BoundedCounter Docs

/-! ### What a request is counted under -/

inductive Bucket where
  | address (ip : String)
  | key
  | route (ip : String)
  deriving DecidableEq

def SiteRequest.buckets (r : SiteRequest) : List Bucket :=
  [.address r.ip.text, .key] ++ if r.endpoint = "route" then [.route r.ip.text] else []

def SiteRequest.minute (r : SiteRequest) : ℕ := r.now / 60000

/-- The key may call the endpoint. -/
def InScope (endpoints : Option (List ApiEndpoint)) (r : SiteRequest) : Prop :=
  ∀ es, endpoints = some es → ∃ e ∈ es, e.name = r.endpoint

instance (endpoints : Option (List ApiEndpoint)) (r : SiteRequest) :
    Decidable (InScope endpoints r) :=
  match endpoints with
  | none => isTrue (by simp [InScope])
  | some es => decidable_of_iff (∃ e ∈ es, e.name = r.endpoint) (by simp [InScope])

/-- The hits of a request. -/
def charges (endpoints : Option (List ApiEndpoint)) (r : SiteRequest) : List (Bucket × ℕ) :=
  if InScope endpoints r then r.buckets.map fun b => (b, r.minute) else []

def hitLog (endpoints : Option (List ApiEndpoint)) (rs : List SiteRequest) : List (Bucket × ℕ) :=
  rs.flatMap (charges endpoints)

def Bucket.limit (settings : Settings) (d : KeyDescription) : Bucket → ℤ
  | .address _ => settings.siteKeyPerIpPerMinute
  | .key => orElse d.rateLimitPerMinute 10000
  | .route _ => min settings.siteKeyPerIpPerMinute
      (orElse d.routeLimit settings.siteKeyPerIpPerMinute)

/-- The loads of a request that follows `pre`. -/
def loads (settings : Settings) (d : KeyDescription) (pre : List SiteRequest) (r : SiteRequest) :
    List Load :=
  r.buckets.map fun b => ⟨b.limit settings d, (hitLog d.endpoints pre).count (b, r.minute) + 1⟩

theorem hitLog_append (endpoints : Option (List ApiEndpoint)) (pre : List SiteRequest)
    (r : SiteRequest) :
    hitLog endpoints (pre ++ [r]) = hitLog endpoints pre ++ charges endpoints r := by
  simp [hitLog]

theorem hitLog_inScope {endpoints : Option (List ApiEndpoint)} {r : SiteRequest}
    (h : InScope endpoints r) (pre : List SiteRequest) : hitLog endpoints (pre ++ [r]) =
      hitLog endpoints pre ++ r.buckets.map fun b => (b, r.minute) := by
  rw [hitLog_append, charges, if_pos h]

theorem hitLog_outOfScope {endpoints : Option (List ApiEndpoint)} {r : SiteRequest}
    (h : ¬ InScope endpoints r) (pre : List SiteRequest) :
    hitLog endpoints (pre ++ [r]) = hitLog endpoints pre := by
  rw [hitLog_append, charges, if_neg h, List.append_nil]

theorem mem_hitLog {endpoints : Option (List ApiEndpoint)} {rs : List SiteRequest}
    {k : Bucket × ℕ} (h : k ∈ hitLog endpoints rs) :
    ∃ r ∈ rs, k.1 ∈ r.buckets ∧ k.2 = r.minute := by
  obtain ⟨r, hr, hk⟩ := List.mem_flatMap.mp h
  unfold charges at hk
  split_ifs at hk
  · obtain ⟨b, hb, rfl⟩ := List.mem_map.mp hk
    exact ⟨r, hr, hb, rfl⟩
  · cases hk

theorem siteBuckets_nodup (r : SiteRequest) : r.buckets.Nodup := by
  unfold SiteRequest.buckets
  split_ifs <;> simp

theorem mem_siteBuckets {r : SiteRequest} {b : Bucket} (h : b ∈ r.buckets) :
    b = .address r.ip.text ∨ b = .key ∨ b = .route r.ip.text := by
  unfold SiteRequest.buckets at h
  split_ifs at h
  · simpa using h
  · have hshort : b = .address r.ip.text ∨ b = .key := by simpa using h
    exact hshort.imp_right Or.inl

/-! ### The two ways to name buckets -/

/-- The name of a bucket, from what stands for the address. -/
def Bucket.name (keyId : ℕ) (address : String → String) : Bucket → String
  | .address ip => "ip:" ++ address ip
  | .key => keyBucket keyId
  | .route ip => "ip:" ++ address ip ++ ":route"

/-- Names are apart as long as what stands for addresses is, and none of it ends in a path. -/
theorem Bucket.name_inj {keyId : ℕ} {address : String → String} {r r' : SiteRequest}
    {b b' : Bucket} (hb : b ∈ r.buckets) (hb' : b' ∈ r'.buckets)
    (hinj : address r.ip.text = address r'.ip.text → r.ip.text = r'.ip.text)
    (hpath : address r.ip.text ≠ address r'.ip.text ++ ":route")
    (hpath' : address r'.ip.text ≠ address r.ip.text ++ ":route")
    (h : b.name keyId address = b'.name keyId address) : b = b' := by
  have hl := congrArg String.toList h
  have hcat : ∀ {s t : String}, s.toList = t.toList ++ ":route".toList → s = t ++ ":route" :=
    fun he => String.ext (by rw [he, String.toList_append])
  rcases mem_siteBuckets hb with rfl | rfl | rfl <;>
    rcases mem_siteBuckets hb' with rfl | rfl | rfl
  · simp only [name, String.toList_append, List.append_cancel_left_eq] at hl
    rw [hinj (String.ext hl)]
  · simp [name, keyBucket] at hl
  · simp only [name, String.toList_append, List.append_assoc, List.append_cancel_left_eq] at hl
    exact absurd (hcat hl) hpath
  · simp [name, keyBucket] at hl
  · rfl
  · simp [name, keyBucket] at hl
  · simp only [name, String.toList_append, List.append_assoc, List.append_cancel_left_eq] at hl
    exact absurd (hcat hl.symm) hpath'
  · simp [name, keyBucket] at hl
  · simp only [name, String.toList_append, List.append_cancel_left_eq,
      List.append_cancel_right_eq] at hl
    rw [hinj (String.ext hl)]

/-- No address ends in a path. -/
theorem VisitorIp.ne_path (a b : VisitorIp) : a.text ≠ b.text ++ ":route" := by
  intro h
  have hr : 'r' ∈ a.text.toList := by
    rw [h, String.toList_append]
    exact List.mem_append_right _ (by decide)
  rcases a.valid with hunknown | hpattern
  · rw [hunknown] at hr
    exact absurd hr (by decide)
  · simp only [ipPattern, Bool.and_eq_true, List.all_eq_true] at hpattern
    exact absurd (hpattern.2 _ hr) (by decide)

/-! ### The local limiter over a run -/

/-- Hits of the buckets of one request, all in one minute. -/
theorem foldl_hitBuckets {now : ℕ} {log : List (String × ℕ)} {bs : List (String × ℤ)}
    {w : WindowRateLimiter} (hw : Tracks log w.counts) (hlate : ∀ j ∈ log, j.2 ≤ now / 60000)
    (hnodup : (bs.map Prod.fst).Nodup)
    (hroom : (names (log ++ bs.map fun b => (b.1, now / 60000)) (now / 60000)).card ≤ w.maxBuckets)
    (acc : Bool × Option RateLimitState) :
    ∃ w' : WindowRateLimiter, bs.foldl (hitBuckets now) (acc, w) =
        ((bs.map fun b => (⟨b.2, log.count (b.1, now / 60000) + 1⟩ : Load)).foldl
          (judge ((now / 60000 + 1) * 60)) acc, w') ∧
      Tracks (log ++ bs.map fun b => (b.1, now / 60000)) w'.counts ∧
      w'.maxBuckets = w.maxBuckets := by
  induction bs generalizing log w acc with
  | nil => exact ⟨w, rfl, by simpa using hw, rfl⟩
  | cons b bs ih =>
    obtain ⟨hnotin, hnodup⟩ := List.nodup_cons.mp hnodup
    rw [List.map_cons, List.append_cons] at hroom
    have hfirst : (names (log ++ [(b.1, now / 60000)]) (now / 60000)).card ≤ w.maxBuckets :=
      (Finset.card_le_card (names_mono (List.sublist_append_left _ _) _)).trans hroom
    obtain ⟨hcount, htracks⟩ := hw.bump hlate hfirst
    have hlate' : ∀ j ∈ log ++ [(b.1, now / 60000)], j.2 ≤ now / 60000 := by
      intro j hj
      rcases List.mem_append.mp hj with hj | hj
      · exact hlate j hj
      · rw [List.mem_singleton.mp hj]
    let w₁ : WindowRateLimiter :=
      { w with counts := (bump w.maxBuckets w.counts (b.1, now / 60000)).2 }
    have hstep : hitBuckets now (acc, w) b =
        (judge ((now / 60000 + 1) * 60) acc ⟨b.2, log.count (b.1, now / 60000) + 1⟩, w₁) := by
      simp only [hitBuckets, WindowRateLimiter.hit, hcount, judge, Load.exceeded, Load.localState,
        Load.remaining, ← decide_not, not_lt, w₁]
      push_cast
      rfl
    obtain ⟨w', hrest, htracks', hmax⟩ := ih (w := w₁) htracks hlate' hnodup hroom
      (judge ((now / 60000 + 1) * 60) acc ⟨b.2, log.count (b.1, now / 60000) + 1⟩)
    refine ⟨w', ?_, by rwa [List.map_cons, List.append_cons], hmax⟩
    rw [List.foldl_cons, hstep, hrest, List.map_cons, List.foldl_cons]
    -- The later buckets have other names, so the first hit does not count for them.
    congr 2
    refine List.map_congr_left fun b' hb' => ?_
    have hne : (b.1, now / 60000) ≠ (b'.1, now / 60000) := by
      intro he
      exact hnotin ((Prod.ext_iff.mp he).1 ▸ List.mem_map_of_mem hb')
    rw [List.count_append, List.count_singleton, beq_eq_false_iff_ne.mpr hne]
    simp

/-- Whatever the cache holds for the credential is its description. -/
def CacheHolds (hash : String) (d : KeyDescription) (c : TTLCache KeyDescription) : Prop :=
  ∀ e ∈ c.data, e.1 = hash → e.2.2 = d

theorem CacheHolds.get {hash : String} {d : KeyDescription} {c : TTLCache KeyDescription}
    (h : CacheHolds hash d c) (monotonic : ℚ) :
    CacheHolds hash d (c.get hash monotonic).2 ∧
      ∀ v, (c.get hash monotonic).1 = some v → v = d := by
  have honly : c.Only fun key value => key = hash → value = d := h
  obtain ⟨hget, hvalue⟩ := honly.get hash monotonic
  exact ⟨hget, fun v hv => hvalue v hv rfl⟩

theorem CacheHolds.set {hash : String} {d : KeyDescription} {c : TTLCache KeyDescription}
    (h : CacheHolds hash d c) (monotonic : ℚ) : CacheHolds hash d (c.set hash d monotonic) := by
  have honly : c.Only fun key value => key = hash → value = d := h
  exact honly.set (fun _ => rfl) monotonic

/-- With the description valid, cached or fetched, the request is judged by it. -/
theorem authorizeCached_described {settings : Settings} {hash : String} {d : KeyDescription}
    {s : AppState} (h : CacheHolds hash d s.keyCache) (r : SiteRequest) :
    ∃ c, CacheHolds hash d c ∧ authorizeCached settings hash (some (.ok d)) s r =
      enforce settings r ⟨c, s.windowLimiter⟩ d := by
  obtain ⟨hget, hvalue⟩ := h.get r.monotonic
  unfold authorizeCached
  cases hcached : (s.keyCache.get hash r.monotonic).1 with
  | none =>
    refine ⟨_, hget.set r.monotonic, ?_⟩
    simp only [hcached]
  | some v =>
    refine ⟨_, hget, ?_⟩
    simp only [hcached, hvalue v hcached]

theorem localBuckets_eq {settings : Settings} {d : KeyDescription} (hsite : d.isSiteKey = true)
    (r : SiteRequest) : localBuckets settings d r =
      r.buckets.map fun b => (b.name d.keyId id, b.limit settings d) := by
  unfold localBuckets SiteRequest.buckets
  rw [if_pos hsite]
  split_ifs <;> rfl

theorem localName_inj {keyId : ℕ} {r r' : SiteRequest} {b b' : Bucket} (hb : b ∈ r.buckets)
    (hb' : b' ∈ r'.buckets) (h : b.name keyId id = b'.name keyId id) : b = b' :=
  Bucket.name_inj hb hb' id (r.ip.ne_path r'.ip) (r'.ip.ne_path r.ip) h

/-- The state of the API after the requests `pre`. -/
structure LocalFollows (hash : String) (d : KeyDescription) (maxBuckets : ℕ)
    (pre : List SiteRequest) (s : AppState) : Prop where
  cache : CacheHolds hash d s.keyCache
  counts : Tracks ((hitLog d.endpoints pre).map fun k => (k.1.name d.keyId id, k.2))
    s.windowLimiter.counts
  room : s.windowLimiter.maxBuckets = maxBuckets

/-- The end of the minute of a request, in seconds. -/
def SiteRequest.reset (r : SiteRequest) : ℕ := (r.minute + 1) * 60

/-- What the local loop answers to a request with the loads `a :: ls`. -/
def localReply (r : SiteRequest) (a : Load) (ls : List Load) : CachedReply :=
  let b := (StableSort.first Load.leastLeft a ls).localState r.reset
  ⟨if (a :: ls).all fun l => !l.exceeded then .ok
    else .tooMany b.limit (max 1 (b.reset - r.now / 1000)), some b⟩

theorem not_inScope {endpoints : Option (List ApiEndpoint)} {r : SiteRequest} :
    ¬ InScope endpoints r ↔ ∃ es, endpoints = some es ∧ ∀ e ∈ es, e.name ≠ r.endpoint := by
  simp [InScope]

theorem enforce_outOfScope {d : KeyDescription} {r : SiteRequest}
    (h : ¬ InScope d.endpoints r) (settings : Settings) (s : AppState) :
    ∃ es, enforce settings r s d = (⟨.endpointNotAllowed es, none⟩, s) := by
  obtain ⟨es, hes, hnone⟩ := not_inScope.mp h
  refine ⟨es, ?_⟩
  have hany : (es.any fun e => decide (e.name = r.endpoint)) = false := by
    simpa using hnone
  simp [enforce, hes, Option.filter, hany]

theorem enforce_inScope {settings : Settings} {d : KeyDescription} {r : SiteRequest}
    (h : InScope d.endpoints r) {s : AppState} {a : Load} {ls : List Load} {w : WindowRateLimiter}
    (hloads : (localBuckets settings d r).foldl (hitBuckets r.now) ((true, none), s.windowLimiter) =
      ((a :: ls).foldl (judge r.reset) (true, none), w)) :
    enforce settings r s d = (localReply r a ls, { s with windowLimiter := w }) := by
  have hscope : (d.endpoints.filter fun es => !es.any fun e => e.name = r.endpoint) = none := by
    cases hes : d.endpoints with
    | none => rfl
    | some es =>
      obtain ⟨e, he, hname⟩ := h es hes
      have hany : (es.any fun e => decide (e.name = r.endpoint)) = true := by
        simpa using ⟨e, he, hname⟩
      simp [Option.filter, hany]
  rw [foldl_judge] at hloads
  unfold enforce
  rw [hscope]
  simp only [hloads]
  split_ifs with hall
  · simp only [localReply, hall, if_true]
  · simp only [localReply, hall, Bool.false_eq_true, if_false]

/-- Under their names on the local path the buckets have the loads of the request. -/
theorem localLoads_eq (settings : Settings) (d : KeyDescription) (pre : List SiteRequest)
    (r : SiteRequest) :
    (r.buckets.map fun b => (b.name d.keyId id, b.limit settings d)).map
      (fun b => (⟨b.2, ((hitLog d.endpoints pre).map fun k => (k.1.name d.keyId id, k.2)).count
        (b.1, r.now / 60000) + 1⟩ : Load)) = loads settings d pre r := by
  rw [List.map_map]
  refine List.map_congr_left fun b hb => ?_
  have hapart : ∀ k ∈ hitLog d.endpoints pre,
      k.1.name d.keyId id = b.name d.keyId id → k.1 = b := by
    intro k hk he
    obtain ⟨q, -, hkq, -⟩ := mem_hitLog hk
    exact localName_inj hkq hb he
  have hcount := count_map (f := fun b : Bucket => b.name d.keyId id) hapart r.minute
  exact congrArg (fun n => (⟨b.limit settings d, n + 1⟩ : Load)) hcount

section Step
variable {hash : String} {d : KeyDescription} {maxBuckets : ℕ} {pre : List SiteRequest}
variable {s : AppState} {r : SiteRequest}

/-- The loop over the buckets sees the loads of the request, and counts its hits. -/
theorem LocalFollows.foldl_localBuckets (settings : Settings)
    (h : LocalFollows hash d maxBuckets pre s) (hsite : d.isSiteKey = true)
    (hin : InScope d.endpoints r) (hlate : ∀ q ∈ pre, q.minute ≤ r.minute)
    (hroom : (names (hitLog d.endpoints (pre ++ [r])) r.minute).card ≤ maxBuckets) :
    ∃ w : WindowRateLimiter,
      (localBuckets settings d r).foldl (hitBuckets r.now) ((true, none), s.windowLimiter) =
        ((loads settings d pre r).foldl (judge r.reset) (true, none), w) ∧
      Tracks ((hitLog d.endpoints (pre ++ [r])).map fun k => (k.1.name d.keyId id, k.2))
        w.counts ∧
      w.maxBuckets = maxBuckets := by
  have hlog : ((hitLog d.endpoints pre).map fun k => (k.1.name d.keyId id, k.2)) ++
      (r.buckets.map fun b => (b.name d.keyId id, b.limit settings d)).map
        (fun b => (b.1, r.minute)) =
      (hitLog d.endpoints (pre ++ [r])).map fun k => (k.1.name d.keyId id, k.2) := by
    rw [hitLog_inScope hin, List.map_append, List.map_map, List.map_map]
    rfl
  have hnodup : ((r.buckets.map fun b => (b.name d.keyId id, b.limit settings d)).map
      Prod.fst).Nodup := by
    rw [List.map_map]
    exact (siteBuckets_nodup r).map_on fun b hb b' hb' he => localName_inj hb hb' he
  have hfits := (Finset.card_image_le (f := fun b : Bucket => b.name d.keyId id)).trans hroom
  rw [← names_map, ← hlog, ← h.room] at hfits
  have hlate' : ∀ j ∈ (hitLog d.endpoints pre).map fun k => (k.1.name d.keyId id, k.2),
      j.2 ≤ r.now / 60000 := by
    intro j hj
    obtain ⟨k, hk, rfl⟩ := List.mem_map.mp hj
    obtain ⟨q, hq, -, hminute⟩ := mem_hitLog hk
    exact hminute ▸ hlate q hq
  obtain ⟨w, hfold, hcounts, hmax⟩ :=
    foldl_hitBuckets h.counts hlate' hnodup hfits (true, none)
  rw [localLoads_eq, ← localBuckets_eq hsite] at hfold
  refine ⟨w, hfold, ?_, hmax.trans h.room⟩
  rw [← hlog]
  exact hcounts

theorem LocalFollows.step (settings : Settings) (h : LocalFollows hash d maxBuckets pre s)
    (hsite : d.isSiteKey = true) (hlate : ∀ q ∈ pre, q.minute ≤ r.minute)
    (hroom : (names (hitLog d.endpoints (pre ++ [r])) r.minute).card ≤ maxBuckets) :
    LocalFollows hash d maxBuckets (pre ++ [r])
        (authorizeCached settings hash (some (.ok d)) s r).2 ∧
      (¬ InScope d.endpoints r → ∃ es,
        (authorizeCached settings hash (some (.ok d)) s r).1 = ⟨.endpointNotAllowed es, none⟩) ∧
      (InScope d.endpoints r → ∀ a ls, loads settings d pre r = a :: ls →
        (authorizeCached settings hash (some (.ok d)) s r).1 = localReply r a ls) := by
  obtain ⟨c, hcache, heq⟩ := @authorizeCached_described settings hash d s h.cache r
  rw [heq]
  by_cases hin : InScope d.endpoints r
  · obtain ⟨w, hfold, hcounts, hmax⟩ := h.foldl_localBuckets settings hsite hin hlate hroom
    cases hal : loads settings d pre r with
    | nil => cases hal
    | cons a ls =>
      rw [hal] at hfold
      have henforce := @enforce_inScope settings d r hin ⟨c, s.windowLimiter⟩ a ls w hfold
      rw [henforce]
      refine ⟨⟨hcache, hcounts, hmax⟩, fun hout => absurd hin hout, ?_⟩
      intro _ a' ls' he
      cases he
      rfl
  · obtain ⟨es, hes⟩ := enforce_outOfScope hin settings ⟨c, s.windowLimiter⟩
    rw [hes]
    refine ⟨⟨hcache, ?_, h.room⟩, fun _ => ⟨es, rfl⟩, fun hin' => absurd hin' hin⟩
    rw [hitLog_outOfScope hin]
    exact h.counts

end Step

end GeoPlatform.Api
