import GeoPlatform.Convex.OkCalls

/-! The layered per-minute limits of `authorize` as caps over whole runs. Each layer has a bucket
of its own; a call is answered ok only when every bucket it names had room, so each layer is a
counted cap by itself, whatever the other layers, keys and transactions do. -/
namespace GeoPlatform.Convex
open Docs

/-- The layers of the limit. The visitor address `"unknown"` stands for all invalid ones. -/
inductive Layer where
  | key (keyId : ℕ)
  | account (userId : ℕ)
  | endpoint (keyId : ℕ) (endpoint : Option String)
  | global
  | visitor (address : String)
  deriving DecidableEq

variable (env : ProcessEnv)

/-- The limit an admitted call meets in a layer, if the layer counts it. Site-key calls have the
key and visitor layers, customer calls all the others. -/
def Layer.limit (args : AuthorizeArgs) (a : Admission) : Layer → Option ℚ
  | .key keyId => if a.key.id = keyId then some (perKeyLimit args a) else none
  | .account userId =>
      if a.isSiteKey = false ∧ a.key.val.userId = userId then some (perAccountLimit env args a)
      else none
  | .endpoint keyId e =>
      if a.isSiteKey = false ∧ a.key.id = keyId ∧ args.endpoint = e then
        some (perEndpointLimit env args a)
      else none
  | .global => if a.isSiteKey = false then some env.globalRateLimitPerMinute else none
  | .visitor address =>
      if a.isSiteKey = true ∧ visitorAddress args.clientIp = address then
        some (perIpLimit args : ℚ)
      else none

def Layer.bucket : Layer → String
  | .key keyId => keyBucket keyId
  | .account userId => userBucket userId
  | .endpoint keyId e => endpointBucket keyId e
  | .global => globalBucket
  | .visitor address =>
      match env.gatewaySecret with
      | .ok secret => ipBucket (slice 32 (env.hmacSha256Hex secret ("ip:" ++ address)))
      | .error _ => ""

variable {env}

/-- A layer that counts a call is one of the call's buckets. -/
theorem layer_mem_buckets {args : AuthorizeArgs} {a : Admission} {bs : List (String × ℚ)}
    (hbs : buckets env args a = .ok bs) {layer : Layer} {l : ℚ}
    (hl : layer.limit env args a = some l) : (layer.bucket env, l) ∈ bs := by
  unfold buckets at hbs
  by_cases hsite : a.isSiteKey = true
  · rw [if_pos hsite] at hbs
    obtain ⟨secret, hsecret, hbs⟩ := except_bind_ok.mp hbs
    cases hbs
    cases layer with
    | key keyId =>
      simp only [Layer.limit] at hl
      split_ifs at hl with hk
      cases hl
      simp [Layer.bucket, hk]
    | visitor address =>
      simp only [Layer.limit] at hl
      split_ifs at hl with hv
      cases hl
      simp [Layer.bucket, hsecret, visitorHash, hv.2]
    | account userId => simp [Layer.limit, hsite] at hl
    | endpoint keyId e => simp [Layer.limit, hsite] at hl
    | global => simp [Layer.limit, hsite] at hl
  · rw [if_neg hsite] at hbs
    cases hbs
    cases layer with
    | key keyId =>
      simp only [Layer.limit] at hl
      split_ifs at hl with hk
      cases hl
      simp [Layer.bucket, hk]
    | account userId =>
      simp only [Layer.limit] at hl
      split_ifs at hl with hu
      cases hl
      simp [Layer.bucket, hu.2]
    | endpoint keyId e =>
      simp only [Layer.limit] at hl
      split_ifs at hl with he
      cases hl
      simp [Layer.bucket, he.2.1, he.2.2]
    | global =>
      simp only [Layer.limit] at hl
      split_ifs at hl
      cases hl
      simp [Layer.bucket]
    | visitor address => simp [Layer.limit, hsite] at hl

variable (env)

/-- The limit in a layer that a call answered ok has met. -/
def okLimit (layer : Layer) (db : Db) (c : Call) : Option ℚ :=
  (okCall env db c).bind fun r => layer.limit env r.1 r.2

/-- One for each call of the minute that was answered ok and that the layer counts. -/
def okInMinute (layer : Layer) (minute : ℕ) (db : Db) (c : Call) : ℕ :=
  if (okLimit env layer db c).isSome ∧ windowStart c.now MINUTE_MS = minute then 1 else 0

/-- The clock of a run never steps back by more than four minutes. -/
def ClockSteady (cs : List Call) : Prop :=
  cs.Pairwise fun a b => a.now ≤ b.now + 4 * MINUTE_MS

variable {env}

theorem okInMinute_pos {layer : Layer} {minute : ℕ} {db : Db} {c : Call}
    (h : 0 < okInMinute env layer minute db c) :
    ∃ args a l, okCall env db c = some (args, a) ∧ layer.limit env args a = some l ∧
      okLimit env layer db c = some l ∧ windowStart c.now MINUTE_MS = minute ∧
      okInMinute env layer minute db c = 1 := by
  unfold okInMinute at h ⊢
  split_ifs at h with hcond
  · obtain ⟨hsome, hminute⟩ := hcond
    obtain ⟨l, hl⟩ := Option.isSome_iff_exists.mp hsome
    have hbind := hl
    unfold okLimit at hbind
    obtain ⟨⟨args, a⟩, hok, hlimit⟩ := Option.bind_eq_some_iff.mp hbind
    exact ⟨args, a, l, hok, hlimit, hl, hminute, by rw [if_pos ⟨hsome, hminute⟩]⟩
  · cases h

/-- A cleanup takes the counters of minutes that are over, and no later call reaches back. -/
theorem minute_dropsLast {cs : List Call} (hclock : ClockSteady cs) (layer : Layer) (minute : ℕ)
    (db : Db) :
    Runs.DropsLast (Call.run env) (DropsWindow (layer.bucket env) minute)
      (okInMinute env layer minute) db cs := by
  induction cs generalizing db with
  | nil => trivial
  | cons c cs ih =>
    obtain ⟨hlater, hrest⟩ := List.pairwise_cons.mp hclock
    refine ⟨?_, ih hrest _⟩
    rintro ⟨-, d, hd, hw⟩ c' hc' db'
    by_contra hne
    obtain ⟨-, -, -, -, -, -, hminute, -⟩ := okInMinute_pos (Nat.pos_of_ne_zero hne)
    have hold := (mem_expiredWindows.mp hd).2
    simp only [isWindow, Bool.and_eq_true, decide_eq_true_eq] at hw
    have hstart : d.val.windowStart + 5 * MINUTE_MS < c.now := by
      by_contra hyoung
      exact hold (Or.inl (not_lt.mp hyoung))
    have hback := hlater c' hc'
    have hend := lt_windowStart_add c'.now (show 0 < MINUTE_MS by decide)
    rw [hminute, ← hw.2] at hend
    omega

/-- Every layer caps every minute: when the calls of the minute that the layer counts all meet a
limit of at most `L`, at most `L` of them are answered ok. -/
theorem layer_minute_cap {db : Db} {cs : List Call} (hclock : ClockSteady cs) {layer : Layer}
    {minute : ℕ} {L : ℚ} (hL : 0 ≤ L)
    (hlimit : ∀ x ∈ Runs.trace (Call.run env) db cs,
      windowStart x.event.now MINUTE_MS = minute →
        ∀ l ∈ okLimit env layer x.before x.event, l ≤ L) :
    (Runs.total (Call.run env) (okInMinute env layer minute) db cs : ℚ) ≤ L := by
  refine window_cap hL (fun x hx hpos => ?_) (minute_dropsLast hclock layer minute db)
  obtain ⟨args, a, l, hok, hl, hokl, hminute, hone⟩ := okInMinute_pos hpos
  obtain ⟨bs, hbs, hcounted⟩ := okCall_counted hok
  have hmem := layer_mem_buckets hbs hl
  refine ⟨hit (layer.bucket env) l, hcounted _ hmem, rfl, hminute, hone, ?_⟩
  exact hlimit x hx hminute l (by rw [hokl]; rfl)

theorem account_minute_cap_two_requests :
    (Runs.total (Call.run testEnv) (okInMinute testEnv (.account 0) 0) freeAccount
      [⟨0, .authorize freeRequest⟩, ⟨1000, .prune⟩, ⟨2000, .authorize freeRequest⟩] : ℚ) ≤ 30 := by
  have hclock : ClockSteady
      [⟨0, .authorize freeRequest⟩, ⟨1000, .prune⟩, ⟨2000, .authorize freeRequest⟩] := by
    simp [ClockSteady, MINUTE_MS]
  exact layer_minute_cap hclock (by norm_num) (by decide +kernel)

end GeoPlatform.Convex
