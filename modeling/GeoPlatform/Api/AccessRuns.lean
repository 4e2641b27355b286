import GeoPlatform.Api.Access
import GeoPlatform.Convex.MinuteCaps
import GeoPlatform.Library.ListSums
import GeoPlatform.Library.RunImage

/-! Admissions in production, where nothing is authorized from a cache: every request that gets
through has its own `authorize` transaction that Convex answered ok, so what Convex caps is capped
at the API. -/
namespace GeoPlatform.Api
open GeoPlatform.ArcGIS
open GeoPlatform.Convex hiding KeyDescription RateLimitState Principal

variable {P : PyText} {settings : AccessSettings} {env : ProcessEnv}

/-! ### The transactions of a run -/

/-- The transaction that an event makes Convex run. -/
def AccessSystem.convexCall (s : AccessSystem) : AccessEvent → Option Call
  | .commit now i =>
      match s.calls[i]? with
      | some { lookup, committed := none, .. } => some ⟨now, lookup.txn⟩
      | _ => none
  | .call c => some c
  | _ => none

/-- The transactions of a run, in the order in which they are committed. -/
def convexCalls (P : PyText) (settings : AccessSettings) (env : ProcessEnv) (s : AccessSystem)
    (es : List AccessEvent) : List Call :=
  Runs.image (AccessSystem.step P settings env) AccessSystem.convexCall s es

theorem follows_convex : Runs.Follows (AccessSystem.step P settings env) (Call.run env)
    AccessSystem.db AccessSystem.convexCall := by
  intro s e
  cases e with
  | arrive now monotonic r =>
    show (s.step P settings env (.arrive now monotonic r)).2.db = s.db
    simp only [AccessSystem.step]
    split <;> rfl
  | commit now i =>
    rcases hcall : s.calls[i]? with _ | ⟨lookup, committed, waiting⟩
    · simp [Runs.next, AccessSystem.step, AccessSystem.convexCall, hcall]
    · cases committed <;> simp [Runs.next, AccessSystem.step, AccessSystem.convexCall, hcall]
  | receive now monotonic i =>
    show (s.step P settings env (.receive now monotonic i)).2.db = s.db
    simp only [AccessSystem.step]
    split <;> rfl
  | fail i =>
    show (s.step P settings env (.fail i)).2.db = s.db
    simp only [AccessSystem.step]
    split <;> rfl
  | call c => rfl

/-! ### Requests without a cache -/

/-- The credential of the request that waits, and the transaction that it asks for. -/
structure Lookup.Asks (P : PyText) (settings : AccessSettings) (l : Lookup) (credentials : String)
    (isSiteKey : Bool) : Prop where
  presented : l.request.credentials = some credentials
  kind : credentialKind (strip P credentials.toList) = some l.kind
  hash : l.hash = settings.hashCredential (String.ofList (strip P credentials.toList))
  txn : l.txn = .authorize (authorizeArgs settings l.request l.kind l.hash isSiteKey)

theorem remember_app (g : Gate) (now : ℕ) (monotonic : ℚ) (e : Effects) :
    (g.remember now monotonic e).app = g.app := by
  obtain ⟨refusal, failure⟩ := e
  cases refusal <;> cases failure <;> rfl

variable (P settings)

/-- Without the cache a request is turned away at once, or asks Convex. -/
theorem arrive_direct {g : Gate} (huncached : g.app.keyCache.enabled = false) (now : ℕ)
    (monotonic : ℚ) (r : ApiRequest) :
    (g.arrive P settings now monotonic r).2.2.app = g.app ∧
      ((∃ e, (g.arrive P settings now monotonic r).1 = .done (refuse e)) ∨
        ∃ l credentials isSiteKey, (g.arrive P settings now monotonic r).1 = .lookup l ∧
          l.request = r ∧ l.Asks P settings credentials isSiteKey) := by
  unfold Gate.arrive
  split_ifs
  · exact ⟨rfl, .inl ⟨_, rfl⟩⟩
  · split
    · exact ⟨rfl, .inl ⟨_, rfl⟩⟩
    · rename_i credentials hcredentials
      obtain ⟨hsome, -⟩ := Option.filter_eq_some_iff.mp hcredentials
      split
      · exact ⟨rfl, .inl ⟨_, rfl⟩⟩
      · rcases hkind : credentialKind (strip P credentials.toList) with _ | kind
        · simp only [hkind]
          exact ⟨trivial, .inl ⟨_, rfl⟩⟩
        · simp only [hkind, huncached, Bool.and_false, Bool.false_eq_true, if_false]
          split
          · exact ⟨rfl, .inl ⟨_, rfl⟩⟩
          · exact ⟨rfl, .inr ⟨_, credentials, _, rfl, rfl, hsome, hkind, rfl, rfl⟩⟩

variable {P settings}

theorem conclude_authorize {g : Gate} {now : ℕ} {monotonic : ℚ} {l : Lookup} {answer : Answer}
    {args : AuthorizeArgs} (htxn : l.txn = .authorize args) :
    (g.conclude settings now monotonic l answer).2.2 = g ∧
      ∀ p, (g.conclude settings now monotonic l answer).1.verdict = .ok p →
        ∃ reply q, answer = .authorized reply ∧ reply.status = .ok ∧ reply.principal = some q ∧
          p = Principal.of q := by
  unfold Gate.conclude
  rw [htxn]
  simp only
  split
  · refine ⟨rfl, fun p hp => ?_⟩
    cases hp
  · rename_i result hresult
    refine ⟨rfl, fun p hp => ?_⟩
    simp only [authorizationVerdict] at hp
    split at hp
    · rename_i principal hstatus hprincipal
      obtain rfl := Except.ok.inj hp
      cases answer with
      | authorized reply =>
        simp only [gatewayAuthorize, Option.bind_eq_bind, Option.bind_eq_some_iff] at hresult
        obtain ⟨rateLimit, -, hreturn⟩ := hresult
        obtain rfl := Option.some.inj hreturn
        obtain ⟨q, hq, rfl⟩ := Option.map_eq_some_iff.mp hprincipal
        exact ⟨reply, q, rfl, hstatus, hq, rfl⟩
      | _ => cases hresult
    · cases hp
    · cases hp
    · cases hp
    · cases hp

/-! ### Admissions -/

/-- The call that an event concludes, with the time of its commit and the answer. -/
def AccessSystem.received (s : AccessSystem) : AccessEvent → Option (Lookup × ℕ × Answer)
  | .receive _ _ i =>
      match s.calls[i]? with
      | some { lookup, committed := some (at', answer), waiting := true } =>
          some (lookup, at', answer)
      | _ => none
  | _ => none

/-- The layer counts an admitted request. -/
def Lookup.countedIn (l : Lookup) (p : Principal) : Layer → Bool
  | .key keyId => p.keyId = toString keyId
  | .account userId => !p.isSiteKey && p.userId = toString userId
  | .endpoint keyId endpoint =>
      !p.isSiteKey && p.keyId = toString keyId && endpoint = some (slice 64 l.request.endpoint)
  | .global => !p.isSiteKey
  | .visitor address => p.isSiteKey && match l.txn with
      | .authorize args => visitorAddress args.clientIp = address
      | _ => false

/-- One for each request that gets through, if the layer counts it and it was authorized in the
minute. -/
def AccessSystem.admitted (P : PyText) (settings : AccessSettings) (env : ProcessEnv)
    (layer : Layer) (minute : ℕ) (s : AccessSystem) (e : AccessEvent) : ℕ :=
  match (s.step P settings env e).1.reply, s.received e with
  | some ⟨.ok p, _⟩, some (l, at', _) =>
      if l.countedIn p layer ∧ windowStart at' MINUTE_MS = minute then 1 else 0
  | some ⟨.ok _, _⟩, none => 1
  | _, _ => 0

/-- An answer that lets its request through, once it is received. -/
def GatewayCall.worth (layer : Layer) (minute : ℕ) : GatewayCall → ℕ
  | { lookup, committed := some (at', .authorized reply), waiting := true } =>
      if reply.status = .ok ∧ windowStart at' MINUTE_MS = minute ∧
          (reply.principal.any fun q => lookup.countedIn (Principal.of q) layer) then 1
      else 0
  | _ => 0

def AccessSystem.outstanding (layer : Layer) (minute : ℕ) (s : AccessSystem) : ℕ :=
  (s.calls.map (GatewayCall.worth layer minute)).sum

/-- Nothing is authorized from the cache. -/
structure AccessSystem.Direct (settings : AccessSettings) (s : AccessSystem) : Prop where
  uncached : s.gate.app.keyCache.enabled = false
  asked : ∀ call ∈ s.calls, ∃ isSiteKey, call.lookup.txn = .authorize
    (authorizeArgs settings call.lookup.request call.lookup.kind call.lookup.hash isSiteKey)

variable {s : AccessSystem} {layer : Layer} {minute : ℕ}

theorem direct_set {i : ℕ} {call : GatewayCall} (h : s.Direct settings)
    (hcall : s.calls[i]? = some call) (committed : Option (ℕ × Answer)) (waiting : Bool)
    {gate : Gate} {db : Db} (hgate : gate.app = s.gate.app) :
    AccessSystem.Direct settings
      { gate, calls := s.calls.set i { lookup := call.lookup, committed, waiting }, db } where
  uncached := by rw [hgate]; exact h.uncached
  asked c hc := by
    rcases List.mem_or_eq_of_mem_set hc with hc | rfl
    · exact h.asked c hc
    · exact h.asked call (List.mem_of_getElem? hcall)

theorem direct_step (h : s.Direct settings) (e : AccessEvent) :
    (Runs.next (AccessSystem.step P settings env) s e).Direct settings := by
  cases e with
  | arrive now monotonic r =>
    obtain ⟨happ, hreply⟩ := arrive_direct P settings h.uncached now
      monotonic r
    have hgate := remember_app (s.gate.arrive P settings now monotonic r).2.2 now monotonic
      (s.gate.arrive P settings now monotonic r).2.1
    simp only [Runs.next, AccessSystem.step]
    rcases hreply with ⟨e, he⟩ | ⟨l, credentials, isSiteKey, hl, -, hasks⟩
    · rw [he]
      exact ⟨by rw [hgate, happ]; exact h.uncached, h.asked⟩
    · rw [hl]
      refine ⟨by rw [hgate, happ]; exact h.uncached, fun call hcall => ?_⟩
      rcases List.mem_append.mp hcall with hcall | hcall
      · exact h.asked call hcall
      · rw [List.mem_singleton.mp hcall]
        exact ⟨isSiteKey, hasks.txn⟩
  | commit now i =>
    rcases hcall : s.calls[i]? with _ | ⟨lookup, committed, waiting⟩
    · simpa only [Runs.next, AccessSystem.step, hcall] using h
    · cases committed with
      | none =>
        simp only [Runs.next, AccessSystem.step, hcall]
        exact direct_set h hcall _ _ rfl
      | some c => simpa only [Runs.next, AccessSystem.step, hcall] using h
  | receive now monotonic i =>
    rcases hcall : s.calls[i]? with _ | ⟨lookup, _ | ⟨at', answer⟩, _ | _⟩
    · simpa only [Runs.next, AccessSystem.step, hcall] using h
    · simpa only [Runs.next, AccessSystem.step, hcall] using h
    · simpa only [Runs.next, AccessSystem.step, hcall] using h
    · simpa only [Runs.next, AccessSystem.step, hcall] using h
    · obtain ⟨isSiteKey, htxn⟩ := h.asked _ (List.mem_of_getElem? hcall)
      simp only [Runs.next, AccessSystem.step, hcall]
      refine direct_set h hcall _ _ ?_
      rw [remember_app, (conclude_authorize htxn).1]
  | fail i =>
    rcases hcall : s.calls[i]? with _ | ⟨lookup, committed, _ | _⟩
    · simpa only [Runs.next, AccessSystem.step, hcall] using h
    · simpa only [Runs.next, AccessSystem.step, hcall] using h
    · simp only [Runs.next, AccessSystem.step, hcall]
      exact direct_set h hcall _ _ rfl
  | call c => exact ⟨h.uncached, h.asked⟩

theorem okCall_principal {db : Db} {c : Call} {args : AuthorizeArgs} {a : Admission}
    (h : okCall env db c = some (args, a)) {reply : AuthorizeReply}
    (hreply : (c.run env db).1 = .authorized reply) : reply.principal = some a.principal := by
  obtain ⟨-, ha, reply', hrun, hstatus, hok⟩ := okCall_eq_some h
  rw [hrun] at hreply
  obtain rfl := Answer.authorized.inj hreply
  have hsame : ∀ {a' windows allowed}, Charged env c.now args db a' windows allowed → a' = a := by
    intro a' windows allowed hcharged
    exact Except.ok.inj (hcharged.admitted.symm.trans ha)
  generalize (c.run env db).2 = db' at hok
  cases authorize_ok hok with
  | refused _ _ hrefused => exact absurd hstatus hrefused
  | rateLimited _ _ _ _ _ hlimited => cases hlimited.symm.trans hstatus
  | quotaExceeded _ _ _ _ _ hexceeded => cases hexceeded.symm.trans hstatus
  | site _ _ _ _ hcharged _ hprincipal => rw [hprincipal, hsame hcharged]
  | customer _ _ _ _ _ _ hcharged _ hprincipal => rw [hprincipal, hsame hcharged]

variable (env)

/-- A layer that counts the request at the API counts it in Convex. -/
theorem limit_of_countedIn {l : Lookup} {isSiteKey : Bool} {a : Admission}
    (htxn : l.txn = .authorize (authorizeArgs settings l.request l.kind l.hash isSiteKey))
    (h : l.countedIn (Principal.of a.principal) layer = true) :
    (layer.limit env (authorizeArgs settings l.request l.kind l.hash isSiteKey) a).isSome := by
  cases layer with
  | key keyId =>
    have hid : a.key.id = keyId := Nat.repr_injective (of_decide_eq_true h)
    simp [Layer.limit, hid]
  | account userId =>
    simp only [Lookup.countedIn, Bool.and_eq_true, Bool.not_eq_true', decide_eq_true_eq] at h
    have hid : a.key.val.userId = userId := Nat.repr_injective h.2
    have hsite : a.isSiteKey = false := h.1
    simp [Layer.limit, hid, hsite]
  | endpoint keyId endpoint =>
    simp only [Lookup.countedIn, Bool.and_eq_true, Bool.not_eq_true', decide_eq_true_eq] at h
    obtain ⟨⟨hsite, hkey⟩, rfl⟩ := h
    have hid : a.key.id = keyId := Nat.repr_injective hkey
    have hsite : a.isSiteKey = false := hsite
    simp [Layer.limit, hid, hsite, authorizeArgs]
  | global =>
    have hsite : a.isSiteKey = false := (Bool.not_eq_true' _).mp h
    simp [Layer.limit, hsite]
  | visitor address =>
    simp only [Lookup.countedIn, htxn, Bool.and_eq_true, decide_eq_true_eq] at h
    have hsite : a.isSiteKey = true := h.1
    simp [Layer.limit, hsite, h.2]

variable {env}

/-- An answer that is worth an admission was paid for by a counted call. -/
theorem worth_le_counted {now : ℕ} {db : Db} {l : Lookup} {isSiteKey : Bool} (waiting : Bool)
    (htxn : l.txn = .authorize (authorizeArgs settings l.request l.kind l.hash isSiteKey)) :
    GatewayCall.worth layer minute ⟨l, some (now, (Call.run env db ⟨now, l.txn⟩).1), waiting⟩ ≤
      okInMinute env layer minute db ⟨now, l.txn⟩ := by
  unfold GatewayCall.worth
  split
  · rename_i l' at' reply heq
    obtain ⟨rfl, hcommitted, rfl⟩ := GatewayCall.mk.inj heq
    obtain ⟨rfl, hreply⟩ := Prod.mk.inj (Option.some.inj hcommitted)
    split_ifs with hcond
    · obtain ⟨hstatus, hminute, hany⟩ := hcond
      obtain ⟨⟨args, a⟩, hok⟩ := Option.isSome_iff_exists.mp
        (okCall_isSome_iff.mpr ⟨reply, hreply, hstatus⟩)
      obtain rfl : args = _ := (Txn.authorize.inj (htxn.symm.trans (okCall_eq_some hok).1)).symm
      rw [okCall_principal hok hreply] at hany
      have hlimit := limit_of_countedIn env htxn (by simpa using hany)
      have hsome : (okLimit env layer db ⟨now, l.txn⟩).isSome := by
        simpa [okLimit, hok] using hlimit
      rw [okInMinute, if_pos ⟨hsome, hminute⟩]
    · exact Nat.zero_le _
  · exact Nat.zero_le _

/-- What gets through with an answer was worth an admission. -/
theorem admitted_le_worth {gate : Gate} {now at' : ℕ} {monotonic : ℚ} {l : Lookup} {answer : Answer}
    {args : AuthorizeArgs} (htxn : l.txn = .authorize args) {p : Principal} {state : RequestState}
    (hok : (gate.conclude settings now monotonic l answer).1 = ⟨.ok p, state⟩) :
    (if l.countedIn p layer ∧ windowStart at' MINUTE_MS = minute then 1 else 0) ≤
      GatewayCall.worth layer minute ⟨l, some (at', answer), true⟩ := by
  obtain ⟨reply, q, rfl, hstatus, hprincipal, rfl⟩ := (conclude_authorize htxn).2 p (by rw [hok])
  simp only [GatewayCall.worth, hstatus, hprincipal, Option.any_some, true_and]
  split_ifs with h1 h2
  · exact le_rfl
  · exact absurd ⟨h1.2, h1.1⟩ h2
  · exact Nat.zero_le _
  · exact le_rfl

/-- Whatever a step lets through was outstanding, and what a step makes outstanding is counted. -/
theorem admitted_paid (h : s.Direct settings) (e : AccessEvent) :
    s.admitted P settings env layer minute e +
        (Runs.next (AccessSystem.step P settings env) s e).outstanding layer minute ≤
      s.outstanding layer minute +
        (s.convexCall e).elim 0 (okInMinute env layer minute s.db) := by
  cases e with
  | arrive now monotonic r =>
    obtain ⟨-, hreply⟩ := arrive_direct P settings h.uncached now monotonic r
    simp only [AccessSystem.admitted, Runs.next, AccessSystem.step, AccessSystem.outstanding]
    rcases hreply with ⟨e, he⟩ | ⟨l, credentials, isSiteKey, hl, -, -⟩
    · rw [he]
      simp [refuse]
    · rw [hl]
      simp [GatewayCall.worth]
  | commit now i =>
    simp only [AccessSystem.admitted, Runs.next, AccessSystem.step, AccessSystem.outstanding,
      AccessSystem.convexCall]
    rcases hcall : s.calls[i]? with _ | ⟨l, committed, waiting⟩
    · simp
    · cases committed with
      | some c => simp
      | none =>
        obtain ⟨isSiteKey, htxn : l.txn = _⟩ := h.asked _ (List.mem_of_getElem? hcall)
        have hset := ListSums.sum_map_set (GatewayCall.worth layer minute)
          ⟨l, some (now, (Call.run env s.db ⟨now, l.txn⟩).1), waiting⟩ hcall
        have hworth : GatewayCall.worth layer minute
            ⟨l, some (now, (Call.run env s.db ⟨now, l.txn⟩).1), waiting⟩ ≤
              okInMinute env layer minute s.db ⟨now, l.txn⟩ := worth_le_counted waiting htxn
        simp only [Option.elim_some]
        omega
  | receive now monotonic i =>
    simp only [AccessSystem.admitted, Runs.next, AccessSystem.step, AccessSystem.outstanding,
      AccessSystem.convexCall, AccessSystem.received, Option.elim_none, Nat.add_zero]
    rcases hcall : s.calls[i]? with _ | ⟨l, _ | ⟨at', answer⟩, _ | _⟩
    · simp
    · simp
    · simp
    · simp
    · obtain ⟨isSiteKey, htxn : l.txn = _⟩ := h.asked _ (List.mem_of_getElem? hcall)
      have hset := ListSums.sum_map_set (GatewayCall.worth layer minute)
        ⟨l, some (at', answer), false⟩ hcall
      have hnone : GatewayCall.worth layer minute ⟨l, some (at', answer), false⟩ = 0 := by
        cases answer <;> rfl
      rcases hreply : (s.gate.conclude settings now monotonic l answer).1 with ⟨_ | p, state⟩
      · simp only [hreply]
        omega
      · have hle : (if l.countedIn p layer ∧ windowStart at' MINUTE_MS = minute then 1 else 0) ≤
            GatewayCall.worth layer minute ⟨l, some (at', answer), true⟩ :=
          admitted_le_worth htxn hreply
        simp only [hreply]
        omega
  | fail i =>
    simp only [AccessSystem.admitted, Runs.next, AccessSystem.step, AccessSystem.outstanding,
      AccessSystem.convexCall, Option.elim_none, Nat.add_zero]
    rcases hcall : s.calls[i]? with _ | ⟨l, committed, _ | _⟩
    · simp
    · simp
    · have hset := ListSums.sum_map_set (GatewayCall.worth layer minute) ⟨l, committed, false⟩ hcall
      have hnone : GatewayCall.worth layer minute ⟨l, committed, false⟩ = 0 := by
        rcases committed with _ | ⟨at', answer⟩
        · rfl
        · cases answer <;> rfl
      simp only [refuse]
      omega
  | call c => exact (Nat.zero_add _).le.trans (Nat.le_add_right _ _)

/-! ### A small deployment -/

def sampleKey : String := "geo_abcdefghijklmnopqrstuvwxyz012345"

def accessSettings : AccessSettings where
  limits := ⟨100, 60⟩
  hashCredential := fun token => "hmac:" ++ token

/-- One account on the free tier, whose key is `sampleKey`. -/
def accessSystem : AccessSystem where
  gate := { failedAuth := { limit := 20 }, knownBad := { ttl := 60 },
            app := { keyCache := { ttl := 0, max := 1000 }, windowLimiter := {} } }
  db := { freeAccount with
    apiKeys := Docs.Table.empty.insert { userId := 0, keyHash := "hmac:" ++ sampleKey } }

def sampleRequest : ApiRequest where
  credentials := some sampleKey
  client := some "203.0.113.7"
  ip := ⟨"unknown", unknown_valid⟩
  endpoint := "geocode"

/-- Two requests; the reply to the second comes first. -/
def sampleAccess : List AccessEvent :=
  [.arrive 0 0 sampleRequest, .arrive 1 0 sampleRequest, .commit 2 0, .call ⟨3, .prune⟩,
   .commit 4 1, .receive 5 1 1, .receive 6 1 0]

/-- Every layer caps what gets through at the API: the requests that were authorized in one minute
and that the layer counts are at most its limit, however the requests, the transactions of Convex,
the replies and the failures interleave. -/
theorem admissions_capped {s : AccessSystem} (huncached : s.gate.app.keyCache.enabled = false)
    (hcalls : s.calls = []) {es : List AccessEvent}
    (hclock : ClockSteady (convexCalls P settings env s es)) {layer : Layer} {minute : ℕ} {L : ℚ}
    (hL : 0 ≤ L)
    (hlimit : ∀ x ∈ Runs.trace (Call.run env) s.db (convexCalls P settings env s es),
      windowStart x.event.now MINUTE_MS = minute →
        ∀ l ∈ okLimit env layer x.before x.event, l ≤ L) :
    (Runs.total (AccessSystem.step P settings env)
      (AccessSystem.admitted P settings env layer minute) s es : ℚ) ≤ L := by
  have hdirect : s.Direct settings := ⟨huncached, by simp [hcalls]⟩
  have hpaid : Runs.total (AccessSystem.step P settings env)
      (AccessSystem.admitted P settings env layer minute) s es +
        (Runs.final (AccessSystem.step P settings env) s es).outstanding layer minute ≤
      s.outstanding layer minute + Runs.total (AccessSystem.step P settings env)
        (fun s e => (s.convexCall e).elim 0 (okInMinute env layer minute s.db)) s es :=
    Runs.total_le_paid (I := AccessSystem.Direct settings) (fun s e h => direct_step h e)
      (fun s e h => admitted_paid h e) hdirect es
  have hnothing : s.outstanding layer minute = 0 := by simp [AccessSystem.outstanding, hcalls]
  have hcounted : (Runs.total (Call.run env) (okInMinute env layer minute) s.db
      (convexCalls P settings env s es) : ℚ) ≤ L := by
    refine window_cap hL (fun x hx hpos => ?_) (minute_dropsLast hclock layer minute s.db)
    obtain ⟨args, a, l, hok, hl, hokl, hminute, hone⟩ := okInMinute_pos hpos
    obtain ⟨bs, hbs, hall⟩ := okCall_counted hok
    refine ⟨hit (layer.bucket env) l, hall _ (layer_mem_buckets hbs hl), rfl, hminute, hone, ?_⟩
    exact hlimit x hx hminute l (by rw [hokl]; rfl)
  rw [convexCalls, Runs.total_image follows_convex] at hcounted
  refine le_trans ?_ hcounted
  rw [hnothing, Nat.zero_add] at hpaid
  exact_mod_cast (Nat.le_add_right _ _).trans hpaid

theorem admissions_capped_sample :
    (Runs.total (AccessSystem.step asciiTables accessSettings testEnv)
      (AccessSystem.admitted asciiTables accessSettings testEnv (.account 0) 0)
      accessSystem sampleAccess : ℚ) ≤ 30 := by
  have hclock : ClockSteady (convexCalls asciiTables accessSettings testEnv accessSystem
      sampleAccess) := by
    unfold ClockSteady
    decide +kernel
  exact admissions_capped (by decide) rfl hclock (by norm_num) (by decide +kernel)

/-! ### Where an admission comes from -/

/-- The call of a request that arrived before, and its transaction if it was committed. -/
structure Asked (P : PyText) (settings : AccessSettings) (env : ProcessEnv) (s : AccessSystem)
    (es : List AccessEvent) (call : GatewayCall) : Prop where
  arrived : ∃ now monotonic, .arrive now monotonic call.lookup.request ∈ es
  asks : ∃ credentials isSiteKey, call.lookup.Asks P settings credentials isSiteKey
  committed : ∀ c ∈ call.committed, ∃ y ∈ Runs.trace (Call.run env) s.db
    (convexCalls P settings env s es), y.event = ⟨c.1, call.lookup.txn⟩ ∧ y.reply = c.2

theorem convexCalls_append (s : AccessSystem) (es fs : List AccessEvent) :
    convexCalls P settings env s (es ++ fs) = convexCalls P settings env s es ++
      convexCalls P settings env (Runs.final (AccessSystem.step P settings env) s es) fs :=
  Runs.image_append s es fs

theorem Asked.append {es : List AccessEvent} {call : GatewayCall}
    (h : Asked P settings env s es call) (fs : List AccessEvent) :
    Asked P settings env s (es ++ fs) call := by
  obtain ⟨⟨now, monotonic, harrived⟩, hasks, hcommitted⟩ := h
  refine ⟨⟨now, monotonic, List.mem_append_left _ harrived⟩, hasks, fun c hc => ?_⟩
  obtain ⟨y, hy, hevent⟩ := hcommitted c hc
  refine ⟨y, ?_, hevent⟩
  rw [convexCalls_append, Runs.trace_append]
  exact List.mem_append_left _ hy

/-- A call that is given up or concluded was asked like before. -/
theorem Asked.settled {es : List AccessEvent} {call : GatewayCall}
    (h : Asked P settings env s es call) (waiting : Bool) :
    Asked P settings env s es { call with waiting } := ⟨h.arrived, h.asks, h.committed⟩

theorem asked_set {es : List AccessEvent} {calls : List GatewayCall} {i : ℕ} {call : GatewayCall}
    (h : ∀ c ∈ calls, Asked P settings env s es c) (hcall : Asked P settings env s es call) :
    ∀ c ∈ calls.set i call, Asked P settings env s es c := by
  intro c hc
  rcases List.mem_or_eq_of_mem_set hc with hc | rfl
  · exact h c hc
  · exact hcall

variable (P settings env)

theorem asked_run (huncached : s.gate.app.keyCache.enabled = false) (hcalls : s.calls = [])
    (es : List AccessEvent) :
    (Runs.final (AccessSystem.step P settings env) s es).Direct settings ∧
      ∀ call ∈ (Runs.final (AccessSystem.step P settings env) s es).calls,
        Asked P settings env s es call := by
  refine Runs.history_induction (AccessSystem.step P settings env)
    (P := fun es s' => s'.Direct settings ∧ ∀ call ∈ s'.calls, Asked P settings env s es call)
    ⟨⟨huncached, by simp [hcalls]⟩, by simp [hcalls]⟩ (fun pre e ⟨hdirect, hold⟩ => ?_) es
  refine ⟨direct_step hdirect e, ?_⟩
  have hkept : ∀ call ∈ (Runs.final (AccessSystem.step P settings env) s pre).calls,
      Asked P settings env s (pre ++ [e]) call := fun call hcall => (hold call hcall).append [e]
  have hdb : (Runs.final (AccessSystem.step P settings env) s pre).db =
      Runs.final (Call.run env) s.db (convexCalls P settings env s pre) :=
    Runs.final_image follows_convex s pre
  have htrace : Runs.trace (Call.run env) s.db (convexCalls P settings env s (pre ++ [e])) =
      Runs.trace (Call.run env) s.db (convexCalls P settings env s pre) ++
        Runs.trace (Call.run env) (Runs.final (AccessSystem.step P settings env) s pre).db
          ((Runs.final (AccessSystem.step P settings env) s pre).convexCall e).toList := by
    rw [convexCalls_append, Runs.trace_append, ← hdb]
    simp [convexCalls, Runs.image]
  generalize Runs.final (AccessSystem.step P settings env) s pre = s' at hdirect hkept htrace ⊢
  cases e with
  | arrive now monotonic r =>
    obtain ⟨-, hreply⟩ := arrive_direct P settings hdirect.uncached now
      monotonic r
    simp only [Runs.next, AccessSystem.step]
    rcases hreply with ⟨e, he⟩ | ⟨l, credentials, isSiteKey, hl, hrequest, hasks⟩
    · rw [he]
      exact hkept
    · rw [hl]
      intro call hcall
      rcases List.mem_append.mp hcall with hcall | hcall
      · exact hkept call hcall
      · rw [List.mem_singleton.mp hcall]
        refine ⟨⟨now, monotonic, ?_⟩, ⟨credentials, isSiteKey, hasks⟩, by simp⟩
        rw [hrequest]
        exact List.mem_append_right _ (List.mem_singleton_self _)
  | commit now i =>
    rcases hcall : s'.calls[i]? with _ | ⟨l, _ | c, waiting⟩
    · simpa only [Runs.next, AccessSystem.step, hcall] using hkept
    · have hasked := hkept _ (List.mem_of_getElem? hcall)
      simp only [Runs.next, AccessSystem.step, hcall]
      refine asked_set hkept ⟨hasked.arrived, hasked.asks, fun c hc => ?_⟩
      obtain rfl := Option.mem_some.mp hc
      rw [htrace]
      refine ⟨⟨s'.db, ⟨now, l.txn⟩, _⟩, List.mem_append_right _ ?_, rfl, rfl⟩
      simp [AccessSystem.convexCall, hcall]
    · simpa only [Runs.next, AccessSystem.step, hcall] using hkept
  | receive now monotonic i =>
    rcases hcall : s'.calls[i]? with _ | ⟨l, _ | ⟨at', answer⟩, _ | _⟩
    · simpa only [Runs.next, AccessSystem.step, hcall] using hkept
    · simpa only [Runs.next, AccessSystem.step, hcall] using hkept
    · simpa only [Runs.next, AccessSystem.step, hcall] using hkept
    · simpa only [Runs.next, AccessSystem.step, hcall] using hkept
    · simp only [Runs.next, AccessSystem.step, hcall]
      exact asked_set hkept ((hkept _ (List.mem_of_getElem? hcall)).settled false)
  | fail i =>
    rcases hcall : s'.calls[i]? with _ | ⟨l, committed, _ | _⟩
    · simpa only [Runs.next, AccessSystem.step, hcall] using hkept
    · simpa only [Runs.next, AccessSystem.step, hcall] using hkept
    · simp only [Runs.next, AccessSystem.step, hcall]
      exact asked_set hkept ((hkept _ (List.mem_of_getElem? hcall)).settled false)
  | call c => exact hkept

/-- The event concludes the call of a request that arrived before, with the ok that Convex answered
to the call's transaction, and `p` is whom that answer names. -/
structure Authorizes (s : AccessSystem) (before : List AccessEvent) (e : AccessEvent)
    (p : Principal) (l : Lookup) (at' : ℕ) (reply : AuthorizeReply) : Prop where
  received : (Runs.final (AccessSystem.step P settings env) s before).received e =
    some (l, at', .authorized reply)
  asks : ∃ credentials isSiteKey, l.Asks P settings credentials isSiteKey
  arrived : ∃ now monotonic, .arrive now monotonic l.request ∈ before
  answered : ∃ y ∈ Runs.trace (Call.run env) s.db (convexCalls P settings env s before),
    y.event = ⟨at', l.txn⟩ ∧ y.reply = .authorized reply
  status : reply.status = .ok
  named : ∃ q, reply.principal = some q ∧ p = Principal.of q

variable {P settings env}

/-- Whoever gets through arrived with a credential for which Convex committed an `authorize`; the
request receives the answer to its own call, which was ok and names whom it admits. -/
theorem admission_authorized {s : AccessSystem} (huncached : s.gate.app.keyCache.enabled = false)
    (hcalls : s.calls = []) {es : List AccessEvent}
    {x : Runs.Entry AccessSystem AccessEvent AccessReply}
    (hx : x ∈ Runs.trace (AccessSystem.step P settings env) s es) {p : Principal}
    {state : RequestState} (hadmitted : x.reply.reply = some ⟨.ok p, state⟩) :
    ∃ pre post l at' reply, es = pre ++ x.event :: post ∧
      x.before = Runs.final (AccessSystem.step P settings env) s pre ∧
      Authorizes P settings env s pre x.event p l at' reply := by
  obtain ⟨pre, post, rfl, hbefore, hreply⟩ := Runs.mem_trace _ hx
  obtain ⟨hdirect, hasked⟩ := asked_run P settings env huncached hcalls pre
  rw [← hbefore] at hdirect hasked
  rw [hreply] at hadmitted
  refine ⟨pre, post, ?_⟩
  cases hevent : x.event with
  | arrive now monotonic r =>
    obtain ⟨-, harrival⟩ := arrive_direct P settings hdirect.uncached now
      monotonic r
    simp only [hevent, AccessSystem.step] at hadmitted
    rcases harrival with ⟨e, he⟩ | ⟨l, credentials, isSiteKey, hl, -, -⟩
    · rw [he] at hadmitted
      cases hadmitted
    · rw [hl] at hadmitted
      cases hadmitted
  | commit now i =>
    rcases hcall : x.before.calls[i]? with _ | ⟨l, _ | c, waiting⟩ <;>
      simp [hevent, AccessSystem.step, hcall] at hadmitted
  | receive now monotonic i =>
    rcases hcall : x.before.calls[i]? with _ | ⟨l, _ | ⟨at', answer⟩, _ | _⟩
    · simp [hevent, AccessSystem.step, hcall] at hadmitted
    · simp [hevent, AccessSystem.step, hcall] at hadmitted
    · simp [hevent, AccessSystem.step, hcall] at hadmitted
    · simp [hevent, AccessSystem.step, hcall] at hadmitted
    · have hask := hasked _ (List.mem_of_getElem? hcall)
      obtain ⟨credentials, isSiteKey, hasks⟩ := hask.asks
      simp only [hevent, AccessSystem.step, hcall, Option.some.injEq] at hadmitted
      obtain ⟨reply, q, rfl, hstatus, hprincipal, rfl⟩ :=
        (conclude_authorize hasks.txn).2 p (by rw [hadmitted])
      have hreceived : x.before.received (.receive now monotonic i) =
          some (l, at', .authorized reply) := by
        simp only [AccessSystem.received, hcall]
      exact ⟨l, at', reply, rfl, hbefore, {
        received := hbefore ▸ hreceived
        asks := hask.asks
        arrived := hask.arrived
        answered := hask.committed _ rfl
        status := hstatus
        named := ⟨q, hprincipal, rfl⟩ }⟩
  | fail i =>
    rcases hcall : x.before.calls[i]? with _ | ⟨l, committed, _ | _⟩ <;>
      simp [hevent, AccessSystem.step, hcall, refuse] at hadmitted
  | call c => simp [hevent, AccessSystem.step] at hadmitted

theorem admission_authorized_sample : ∃ pre post e p l at' reply,
    sampleAccess = pre ++ e :: post ∧
      Authorizes asciiTables accessSettings testEnv accessSystem pre e p l at' reply := by
  obtain ⟨x, hx, hok⟩ : ∃ x ∈ Runs.trace (AccessSystem.step asciiTables accessSettings testEnv)
      accessSystem sampleAccess, (x.reply.reply.any fun r => r.verdict.isOk) = true := by
    decide +kernel
  obtain ⟨⟨verdict, state⟩, hreply, hverdict⟩ := (Option.any_eq_true _ _).mp hok
  cases verdict with
  | error e => cases hverdict
  | ok p =>
    obtain ⟨pre, post, l, at', reply, hes, -, hauthorizes⟩ :=
      admission_authorized (by decide) rfl hx hreply
    exact ⟨pre, post, x.event, p, l, at', reply, hes, hauthorizes⟩

end GeoPlatform.Api
