import GeoPlatform.Convex.Authorize
import GeoPlatform.Convex.Payments
import GeoPlatform.Convex.Usage
import GeoPlatform.Convex.Windows

/-! What a committed transaction did, one inversion lemma for each. Every later fact about a
step starts from these. -/
namespace GeoPlatform.Convex
open Docs

variable {env : ProcessEnv} {now : ℕ} {db db' : Db}

/-! ### The keys of a caller -/

theorem ownedKey_eq_some {keyId userId : ℕ} {key : ApiKey} :
    ownedKey db keyId userId = some key ↔
      db.apiKeys.get keyId = some key ∧ key.userId = userId := by
  simp [ownedKey, Option.filter_eq_some_iff]

theorem requireOwnedKey_ok {keyId userId : ℕ} {key : ApiKey}
    (h : requireOwnedKey db keyId userId = .ok key) :
    db.apiKeys.get keyId = some key ∧ key.userId = userId := by
  unfold requireOwnedKey at h
  split at h
  · rename_i k hk
    cases h
    exact ownedKey_eq_some.mp hk
  · cases h

/-! ### The key table -/

def InsertKeyArgs.key (args : InsertKeyArgs) : ApiKey :=
  { userId := args.userId, name := args.name, keyPrefix := args.keyPrefix
    keyHash := args.keyHash, endpoints := some (args.endpoints.map storedEndpoint)
    expiresAt := args.expiresAt }

/-- The account of a new key may hold keys and has room for one more. -/
structure MayInsertKey (now : ℕ) (args : InsertKeyArgs) (db : Db) : Prop where
  access : ∃ user, db.users.get args.userId = some user ∧ hasKeyAccess user now = true
  total : ((db.apiKeys.query fun k => k.userId = args.userId).take
    (MAX_TOTAL_KEYS_PER_USER + 1)).length < MAX_TOTAL_KEYS_PER_USER
  active : (((db.apiKeys.query fun k => k.userId = args.userId).take
    (MAX_TOTAL_KEYS_PER_USER + 1)).filter fun k => k.val.revokedAt.isNone).length <
      MAX_ACTIVE_KEYS_PER_USER

theorem insertKey_ok {args : InsertKeyArgs} {keyId : ℕ}
    (h : insertKey now args db = .ok (keyId, db')) :
    MayInsertKey now args db ∧ keyId = db.apiKeys.nextId ∧
      db' = writeAudit { db with apiKeys := db.apiKeys.insert args.key } now "api_key_created" .INFO
        .success (some args.userId) (some db.apiKeys.nextId) none := by
  unfold insertKey at h
  split at h
  · cases h
  · rename_i user huser
    split_ifs at h with haccess
    simp only at h
    split_ifs at h with htotal hactive
    cases h
    exact ⟨⟨⟨user, huser, by simpa using haccess⟩, by omega, by omega⟩, rfl, rfl⟩

theorem insertKey_of_may {args : InsertKeyArgs} (h : MayInsertKey now args db) :
    insertKey now args db = .ok (db.apiKeys.nextId,
      writeAudit { db with apiKeys := db.apiKeys.insert args.key } now "api_key_created" .INFO
        .success (some args.userId) (some db.apiKeys.nextId) none) := by
  obtain ⟨⟨user, huser, haccess⟩, htotal, hactive⟩ := h
  have hrefused : (!hasKeyAccess user now) = false := by rw [haccess]; rfl
  simp only [insertKey, huser, hrefused, Bool.false_eq_true, if_false]
  rw [if_neg (by omega), if_neg (by omega)]
  rfl

theorem rename_ok {caller : Caller} {keyId : ℕ} {name : String} {u : Unit}
    (h : rename now caller keyId name db = .ok (u, db')) :
    ∃ cleaned, db' =
      { db with apiKeys := db.apiKeys.patch keyId fun k => { k with name := cleaned } } := by
  obtain ⟨userId, -, h⟩ := except_bind_ok.mp h
  obtain ⟨key, -, h⟩ := except_bind_ok.mp h
  obtain ⟨cleaned, -, h⟩ := except_bind_ok.mp h
  cases h
  exact ⟨cleaned, rfl⟩

theorem revoke_ok {caller : Caller} {keyId : ℕ} {u : Unit}
    (h : revoke now caller keyId db = .ok (u, db')) :
    ∃ userId key, db.apiKeys.get keyId = some key ∧ key.userId = userId ∧
      db' = writeAudit (deletePlaygroundTokens
        { db with apiKeys := db.apiKeys.patch keyId (revokeApiKey now) } keyId) now
        "api_key_revoked" .WARNING .success (some userId) (some keyId) none := by
  obtain ⟨userId, -, h⟩ := except_bind_ok.mp h
  obtain ⟨key, hkey, h⟩ := except_bind_ok.mp h
  cases h
  obtain ⟨hget, howner⟩ := requireOwnedKey_ok hkey
  exact ⟨userId, key, hget, howner, rfl⟩

def ReplaceSecretArgs.rekey (args : ReplaceSecretArgs) (k : ApiKey) : ApiKey :=
  { k with keyPrefix := args.keyPrefix, keyHash := args.keyHash }

theorem replaceSecret_ok {args : ReplaceSecretArgs} {u : Unit}
    (h : replaceSecret now args db = .ok (u, db')) :
    (∃ key, db.apiKeys.get args.keyId = some key ∧ key.userId = args.userId ∧
      key.revokedAt = none) ∧
      db' = writeAudit (deletePlaygroundTokens
        { db with apiKeys := db.apiKeys.patch args.keyId args.rekey } args.keyId) now
        "api_key_rotated" .WARNING .success (some args.userId) (some args.keyId) none := by
  obtain ⟨key, hkey, h⟩ := except_bind_ok.mp h
  obtain ⟨hget, howner⟩ := requireOwnedKey_ok hkey
  split at h
  · cases h
  · split_ifs at h with haccess hrevoked hexpired
    cases h
    exact ⟨⟨key, hget, howner, by simpa using hrevoked⟩, rfl⟩

theorem insertPlaygroundToken_ok {args : PlaygroundToken} {u : Unit}
    (h : insertPlaygroundToken now args db = .ok (u, db')) :
    db' = { db with playgroundTokens :=
      (db.playgroundTokens.delete ((surplusTokens db args.apiKeyId).map Doc.id)).insert args } := by
  unfold insertPlaygroundToken at h
  split at h
  · cases h
  · split_ifs at h
    cases h
    rfl

theorem revokeKey_ok {keyId : ℕ} {u : Unit} (h : revokeKey now keyId db = .ok (u, db')) :
    ∃ key, db.apiKeys.get keyId = some key ∧
      db' = writeAudit (deletePlaygroundTokens
        { db with apiKeys := db.apiKeys.patch keyId (revokeApiKey now) } keyId) now
        "operator_api_key_revoked" .HIGH .success (some key.userId) (some keyId) none := by
  unfold revokeKey at h
  split at h
  · cases h
  · rename_i key hkey
    cases h
    exact ⟨key, hkey, rfl⟩

theorem lockUser_ok {userId n : ℕ} (h : lockUser now userId db = .ok (n, db')) :
    (∃ user, db.users.get userId = some user ∧ user.isSystem = false) ∧
      db' = writeAudit
        { db with
          users := db.users.patch userId (User.disable now)
          apiKeys := db.apiKeys.patchAll (fun k => k.userId = userId) (revokeApiKey now)
          playgroundTokens := db.playgroundTokens.keep fun t => !tokenOfUser db userId t.val }
        now "tenant_disabled" .CRITICAL .success (some userId) none none := by
  unfold lockUser at h
  split at h
  · cases h
  · rename_i user huser
    split_ifs at h with hsystem
    cases h
    exact ⟨⟨user, huser, by simpa using hsystem⟩, rfl⟩

theorem enableUser_ok {email : String} {userId : ℕ}
    (h : enableUser now email db = .ok (userId, db')) :
    db' = writeAudit
      { db with users := db.users.patch userId User.enable }
      now "tenant_enabled" .HIGH .success (some userId) none none := by
  unfold enableUser at h
  split at h
  · cases h
  · cases h
    rfl

theorem upsertSystemUser_ok {userId : ℕ} (h : upsertSystemUser db = .ok (userId, db')) :
    db' = db ∨
      db' = { db with
        users := db.users.insert { email := some SYSTEM_EMAIL, isSystem := true } } := by
  unfold upsertSystemUser at h
  split at h
  · cases h
    exact Or.inl rfl
  · split at h
    · cases h
    · cases h
      exact Or.inr rfl

theorem upsertKey_ok {args : UpsertKeyArgs} {u : Unit} (h : upsertKey now args db = .ok (u, db')) :
    (db.apiKeys.unique (fun k => k.keyHash = args.keyHash) = .none ∧
      db' = { db with apiKeys := retireSiteKeys now args (db.apiKeys.insert args.key) }) ∨
    db' = { db with apiKeys := retireSiteKeys now args db.apiKeys } := by
  unfold upsertKey at h
  split at h
  · cases h
  · rename_i hnone
    cases h
    exact Or.inl ⟨hnone, rfl⟩
  · split_ifs at h
    all_goals
      cases h
      exact Or.inr rfl

/-! ### Payments -/

theorem activateFreeTier_ok {caller : Caller} {u : Unit}
    (h : activateFreeTier now caller db = .ok (u, db')) :
    db' = db ∨ ∃ userId user, db.users.get userId = some user ∧
      user.freeTierActivatedAt = none ∧
      db' = { db with users := db.users.patch userId (startFreeTier now) } := by
  obtain ⟨userId, -, h⟩ := except_bind_ok.mp h
  split at h
  · cases h
  · rename_i user huser
    split_ifs at h with hbad hactive
    · cases h
      exact Or.inl rfl
    · cases h
      exact Or.inr ⟨userId, user, huser, by simpa using hactive, rfl⟩

/-- A fresh payments row. -/
def pendingPayment (now userId : ℕ) (plan : PaidPlan) (paymentIntentId : String) : Payment :=
  ⟨userId, plan, paymentIntentId, PLAN_WIRE_AMOUNT, "MNT", .pending, now, none⟩

theorem recordPending_ok {userId paymentId : ℕ} {plan : PaidPlan} {paymentIntentId : String}
    (h : recordPending now userId plan paymentIntentId db = .ok (paymentId, db')) :
    (∃ row, db.payments.unique (isIntent paymentIntentId) = .one row ∧ row.id = paymentId ∧
      row.val.userId = userId ∧ row.val.plan = plan ∧ db' = db) ∨
    (db.payments.unique (isIntent paymentIntentId) = .none ∧ paymentId = db.payments.nextId ∧
      db' = { db with payments :=
        db.payments.insert (pendingPayment now userId plan paymentIntentId) }) := by
  unfold recordPending at h
  split at h
  · cases h
  · rename_i row hrow
    split_ifs at h with hother
    cases h
    simp only [not_or, not_not] at hother
    exact Or.inl ⟨row, hrow, rfl, hother.1, hother.2, rfl⟩
  · rename_i hnone
    cases h
    exact Or.inr ⟨hnone, rfl, rfl⟩

/-- A settlement that goes through found one pending row with its amount and currency. -/
inductive SettleOutcome (now : ℕ) (args : SettleArgs) (db : Db) : Bool → Db → Prop
  | unchanged : SettleOutcome now args db false db
  | failed (row : Doc Payment)
      (hrow : db.payments.unique (isIntent args.paymentIntentId) = .one row)
      (hpending : row.val.status = .pending) (hstatus : args.status = .failed) :
      SettleOutcome now args db true
        { db with payments := db.payments.patch row.id Payment.fail }
  | succeeded (row : Doc Payment) (user : User)
      (hrow : db.payments.unique (isIntent args.paymentIntentId) = .one row)
      (hpending : row.val.status = .pending) (hstatus : args.status = .succeeded)
      (hamount : args.amount = row.val.amountMinor) (hcurrency : args.currency = row.val.currency)
      (huser : db.users.get row.val.userId = some user) :
      SettleOutcome now args db true
        { db with
          users := db.users.patch row.val.userId (extendPlan now row.val.plan user)
          payments := db.payments.patch row.id (Payment.succeed now) }

theorem settle_ok {args : SettleArgs} {b : Bool} (h : settle now args db = .ok (b, db')) :
    SettleOutcome now args db b db' := by
  unfold settle at h
  split at h
  · cases h
  · cases h
    exact .unchanged
  · rename_i row hrow
    split_ifs at h with hpending hamount
    · cases h
      exact .unchanged
    · cases h
      exact .unchanged
    · simp only [not_not] at hpending
      simp only [not_or, not_not] at hamount
      split at h
      · rename_i hstatus
        cases h
        exact .failed row hrow hpending hstatus
      · rename_i hstatus
        split at h
        · cases h
          exact .unchanged
        · rename_i user huser
          cases h
          exact .succeeded row user hrow hpending hstatus hamount.1 hamount.2 huser

/-! ### Usage -/

/-- Keys that differ in the instant of their last use only. -/
def SameButLastUse (a b : ApiKey) : Prop := { b with lastUsedAt := a.lastUsedAt } = a

theorem SameButLastUse.refl (a : ApiKey) : SameButLastUse a a := rfl

theorem SameButLastUse.trans {a b c : ApiKey} (hab : SameButLastUse a b)
    (hbc : SameButLastUse b c) : SameButLastUse a c := by
  unfold SameButLastUse at hab hbc ⊢
  calc { c with lastUsedAt := a.lastUsedAt } = { b with lastUsedAt := a.lastUsedAt } := by
        rw [← hbc]
    _ = a := hab

theorem touchKey_rewritten (keys : List (String × Option (Doc ApiKey))) (t : Table ApiKey)
    (e : ℕ × ℚ) : ∃ f : ℕ → ApiKey → ApiKey,
      Table.Rewritten f t (touchKey keys t e) ∧ ∀ i k, SameButLastUse k (f i k) := by
  have hsame : ∃ f : ℕ → ApiKey → ApiKey,
      Table.Rewritten f t t ∧ ∀ i k, SameButLastUse k (f i k) :=
    ⟨_, Table.Rewritten.refl t, fun _ k => .refl k⟩
  unfold touchKey
  split
  · split_ifs
    · refine ⟨_, Table.Rewritten.patch t e.1 _, fun i k => ?_⟩
      split_ifs <;> rfl
    · exact hsame
  · exact hsame

theorem recordUsage_ok {entries : List UsageEntry} {reply : UsageReply}
    (h : recordUsage now entries db = .ok (reply, db')) :
    ∃ apiRequests usageDaily keys, ∃ lastUsed : List (ℕ × ℚ),
      db' = { db with
        apiRequests, usageDaily, apiKeys := lastUsed.foldl (touchKey keys) db.apiKeys } := by
  obtain ⟨usageDaily, -, h⟩ := except_bind_ok.mp h
  cases h
  exact ⟨_, _, _, _, rfl⟩

/-! ### Authorization -/

/-- What is known of a request that reaches the counters. -/
structure Admitted (db : Db) (now : ℕ) (args : AuthorizeArgs) (a : Admission) : Prop where
  key_mem : db.apiKeys.get a.key.id = some a.key.val
  not_revoked : a.key.val.revokedAt = none
  owner_mem : db.users.get a.key.val.userId = some a.owner
  enabled : a.owner.disabledAt = none
  site : a.isSiteKey = (a.key.val.isSiteKey && !a.viaPlayground)
  plan : a.plan = if a.isSiteKey then none else activePlan a.owner now
  access : a.isSiteKey = false → hasKeyAccess a.owner now = true
  credential : (args.kind = .key ∧ a.viaPlayground = false ∧ a.key.val.keyHash = args.hash) ∨
    (args.kind = .playground ∧ a.viaPlayground = true ∧ ∃ token,
      db.playgroundTokens.unique (isTokenHash args.hash) = .one token ∧
        token.val.apiKeyId = a.key.id)

theorem findKey_ok {args : AuthorizeArgs} {key : Doc ApiKey} {viaPlayground : Bool}
    (h : findKey db now args = .ok (key, viaPlayground)) :
    db.apiKeys.get key.id = some key.val ∧
      ((args.kind = .key ∧ viaPlayground = false ∧ key.val.keyHash = args.hash) ∨
        (args.kind = .playground ∧ viaPlayground = true ∧ ∃ token,
          db.playgroundTokens.unique (isTokenHash args.hash) = .one token ∧
            token.val.apiKeyId = key.id)) := by
  unfold findKey at h
  split at h
  · rename_i hkind
    split at h
    · cases h
    · cases h
    · rename_i token htoken
      split_ifs at h
      split at h
      · cases h
      · rename_i k hk
        split_ifs at h
        cases h
        exact ⟨hk, Or.inr ⟨hkind, rfl, token, htoken, rfl⟩⟩
  · rename_i hkind
    split at h
    · cases h
    · cases h
    · rename_i k hk
      cases h
      obtain ⟨hmem, hhash⟩ := Table.unique_mem hk
      exact ⟨Table.get_of_mem hmem, Or.inl ⟨hkind, rfl, by simpa [isKeyHash] using hhash⟩⟩

theorem checkKey_ok {key : Doc ApiKey} {owner : User} (h : checkKey db now key = .ok owner) :
    key.val.revokedAt = none ∧ db.users.get key.val.userId = some owner ∧
      owner.disabledAt = none := by
  unfold checkKey at h
  split_ifs at h with hrevoked hexpired
  split at h
  · cases h
  · rename_i user huser
    split_ifs at h with hdisabled
    cases h
    exact ⟨by simpa using hrevoked, huser, by simpa using hdisabled⟩

theorem checkScope_ok {args : AuthorizeArgs} {key : Doc ApiKey} {viaPlayground : Bool}
    {owner : User} {a : Admission} (h : checkScope now args key viaPlayground owner = .ok a) :
    let site := key.val.isSiteKey && !viaPlayground
    a = ⟨key, owner, viaPlayground, site, if site then none else activePlan owner now⟩ ∧
      (site = false → hasKeyAccess owner now = true) := by
  unfold checkScope at h
  simp only at h
  split_ifs at h with haccess
  all_goals try split at h
  all_goals try split_ifs at h
  all_goals try cases h
  all_goals
    refine ⟨by simp_all, fun hsite => ?_⟩
    simpa [hsite] using haccess

theorem admission_ok {args : AuthorizeArgs} {a : Admission} (h : admission db now args = .ok a) :
    Admitted db now args a := by
  obtain ⟨⟨key, viaPlayground⟩, hkey, h⟩ := except_bind_ok.mp h
  obtain ⟨owner, howner, h⟩ := except_bind_ok.mp h
  obtain ⟨hget, hcred⟩ := findKey_ok hkey
  obtain ⟨hrevoked, hmem, henabled⟩ := checkKey_ok howner
  obtain ⟨rfl, haccess⟩ := checkScope_ok h
  exact ⟨hget, hrevoked, hmem, henabled, rfl, rfl, haccess, hcred⟩

theorem findKey_refuse {args : AuthorizeArgs} {r : Refusal}
    (h : findKey db now args = .error (.refuse r)) :
    r.reply.status ≠ .ok ∧ r.reply.status ≠ .quotaExceeded ∧ r.reply.status ≠ .rateLimited := by
  unfold findKey unknownCredential at h
  split at h
  · split at h
    · cases h
    · cases h; simp
    · split_ifs at h
      · cases h; simp
      · split at h
        · cases h; simp
        · split_ifs at h
          cases h; simp
  · split at h
    · cases h
    · cases h; simp
    · cases h

theorem checkKey_refuse {key : Doc ApiKey} {r : Refusal}
    (h : checkKey db now key = .error (.refuse r)) :
    r.reply.status ≠ .ok ∧ r.reply.status ≠ .quotaExceeded ∧ r.reply.status ≠ .rateLimited := by
  unfold checkKey keyRefusal at h
  split_ifs at h
  · cases h; simp
  · cases h; simp
  · split at h
    · cases h; simp
    · split_ifs at h
      cases h; simp

theorem checkScope_refuse {args : AuthorizeArgs} {key : Doc ApiKey} {viaPlayground : Bool}
    {owner : User} {r : Refusal}
    (h : checkScope now args key viaPlayground owner = .error (.refuse r)) :
    r.reply.status ≠ .ok ∧ r.reply.status ≠ .quotaExceeded ∧ r.reply.status ≠ .rateLimited := by
  unfold checkScope keyRefusal at h
  simp only at h
  split at h
  · cases h; simp
  · split at h
    · cases h
    · split at h
      · cases h
      · cases h; simp

theorem except_bind_error {ε α β : Type} {x : Except ε α} {f : α → Except ε β} {e : ε}
    (h : (x >>= f) = .error e) : x = .error e ∨ ∃ a, x = .ok a ∧ f a = .error e := by
  cases x with
  | error e' => exact Or.inl (by cases h; rfl)
  | ok a => exact Or.inr ⟨a, rfl, h⟩

/-- What is refused before anything is counted is neither ok nor refused by a counter or a quota. -/
theorem admission_refuse {args : AuthorizeArgs} {r : Refusal}
    (h : admission db now args = .error (.refuse r)) :
    r.reply.status ≠ .ok ∧ r.reply.status ≠ .quotaExceeded ∧ r.reply.status ≠ .rateLimited := by
  rcases except_bind_error h with h | ⟨⟨key, viaPlayground⟩, -, h⟩
  · exact findKey_refuse h
  · rcases except_bind_error h with h | ⟨owner, -, h⟩
    · exact checkKey_refuse h
    · exact checkScope_refuse h

/-- A request that was charged to its buckets, and whether all of them had room. -/
structure Charged (env : ProcessEnv) (now : ℕ) (args : AuthorizeArgs) (db : Db) (a : Admission)
    (windows : Table RateLimitWindow) (allowed : Bool) : Prop where
  admitted : admission db now args = .ok a
  hits : ∃ bs states, buckets env args a = .ok bs ∧
    hitAll db.rateLimitWindows now (bs.map fun b => hit b.1 b.2) = .ok (states, windows) ∧
    states.all RateLimitState.allowed = allowed

/-- The five ways `authorize` commits. -/
inductive AuthorizeOutcome (env : ProcessEnv) (now : ℕ) (args : AuthorizeArgs) (db : Db) :
    AuthorizeReply → Db → Prop
  | refused (reply : AuthorizeReply) (entry : AuditEvent) (hstatus : reply.status ≠ .ok) :
      AuthorizeOutcome env now args db reply
        { db with securityAuditEvents := db.securityAuditEvents.insert entry }
  | rateLimited (a : Admission) (windows : Table RateLimitWindow) (reply : AuthorizeReply)
      (entry : AuditEvent) (hcharged : Charged env now args db a windows false)
      (hstatus : reply.status = .rateLimited) :
      AuthorizeOutcome env now args db reply
        { db with
          rateLimitWindows := windows
          securityAuditEvents := db.securityAuditEvents.insert entry }
  | quotaExceeded (a : Admission) (windows : Table RateLimitWindow) (reply : AuthorizeReply)
      (entry : AuditEvent) (hcharged : Charged env now args db a windows true)
      (hstatus : reply.status = .quotaExceeded) :
      AuthorizeOutcome env now args db reply
        { db with
          rateLimitWindows := windows
          securityAuditEvents := db.securityAuditEvents.insert entry }
  | site (a : Admission) (windows : Table RateLimitWindow) (reply : AuthorizeReply)
      (entry : AuditEvent) (hcharged : Charged env now args db a windows true)
      (hstatus : reply.status = .ok) (hprincipal : reply.principal = some a.principal)
      (hsite : a.isSiteKey = true) :
      AuthorizeOutcome env now args db reply
        { db with
          rateLimitWindows := windows
          securityAuditEvents := db.securityAuditEvents.insert entry }
  | customer (a : Admission) (windows : Table RateLimitWindow) (quota : RateLimitState)
      (quotas : Table QuotaWindow) (reply : AuthorizeReply) (entry : AuditEvent)
      (hcharged : Charged env now args db a windows true)
      (hstatus : reply.status = .ok) (hprincipal : reply.principal = some a.principal)
      (hsite : a.isSiteKey = false)
      (hquota : consumeCustomerQuotas env db.quotaWindows now a.key.id a.key.val.userId
        args.endpoint a.plan = .ok (quota, quotas)) (hallowed : quota.allowed = true) :
      AuthorizeOutcome env now args db reply
        { db with
          rateLimitWindows := windows
          quotaWindows := quotas
          users := countFree db.users a
          securityAuditEvents := db.securityAuditEvents.insert entry }

theorem authorize_ok {args : AuthorizeArgs} {reply : AuthorizeReply}
    (h : authorize env now args db = .ok (reply, db')) :
    AuthorizeOutcome env now args db reply db' := by
  unfold authorize at h
  split at h
  · cases h
  · rename_i r hr
    cases h
    exact .refused _ _ (admission_refuse hr).1
  · rename_i a ha
    obtain ⟨bs, hbs, h⟩ := except_bind_ok.mp h
    obtain ⟨⟨states, windows⟩, hhits, h⟩ := except_bind_ok.mp h
    have hcharged : Charged env now args db a windows (combine states).allowed :=
      ⟨ha, bs, states, hbs, hhits, (combine_allowed states).symm⟩
    simp only at h
    split_ifs at h with hlimited hsite
    · rw [Bool.not_eq_true'] at hlimited
      rw [hlimited] at hcharged
      cases h
      exact .rateLimited a windows _ _ hcharged rfl
    · simp only [Bool.not_eq_true', Bool.not_eq_false] at hlimited
      rw [hlimited] at hcharged
      cases h
      exact .site a windows _ _ hcharged rfl rfl hsite
    · simp only [Bool.not_eq_true', Bool.not_eq_false] at hlimited
      rw [hlimited] at hcharged
      obtain ⟨⟨quota, quotas⟩, hquota, h⟩ := except_bind_ok.mp h
      simp only at h
      split_ifs at h with hrefused
      · cases h
        exact .quotaExceeded a windows _ _ hcharged rfl
      · cases h
        exact .customer a windows quota quotas _ _ hcharged rfl rfl (by simpa using hsite) hquota
          (by simpa using hrefused)

/-- What a call did that is told that its quota is exhausted. -/
structure OutOfQuota (env : ProcessEnv) (now : ℕ) (args : AuthorizeArgs) (db : Db)
    (reply : AuthorizeReply) (a : Admission) (bs : List (String × ℚ)) (quota : RateLimitState) :
    Prop where
  admission : admission db now args = .ok a
  buckets : buckets env args a = .ok bs
  hits : ∃ states windows, hitAll db.rateLimitWindows now (bs.map fun b => hit b.1 b.2) =
    .ok (states, windows) ∧ states.all RateLimitState.allowed = true
  customer : a.isSiteKey = false
  principal : reply.principal = some a.principal
  consumed : ∃ quotas, consumeCustomerQuotas env db.quotaWindows now a.key.id a.key.val.userId
    args.endpoint a.plan = .ok (quota, quotas)
  refused : quota.allowed = false
  rateLimit : reply.rateLimit = some quota.reply

/-- A call told that its quota is exhausted was refused by the quotas of a customer. -/
theorem authorize_outOfQuota {args : AuthorizeArgs} {reply : AuthorizeReply}
    (h : authorize env now args db = .ok (reply, db')) (hstatus : reply.status = .quotaExceeded) :
    ∃ a bs quota, OutOfQuota env now args db reply a bs quota := by
  unfold authorize at h
  split at h
  · cases h
  · rename_i r hr
    cases h
    exact absurd hstatus (admission_refuse hr).2.1
  · rename_i a ha
    obtain ⟨bs, hbs, h⟩ := except_bind_ok.mp h
    obtain ⟨⟨states, windows⟩, hhits, h⟩ := except_bind_ok.mp h
    simp only at h
    split_ifs at h with hlimited hsite
    · cases h
      cases hstatus
    · cases h
      cases hstatus
    · rw [combine_allowed, Bool.not_eq_true', Bool.not_eq_false] at hlimited
      obtain ⟨⟨quota, quotas⟩, hquota, h⟩ := except_bind_ok.mp h
      simp only at h
      split_ifs at h with hrefused
      · cases h
        exact ⟨a, bs, quota, ha, hbs, ⟨states, windows, hhits, hlimited⟩, by simpa using hsite, rfl,
          ⟨quotas, hquota⟩, by simpa using hrefused, rfl⟩
      · cases h
        cases hstatus

theorem authorize_quotaExceeded {args : AuthorizeArgs} {reply : AuthorizeReply}
    (h : authorize env now args db = .ok (reply, db')) (hstatus : reply.status = .quotaExceeded) :
    ∃ a quota quotas, Admitted db now args a ∧ a.isSiteKey = false ∧
      reply.principal = some a.principal ∧
      consumeCustomerQuotas env db.quotaWindows now a.key.id a.key.val.userId args.endpoint
        a.plan = .ok (quota, quotas) ∧ quota.allowed = false := by
  obtain ⟨a, bs, quota, hout⟩ := authorize_outOfQuota h hstatus
  obtain ⟨quotas, hquota⟩ := hout.consumed
  exact ⟨a, quota, quotas, admission_ok hout.admission, hout.customer, hout.principal, hquota,
    hout.refused⟩

/-- A call told that it is rate limited was refused by one of its counters. -/
theorem authorize_rateLimited {args : AuthorizeArgs} {reply : AuthorizeReply}
    (h : authorize env now args db = .ok (reply, db')) (hstatus : reply.status = .rateLimited) :
    ∃ a bs states windows, admission db now args = .ok a ∧ buckets env args a = .ok bs ∧
      hitAll db.rateLimitWindows now (bs.map fun b => hit b.1 b.2) = .ok (states, windows) ∧
      states.all RateLimitState.allowed = false ∧
      reply.rateLimit = some (combine states).reply := by
  unfold authorize at h
  split at h
  · cases h
  · rename_i r hr
    cases h
    exact absurd hstatus (admission_refuse hr).2.2
  · rename_i a ha
    obtain ⟨bs, hbs, h⟩ := except_bind_ok.mp h
    obtain ⟨⟨states, windows⟩, hhits, h⟩ := except_bind_ok.mp h
    simp only at h
    split_ifs at h with hlimited hsite
    · cases h
      rw [combine_allowed, Bool.not_eq_true'] at hlimited
      exact ⟨a, bs, states, windows, ha, hbs, hhits, hlimited, rfl⟩
    · cases h
      cases hstatus
    · obtain ⟨⟨quota, quotas⟩, hquota, h⟩ := except_bind_ok.mp h
      simp only at h
      split_ifs at h
      · cases h
        cases hstatus
      · cases h
        cases hstatus

theorem authorizeDemo_ok {args : DemoArgs} {reply : DemoReply}
    (h : authorizeDemo env now args db = .ok (reply, db')) :
    ∃ secret states windows audit, env.gatewaySecret = .ok secret ∧
      hitAll db.rateLimitWindows now (demoHits (demoIpHash env secret args.clientIp) args) =
        .ok (states, windows) ∧
      (reply.status = .ok ↔ states.all RateLimitState.allowed = true) ∧
      db' = { db with rateLimitWindows := windows, securityAuditEvents := audit } := by
  obtain ⟨secret, hsecret, h⟩ := except_bind_ok.mp h
  obtain ⟨⟨states, windows⟩, hhits, h⟩ := except_bind_ok.mp h
  simp only [combine_allowed] at h
  cases hall : states.all RateLimitState.allowed with
  | true =>
    simp only [hall] at h
    cases h
    exact ⟨secret, states, windows, _, hsecret, hhits, by rw [hall]; simp, rfl⟩
  | false =>
    simp only [hall] at h
    cases h
    exact ⟨secret, states, windows, _, hsecret, hhits, by rw [hall]; simp, rfl⟩

/-- A demo call that is refused reports what its counters combine to. -/
theorem authorizeDemo_rateLimited {args : DemoArgs} {reply : DemoReply}
    (h : authorizeDemo env now args db = .ok (reply, db')) (hstatus : reply.status = .rateLimited) :
    ∃ secret states windows, env.gatewaySecret = .ok secret ∧
      hitAll db.rateLimitWindows now (demoHits (demoIpHash env secret args.clientIp) args) =
        .ok (states, windows) ∧
      states.all RateLimitState.allowed = false ∧ reply.rateLimit = (combine states).reply := by
  obtain ⟨secret, hsecret, h⟩ := except_bind_ok.mp h
  obtain ⟨⟨states, windows⟩, hhits, h⟩ := except_bind_ok.mp h
  simp only [combine_allowed] at h
  cases h
  refine ⟨secret, states, windows, hsecret, hhits, ?_, rfl⟩
  simp only at hstatus
  split_ifs at hstatus with hall
  simpa using hall

end GeoPlatform.Convex
