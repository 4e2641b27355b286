import GeoPlatform.Convex.Queries
import GeoPlatform.Convex.QuotaWindows
import GeoPlatform.Convex.UsageHistory

/-! What a user owns, and the dashboard's queries as functions of it: two snapshots that agree on
the rows of the caller answer every query of the caller alike. -/
namespace GeoPlatform.Convex
open Docs

/-! ### The rows of a user -/

def requestsOf (s : Snapshot) (userId : ℕ) : List (Row ApiRequest) :=
  (s.db.apiRequests.query fun r => r.userId = userId).map (stamp s.requestCreation)

/-- The current window of one of the user's keys. -/
def isKeyWindowOf (s : Snapshot) (now userId : ℕ) (w : RateLimitWindow) : Bool :=
  (keysOf s userId).any fun key => isWindow (keyBucket key.id) (windowStart now MINUTE_MS) w

/-- A quota window of the user, for paid or for free traffic. -/
def isTenantQuota (userId : ℕ) (q : QuotaWindow) : Bool :=
  [true, false].any fun paid => q.bucket = (QuotaScope.tenant userId).bucket paid

/-- The rows a user owns. A playground token belongs to the owner of its key. -/
structure OwnedRows where
  user : Option User
  apiKeys : List (Row ApiKey)
  playgroundTokens : List (Doc PlaygroundToken)
  rateLimitWindows : List (Doc RateLimitWindow)
  usageDaily : List (Doc UsageDaily)
  apiRequests : List (Row ApiRequest)
  quotaWindows : List (Doc QuotaWindow)
  payments : List (Doc Payment)
  deriving DecidableEq

def ownedRows (s : Snapshot) (now userId : ℕ) : OwnedRows where
  user := s.db.users.get userId
  apiKeys := keysOf s userId
  playgroundTokens := s.db.playgroundTokens.query (tokenOfUser s.db userId)
  rateLimitWindows := s.db.rateLimitWindows.query (isKeyWindowOf s now userId)
  usageDaily := s.db.usageDaily.query fun r => r.userId = userId
  apiRequests := requestsOf s userId
  quotaWindows := s.db.quotaWindows.query (isTenantQuota userId)
  payments := s.db.payments.query fun p => p.userId = userId

/-- Every request row is one of a key of its user. -/
def RequestsOwned (db : Db) : Prop :=
  ∀ d ∈ db.apiRequests.docs, ∃ key, db.apiKeys.get d.val.apiKeyId = some key ∧
    key.userId = d.val.userId

/-- The caller presents an active session of the user. -/
def SignedIn (db : Db) (now : ℕ) (caller : Caller) (userId : ℕ) : Prop :=
  requireUserId db now caller = .ok userId

instance (db : Db) (now : ℕ) (caller : Caller) (userId : ℕ) :
    Decidable (SignedIn db now caller userId) :=
  inferInstanceAs (Decidable (requireUserId db now caller = .ok userId))

/-- A function that asks for the session goes on as the user. -/
theorem SignedIn.bind {α : Type} {db : Db} {now : ℕ} {caller : Caller} {userId : ℕ}
    (h : SignedIn db now caller userId) (f : ℕ → Except TxError α) :
    (requireUserId db now caller >>= f) = f userId := by
  unfold SignedIn at h
  rw [h]
  rfl

/-! ### Two snapshots with the same rows -/

theorem stamp_doc {α : Type} (creation : ℕ → ℚ) (l : List (Doc α)) :
    (l.map (stamp creation)).map (fun r => (⟨r.id, r.val⟩ : Doc α)) = l := by
  rw [List.map_map]
  exact List.map_id' l

theorem stamp_inj {α : Type} {c c' : ℕ → ℚ} {l l' : List (Doc α)}
    (h : l.map (stamp c) = l'.map (stamp c')) : l = l' ∧ ∀ d ∈ l, c d.id = c' d.id := by
  have hdocs : l = l' := by
    rw [← stamp_doc c l, h, stamp_doc]
  refine ⟨hdocs, fun d hd => ?_⟩
  rw [← hdocs] at h
  have hd' := List.map_inj_left.mp h d hd
  exact congrArg Row.creationTime hd'

section Agree
variable {s s' : Snapshot} {now A : ℕ} (h : ownedRows s now A = ownedRows s' now A)
include h

theorem same_user : s.db.users.get A = s'.db.users.get A := congrArg OwnedRows.user h

theorem same_keys : keysOf s A = keysOf s' A := congrArg OwnedRows.apiKeys h

theorem same_keyDocs : (s.db.apiKeys.query fun k => k.userId = A) =
    s'.db.apiKeys.query fun k => k.userId = A := (stamp_inj (same_keys h)).1

theorem same_ownedKey (keyId : ℕ) : ownedKey s.db keyId A = ownedKey s'.db keyId A :=
  Table.filter_get_congr (same_keyDocs h) keyId

theorem same_requireOwnedKey (keyId : ℕ) :
    requireOwnedKey s.db keyId A = requireOwnedKey s'.db keyId A := by
  unfold requireOwnedKey
  rw [same_ownedKey h]

theorem same_usageSince (day : UtcDate) : usageSince s.db A day = usageSince s'.db A day := by
  have hrows : (s.db.usageDaily.query fun r => r.userId = A) =
      s'.db.usageDaily.query fun r => r.userId = A := congrArg OwnedRows.usageDaily h
  have hsince := Table.query_congr (q := fun r => r.userId = A && day.le r.day) hrows
    (fun _ _ hq => (Bool.and_eq_true_iff.mp hq).1) fun _ _ hq => (Bool.and_eq_true_iff.mp hq).1
  unfold usageSince
  rw [hsince]

theorem same_seriesRows (span : ℕ) (keyId : Option ℕ) :
    seriesRows s.db now A span keyId = seriesRows s'.db now A span keyId := by
  unfold seriesRows
  rw [same_usageSince h]

theorem same_keyWindow {key : Row ApiKey} (hkey : key ∈ keysOf s A) :
    uniqueDoc s.db.rateLimitWindows (isWindow (keyBucket key.id) (windowStart now MINUTE_MS)) =
      uniqueDoc s'.db.rateLimitWindows
        (isWindow (keyBucket key.id) (windowStart now MINUTE_MS)) := by
  have hwindows : s.db.rateLimitWindows.query (isKeyWindowOf s now A) =
      s'.db.rateLimitWindows.query (isKeyWindowOf s' now A) :=
    congrArg OwnedRows.rateLimitWindows h
  have hsame : isKeyWindowOf s' now A = isKeyWindowOf s now A := by
    funext w
    unfold isKeyWindowOf
    rw [same_keys h]
  rw [hsame] at hwindows
  have howned : ∀ w, isWindow (keyBucket key.id) (windowStart now MINUTE_MS) w = true →
      isKeyWindowOf s now A w = true := fun w hw => List.any_eq_true.mpr ⟨key, hkey, hw⟩
  have hone := Table.unique_congr (Table.query_congr hwindows (fun d _ => howned d.val)
    fun d _ => howned d.val)
  unfold uniqueDoc
  rw [hone]

theorem same_tenantQuota (plan : Option PaidPlan) (period : Period) (start : ℕ) :
    uniqueDoc s.db.quotaWindows (isQuota (tenantQuotaBucket plan A) period start) =
      uniqueDoc s'.db.quotaWindows (isQuota (tenantQuotaBucket plan A) period start) := by
  have hquotas : s.db.quotaWindows.query (isTenantQuota A) =
      s'.db.quotaWindows.query (isTenantQuota A) := congrArg OwnedRows.quotaWindows h
  have howned : ∀ q, isQuota (tenantQuotaBucket plan A) period start q = true →
      isTenantQuota A q = true := by
    intro q hq
    simp only [isQuota, Bool.and_eq_true, decide_eq_true_eq] at hq
    unfold isTenantQuota
    rw [hq.1.1, tenantQuotaBucket_eq]
    cases plan.isSome <;> simp
  have hone := Table.unique_congr (Table.query_congr hquotas (fun d _ => howned d.val)
    fun d _ => howned d.val)
  unfold uniqueDoc
  rw [hone]

theorem same_succeededPayments : succeededPayments s.db A = succeededPayments s'.db A := by
  have hrows : (s.db.payments.query fun p => p.userId = A) =
      s'.db.payments.query fun p => p.userId = A := congrArg OwnedRows.payments h
  have hsucceeded := Table.query_congr
    (q := fun p => p.userId = A && p.status = .succeeded) hrows
    (fun _ _ hq => (Bool.and_eq_true_iff.mp hq).1) fun _ _ hq => (Bool.and_eq_true_iff.mp hq).1
  unfold succeededPayments
  rw [hsucceeded]

theorem same_payment (paymentId : ℕ) :
    ((s.db.payments.get paymentId).filter fun p => p.userId = A) =
      (s'.db.payments.get paymentId).filter fun p => p.userId = A := by
  have hrows : (s.db.payments.query fun p => p.userId = A) =
      s'.db.payments.query fun p => p.userId = A := congrArg OwnedRows.payments h
  exact Table.filter_get_congr hrows paymentId

end Agree

/-! ### Request rows -/

/-- The rows of the range a user may page through are the user's own. -/
theorem recentRange_owned {db : Db} (hdb : RequestsOwned db) {userId : ℕ} {keyId : Option ℕ}
    {range : RequestRange} (h : recentRange db userId keyId = .ok range) :
    ∀ d ∈ db.apiRequests.docs, range.holds d.val = true → d.val.userId = userId := by
  intro d hd hholds
  cases keyId with
  | none =>
    cases h
    exact of_decide_eq_true hholds
  | some keyId =>
    obtain ⟨key, hkey, h⟩ := except_bind_ok.mp h
    cases h
    obtain ⟨hget, howner⟩ := requireOwnedKey_ok hkey
    obtain ⟨key', hget', howner'⟩ := hdb d hd
    have hid : d.val.apiKeyId = keyId := of_decide_eq_true hholds
    rw [hid, hget] at hget'
    cases hget'
    exact howner'.symm.trans howner

theorem mem_newestFirst {s : Snapshot} {range : RequestRange} {r : Row ApiRequest}
    (h : r ∈ newestFirst s range) : ∃ d ∈ s.db.apiRequests.docs, d.val = r.val := by
  obtain ⟨d, hd, rfl⟩ := List.mem_map.mp h
  have hquery := (List.perm_insertionSort _ _).mem_iff.mp (List.mem_reverse.mp hd)
  exact ⟨d, (Table.mem_query.mp hquery).1, rfl⟩

section Requests
variable {s s' : Snapshot} {now A : ℕ} (h : ownedRows s now A = ownedRows s' now A)
include h

theorem same_recentRange (keyId : Option ℕ) :
    recentRange s.db A keyId = recentRange s'.db A keyId := by
  cases keyId with
  | none => rfl
  | some keyId => simp only [recentRange, same_requireOwnedKey h]

theorem same_newestFirst {range : RequestRange}
    (hs : ∀ d ∈ s.db.apiRequests.docs, range.holds d.val = true → d.val.userId = A)
    (hs' : ∀ d ∈ s'.db.apiRequests.docs, range.holds d.val = true → d.val.userId = A) :
    newestFirst s range = newestFirst s' range := by
  obtain ⟨hdocs, hcreation⟩ := stamp_inj (congrArg OwnedRows.apiRequests h)
  have hrange : s.db.apiRequests.query range.holds = s'.db.apiRequests.query range.holds :=
    Table.query_congr hdocs (fun d hd hq => decide_eq_true (hs d hd hq))
      fun d hd hq => decide_eq_true (hs' d hd hq)
  unfold newestFirst
  rw [← hrange]
  apply List.map_congr_left
  intro d hd
  have hquery := (List.perm_insertionSort _ _).mem_iff.mp (List.mem_reverse.mp hd)
  obtain ⟨hmem, hholds⟩ := Table.mem_query.mp hquery
  have hown : d ∈ s.db.apiRequests.query fun r => r.userId = A :=
    Table.mem_query.mpr ⟨hmem, decide_eq_true (hs d hmem hholds)⟩
  rw [stamp, stamp, hcreation d hown]

theorem same_recentRequest (hs : RequestsOwned s.db) {r : Row ApiRequest}
    (hr : ∃ d ∈ s.db.apiRequests.docs, d.val = r.val) (hA : r.val.userId = A) :
    recentRequest s.db r = recentRequest s'.db r := by
  obtain ⟨d, hd, hval⟩ := hr
  obtain ⟨key, hget, howner⟩ := hs d hd
  rw [hval] at hget howner
  have hown : ownedKey s.db r.val.apiKeyId A = some key :=
    ownedKey_eq_some.mpr ⟨hget, howner.trans hA⟩
  rw [same_ownedKey h] at hown
  unfold recentRequest
  rw [hget, (ownedKey_eq_some.mp hown).1]

end Requests

/-! ### The queries -/

theorem mapM_congr {α β : Type} {f g : α → Except TxError β} {l : List α}
    (hfg : ∀ a ∈ l, f a = g a) : l.mapM f = l.mapM g := by
  induction l with
  | nil => rfl
  | cons a l ih =>
    have hrest := ih fun b hb => hfg b (List.mem_cons_of_mem _ hb)
    rw [List.mapM_cons, List.mapM_cons, hfg a (List.mem_cons_self ..), hrest]

section Queries
variable {p : Paginator} {s s' : Snapshot} {now A : ℕ} {caller : Caller}
  (h : ownedRows s now A = ownedRows s' now A) (hin : SignedIn s.db now caller A)
  (hin' : SignedIn s'.db now caller A)
include h hin hin'

theorem same_list : ApiKeys.list s now caller = ApiKeys.list s' now caller := by
  have hsummaries : ∀ (totals : List (ℕ × ℕ)) (rate : ℕ),
      (keysOf s' A).mapM (keySummary s.db now totals rate) =
        (keysOf s' A).mapM (keySummary s'.db now totals rate) := by
    intro totals rate
    apply mapM_congr
    intro key hkey
    rw [← same_keys h] at hkey
    unfold keySummary
    rw [same_keyWindow h hkey]
  unfold ApiKeys.list
  simp only [hin.bind, hin'.bind, same_keys h, same_user h, same_usageSince h, hsummaries]

theorem same_summary : Usage.summary s now caller = Usage.summary s' now caller := by
  unfold Usage.summary
  simp only [hin.bind, hin'.bind, same_user h, same_usageSince h, same_keyDocs h,
    same_tenantQuota h]

theorem same_daily (days : JsNumber) (keyId : Option ℕ) :
    Usage.daily s now caller days keyId = Usage.daily s' now caller days keyId := by
  unfold Usage.daily
  simp only [hin.bind, hin'.bind, same_seriesRows h]

theorem same_endpoints (days : JsNumber) (keyId : Option ℕ) :
    Usage.endpoints s now caller days keyId = Usage.endpoints s' now caller days keyId := by
  unfold Usage.endpoints
  simp only [hin.bind, hin'.bind, same_seriesRows h]

theorem same_myBilling : myBilling s now caller = myBilling s' now caller := by
  unfold myBilling
  simp only [hin.bind, hin'.bind, same_user h, same_succeededPayments h]

theorem same_paymentStatus (paymentId : ℕ) :
    paymentStatus s now caller paymentId = paymentStatus s' now caller paymentId := by
  unfold paymentStatus
  simp only [hin.bind, hin'.bind, same_payment h]

theorem same_recent (hs : RequestsOwned s.db) (hs' : RequestsOwned s'.db)
    (requested : PaginationOpts) (keyId : Option ℕ) :
    Usage.recent p s now caller requested keyId = Usage.recent p s' now caller requested keyId := by
  unfold Usage.recent
  rw [hin.bind, hin'.bind]
  simp only [bind, Except.bind]
  have hrange := same_recentRange h keyId
  rw [← hrange]
  cases hok : recentRange s.db A keyId with
  | error e => rfl
  | ok range =>
    rw [hok] at hrange
    have hnewest := same_newestFirst h (recentRange_owned hs hok)
      (recentRange_owned hs' hrange.symm)
    simp only [← hnewest]
    cases hpage : p.paginate range (newestFirst s range)
        { requested with numItems := pageSize requested.numItems } with
    | error e => rfl
    | ok page =>
      have hrows : (page.page.filter fun r => r.val.userId = A).map (recentRequest s.db) =
          (page.page.filter fun r => r.val.userId = A).map (recentRequest s'.db) := by
        apply List.map_congr_left
        intro r hr
        obtain ⟨hmem, hown⟩ := List.mem_filter.mp hr
        exact same_recentRequest h hs (mem_newestFirst (p.mem_of_page hpage r hmem))
          (of_decide_eq_true hown)
      simp only [hrows]

/-- A query sees no more than the caller's own rows. -/
theorem same_query (hs : RequestsOwned s.db) (hs' : RequestsOwned s'.db) (q : Query) :
    q.run p s now caller = q.run p s' now caller := by
  cases q with
  | list => simp only [Query.run, same_list h hin hin']
  | summary => simp only [Query.run, same_summary h hin hin']
  | daily days keyId => simp only [Query.run, same_daily h hin hin']
  | endpoints days keyId => simp only [Query.run, same_endpoints h hin hin']
  | recent requested keyId => simp only [Query.run, same_recent h hin hin' hs hs']
  | myBilling => simp only [Query.run, same_myBilling h hin hin']
  | paymentStatus paymentId => simp only [Query.run, same_paymentStatus h hin hin']

end Queries

/-! ### Runs -/

/-- Every request row of a batch is one of a key it found, under the key's owner. -/
theorem recordUsage_owned {now : ℕ} {entries : List UsageEntry} {db db' : Db} {reply : UsageReply}
    (hdb : RequestsOwned db) (h : recordUsage now entries db = .ok (reply, db')) :
    ∀ d ∈ db'.apiRequests.docs, ∃ key, db.apiKeys.get d.val.apiKeyId = some key ∧
      key.userId = d.val.userId := by
  obtain ⟨usageDaily, -, h⟩ := except_bind_ok.mp h
  cases h
  intro d hd
  have hloop := usageLoop_absorbs (loopAbsorbs_nil db) now (entries.take MAX_USAGE_ENTRIES)
  obtain ⟨docs, hdocs, hvals, -⟩ := foldl_insert_docs db.apiRequests
    ([] ++ acceptedRequests db now (entries.take MAX_USAGE_ENTRIES))
  rw [hloop.apiRequests, hdocs] at hd
  rcases List.mem_append.mp hd with hold | hnew
  · exact hdb d hold
  · have haccepted : d.val ∈ acceptedRequests db now (entries.take MAX_USAGE_ENTRIES) := by
      rw [List.nil_append] at hvals
      rw [← hvals]
      exact List.mem_map_of_mem hnew
    exact acceptedRequests_owner haccepted

theorem requestsOwned_run {env : ProcessEnv} {db : Db} (h : RequestsOwned db) (c : Call) :
    RequestsOwned (c.run env db).2 := by
  have hkeys : ∀ d ∈ (c.run env db).2.apiRequests.docs,
      ∃ key, db.apiKeys.get d.val.apiKeyId = some key ∧ key.userId = d.val.userId := by
    by_cases hrecord : ∃ entries, c.txn = .recordUsage entries
    · obtain ⟨now, txn⟩ := c
      obtain ⟨entries, rfl⟩ := hrecord
      apply @commit_induction _ (fun db' => ∀ d ∈ db'.apiRequests.docs,
        ∃ key, db.apiKeys.get d.val.apiKeyId = some key ∧ key.userId = d.val.userId)
      · exact h
      · exact fun _ _ hok => recordUsage_owned h hok
    · intro d hd
      exact h d ((run_usageKept db fun entries htxn => hrecord ⟨entries, htxn⟩).requests d hd)
  intro d hd
  obtain ⟨key, hget, howner⟩ := hkeys d hd
  obtain ⟨key', hget', hrewrite⟩ := (run_apiKeys env db c).get_some hget
  exact ⟨key', hget', hrewrite.kept.userId.trans howner⟩

/-- In every run the request rows stay with the owners of their keys. -/
theorem requestsOwned_final {env : ProcessEnv} {db : Db} (h : RequestsOwned db) (cs : List Call) :
    RequestsOwned (Runs.final (Call.run env) db cs) :=
  Runs.final_induction (Call.run env) h (fun _ c hdb => requestsOwned_run hdb c) cs

end GeoPlatform.Convex
