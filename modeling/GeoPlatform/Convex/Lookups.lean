import GeoPlatform.Convex.KeyTable
import GeoPlatform.Convex.QuotaWindows
import GeoPlatform.Convex.Reconcile
import GeoPlatform.Convex.UsageAbsorb

/-! The `unique()` lookups of the gateway and of `payments.ts`. Every writer looks a row up before
it inserts one under the same key, so no lookup ever finds several. -/
namespace GeoPlatform.Convex
open Docs

variable {env : ProcessEnv}

/-- The tests of the four lookups, each with its whole key. -/
def windowTest (k : String × ℕ) : RateLimitWindow → Bool := isWindow k.1 k.2

def quotaTest (k : QuotaKey) : QuotaWindow → Bool := isQuota k.1 k.2.1 k.2.2

theorem windowTest_separates : Table.Separates windowTest := by
  intro j k w hj hk
  simp only [windowTest, isWindow, Bool.and_eq_true, decide_eq_true_eq] at hj hk
  exact Prod.ext (hj.1.symm.trans hk.1) (hj.2.symm.trans hk.2)

theorem quotaTest_separates : Table.Separates quotaTest := fun _ _ _ hj hk =>
  (isQuota_iff hj).mp hk

/-- No lookup of a counter, a quota, a rollup or a payment finds several rows. -/
structure RowsUnique (db : Db) : Prop where
  windows : Table.AtMostOne windowTest db.rateLimitWindows
  quotas : Table.AtMostOne quotaTest db.quotaWindows
  usage : Table.AtMostOne isUsageRow db.usageDaily
  payments : Table.AtMostOne isIntent db.payments

theorem rowsUnique_empty : RowsUnique {} :=
  ⟨Table.atMostOne_empty _, Table.atMostOne_empty _, Table.atMostOne_empty _,
    Table.atMostOne_empty _⟩

/-! ### Counters -/

theorem hitWindow_unique {t : Table RateLimitWindow} (ht : Table.AtMostOne windowTest t) (now : ℕ)
    (h : Hit) : ∃ state t', hitWindow t now h =
      .ok (state, t') ∧ Table.AtMostOne windowTest t' := by
  unfold hitWindow
  simp only
  split
  · rename_i hseveral
    exact absurd hseveral (ht.not_several (h.bucket, windowStart now h.durationMs))
  · rename_i d hd
    refine ⟨_, _, rfl, ?_⟩
    apply ht.patch
    exact fun _ _ => rfl
  · rename_i hnone
    refine ⟨_, _, rfl, ?_⟩
    apply ht.insert windowTest_separates (k := (h.bucket, windowStart now h.durationMs))
    · simp [windowTest, isWindow]
    · exact hnone

theorem hitAll_unique {t : Table RateLimitWindow} (ht : Table.AtMostOne windowTest t) (now : ℕ)
    (hs : List Hit) :
    ∃ states t', hitAll t now hs = .ok (states, t') ∧ Table.AtMostOne windowTest t' := by
  induction hs generalizing t with
  | nil => exact ⟨[], t, rfl, ht⟩
  | cons h hs ih =>
    obtain ⟨state, t₁, hfirst, ht₁⟩ := hitWindow_unique ht now h
    obtain ⟨states, t₂, hrest, ht₂⟩ := ih ht₁
    refine ⟨state :: states, t₂, ?_, ht₂⟩
    simp only [hitAll, hfirst, hrest, bind, Except.bind, pure, Except.pure]

/-! ### Quotas -/

/-- A check that found no row is of a window that has none. -/
def Unwritten (t : Table QuotaWindow) (now : ℕ) (spec : QuotaSpec) (c : QuotaCheck) : Prop :=
  c.existing = none → t.unique (quotaTest (spec.quotaKey now)) = .none

theorem checkQuota_unique {t : Table QuotaWindow} (ht : Table.AtMostOne quotaTest t) (now : ℕ)
    (spec : QuotaSpec) : ∃ c, checkQuota t now spec = .ok c ∧ Unwritten t now spec c := by
  unfold checkQuota
  simp only
  split
  · rename_i hseveral
    exact absurd hseveral (ht.not_several (spec.quotaKey now))
  · refine ⟨_, rfl, fun hno => ?_⟩
    cases hno
  · rename_i hnone
    exact ⟨_, rfl, fun _ => hnone⟩

theorem checkQuotas_unique {t : Table QuotaWindow} (ht : Table.AtMostOne quotaTest t) (now : ℕ)
    (specs : List QuotaSpec) :
    ∃ cs, checkQuotas t now specs = .ok cs ∧ List.Forall₂ (Unwritten t now) specs cs := by
  induction specs with
  | nil => exact ⟨[], rfl, .nil⟩
  | cons spec specs ih =>
    obtain ⟨c, hc, hfresh⟩ := checkQuota_unique ht now spec
    obtain ⟨cs, hcs, hrest⟩ := ih
    refine ⟨c :: cs, ?_, .cons hfresh hrest⟩
    simp only [checkQuotas, hc, hcs, bind, Except.bind, pure, Except.pure]

/-- Writing a check leaves the rows of every other window. -/
theorem writeQuota_query {t : Table QuotaWindow} {now : ℕ} {spec : QuotaSpec} {c : QuotaCheck}
    (h : Checked t now spec c) {k : QuotaKey} (hne : spec.quotaKey now ≠ k) :
    (writeQuota t c).query (quotaTest k) = t.query (quotaTest k) := by
  have hkey : spec.quotaKey now = (spec.bucket, spec.period, c.start) := by
    rw [QuotaSpec.quotaKey, h.start_eq]
  rw [hkey] at hne
  have hother : ∀ q, isQuota spec.bucket spec.period c.start q = true → quotaTest k q = false := by
    intro q hq
    rw [Bool.eq_false_iff]
    exact fun hk => hne ((isQuota_iff hq).mp hk)
  unfold writeQuota
  split
  · rename_i d hd
    obtain ⟨hget, hquota, -⟩ := h.row d hd
    apply Table.query_patch_of_not
    intro q hq
    rw [hget] at hq
    obtain rfl := Option.some.inj hq
    exact ⟨hother _ hquota, hother d.val hquota⟩
  · apply Table.query_insert_of_not
    apply hother
    simp [isQuota, h.spec_eq]

theorem writeQuota_unique {t : Table QuotaWindow} (ht : Table.AtMostOne quotaTest t) {now : ℕ}
    {spec : QuotaSpec} {c : QuotaCheck} (h : Checked t now spec c)
    (hfresh : Unwritten t now spec c) : Table.AtMostOne quotaTest (writeQuota t c) := by
  unfold writeQuota
  split
  · rename_i d hd
    apply ht.patch
    exact fun _ _ => rfl
  · rename_i hd
    apply ht.insert quotaTest_separates _ (hfresh hd)
    simp [quotaTest, isQuota, QuotaSpec.quotaKey, h.spec_eq, h.start_eq]

theorem writeAll_unique {t : Table QuotaWindow} (ht : Table.AtMostOne quotaTest t) {now : ℕ}
    {specs : List QuotaSpec} {cs : List QuotaCheck} (h : List.Forall₂ (Checked t now) specs cs)
    (hfresh : List.Forall₂ (Unwritten t now) specs cs)
    (hnodup : (specs.map (QuotaSpec.quotaKey now)).Nodup) :
    Table.AtMostOne quotaTest (cs.foldl writeQuota t) := by
  induction specs generalizing t cs with
  | nil =>
    cases h
    exact ht
  | cons spec specs ih =>
    obtain ⟨hnotin, hnodup⟩ := List.nodup_cons.mp hnodup
    cases h with
    | cons hc hcs =>
      cases hfresh with
      | cons hf hfs =>
        apply ih (writeQuota_unique ht hc hf) (checked_writeAll hc hcs hnotin) _ hnodup
        -- The windows still to be written are as they were when they were checked.
        rw [List.forall₂_iff_get] at hfs ⊢
        refine ⟨hfs.1, fun i hi hi' hno => ?_⟩
        have hmem : (specs.get ⟨i, hi⟩).quotaKey now ∈ specs.map (QuotaSpec.quotaKey now) :=
          List.mem_map_of_mem (List.get_mem specs ⟨i, hi⟩)
        have hne : spec.quotaKey now ≠ (specs.get ⟨i, hi⟩).quotaKey now :=
          fun he => hnotin (he ▸ hmem)
        rw [Table.unique_congr (writeQuota_query hc hne)]
        exact hfs.2 i hi hi' hno

theorem consumeCustomerQuotas_unique {t : Table QuotaWindow} (ht : Table.AtMostOne quotaTest t)
    (env : ProcessEnv) (now keyId userId : ℕ) (endpoint : Option String) (plan : Option PaidPlan) :
    ∃ state t', consumeCustomerQuotas env t now keyId userId endpoint plan = .ok (state, t') ∧
      Table.AtMostOne quotaTest t' := by
  obtain ⟨cs, hcs, hfresh⟩ := checkQuotas_unique ht now (quotaSpecs env keyId userId endpoint plan)
  have hwritten := writeAll_unique ht (checkQuotas_ok hcs) hfresh quotaKeys_nodup
  simp only [consumeCustomerQuotas, hcs, bind, Except.bind, pure, Except.pure]
  split_ifs
  · exact ⟨_, _, rfl, hwritten⟩
  · exact ⟨_, _, rfl, ht⟩

/-! ### Rollups and payments -/

theorem recordUsage_unique {db : Db} (h : RowsUnique db) (now : ℕ) (entries : List UsageEntry) :
    ∃ reply db', recordUsage now entries db = .ok (reply, db') ∧
      Table.AtMostOne isUsageRow db'.usageDaily := by
  have hloop := usageLoop_absorbs (loopAbsorbs_nil db) now (entries.take MAX_USAGE_ENTRIES)
  simp only [recordUsage, hloop.merged _ h.usage, bind, Except.bind, pure, Except.pure]
  exact ⟨_, _, rfl, OneRow.foldl h.usage _⟩

theorem recordPending_unique {db : Db} (h : RowsUnique db) (now userId : ℕ) (plan : PaidPlan)
    (paymentIntentId : String) :
    recordPending now userId plan paymentIntentId db ≠ .error .notUnique ∧
      ∀ paymentId db', recordPending now userId plan paymentIntentId db = .ok (paymentId, db') →
        Table.AtMostOne isIntent db'.payments := by
  constructor
  · intro hthrow
    unfold recordPending at hthrow
    split at hthrow
    · rename_i hseveral
      exact h.payments.not_several _ hseveral
    · split_ifs at hthrow
      cases hthrow
    · cases hthrow
  · intro paymentId db' hok
    rcases recordPending_ok hok with ⟨row, -, -, -, -, rfl⟩ | ⟨hnone, -, rfl⟩
    · exact h.payments
    · exact h.payments.insert isIntent_separates (by simp [isIntent, pendingPayment]) hnone

theorem settle_unique {db : Db} (h : RowsUnique db) (now : ℕ) (args : SettleArgs) :
    settle now args db ≠ .error .notUnique ∧
      ∀ granted db', settle now args db = .ok (granted, db') →
        Table.AtMostOne isIntent db'.payments := by
  constructor
  · intro hthrow
    unfold settle at hthrow
    split at hthrow
    · rename_i hseveral
      exact h.payments.not_several _ hseveral
    · cases hthrow
    · split_ifs at hthrow
      repeat' split at hthrow
      all_goals cases hthrow
  · intro granted db' hok
    cases settle_ok hok with
    | unchanged => exact h.payments
    | failed row =>
      apply h.payments.patch
      exact fun _ _ => rfl
    | succeeded row =>
      apply h.payments.patch
      exact fun _ _ => rfl

/-! ### The gateway's two mutations -/

theorem hitAll_keeps_unique {t t' : Table RateLimitWindow} (ht : Table.AtMostOne windowTest t)
    {now : ℕ} {hs : List Hit} {states : List RateLimitState}
    (h : hitAll t now hs = .ok (states, t')) : Table.AtMostOne windowTest t' := by
  obtain ⟨states', u, hok, hu⟩ := hitAll_unique ht now hs
  rw [hok] at h
  cases h
  exact hu

theorem consumeCustomerQuotas_keeps_unique {t t' : Table QuotaWindow}
    (ht : Table.AtMostOne quotaTest t) {now keyId userId : ℕ} {endpoint : Option String}
    {plan : Option PaidPlan} {state : RateLimitState}
    (h : consumeCustomerQuotas env t now keyId userId endpoint plan = .ok (state, t')) :
    Table.AtMostOne quotaTest t' := by
  obtain ⟨state', u, hok, hu⟩ := consumeCustomerQuotas_unique ht env now keyId userId endpoint plan
  rw [hok] at h
  cases h
  exact hu

theorem gatewaySecret_throws {e : TxError} (h : env.gatewaySecret = .error e) :
    e = .error "Missing Convex environment variable GATEWAY_SECRET" := by
  unfold ProcessEnv.gatewaySecret at h
  split at h
  · split_ifs at h
    cases h
    rfl
  · cases h
    rfl

theorem buckets_throws {args : AuthorizeArgs} {a : Admission} {e : TxError}
    (h : buckets env args a = .error e) : e ≠ .notUnique := by
  unfold buckets at h
  split at h
  · rcases except_bind_error h with hsecret | ⟨secret, -, h⟩
    · rw [gatewaySecret_throws hsecret]
      intro he
      cases he
    · cases h
  · cases h

/-- Once a request is admitted, no lookup of its charge fails. -/
theorem charge_unique {db : Db} (h : RowsUnique db) (now : ℕ) (args : AuthorizeArgs)
    (a : Admission) : charge env now args db a ≠ .error .notUnique := by
  intro hthrow
  rcases except_bind_error hthrow with hbuckets | ⟨bs, -, hthrow⟩
  · exact buckets_throws hbuckets rfl
  obtain ⟨states, windows, hhits, -⟩ :=
    hitAll_unique h.windows now (bs.map fun b => hit b.1 b.2)
  rcases except_bind_error hthrow with hfail | ⟨⟨states', windows'⟩, -, hthrow⟩
  · rw [hhits] at hfail
    cases hfail
  · simp only at hthrow
    split_ifs at hthrow
    · cases hthrow
    · cases hthrow
    · obtain ⟨state, quotas, hquotas, -⟩ := consumeCustomerQuotas_unique h.quotas env now a.key.id
        a.key.val.userId args.endpoint a.plan
      rcases except_bind_error hthrow with hfail | ⟨⟨state', quotas'⟩, -, hthrow⟩
      · rw [hquotas] at hfail
        cases hfail
      · simp only at hthrow
        split_ifs at hthrow <;> cases hthrow

/-- Nothing but the lookup of its credential stops a request with an error. -/
theorem admission_throws {db : Db} {now : ℕ} {args : AuthorizeArgs} {e : TxError}
    (h : admission db now args = .error (.throw e)) :
    db.apiKeys.unique (isKeyHash args.hash) = .several ∨
      db.playgroundTokens.unique (isTokenHash args.hash) = .several := by
  rcases except_bind_error h with hkey | ⟨⟨key, viaPlayground⟩, -, h⟩
  · unfold findKey at hkey
    split at hkey
    · split at hkey
      · rename_i hseveral
        exact Or.inr hseveral
      · cases hkey
      · split_ifs at hkey
        · cases hkey
        · split at hkey
          · cases hkey
          · split_ifs at hkey
            cases hkey
    · split at hkey
      · rename_i hseveral
        exact Or.inl hseveral
      · cases hkey
      · cases hkey
  · rcases except_bind_error h with howner | ⟨owner, -, hscope⟩
    · unfold checkKey keyRefusal at howner
      split_ifs at howner
      · cases howner
      · cases howner
      · split at howner
        · cases howner
        · split_ifs at howner
          cases howner
    · unfold checkScope keyRefusal at hscope
      simp only at hscope
      split at hscope
      · cases hscope
      · split at hscope
        · cases hscope
        · split at hscope <;> cases hscope

/-- No secret is stored twice. -/
structure CredentialsUnique (db : Db) : Prop where
  keys : Table.AtMostOne isKeyHash db.apiKeys
  tokens : Table.AtMostOne isTokenHash db.playgroundTokens

theorem authorize_unique {db : Db} (h : RowsUnique db) (hcred : CredentialsUnique db) (now : ℕ)
    (args : AuthorizeArgs) : authorize env now args db ≠ .error .notUnique := by
  intro hthrow
  unfold authorize at hthrow
  split at hthrow
  · rename_i e he
    rcases admission_throws he with hseveral | hseveral
    · exact hcred.keys.not_several _ hseveral
    · exact hcred.tokens.not_several _ hseveral
  · cases hthrow
  · exact charge_unique h now args _ hthrow

theorem authorizeDemo_unique {db : Db} (h : RowsUnique db) (now : ℕ) (args : DemoArgs) :
    authorizeDemo env now args db ≠ .error .notUnique := by
  intro hthrow
  rcases except_bind_error hthrow with hsecret | ⟨secret, -, hthrow⟩
  · cases gatewaySecret_throws hsecret
  obtain ⟨states, windows, hhits, -⟩ := hitAll_unique h.windows now
    (demoHits (demoIpHash env secret args.clientIp) args)
  rcases except_bind_error hthrow with hfail | ⟨⟨states', windows'⟩, -, hthrow⟩
  · rw [hhits] at hfail
    cases hfail
  · cases hthrow

/-! ### Whole runs -/

/-- The functions whose lookups these are. -/
def Txn.looksUp : Txn → Bool
  | .authorizeDemo _ => true
  | .authorize _ => true
  | .recordUsage _ => true
  | .prune => true
  | .recordPending _ _ _ => true
  | .settle _ => true
  | _ => false

theorem RowsUnique.frame {written : List TableName} {db db' : Db} (h : RowsUnique db)
    (hf : Frame written db db') (hwindows : .rateLimitWindows ∉ written)
    (hquotas : .quotaWindows ∉ written) (husage : .usageDaily ∉ written)
    (hpayments : .payments ∉ written) : RowsUnique db' := by
  constructor
  · rw [hf.rateLimitWindows hwindows]
    exact h.windows
  · rw [hf.quotaWindows hquotas]
    exact h.quotas
  · rw [hf.usageDaily husage]
    exact h.usage
  · rw [hf.payments hpayments]
    exact h.payments

theorem rowsUnique_authorize {db db' : Db} (h : RowsUnique db) {now : ℕ} {args : AuthorizeArgs}
    {reply : AuthorizeReply} (hok : authorize env now args db = .ok (reply, db')) :
    RowsUnique db' := by
  have hcharged : ∀ {a windows allowed}, Charged env now args db a windows allowed →
      Table.AtMostOne windowTest windows := by
    intro a windows allowed hc
    obtain ⟨bs, states, -, hhits, -⟩ := hc.hits
    exact hitAll_keeps_unique h.windows hhits
  cases authorize_ok hok with
  | refused => exact ⟨h.windows, h.quotas, h.usage, h.payments⟩
  | rateLimited a windows reply entry hc => exact ⟨hcharged hc, h.quotas, h.usage, h.payments⟩
  | quotaExceeded a windows reply entry hc => exact ⟨hcharged hc, h.quotas, h.usage, h.payments⟩
  | site a windows reply entry hc => exact ⟨hcharged hc, h.quotas, h.usage, h.payments⟩
  | customer a windows quota quotas reply entry hc hstatus hprincipal hsite hquota =>
    exact ⟨hcharged hc, consumeCustomerQuotas_keeps_unique h.quotas hquota, h.usage, h.payments⟩

/-- Every transaction keeps the rows unique. -/
theorem rowsUnique_run {db : Db} (h : RowsUnique db) (c : Call) :
    RowsUnique (c.run env db).2 := by
  have hframe := run_frame env db c
  obtain ⟨now, txn⟩ := c
  by_cases hlook : txn.looksUp = true
  · cases txn <;> simp only [Txn.looksUp, Bool.false_eq_true] at hlook
    case authorizeDemo args =>
      apply @commit_induction _ RowsUnique _ _ _ h
      intro reply db' hok
      obtain ⟨secret, states, windows, audit, -, hhits, -, rfl⟩ := authorizeDemo_ok hok
      exact ⟨hitAll_keeps_unique h.windows hhits, h.quotas, h.usage, h.payments⟩
    case authorize args =>
      exact @commit_induction _ RowsUnique _ _ _ h fun _ _ hok => rowsUnique_authorize h hok
    case recordUsage entries =>
      apply @commit_induction _ RowsUnique _ _ _ h
      intro reply db' hok
      obtain ⟨reply', u, hu, husage⟩ := recordUsage_unique h now entries
      rw [hok] at hu
      cases hu
      obtain ⟨apiRequests, usageDaily, keys, lastUsed, rfl⟩ := recordUsage_ok hok
      exact ⟨h.windows, h.quotas, husage, h.payments⟩
    case prune =>
      exact ⟨h.windows.keep _, h.quotas.keep _, h.usage, h.payments⟩
    case recordPending userId plan paymentIntentId =>
      apply @commit_induction _ RowsUnique _ _ _ h
      intro paymentId db' hok
      have hpayments := (recordPending_unique h now userId plan paymentIntentId).2 _ _ hok
      rcases recordPending_ok hok with ⟨row, -, -, -, -, rfl⟩ | ⟨-, -, rfl⟩
      · exact h
      · exact ⟨h.windows, h.quotas, h.usage, hpayments⟩
    case settle args =>
      apply @commit_induction _ RowsUnique _ _ _ h
      intro granted db' hok
      have hpayments := (settle_unique h now args).2 _ _ hok
      have hf := settle_frame hok
      exact ⟨hf.rateLimitWindows (by decide) ▸ h.windows, hf.quotaWindows (by decide) ▸ h.quotas,
        hf.usageDaily (by decide) ▸ h.usage, hpayments⟩
  · cases txn <;> simp only [Txn.looksUp, not_true] at hlook <;>
      exact h.frame hframe (by simp [Txn.writes]) (by simp [Txn.writes]) (by simp [Txn.writes])
        (by simp [Txn.writes])

theorem rowsUnique_final {db : Db} (h : RowsUnique db) (cs : List Call) :
    RowsUnique (Runs.final (Call.run env) db cs) :=
  Runs.final_induction (Call.run env) h (fun _ c hs => rowsUnique_run hs c) cs

/-- The functions store no credential. -/
theorem credentialsUnique_run {db : Db} (h : CredentialsUnique db) {c : Call}
    (hc : c.txn.looksUp = true) : CredentialsUnique (c.run env db).2 := by
  constructor
  · obtain ⟨base, f, hbase, hf, hrewrite⟩ := run_apiKeys env db c
    have hold : base = db.apiKeys := by
      rcases hbase with hsame | ⟨key, hnew, -⟩
      · exact hsame
      · cases hnew with
        | insertKey args htxn => simp [htxn, Txn.looksUp] at hc
        | upsertKey args htxn => simp [htxn, Txn.looksUp] at hc
    apply (hold ▸ h.keys).rewritten hf
    intro hash i k
    rcases (hrewrite i k).keyHash with hsame | ⟨args, htxn, -⟩
    · simp only [isKeyHash, hsame]
    · simp [htxn, Txn.looksUp] at hc
  · by_cases hprune : c.txn = .prune
    · obtain ⟨now, txn⟩ := c
      obtain rfl : txn = .prune := hprune
      exact h.tokens.keep _
    · have hsame : TableName.playgroundTokens ∉ c.txn.writes := by
        cases htxn : c.txn <;> simp_all [Txn.looksUp, Txn.writes]
      rw [(run_frame env db c).playgroundTokens hsame]
      exact h.tokens

theorem commit_threw {α : Type} {db : Db} {answer : α → Answer} {r : Except TxError (α × Db)}
    {e : TxError} (hanswer : ∀ a, answer a ≠ .threw e) (h : (commit db answer r).1 = .threw e) :
    r = .error e := by
  rcases commit_cases db answer r with ⟨e', hr, hc⟩ | ⟨a, db', -, hc⟩
  · rw [hc] at h
    cases h
    exact hr
  · rw [hc] at h
    exact absurd h (hanswer a)

/-- None of the functions fails on a lookup. -/
theorem run_not_notUnique {db : Db} (h : RowsUnique db) (hcred : CredentialsUnique db) {c : Call}
    (hc : c.txn.looksUp = true) : (c.run env db).1 ≠ .threw .notUnique := by
  intro hthrow
  obtain ⟨now, txn⟩ := c
  cases txn <;> simp only [Txn.looksUp, Bool.false_eq_true] at hc
  case authorizeDemo args =>
    exact authorizeDemo_unique h now args (commit_threw (fun _ he => by cases he) hthrow)
  case authorize args =>
    exact authorize_unique h hcred now args (commit_threw (fun _ he => by cases he) hthrow)
  case recordUsage entries =>
    obtain ⟨reply, db', hok, -⟩ := recordUsage_unique h now entries
    have hfail := commit_threw (fun _ he => by cases he) hthrow
    rw [hok] at hfail
    cases hfail
  case prune => cases hthrow
  case recordPending userId plan paymentIntentId =>
    exact (recordPending_unique h now userId plan paymentIntentId).1
      (commit_threw (fun _ he => by cases he) hthrow)
  case settle args =>
    exact (settle_unique h now args).1 (commit_threw (fun _ he => by cases he) hthrow)

/-! ### The buckets of one call -/

theorem buckets_nodup {args : AuthorizeArgs} {a : Admission} {bs : List (String × ℚ)}
    (h : buckets env args a = .ok bs) : (bs.map Prod.fst).Nodup := by
  unfold buckets at h
  split at h
  · obtain ⟨secret, -, h⟩ := except_bind_ok.mp h
    cases h
    have hkey : ∀ ipHash : String, ipBucket ipHash ≠ keyBucket a.key.id := by
      intro ipHash he
      have hl := congrArg String.toList he
      simp [ipBucket, keyBucket] at hl
    have hroute : ∀ ipHash : String, ipBucket ipHash ≠ "ip:" ++ ipHash ++ ":route" := by
      intro ipHash he
      have hl := congrArg (fun s => s.toList.length) he
      simp [ipBucket] at hl
    have hboth : ∀ ipHash : String, keyBucket a.key.id ≠ "ip:" ++ ipHash ++ ":route" := by
      intro ipHash he
      have hl := congrArg String.toList he
      simp [keyBucket] at hl
    split_ifs <;> simp [hkey, hroute, hboth]
  · cases h
    have hl : ∀ {s s' : String}, s.toList ≠ s'.toList → s ≠ s' := fun hne he => hne (he ▸ rfl)
    have hendpoint : keyBucket a.key.id ≠ endpointBucket a.key.id args.endpoint := by
      intro he
      have hlen := congrArg (fun s => s.toList.length) he
      simp [keyBucket, endpointBucket] at hlen
    have huser : keyBucket a.key.id ≠ userBucket a.key.val.userId := hl (by
      simp [keyBucket, userBucket])
    have hglobal : keyBucket a.key.id ≠ globalBucket := hl (by simp [keyBucket, globalBucket])
    have huserEndpoint : userBucket a.key.val.userId ≠ endpointBucket a.key.id args.endpoint :=
      hl (by simp [userBucket, endpointBucket])
    have huserGlobal : userBucket a.key.val.userId ≠ globalBucket :=
      hl (by simp [userBucket, globalBucket])
    have hendpointGlobal : endpointBucket a.key.id args.endpoint ≠ globalBucket :=
      hl (by simp [endpointBucket, globalBucket])
    simp [huser, hendpoint, hglobal, huserEndpoint, huserGlobal, hendpointGlobal]

theorem demoBuckets_nodup (ipHash : String) (args : DemoArgs) :
    ((demoHits ipHash args).map Hit.bucket).Nodup := by
  have hl : ∀ {s s' : String}, s.toList ≠ s'.toList → s ≠ s' := fun hne he => hne (he ▸ rfl)
  have hhour : "demo:ip:" ++ ipHash ++ ":minute" ≠ demoHourBucket ipHash := hl (by
    simp [demoHourBucket])
  have hendpoint : "demo:ip:" ++ ipHash ++ ":minute" ≠
      "demo:ip:" ++ ipHash ++ ":" ++ demoEndpoint args.endpoint ++ ":minute" := by
    intro he
    have hlen := congrArg (fun s => s.toList.length) he
    simp at hlen
  have hglobal : "demo:ip:" ++ ipHash ++ ":minute" ≠ "demo:global:minute" := hl (by simp)
  have hhourEndpoint : demoHourBucket ipHash ≠
      "demo:ip:" ++ ipHash ++ ":" ++ demoEndpoint args.endpoint ++ ":minute" := by
    intro he
    have hlast := congrArg (fun s => s.toList.reverse) he
    simp [demoHourBucket] at hlast
  have hhourGlobal : demoHourBucket ipHash ≠ "demo:global:minute" := hl (by simp [demoHourBucket])
  have hendpointGlobal : "demo:ip:" ++ ipHash ++ ":" ++ demoEndpoint args.endpoint ++ ":minute" ≠
      "demo:global:minute" := hl (by simp)
  simp [demoHits, hhour, hendpoint, hglobal, hhourEndpoint, hhourGlobal, hendpointGlobal]

theorem quotaBuckets_nodup (env : ProcessEnv) (keyId userId : ℕ) (endpoint : Option String)
    (plan : Option PaidPlan) : ((quotaSpecs env keyId userId endpoint plan).map
      fun spec => (spec.bucket, spec.period)).Nodup := by
  have hkeys := @quotaKeys_nodup env 0 keyId userId endpoint plan
  apply List.Nodup.of_map fun p : String × Period => (p.1, p.2, (quotaPeriod 0 p.2).start)
  rw [List.map_map]
  exact hkeys

/-- After any run of the deployment and any run of the functions, every counter, quota, rollup and
payment has one row at most. None of the functions fails on a lookup as long as no two credentials
have one hash, and one call names each of its counters and quotas once. -/
theorem lookups_never_fail (env : ProcessEnv) (setup cs : List Call)
    (hcs : ∀ c ∈ cs, c.txn.looksUp = true) :
    let db := Runs.final (Call.run env) {} setup
    RowsUnique (Runs.final (Call.run env) db cs) ∧
    (CredentialsUnique db →
      ∀ x ∈ Runs.trace (Call.run env) db cs, x.reply ≠ .threw .notUnique) ∧
    (∀ args a bs, buckets env args a = .ok bs → (bs.map Prod.fst).Nodup) ∧
    (∀ ipHash args, ((demoHits ipHash args).map Hit.bucket).Nodup) ∧
    ∀ keyId userId endpoint plan, ((quotaSpecs env keyId userId endpoint plan).map
      fun spec => (spec.bucket, spec.period)).Nodup := by
  intro db
  have hdb : RowsUnique db := rowsUnique_final rowsUnique_empty setup
  refine ⟨rowsUnique_final hdb cs, fun hcred x hx => ?_, fun args a bs h => buckets_nodup h,
    demoBuckets_nodup, quotaBuckets_nodup env⟩
  obtain ⟨pre, post, rfl, hbefore, hreply⟩ := Runs.mem_trace (Call.run env) hx
  have hpre : ∀ c ∈ pre, c.txn.looksUp = true := fun c hc => hcs c (List.mem_append_left _ hc)
  have hcred' : CredentialsUnique (Runs.final (Call.run env) db pre) := by
    apply Runs.final_induction_mem (Call.run env) hcred
    exact fun s c hc hs => credentialsUnique_run hs (hpre c hc)
  rw [hreply, hbefore]
  apply run_not_notUnique (rowsUnique_final hdb pre) hcred'
  exact hcs x.event (by simp)

/-- A developer signs up and creates a key. -/
def oneDeveloper : List Call :=
  let developer : Caller := ⟨some 0, some 0⟩
  [⟨0, .signUp "dev@example.com"⟩, ⟨0, .signIn 0 1000000⟩, ⟨1, .activateFreeTier developer⟩,
    ⟨2, .insertKey ⟨0, "first", "geo_aaaa", "free-key", [.geocode], none⟩⟩]

/-- Requests with the key, a demo call, a payment and a cleanup. -/
def meteredCalls : List Call :=
  [⟨60000, .authorize freeRequest⟩, ⟨60001, .authorize freeRequest⟩,
    ⟨60002, .authorizeDemo ⟨"203.0.113.7", "geocode", 1, none, none, none⟩⟩,
    ⟨60003, .recordPending 0 .starter "intent"⟩, ⟨60004, .prune⟩]

theorem lookups_never_fail_metered :
    RowsUnique (Runs.final (Call.run testEnv) (Runs.final (Call.run testEnv) {} oneDeveloper)
      meteredCalls) ∧
    ∀ x ∈ Runs.trace (Call.run testEnv) (Runs.final (Call.run testEnv) {} oneDeveloper)
      meteredCalls, x.reply ≠ .threw .notUnique := by
  have hkeys : (Runs.final (Call.run testEnv) {} oneDeveloper).apiKeys.docs.length = 1 := by
    decide +kernel
  have htokens : (Runs.final (Call.run testEnv) {} oneDeveloper).playgroundTokens.docs.length = 0 :=
    by decide +kernel
  have hcred : CredentialsUnique (Runs.final (Call.run testEnv) {} oneDeveloper) :=
    ⟨fun _ => (List.length_filter_le _ _).trans hkeys.le,
      fun _ => (List.length_filter_le _ _).trans (htokens.le.trans (Nat.zero_le 1))⟩
  have hlooks : ∀ c ∈ meteredCalls, c.txn.looksUp = true := by simp [meteredCalls, Txn.looksUp]
  obtain ⟨hrows, hreplies, -⟩ := lookups_never_fail testEnv oneDeveloper meteredCalls hlooks
  exact ⟨hrows, hreplies hcred⟩

end GeoPlatform.Convex
