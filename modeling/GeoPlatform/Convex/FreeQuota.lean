import GeoPlatform.Convex.FreeTier

/-! A free account with allowance left is never told that its quota is exhausted. Every free
window counts requests that the account's lifetime counter has counted as well, so the counter
runs out first. -/
namespace GeoPlatform.Convex
open Docs

/-- The configured quotas, one for each window of a request. -/
def ProcessEnv.customerQuotas (env : ProcessEnv) : List ℕ :=
  [env.keyDailyQuotaUnits, env.keyMonthlyQuotaUnits, env.tenantDailyQuotaUnits,
    env.tenantMonthlyQuotaUnits, env.endpointMonthlyQuotaUnits]

/-- The account that a quota window counts for. -/
def QuotaScope.account (keys : Table ApiKey) : QuotaScope → Option ℕ
  | .key keyId => (keys.get keyId).map ApiKey.userId
  | .tenant userId => some userId
  | .endpoint userId _ => some userId

/-- The free requests that the account of a window has used. -/
def QuotaScope.used (db : Db) (s : QuotaScope) : ℕ := (s.account db.apiKeys).elim 0 (freeUsed db)

/-- Every window has the name of a scope, and a free one has counted no more than its account
has used of the allowance. -/
structure FreeBound (db : Db) : Prop where
  within : ∀ userId, WithinAllowance userId db
  named : ∀ k : QuotaKey, 0 < quotaUnits db.quotaWindows k.1 k.2.1 k.2.2 →
    ∃ paid, ∃ s : QuotaScope, k.1 = s.bucket paid
  free : ∀ s : QuotaScope, ∀ period start,
    quotaUnits db.quotaWindows (s.bucket false) period start ≤ s.used db

variable {env : ProcessEnv}

/-! ### What one transaction does to a window and to its account -/

theorem account_run (env : ProcessEnv) {db : Db} (c : Call) {s : QuotaScope} {userId : ℕ}
    (h : s.account db.apiKeys = some userId) :
    s.account (c.run env db).2.apiKeys = some userId := by
  cases s with
  | key keyId =>
    obtain ⟨key, hkey, rfl⟩ := Option.map_eq_some_iff.mp h
    obtain ⟨key', hkey', hrewrite⟩ := (run_apiKeys env db c).get_some hkey
    rw [QuotaScope.account, hkey', Option.map_some, hrewrite.kept.userId]
  | tenant u => exact h
  | endpoint u name => exact h

/-- A charge to the account shows at every one of its windows. -/
theorem used_run {db : Db} (c : Call) (hwithin : ∀ userId, WithinAllowance userId db)
    {s : QuotaScope} {userId : ℕ} (h : s.account db.apiKeys = some userId) :
    s.used (c.run env db).2 = s.used db + okWithoutPlan env userId db c := by
  rw [QuotaScope.used, QuotaScope.used, account_run env c h, h]
  exact freeUsed_run c (hwithin userId)

theorem used_le_run {db : Db} (c : Call) (hwithin : ∀ userId, WithinAllowance userId db)
    (s : QuotaScope) : s.used db ≤ s.used (c.run env db).2 := by
  cases h : s.account db.apiKeys with
  | none =>
    rw [QuotaScope.used, h]
    exact Nat.zero_le _
  | some userId =>
    rw [used_run c hwithin h]
    exact Nat.le_add_right _ _

/-- What a transaction does to a quota window. -/
inductive UnitsStep (env : ProcessEnv) (db : Db) (c : Call) (k : QuotaKey) : Prop
  | lowered (hunits : quotaUnits (c.run env db).2.quotaWindows k.1 k.2.1 k.2.2 ≤
      quotaUnits db.quotaWindows k.1 k.2.1 k.2.2)
  | charged (args : AuthorizeArgs) (a : Admission) (s : QuotaScope)
      (hok : okCall env db c = some (args, a)) (hsite : a.isSiteKey = false)
      (hbucket : k.1 = s.bucket a.plan.isSome)
      (haccount : s.account db.apiKeys = some a.key.val.userId)
      (hunits : quotaUnits (c.run env db).2.quotaWindows k.1 k.2.1 k.2.2 =
        quotaUnits db.quotaWindows k.1 k.2.1 k.2.2 + 1)

theorem UnitsStep.of_eq {db : Db} {c : Call} {k : QuotaKey}
    (h : (c.run env db).2.quotaWindows = db.quotaWindows) : UnitsStep env db c k :=
  .lowered (by rw [h])

theorem unitsStep_customer {db : Db} {c : Call} {args : AuthorizeArgs} {a : Admission}
    (hok : okCall env db c = some (args, a)) (hsite : a.isSiteKey = false) (k : QuotaKey) :
    UnitsStep env db c k := by
  have hunits := quotaUnits_customer hok hsite k
  by_cases hk : k ∈ quotaKeys env c.now a.key.id a.key.val.userId args.endpoint a.plan
  · rw [if_pos hk] at hunits
    obtain ⟨s, hbucket, hs⟩ := quotaKeys_scope hk
    apply UnitsStep.charged args a s hok hsite hbucket ?_ hunits
    rcases hs with rfl | rfl | rfl
    · rw [QuotaScope.account, (okCall_admitted hok).key_mem]
      rfl
    · rfl
    · rfl
  · rw [if_neg hk] at hunits
    exact .lowered hunits.le

theorem unitsStep_run (db : Db) (c : Call) (k : QuotaKey) : UnitsStep env db c k := by
  by_cases hw : TableName.quotaWindows ∈ c.txn.writes
  · obtain ⟨now, txn⟩ := c
    cases txn <;> simp only [Txn.writes, List.mem_cons, List.mem_nil_iff, reduceCtorEq, or_self,
      or_false] at hw
    case authorize args =>
      cases hok : okCall env db ⟨now, .authorize args⟩ with
      | none => exact .of_eq (authorize_not_ok rfl hok).1
      | some r =>
        obtain ⟨args', a⟩ := r
        rcases (okCall_outcome hok).2 with ⟨-, hquota, -⟩ | ⟨hsite, -⟩
        · exact .of_eq hquota
        · exact unitsStep_customer hok hsite k
    case prune => exact .lowered (Table.sum_keep_le _ _)
  · exact .of_eq ((run_frame env db c).quotaWindows hw)

/-- A customer call without a plan is counted against its account. -/
theorem okWithoutPlan_customer {db : Db} {c : Call} {args : AuthorizeArgs} {a : Admission}
    (hok : okCall env db c = some (args, a)) (hsite : a.isSiteKey = false)
    (hplan : a.plan = none) : okWithoutPlan env a.key.val.userId db c = 1 := by
  rw [customer_plan hok hsite] at hplan
  simp only [okWithoutPlan, hok, hsite, hplan, and_self, if_true]

theorem freeBound_run {db : Db} (c : Call) (h : FreeBound db) : FreeBound (c.run env db).2 := by
  refine ⟨fun userId => withinAllowance_run c (h.within userId), ?_, ?_⟩
  · intro k hpos
    cases @unitsStep_run env db c k with
    | lowered hunits =>
      apply h.named k
      omega
    | charged args a s hok hsite hbucket => exact ⟨_, s, hbucket⟩
  · intro s period start
    have hbefore := h.free s period start
    have hmore := @used_le_run env db c h.within s
    cases @unitsStep_run env db c (s.bucket false, period, start) with
    | lowered hunits =>
      simp only at hunits
      omega
    | charged args a s' hok hsite hbucket haccount hunits =>
      obtain ⟨hplan, rfl⟩ := QuotaScope.bucket_injective hbucket
      have hnone : a.plan = none := by simpa using hplan.symm
      have hused := @used_run env db c h.within s _ haccount
      rw [okWithoutPlan_customer hok hsite hnone] at hused
      simp only at hunits
      omega

theorem freeBound_of_empty {db : Db} (hempty : db.quotaWindows.docs = [])
    (hwithin : ∀ userId, WithinAllowance userId db) : FreeBound db := by
  have hzero : ∀ k : QuotaKey, quotaUnits db.quotaWindows k.1 k.2.1 k.2.2 = 0 := by
    intro k
    apply Table.sum_eq_zero
    rw [hempty]
    simp
  refine ⟨hwithin, fun k hpos => ?_, fun s period start => ?_⟩
  · rw [hzero k] at hpos
    omega
  · have hnone := hzero (s.bucket false, period, start)
    simp only at hnone
    omega

/-! ### The answers -/

/-- Without a plan every window of a request has the whole allowance for its limit. -/
theorem quotaSpecs_free (hquotas : ∀ quota ∈ env.customerQuotas, FREE_TOTAL_REQUESTS ≤ quota)
    {keyId userId : ℕ} {endpoint : Option String} {spec : QuotaSpec}
    (h : spec ∈ quotaSpecs env keyId userId endpoint none) : spec.limit = FREE_TOTAL_REQUESTS := by
  simp only [ProcessEnv.customerQuotas, List.forall_mem_cons] at hquotas
  obtain ⟨hkd, hkm, htd, htm, hem, -⟩ := hquotas
  simp only [quotaSpecs, List.mem_cons, List.not_mem_nil, or_false, Option.isSome_none,
    Bool.false_eq_true, if_false] at h
  rcases h with rfl | rfl | rfl | rfl | rfl
  · exact min_eq_left hkd
  · exact min_eq_left hkm
  · exact min_eq_left htd
  · exact min_eq_left htm
  · exact min_eq_left hem

/-- An account admitted without a plan has requests left. -/
theorem freeUsed_lt_of_access {db : Db} {now : ℕ} {args : AuthorizeArgs} {a : Admission}
    (h : Admitted db now args a) (hsite : a.isSiteKey = false)
    (hplan : activePlan a.owner now = none) :
    freeUsed db a.key.val.userId < FREE_TOTAL_REQUESTS := by
  have haccess := h.access hsite
  rw [hasKeyAccess, hplan, Option.isSome_none, Bool.false_or, decide_eq_true_eq] at haccess
  unfold freeRequestsRemaining at haccess
  rw [freeUsed, h.owner_mem, Option.bind_some]
  split at haccess
  · exact absurd haccess (lt_irrefl 0)
  · omega

/-- A reply of an exhausted quota goes to an account with an active plan only. -/
theorem plan_of_quotaExceeded
    (hquotas : ∀ quota ∈ env.customerQuotas, FREE_TOTAL_REQUESTS ≤ quota) {db db' : Db} {now : ℕ}
    (hbound : FreeBound db) {args : AuthorizeArgs} {reply : AuthorizeReply}
    (h : authorize env now args db = .ok (reply, db')) (hstatus : reply.status = .quotaExceeded) :
    ∃ p owner, reply.principal = some p ∧ db.users.get p.userId = some owner ∧
      (activePlan owner now).isSome := by
  obtain ⟨a, quota, quotas, hadmitted, hsite, hprincipal, hquota, hrefused⟩ :=
    authorize_quotaExceeded h hstatus
  refine ⟨_, a.owner, hprincipal, hadmitted.owner_mem, ?_⟩
  rw [← Option.ne_none_iff_isSome]
  intro hplan
  have hleft := freeUsed_lt_of_access hadmitted hsite hplan
  have hnone : a.plan = none := by
    rw [hadmitted.plan, hsite, hplan]
    rfl
  rw [hnone] at hquota
  obtain ⟨spec, hspec, hfull⟩ := consumeCustomerQuotas_refused hquota hrefused
  have hlimit := quotaSpecs_free hquotas hspec
  have hkey : spec.quotaKey now ∈
      quotaKeys env now a.key.id a.key.val.userId args.endpoint none := List.mem_map_of_mem hspec
  obtain ⟨s, hbucket, hs⟩ := quotaKeys_scope hkey
  have hunits := hbound.free s spec.period (quotaPeriod now spec.period).start
  have haccount : s.account db.apiKeys = some a.key.val.userId := by
    rcases hs with rfl | rfl | rfl
    · rw [QuotaScope.account, hadmitted.key_mem]
      rfl
    · rfl
    · rfl
  have hused : s.used db = freeUsed db a.key.val.userId := by
    rw [QuotaScope.used, haccount]
    rfl
  rw [Option.isSome_none] at hbucket
  rw [← hbucket] at hunits
  simp only [QuotaSpec.quotaKey] at hunits
  omega

theorem units_le_quotaUnits {t : Table QuotaWindow} {d : Doc QuotaWindow} (hd : d ∈ t.docs) :
    d.val.units ≤ quotaUnits t d.val.bucket d.val.period d.val.periodStart := by
  have hle := Table.le_sum_of_mem hd fun q =>
    if isQuota d.val.bucket d.val.period d.val.periodStart q then q.units else 0
  have hself : isQuota d.val.bucket d.val.period d.val.periodStart d.val = true := by
    simp [isQuota]
  rwa [hself, if_pos rfl] at hle

/-- A free account with allowance left is never told that its quota is exhausted. In every run
from a deployment without quota windows, with quotas that cover the allowance, a window that
counts free traffic stays within what its account has used, and `quota_exceeded` is answered to
accounts with an active plan only. -/
theorem free_quota_unreachable
    (hquotas : ∀ quota ∈ env.customerQuotas, FREE_TOTAL_REQUESTS ≤ quota) {db : Db}
    (hempty : db.quotaWindows.docs = []) (hwithin : ∀ userId, WithinAllowance userId db)
    (cs : List Call) :
    (∀ d ∈ (Runs.final (Call.run env) db cs).quotaWindows.docs, 0 < d.val.units →
      ∃ s : QuotaScope, d.val.bucket = s.bucket true ∨ d.val.bucket = s.bucket false ∧
        d.val.units ≤ s.used (Runs.final (Call.run env) db cs)) ∧
    ∀ x ∈ Runs.trace (Call.run env) db cs, ∀ reply, x.reply = .authorized reply →
      reply.status = .quotaExceeded → ∃ p owner, reply.principal = some p ∧
        x.before.users.get p.userId = some owner ∧ (activePlan owner x.event.now).isSome := by
  have hstart := freeBound_of_empty hempty hwithin
  have hkept : ∀ db c, FreeBound db → FreeBound (Runs.next (Call.run env) db c) :=
    fun _ c h => freeBound_run c h
  constructor
  · intro d hd hpos
    have hreached := Runs.final_induction (Call.run env) hstart hkept cs
    have hle := units_le_quotaUnits hd
    obtain ⟨paid, s, hbucket⟩ := hreached.named
      (d.val.bucket, d.val.period, d.val.periodStart) (by simp only; omega)
    refine ⟨s, ?_⟩
    cases paid with
    | true => exact Or.inl hbucket
    | false =>
      have hfree := hreached.free s d.val.period d.val.periodStart
      rw [← hbucket] at hfree
      exact Or.inr ⟨hbucket, hle.trans hfree⟩
  · intro x hx reply hreply hstatus
    have hbefore := Runs.trace_induction (Call.run env) hstart hkept hx
    obtain ⟨-, -, -, -, hrun⟩ := Runs.mem_trace (Call.run env) hx
    rw [hrun] at hreply
    obtain ⟨args, htxn⟩ := txn_of_authorized hreply
    obtain ⟨before, ⟨now, txn⟩, answer⟩ := x
    obtain rfl : txn = .authorize args := htxn
    simp only [run_authorize] at hreply
    rcases commit_cases before .authorized (authorize env now args before) with
      ⟨e, -, hc⟩ | ⟨reply', db', hok, hc⟩
    · rw [hc] at hreply
      cases hreply
    · rw [hc] at hreply
      cases hreply
      exact plan_of_quotaExceeded hquotas hbefore hok hstatus

theorem free_quota_unreachable_newcomer :
    ∃ d ∈ (Runs.final (Call.run testEnv) {} newcomer).quotaWindows.docs, 0 < d.val.units ∧
      ∃ s : QuotaScope, d.val.bucket = s.bucket true ∨ d.val.bucket = s.bucket false ∧
        d.val.units ≤ s.used (Runs.final (Call.run testEnv) {} newcomer) := by
  have hquotas : ∀ quota ∈ testEnv.customerQuotas, FREE_TOTAL_REQUESTS ≤ quota := by
    decide +kernel
  have hwithin : ∀ userId, WithinAllowance userId {} := by
    intro userId
    constructor
    · exact fun _ => rfl
    · exact Nat.zero_le _
  have hwindow : (⟨2, ⟨"free:tenant:0", .day, 0, 1⟩⟩ : Doc QuotaWindow) ∈
      (Runs.final (Call.run testEnv) {} newcomer).quotaWindows.docs := by
    decide +kernel
  exact ⟨_, hwindow, by decide,
    (free_quota_unreachable hquotas rfl hwithin newcomer).1 _ hwindow (by decide)⟩

end GeoPlatform.Convex
