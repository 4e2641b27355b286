import GeoPlatform.Convex.FreeQuota
import GeoPlatform.Convex.Queries
import GeoPlatform.Convex.ResetTimes

/-! The quota that the dashboard shows. Without a plan the gateway also bounds the tenant's windows
by the configured quotas, which the dashboard does not read. -/
namespace GeoPlatform.Convex
open Docs

variable {env : ProcessEnv}

/-- The configured quota of a tenant's windows. -/
def ProcessEnv.tenantQuotaUnits (env : ProcessEnv) : Period → ℕ
  | .day => env.tenantDailyQuotaUnits
  | .month => env.tenantMonthlyQuotaUnits

/-- The figures shown for a period. -/
def UsageSummary.quota (shown : UsageSummary) : Period → QuotaUse
  | .day => shown.daily
  | .month => shown.monthly

/-- The plan of an account. -/
def planOf (db : Db) (now userId : ℕ) : Option PaidPlan :=
  (db.users.get userId).bind fun u => activePlan u now

/-- What the tenant's window of a period has counted. -/
def tenantUnits (db : Db) (now userId : ℕ) (paid : Bool) (period : Period) : ℕ :=
  quotaUnits db.quotaWindows ((QuotaScope.tenant userId).bucket paid) period
    (quotaPeriod now period).start

/-- A window of the tenant is among those that refuse the call. -/
def RefusedByTenant (env : ProcessEnv) (now : ℕ) (args : AuthorizeArgs) (db : Db) (userId : ℕ)
    (period : Period) : Prop :=
  ∃ spec paid, .quota spec ∈ authorizeRefusers env now args db ∧
    spec.bucket = (QuotaScope.tenant userId).bucket paid ∧ spec.period = period

/-- A summary at `now` and a customer's call at `later` on the same state. The call passes the rate
limits, under the plan of the summary. -/
structure ShownThenCalled (env : ProcessEnv) (s : Snapshot) (now later : ℕ) (args : AuthorizeArgs)
    (shown : UsageSummary) (p : Principal) : Prop where
  summary : ∃ caller, requireUserId s.db now caller = .ok p.userId ∧
    Usage.summary s now caller = .ok shown
  authorized : ∃ reply db', authorize env later args s.db = .ok (reply, db') ∧
    reply.principal = some p ∧ (reply.status = .ok ∨ reply.status = .quotaExceeded)
  customer : p.isSiteKey = false
  plan : planOf s.db later p.userId = planOf s.db now p.userId

/-! ### What is shown -/

theorem uniqueDoc_units {t : Table QuotaWindow} {bucket : String} {period : Period} {start : ℕ}
    {row : Option QuotaWindow} (h : uniqueDoc t (isQuota bucket period start) = .ok row) :
    (row.map QuotaWindow.units).getD 0 = quotaUnits t bucket period start := by
  unfold uniqueDoc at h
  split at h
  · rename_i hnone
    cases h
    exact (Table.sum_of_unique_none hnone QuotaWindow.units).symm
  · rename_i d hone
    cases h
    exact (Table.sum_of_unique_one hone QuotaWindow.units).symm
  · cases h

/-- The limit is the plan's or the allowance; the daily figure counts the tenant's window, the
monthly one without a plan the requests of a lifetime. -/
theorem summary_quota {s : Snapshot} {now userId : ℕ} {caller : Caller} {shown : UsageSummary}
    (hcaller : requireUserId s.db now caller = .ok userId)
    (h : Usage.summary s now caller = .ok shown) (period : Period) :
    (shown.quota period).limit =
        ((planOf s.db now userId).map PaidPlan.monthlyRequests).getD FREE_TOTAL_REQUESTS ∧
      (shown.quota period).used =
        if period = .month ∧ planOf s.db now userId = none then freeUsed s.db userId
        else tenantUnits s.db now userId (planOf s.db now userId).isSome period := by
  unfold Usage.summary at h
  obtain ⟨_, hid, h⟩ := except_bind_ok.mp h
  obtain rfl := Except.ok.inj (hcaller.symm.trans hid)
  obtain ⟨day, hday, h⟩ := except_bind_ok.mp h
  obtain ⟨month, hmonth, h⟩ := except_bind_ok.mp h
  cases h
  have hdayUnits := uniqueDoc_units hday
  have hmonthUnits := uniqueDoc_units hmonth
  rw [tenantQuotaBucket_eq] at hdayUnits hmonthUnits
  cases period with
  | day =>
    refine ⟨rfl, ?_⟩
    simp only [reduceCtorEq, false_and, if_false]
    exact hdayUnits
  | month =>
    refine ⟨rfl, ?_⟩
    cases hplan : planOf s.db now userId with
    | none =>
      simp only [UsageSummary.quota, planOf] at hplan ⊢
      simp [hplan, freeUsed]
    | some plan =>
      simp only [UsageSummary.quota, planOf] at hplan ⊢
      rw [hplan] at hmonthUnits ⊢
      simp only [reduceCtorEq, and_false, if_false, Option.isSome_some, if_true]
      exact hmonthUnits

/-! ### What is enforced -/

/-- The spec of the tenant's window. -/
theorem tenant_spec_mem (env : ProcessEnv) (keyId userId : ℕ) (endpoint : Option String)
    (plan : Option PaidPlan) (period : Period) :
    (⟨(QuotaScope.tenant userId).bucket plan.isSome, period,
      (plan.map PaidPlan.monthlyRequests).getD
        (min FREE_TOTAL_REQUESTS (env.tenantQuotaUnits period))⟩ : QuotaSpec) ∈
      quotaSpecs env keyId userId endpoint plan := by
  rw [← tenantQuotaBucket_eq]
  cases period <;> cases plan <;> simp [quotaSpecs, ProcessEnv.tenantQuotaUnits]

/-- The other windows of a request have other buckets or another period. -/
theorem eq_tenant_spec {keyId userId : ℕ} {endpoint : Option String} {plan : Option PaidPlan}
    {spec : QuotaSpec} {paid : Bool} (h : spec ∈ quotaSpecs env keyId userId endpoint plan)
    (hbucket : spec.bucket = (QuotaScope.tenant userId).bucket paid) :
    spec = ⟨(QuotaScope.tenant userId).bucket plan.isSome, spec.period,
      (plan.map PaidPlan.monthlyRequests).getD
        (min FREE_TOTAL_REQUESTS (env.tenantQuotaUnits spec.period))⟩ := by
  have hspec := h
  simp only [quotaSpecs, List.mem_cons, List.not_mem_nil, or_false] at h
  rcases h with rfl | rfl | rfl | rfl | rfl
  · rw [keyQuotaBucket_eq] at hbucket
    cases (QuotaScope.bucket_injective hbucket).2
  · rw [keyQuotaBucket_eq] at hbucket
    cases (QuotaScope.bucket_injective hbucket).2
  · rw [tenantQuotaBucket_eq]
    cases plan <;> rfl
  · rw [tenantQuotaBucket_eq]
    cases plan <;> rfl
  · rw [endpointQuotaBucket_eq] at hbucket
    cases (QuotaScope.bucket_injective hbucket).2

variable {s : Snapshot} {now later : ℕ} {args : AuthorizeArgs} {shown : UsageSummary}
  {p : Principal}

/-- An account admitted as a customer's is under its own plan. -/
theorem plan_of_admitted {db : Db} {a : Admission} (h : Admitted db later args a)
    (hsite : a.isSiteKey = false) : a.plan = planOf db later a.key.val.userId := by
  rw [h.plan, hsite, if_neg Bool.false_ne_true, planOf, h.owner_mem]
  rfl

theorem quota_of_mem_refusers {db : Db} {a : Admission} (h : admission db later args = .ok a)
    {spec : QuotaSpec} (hspec : .quota spec ∈ authorizeRefusers env later args db) :
    spec ∈ a.quotas env args ∧ quotaFull db.quotaWindows later spec = true := by
  simp only [authorizeRefusers, h] at hspec
  split at hspec
  · simp at hspec
  · simpa using hspec

/-- A call let through left room in every window before it. -/
theorem not_full_of_ok {db db' : Db} {reply : AuthorizeReply}
    (h : authorize env later args db = .ok (reply, db')) (hstatus : reply.status = .ok)
    {a : Admission} (ha : admission db later args = .ok a) (hsite : a.isSiteKey = false)
    {spec : QuotaSpec} (hspec : spec ∈ a.quotas env args) :
    quotaFull db.quotaWindows later spec = false := by
  have hok : okCall env db ⟨later, .authorize args⟩ = some (args, a) := by
    simp only [okCall, h, ha, hstatus, if_true]
  rcases (okCall_outcome hok).2 with ⟨hsite', -⟩ | ⟨-, -, quota, hquota, hallowed⟩
  · rw [hsite] at hsite'
    cases hsite'
  · obtain ⟨hunits, hroom⟩ := consumeCustomerQuotas_ok hquota hallowed
    have hafter := hunits (spec.quotaKey later)
    have hkey : spec.quotaKey later ∈ quotaKeys env later a.key.id a.key.val.userId
        args.endpoint a.plan := List.mem_map_of_mem hspec
    rw [if_pos hkey] at hafter
    have hle := hroom spec hspec
    simp only [QuotaSpec.quotaKey] at hafter hle
    simp only [quotaFull, decide_eq_false_iff_not]
    omega

/-- The call was admitted as a customer's under the plan shown, and the quotas that refuse it are
the full ones among its own. -/
theorem ShownThenCalled.refusers (h : ShownThenCalled env s now later args shown p) :
    ∃ a, Admitted s.db later args a ∧ a.isSiteKey = false ∧ a.key.val.userId = p.userId ∧
      a.plan = planOf s.db now p.userId ∧
      ∀ spec, .quota spec ∈ authorizeRefusers env later args s.db ↔
        spec ∈ a.quotas env args ∧ quotaFull s.db.quotaWindows later spec = true := by
  obtain ⟨reply, db', hcall, hp, hstatus⟩ := h.authorized
  obtain ⟨a, ha, hprincipal, hfull⟩ : ∃ a, admission s.db later args = .ok a ∧
      reply.principal = some a.principal ∧ (a.isSiteKey = false →
        ∀ spec, spec ∈ a.quotas env args → quotaFull s.db.quotaWindows later spec = true →
          .quota spec ∈ authorizeRefusers env later args s.db) := by
    rcases hstatus with hok | hexceeded
    · obtain ⟨a, ha, hprincipal⟩ : ∃ a, admission s.db later args = .ok a ∧
          reply.principal = some a.principal := by
        cases authorize_ok hcall with
        | refused reply entry hrefused => exact absurd hok hrefused
        | rateLimited a windows reply entry hcharged hlimited =>
          rw [hlimited] at hok
          cases hok
        | quotaExceeded a windows reply entry hcharged hexceeded =>
          rw [hexceeded] at hok
          cases hok
        | site a windows reply entry hcharged _ hprincipal _ =>
          exact ⟨a, hcharged.admitted, hprincipal⟩
        | customer a windows quota quotas reply entry hcharged _ hprincipal =>
          exact ⟨a, hcharged.admitted, hprincipal⟩
      refine ⟨a, ha, hprincipal, fun hsite spec hspec hfull => ?_⟩
      rw [not_full_of_ok hcall hok ha hsite hspec] at hfull
      cases hfull
    · obtain ⟨a, bs, quota, hout⟩ := authorize_outOfQuota hcall hexceeded
      refine ⟨a, hout.admission, hout.principal, fun _ spec hspec hfull => ?_⟩
      rw [hout.refusers]
      exact List.mem_map_of_mem (List.mem_filter.mpr ⟨hspec, hfull⟩)
  obtain rfl := Option.some.inj (hprincipal.symm.trans hp)
  have hsite : a.isSiteKey = false := h.customer
  have hadmitted := admission_ok ha
  refine ⟨a, hadmitted, hsite, rfl, ?_, fun spec => ?_⟩
  · rw [plan_of_admitted hadmitted hsite]
    exact h.plan
  · constructor
    · exact quota_of_mem_refusers ha
    · rintro ⟨hspec, hroom⟩
      exact hfull hsite spec hspec hroom

/-- The tenant's window refuses the call exactly when it has no room for one more unit. -/
theorem ShownThenCalled.refused_iff (h : ShownThenCalled env s now later args shown p)
    (period : Period) : RefusedByTenant env later args s.db p.userId period ↔
      ((planOf s.db now p.userId).map PaidPlan.monthlyRequests).getD
          (min FREE_TOTAL_REQUESTS (env.tenantQuotaUnits period)) ≤
        tenantUnits s.db later p.userId (planOf s.db now p.userId).isSome period := by
  obtain ⟨a, -, -, huser, hplan, hrefusers⟩ := h.refusers
  unfold RefusedByTenant
  simp only [hrefusers, Admission.quotas, huser, hplan]
  constructor
  · rintro ⟨spec, paid, ⟨hspec, hfull⟩, hbucket, rfl⟩
    rw [eq_tenant_spec hspec hbucket] at hfull
    simp only [quotaFull, decide_eq_true_eq] at hfull
    exact Nat.lt_succ_iff.mp hfull
  · intro hfull
    refine ⟨_, _, ⟨tenant_spec_mem env a.key.id p.userId args.endpoint _ period, ?_⟩, rfl, rfl⟩
    simp only [quotaFull, decide_eq_true_eq]
    exact Nat.lt_succ_iff.mpr hfull

/-- A free account that is let to the quotas has used less than the allowance. -/
theorem ShownThenCalled.free (h : ShownThenCalled env s now later args shown p)
    (hplan : planOf s.db now p.userId = none) :
    freeUsed s.db p.userId < FREE_TOTAL_REQUESTS := by
  obtain ⟨a, hadmitted, hsite, huser, -⟩ := h.refusers
  rw [← huser]
  apply freeUsed_lt_of_access hadmitted hsite
  have howner := h.plan.trans hplan
  rwa [planOf, ← huser, hadmitted.owner_mem] at howner

/-- On every state in which the windows of free traffic stay within their accounts, the figures
shown agree with the tenant's window exactly with a plan, or below the configured quota. -/
theorem shown_iff_of_freeBound (hbound : FreeBound s.db)
    (h : ShownThenCalled env s now later args shown p) {period : Period}
    (hsame : (quotaPeriod later period).start = (quotaPeriod now period).start) :
    (RefusedByTenant env later args s.db p.userId period ↔
        (shown.quota period).limit ≤ (shown.quota period).used) ↔
      ((planOf s.db now p.userId).isSome ∨
        tenantUnits s.db now p.userId false period < env.tenantQuotaUnits period) := by
  obtain ⟨caller, hcaller, hsummary⟩ := h.summary
  obtain ⟨hlimit, hused⟩ := summary_quota hcaller hsummary period
  rw [h.refused_iff, hlimit, hused]
  have hunits : ∀ paid, tenantUnits s.db later p.userId paid period =
      tenantUnits s.db now p.userId paid period := by
    intro paid
    rw [tenantUnits, tenantUnits, hsame]
  rw [hunits]
  cases hplan : planOf s.db now p.userId with
  | some plan => simp
  | none =>
    have hleft := h.free hplan
    have hfree : tenantUnits s.db now p.userId false period ≤ freeUsed s.db p.userId :=
      hbound.free (.tenant p.userId) period _
    -- Neither figure reaches the allowance, so the summary never shows an exhausted quota.
    have hshown : (if period = .month ∧ True then freeUsed s.db p.userId
        else tenantUnits s.db now p.userId false period) < FREE_TOTAL_REQUESTS := by
      split <;> omega
    simp only [Option.map_none, Option.getD_none, Option.isSome_none, Bool.false_eq_true,
      false_or] at hshown ⊢
    omega

/-- The quota shown is the quota enforced exactly for an account with an active plan, and for a
free one as long as its window of the period has counted less than the configured quota. -/
theorem quota_shown_iff (xs : List (ProcessEnv × Call))
    (hreached : s.db = Runs.final (fun db (x : ProcessEnv × Call) => x.2.run x.1 db) {} xs)
    (h : ShownThenCalled env s now later args shown p) {period : Period}
    (hsame : (quotaPeriod later period).start = (quotaPeriod now period).start) :
    (RefusedByTenant env later args s.db p.userId period ↔
        (shown.quota period).limit ≤ (shown.quota period).used) ↔
      ((planOf s.db now p.userId).isSome ∨
        tenantUnits s.db now p.userId false period < env.tenantQuotaUnits period) := by
  have hwithin : ∀ userId, WithinAllowance userId {} := by
    intro userId
    constructor
    · exact fun _ => rfl
    · exact Nat.zero_le _
  have hbound : FreeBound s.db := by
    rw [hreached]
    apply Runs.final_induction _ (freeBound_of_empty rfl hwithin)
    exact fun _ x hdb => freeBound_run x.2 hdb
  exact shown_iff_of_freeBound hbound h hsame

/-- One request a day for each free tenant. -/
def oneADayEnv : ProcessEnv := { testEnv with TENANT_DAILY_QUOTA_UNITS := .finite 1 }

/-- The state after a newcomer's first request. -/
def afterFirst (env : ProcessEnv) : Snapshot where
  db := Runs.final (fun db (x : ProcessEnv × Call) => x.2.run x.1 db) {}
    (newcomer.map fun c => (env, c))

/-- What the newcomer is shown after it. -/
def oneUsed : UsageSummary where
  today := {}
  month := {}
  rateLimitPerMinute := 30
  activeKeys := 1
  totalKeys := 1
  daily := ⟨1, 500⟩
  monthly := ⟨1, 500⟩

/-- The newcomer's second request. -/
def newcomerPrincipal : Principal := ⟨0, 0, 0, 0, false, false⟩

theorem shownThenCalled_afterFirst {env : ProcessEnv} {status : AuthorizeStatus}
    (hstatus : status = .ok ∨ status = .quotaExceeded)
    (hsummary : Usage.summary (afterFirst env) 4 ⟨some 0, some 0⟩ = .ok oneUsed)
    (hcaller : requireUserId (afterFirst env).db 4 ⟨some 0, some 0⟩ = .ok 0)
    (hcall : ((authorize env 4 freeRequest (afterFirst env).db).toOption.map fun r =>
      (r.1.status, r.1.principal)) = some (status, some newcomerPrincipal)) :
    ShownThenCalled env (afterFirst env) 4 4 freeRequest oneUsed newcomerPrincipal := by
  refine ⟨⟨_, hcaller, hsummary⟩, ?_, rfl, rfl⟩
  cases hrun : authorize env 4 freeRequest (afterFirst env).db with
  | error e =>
    rw [hrun] at hcall
    cases hcall
  | ok r =>
    obtain ⟨reply, db'⟩ := r
    rw [hrun] at hcall
    simp only [Except.toOption, Option.map_some, Option.some.injEq, Prod.mk.injEq] at hcall
    refine ⟨reply, db', rfl, hcall.2, ?_⟩
    rwa [hcall.1]

/-- Under the default quotas the newcomer's second request agrees with the figures shown. -/
theorem quota_shown_newcomer :
    RefusedByTenant testEnv 4 freeRequest (afterFirst testEnv).db 0 .day ↔
      (oneUsed.quota .day).limit ≤ (oneUsed.quota .day).used := by
  have hcall : ShownThenCalled testEnv (afterFirst testEnv) 4 4 freeRequest oneUsed
      newcomerPrincipal :=
    shownThenCalled_afterFirst (.inl rfl) (by decide +kernel) (by decide +kernel)
      (by decide +kernel)
  exact (quota_shown_iff (newcomer.map fun c => (testEnv, c)) rfl hcall rfl).mpr
    (Or.inr (by decide +kernel))

/-- With one request a day the newcomer is shown 1 of 500 and refused by the day's window. -/
theorem quota_shown_not_enforced :
    ¬ ∀ (xs : List (ProcessEnv × Call)) (env : ProcessEnv) (s : Snapshot) (now later : ℕ)
      (args : AuthorizeArgs) (shown : UsageSummary) (p : Principal) (period : Period),
      s.db = Runs.final (fun db (x : ProcessEnv × Call) => x.2.run x.1 db) {} xs →
      ShownThenCalled env s now later args shown p →
      (quotaPeriod later period).start = (quotaPeriod now period).start →
      (RefusedByTenant env later args s.db p.userId period ↔
        (shown.quota period).limit ≤ (shown.quota period).used) := by
  intro h
  have hcall : ShownThenCalled oneADayEnv (afterFirst oneADayEnv) 4 4 freeRequest oneUsed
      newcomerPrincipal :=
    shownThenCalled_afterFirst (.inr rfl) (by decide +kernel) (by decide +kernel)
      (by decide +kernel)
  have hagree := h (newcomer.map fun c => (oneADayEnv, c)) oneADayEnv _ 4 4 freeRequest oneUsed
    newcomerPrincipal .day rfl hcall rfl
  have hrefused : RefusedByTenant oneADayEnv 4 freeRequest (afterFirst oneADayEnv).db 0 .day := by
    apply (hcall.refused_iff .day).mpr
    decide +kernel
  exact absurd (hagree.mp hrefused) (by decide)

end GeoPlatform.Convex
