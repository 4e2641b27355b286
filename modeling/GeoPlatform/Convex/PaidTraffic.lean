import GeoPlatform.Convex.Bystanders
import GeoPlatform.Convex.CountersAlike

/-! Paid traffic and the free allowance. Two runs that differ in requests made while a paid plan
was active leave the same free tier behind, as long as the minutes of those requests are kept
apart: the minute windows count paid and free requests together. -/
namespace GeoPlatform.Convex
open Docs

variable {env : ProcessEnv}

/-! ### Two deployments -/

/-- At `now` the deployments differ in nothing but the audit log, old rows, the demo's counters,
the minute windows of some minutes and the quota windows of the account's paid traffic. -/
structure Alike (userId now : ℕ) (minutes : List ℕ) (db db' : Db) : Prop where
  accounts : SameAccounts db db'
  windows : WindowsAlike now minutes db.rateLimitWindows db'.rateLimitWindows
  quotas : QuotasAlike db.apiKeys userId now db.quotaWindows db'.quotaWindows

theorem Alike.refl (userId now : ℕ) (minutes : List ℕ) (db : Db) :
    Alike userId now minutes db db :=
  ⟨SameAccounts.refl db, WindowsAlike.refl _ _ _, QuotasAlike.refl _ _ _ _⟩

theorem SameAccounts.apiKeys {db db' : Db} (h : SameAccounts db db') :
    db'.apiKeys = db.apiKeys := by
  obtain ⟨w, q, au, rfl⟩ := h
  rfl

theorem SameAccounts.users {db db' : Db} (h : SameAccounts db db') : db'.users = db.users := by
  obtain ⟨w, q, au, rfl⟩ := h
  rfl

variable {userId now : ℕ} {minutes : List ℕ} {db db' : Db}

theorem Alike.symm (h : Alike userId now minutes db db') : Alike userId now minutes db' db := by
  refine ⟨h.accounts.symm, h.windows.symm, ?_⟩
  rw [h.accounts.apiKeys]
  exact h.quotas.symm

theorem Alike.mono (h : Alike userId now minutes db db') {now' : ℕ} {minutes' : List ℕ}
    (hnow : now ≤ now') (hminutes : minutes ⊆ minutes') : Alike userId now' minutes' db db' :=
  ⟨h.accounts, h.windows.mono hnow hminutes, h.quotas.mono hnow fun _ hs => hs⟩

theorem admission_same (h : SameAccounts db db') (now : ℕ) (args : AuthorizeArgs) :
    admission db' now args = admission db now args := by
  obtain ⟨w, q, au, rfl⟩ := h
  rfl

/-! ### Requests that spare the free tier -/

/-- The request, should it be counted, is one of a site key or of the account's paid traffic. -/
def Spares (userId : ℕ) (db : Db) (c : Call) : Prop :=
  ∀ args a, c.txn = .authorize args → admission db c.now args = .ok a →
    a.isSiteKey = true ∨ a.key.val.userId = userId ∧ a.plan.isSome = true

theorem buckets_not_demo {args : AuthorizeArgs} {a : Admission} {bs : List (String × ℚ)}
    (h : buckets env args a = .ok bs) : ∀ g ∈ bs.map fun b => hit b.1 b.2,
      ¬ IsDemo g.bucket ∧ g.durationMs = MINUTE_MS := by
  have hnames : ∀ b ∈ bs, ¬ IsDemo b.1 := by
    unfold buckets at h
    by_cases hsite : a.isSiteKey = true
    · rw [if_pos hsite] at h
      obtain ⟨secret, -, h⟩ := except_bind_ok.mp h
      cases h
      intro b hb
      rcases List.mem_append.mp hb with hb | hb
      · simp only [List.mem_cons, List.not_mem_nil, or_false] at hb
        rcases hb with rfl | rfl <;> simp [IsDemo, ipBucket, keyBucket]
      · split_ifs at hb
        · rw [List.mem_singleton.mp hb]
          simp [IsDemo]
        · cases hb
    · rw [if_neg hsite] at h
      cases h
      intro b hb
      simp only [List.mem_cons, List.not_mem_nil, or_false] at hb
      rcases hb with rfl | rfl | rfl | rfl <;>
        simp [IsDemo, keyBucket, userBucket, endpointBucket, globalBucket]
  intro g hg
  obtain ⟨b, hb, rfl⟩ := List.mem_map.mp hg
  exact ⟨hnames b hb, rfl⟩

theorem Charged.hitAll_minute {args : AuthorizeArgs} {a : Admission}
    {windows w : Table RateLimitWindow} {allowed : Bool}
    (h : Charged env now args db a windows allowed)
    (halike : WindowsAlike now minutes db.rateLimitWindows w) :
    WindowsAlike now (windowStart now MINUTE_MS :: minutes) windows w := by
  obtain ⟨bs, states, hbs, hhits, -⟩ := h.hits
  exact halike.hitAll_minute hhits fun g hg => (buckets_not_demo hbs g hg).2

theorem countFree_paid (users : Table User) {a : Admission} (h : a.plan.isSome = true) :
    countFree users a = users := by
  rw [countFree, if_neg]
  intro hnone
  rw [hnone] at h
  cases h

/-- A request that spares the free tier, on one side. Its minute is left out from then on. -/
theorem Alike.spared (h : Alike userId now minutes db db') (env : ProcessEnv)
    {args : AuthorizeArgs} (hspares : Spares userId db ⟨now, .authorize args⟩) :
    Alike userId now (windowStart now MINUTE_MS :: minutes)
      (Call.run env db ⟨now, .authorize args⟩).2 db' := by
  have hmore := h.mono le_rfl (List.subset_cons_self (windowStart now MINUTE_MS) minutes)
  obtain ⟨w, q, au, rfl⟩ := h.accounts
  rw [run_authorize]
  apply @commit_induction _
    fun d => Alike userId now (windowStart now MINUTE_MS :: minutes) d _
  · exact hmore
  · intro reply d hok
    cases authorize_ok hok with
    | refused reply entry hstatus => exact ⟨⟨_, _, _, rfl⟩, hmore.windows, h.quotas⟩
    | rateLimited a windows reply entry hcharged hstatus =>
      exact ⟨⟨_, _, _, rfl⟩, hcharged.hitAll_minute h.windows, h.quotas⟩
    | quotaExceeded a windows reply entry hcharged hstatus =>
      exact ⟨⟨_, _, _, rfl⟩, hcharged.hitAll_minute h.windows, h.quotas⟩
    | site a windows reply entry hcharged hstatus hprincipal hsite =>
      exact ⟨⟨_, _, _, rfl⟩, hcharged.hitAll_minute h.windows, h.quotas⟩
    | customer a windows quota quotas reply entry hcharged hstatus hprincipal hsite hquota =>
      rcases hspares args a rfl hcharged.admitted with hsite' | ⟨rfl, hplan⟩
      · rw [hsite] at hsite'
        cases hsite'
      · rw [countFree_paid db.users hplan]
        refine ⟨⟨_, _, _, rfl⟩, hcharged.hitAll_minute h.windows, ?_⟩
        have hkey := (admission_ok hcharged.admitted).key_mem
        exact h.quotas.consume_paid (fun k hk => (quotaKeys_paid hkey hk).mpr ⟨rfl, hplan⟩) hquota

/-- Two results of one request: both throw, or both commit and leave the deployments alike, and
where `P` holds they answer alike. -/
def RepliesAlike (userId now : ℕ) (minutes : List ℕ) (P : Prop)
    (r r' : Except TxError (AuthorizeReply × Db)) : Prop :=
  (∃ e, r = .error e ∧ r' = .error e) ∨
    ∃ reply d reply' d', r = .ok (reply, d) ∧ r' = .ok (reply', d') ∧
      Alike userId now minutes d d' ∧ (P → reply = reply')

/-- A counted request on both sides, in a minute that is not left out. -/
theorem Alike.charge_both (h : Alike userId now minutes db db')
    (hminute : windowStart now MINUTE_MS ∉ minutes) (env : ProcessEnv) (args : AuthorizeArgs)
    {a : Admission} (hkey : db.apiKeys.get a.key.id = some a.key.val) :
    RepliesAlike userId now minutes
      (a.isSiteKey = true ∨ ¬ (a.key.val.userId = userId ∧ a.plan.isSome = true))
      (charge env now args db a) (charge env now args db' a) := by
  obtain ⟨w, q, au, rfl⟩ := h.accounts
  cases hbs : buckets env args a with
  | error e =>
    refine Or.inl ⟨e, ?_, ?_⟩
    · simp only [charge, hbs, bind, Except.bind]
    · simp only [charge, hbs, bind, Except.bind]
  | ok bs =>
    rcases h.windows.hitAll_both (buckets_not_demo hbs) with
      ⟨ht, hu⟩ | ⟨states, t', su, u', ht, hu, halike, hstates⟩
    · refine Or.inl ⟨.notUnique, ?_, ?_⟩
      · simp only [charge, hbs, ht, bind, Except.bind]
      · simp only [charge, hbs, hu, bind, Except.bind]
    · obtain rfl := hstates hminute
      simp only [charge, hbs, ht, hu, bind, Except.bind]
      cases (combine states).allowed with
      | false => exact Or.inr ⟨_, _, _, _, rfl, rfl, ⟨⟨_, _, _, rfl⟩, halike, h.quotas⟩,
        fun _ => rfl⟩
      | true =>
        cases hsite : a.isSiteKey with
        | true =>
          exact Or.inr ⟨_, _, _, _, rfl, rfl, ⟨⟨_, _, _, rfl⟩, halike, h.quotas⟩, fun _ => rfl⟩
        | false =>
          simp only [Bool.not_true, Bool.false_eq_true, if_false, false_or]
          rcases h.quotas.consume_both hkey env args.endpoint a.plan with
            ⟨hqt, hqu⟩ | ⟨qt, t₂, qu, u₂, hqt, hqu, hkept, hkept', hquotas, hanswer⟩
          · exact Or.inl ⟨.notUnique, by rw [hqt], by rw [hqu]⟩
          · simp only [hqt, hqu]
            by_cases hpaid : a.key.val.userId = userId ∧ a.plan.isSome = true
            · -- A quota may refuse paid traffic on one side only; no user is written on either.
              have husers := countFree_paid db.users hpaid.2
              cases hqt' : qt.allowed with
              | false =>
                rw [hkept hqt'] at hquotas
                cases hqu' : qu.allowed with
                | false => exact Or.inr ⟨_, _, _, _, rfl, rfl, ⟨⟨_, _, _, rfl⟩, halike, h.quotas⟩,
                    fun hnot => absurd hpaid hnot⟩
                | true =>
                  simp only [husers]
                  exact Or.inr ⟨_, _, _, _, rfl, rfl, ⟨⟨_, _, _, rfl⟩, halike, hquotas⟩,
                    fun hnot => absurd hpaid hnot⟩
              | true =>
                simp only [husers]
                cases hqu' : qu.allowed with
                | false =>
                  rw [hkept' hqu'] at hquotas
                  exact Or.inr ⟨_, _, _, _, rfl, rfl, ⟨⟨_, _, _, rfl⟩, halike, hquotas⟩,
                    fun hnot => absurd hpaid hnot⟩
                | true => exact Or.inr ⟨_, _, _, _, rfl, rfl, ⟨⟨_, _, _, rfl⟩, halike, hquotas⟩,
                    fun hnot => absurd hpaid hnot⟩
            · obtain rfl := hanswer hpaid
              cases hallowed : qt.allowed with
              | false =>
                refine Or.inr ⟨_, _, _, _, rfl, rfl, ⟨⟨_, _, _, rfl⟩, halike, h.quotas⟩,
                  fun _ => rfl⟩
              | true =>
                refine Or.inr ⟨_, _, _, _, rfl, rfl, ⟨⟨_, _, _, rfl⟩, halike, hquotas⟩,
                  fun _ => rfl⟩

/-- A request on both sides, in a minute that is not left out. -/
theorem Alike.authorize_both (h : Alike userId now minutes db db')
    (hminute : windowStart now MINUTE_MS ∉ minutes) (args : AuthorizeArgs) :
    Alike userId now minutes (Call.run env db ⟨now, .authorize args⟩).2
        (Call.run env db' ⟨now, .authorize args⟩).2 ∧
      ((∀ a, admission db now args = .ok a →
          a.isSiteKey = true ∨ ¬ (a.key.val.userId = userId ∧ a.plan.isSome = true)) →
        (Call.run env db ⟨now, .authorize args⟩).1 =
          (Call.run env db' ⟨now, .authorize args⟩).1) := by
  simp only [run_authorize, authorize, admission_same h.accounts]
  cases ha : admission db now args with
  | error stop =>
    cases stop with
    | throw e => exact ⟨h, fun _ => rfl⟩
    | refuse r =>
      obtain ⟨w, q, au, rfl⟩ := h.accounts
      exact ⟨⟨⟨_, _, _, rfl⟩, h.windows, h.quotas⟩, fun _ => rfl⟩
  | ok a =>
    rcases h.charge_both hminute env args (admission_ok ha).key_mem with
      ⟨e, hd, hd'⟩ | ⟨reply, d, reply', d', hd, hd', halike, hreply⟩
    · simp only [hd, hd']
      exact ⟨h, fun _ => rfl⟩
    · simp only [hd, hd']
      refine ⟨halike, fun hfree => ?_⟩
      rw [hreply (hfree a rfl)]
      rfl

/-! ### Other transactions -/

theorem demoHits_demo {ipHash : String} {args : DemoArgs} : ∀ g ∈ demoHits ipHash args,
    IsDemo g.bucket := by
  intro g hg
  simp only [demoHits, List.mem_cons, List.not_mem_nil, or_false] at hg
  rcases hg with rfl | rfl | rfl | rfl <;> simp [IsDemo, demoHourBucket]

/-- A demo call, on one side. -/
theorem Alike.demo (h : Alike userId now minutes db db') (args : DemoArgs) :
    Alike userId now minutes (Call.run env db ⟨now, .authorizeDemo args⟩).2 db' := by
  rw [run_authorizeDemo]
  apply @commit_induction _ fun d => Alike userId now minutes d db'
  · exact h
  · intro reply d hok
    obtain ⟨secret, states, windows, audit, -, hhits, -, rfl⟩ := authorizeDemo_ok hok
    obtain ⟨w, q, au, rfl⟩ := h.accounts
    exact ⟨⟨_, _, _, rfl⟩, h.windows.hitAll_demo hhits demoHits_demo, h.quotas⟩

theorem Alike.prune (h : Alike userId now minutes db db') :
    Alike userId now minutes (Call.run env db ⟨now, .prune⟩).2
      (Call.run env db' ⟨now, .prune⟩).2 := by
  obtain ⟨w, q, au, rfl⟩ := h.accounts
  exact ⟨⟨_, _, _, rfl⟩, h.windows.prune.symm.prune.symm, h.quotas.prune.symm.prune.symm⟩

theorem Alike.bystander (h : Alike userId now minutes db db') {c : Call}
    (hcounts : c.txn.counts = false) :
    Alike userId now minutes (c.run env db).2 (c.run env db').2 := by
  have hwrites : TableName.rateLimitWindows ∉ c.txn.writes ∧
      TableName.quotaWindows ∉ c.txn.writes := by
    obtain ⟨now, txn⟩ := c
    cases txn <;> simp [Txn.counts, Txn.writes] at hcounts ⊢
  have hframe := run_frame env db c
  have hframe' := run_frame env db' c
  refine ⟨(sameAccounts_run h.accounts hcounts).2, ?_, ?_⟩
  · rw [hframe.rateLimitWindows hwrites.1, hframe'.rateLimitWindows hwrites.1]
    exact h.windows
  · rw [hframe.quotaWindows hwrites.2, hframe'.quotaWindows hwrites.2]
    exact h.quotas.mono le_rfl fun s hs => account_run env c hs

end GeoPlatform.Convex
