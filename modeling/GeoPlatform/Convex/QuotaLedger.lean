import GeoPlatform.Convex.KeyTable
import GeoPlatform.Convex.OkCalls
import GeoPlatform.Convex.QuotaWindows

/-! Customer quota accounting over whole runs. Every request answered ok adds one unit to the
windows of its key, its tenant and its endpoint at once, so a tenant's month is the sum over its
keys and the sum over its endpoints. -/
namespace GeoPlatform.Convex
open Docs

/-! ### Sums over a list without repetitions -/

theorem sum_map_add_indicator {α : Type} [DecidableEq α] (f : α → ℕ) (p : Prop) [Decidable p]
    (x : α) {l : List α} (hl : l.Nodup) :
    (l.map fun y => f y + if p ∧ y = x then 1 else 0).sum =
      (l.map f).sum + if p ∧ x ∈ l then 1 else 0 := by
  induction l with
  | nil => simp
  | cons y l ih =>
    obtain ⟨hy, hl⟩ := List.nodup_cons.mp hl
    simp only [List.map_cons, List.sum_cons, ih hl, List.mem_cons]
    by_cases hp : p
    · by_cases hxy : y = x
      · subst hxy
        simp only [hp, hy, true_and, if_true, or_false, and_false, if_false]
        omega
      · simp only [hp, hxy, Ne.symm hxy, true_and, if_false, false_or]
        omega
    · simp only [hp, false_and, if_false]
      omega

/-! ### The months -/

/-- The units of a scope in a month, for paid or free traffic. -/
def monthUnits (db : Db) (paid : Bool) (start : ℕ) (s : QuotaScope) : ℕ :=
  quotaUnits db.quotaWindows (s.bucket paid) .month start

def accountedEndpoints : List String := ["geocode", "route", "unknown"]

theorem endpointName_mem (endpoint : Option String) :
    endpointName endpoint ∈ accountedEndpoints := by
  unfold endpointName accountedEndpoints
  split_ifs with h
  · obtain ⟨e, -, he⟩ := List.any_eq_true.mp h
    obtain rfl := of_decide_eq_true he
    cases e <;> simp [ApiEndpoint.name]
  · simp

/-- A tenant's month is the sum over its keys and the sum over its endpoints, and no unit was
ever counted for a key that does not exist yet. -/
structure Balanced (db : Db) : Prop where
  keys : ∀ userId paid start, monthUnits db paid start (.tenant userId) =
    ((keyIds db.apiKeys userId).map fun k => monthUnits db paid start (.key k)).sum
  endpoints : ∀ userId paid start, monthUnits db paid start (.tenant userId) =
    (accountedEndpoints.map fun e => monthUnits db paid start (.endpoint userId e)).sum
  fresh : ∀ keyId paid start, db.apiKeys.nextId ≤ keyId →
    monthUnits db paid start (.key keyId) = 0

theorem balanced_of_empty {db : Db} (h : db.quotaWindows.docs = []) : Balanced db := by
  have hzero : ∀ paid start s, monthUnits db paid start s = 0 := by
    intro paid start s
    unfold monthUnits quotaUnits
    refine Table.sum_eq_zero fun d hd => ?_
    rw [h] at hd
    cases hd
  refine ⟨?_, ?_, fun keyId paid start _ => hzero paid start _⟩
  · intro userId paid start
    simp only [hzero, List.map_const', List.sum_replicate, smul_zero]
  · intro userId paid start
    simp only [hzero, List.map_const', List.sum_replicate, smul_zero]

variable {env : ProcessEnv}

/-- The month that a request at `now` falls into. -/
def monthStart (now : ℕ) : ℕ := (quotaPeriod now .month).start

/-- The monthly windows of a request are those of its key, tenant and endpoint. -/
theorem mem_quotaKeys_month {now keyId userId start : ℕ} {endpoint : Option String}
    {plan : Option PaidPlan} {paid : Bool} {s : QuotaScope} :
    (s.bucket paid, Period.month, start) ∈ quotaKeys env now keyId userId endpoint plan ↔
      (paid = plan.isSome ∧ start = monthStart now) ∧
        (s = .key keyId ∨ s = .tenant userId ∨ s = .endpoint userId (endpointName endpoint)) := by
  have hname : ∀ s' : QuotaScope, s.bucket paid = s'.bucket plan.isSome ↔
      paid = plan.isSome ∧ s = s' := by
    intro s'
    exact ⟨QuotaScope.bucket_injective, fun h => by rw [h.1, h.2]⟩
  simp only [quotaKeys, quotaSpecs, QuotaSpec.quotaKey, List.map_cons, List.map_nil,
    List.mem_cons, List.not_mem_nil, or_false, Prod.mk.injEq, reduceCtorEq, false_and, and_false,
    false_or, true_and, keyQuotaBucket_eq, tenantQuotaBucket_eq, endpointQuotaBucket_eq, hname,
    monthStart]
  tauto

/-! ### One request -/

/-- A customer request answered ok adds one unit to each of its windows. -/
theorem quotaUnits_customer {db : Db} {c : Call} {args : AuthorizeArgs} {a : Admission}
    (h : okCall env db c = some (args, a)) (hsite : a.isSiteKey = false) (k : QuotaKey) :
    quotaUnits (c.run env db).2.quotaWindows k.1 k.2.1 k.2.2 =
      quotaUnits db.quotaWindows k.1 k.2.1 k.2.2 +
        if k ∈ quotaKeys env c.now a.key.id a.key.val.userId args.endpoint a.plan
          then 1 else 0 := by
  rcases (okCall_outcome h).2 with ⟨hsite', -⟩ | ⟨-, -, quota, hquota, hallowed⟩
  · rw [hsite] at hsite'
    cases hsite'
  · exact (consumeCustomerQuotas_ok hquota hallowed).1 k

theorem monthUnits_customer {db : Db} {c : Call} {args : AuthorizeArgs} {a : Admission}
    (h : okCall env db c = some (args, a)) (hsite : a.isSiteKey = false) (paid : Bool)
    (start : ℕ) (s : QuotaScope) :
    monthUnits (c.run env db).2 paid start s = monthUnits db paid start s +
      if (paid = a.plan.isSome ∧ start = monthStart c.now) ∧ (s = .key a.key.id ∨
        s = .tenant a.key.val.userId ∨ s = .endpoint a.key.val.userId (endpointName args.endpoint))
      then 1 else 0 := by
  have hunits := quotaUnits_customer h hsite (s.bucket paid, .month, start)
  simp only [mem_quotaKeys_month] at hunits
  exact hunits

theorem balanced_customer {db : Db} {c : Call} {args : AuthorizeArgs} {a : Admission}
    (hb : Balanced db) (h : okCall env db c = some (args, a)) (hsite : a.isSiteKey = false)
    (hkeys : (c.run env db).2.apiKeys = db.apiKeys) : Balanced (c.run env db).2 := by
  have hkey := (okCall_admitted h).key_mem
  refine ⟨?_, ?_, ?_⟩
  · intro userId paid start
    simp only [monthUnits_customer h hsite, hkeys, reduceCtorEq, false_or, or_false,
      QuotaScope.key.injEq, QuotaScope.tenant.injEq]
    rw [sum_map_add_indicator _ _ _ (keyIds_nodup _ _), ← hb.keys userId paid start]
    have howner : a.key.id ∈ keyIds db.apiKeys userId ↔ userId = a.key.val.userId := by
      rw [mem_keyIds]
      constructor
      · rintro ⟨k, hk, rfl⟩
        rw [hkey] at hk
        rw [Option.some.inj hk]
      · rintro rfl
        exact ⟨a.key.val, hkey, rfl⟩
    simp only [howner]
  · intro userId paid start
    simp only [monthUnits_customer h hsite, reduceCtorEq, false_or, or_false,
      QuotaScope.tenant.injEq, QuotaScope.endpoint.injEq, ← and_assoc]
    have hnodup : accountedEndpoints.Nodup := by decide
    rw [sum_map_add_indicator _ _ _ hnodup, ← hb.endpoints userId paid start]
    simp only [endpointName_mem, and_true]
  · intro keyId paid start hk
    rw [hkeys] at hk
    have hlt : a.key.id < db.apiKeys.nextId :=
      db.apiKeys.bounded _ (Table.get_eq_some.mp hkey)
    have hne : keyId ≠ a.key.id := by omega
    rw [monthUnits_customer h hsite, hb.fresh keyId paid start hk]
    simp [hne]

theorem Balanced.of_eq {db db' : Db} (hb : Balanced db) (hq : db'.quotaWindows = db.quotaWindows)
    (hk : db'.apiKeys = db.apiKeys) : Balanced db' := by
  have hunits : ∀ paid start s, monthUnits db' paid start s = monthUnits db paid start s := by
    intro paid start s
    rw [monthUnits, monthUnits, hq]
  refine ⟨?_, ?_, ?_⟩
  · simpa only [hunits, hk] using hb.keys
  · simpa only [hunits] using hb.endpoints
  · simpa only [hunits, hk] using hb.fresh

/-- Creating a key leaves every account balanced, since the new key has counted nothing. -/
theorem balanced_newKey {db db' : Db} (hb : Balanced db) (hq : db'.quotaWindows = db.quotaWindows)
    (hk : (∀ userId, keyIds db'.apiKeys userId = keyIds db.apiKeys userId) ∧
        db'.apiKeys.nextId = db.apiKeys.nextId ∨
      ∃ owner, (∀ userId, keyIds db'.apiKeys userId =
          keyIds db.apiKeys userId ++ if owner = userId then [db.apiKeys.nextId] else []) ∧
        db'.apiKeys.nextId = db.apiKeys.nextId + 1) : Balanced db' := by
  have hunits : ∀ paid start s, monthUnits db' paid start s = monthUnits db paid start s := by
    intro paid start s
    rw [monthUnits, monthUnits, hq]
  rcases hk with ⟨hids, hnext⟩ | ⟨owner, hids, hnext⟩
  · refine ⟨?_, ?_, ?_⟩
    · simpa only [hunits, hids] using hb.keys
    · simpa only [hunits] using hb.endpoints
    · simpa only [hunits, hnext] using hb.fresh
  · refine ⟨?_, ?_, ?_⟩
    · intro userId paid start
      have hnew := hb.fresh db.apiKeys.nextId paid start le_rfl
      simp only [hunits, hids, List.map_append, List.sum_append]
      rw [← hb.keys userId paid start]
      split_ifs <;> simp [hnew]
    · simpa only [hunits] using hb.endpoints
    · intro keyId paid start hle
      rw [hunits]
      exact hb.fresh keyId paid start (by omega)

/-- Every transaction but the cleanup job keeps the accounts balanced. -/
theorem balanced_run {db : Db} {c : Call} (hb : Balanced db) (hprune : c.txn ≠ .prune) :
    Balanced (c.run env db).2 := by
  by_cases hw : TableName.quotaWindows ∈ c.txn.writes
  · obtain ⟨args, htxn⟩ : ∃ args, c.txn = .authorize args := by
      cases htxn : c.txn <;> simp [htxn, Txn.writes] at hw hprune ⊢
    have hkeys : (c.run env db).2.apiKeys = db.apiKeys := by
      refine (run_frame env db c).apiKeys ?_
      simp [htxn, Txn.writes]
    rcases hok : okCall env db c with _ | ⟨args', a⟩
    · exact hb.of_eq (authorize_not_ok htxn hok).1 hkeys
    · cases hsite : a.isSiteKey with
      | false => exact balanced_customer hb hok hsite hkeys
      | true =>
        rcases (okCall_outcome hok).2 with ⟨-, hquota, -⟩ | ⟨hsite', -⟩
        · exact hb.of_eq hquota hkeys
        · rw [hsite] at hsite'
          cases hsite'
  · exact balanced_newKey hb ((run_frame env db c).quotaWindows hw) (keyIds_run env db c)

/-! ### The free allowance and the paid month -/

/-- The free requests an account has used. -/
def freeUsed (db : Db) (userId : ℕ) : ℕ := ((db.users.get userId).bind User.freeRequestsUsed).getD 0

theorem freeUsed_countFree {db db' : Db} {a : Admission}
    (howner : db.users.get a.key.val.userId = some a.owner)
    (husers : db'.users = countFree db.users a) (userId : ℕ) :
    freeUsed db' userId =
      freeUsed db userId + if userId = a.key.val.userId ∧ a.plan = none then 1 else 0 := by
  unfold freeUsed
  rw [husers, countFree]
  by_cases hplan : a.plan = none
  · rw [if_pos hplan]
    by_cases hu : userId = a.key.val.userId
    · subst hu
      rw [Table.get_patch_self, howner, if_pos ⟨rfl, hplan⟩]
      rfl
    · rw [Table.get_patch_of_ne _ hu, if_neg (fun h => hu h.1)]
      rfl
  · rw [if_neg hplan, if_neg (fun h => hplan h.2)]
    rfl

theorem customer_plan {db : Db} {c : Call} {args : AuthorizeArgs} {a : Admission}
    (h : okCall env db c = some (args, a)) (hsite : a.isSiteKey = false) :
    a.plan = activePlan a.owner c.now := by
  have hplan := (okCall_admitted h).plan
  rwa [hsite, if_neg Bool.false_ne_true] at hplan

/-- What one `authorize` call does to the quotas. Unless it is answered ok, nothing; a customer
call answered ok adds one unit to each of five distinct windows and to nothing else, counts one
free request exactly without an active plan, and leaves a paid tenant within the plan's month. -/
structure QuotaAccounting (env : ProcessEnv) (db : Db) (c : Call) (args : AuthorizeArgs) :
    Prop where
  not_ok : (∀ reply, (c.run env db).1 = .authorized reply → reply.status ≠ .ok) →
    (c.run env db).2.quotaWindows = db.quotaWindows ∧
      ∀ userId, freeUsed (c.run env db).2 userId = freeUsed db userId
  windows : ∀ a, okCall env db c = some (args, a) → a.isSiteKey = false →
    let keys := quotaKeys env c.now a.key.id a.key.val.userId args.endpoint
      (activePlan a.owner c.now)
    keys.length = 5 ∧ keys.Nodup ∧ ∀ k : QuotaKey,
      quotaUnits (c.run env db).2.quotaWindows k.1 k.2.1 k.2.2 =
        quotaUnits db.quotaWindows k.1 k.2.1 k.2.2 + if k ∈ keys then 1 else 0
  free : ∀ a, okCall env db c = some (args, a) → a.isSiteKey = false → ∀ userId,
    freeUsed (c.run env db).2 userId = freeUsed db userId +
      if userId = a.key.val.userId ∧ activePlan a.owner c.now = none then 1 else 0
  paid : ∀ a, okCall env db c = some (args, a) → a.isSiteKey = false →
    ∀ plan, activePlan a.owner c.now = some plan →
      monthUnits (c.run env db).2 true (monthStart c.now) (.tenant a.key.val.userId) ≤
        plan.monthlyRequests

theorem authorize_accounting {db : Db} {c : Call} {args : AuthorizeArgs}
    (htxn : c.txn = .authorize args) : QuotaAccounting env db c args := by
  refine ⟨?_, ?_, ?_, ?_⟩
  · intro hnot
    have hnone : okCall env db c = none := by
      rw [← Option.not_isSome_iff_eq_none, okCall_isSome_iff]
      rintro ⟨reply, hreply, hstatus⟩
      exact hnot reply hreply hstatus
    obtain ⟨hquota, husers⟩ := authorize_not_ok htxn hnone
    refine ⟨hquota, fun userId => ?_⟩
    rw [freeUsed, husers]
    rfl
  · intro a h hsite
    rw [← customer_plan h hsite]
    exact ⟨by simp [quotaKeys, quotaSpecs], quotaKeys_nodup, quotaUnits_customer h hsite⟩
  · intro a h hsite userId
    rw [← customer_plan h hsite]
    rcases (okCall_outcome h).2 with ⟨hsite', -⟩ | ⟨-, husers, -⟩
    · rw [hsite] at hsite'
      cases hsite'
    · exact freeUsed_countFree (okCall_admitted h).owner_mem husers userId
  · intro a h hsite plan hplan
    rw [← customer_plan h hsite] at hplan
    rcases (okCall_outcome h).2 with ⟨hsite', -⟩ | ⟨-, -, quota, hquota, hallowed⟩
    · rw [hsite] at hsite'
      cases hsite'
    · have hspecs := (consumeCustomerQuotas_ok hquota hallowed).2
      have htenant : (⟨tenantQuotaBucket a.plan a.key.val.userId, .month, plan.monthlyRequests⟩ :
          QuotaSpec) ∈ quotaSpecs env a.key.id a.key.val.userId args.endpoint a.plan := by
        simp [quotaSpecs, hplan]
      have hroom := hspecs _ htenant
      rw [tenantQuotaBucket_eq, hplan] at hroom
      exact hroom

/-- Quota accounting is atomic and conserved. In every run without cleanups that starts with no
quota window, each `authorize` call accounts as it should, and every state reached is balanced. -/
theorem quota_ledger {db : Db} {cs : List Call} (hstart : db.quotaWindows.docs = [])
    (hprune : ∀ c ∈ cs, c.txn ≠ .prune) :
    (∀ x ∈ Runs.trace (Call.run env) db cs, ∀ args, x.event.txn = .authorize args →
      QuotaAccounting env x.before x.event args) ∧
    ∀ pre, pre <+: cs → Balanced (Runs.final (Call.run env) db pre) := by
  refine ⟨fun x _ args htxn => authorize_accounting htxn, ?_⟩
  rintro pre ⟨post, rfl⟩
  have hguarded : Runs.Guarded (Call.run env) (fun _ c => c.txn ≠ .prune) db pre := by
    rw [Runs.guarded_iff_trace]
    intro x hx
    exact hprune _ (List.mem_append_left _ (Runs.event_mem_of_mem_trace _ hx))
  exact hguarded.final_induction _ (balanced_of_empty hstart)
    fun _ _ hkept hb => balanced_run hb hkept

theorem quota_ledger_two_requests :
    Balanced (Runs.final (Call.run testEnv) freeAccount
      [⟨0, .authorize freeRequest⟩, ⟨1000, .authorize freeRequest⟩]) := by
  refine (quota_ledger ?_ ?_).2 _ (List.prefix_refl _)
  · rfl
  · simp

end GeoPlatform.Convex
