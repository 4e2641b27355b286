import GeoPlatform.Convex.Calendar
import GeoPlatform.Convex.Combine
import GeoPlatform.Convex.Lookups

/-! The reset time of a refusal. Every window that refuses a call has nothing left, so `combine`
reports the first of them in the order of the call, whichever of them ends last. -/
namespace GeoPlatform.Convex
open Docs

variable {env : ProcessEnv}

/-! ### The windows that refuse a call -/

/-- A window that refuses a call. -/
inductive Refuser where
  | counter (h : Hit)
  | quota (spec : QuotaSpec)

/-- The window that was current at `now` is still so at `t`. -/
def Refuser.currentAt (now t : ℕ) : Refuser → Prop
  | .counter h => windowStart t h.durationMs = windowStart now h.durationMs
  | .quota spec => (quotaPeriod t spec.period).start = (quotaPeriod now spec.period).start

/-- When the window is over. -/
def Refuser.ends (now : ℕ) : Refuser → ℕ
  | .counter h => windowStart now h.durationMs + h.durationMs
  | .quota spec => (quotaPeriod now spec.period).reset

/-- The quota has no room for one more unit. -/
def quotaFull (t : Table QuotaWindow) (now : ℕ) (spec : QuotaSpec) : Bool :=
  spec.limit < quotaUnits t spec.bucket spec.period (quotaPeriod now spec.period).start + 1

/-- The full counters of an admitted call. -/
def fullCounters (env : ProcessEnv) (now : ℕ) (args : AuthorizeArgs) (db : Db) (a : Admission) :
    List Hit :=
  match buckets env args a with
  | .error _ => []
  | .ok bs => (bs.map fun b => hit b.1 b.2).filter (counterFull db.rateLimitWindows now)

/-- The quotas of a customer's call. -/
def Admission.quotas (env : ProcessEnv) (args : AuthorizeArgs) (a : Admission) : List QuotaSpec :=
  quotaSpecs env a.key.id a.key.val.userId args.endpoint a.plan

/-- The windows that refuse a call of `authorize`: its full counters or, when no counter is full,
the full quotas of a customer. -/
def authorizeRefusers (env : ProcessEnv) (now : ℕ) (args : AuthorizeArgs) (db : Db) :
    List Refuser :=
  match admission db now args with
  | .error _ => []
  | .ok a =>
      let full := fullCounters env now args db a
      if full ≠ [] ∨ a.isSiteKey = true then full.map .counter
      else ((a.quotas env args).filter (quotaFull db.quotaWindows now)).map .quota

/-- The windows that refuse a call of `authorizeDemo`. -/
def demoRefusers (now : ℕ) (ipHash : String) (args : DemoArgs) (db : Db) : List Refuser :=
  ((demoHits ipHash args).filter (counterFull db.rateLimitWindows now)).map .counter

/-- A hit of whole seconds. -/
def Hit.Whole (h : Hit) : Prop := 0 < h.durationMs ∧ 1000 ∣ h.durationMs

def Refuser.Whole : Refuser → Prop
  | .counter h => h.Whole
  | .quota _ => True

theorem windowStart_current_iff {now t d : ℕ} (hd : 0 < d) (h : now ≤ t) :
    windowStart t d = windowStart now d ↔ t < windowStart now d + d := by
  have hlater : now / d ≤ t / d := Nat.div_le_div_right h
  unfold windowStart
  rw [Nat.mul_left_inj hd.ne', ← Nat.succ_mul, ← Nat.div_lt_iff_lt_mul hd, Nat.lt_succ_iff]
  exact ⟨le_of_eq, fun hle => le_antisymm hle hlater⟩

theorem Refuser.currentAt_iff {w : Refuser} (hw : w.Whole) {now t : ℕ} (h : now ≤ t) :
    w.currentAt now t ↔ t < w.ends now := by
  cases w with
  | counter h' => exact windowStart_current_iff hw.1 h
  | quota spec => exact quotaPeriod_current_iff h spec.period

theorem Refuser.now_lt_ends {w : Refuser} (hw : w.Whole) (now : ℕ) : now < w.ends now :=
  (w.currentAt_iff hw le_rfl).mp (by cases w <;> rfl)

/-- Windows end on a whole second. -/
theorem Refuser.ends_seconds {w : Refuser} (hw : w.Whole) (now : ℕ) :
    w.ends now / 1000 * 1000 = w.ends now := by
  apply Nat.div_mul_cancel
  cases w with
  | counter h => exact Nat.dvd_add (hw.2.mul_left _) hw.2
  | quota spec =>
    have hday : 1000 ∣ DAY_MS := by decide
    show 1000 ∣ (quotaPeriod now spec.period).reset
    cases spec.period with
    | day =>
      rw [(quotaPeriod_day now).2]
      exact Nat.dvd_add (hday.mul_left _) hday
    | month =>
      have hmonth := (quotaPeriod_month now).2
      apply (Nat.dvd_add_left (hday.mul_left 365)).mp
      rw [hmonth]
      exact hday.mul_left _

/-- Where the first refuser's end is reported, no refuser is current then exactly when none ends
after the first. -/
theorem resets_iff {now : ℕ} (first : Refuser) {ws : List Refuser} (hfirst : first.Whole)
    (hws : ∀ w ∈ ws, w.Whole) :
    (∀ w ∈ ws, ¬ w.currentAt now (first.ends now / 1000 * 1000)) ↔
      ¬ ∃ w ∈ ws, first.ends now < w.ends now := by
  rw [first.ends_seconds hfirst]
  push Not
  refine forall₂_congr fun w hw => ?_
  rw [w.currentAt_iff (hws w hw) (first.now_lt_ends hfirst now).le, not_lt]

/-! ### Which window is reported -/

/-- A call refused by its counters reports the end of the first full one. -/
theorem counters_refused {t t' : Table RateLimitWindow} {now : ℕ} {hs : List Hit}
    {states : List RateLimitState} (hnodup : (hs.map Hit.bucket).Nodup)
    (h : hitAll t now hs = .ok (states, t')) (hall : states.all RateLimitState.allowed = false) :
    ∃ first, (hs.filter (counterFull t now)).head? = some first ∧
      (combine states).reset = (Refuser.counter first).ends now / 1000 := by
  have hstates := hitAll_states hnodup h
  have hfirst := combine_refused states (fun s hs' hs => by
    rw [hstates] at hs'
    obtain ⟨h', -, rfl⟩ := List.mem_map.mp hs'
    exact rateLimitState_refused hs) hall
  rw [hstates, List.find?_map, Option.map_eq_some_iff] at hfirst
  obtain ⟨first, hfind, hcombined⟩ := hfirst
  refine ⟨first, ?_, ?_⟩
  · rw [List.head?_filter, ← hfind]
    congr 1
    funext h'
    exact (counterState_allowed t now h').symm
  · rw [hstates, ← hcombined]
    rfl

/-- The state that the first pass makes of a spec. -/
def quotaState (t : Table QuotaWindow) (now : ℕ) (spec : QuotaSpec) : RateLimitState :=
  let next := quotaUnits t spec.bucket spec.period (quotaPeriod now spec.period).start + 1
  { limit := spec.limit
    remaining := if next ≤ spec.limit then max 0 ((spec.limit : ℚ) - next) else 0
    reset := (quotaPeriod now spec.period).reset / 1000
    allowed := next ≤ spec.limit }

theorem checkQuota_state {t : Table QuotaWindow} {now : ℕ} {spec : QuotaSpec} {c : QuotaCheck}
    (h : checkQuota t now spec = .ok c) : c.state = quotaState t now spec := by
  have hchecked := checkQuota_ok h
  have hreset : c.reset = (quotaPeriod now spec.period).reset := by
    unfold checkQuota at h
    simp only at h
    split at h <;> cases h <;> rfl
  have hallowed : c.allowed = decide (quotaUnits t spec.bucket spec.period
      (quotaPeriod now spec.period).start + 1 ≤ spec.limit) := by
    rw [Bool.eq_iff_iff, decide_eq_true_eq, hchecked.allowed_iff, hchecked.next_eq,
      hchecked.start_eq]
  simp only [QuotaCheck.state, quotaState, hchecked.spec_eq, hreset, hallowed, decide_eq_true_eq,
    hchecked.next_eq, hchecked.start_eq]

theorem checkQuotas_states {t : Table QuotaWindow} {now : ℕ} {specs : List QuotaSpec}
    {cs : List QuotaCheck} (h : checkQuotas t now specs = .ok cs) :
    cs.map QuotaCheck.state = specs.map (quotaState t now) := by
  induction specs generalizing cs with
  | nil =>
    cases h
    rfl
  | cons spec specs ih =>
    obtain ⟨c, hc, h⟩ := except_bind_ok.mp h
    obtain ⟨cs, hcs, h⟩ := except_bind_ok.mp h
    cases h
    rw [List.map_cons, List.map_cons, checkQuota_state hc, ih hcs]

theorem quotaState_allowed (t : Table QuotaWindow) (now : ℕ) (spec : QuotaSpec) :
    (!(quotaState t now spec).allowed) = quotaFull t now spec := by
  simp only [quotaState, quotaFull, ← decide_not, not_le]

/-- A call refused by its quotas reports the end of the first full one. -/
theorem quotas_refused {t t' : Table QuotaWindow} {now keyId userId : ℕ}
    {endpoint : Option String} {plan : Option PaidPlan} {state : RateLimitState}
    (h : consumeCustomerQuotas env t now keyId userId endpoint plan = .ok (state, t'))
    (hrefused : state.allowed = false) :
    ∃ first, ((quotaSpecs env keyId userId endpoint plan).filter (quotaFull t now)).head? =
        some first ∧ state.reset = (Refuser.quota first).ends now / 1000 := by
  obtain ⟨checked, hchecked, h⟩ := except_bind_ok.mp h
  have hstates := checkQuotas_states hchecked
  obtain rfl : state = combine (checked.map QuotaCheck.state) := by
    simp only at h
    split_ifs at h <;> cases h <;> rfl
  rw [combine_allowed] at hrefused
  have hfirst := combine_refused (checked.map QuotaCheck.state) (fun s hs hnot => by
    rw [hstates] at hs
    obtain ⟨spec, -, rfl⟩ := List.mem_map.mp hs
    simp only [quotaState, decide_eq_false_iff_not] at hnot ⊢
    exact if_neg hnot) hrefused
  rw [hstates, List.find?_map, Option.map_eq_some_iff] at hfirst
  obtain ⟨first, hfind, hcombined⟩ := hfirst
  refine ⟨first, ?_, ?_⟩
  · rw [List.head?_filter, ← hfind]
    congr 1
    funext spec
    exact (quotaState_allowed t now spec).symm
  · rw [hstates, ← hcombined]
    rfl

/-! ### When the reported reset is too early -/

/-- The first full quota is a day's, a month's is full too, and the day is not the last of the
month. -/
def DayBeforeMonth (t : Table QuotaWindow) (now : ℕ) (specs : List QuotaSpec) : Prop :=
  (∃ spec, (specs.filter (quotaFull t now)).head? = some spec ∧ spec.period = .day) ∧
    (∃ spec ∈ specs, quotaFull t now spec = true ∧ spec.period = .month) ∧
    (quotaPeriod now .day).reset < (quotaPeriod now .month).reset

/-- The minute and the hour of the visitor are full, and the minute is not the last of the hour. -/
def MinuteBeforeHour (t : Table RateLimitWindow) (now : ℕ) (ipHash : String) (args : DemoArgs) :
    Prop :=
  counterFull t now ⟨"demo:ip:" ++ ipHash ++ ":minute", clampLimit args.minuteLimit 20, MINUTE_MS,
      demoCost args.cost⟩ = true ∧
    counterFull t now ⟨demoHourBucket ipHash, clampLimit args.hourLimit 100, 60 * MINUTE_MS,
      demoCost args.cost⟩ = true ∧
    windowStart now MINUTE_MS + MINUTE_MS < windowStart now (60 * MINUTE_MS) + 60 * MINUTE_MS

theorem minute_end_le_hour (now : ℕ) :
    windowStart now MINUTE_MS + MINUTE_MS ≤
      windowStart now (60 * MINUTE_MS) + 60 * MINUTE_MS := by
  have hnow := lt_windowStart_add now (show 0 < 60 * MINUTE_MS by decide)
  have hend : windowStart now (60 * MINUTE_MS) + 60 * MINUTE_MS =
      (now / (60 * MINUTE_MS) * 60 + 60) * MINUTE_MS := by
    unfold windowStart
    ring
  have hstart : windowStart now MINUTE_MS + MINUTE_MS = (now / MINUTE_MS + 1) * MINUTE_MS := by
    unfold windowStart
    ring
  rw [hend] at hnow
  rw [hstart, hend]
  exact Nat.mul_le_mul_right _ ((Nat.div_lt_iff_lt_mul (by decide)).mpr hnow)

/-- The full counters of a demo call end after the first of them exactly when that is the minute's
and the hour is full. -/
theorem demo_early_iff {t : Table RateLimitWindow} {now : ℕ} {ipHash : String} {args : DemoArgs}
    {first : Hit} (h : ((demoHits ipHash args).filter (counterFull t now)).head? = some first) :
    (∃ w ∈ ((demoHits ipHash args).filter (counterFull t now)).map Refuser.counter,
      (Refuser.counter first).ends now < w.ends now) ↔ MinuteBeforeHour t now ipHash args := by
  have hle := minute_end_le_hour now
  simp only [List.mem_map, exists_exists_and_eq_and, Refuser.ends]
  unfold MinuteBeforeHour
  simp only [demoHits, List.filter_cons, List.filter_nil] at h ⊢
  split_ifs at h ⊢ with hminute hhour hendpoint hglobal <;>
    simp_all only [List.head?_cons, List.head?_nil, Option.some.injEq, List.mem_cons,
      List.not_mem_nil, or_false, exists_eq_or_imp, exists_eq_left, reduceCtorEq] <;>
    subst h <;> simp_all

/-- The full quotas end after the first of them exactly when that is a day's and a month is full
too. -/
theorem quota_early_iff {t : Table QuotaWindow} {now : ℕ} {specs : List QuotaSpec}
    {first : QuotaSpec} (h : (specs.filter (quotaFull t now)).head? = some first) :
    (∃ w ∈ (specs.filter (quotaFull t now)).map Refuser.quota,
      (Refuser.quota first).ends now < w.ends now) ↔ DayBeforeMonth t now specs := by
  have hle := day_reset_le_month now
  constructor
  · rintro ⟨w, hw, hlt⟩
    obtain ⟨spec, hspec, rfl⟩ := List.mem_map.mp hw
    obtain ⟨hmem, hfull⟩ := List.mem_filter.mp hspec
    simp only [Refuser.ends] at hlt
    cases hfirst : first.period with
    | day =>
      cases hsecond : spec.period with
      | day =>
        rw [hfirst, hsecond] at hlt
        exact absurd hlt (lt_irrefl _)
      | month =>
        rw [hfirst, hsecond] at hlt
        exact ⟨⟨first, h, hfirst⟩, ⟨spec, hmem, hfull, hsecond⟩, hlt⟩
    | month =>
      cases hsecond : spec.period with
      | day =>
        rw [hfirst, hsecond] at hlt
        omega
      | month =>
        rw [hfirst, hsecond] at hlt
        exact absurd hlt (lt_irrefl _)
  · rintro ⟨⟨day, hday, hfirst⟩, ⟨spec, hmem, hfull, hmonth⟩, hlt⟩
    rw [h, Option.some.injEq] at hday
    subst hday
    refine ⟨.quota spec, List.mem_map_of_mem (List.mem_filter.mpr ⟨hmem, hfull⟩), ?_⟩
    simp only [Refuser.ends, hfirst, hmonth]
    exact hlt

/-! ### Refused calls -/

/-- The answer is one of the three refusals that carry a reset time. -/
def Answer.limited : Answer → Bool
  | .authorized reply => reply.status = .rateLimited || reply.status = .quotaExceeded
  | .demo reply => reply.status = .rateLimited
  | _ => false

/-- The reset time that goes with an answer, in seconds. -/
def Answer.reset : Answer → Option ℕ
  | .authorized reply => reply.rateLimit.map RateLimitReply.reset
  | .demo reply => some reply.rateLimit.reset
  | _ => none

/-- The windows that refuse the call. -/
def Call.refusers (env : ProcessEnv) (c : Call) (db : Db) : List Refuser :=
  match c.txn with
  | .authorize args => authorizeRefusers env c.now args db
  | .authorizeDemo args =>
      match env.gatewaySecret with
      | .error _ => []
      | .ok secret => demoRefusers c.now (demoIpHash env secret args.clientIp) args db
  | _ => []

/-- The first window that refuses the call is over before another is. -/
def Call.ResetsEarly (env : ProcessEnv) (c : Call) (db : Db) : Prop :=
  match c.txn with
  | .authorize args => ∃ a, admission db c.now args = .ok a ∧ a.isSiteKey = false ∧
      fullCounters env c.now args db a = [] ∧
      DayBeforeMonth db.quotaWindows c.now (a.quotas env args)
  | .authorizeDemo args => ∃ secret, env.gatewaySecret = .ok secret ∧
      MinuteBeforeHour db.rateLimitWindows c.now (demoIpHash env secret args.clientIp) args
  | _ => False

theorem commit_not_limited {α : Type} (db : Db) (answer : α → Answer)
    (r : Except TxError (α × Db)) (h : ∀ a, (answer a).limited = false) :
    (commit db answer r).1.limited = false := by
  rcases commit_cases db answer r with ⟨e, -, hc⟩ | ⟨a, db', -, hc⟩
  · rw [hc]
    rfl
  · rw [hc]
    exact h a

theorem minute_whole : 0 < MINUTE_MS ∧ 1000 ∣ MINUTE_MS := by decide

theorem hour_whole : 0 < 60 * MINUTE_MS ∧ 1000 ∣ 60 * MINUTE_MS := by decide

theorem hit_whole (bucket : String) (limit : ℚ) : (hit bucket limit).Whole := minute_whole

theorem demoHits_whole (ipHash : String) (args : DemoArgs) :
    ∀ h ∈ demoHits ipHash args, h.Whole := by
  intro h hh
  simp only [demoHits, List.mem_cons, List.not_mem_nil, or_false] at hh
  rcases hh with rfl | rfl | rfl | rfl
  · exact minute_whole
  · exact hour_whole
  · exact minute_whole
  · exact minute_whole

theorem fullCounters_eq {now : ℕ} {args : AuthorizeArgs} {db : Db} {a : Admission}
    {bs : List (String × ℚ)} (hbs : buckets env args a = .ok bs) :
    fullCounters env now args db a =
      (bs.map fun b => hit b.1 b.2).filter (counterFull db.rateLimitWindows now) := by
  simp only [fullCounters, hbs]

theorem mem_fullCounters {now : ℕ} {args : AuthorizeArgs} {db : Db} {a : Admission}
    {bs : List (String × ℚ)} (hbs : buckets env args a = .ok bs) {w : Hit}
    (hw : w ∈ fullCounters env now args db a) : ∃ bucket limit, w = hit bucket limit := by
  rw [fullCounters_eq hbs] at hw
  obtain ⟨b, -, rfl⟩ := List.mem_map.mp (List.mem_filter.mp hw).1
  exact ⟨b.1, b.2, rfl⟩

/-- The counters of `authorize` all end with the minute. -/
theorem rateLimited_reset {now : ℕ} {args : AuthorizeArgs} {db db' : Db} {reply : AuthorizeReply}
    (h : authorize env now args db = .ok (reply, db')) (hstatus : reply.status = .rateLimited) :
    ∃ rl, reply.rateLimit = some rl ∧
      (∀ w ∈ authorizeRefusers env now args db, ¬ w.currentAt now (rl.reset * 1000)) ∧
      ¬ Call.ResetsEarly env ⟨now, .authorize args⟩ db := by
  obtain ⟨a, bs, states, windows, hadm, hbs, hhits, hall, hreply⟩ :=
    authorize_rateLimited h hstatus
  have hnodup : ((bs.map fun b => hit b.1 b.2).map Hit.bucket).Nodup := by
    rw [List.map_map]
    exact buckets_nodup hbs
  obtain ⟨first, hfirst, hreset⟩ := counters_refused hnodup hhits hall
  have hmem : first ∈ fullCounters env now args db a := by
    rw [fullCounters_eq hbs]
    exact List.mem_of_mem_head? hfirst
  have hfull : fullCounters env now args db a ≠ [] := List.ne_nil_of_mem hmem
  obtain ⟨bucket, limit, rfl⟩ := mem_fullCounters hbs hmem
  have hrefusers : authorizeRefusers env now args db =
      (fullCounters env now args db a).map .counter := by
    simp only [authorizeRefusers, hadm]
    exact if_pos (Or.inl hfull)
  refine ⟨(combine states).reply, hreply, ?_, ?_⟩
  · show ∀ w ∈ _, ¬ Refuser.currentAt now ((combine states).reset * 1000) w
    rw [hreset, hrefusers, resets_iff (.counter (hit bucket limit)) (hit_whole bucket limit)]
    · rintro ⟨w, hw, hlt⟩
      obtain ⟨h', hh', rfl⟩ := List.mem_map.mp hw
      obtain ⟨bucket', limit', rfl⟩ := mem_fullCounters hbs hh'
      exact absurd hlt (lt_irrefl _)
    · intro w hw
      obtain ⟨h', hh', rfl⟩ := List.mem_map.mp hw
      obtain ⟨bucket', limit', rfl⟩ := mem_fullCounters hbs hh'
      exact hit_whole bucket' limit'
  · rintro ⟨a', hadm', -, hnone, -⟩
    rw [hadm] at hadm'
    cases hadm'
    exact hfull hnone

/-- A call that came to the quotas found room in every counter. -/
theorem OutOfQuota.fullCounters {now : ℕ} {args : AuthorizeArgs} {db : Db} {reply : AuthorizeReply}
    {a : Admission} {bs : List (String × ℚ)} {quota : RateLimitState}
    (h : OutOfQuota env now args db reply a bs quota) : fullCounters env now args db a = [] := by
  obtain ⟨states, windows, hhits, hall⟩ := h.hits
  have hnodup : ((bs.map fun b => hit b.1 b.2).map Hit.bucket).Nodup := by
    rw [List.map_map]
    exact buckets_nodup h.buckets
  rw [fullCounters_eq h.buckets, List.filter_eq_nil_iff]
  intro h' hh'
  rw [hitAll_states hnodup hhits, List.all_map] at hall
  have hroom := List.all_eq_true.mp hall h' hh'
  rw [Function.comp_apply] at hroom
  rw [← counterState_allowed, hroom]
  decide

/-- The windows that refuse a call told that its quota is exhausted. -/
theorem OutOfQuota.refusers {now : ℕ} {args : AuthorizeArgs} {db : Db} {reply : AuthorizeReply}
    {a : Admission} {bs : List (String × ℚ)} {quota : RateLimitState}
    (h : OutOfQuota env now args db reply a bs quota) : authorizeRefusers env now args db =
      ((a.quotas env args).filter (quotaFull db.quotaWindows now)).map .quota := by
  simp only [authorizeRefusers, h.admission]
  apply if_neg
  simp [h.fullCounters, h.customer]

theorem quotaExceeded_reset {now : ℕ} {args : AuthorizeArgs} {db db' : Db} {reply : AuthorizeReply}
    (h : authorize env now args db = .ok (reply, db')) (hstatus : reply.status = .quotaExceeded) :
    ∃ rl, reply.rateLimit = some rl ∧
      ((∀ w ∈ authorizeRefusers env now args db, ¬ w.currentAt now (rl.reset * 1000)) ↔
        ¬ Call.ResetsEarly env ⟨now, .authorize args⟩ db) := by
  obtain ⟨a, bs, quota, hout⟩ := authorize_outOfQuota h hstatus
  obtain ⟨quotas, hquota⟩ := hout.consumed
  obtain ⟨first, hfirst, hreset⟩ := quotas_refused hquota hout.refused
  have hfull := hout.fullCounters
  have hcond : Call.ResetsEarly env ⟨now, .authorize args⟩ db ↔
      DayBeforeMonth db.quotaWindows now (a.quotas env args) := by
    constructor
    · rintro ⟨a', hadm, -, -, hearly⟩
      obtain rfl := Except.ok.inj (hout.admission.symm.trans hadm)
      exact hearly
    · exact fun hearly => ⟨a, hout.admission, hout.customer, hfull, hearly⟩
  refine ⟨quota.reply, hout.rateLimit, ?_⟩
  show (∀ w ∈ _, ¬ Refuser.currentAt now (quota.reset * 1000) w) ↔ _
  rw [hreset, hout.refusers, hcond, resets_iff (.quota first) trivial]
  · exact not_congr (quota_early_iff hfirst)
  · intro w hw
    obtain ⟨spec, -, rfl⟩ := List.mem_map.mp hw
    trivial

theorem demo_reset {now : ℕ} {args : DemoArgs} {db db' : Db} {reply : DemoReply}
    (h : authorizeDemo env now args db = .ok (reply, db')) (hstatus : reply.status = .rateLimited) :
    (∀ w ∈ Call.refusers env ⟨now, .authorizeDemo args⟩ db,
        ¬ w.currentAt now (reply.rateLimit.reset * 1000)) ↔
      ¬ Call.ResetsEarly env ⟨now, .authorizeDemo args⟩ db := by
  obtain ⟨secret, states, windows, hsecret, hhits, hall, hreply⟩ :=
    authorizeDemo_rateLimited h hstatus
  obtain ⟨first, hfirst, hreset⟩ := counters_refused (demoBuckets_nodup _ args) hhits hall
  have hmem := (List.mem_filter.mp (List.mem_of_mem_head? hfirst)).1
  have hrefusers : Call.refusers env ⟨now, .authorizeDemo args⟩ db =
      demoRefusers now (demoIpHash env secret args.clientIp) args db := by
    simp only [Call.refusers, hsecret]
  have hcond : Call.ResetsEarly env ⟨now, .authorizeDemo args⟩ db ↔
      MinuteBeforeHour db.rateLimitWindows now (demoIpHash env secret args.clientIp) args := by
    simp only [Call.ResetsEarly, hsecret, Except.ok.injEq, exists_eq_left']
  rw [hrefusers, hcond, hreply, ← demo_early_iff hfirst]
  show (∀ w ∈ _, ¬ Refuser.currentAt now ((combine states).reset * 1000) w) ↔ _
  rw [hreset]
  apply resets_iff (.counter first) (demoHits_whole _ args first hmem)
  intro w hw
  obtain ⟨h', hh', rfl⟩ := List.mem_map.mp hw
  exact demoHits_whole _ args h' (List.mem_filter.mp hh').1

/-- At the reset time of a refusal no window that refused the call is current any more, unless
the first of them is over before another: a day's quota with a month's behind it, or the minute
of a demo visitor with the hour behind it. -/
theorem reset_not_early_iff (env : ProcessEnv) (c : Call) (db : Db)
    (h : (c.run env db).1.limited = true) :
    ∃ reset, (c.run env db).1.reset = some reset ∧
      ((∀ w ∈ c.refusers env db, ¬ w.currentAt c.now (reset * 1000)) ↔ ¬ c.ResetsEarly env db) := by
  obtain ⟨now, txn⟩ := c
  cases txn
  case authorize args =>
    rcases commit_cases db .authorized (authorize env now args db) with
      ⟨e, -, hc⟩ | ⟨reply, db', hok, hc⟩
    · rw [run_authorize, hc] at h
      cases h
    · rw [run_authorize, hc] at h ⊢
      simp only [Answer.limited, Bool.or_eq_true, decide_eq_true_eq] at h
      rcases h with hstatus | hstatus
      · obtain ⟨rl, hrl, hgone, hcond⟩ := rateLimited_reset hok hstatus
        exact ⟨rl.reset, by simp [Answer.reset, hrl], fun _ => hcond, fun _ => hgone⟩
      · obtain ⟨rl, hrl, hiff⟩ := quotaExceeded_reset hok hstatus
        exact ⟨rl.reset, by simp [Answer.reset, hrl], hiff⟩
  case authorizeDemo args =>
    rcases commit_cases db .demo (authorizeDemo env now args db) with
      ⟨e, -, hc⟩ | ⟨reply, db', hok, hc⟩
    · rw [run_authorizeDemo, hc] at h
      cases h
    · rw [run_authorizeDemo, hc] at h ⊢
      simp only [Answer.limited, decide_eq_true_eq] at h
      exact ⟨reply.rateLimit.reset, rfl, demo_reset hok h⟩
  case describe hash =>
    simp only [Call.run] at h
    split at h <;> cases h
  -- No other transaction answers with a limit.
  all_goals
    first
      | cases h
      | exact absurd h (Bool.eq_false_iff.mp (commit_not_limited db _ _ fun _ => rfl))

/-- A route of the demo under the default limits. -/
def demoRoute : Call :=
  ⟨60000, .authorizeDemo {
    clientIp := "203.0.113.7"
    endpoint := "route"
    cost := 5
    minuteLimit := some 20
    hourLimit := some 100
    globalMinuteLimit := some 5000 }⟩

instance (now t : ℕ) (w : Refuser) : Decidable (w.currentAt now t) :=
  match w with
  | .counter _ => inferInstanceAs (Decidable (_ = _))
  | .quota _ => inferInstanceAs (Decidable (_ = _))

/-- Twenty requests within one minute, which fill the hour. -/
def afterTwenty : Db := Runs.final (Call.run testEnv) {} (List.replicate 20 demoRoute)

theorem reset_of_demoRoute : ∃ reset, (demoRoute.run testEnv afterTwenty).1.reset = some reset ∧
    ((∀ w ∈ demoRoute.refusers testEnv afterTwenty, ¬ w.currentAt 60000 (reset * 1000)) ↔
      ¬ demoRoute.ResetsEarly testEnv afterTwenty) :=
  reset_not_early_iff testEnv demoRoute afterTwenty (by decide +kernel)

/-- The request after them is told to come back when the minute is over. -/
theorem demo_reset_within_the_hour :
    (demoRoute.run testEnv afterTwenty).1.limited = true ∧
      (demoRoute.run testEnv afterTwenty).1.reset = some 120 ∧
      ∃ w ∈ demoRoute.refusers testEnv afterTwenty, w.currentAt 60000 (120 * 1000) := by
  decide +kernel

end GeoPlatform.Convex
