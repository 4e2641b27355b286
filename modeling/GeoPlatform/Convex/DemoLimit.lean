import GeoPlatform.Convex.Counters

/-! The anonymous demo's hourly limit over whole runs. The cleanup job deletes counters by the
start of their window alone, so an hour counter is deleted while its hour still runs; the limit
holds in the runs whose cleanups spare the hour counters in use. -/
namespace GeoPlatform.Convex
open Docs

variable (env : ProcessEnv)

/-- What a call adds to a visitor's total of an hour: its clamped cost, when answered ok. -/
def demoCharge (address : String) (hour : ℕ) (db : Db) (c : Call) : ℕ :=
  match c.txn, (c.run env db).1 with
  | .authorizeDemo args, .demo reply =>
      if demoAddress args.clientIp = address ∧ windowStart c.now (60 * MINUTE_MS) = hour ∧
        reply.status = .ok then demoCost args.cost else 0
  | _, _ => 0

/-- The row is the hour counter of a visitor address. -/
def IsDemoHour (w : RateLimitWindow) : Prop :=
  ∃ secret clientIp, env.gatewaySecret = .ok secret ∧
    w.bucket = demoHourBucket (demoIpHash env secret clientIp)

/-- The call is a demo call that the hour row counts. -/
def CountsInHour (w : RateLimitWindow) (c : Call) : Prop :=
  ∃ secret args, c.txn = .authorizeDemo args ∧ env.gatewaySecret = .ok secret ∧
    w.bucket = demoHourBucket (demoIpHash env secret args.clientIp) ∧
    w.windowStart = windowStart c.now (60 * MINUTE_MS)

/-- The hour of the row is not over, or a later call of the run still falls into it. -/
def HourInUse (now : ℕ) (later : List Call) (w : RateLimitWindow) : Prop :=
  now < w.windowStart + 60 * MINUTE_MS ∨ ∃ c ∈ later, CountsInHour env w c

/-- No cleanup of the run removes an hour counter in use. -/
def HoursKept : Db → List Call → Prop
  | _, [] => True
  | db, c :: later =>
      (c.txn = .prune → ∀ d ∈ db.rateLimitWindows.docs, IsDemoHour env d.val →
        HourInUse env c.now later d.val → d ∈ (c.run env db).2.rateLimitWindows.docs) ∧
      HoursKept (Runs.next (Call.run env) db c) later

/-- Every cleanup of the run finds each hour counter in use at most five minutes old, or behind
a whole batch of other rows. -/
def PrunesTimely : Db → List Call → Prop
  | _, [] => True
  | db, c :: later =>
      (c.txn = .prune → ∀ d ∈ db.rateLimitWindows.docs, IsDemoHour env d.val →
        HourInUse env c.now later d.val → Spared db.rateLimitWindows c.now d) ∧
      PrunesTimely (Runs.next (Call.run env) db c) later

variable {env}

theorem mem_prune_docs {db : Db} {now : ℕ} {d : Doc RateLimitWindow}
    (hd : d ∈ db.rateLimitWindows.docs) :
    d ∈ (prune env now db).2.rateLimitWindows.docs ↔ Spared db.rateLimitWindows now d := by
  have hkept : d ∈ (prune env now db).2.rateLimitWindows.docs ↔
      d.id ∉ (expiredWindows db now).map Doc.id := by
    show d ∈ db.rateLimitWindows.docs.filter _ ↔ _
    rw [List.mem_filter, decide_eq_true_iff]
    exact and_iff_right hd
  have hid : d.id ∈ (expiredWindows db now).map Doc.id ↔ d ∈ expiredWindows db now := by
    constructor
    · intro h
      obtain ⟨e, he, hde⟩ := List.mem_map.mp h
      have heq : e = d := Table.eq_of_id (mem_expiredWindows.mp he).1 hd hde
      exact heq ▸ he
    · exact fun h => List.mem_map_of_mem h
  rw [hkept, hid, mem_expiredWindows, not_and, not_not]
  exact ⟨fun h => h hd, fun h _ => h⟩

theorem hoursKept_iff_prunesTimely (db : Db) (cs : List Call) :
    HoursKept env db cs ↔ PrunesTimely env db cs := by
  induction cs generalizing db with
  | nil => exact Iff.rfl
  | cons c cs ih =>
    refine and_congr (forall_congr' fun hprune => ?_) (ih _)
    have hrun : (c.run env db).2 = (prune env c.now db).2 := by
      obtain ⟨now, txn⟩ := c
      obtain rfl : txn = .prune := hprune
      rw [run_prune]
    rw [hrun]
    exact forall₂_congr fun d hd => forall₂_congr fun _ _ => mem_prune_docs hd

theorem demoCharge_pos {address : String} {hour : ℕ} {db : Db} {c : Call}
    (h : 0 < demoCharge env address hour db c) :
    ∃ args reply, c.txn = .authorizeDemo args ∧ (c.run env db).1 = .demo reply ∧
      demoAddress args.clientIp = address ∧ windowStart c.now (60 * MINUTE_MS) = hour ∧
      reply.status = .ok ∧ demoCharge env address hour db c = demoCost args.cost := by
  unfold demoCharge at h ⊢
  split at h
  · rename_i args reply htxn hreply
    split_ifs at h with hcond
    · obtain ⟨haddress, hhour, hstatus⟩ := hcond
      refine ⟨args, reply, htxn, hreply, haddress, hhour, hstatus, ?_⟩
      rw [if_pos ⟨haddress, hhour, hstatus⟩]
    · cases h
  · cases h

/-- A demo call answered ok was let through by the hour counter of its address. -/
theorem demo_counted {db : Db} {c : Call} {args : DemoArgs} {reply : DemoReply}
    (htxn : c.txn = .authorizeDemo args) (hreply : (c.run env db).1 = .demo reply)
    (hstatus : reply.status = .ok) :
    ∃ secret, env.gatewaySecret = .ok secret ∧
      ∀ h ∈ demoHits (demoIpHash env secret args.clientIp) args, Counted env db c h := by
  obtain ⟨now, txn⟩ := c
  obtain rfl : txn = .authorizeDemo args := htxn
  rcases commit_cases db .demo (authorizeDemo env now args db) with
    ⟨e, -, hc⟩ | ⟨reply', db', hok, hc⟩
  · rw [run_authorizeDemo, hc] at hreply
    cases hreply
  · rw [run_authorizeDemo, hc] at hreply
    cases hreply
    obtain ⟨secret, states, windows, audit, hsecret, hhits, hall, rfl⟩ := authorizeDemo_ok hok
    refine ⟨secret, hsecret, fun h hh => ?_⟩
    refine counted_of_hitAll ?_ (hall.mp hstatus) hh
    rw [run_authorizeDemo, hc]
    exact hhits

theorem demoHour_dropsLast (address : String) (hour : ℕ) {secret : String}
    (hsecret : env.gatewaySecret = .ok secret) {db : Db} {cs : List Call}
    (h : PrunesTimely env db cs) :
    Runs.DropsLast (Call.run env)
      (DropsWindow (demoHourBucket (slice 32 (env.hmacSha256Hex secret ("demo:" ++ address)))) hour)
      (demoCharge env address hour) db cs := by
  induction cs generalizing db with
  | nil => trivial
  | cons c cs ih =>
    refine ⟨?_, ih h.2⟩
    rintro ⟨hprune, d, hd, hw⟩ c' hc' db'
    by_contra hne
    obtain ⟨args, reply, htxn, -, haddress, hhour, -, -⟩ :=
      demoCharge_pos (Nat.pos_of_ne_zero hne)
    obtain ⟨hmem, hspared⟩ := mem_expiredWindows.mp hd
    simp only [isWindow, Bool.and_eq_true, decide_eq_true_eq] at hw
    have hbucket : d.val.bucket = demoHourBucket (demoIpHash env secret args.clientIp) := by
      rw [hw.1, demoIpHash, haddress]
    refine hspared (h.1 hprune d hmem ⟨secret, args.clientIp, hsecret, hbucket⟩ (Or.inr ?_))
    exact ⟨c', hc', secret, args, htxn, hsecret, hbucket, hw.2.trans hhour.symm⟩

/-- In a run whose cleanups are timely, the demo calls of one address that were answered ok in
one hour cost at most the hour limit. -/
theorem demo_hour_cap {hourLimit : Option ℚ} {db : Db} {cs : List Call}
    (hfixed : ∀ c ∈ cs, ∀ args, c.txn = .authorizeDemo args → args.hourLimit = hourLimit)
    (h : PrunesTimely env db cs) (address : String) (hour : ℕ) :
    Runs.total (Call.run env) (demoCharge env address hour) db cs ≤ clampLimit hourLimit 100 := by
  rcases hs : env.gatewaySecret with e | secret
  · -- Without the gateway secret no demo call is answered ok.
    have hzero : ∀ x ∈ Runs.trace (Call.run env) db cs,
        demoCharge env address hour x.before x.event = 0 := by
      intro x _
      by_contra hne
      obtain ⟨args, reply, htxn, hreply, -, -, hstatus, -⟩ :=
        demoCharge_pos (Nat.pos_of_ne_zero hne)
      obtain ⟨secret, hsecret, -⟩ := demo_counted htxn hreply hstatus
      rw [hs] at hsecret
      cases hsecret
    have htotal : Runs.total (Call.run env) (demoCharge env address hour) db cs = 0 := by
      refine List.sum_eq_zero fun n hn => ?_
      obtain ⟨x, hx, rfl⟩ := List.mem_map.mp hn
      exact hzero x hx
    rw [htotal]
    exact Nat.zero_le _
  · have hdrop := demoHour_dropsLast address hour hs h
    have hL : (0 : ℚ) ≤ clampLimit hourLimit 100 := Nat.cast_nonneg _
    refine Nat.cast_le.mp (window_cap hL (fun x hx hpos => ?_) hdrop)
    · obtain ⟨args, reply, htxn, hreply, haddress, hhour, hstatus, hcost⟩ := demoCharge_pos hpos
      obtain ⟨secret', hsecret', hcounted⟩ := demo_counted htxn hreply hstatus
      obtain rfl : secret' = secret := by
        rw [hs] at hsecret'
        cases hsecret'
        rfl
      let hourHit : Hit := ⟨demoHourBucket (demoIpHash env secret' args.clientIp),
        clampLimit args.hourLimit 100, 60 * MINUTE_MS, demoCost args.cost⟩
      have hmem : hourHit ∈ demoHits (demoIpHash env secret' args.clientIp) args := by
        simp [demoHits, hourHit]
      refine ⟨hourHit, hcounted hourHit hmem, ?_, hhour, hcost, ?_⟩
      · simp only [hourHit, demoIpHash, haddress]
      · have hlimit := hfixed x.event (Runs.event_mem_of_mem_trace _ hx) args htxn
        simp only [hourHit, hlimit, le_refl]

/-- With fixed limits, the cleanups of a run keep every hour counter in use exactly when they are
timely, and then no visitor's hour exceeds the hour limit. -/
theorem demo_hour_limit {hourLimit : Option ℚ} {db : Db} {cs : List Call}
    (hfixed : ∀ c ∈ cs, ∀ args, c.txn = .authorizeDemo args → args.hourLimit = hourLimit) :
    (HoursKept env db cs ↔ PrunesTimely env db cs) ∧
      (PrunesTimely env db cs → ∀ address hour,
        Runs.total (Call.run env) (demoCharge env address hour) db cs ≤
          clampLimit hourLimit 100) :=
  ⟨hoursKept_iff_prunesTimely db cs, demo_hour_cap hfixed⟩

/-- A demo request of one visitor under an hour limit of one. -/
def oneAnHour : DemoArgs where
  clientIp := "203.0.113.7"
  endpoint := "geocode"
  cost := 1
  minuteLimit := some 20
  hourLimit := some 1
  globalMinuteLimit := some 5000

/-- Two requests of one hour, with the ten-minute cleanup between them. -/
def pruneWithinTheHour : List Call :=
  [⟨0, .authorizeDemo oneAnHour⟩, ⟨600000, .prune⟩, ⟨660000, .authorizeDemo oneAnHour⟩]

theorem demo_hour_exceeded_after_prune :
    ¬ (Runs.total (Call.run testEnv) (demoCharge testEnv "203.0.113.7" 0) {} pruneWithinTheHour ≤
      clampLimit (some 1) 100) := by
  decide +kernel

/-- The same two requests, with the cleanup four minutes into the hour. -/
def pruneEarly : List Call :=
  [⟨0, .authorizeDemo oneAnHour⟩, ⟨240000, .prune⟩, ⟨660000, .authorizeDemo oneAnHour⟩]

theorem demo_hour_limit_after_early_prune :
    Runs.total (Call.run testEnv) (demoCharge testEnv "203.0.113.7" 0) {} pruneEarly ≤
      clampLimit (some 1) 100 := by
  have hfixed : ∀ c ∈ pruneEarly, ∀ args, c.txn = .authorizeDemo args →
      args.hourLimit = some 1 := by
    intro c hc args htxn
    simp only [pruneEarly, List.mem_cons, List.not_mem_nil, or_false] at hc
    rcases hc with rfl | rfl | rfl <;> cases htxn <;> rfl
  have hyoung : ∀ d ∈ (Call.run testEnv {} ⟨0, .authorizeDemo oneAnHour⟩).2.rateLimitWindows.docs,
      240000 ≤ d.val.windowStart + 5 * MINUTE_MS := by
    decide +kernel
  refine (demo_hour_limit hfixed).2 ⟨?_, ?_, ?_, trivial⟩ _ _
  · exact fun h => by cases h
  · exact fun _ d hd _ _ => Or.inl (hyoung d hd)
  · exact fun h => by cases h

end GeoPlatform.Convex
