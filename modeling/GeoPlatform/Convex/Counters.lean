import GeoPlatform.Convex.Backend

/-! Caps that a counter enforces over a whole run. A call is let through only where the counter
has room for it, and the counter keeps what it was charged until the cleanup job takes its row,
so the calls let through never exceed the limit while their row is spared. -/
namespace GeoPlatform.Convex
open Docs

/-! ### The rows the cleanup job takes -/

def windowTime (w : RateLimitWindow) : ℚ := w.windowStart

/-- The rows that come before `d` in index order. -/
def rowsBefore (t : Table RateLimitWindow) (d : Doc RateLimitWindow) : ℕ :=
  (t.docs.filter fun e => !indexBefore windowTime d e).length

/-- A cleanup at `now` leaves `d` alone: its window began at most five minutes ago, or a whole
batch of rows comes first. -/
def Spared (t : Table RateLimitWindow) (now : ℕ) (d : Doc RateLimitWindow) : Prop :=
  now ≤ d.val.windowStart + 5 * MINUTE_MS ∨ BATCH ≤ rowsBefore t d

theorem indexBefore_total {α : Type} (time : α → ℚ) (a b : Doc α) :
    indexBefore time a b = true ∨ indexBefore time b a = true := by
  simp only [indexBefore, Bool.or_eq_true, Bool.and_eq_true, decide_eq_true_eq]
  rcases lt_trichotomy (time a.val) (time b.val) with h | h | h
  · exact Or.inl (Or.inl h)
  · rcases Nat.le_total a.id b.id with hi | hi
    · exact Or.inl (Or.inr ⟨h, hi⟩)
    · exact Or.inr (Or.inr ⟨h.symm, hi⟩)
  · exact Or.inr (Or.inl h)

theorem indexBefore_trans {α : Type} {time : α → ℚ} {a b c : Doc α}
    (hab : indexBefore time a b = true) (hbc : indexBefore time b c = true) :
    indexBefore time a c = true := by
  simp only [indexBefore, Bool.or_eq_true, Bool.and_eq_true, decide_eq_true_eq] at *
  rcases hab with hab | ⟨hab, hi⟩
  · rcases hbc with hbc | ⟨hbc, -⟩
    · exact Or.inl (hab.trans hbc)
    · exact Or.inl (hbc ▸ hab)
  · rcases hbc with hbc | ⟨hbc, hj⟩
    · exact Or.inl (hab ▸ hbc)
    · exact Or.inr ⟨hab.trans hbc, hi.trans hj⟩

theorem indexBefore_antisymm {α : Type} {time : α → ℚ} {a b : Doc α}
    (hab : indexBefore time a b = true) (hba : indexBefore time b a = true) : a.id = b.id := by
  simp only [indexBefore, Bool.or_eq_true, Bool.and_eq_true, decide_eq_true_eq] at *
  rcases hab with hab | ⟨hab, hi⟩
  · rcases hba with hba | ⟨hba, -⟩ <;> linarith
  · rcases hba with hba | ⟨-, hj⟩
    · linarith
    · exact le_antisymm hi hj

/-- No row of a sorted selection comes before an earlier one. -/
theorem pairwise_indexBefore {α : Type} (t : Table α) (time : α → ℚ) (p : α → Bool) :
    ((t.query p).insertionSort fun a b => indexBefore time a b).Pairwise
      fun a b => (!indexBefore time b a) = true := by
  have hperm := List.perm_insertionSort (fun a b : Doc α => indexBefore time a b = true) (t.query p)
  have hids := (hperm.map Doc.id).nodup_iff.mpr (t.ids_nodup.sublist (List.filter_sublist.map _))
  have htotal : Std.Total fun a b : Doc α => indexBefore time a b = true :=
    ⟨indexBefore_total time⟩
  have htrans : IsTrans _ fun a b : Doc α => indexBefore time a b = true :=
    ⟨fun _ _ _ => indexBefore_trans⟩
  have hle := List.pairwise_insertionSort (fun a b : Doc α => indexBefore time a b = true)
    (t.query p)
  refine (hle.and (List.pairwise_map.mp hids)).imp fun {a b} h => ?_
  simp only [Bool.not_eq_true', Bool.eq_false_iff]
  exact fun hba => h.2 (indexBefore_antisymm h.1 hba)

/-- What comes before an expired row has expired itself. -/
theorem expired_of_before {α : Type} {time : α → ℚ} {cutoff : ℚ} {d e : Doc α}
    (hd : time d.val < cutoff) (hbefore : (!indexBefore time d e) = true) :
    time e.val < cutoff := by
  by_contra hlate
  have hde : indexBefore time d e = true := by
    simp [indexBefore, lt_of_lt_of_le hd (not_lt.mp hlate)]
  simp [hde] at hbefore

/-- A batch holds the expired rows with fewer than a whole batch of rows before them. -/
theorem mem_expiredBatch_iff {α : Type} {t : Table α} {time : α → ℚ} {cutoff : ℚ} {d : Doc α} :
    d ∈ expiredBatch t time cutoff ↔ d ∈ t.docs ∧ time d.val < cutoff ∧
      (t.docs.filter fun e => !indexBefore time d e).length < BATCH := by
  let expired := t.query fun a => time a < cutoff
  let sorted := expired.insertionSort fun a b => indexBefore time a b
  have hperm : sorted.Perm expired := List.perm_insertionSort _ _
  have hasymm : ∀ a b : Doc α, (!indexBefore time b a) = true →
      (!indexBefore time a b) = false := by
    intro a b h
    rcases indexBefore_total time a b with hab | hba
    · simp [hab]
    · simp [hba] at h
  have hmem : d ∈ sorted ↔ d ∈ t.docs ∧ time d.val < cutoff := by
    rw [hperm.mem_iff, Table.mem_query, decide_eq_true_eq]
  have hrank : time d.val < cutoff → (sorted.filter fun e => !indexBefore time d e).length =
      (t.docs.filter fun e => !indexBefore time d e).length := by
    intro hd
    rw [(hperm.filter _).length_eq]
    simp only [expired, Table.query, List.filter_filter]
    congr 1
    refine List.filter_congr fun e _ => ?_
    cases hed : !indexBefore time d e with
    | false => rfl
    | true => simp [expired_of_before hd hed]
  change d ∈ sorted.take BATCH ↔ _
  rw [mem_take_iff_rank (pairwise_indexBefore t time _) hasymm, hmem, and_assoc]
  refine and_congr_right fun _ => and_congr_right fun hd => ?_
  rw [hrank hd]

/-- The batch holds exactly the rows that are not spared. -/
theorem mem_expiredWindows {db : Db} {now : ℕ} {d : Doc RateLimitWindow} :
    d ∈ expiredWindows db now ↔
      d ∈ db.rateLimitWindows.docs ∧ ¬ Spared db.rateLimitWindows now d := by
  have hcut : windowTime d.val < windowCutoff now ↔ ¬ now ≤ d.val.windowStart + 5 * MINUTE_MS := by
    rw [windowTime, windowCutoff, not_le, lt_sub_iff_add_lt]
    exact_mod_cast Iff.rfl
  change d ∈ expiredBatch db.rateLimitWindows windowTime (windowCutoff now) ↔ _
  rw [mem_expiredBatch_iff, hcut, Spared, rowsBefore, not_or, not_le, not_le]

/-! ### Counted caps -/

/-- The cleanup job takes a row of the counter away. -/
def DropsWindow (bucket : String) (start : ℕ) (db : Db) (c : Call) : Prop :=
  c.txn = .prune ∧ ∃ d ∈ expiredWindows db c.now, isWindow bucket start d.val = true

/-- A call that the counter of `h` let through. -/
structure Counted (env : ProcessEnv) (db : Db) (c : Call) (h : Hit) : Prop where
  room : ((windowCount db.rateLimitWindows h.bucket (windowStart c.now h.durationMs) + h.cost : ℕ)
    : ℚ) ≤ h.limit
  grows : windowCount db.rateLimitWindows h.bucket (windowStart c.now h.durationMs) + h.cost ≤
    windowCount (c.run env db).2.rateLimitWindows h.bucket (windowStart c.now h.durationMs)

variable {env : ProcessEnv}

theorem authorize_windows {now : ℕ} {args : AuthorizeArgs} {db db' : Db} {reply : AuthorizeReply}
    (h : authorize env now args db = .ok (reply, db')) :
    db'.rateLimitWindows = db.rateLimitWindows ∨ ∃ hs states,
      hitAll db.rateLimitWindows now hs = .ok (states, db'.rateLimitWindows) := by
  cases authorize_ok h with
  | refused => exact Or.inl rfl
  | rateLimited a windows reply entry hcharged =>
    obtain ⟨bs, states, -, hhits, -⟩ := hcharged.hits
    exact Or.inr ⟨_, _, hhits⟩
  | quotaExceeded a windows reply entry hcharged =>
    obtain ⟨bs, states, -, hhits, -⟩ := hcharged.hits
    exact Or.inr ⟨_, _, hhits⟩
  | site a windows reply entry hcharged =>
    obtain ⟨bs, states, -, hhits, -⟩ := hcharged.hits
    exact Or.inr ⟨_, _, hhits⟩
  | customer a windows quota quotas reply entry hcharged =>
    obtain ⟨bs, states, -, hhits, -⟩ := hcharged.hits
    exact Or.inr ⟨_, _, hhits⟩

/-- Only the cleanup job lowers a counter. -/
theorem windowCount_le_run {db : Db} {c : Call} {bucket : String} {start : ℕ}
    (h : ¬ DropsWindow bucket start db c) :
    windowCount db.rateLimitWindows bucket start ≤
      windowCount (c.run env db).2.rateLimitWindows bucket start := by
  by_cases hw : TableName.rateLimitWindows ∈ c.txn.writes
  · obtain ⟨now, txn⟩ := c
    cases txn <;> simp only [Txn.writes, List.mem_cons, List.mem_nil_iff, reduceCtorEq, or_self,
      or_false] at hw
    case authorizeDemo args =>
      rcases commit_cases db .demo (authorizeDemo env now args db) with
        ⟨e, -, hc⟩ | ⟨reply, db', hok, hc⟩
      · rw [run_authorizeDemo, hc]
      · obtain ⟨secret, states, windows, audit, -, hhits, -, rfl⟩ := authorizeDemo_ok hok
        rw [run_authorizeDemo, hc, hitAll_count hhits]
        omega
    case authorize args =>
      rcases commit_cases db .authorized (authorize env now args db) with
        ⟨e, -, hc⟩ | ⟨reply, db', hok, hc⟩
      · rw [run_authorize, hc]
      · rw [run_authorize, hc]
        rcases authorize_windows hok with heq | ⟨hs, states, hhits⟩
        · rw [heq]
        · rw [hitAll_count hhits]
          omega
    case prune =>
      refine (windowCount_prune fun d hd => ?_).ge
      rw [Bool.eq_false_iff]
      exact fun hd' => h ⟨rfl, d, hd, hd'⟩
  · rw [(run_frame env db c).rateLimitWindows hw]

/-- The calls that a counter let through in one window never exceed its limit, as long as no
such call follows a cleanup that took the counter's row. -/
theorem window_cap {cost : Db → Call → ℕ} {bucket : String} {start : ℕ} {L : ℚ} (hL : 0 ≤ L)
    {db : Db} {cs : List Call}
    (hcost : ∀ x ∈ Runs.trace (Call.run env) db cs, 0 < cost x.before x.event →
      ∃ h, Counted env x.before x.event h ∧ h.bucket = bucket ∧
        windowStart x.event.now h.durationMs = start ∧ cost x.before x.event = h.cost ∧
        h.limit ≤ L)
    (hdrop : Runs.DropsLast (Call.run env) (DropsWindow bucket start) cost db cs) :
    (Runs.total (Call.run env) cost db cs : ℚ) ≤ L := by
  have hgrow : ∀ x ∈ Runs.trace (Call.run env) db cs,
      ¬ DropsWindow bucket start x.before x.event →
      windowCount x.before.rateLimitWindows bucket start + cost x.before x.event ≤
        windowCount (Runs.next (Call.run env) x.before x.event).rateLimitWindows bucket start := by
    intro x hx hkeep
    rcases Nat.eq_zero_or_pos (cost x.before x.event) with hz | hp
    · rw [hz]
      exact windowCount_le_run hkeep
    · obtain ⟨h, hcounted, rfl, rfl, hc, -⟩ := hcost x hx hp
      rw [hc]
      exact hcounted.grows
  have hcap : ∀ x ∈ Runs.trace (Call.run env) db cs, 0 < cost x.before x.event →
      ((windowCount x.before.rateLimitWindows bucket start + cost x.before x.event : ℕ) : ℚ)
        ≤ L := by
    intro x hx hp
    obtain ⟨h, hcounted, hb, hs, hc, hlimit⟩ := hcost x hx hp
    rw [hc, ← hb, ← hs]
    exact hcounted.room.trans hlimit
  let count : Db → ℕ := fun db => windowCount db.rateLimitWindows bucket start
  exact @Runs.total_le_cap _ _ _ (Call.run env) count cost _ L hL db cs hgrow hcap hdrop

/-- Every hit of a call whose hits were all allowed is counted. -/
theorem counted_of_hitAll {db : Db} {c : Call} {hs : List Hit} {states : List RateLimitState}
    (hhits : hitAll db.rateLimitWindows c.now hs =
      .ok (states, (c.run env db).2.rateLimitWindows))
    (hall : states.all RateLimitState.allowed = true) {h : Hit} (hh : h ∈ hs) :
    Counted env db c h := by
  refine ⟨hitAll_room hhits hall hh, ?_⟩
  have hself := h.addsTo_self c.now
  have hsum := addsTo_le_addedBy hh c.now h.bucket (windowStart c.now h.durationMs)
  rw [hitAll_count hhits]
  omega

end GeoPlatform.Convex
