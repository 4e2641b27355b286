import GeoPlatform.Convex.RateLimit

/-! What one call does to the fixed-window counters. A counter is read as the total of the rows
under its bucket and start, so that a missing row counts zero. -/
namespace GeoPlatform.Convex
open Docs

def windowCount (t : Table RateLimitWindow) (bucket : String) (start : ℕ) : ℕ :=
  t.sum fun w => if isWindow bucket start w then w.count else 0

/-- What a hit adds to a counter. -/
def Hit.addsTo (h : Hit) (now : ℕ) (bucket : String) (start : ℕ) : ℕ :=
  if h.bucket = bucket ∧ windowStart now h.durationMs = start then h.cost else 0

def addedBy (hs : List Hit) (now : ℕ) (bucket : String) (start : ℕ) : ℕ :=
  (hs.map fun h => h.addsTo now bucket start).sum

theorem Hit.addsTo_self (h : Hit) (now : ℕ) :
    h.addsTo now h.bucket (windowStart now h.durationMs) = h.cost := by
  simp [addsTo]

theorem addsTo_le_addedBy {hs : List Hit} {h : Hit} (hh : h ∈ hs) (now : ℕ) (bucket : String)
    (start : ℕ) : h.addsTo now bucket start ≤ addedBy hs now bucket start := by
  unfold addedBy
  exact List.single_le_sum (by simp) _ (List.mem_map_of_mem hh)

theorem windowCount_insert (t : Table RateLimitWindow) (h : Hit) (now : ℕ) (bucket : String)
    (start : ℕ) :
    windowCount (t.insert ⟨h.bucket, windowStart now h.durationMs, h.cost⟩) bucket start =
      windowCount t bucket start + h.addsTo now bucket start := by
  simp only [windowCount, Table.sum_insert, isWindow, Hit.addsTo, Bool.and_eq_true,
    decide_eq_true_eq]

theorem windowCount_patch {t : Table RateLimitWindow} {h : Hit} {now : ℕ}
    {d : Doc RateLimitWindow}
    (hd : t.unique (isWindow h.bucket (windowStart now h.durationMs)) = .one d)
    (bucket : String) (start : ℕ) :
    windowCount (t.patch d.id fun w => { w with count := d.val.count + h.cost }) bucket start =
      windowCount t bucket start + h.addsTo now bucket start := by
  obtain ⟨-, hw⟩ := Table.unique_mem hd
  have hkey : d.val.bucket = h.bucket ∧ d.val.windowStart = windowStart now h.durationMs := by
    simpa [isWindow] using hw
  have hsum := Table.sum_patch (Table.get_of_unique hd)
    (fun w => { w with count := d.val.count + h.cost })
    (fun w => if isWindow bucket start w then w.count else 0)
  simp only [isWindow, hkey, Bool.and_eq_true, decide_eq_true_eq] at hsum
  simp only [windowCount, Hit.addsTo, isWindow, Bool.and_eq_true, decide_eq_true_eq]
  split_ifs at hsum ⊢ <;> omega

/-- A hit adds its cost to its own counter, leaves the others alone, and reports the new count. -/
theorem hitWindow_ok {t t' : Table RateLimitWindow} {now : ℕ} {h : Hit} {state : RateLimitState}
    (hok : hitWindow t now h = .ok (state, t')) :
    (∀ bucket start, windowCount t' bucket start =
      windowCount t bucket start + h.addsTo now bucket start) ∧
    state = rateLimitState h (windowStart now h.durationMs)
      (windowCount t h.bucket (windowStart now h.durationMs) + h.cost) := by
  unfold hitWindow at hok
  simp only at hok
  split at hok
  · cases hok
  · rename_i d hd
    simp only [Except.ok.injEq, Prod.mk.injEq] at hok
    obtain ⟨rfl, rfl⟩ := hok
    refine ⟨windowCount_patch hd, ?_⟩
    rw [windowCount, Table.sum_of_unique_one hd]
  · rename_i hd
    simp only [Except.ok.injEq, Prod.mk.injEq] at hok
    obtain ⟨rfl, rfl⟩ := hok
    refine ⟨windowCount_insert t h now, ?_⟩
    rw [windowCount, Table.sum_of_unique_none hd, Nat.zero_add]

theorem hitAll_count {t t' : Table RateLimitWindow} {now : ℕ} {hs : List Hit}
    {states : List RateLimitState} (hok : hitAll t now hs = .ok (states, t')) (bucket : String)
    (start : ℕ) :
    windowCount t' bucket start = windowCount t bucket start + addedBy hs now bucket start := by
  induction hs generalizing t states with
  | nil =>
    cases hok
    rfl
  | cons h hs ih =>
    obtain ⟨⟨state, u⟩, hhit, hok⟩ := except_bind_ok.mp hok
    obtain ⟨⟨states, u'⟩, hrest, hok⟩ := except_bind_ok.mp hok
    cases hok
    have hfirst := (hitWindow_ok hhit).1 bucket start
    have hlater := ih hrest
    simp only [addedBy, List.map_cons, List.sum_cons] at hlater ⊢
    omega

/-- When every hit of a call was allowed, each found room for its cost. -/
theorem hitAll_room {t t' : Table RateLimitWindow} {now : ℕ} {hs : List Hit}
    {states : List RateLimitState} (hok : hitAll t now hs = .ok (states, t'))
    (hall : states.all RateLimitState.allowed = true) {h : Hit} (hh : h ∈ hs) :
    ((windowCount t h.bucket (windowStart now h.durationMs) + h.cost : ℕ) : ℚ) ≤ h.limit := by
  induction hs generalizing t states with
  | nil => simp at hh
  | cons g hs ih =>
    obtain ⟨⟨state, u⟩, hhit, hok⟩ := except_bind_ok.mp hok
    obtain ⟨⟨states, u'⟩, hrest, hok⟩ := except_bind_ok.mp hok
    cases hok
    obtain ⟨hcount, hstate⟩ := hitWindow_ok hhit
    simp only [List.all_cons, Bool.and_eq_true] at hall
    rcases List.mem_cons.mp hh with rfl | hh
    · have hallowed := hall.1
      rw [hstate] at hallowed
      simpa [rateLimitState] using hallowed
    · have hroom := ih hrest hall.2 hh
      rw [hcount] at hroom
      refine le_trans ?_ hroom
      exact_mod_cast Nat.add_le_add_right (Nat.le_add_right _ _) _

theorem combine_allowed (states : List RateLimitState) :
    (combine states).allowed = states.all RateLimitState.allowed := by
  unfold combine
  simp only
  split <;> rfl

/-! ### What the cleanup job takes away -/

theorem mem_expiredBatch {α : Type} {t : Table α} {time : α → ℚ} {cutoff : ℚ} {d : Doc α}
    (h : d ∈ expiredBatch t time cutoff) : d ∈ t.docs ∧ time d.val < cutoff := by
  have hm := (List.mem_insertionSort _).mp (List.mem_of_mem_take h)
  simpa using Table.mem_query.mp hm

/-- The cleanup job leaves a counter alone when no row of it is in the batch. -/
theorem windowCount_prune {env : ProcessEnv} {now : ℕ} {db : Db} {bucket : String} {start : ℕ}
    (h : ∀ d ∈ expiredWindows db now, isWindow bucket start d.val = false) :
    windowCount (prune env now db).2.rateLimitWindows bucket start =
      windowCount db.rateLimitWindows bucket start := by
  refine Table.sum_keep_eq fun d hd hp => ?_
  have hid : d.id ∈ (expiredWindows db now).map Doc.id := by simpa using hp
  obtain ⟨e, he, hde⟩ := List.mem_map.mp hid
  have hed : e = d := Table.eq_of_id (mem_expiredBatch he).1 hd hde
  rw [h d (hed ▸ he)]
  rfl

/-- A window that began within the last five minutes is never in the batch. -/
theorem windowCount_prune_recent {env : ProcessEnv} {now : ℕ} {db : Db} {bucket : String}
    {start : ℕ} (h : now ≤ start + 5 * MINUTE_MS) :
    windowCount (prune env now db).2.rateLimitWindows bucket start =
      windowCount db.rateLimitWindows bucket start := by
  refine windowCount_prune fun d hd => ?_
  have hlt := (mem_expiredBatch hd).2
  rw [Bool.eq_false_iff]
  intro hw
  simp only [isWindow, Bool.and_eq_true, decide_eq_true_eq] at hw
  rw [hw.2, windowCutoff] at hlt
  have hnow : (now : ℚ) ≤ start + 5 * MINUTE_MS := by exact_mod_cast h
  linarith

end GeoPlatform.Convex
