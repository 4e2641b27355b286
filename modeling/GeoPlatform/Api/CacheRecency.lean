import GeoPlatform.Api.KeyCache
import GeoPlatform.Library.Recency
import GeoPlatform.Library.Run

/-! `TTLCache` over runs of `get` and `set`. Entries stand in the order of their last touch, so a
value leaves the cache only when it expires or when enough other keys are in use. -/
namespace GeoPlatform.Api
variable {V : Type}

inductive CacheOp (V : Type) where
  | get (key : String) (monotonic : ℚ)
  | set (key : String) (value : V) (monotonic : ℚ)

/-- What `time.monotonic()` reads in the call. -/
def CacheOp.monotonic : CacheOp V → ℚ
  | .get _ monotonic => monotonic
  | .set _ _ monotonic => monotonic

/-- A call, with what `get` returns. -/
def TTLCache.step (c : TTLCache V) : CacheOp V → Option V × TTLCache V
  | .get key monotonic => c.get key monotonic
  | .set key value monotonic => (none, c.set key value monotonic)

/-- The key that a call sets or reads successfully. -/
def touchedKey (x : Runs.Entry (TTLCache V) (CacheOp V) (Option V)) : Option String :=
  match x.event with
  | .get key _ => x.reply.map fun _ => key
  | .set key _ _ => some key

/-- The keys set or read successfully, in order. -/
def touches (c : TTLCache V) (ops : List (CacheOp V)) : List String :=
  (Runs.trace TTLCache.step c ops).filterMap touchedKey

def CacheOp.setsKey (key : String) : CacheOp V → Option (ℚ × V)
  | .get _ _ => none
  | .set k value monotonic => if k = key then some (monotonic, value) else none

/-- When `key` was set last, and to what. -/
def latestSet (key : String) (ops : List (CacheOp V)) : Option (ℚ × V) :=
  (ops.filterMap (CacheOp.setsKey key)).getLast?

theorem latestSet_append (key : String) (ops : List (CacheOp V)) (op : CacheOp V) :
    latestSet key (ops ++ [op]) = (op.setsKey key).or (latestSet key ops) := by
  unfold latestSet
  rw [List.filterMap_append]
  cases h : op.setsKey key <;> simp [h]

theorem touches_append (c : TTLCache V) (ops : List (CacheOp V)) (op : CacheOp V) :
    touches c (ops ++ [op]) = touches c ops ++
      (touchedKey ⟨Runs.final TTLCache.step c ops, op,
        ((Runs.final TTLCache.step c ops).step op).1⟩).toList := by
  unfold touches
  rw [Runs.trace_append, List.filterMap_append]
  congr 1

/-! ### The entries -/

/-- The cache after the calls `ops`, whose touched keys are `ts`. -/
structure Holds (ttl : ℚ) (max : ℕ) (ops : List (CacheOp V)) (ts : List String)
    (c : TTLCache V) : Prop where
  ttl_eq : c.ttl = ttl
  max_eq : c.max = max
  length_le : c.data.length ≤ max
  recent : Recency.Recent ts (c.data.map Prod.fst)
  entry : ∀ e ∈ c.data, ∃ t, latestSet e.1 ops = some (t, e.2.2) ∧ e.2.1 = t + ttl
  present : ∀ key t value, latestSet key ops = some (t, value) →
    (∀ op ∈ ops, op.monotonic ≤ t + ttl) → (Recency.since ts key).card < max →
    key ∈ c.data.map Prod.fst

variable {ttl : ℚ} {max : ℕ} {ops : List (CacheOp V)} {ts : List String} {c : TTLCache V}

theorem holds_empty (ttl : ℚ) (max : ℕ) : Holds ttl max [] [] (⟨ttl, max, []⟩ : TTLCache V) where
  ttl_eq := rfl
  max_eq := rfl
  length_le := Nat.zero_le _
  recent := Recency.recent_nil
  entry := by simp
  present := by simp [latestSet]

theorem latestSet_get (key k : String) (ops : List (CacheOp V)) (monotonic : ℚ) :
    latestSet key (ops ++ [.get k monotonic]) = latestSet key ops := by
  rw [latestSet_append]
  rfl

/-- A read that finds nothing. -/
theorem Holds.miss (h : Holds ttl max ops ts c) (key : String) (monotonic : ℚ) :
    Holds ttl max (ops ++ [.get key monotonic]) ts c := by
  refine ⟨h.ttl_eq, h.max_eq, h.length_le, h.recent, fun e he => ?_, fun k t value hk hops => ?_⟩
  · rw [latestSet_get]
    exact h.entry e he
  · rw [latestSet_get] at hk
    exact h.present k t value hk fun op hop => hops op (List.mem_append_left _ hop)

/-- A read that finds an expired entry. -/
theorem Holds.expire (h : Holds ttl max ops ts c) {key : String} {monotonic expiresAt : ℚ}
    {value : V} (hget : OrderedMap.get? c.data key = some (expiresAt, value))
    (hlate : expiresAt < monotonic) :
    Holds ttl max (ops ++ [.get key monotonic]) ts
      { c with data := OrderedMap.erase c.data key } := by
  have hmiss := h.miss key monotonic
  have hsub := OrderedMap.erase_sublist c.data key
  refine ⟨h.ttl_eq, h.max_eq, hsub.length_le.trans h.length_le, h.recent.sublist (hsub.map _),
    fun e he => hmiss.entry e (hsub.subset he), fun k t v hk hops hfew => ?_⟩
  rw [OrderedMap.keys_erase, List.mem_filter]
  refine ⟨hmiss.present k t v hk hops hfew, ?_⟩
  -- The key itself has expired.
  rw [decide_eq_true_eq]
  rintro rfl
  obtain ⟨t', ht', hexpiry⟩ := h.entry _ (OrderedMap.get?_eq_some hget)
  rw [latestSet_get] at hk
  rw [hk] at ht'
  cases ht'
  have hle := hops _ (List.mem_append_right _ (List.mem_singleton_self _))
  have hle' : monotonic ≤ t + ttl := hle
  exact absurd (hexpiry ▸ hlate) (not_lt.mpr hle')

/-- A call that moves or adds the entry of its key to the end, before the cache is shrunk. -/
theorem Holds.touch (h : Holds ttl max ops ts c) {key : String} {value : V} {t : ℚ}
    {op : CacheOp V} (hlatest : latestSet key (ops ++ [op]) = some (t, value))
    (hothers : ∀ k, k ≠ key → latestSet k (ops ++ [op]) = latestSet k ops)
    {data : List (String × ℚ × V)}
    (hdata : data = OrderedMap.erase c.data key ++ [(key, t + ttl, value)]) :
    Holds ttl max (ops ++ [op]) (ts ++ [key])
      { c with data := data.drop (data.length - max) } := by
  have hrecent : Recency.Recent (ts ++ [key]) (data.map Prod.fst) := by
    rw [hdata, List.map_append, OrderedMap.keys_erase]
    exact h.recent.touch key
  have hsub := List.drop_sublist (data.length - max) data
  refine ⟨h.ttl_eq, h.max_eq, ?_, hrecent.sublist (hsub.map _), fun e he => ?_,
    fun k t' v hk hops hfew => ?_⟩
  · rw [List.length_drop]
    omega
  · have hmem := hsub.subset he
    rw [hdata] at hmem
    rcases List.mem_append.mp hmem with hold | hnew
    · obtain ⟨hold, hne⟩ := OrderedMap.mem_erase.mp hold
      rw [hothers _ hne]
      exact h.entry e hold
    · rw [List.mem_singleton.mp hnew]
      exact ⟨t, hlatest, rfl⟩
  · have hkept : k ∈ data.map Prod.fst := by
      rw [hdata, List.map_append, OrderedMap.keys_erase]
      by_cases hkey : k = key
      · exact List.mem_append_right _ (by simp [hkey])
      · rw [hothers k hkey] at hk
        have hfew' : (Recency.since ts k).card < max :=
          (Finset.card_le_card (Recency.since_subset_touch (Ne.symm hkey))).trans_lt hfew
        have hold := h.present k t' v hk (fun op hop => hops op (List.mem_append_left _ hop)) hfew'
        exact List.mem_append_left _ (List.mem_filter.mpr ⟨hold, by simpa using hkey⟩)
    have hdrop := hrecent.mem_drop hkept hfew
    rwa [List.length_map, ← List.map_drop] at hdrop

/-- What `get` does: it misses, drops an expired entry, or moves the entry to the end. -/
theorem get_cases (c : TTLCache V) (henabled : c.enabled = true) (key : String) (monotonic : ℚ) :
    (OrderedMap.get? c.data key = none ∧ c.get key monotonic = (none, c)) ∨
    (∃ expiresAt value, OrderedMap.get? c.data key = some (expiresAt, value) ∧
      expiresAt < monotonic ∧
      c.get key monotonic = (none, { c with data := OrderedMap.erase c.data key })) ∨
    ∃ expiresAt value, OrderedMap.get? c.data key = some (expiresAt, value) ∧
      monotonic ≤ expiresAt ∧ c.get key monotonic = (some value,
        { c with data := OrderedMap.erase c.data key ++ [(key, expiresAt, value)] }) := by
  unfold TTLCache.get
  simp only [henabled, Bool.not_true, Bool.false_eq_true, if_false]
  cases hget : OrderedMap.get? c.data key with
  | none => exact Or.inl ⟨rfl, rfl⟩
  | some x =>
    obtain ⟨expiresAt, value⟩ := x
    by_cases hlate : expiresAt < monotonic
    · exact Or.inr (Or.inl ⟨expiresAt, value, rfl, hlate, if_pos hlate⟩)
    · exact Or.inr (Or.inr ⟨expiresAt, value, rfl, not_lt.mp hlate, if_neg hlate⟩)

theorem Holds.enabled (h : Holds ttl max ops ts c) (hpos : 0 < ttl) : c.enabled = true := by
  simp [TTLCache.enabled, h.ttl_eq, hpos]

/-- A read that finds an entry which has not expired. -/
theorem Holds.hit (h : Holds ttl max ops ts c) {key : String} {expiresAt : ℚ} {value : V}
    (hget : OrderedMap.get? c.data key = some (expiresAt, value)) (monotonic : ℚ) :
    Holds ttl max (ops ++ [.get key monotonic]) (ts ++ [key])
      { c with data := OrderedMap.erase c.data key ++ [(key, expiresAt, value)] } := by
  have hmem := OrderedMap.get?_eq_some hget
  obtain ⟨t, ht, hexpiry⟩ := h.entry _ hmem
  have hexpiry : expiresAt = t + ttl := hexpiry
  have hshorter : (OrderedMap.erase c.data key).length < c.data.length := by
    refine List.length_filter_lt_length_iff_exists.mpr ⟨_, hmem, by simp⟩
  have hroom := h.length_le
  have htouch := @Holds.touch V ttl max ops ts c h key value t (.get key monotonic)
    ((latestSet_get ..).trans ht) (fun k _ => latestSet_get ..) _ rfl
  have hdrop : (OrderedMap.erase c.data key ++ [(key, t + ttl, value)]).length - max = 0 := by
    rw [List.length_append, List.length_singleton]
    omega
  rw [hdrop, List.drop_zero] at htouch
  rw [hexpiry]
  exact htouch

theorem Holds.set (h : Holds ttl max ops ts c) (hpos : 0 < ttl) (key : String) (value : V)
    (monotonic : ℚ) : Holds ttl max (ops ++ [.set key value monotonic]) (ts ++ [key])
      (c.set key value monotonic) := by
  have hset : c.set key value monotonic = { c with
      data := (OrderedMap.erase c.data key ++ [(key, monotonic + ttl, value)]).drop
        ((OrderedMap.erase c.data key ++ [(key, monotonic + ttl, value)]).length - max) } := by
    simp [TTLCache.set, h.enabled hpos, h.ttl_eq, h.max_eq]
  rw [hset]
  refine h.touch ?_ (fun k hk => ?_) rfl
  · rw [latestSet_append]
    simp [CacheOp.setsKey]
  · rw [latestSet_append]
    simp [CacheOp.setsKey, Ne.symm hk]

/-- What one call does to the cache. -/
theorem Holds.step (h : Holds ttl max ops ts c) (hpos : 0 < ttl) (op : CacheOp V) :
    Holds ttl max (ops ++ [op]) (ts ++ (touchedKey ⟨c, op, (c.step op).1⟩).toList)
      (c.step op).2 := by
  cases op with
  | get key monotonic =>
    unfold TTLCache.step
    rcases get_cases c (h.enabled hpos) key monotonic with
      ⟨-, hget⟩ | ⟨expiresAt, value, hfound, hlate, hget⟩ | ⟨expiresAt, value, hfound, -, hget⟩
    · simpa [hget, touchedKey] using h.miss key monotonic
    · simpa [hget, touchedKey] using h.expire hfound hlate
    · simpa [hget, touchedKey] using h.hit hfound monotonic
  | set key value monotonic => exact h.set hpos key value monotonic

theorem holds_run (hpos : 0 < ttl) (max : ℕ) (ops : List (CacheOp V)) :
    Holds ttl max ops (touches ⟨ttl, max, []⟩ ops)
      (Runs.final TTLCache.step (⟨ttl, max, []⟩ : TTLCache V) ops) := by
  apply Runs.history_induction TTLCache.step
    (P := fun ops c => Holds ttl max ops (touches ⟨ttl, max, []⟩ ops) c)
  · exact holds_empty ttl max
  · intro pre op h
    rw [touches_append]
    exact h.step hpos op

/-- In every run with a clock that does not go back, the cache stays within its size, a value
read is the one set last, no longer than the time to live ago, and is found as long as fewer than
`max` other keys have been set or read since. -/
theorem cache_exact (hpos : 0 < ttl) (max : ℕ) (ops : List (CacheOp V))
    (hclock : ops.Pairwise fun a b => a.monotonic ≤ b.monotonic) :
    (Runs.final TTLCache.step (⟨ttl, max, []⟩ : TTLCache V) ops).data.length ≤ max ∧
    ∀ pre key now post, ops = pre ++ .get key now :: post →
      let reply := ((Runs.final TTLCache.step (⟨ttl, max, []⟩ : TTLCache V) pre).get key now).1
      (∀ value, reply = some value → ∃ t, latestSet key pre = some (t, value) ∧ now ≤ t + ttl) ∧
      ∀ t value, latestSet key pre = some (t, value) → now ≤ t + ttl →
        (Recency.since (touches ⟨ttl, max, []⟩ pre) key).card < max → reply = some value := by
  refine ⟨(holds_run hpos max ops).length_le, ?_⟩
  rintro pre key now post rfl
  have h := holds_run hpos max pre
  have hpast : ∀ op ∈ pre, op.monotonic ≤ now := by
    intro op hop
    exact (List.pairwise_append.mp hclock).2.2 op hop _ (List.mem_cons_self ..)
  generalize Runs.final TTLCache.step (⟨ttl, max, []⟩ : TTLCache V) pre = c at h
  rcases get_cases c (h.enabled hpos) key now with
    ⟨hnone, hget⟩ | ⟨expiresAt, value, hfound, hlate, hget⟩ | ⟨expiresAt, value, hfound, hle, hget⟩
  · rw [hget]
    refine ⟨nofun, fun t value hset hnow hfew => ?_⟩
    have hkey := h.present key t value hset (fun op hop => (hpast op hop).trans hnow) hfew
    obtain ⟨x, hx⟩ := OrderedMap.get?_isSome hkey
    cases hnone.symm.trans hx
  · rw [hget]
    refine ⟨nofun, fun t value' hset hnow _ => ?_⟩
    obtain ⟨t', ht', hexpiry⟩ := h.entry _ (OrderedMap.get?_eq_some hfound)
    cases hset.symm.trans ht'
    have hexpiry : expiresAt = t + ttl := hexpiry
    exact absurd hnow (not_le.mpr (hexpiry ▸ hlate))
  · rw [hget]
    obtain ⟨t, ht, hexpiry⟩ := h.entry _ (OrderedMap.get?_eq_some hfound)
    have hexpiry : expiresAt = t + ttl := hexpiry
    constructor
    · rintro value' hvalue
      cases hvalue
      exact ⟨t, ht, hexpiry ▸ hle⟩
    · intro t' value' hset _ _
      cases hset.symm.trans ht
      rfl

/-- Three keys in a cache of two: the one read in between stays. -/
def twoPlaces : List (CacheOp ℕ) :=
  [.set "a" 1 0, .set "b" 2 1, .get "a" 2, .set "c" 3 3]

theorem cache_exact_twoPlaces :
    (Runs.final TTLCache.step (⟨60, 2, []⟩ : TTLCache ℕ) twoPlaces).data.length ≤ 2 ∧
    ((Runs.final TTLCache.step (⟨60, 2, []⟩ : TTLCache ℕ) twoPlaces).get "a" 60).1 = some 1 := by
  obtain ⟨-, hread⟩ := @cache_exact ℕ 60 (by norm_num) 2
    (twoPlaces ++ [CacheOp.get "a" 60]) (by decide +kernel)
  obtain ⟨hlength, -⟩ := @cache_exact ℕ 60 (by norm_num) 2 twoPlaces (by decide +kernel)
  have hfew : (Recency.since (touches (⟨60, 2, []⟩ : TTLCache ℕ) twoPlaces) "a").card < 2 := by
    decide +kernel
  exact ⟨hlength, (hread twoPlaces "a" 60 [] rfl).2 0 1 rfl (by norm_num) hfew⟩

end GeoPlatform.Api
