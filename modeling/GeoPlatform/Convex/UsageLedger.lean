import GeoPlatform.Convex.Usage

/-! What a batch of usage records adds to the daily rollups: each column of a row grows by what the
accepted records of its key, endpoint and day add to it. -/
namespace GeoPlatform.Convex
open Docs

/-- The batch's cache of keys answers as the table does. -/
def acceptRecord (db : Db) (now : ℕ) (entry : UsageEntry) : Option Accepted :=
  acceptEntry now (keyByIdString db.apiKeys entry.keyId) entry

/-- A column of the daily rollups, and what one record adds to it. -/
structure UsageColumn where
  read : UsageDaily → ℕ
  adds : Accepted → ℕ
  empty : ∀ a, read (emptyRollup a) = 0
  addToRollup : ∀ a r, read (addToRollup a r) = read r + adds a
  merged : ∀ d rollup r, read (mergedRow d rollup r) = read d + read rollup

def totalColumn : UsageColumn where
  read r := r.total
  adds _ := 1
  empty _ := rfl
  addToRollup _ _ := rfl
  merged _ _ _ := rfl

namespace UsageColumn
variable (c : UsageColumn)

/-- The column in the rows of a key, endpoint and day. -/
def sum (k : RollupKey) (t : Table UsageDaily) : ℕ :=
  t.sum fun r => if isUsageRow k r then c.read r else 0

/-- The column in the rollups of a batch. -/
def weight (k : RollupKey) (e : RollupKey × UsageDaily) : ℕ := if e.1 = k then c.read e.2 else 0

def added (k : RollupKey) (accepted : List Accepted) : ℕ :=
  (accepted.map fun a => if a.rollupKey = k then c.adds a else 0).sum

end UsageColumn

/-! ### The loop over a batch -/

/-- The invariant of the loop. -/
structure UsageLoopOk (db : Db) (st : UsageLoop) : Prop where
  keys : ∀ s v, OrderedMap.get? st.keys s = some v → v = keyByIdString db.apiKeys s
  rollups : ∀ e ∈ st.rollups, isUsageRow e.1 e.2 = true

theorem cachedKeys_get {db : Db} {st : UsageLoop} (h : UsageLoopOk db st) (entry : UsageEntry) :
    OrderedMap.get? (cachedKeys db st entry) entry.keyId =
      some (keyByIdString db.apiKeys entry.keyId) := by
  unfold cachedKeys
  split_ifs with hcached
  · obtain ⟨v, hv⟩ := Option.isSome_iff_exists.mp hcached
    rw [hv, h.keys _ v hv]
  · rw [OrderedMap.get?_set, if_pos rfl]

theorem cachedKeys_ok {db : Db} {st : UsageLoop} (h : UsageLoopOk db st) (entry : UsageEntry)
    (s : String) (v : Option (Doc ApiKey))
    (hv : OrderedMap.get? (cachedKeys db st entry) s = some v) :
    v = keyByIdString db.apiKeys s := by
  unfold cachedKeys at hv
  split_ifs at hv
  · exact h.keys s v hv
  · rw [OrderedMap.get?_set] at hv
    split_ifs at hv with hs
    · cases hv
      rw [hs]
    · exact h.keys s v hv

theorem addToRollup_row {a : Accepted} {r : UsageDaily} (h : isUsageRow a.rollupKey r = true) :
    isUsageRow a.rollupKey (addToRollup a r) = true := h

theorem emptyRollup_row (a : Accepted) : isUsageRow a.rollupKey (emptyRollup a) = true := by
  simp [isUsageRow, Accepted.rollupKey, emptyRollup]

theorem mem_of_get? {m : List (RollupKey × UsageDaily)} {k : RollupKey} {r : UsageDaily}
    (h : OrderedMap.get? m k = some r) : (k, r) ∈ m := by
  obtain ⟨e, he, rfl⟩ := Option.map_eq_some_iff.mp h
  have hk : e.1 = k := by simpa using List.find?_some he
  rw [← hk]
  exact List.mem_of_find?_eq_some he

/-- One record adds to the rollups what it adds when it is accepted. -/
theorem usageStep_spec (c : UsageColumn) {db : Db} {st : UsageLoop} (h : UsageLoopOk db st)
    (now : ℕ) (entry : UsageEntry) (k : RollupKey) :
    UsageLoopOk db (usageStep db now st entry) ∧
      ((usageStep db now st entry).rollups.map (c.weight k)).sum =
        (st.rollups.map (c.weight k)).sum + c.added k (acceptRecord db now entry).toList := by
  have hkeys := cachedKeys_ok h entry
  unfold usageStep
  simp only [cachedKeys_get h entry, Option.join_some]
  cases ha : acceptEntry now (keyByIdString db.apiKeys entry.keyId) entry with
  | none =>
    refine ⟨⟨hkeys, h.rollups⟩, ?_⟩
    simp [acceptRecord, ha, UsageColumn.added]
  | some a =>
    have hset := OrderedMap.sum_set st.rollups a.rollupKey
      (addToRollup a ((OrderedMap.get? st.rollups a.rollupKey).getD (emptyRollup a))) (c.weight k)
    have hrow : isUsageRow a.rollupKey
        ((OrderedMap.get? st.rollups a.rollupKey).getD (emptyRollup a)) = true := by
      cases hr : OrderedMap.get? st.rollups a.rollupKey with
      | none => exact emptyRollup_row a
      | some r => exact h.rollups _ (mem_of_get? hr)
    constructor
    · refine ⟨hkeys, fun e he => ?_⟩
      rcases OrderedMap.mem_set he with rfl | he
      · exact addToRollup_row hrow
      · exact h.rollups e he
    · have hadded : c.added k (acceptRecord db now entry).toList =
          if a.rollupKey = k then c.adds a else 0 := by
        simp [acceptRecord, ha, UsageColumn.added]
      rw [hadded]
      simp only [UsageColumn.weight] at hset ⊢
      cases hr : OrderedMap.get? st.rollups a.rollupKey with
      | none =>
        simp only [hr, Option.map_none, Option.getD_none, c.addToRollup, c.empty] at hset ⊢
        split_ifs at hset ⊢ <;> omega
      | some r =>
        simp only [hr, Option.map_some, Option.getD_some, c.addToRollup] at hset ⊢
        split_ifs at hset ⊢ <;> omega

theorem usageLoop_spec (c : UsageColumn) {db : Db} {st : UsageLoop} (h : UsageLoopOk db st)
    (now : ℕ) (entries : List UsageEntry) (k : RollupKey) :
    UsageLoopOk db (entries.foldl (usageStep db now) st) ∧
      ((entries.foldl (usageStep db now) st).rollups.map (c.weight k)).sum =
        (st.rollups.map (c.weight k)).sum +
          c.added k (entries.filterMap (acceptRecord db now)) := by
  induction entries generalizing st with
  | nil => exact ⟨h, rfl⟩
  | cons entry entries ih =>
    obtain ⟨hok, hsum⟩ := usageStep_spec c h now entry k
    obtain ⟨hrest, hrestsum⟩ := ih hok
    refine ⟨hrest, ?_⟩
    rw [List.foldl_cons, hrestsum, hsum, Nat.add_assoc]
    congr 1
    cases ha : acceptRecord db now entry <;> simp [UsageColumn.added, ha]

/-! ### The merge -/

/-- A row has one key, endpoint and day. -/
theorem isUsageRow_iff {k : RollupKey} {r : UsageDaily} (h : isUsageRow k r = true)
    (j : RollupKey) : isUsageRow j r = true ↔ k = j := by
  simp only [isUsageRow, Bool.and_eq_true, decide_eq_true_eq] at h ⊢
  obtain ⟨⟨hkey, hendpoint⟩, hday⟩ := h
  constructor
  · rintro ⟨⟨hkey', hendpoint'⟩, hday'⟩
    rw [RollupKey.mk.injEq]
    exact ⟨hkey.symm.trans hkey', hendpoint.symm.trans hendpoint', hday.symm.trans hday'⟩
  · rintro rfl
    exact ⟨⟨hkey, hendpoint⟩, hday⟩

theorem mergeRollup_sum (c : UsageColumn) {t t' : Table UsageDaily} {k : RollupKey}
    {rollup : UsageDaily} (hrow : isUsageRow k rollup = true) (h : mergeRollup t k rollup = .ok t')
    (j : RollupKey) : c.sum j t' = c.sum j t + c.weight j (k, rollup) := by
  unfold mergeRollup at h
  split at h
  · cases h
  · rename_i d hd
    cases h
    have hpatch := Table.sum_patch (Table.get_of_unique hd) (mergedRow d.val rollup)
      fun r => if isUsageRow j r then c.read r else 0
    have hsame : isUsageRow j (mergedRow d.val rollup d.val) = isUsageRow j d.val := rfl
    simp only [hsame, isUsageRow_iff (Table.unique_mem hd).2 j, c.merged] at hpatch
    simp only [UsageColumn.sum, UsageColumn.weight]
    split_ifs at hpatch ⊢ <;> omega
  · cases h
    simp only [UsageColumn.sum, UsageColumn.weight, Table.sum_insert, isUsageRow_iff hrow j]

theorem mergeRollups_sum (c : UsageColumn) {t t' : Table UsageDaily}
    {rollups : List (RollupKey × UsageDaily)} (hrows : ∀ e ∈ rollups, isUsageRow e.1 e.2 = true)
    (h : mergeRollups t rollups = .ok t') (j : RollupKey) :
    c.sum j t' = c.sum j t + (rollups.map (c.weight j)).sum := by
  induction rollups generalizing t with
  | nil =>
    cases h
    rfl
  | cons e rollups ih =>
    obtain ⟨t₁, hfirst, hrest⟩ := except_bind_ok.mp h
    have hmerged := mergeRollup_sum c (hrows e (by simp)) hfirst j
    have hall := ih (fun e' he' => hrows e' (List.mem_cons_of_mem _ he')) hrest
    rw [hall, hmerged, List.map_cons, List.sum_cons, Nat.add_assoc]

/-- A committed batch adds to each column of each row what its accepted records add. -/
theorem recordUsage_column (c : UsageColumn) {now : ℕ} {entries : List UsageEntry} {db db' : Db}
    {reply : UsageReply} (h : recordUsage now entries db = .ok (reply, db')) (k : RollupKey) :
    c.sum k db'.usageDaily = c.sum k db.usageDaily +
      c.added k ((entries.take MAX_USAGE_ENTRIES).filterMap (acceptRecord db now)) := by
  obtain ⟨usageDaily, hmerge, h⟩ := except_bind_ok.mp h
  cases h
  have hstart : UsageLoopOk db { apiRequests := db.apiRequests } := by
    constructor
    · intro s v hv
      cases hv
    · intro e he
      cases he
  obtain ⟨hok, hsum⟩ := usageLoop_spec c hstart now (entries.take MAX_USAGE_ENTRIES) k
  rw [mergeRollups_sum c hok.rollups hmerge k, hsum]
  simp

end GeoPlatform.Convex
