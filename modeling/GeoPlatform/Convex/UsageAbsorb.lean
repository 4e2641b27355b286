import GeoPlatform.Convex.UsageLedger
import GeoPlatform.Library.UniqueRows

/-! What a batch of usage records is for, one record at a time. An accepted record is stored,
counted in the row of its key, endpoint and day, and moves its key's last use forward. A batch that
rolls its records up first and merges the rollups afterwards leaves the same database. -/
namespace GeoPlatform.Convex
open Docs

/-! ### One record -/

def ApiRequest.rollupKey (r : ApiRequest) : RollupKey :=
  ⟨r.apiKeyId, r.endpoint, utcDay r.timestamp⟩

def ApiRequest.failed (r : ApiRequest) : Bool := FAILED_STATUS_FROM ≤ r.statusCode

/-- The daily row of a single record. -/
def ApiRequest.row (r : ApiRequest) : UsageDaily where
  userId := r.userId
  apiKeyId := r.apiKeyId
  endpoint := r.endpoint
  day := utcDay r.timestamp
  total := 1
  successful := if r.failed then 0 else 1
  failed := if r.failed then 1 else 0
  totalResponseTimeMs := r.responseTimeMs

def countRow (t : Table UsageDaily) (r : ApiRequest) : Table UsageDaily :=
  match t.unique (isUsageRow r.rollupKey) with
  | .one d => t.patch d.id (mergedRow d.val r.row)
  | _ => t.insert r.row

def touchedAt (timestamp : ℚ) (k : ApiKey) : ApiKey :=
  if k.lastUsedAt.getD 0 < timestamp then { k with lastUsedAt := some timestamp } else k

def touch (t : Table ApiKey) (r : ApiRequest) : Table ApiKey :=
  t.patch r.apiKeyId (touchedAt r.timestamp)

def absorb (db : Db) (r : ApiRequest) : Db :=
  { db with
    apiRequests := db.apiRequests.insert r
    usageDaily := countRow db.usageDaily r
    apiKeys := touch db.apiKeys r }

/-! ### Rows are unique -/

/-- A key, endpoint and day has one row at most. -/
def OneRow (t : Table UsageDaily) : Prop := ∀ k, (t.query (isUsageRow k)).length ≤ 1

theorem OneRow.cases {t : Table UsageDaily} (h : OneRow t) (k : RollupKey) :
    t.unique (isUsageRow k) = .none ∨ ∃ d, t.unique (isUsageRow k) = .one d :=
  Table.AtMostOne.cases h k

theorem isUsageRow_separates : Table.Separates isUsageRow := fun _ _ _ hj hk =>
  (isUsageRow_iff hj _).mp hk

theorem isUsageRow_merged (k : RollupKey) (d rollup r : UsageDaily) :
    isUsageRow k (mergedRow d rollup r) = isUsageRow k r := rfl

theorem isUsageRow_row (r : ApiRequest) : isUsageRow r.rollupKey r.row = true := by
  simp [isUsageRow, ApiRequest.rollupKey, ApiRequest.row]

/-- A merged rollup leaves the rows of other keys, endpoints and days. -/
theorem mergeRollup_row {t t' : Table UsageDaily} {k : RollupKey} {rollup : UsageDaily}
    (hrow : isUsageRow k rollup = true) (h : mergeRollup t k rollup = .ok t') :
    ((t.unique (isUsageRow k) = .none ∧
        t'.query (isUsageRow k) = [⟨t.nextId, rollup⟩]) ∨
      ∃ d, t.unique (isUsageRow k) = .one d ∧
        t'.query (isUsageRow k) = [⟨d.id, mergedRow d.val rollup d.val⟩]) ∧
    ∀ j ≠ k, t'.query (isUsageRow j) = t.query (isUsageRow j) := by
  unfold mergeRollup at h
  split at h
  · cases h
  · rename_i d hd
    cases h
    refine ⟨Or.inr ⟨d, hd, ?_⟩, fun j hj => ?_⟩
    · rw [Table.query_patch (isUsageRow_merged k d.val rollup), Table.unique_one hd]
      simp
    · rw [Table.query_patch (isUsageRow_merged j d.val rollup)]
      refine (List.map_congr_left fun e he => if_neg fun hid => hj ?_).trans (List.map_id' _)
      obtain ⟨hmem, hej⟩ := Table.mem_query.mp he
      have hed : e = d := Table.eq_of_id hmem (Table.unique_mem hd).1 hid
      rw [hed] at hej
      exact ((isUsageRow_iff (Table.unique_mem hd).2 j).mp hej).symm
  · rename_i hnone
    cases h
    refine ⟨Or.inl ⟨hnone, ?_⟩, fun j hj => ?_⟩
    · rw [Table.query_insert, Table.unique_none hnone, if_pos hrow, List.nil_append]
    · have hother : ¬ isUsageRow j rollup = true := fun h =>
        hj ((isUsageRow_iff hrow j).mp h).symm
      rw [Table.query_insert, if_neg hother, List.append_nil]

theorem OneRow.merge {t t' : Table UsageDaily} (ht : OneRow t) {k : RollupKey}
    {rollup : UsageDaily} (hrow : isUsageRow k rollup = true)
    (h : mergeRollup t k rollup = .ok t') : OneRow t' := by
  unfold mergeRollup at h
  split at h
  · cases h
  · rename_i d hd
    cases h
    exact Table.AtMostOne.patch ht (fun j r => isUsageRow_merged j d.val rollup r) d.id
  · rename_i hnone
    cases h
    exact Table.AtMostOne.insert ht isUsageRow_separates hrow hnone

/-- Where rows are unique, counting a record is merging its row. -/
theorem mergeRollup_countRow {t : Table UsageDaily} (ht : OneRow t) (r : ApiRequest) :
    mergeRollup t r.rollupKey r.row = .ok (countRow t r) := by
  unfold mergeRollup countRow
  rcases ht.cases r.rollupKey with h | ⟨d, h⟩ <;> simp only [h]

theorem OneRow.countRow {t : Table UsageDaily} (ht : OneRow t) (r : ApiRequest) :
    OneRow (countRow t r) :=
  ht.merge (isUsageRow_row r) (mergeRollup_countRow ht r)

theorem OneRow.foldl {t : Table UsageDaily} (ht : OneRow t) (rs : List ApiRequest) :
    OneRow (rs.foldl GeoPlatform.Convex.countRow t) := by
  induction rs generalizing t with
  | nil => exact ht
  | cons r rs ih => exact ih (ht.countRow r)

/-! ### Merging a rollup is counting its records -/

theorem mergedRow_mergedRow (d rollup row r : UsageDaily) :
    mergedRow (mergedRow d rollup d) row (mergedRow d rollup r) =
      mergedRow d (mergedRow rollup row rollup) r := by
  simp [mergedRow, Nat.add_assoc]

theorem countRow_one {t : Table UsageDaily} {r : ApiRequest} {d : Doc UsageDaily}
    (h : t.query (isUsageRow r.rollupKey) = [d]) :
    countRow t r = t.patch d.id (mergedRow d.val r.row) := by
  simp only [countRow, Table.unique_eq_one.mpr h]

/-- A rollup with one more record merges to what counting that record last gives. -/
theorem mergeRollup_more {t u : Table UsageDaily} {r : ApiRequest} {rollup : UsageDaily}
    (hrow : isUsageRow r.rollupKey rollup = true)
    (h : mergeRollup t r.rollupKey rollup = .ok u) :
    mergeRollup t r.rollupKey (mergedRow rollup r.row rollup) = .ok (countRow u r) := by
  rcases (mergeRollup_row hrow h).1 with ⟨hnone, hq⟩ | ⟨d, hone, hq⟩
  · have hu : t.insert rollup = u := by
      simpa only [mergeRollup, hnone, Except.ok.injEq] using h
    rw [countRow_one hq, ← hu, Table.patch_insert_self]
    simp only [mergeRollup, hnone]
  · have hu : t.patch d.id (mergedRow d.val rollup) = u := by
      simpa only [mergeRollup, hone, Except.ok.injEq] using h
    rw [countRow_one hq, ← hu, Table.patch_patch]
    simp only [mergeRollup, hone, mergedRow_mergedRow]

/-- Once the row of a record exists, the record may be counted before the other rollups. -/
theorem mergeRollup_countRow_comm {t u : Table UsageDaily} {r : ApiRequest} {d : Doc UsageDaily}
    (hd : t.query (isUsageRow r.rollupKey) = [d]) {k : RollupKey} (hk : k ≠ r.rollupKey)
    {rollup : UsageDaily} (hrow : isUsageRow k rollup = true)
    (h : mergeRollup t k rollup = .ok u) :
    u.query (isUsageRow r.rollupKey) = [d] ∧
      mergeRollup (countRow t r) k rollup = .ok (countRow u r) := by
  have hkeep : u.query (isUsageRow r.rollupKey) = [d] :=
    ((mergeRollup_row hrow h).2 _ hk.symm).trans hd
  have hself : mergeRollup t r.rollupKey r.row = .ok (countRow t r) := by
    simp only [mergeRollup, countRow, Table.unique_eq_one.mpr hd]
  have hquery : (countRow t r).query (isUsageRow k) = t.query (isUsageRow k) :=
    (mergeRollup_row (isUsageRow_row r) hself).2 k hk
  refine ⟨hkeep, ?_⟩
  rw [countRow_one hkeep]
  rw [countRow_one hd] at hquery ⊢
  have hmem : d ∈ t.docs := (Table.mem_query.mp (hd ▸ List.mem_singleton_self d)).1
  unfold mergeRollup at h
  split at h
  · cases h
  · rename_i e he
    cases h
    have hne : d.id ≠ e.id := by
      intro hid
      have hde : d = e := Table.eq_of_id hmem (Table.unique_mem he).1 hid
      have hrowd := (Table.mem_query.mp (hd ▸ List.mem_singleton_self d)).2
      rw [hde] at hrowd
      exact hk ((isUsageRow_iff hrowd k).mp (Table.unique_mem he).2).symm
    have hone := Table.unique_eq_one.mpr (hquery.trans (Table.unique_one he))
    simp only [mergeRollup, hone]
    rw [Table.patch_comm hne]
  · rename_i hnone
    cases h
    have hempty := Table.unique_eq_none.mpr (hquery.trans (Table.unique_none hnone))
    simp only [mergeRollup, hempty]
    rw [Table.patch_insert (t.bounded d hmem).ne]

theorem mergeRollups_countRow_comm {t u : Table UsageDaily} {r : ApiRequest}
    {d : Doc UsageDaily} (ht : OneRow t) (hd : t.query (isUsageRow r.rollupKey) = [d])
    {rollups : List (RollupKey × UsageDaily)}
    (hrows : ∀ e ∈ rollups, e.1 ≠ r.rollupKey ∧ isUsageRow e.1 e.2 = true)
    (h : mergeRollups t rollups = .ok u) :
    mergeRollups (countRow t r) rollups = .ok (countRow u r) := by
  induction rollups generalizing t with
  | nil =>
    cases h
    rfl
  | cons e rollups ih =>
    obtain ⟨t₁, hfirst, hrest⟩ := except_bind_ok.mp h
    obtain ⟨hne, hrow⟩ := hrows e (by simp)
    obtain ⟨hd₁, hcomm⟩ := mergeRollup_countRow_comm hd hne hrow hfirst
    simp only [mergeRollups, hcomm]
    exact ih (ht.merge hrow hfirst) hd₁
      (fun e' he' => hrows e' (List.mem_cons_of_mem _ he')) hrest

/-- The rollups of a loop: distinct keys, each with a row of its key. -/
structure RollupsOk (rollups : List (RollupKey × UsageDaily)) : Prop where
  nodup : (rollups.map Prod.fst).Nodup
  rows : ∀ e ∈ rollups, isUsageRow e.1 e.2 = true

/-- The row a record finds in the rollups, with the record added. -/
def rolledUp (rollups : List (RollupKey × UsageDaily)) (r : ApiRequest) : UsageDaily :=
  match OrderedMap.get? rollups r.rollupKey with
  | some rollup => mergedRow rollup r.row rollup
  | none => r.row

/-- A record added to the rollups is counted after them. -/
theorem mergeRollups_set {t u : Table UsageDaily} (ht : OneRow t)
    {rollups : List (RollupKey × UsageDaily)} (hok : RollupsOk rollups) (r : ApiRequest)
    (h : mergeRollups t rollups = .ok u) :
    mergeRollups t (OrderedMap.set rollups r.rollupKey (rolledUp rollups r)) =
      .ok (countRow u r) := by
  induction rollups generalizing t with
  | nil =>
    cases h
    simp only [OrderedMap.set, rolledUp, OrderedMap.get?_nil, mergeRollups,
      mergeRollup_countRow ht r]
    rfl
  | cons e rollups ih =>
    obtain ⟨t₁, hfirst, hrest⟩ := except_bind_ok.mp h
    have hrow := hok.rows e (by simp)
    have ht₁ := ht.merge hrow hfirst
    obtain ⟨hnot, hnodup⟩ := List.nodup_cons.mp hok.nodup
    have hrows : ∀ e' ∈ rollups, isUsageRow e'.1 e'.2 = true :=
      fun e' he' => hok.rows e' (List.mem_cons_of_mem _ he')
    by_cases he : e.1 = r.rollupKey
    · have hget : OrderedMap.get? (e :: rollups) r.rollupKey = some e.2 := by
        simp [OrderedMap.get?, he]
      rw [he] at hfirst hrow
      have hmore := mergeRollup_more hrow hfirst
      obtain ⟨d, hd⟩ : ∃ d, t₁.query (isUsageRow r.rollupKey) = [d] := by
        rcases (mergeRollup_row hrow hfirst).1 with ⟨-, hq⟩ | ⟨d, -, hq⟩
        · exact ⟨_, hq⟩
        · exact ⟨_, hq⟩
      simp only [OrderedMap.set, he, if_true, rolledUp, hget, mergeRollups, hmore]
      refine mergeRollups_countRow_comm ht₁ hd (fun e' he' => ⟨fun hkey => hnot ?_, hrows e' he'⟩)
        hrest
      rw [he, ← hkey]
      exact List.mem_map_of_mem he'
    · have hget : rolledUp (e :: rollups) r = rolledUp rollups r := by
        simp [rolledUp, OrderedMap.get?, he]
      simp only [OrderedMap.set, he, if_false, mergeRollups, hfirst, hget]
      exact ih ht₁ ⟨hnodup, hrows⟩ hrest

/-! ### The last uses of a batch -/

/-- No key was used before 1970. -/
def UsedAfterEpoch (t : Table ApiKey) : Prop :=
  ∀ i k, t.get i = some k → 0 ≤ k.lastUsedAt.getD 0

def touchAll (t : Table ApiKey) (lastUsed : List (ℕ × ℚ)) : Table ApiKey :=
  lastUsed.foldl (fun t e => t.patch e.1 (touchedAt e.2)) t

theorem touchedAt_touchedAt (s t : ℚ) (k : ApiKey) :
    touchedAt t (touchedAt s k) = touchedAt (max s t) k := by
  unfold touchedAt
  by_cases hs : k.lastUsedAt.getD 0 < s
  · have hmax : k.lastUsedAt.getD 0 < max s t := lt_max_of_lt_left hs
    by_cases ht : s < t
    · simp [hs, ht, max_eq_right ht.le, hs.trans ht]
    · simp [hs, ht, max_eq_left (not_lt.mp ht)]
  · by_cases ht : k.lastUsedAt.getD 0 < t
    · have hst : s ≤ t := (not_lt.mp hs).trans ht.le
      simp [hs, ht, max_eq_right hst]
    · simp [hs, ht]

theorem touchAll_patch_comm {i : ℕ} {lastUsed : List (ℕ × ℚ)} (h : ∀ e ∈ lastUsed, e.1 ≠ i)
    (t : Table ApiKey) (f : ApiKey → ApiKey) :
    touchAll (t.patch i f) lastUsed = (touchAll t lastUsed).patch i f := by
  induction lastUsed generalizing t with
  | nil => rfl
  | cons e lastUsed ih =>
    have hrest := ih (fun e' he' => h e' (List.mem_cons_of_mem _ he')) (t.patch e.1 (touchedAt e.2))
    have hfirst := Table.patch_comm (t := t) (h e (by simp)) (touchedAt e.2) f
    simp only [touchAll, List.foldl_cons] at hrest ⊢
    rw [← hfirst, hrest]

/-- A later use joined to the batch is a touch after it. -/
theorem touchAll_set {lastUsed : List (ℕ × ℚ)} (hnodup : (lastUsed.map Prod.fst).Nodup)
    {t : Table ApiKey} {i : ℕ} (hpos : ∀ k, t.get i = some k → 0 ≤ k.lastUsedAt.getD 0)
    (timestamp : ℚ) :
    touchAll t (OrderedMap.set lastUsed i
        (max ((OrderedMap.get? lastUsed i).getD 0) timestamp)) =
      (touchAll t lastUsed).patch i (touchedAt timestamp) := by
  induction lastUsed generalizing t with
  | nil =>
    refine Table.patch_congr fun k hk => ?_
    have hk0 := hpos k hk
    simp only [touchedAt, OrderedMap.get?_nil, Option.getD_none]
    by_cases ht : k.lastUsedAt.getD 0 < timestamp
    · have h0 : 0 ≤ timestamp := hk0.trans ht.le
      simp [ht, max_eq_right h0]
    · have hmax : ¬ k.lastUsedAt.getD 0 < max 0 timestamp := not_lt.mpr (max_le hk0 (not_lt.mp ht))
      simp only [ht, hmax, if_false]
  | cons e lastUsed ih =>
    obtain ⟨hnot, hnodup⟩ := List.nodup_cons.mp hnodup
    by_cases he : e.1 = i
    · have hother : ∀ e' ∈ lastUsed, e'.1 ≠ i := fun e' he' hkey =>
        hnot (by rw [he, ← hkey]; exact List.mem_map_of_mem he')
      have hget : OrderedMap.get? (e :: lastUsed) i = some e.2 := by simp [OrderedMap.get?, he]
      have hcomm := touchAll_patch_comm hother (t.patch i (touchedAt e.2)) (touchedAt timestamp)
      simp only [OrderedMap.set, he, if_true, hget, Option.getD_some, touchAll,
        List.foldl_cons] at hcomm ⊢
      rw [← hcomm, Table.patch_patch]
      simp only [touchedAt_touchedAt]
    · have hget : OrderedMap.get? (e :: lastUsed) i = OrderedMap.get? lastUsed i := by
        simp [OrderedMap.get?, he]
      have hrest := @ih hnodup (t.patch e.1 (touchedAt e.2)) fun k hk =>
        hpos k (by rwa [Table.get_patch_of_ne _ (Ne.symm he)] at hk)
      simp only [OrderedMap.set, he, if_false, hget, touchAll, List.foldl_cons] at hrest ⊢
      exact hrest

/-- Every use is of a key the batch has read, as the table has it. -/
def ReadKeys (keys : List (String × Option (Doc ApiKey))) (t : Table ApiKey)
    (lastUsed : List (ℕ × ℚ)) : Prop :=
  ∀ e ∈ lastUsed, ∃ d, OrderedMap.get? keys (toString e.1) = some (some d) ∧
    t.get e.1 = some d.val

theorem foldl_touchKey {keys : List (String × Option (Doc ApiKey))} {lastUsed : List (ℕ × ℚ)}
    (hnodup : (lastUsed.map Prod.fst).Nodup) {t : Table ApiKey} (h : ReadKeys keys t lastUsed) :
    lastUsed.foldl (touchKey keys) t = touchAll t lastUsed := by
  induction lastUsed generalizing t with
  | nil => rfl
  | cons e lastUsed ih =>
    obtain ⟨hnot, hnodup⟩ := List.nodup_cons.mp hnodup
    obtain ⟨d, hread, hget⟩ := h e (by simp)
    have hfirst : touchKey keys t e = t.patch e.1 (touchedAt e.2) := by
      simp only [touchKey, hread, Option.join_some]
      split_ifs with hlate
      · refine Table.patch_congr fun k hk => ?_
        cases hget.symm.trans hk
        simp [touchedAt, hlate]
      · have hsame := @Table.patch_congr _ t e.1 (touchedAt e.2) id fun k hk => by
          cases hget.symm.trans hk
          simp [touchedAt, hlate]
        rw [hsame]
        exact (Table.ext (by simp [Table.patch]) rfl)
    simp only [List.foldl_cons, hfirst, touchAll]
    refine ih hnodup fun e' he' => ?_
    have hne : e'.1 ≠ e.1 := fun hkey => hnot (hkey ▸ List.mem_map_of_mem he')
    obtain ⟨d', hread', hget'⟩ := h e' (List.mem_cons_of_mem _ he')
    exact ⟨d', hread', by rw [Table.get_patch_of_ne _ hne, hget']⟩

/-! ### The loop -/

/-- The records of a batch that are kept, as they are stored. -/
def acceptedRequests (db : Db) (now : ℕ) (entries : List UsageEntry) : List ApiRequest :=
  (entries.filterMap (acceptRecord db now)).map Accepted.request

/-- What the loop over a batch has gathered, for the records `rs` it kept. -/
structure LoopAbsorbs (db : Db) (st : UsageLoop) (rs : List ApiRequest) : Prop where
  cache : UsageLoopOk db st
  apiRequests : st.apiRequests = rs.foldl Table.insert db.apiRequests
  written : st.written = rs.length
  rollups : RollupsOk st.rollups
  merged : ∀ t, OneRow t → mergeRollups t st.rollups = .ok (rs.foldl countRow t)
  nodup : (st.lastUsed.map Prod.fst).Nodup
  read : ReadKeys st.keys db.apiKeys st.lastUsed
  touched : ∀ t, UsedAfterEpoch t → touchAll t st.lastUsed = rs.foldl touch t

theorem UsedAfterEpoch.touch {t : Table ApiKey} (ht : UsedAfterEpoch t) (r : ApiRequest) :
    UsedAfterEpoch (touch t r) := by
  intro i k hk
  by_cases hi : i = r.apiKeyId
  · rw [hi, GeoPlatform.Convex.touch, Table.get_patch_self, Option.map_eq_some_iff] at hk
    obtain ⟨k₀, hk₀, rfl⟩ := hk
    have h0 := ht _ k₀ hk₀
    unfold touchedAt
    split_ifs with hlate
    · exact h0.trans hlate.le
    · exact h0
  · rw [GeoPlatform.Convex.touch, Table.get_patch_of_ne _ hi] at hk
    exact ht i k hk

theorem UsedAfterEpoch.foldl {t : Table ApiKey} (ht : UsedAfterEpoch t) (rs : List ApiRequest) :
    UsedAfterEpoch (rs.foldl GeoPlatform.Convex.touch t) := by
  induction rs generalizing t with
  | nil => exact ht
  | cons r rs ih => exact ih (ht.touch r)

theorem loopAbsorbs_nil (db : Db) : LoopAbsorbs db { apiRequests := db.apiRequests } [] where
  cache := ⟨fun _ _ hv => (nomatch hv), fun _ he => (nomatch he)⟩
  apiRequests := rfl
  written := rfl
  rollups := ⟨List.nodup_nil, fun _ he => (nomatch he)⟩
  merged _ _ := rfl
  nodup := List.nodup_nil
  read _ he := nomatch he
  touched _ _ := rfl

/-- The key of an accepted record is the one its id names. -/
theorem acceptRecord_key {db : Db} {now : ℕ} {entry : UsageEntry} {a : Accepted}
    (h : acceptRecord db now entry = some a) :
    entry.keyId = toString a.key.id ∧ keyByIdString db.apiKeys entry.keyId = some a.key ∧
      db.apiKeys.get a.key.id = some a.key.val := by
  unfold acceptRecord acceptEntry at h
  simp only [Option.bind_eq_bind, Option.bind_eq_some_iff, Option.pure_def] at h
  obtain ⟨key, hkey, -, -, -, -, statusCode, -, timestamp, -, h⟩ := h
  cases h
  have hname : toString key.id = entry.keyId := by simpa using List.find?_some hkey
  exact ⟨hname.symm, hkey, Table.get_of_mem (List.mem_of_find?_eq_some hkey)⟩

theorem rolledUp_accepted (rollups : List (RollupKey × UsageDaily)) (a : Accepted) :
    addToRollup a ((OrderedMap.get? rollups a.rollupKey).getD (emptyRollup a)) =
      rolledUp rollups a.request := by
  have hkey : a.request.rollupKey = a.rollupKey := rfl
  unfold rolledUp
  rw [hkey]
  cases OrderedMap.get? rollups a.rollupKey with
  | some rollup => rfl
  | none =>
    have hfailed : a.request.failed = a.failed := rfl
    simp only [Option.getD_none, addToRollup, emptyRollup, ApiRequest.row, hfailed, Nat.zero_add]
    rfl

theorem cachedKeys_get_of_some {db : Db} {st : UsageLoop} {entry : UsageEntry} {s : String}
    {v : Option (Doc ApiKey)} (h : OrderedMap.get? st.keys s = some v) :
    OrderedMap.get? (cachedKeys db st entry) s = some v := by
  unfold cachedKeys
  split_ifs with hcached
  · exact h
  · rw [OrderedMap.get?_set]
    split_ifs with hs
    · rw [← hs, h] at hcached
      exact absurd rfl hcached
    · exact h

/-- One entry more: it is dropped, or joins the records kept. -/
theorem usageStep_absorbs {db : Db} {st : UsageLoop} {rs : List ApiRequest}
    (h : LoopAbsorbs db st rs) (now : ℕ) (entry : UsageEntry) :
    LoopAbsorbs db (usageStep db now st entry) (rs ++ acceptedRequests db now [entry]) := by
  have hcache := (usageStep_spec totalColumn h.cache now entry ⟨0, "", utcDay 0⟩).1
  have hread : ∀ e ∈ st.lastUsed, ∃ d,
      OrderedMap.get? (cachedKeys db st entry) (toString e.1) = some (some d) ∧
        db.apiKeys.get e.1 = some d.val := by
    intro e he
    obtain ⟨d, hd, hget⟩ := h.read e he
    exact ⟨d, cachedKeys_get_of_some hd, hget⟩
  unfold usageStep at hcache ⊢
  simp only [cachedKeys_get h.cache entry, Option.join_some] at hcache ⊢
  cases ha : acceptEntry now (keyByIdString db.apiKeys entry.keyId) entry with
  | none =>
    have hnone : acceptedRequests db now [entry] = [] := by
      simp [acceptedRequests, acceptRecord, ha]
    simp only [ha] at hcache
    rw [hnone, List.append_nil]
    exact ⟨hcache, h.apiRequests, h.written, h.rollups, h.merged, h.nodup, hread, h.touched⟩
  | some a =>
    have hone : acceptedRequests db now [entry] = [a.request] := by
      simp [acceptedRequests, acceptRecord, ha]
    obtain ⟨hname, hfind, hget⟩ := acceptRecord_key ha
    have hrollups : RollupsOk (OrderedMap.set st.rollups a.rollupKey
        (addToRollup a ((OrderedMap.get? st.rollups a.rollupKey).getD (emptyRollup a)))) := by
      simp only [ha] at hcache
      exact ⟨OrderedMap.nodup_set h.rollups.nodup _ _, hcache.rollups⟩
    simp only [ha] at hcache ⊢
    rw [hone]
    refine ⟨hcache, ?_, ?_, hrollups, fun t ht => ?_, OrderedMap.nodup_set h.nodup _ _, ?_,
      fun t ht => ?_⟩
    · simp only [h.apiRequests, List.foldl_append, List.foldl_cons, List.foldl_nil]
    · simp only [h.written, List.length_append, List.length_singleton]
    · simp only [rolledUp_accepted, List.foldl_append]
      exact mergeRollups_set ht h.rollups a.request (h.merged t ht)
    · intro e he
      rcases OrderedMap.mem_set he with rfl | he
      · refine ⟨a.key, ?_, hget⟩
        rw [← hname, cachedKeys_get h.cache entry, hfind]
      · exact hread e he
    · rw [touchAll_set h.nodup (fun k hk => ht _ k hk), h.touched t ht, List.foldl_append]
      rfl

theorem usageLoop_absorbs {db : Db} {st : UsageLoop} {rs : List ApiRequest}
    (h : LoopAbsorbs db st rs) (now : ℕ) (entries : List UsageEntry) :
    LoopAbsorbs db (entries.foldl (usageStep db now) st)
      (rs ++ acceptedRequests db now entries) := by
  induction entries generalizing st rs with
  | nil => simpa [acceptedRequests] using h
  | cons entry entries ih =>
    have hrest := ih (usageStep_absorbs h now entry)
    have happend : acceptedRequests db now (entry :: entries) =
        acceptedRequests db now [entry] ++ acceptedRequests db now entries := by
      cases ha : acceptRecord db now entry <;> simp [acceptedRequests, ha]
    rw [happend, ← List.append_assoc]
    exact hrest

theorem foldl_absorb (db : Db) (rs : List ApiRequest) :
    rs.foldl absorb db = { db with
      apiRequests := rs.foldl Table.insert db.apiRequests
      usageDaily := rs.foldl countRow db.usageDaily
      apiKeys := rs.foldl touch db.apiKeys } := by
  induction rs generalizing db with
  | nil => rfl
  | cons r rs ih => simp only [List.foldl_cons, ih, absorb]

/-- A batch commits and takes in the records it keeps one after the other. -/
theorem recordUsage_eq {db : Db} (hrows : OneRow db.usageDaily)
    (hused : UsedAfterEpoch db.apiKeys) (now : ℕ) (entries : List UsageEntry) :
    let rs := acceptedRequests db now (entries.take MAX_USAGE_ENTRIES)
    recordUsage now entries db =
      .ok (⟨rs.length, entries.length - rs.length⟩, rs.foldl absorb db) := by
  have h := usageLoop_absorbs (loopAbsorbs_nil db) now (entries.take MAX_USAGE_ENTRIES)
  rw [List.nil_append] at h
  simp only [recordUsage, h.merged _ hrows, bind, Except.bind, pure, Except.pure, h.written,
    h.apiRequests, foldl_touchKey h.nodup h.read, h.touched _ hused, foldl_absorb]

/-! ### A batch in parts -/

theorem keyByIdString_touch (t : Table ApiKey) (r : ApiRequest) (s : String) :
    keyByIdString (touch t r) s = (keyByIdString t s).map fun d =>
      if d.id = r.apiKeyId then ⟨d.id, touchedAt r.timestamp d.val⟩ else d := by
  unfold keyByIdString touch Table.patch
  rw [List.find?_map]
  congr 1
  congr 1
  funext d
  by_cases hd : d.id = r.apiKeyId <;> simp [hd]

/-- A record is accepted, and stored, whatever the last use of its key is. -/
theorem acceptEntry_request (now : ℕ) (entry : UsageEntry) {key key' : Doc ApiKey}
    (hid : key'.id = key.id) (huser : key'.val.userId = key.val.userId) :
    (acceptEntry now (some key') entry).map Accepted.request =
      (acceptEntry now (some key) entry).map Accepted.request := by
  simp only [acceptEntry, Option.bind_eq_bind, Option.bind_some, huser]
  cases plausibleStatus entry.statusCode with
  | none => simp
  | some statusCode =>
    cases plausibleTimestamp now entry.timestamp with
    | none => simp
    | some timestamp =>
      by_cases howner : key.val.userId.repr = entry.userId <;>
        by_cases hpath : entry.endpoint ∈ ENDPOINT_PATHS ∧ entry.method ∈ METHODS <;>
          simp [guard, howner, hpath, Accepted.request, hid, huser]

theorem acceptedRequests_absorb (db : Db) (r : ApiRequest) (now : ℕ) (entries : List UsageEntry) :
    acceptedRequests (absorb db r) now entries = acceptedRequests db now entries := by
  unfold acceptedRequests
  rw [List.map_filterMap, List.map_filterMap]
  congr 1
  funext entry
  unfold acceptRecord
  rw [show (absorb db r).apiKeys = touch db.apiKeys r from rfl, keyByIdString_touch]
  cases keyByIdString db.apiKeys entry.keyId with
  | none => rfl
  | some key =>
    apply acceptEntry_request
    · dsimp only
      split_ifs <;> rfl
    · dsimp only
      split_ifs
      · unfold touchedAt
        split_ifs <;> rfl
      · rfl

theorem acceptedRequests_foldl (db : Db) (rs : List ApiRequest) (now : ℕ)
    (entries : List UsageEntry) :
    acceptedRequests (rs.foldl absorb db) now entries = acceptedRequests db now entries := by
  induction rs generalizing db with
  | nil => rfl
  | cons r rs ih => rw [List.foldl_cons, ih, acceptedRequests_absorb]

theorem acceptedRequests_append (db : Db) (now : ℕ) (xs ys : List UsageEntry) :
    acceptedRequests db now (xs ++ ys) =
      acceptedRequests db now xs ++ acceptedRequests db now ys := by
  simp [acceptedRequests, List.filterMap_append]

end GeoPlatform.Convex
