import GeoPlatform.Convex.Calendar
import GeoPlatform.Convex.Lookups
import GeoPlatform.Convex.OwnedRows
import GeoPlatform.Library.ListSums

/-! The three usage views of the dashboard. `daily` sums the rows of a span by day, `endpoints` by
endpoint, and `summary` those of the current day; no row lies in the future, so they agree. -/
namespace GeoPlatform.Convex
open Docs

variable {env : ProcessEnv}

/-! ### Sums of a tally -/

/-- A column of what a tally adds up. -/
structure TallyColumn (ν : Type) (add : ν → UsageDaily → ν) (empty : ν) where
  read : ν → ℕ
  adds : UsageDaily → ℕ
  empty : read empty = 0
  add : ∀ n r, read (add n r) = read n + adds r

section Tally
variable {κ ν : Type} [DecidableEq κ] {add : ν → UsageDaily → ν} {empty : ν}

/-- The keys of a tally carry the whole column. -/
theorem TallyColumn.sum_tally (c : TallyColumn ν add empty) (key : UsageDaily → κ)
    (rows : List UsageDaily) :
    ((tally key add empty rows).map fun e => c.read e.2).sum = (rows.map c.adds).sum := by
  have hfold : ∀ m : List (κ × ν), ((rows.foldl (fun m r =>
      OrderedMap.set m (key r) (add ((OrderedMap.get? m (key r)).getD empty) r)) m).map
        fun e => c.read e.2).sum = (m.map fun e => c.read e.2).sum + (rows.map c.adds).sum := by
    induction rows with
    | nil => simp
    | cons r rows ih =>
      intro m
      have hset := OrderedMap.sum_set m (key r)
        (add ((OrderedMap.get? m (key r)).getD empty) r) fun e => c.read e.2
      rw [List.foldl_cons, ih, List.map_cons, List.sum_cons]
      simp only [c.add] at hset
      cases hold : OrderedMap.get? m (key r) with
      | none =>
        simp only [hold, Option.map_none, Option.getD_none, c.empty] at hset ⊢
        omega
      | some n =>
        simp only [hold, Option.map_some, Option.getD_some] at hset ⊢
        omega
  exact (hfold []).trans (Nat.zero_add _)

/-- What a tally holds under a key is the column of the rows of that key. -/
theorem TallyColumn.read_tally (c : TallyColumn ν add empty) (key : UsageDaily → κ)
    (rows : List UsageDaily) (k : κ) :
    c.read ((OrderedMap.get? (tally key add empty rows) k).getD empty) =
      ((rows.filter fun r => key r = k).map c.adds).sum := by
  have hfold : ∀ m : List (κ × ν), c.read ((OrderedMap.get? (rows.foldl (fun m r =>
      OrderedMap.set m (key r) (add ((OrderedMap.get? m (key r)).getD empty) r)) m) k).getD empty) =
        c.read ((OrderedMap.get? m k).getD empty) +
          ((rows.filter fun r => key r = k).map c.adds).sum := by
    induction rows with
    | nil => simp
    | cons r rows ih =>
      intro m
      rw [List.foldl_cons, ih, OrderedMap.get?_set]
      by_cases hk : key r = k
      · simp only [hk, if_true, Option.getD_some, c.add, List.filter_cons, decide_true,
          List.map_cons, List.sum_cons, Nat.add_assoc]
      · simp only [hk, Ne.symm hk, if_false, List.filter_cons, decide_false, Bool.false_eq_true]
  refine (hfold []).trans ?_
  rw [OrderedMap.get?_nil, Option.getD_none, c.empty, Nat.zero_add]

theorem TallyColumn.read_foldl (c : TallyColumn ν add empty) (rows : List UsageDaily) :
    c.read (rows.foldl add empty) = (rows.map c.adds).sum := by
  have hfold : ∀ n, c.read (rows.foldl add n) = c.read n + (rows.map c.adds).sum := by
    induction rows with
    | nil => simp
    | cons r rows ih =>
      intro n
      rw [List.foldl_cons, ih, c.add, List.map_cons, List.sum_cons, Nat.add_assoc]
  simpa [c.empty] using hfold empty

end Tally

/-- A column of the request counts, of a day and of an endpoint. -/
structure CountColumn where
  read : Counts → ℕ
  adds : UsageDaily → ℕ
  empty : read {} = 0
  add : ∀ n r, read (n.add r) = read n + adds r

def CountColumn.ofDay (c : CountColumn) : TallyColumn Counts Counts.add {} :=
  ⟨c.read, c.adds, c.empty, c.add⟩

def CountColumn.ofEndpoint (c : CountColumn) :
    TallyColumn EndpointCounts EndpointCounts.add {} :=
  ⟨fun e => c.read e.counts, c.adds, c.empty, fun n r => c.add n.counts r⟩

def CountColumn.total : CountColumn :=
  ⟨Counts.total, UsageDaily.total, rfl, fun _ _ => rfl⟩

def CountColumn.successful : CountColumn :=
  ⟨Counts.successful, UsageDaily.successful, rfl, fun _ _ => rfl⟩

def CountColumn.failed : CountColumn :=
  ⟨Counts.failed, UsageDaily.failed, rfl, fun _ _ => rfl⟩

/-- Counts that agree in every column are the same. -/
theorem counts_ext {c c' : Counts} (h : ∀ column : CountColumn, column.read c = column.read c') :
    c = c' := by
  obtain ⟨total, successful, failed⟩ := c
  obtain ⟨total', successful', failed'⟩ := c'
  obtain rfl : total = total' := h CountColumn.total
  obtain rfl : successful = successful' := h CountColumn.successful
  obtain rfl : failed = failed' := h CountColumn.failed
  rfl

/-! ### No row lies in the future -/

/-- Every rollup is of the day of some instant up to `now`. -/
def DaysUpTo (now : ℕ) (t : Table UsageDaily) : Prop :=
  ∀ d ∈ t.docs, ∃ instant ≤ now, d.val.day = utcDate instant

theorem acceptedRequests_timestamp {db : Db} {now : ℕ} {entries : List UsageEntry} {r : ApiRequest}
    (h : r ∈ acceptedRequests db now entries) : r.timestamp ≤ now := by
  obtain ⟨a, ha, rfl⟩ := List.mem_map.mp h
  obtain ⟨entry, -, ha⟩ := List.mem_filterMap.mp ha
  unfold acceptRecord acceptEntry at ha
  simp only [Option.bind_eq_bind, Option.bind_eq_some_iff] at ha
  obtain ⟨key, -, -, -, -, -, status, -, timestamp, htime, ha⟩ := ha
  cases ha
  show timestamp ≤ now
  unfold plausibleTimestamp at htime
  split at htime
  · split_ifs at htime
    cases htime
    exact min_le_right _ _
  · cases htime

theorem DaysUpTo.countRow {now : ℕ} {t : Table UsageDaily} (h : DaysUpTo now t) {r : ApiRequest}
    (hr : r.timestamp ≤ now) : DaysUpTo now (countRow t r) := by
  unfold GeoPlatform.Convex.countRow
  split
  · rename_i d hd
    intro e he
    obtain ⟨e', he', rfl⟩ := List.mem_map.mp he
    split_ifs
    · exact h e' he'
    · exact h e' he'
  · intro e he
    rcases List.mem_append.mp he with he | he
    · exact h e he
    · obtain rfl := List.mem_singleton.mp he
      refine ⟨⌊r.timestamp⌋₊, ?_, rfl⟩
      exact Nat.floor_le_of_le hr

theorem DaysUpTo.countRows {now : ℕ} {t : Table UsageDaily} (h : DaysUpTo now t)
    {rs : List ApiRequest} (hrs : ∀ r ∈ rs, r.timestamp ≤ now) :
    DaysUpTo now (rs.foldl Convex.countRow t) := by
  induction rs generalizing t with
  | nil => exact h
  | cons r rs ih =>
    apply ih (h.countRow (hrs r (List.mem_cons_self ..)))
    exact fun r' hr' => hrs r' (List.mem_cons_of_mem _ hr')

theorem daysUpTo_run {now : ℕ} {db : Db} (hrows : RowsUnique db) (h : DaysUpTo now db.usageDaily)
    {c : Call} (hc : (∃ entries, c.txn = .recordUsage entries) → c.now ≤ now) :
    DaysUpTo now (c.run env db).2.usageDaily := by
  by_cases hrecord : ∃ entries, c.txn = .recordUsage entries
  · have hnow := hc hrecord
    obtain ⟨entries, htxn⟩ := hrecord
    obtain ⟨at', txn⟩ := c
    obtain rfl : txn = .recordUsage entries := htxn
    have hloop := usageLoop_absorbs (loopAbsorbs_nil db) at' (entries.take MAX_USAGE_ENTRIES)
    rw [List.nil_append] at hloop
    have hafter : (Call.run env db ⟨at', .recordUsage entries⟩).2.usageDaily =
        (acceptedRequests db at' (entries.take MAX_USAGE_ENTRIES)).foldl countRow
          db.usageDaily := by
      simp only [Call.run, recordUsage, hloop.merged _ hrows.usage, bind, Except.bind, pure,
        Except.pure, commit]
    rw [hafter]
    apply h.countRows
    intro r hr
    exact (acceptedRequests_timestamp hr).trans (by exact_mod_cast hnow)
  · have hsame : TableName.usageDaily ∉ c.txn.writes := by
      cases htxn : c.txn <;> simp_all [Txn.writes]
    rw [(run_frame env db c).usageDaily hsame]
    exact h

/-- In a run that starts empty no row is of a later day than the last recording. -/
theorem daysUpTo_final {now : ℕ} {cs : List Call}
    (hcs : ∀ c ∈ cs, (∃ entries, c.txn = .recordUsage entries) → c.now ≤ now) :
    RowsUnique (Runs.final (Call.run env) {} cs) ∧
      DaysUpTo now (Runs.final (Call.run env) {} cs).usageDaily := by
  have hempty : DaysUpTo now ({} : Db).usageDaily := by
    intro d hd
    cases hd
  apply Runs.final_induction_mem (Call.run env)
    (P := fun db => RowsUnique db ∧ DaysUpTo now db.usageDaily) ⟨rowsUnique_empty, hempty⟩
  exact fun db c hc h => ⟨rowsUnique_run h.1 c, daysUpTo_run h.1 h.2 (hcs c hc)⟩

/-! ### The rows of a span -/

/-- The days of a span, the oldest first. -/
def seriesDays (now span : ℕ) : List UtcDate :=
  (List.range span).map fun i => utcDayBefore now (span - 1 - i)

theorem seriesDays_pairwise {now span : ℕ} (hspan : span ≤ MAX_SERIES_DAYS) :
    (seriesDays now span).Pairwise fun a b => a.le b = true ∧ b.le a = false := by
  have hmax : MAX_SERIES_DAYS = 90 := rfl
  rw [seriesDays, List.pairwise_map]
  apply List.pairwise_lt_range.imp_of_mem
  intro i j hi hj hij
  rw [List.mem_range] at hi hj
  have hle : ∀ {k k' : ℕ}, k < span → k' < span →
      ((utcDayBefore now (span - 1 - k)).le (utcDayBefore now (span - 1 - k')) = true ↔
        span - 1 - k' ≤ span - 1 - k) := fun _ _ =>
    utcDayBefore_le_iff (Nat.le_add_left_of_le (by omega)) (Nat.le_add_left_of_le (by omega))
  refine ⟨(hle hi hj).mpr (by omega), ?_⟩
  rw [Bool.eq_false_iff]
  intro hback
  have hle' := (hle hj hi).mp hback
  omega

theorem seriesDays_nodup {now span : ℕ} (hspan : span ≤ MAX_SERIES_DAYS) :
    (seriesDays now span).Nodup := by
  apply (seriesDays_pairwise hspan).imp
  rintro a b ⟨hab, hba⟩ rfl
  rw [hab] at hba
  cases hba

theorem mem_usageSince {db : Db} {userId : ℕ} {day : UtcDate} {r : UsageDaily} :
    r ∈ usageSince db userId day ↔
      (∃ d ∈ db.usageDaily.docs, d.val = r) ∧ r.userId = userId ∧ day.le r.day = true := by
  simp only [usageSince, List.mem_map, List.mem_insertionSort, Table.mem_query, Bool.and_eq_true,
    decide_eq_true_eq]
  constructor
  · rintro ⟨d, ⟨hd, huser, hday⟩, rfl⟩
    exact ⟨⟨d, hd, rfl⟩, huser, hday⟩
  · rintro ⟨⟨d, hd, rfl⟩, huser, hday⟩
    exact ⟨d, ⟨hd, huser, hday⟩, rfl⟩

/-- Every row that `daily` reads is of a day that it lists. -/
theorem seriesRows_day {db : Db} {now userId span : ℕ} {keyId : Option ℕ}
    (h : DaysUpTo now db.usageDaily) (hpos : 1 ≤ span) (hspan : span ≤ MAX_SERIES_DAYS)
    {r : UsageDaily} (hr : r ∈ seriesRows db now userId span keyId) :
    r.day ∈ seriesDays now span := by
  have hmax : MAX_SERIES_DAYS = 90 := rfl
  obtain ⟨⟨d, hd, rfl⟩, -, hsince⟩ := mem_usageSince.mp (List.mem_of_mem_filter hr)
  obtain ⟨instant, hpast, hday⟩ := h d hd
  rw [utcDate_eq_before hpast] at hday
  rw [hday] at hsince
  have hback : now / DAY_MS - instant / DAY_MS ≤ span - 1 :=
    (utcDayBefore_le_iff (Nat.le_add_left_of_le (by omega))
      ((Nat.sub_le _ _).trans (Nat.le_add_right _ _))).mp hsince
  refine List.mem_map.mpr ⟨span - 1 - (now / DAY_MS - instant / DAY_MS), ?_, ?_⟩
  · rw [List.mem_range]
    omega
  · rw [hday, Nat.sub_sub_self hback]

/-- The rows of one day that the user's rows since an earlier day hold. -/
theorem usageSince_day (db : Db) (userId : ℕ) {start day : UtcDate} (h : start.le day = true) :
    ((usageSince db userId start).filter fun r => r.day = day).Perm
      ((db.usageDaily.query fun r => r.userId = userId && r.day = day).map Doc.val) := by
  unfold usageSince
  rw [List.filter_map]
  apply List.Perm.map
  have hperm := List.perm_insertionSort (fun a b : Doc UsageDaily => a.val.day.le b.val.day = true)
    (db.usageDaily.query fun r => r.userId = userId && start.le r.day)
  refine (hperm.filter _).trans (List.Perm.of_eq ?_)
  simp only [Table.query, List.filter_filter, Function.comp_def]
  refine List.filter_congr fun d _ => ?_
  by_cases hday : d.val.day = day
  · simp [hday, h]
  · simp [hday]

/-! ### The three views -/

/-- What `daily` returns. -/
def dailySeries (db : Db) (now userId span : ℕ) (keyId : Option ℕ) : List DayCounts :=
  (seriesDays now span).map fun day => ⟨day, (OrderedMap.get?
    (tally UsageDaily.day Counts.add {} (seriesRows db now userId span keyId)) day).getD {}⟩

/-- What `endpoints` returns. -/
def endpointTotals (db : Db) (now userId span : ℕ) (keyId : Option ℕ) : List EndpointUsage :=
  ((tally UsageDaily.endpoint EndpointCounts.add {} (seriesRows db now userId span keyId)).map
    fun e => e.2.usage e.1).insertionSort fun a b => b.counts.total ≤ a.counts.total

theorem daily_ok {s : Snapshot} {now userId span : ℕ} {caller : Caller} {days : JsNumber}
    (hin : SignedIn s.db now caller userId) (hspan : seriesSpan days = some span)
    (keyId : Option ℕ) :
    Usage.daily s now caller days keyId = .ok (dailySeries s.db now userId span keyId) := by
  unfold Usage.daily
  rw [hin.bind, hspan]
  simp only [dailySeries, seriesDays, List.map_map]
  rfl

theorem endpoints_ok {s : Snapshot} {now userId span : ℕ} {caller : Caller} {days : JsNumber}
    (hin : SignedIn s.db now caller userId) (hspan : seriesSpan days = some span)
    (keyId : Option ℕ) :
    Usage.endpoints s now caller days keyId = .ok (endpointTotals s.db now userId span keyId) := by
  unfold Usage.endpoints
  rw [hin.bind, hspan]
  rfl

theorem seriesSpan_int (days : ℤ) : ∃ span, seriesSpan (.finite days) = some span ∧
    span = (min (max 1 days) 90).toNat ∧ 1 ≤ span ∧ span ≤ MAX_SERIES_DAYS := by
  have hmax : MAX_SERIES_DAYS = 90 := rfl
  refine ⟨(min (max 1 days) 90).toNat, ?_, rfl, by omega, by omega⟩
  simp only [seriesSpan, Int.floor_intCast, hmax]
  rfl

/-- Both views sum a column over the rows of the span. -/
theorem CountColumn.sum_daily (c : CountColumn) {db : Db} {now userId span : ℕ}
    {keyId : Option ℕ} (h : DaysUpTo now db.usageDaily) (hpos : 1 ≤ span)
    (hspan : span ≤ MAX_SERIES_DAYS) :
    ((dailySeries db now userId span keyId).map fun d => c.read d.counts).sum =
      ((seriesRows db now userId span keyId).map c.adds).sum := by
  rw [← ListSums.sum_map_filter_keys UsageDaily.day c.adds (seriesDays_nodup hspan)
    fun r hr => seriesRows_day h hpos hspan hr]
  simp only [dailySeries, List.map_map]
  congr 1
  exact List.map_congr_left fun day _ => c.ofDay.read_tally UsageDaily.day _ day

theorem CountColumn.sum_endpoints (c : CountColumn) (db : Db) (now userId span : ℕ)
    (keyId : Option ℕ) :
    ((endpointTotals db now userId span keyId).map fun e => c.read e.counts).sum =
      ((seriesRows db now userId span keyId).map c.adds).sum := by
  have hsorted : (endpointTotals db now userId span keyId).Perm
      ((tally UsageDaily.endpoint EndpointCounts.add {} (seriesRows db now userId span keyId)).map
        fun e => e.2.usage e.1) := List.perm_insertionSort _ _
  have hsum := (hsorted.map fun e => c.read e.counts).sum_eq
  rw [List.map_map] at hsum
  exact hsum.trans (c.ofEndpoint.sum_tally UsageDaily.endpoint _)

theorem uniqueDoc_ok {α κ : Type} {p : κ → α → Bool} {t : Table α} (h : Table.AtMostOne p t)
    (k : κ) : ∃ o, uniqueDoc t (p k) = .ok o := by
  unfold uniqueDoc
  rcases h.cases k with hnone | ⟨d, hone⟩
  · exact ⟨none, by rw [hnone]⟩
  · exact ⟨some d.val, by rw [hone]⟩

theorem summary_ok {s : Snapshot} (hrows : RowsUnique s.db) {now userId : ℕ} {caller : Caller}
    (hin : SignedIn s.db now caller userId) :
    ∃ summary, Usage.summary s now caller = .ok summary ∧ summary.today =
      ((usageSince s.db userId (utcMonthStartDay now)).filter fun r =>
        r.day = utcDate now).foldl Counts.add {} := by
  unfold Usage.summary
  rw [hin.bind]
  obtain ⟨daily, hdaily⟩ := uniqueDoc_ok hrows.quotas
    (tenantQuotaBucket ((s.db.users.get userId).bind fun u => activePlan u now) userId, .day,
      dateUTC (utcDate now).fullYear (utcDate now).month (utcDate now).date)
  obtain ⟨monthly, hmonthly⟩ := uniqueDoc_ok hrows.quotas
    (tenantQuotaBucket ((s.db.users.get userId).bind fun u => activePlan u now) userId, .month,
      dateUTC (utcDate now).fullYear (utcDate now).month 1)
  simp only [quotaTest] at hdaily hmonthly
  simp only [hdaily, hmonthly]
  exact ⟨_, rfl, rfl⟩

theorem monthStart_le_today (now : ℕ) : (utcMonthStartDay now).le (utcDate now) = true := by
  have hdate := (utcDate_number now).1.date
  simp [utcMonthStartDay, UtcDate.le, hdate]

/-- The current day of the series holds the counts of the current day. -/
theorem daily_today {db : Db} {now userId span : ℕ} (hpos : 1 ≤ span)
    (hspan : span ≤ MAX_SERIES_DAYS) :
    (dailySeries db now userId span none).getLast?.map DayCounts.counts =
      some (((usageSince db userId (utcMonthStartDay now)).filter fun r =>
        r.day = utcDate now).foldl Counts.add {}) := by
  have hmax : MAX_SERIES_DAYS = 90 := rfl
  have hlast : (seriesDays now span).getLast? = some (utcDate now) := by
    rw [seriesDays, List.getLast?_map, List.getLast?_range, if_neg (by omega), Option.map_some,
      Nat.sub_self, utcDayBefore_zero]
  have hstart : (utcDayBefore now (span - 1)).le (utcDate now) = true := by
    rw [← utcDayBefore_zero, utcDayBefore_le_iff (Nat.le_add_left_of_le (by omega))
      (Nat.zero_le _)]
    exact Nat.zero_le _
  rw [dailySeries, List.getLast?_map, hlast, Option.map_some, Option.map_some, Option.some.injEq]
  apply counts_ext
  intro c
  have hall : seriesRows db now userId span none =
      usageSince db userId (utcDayBefore now (span - 1)) := by simp [seriesRows]
  refine (c.ofDay.read_tally UsageDaily.day _ (utcDate now)).trans ?_
  refine Eq.trans ?_ (c.ofDay.read_foldl _).symm
  rw [hall, ((usageSince_day db userId hstart).map c.ofDay.adds).sum_eq,
    ((usageSince_day db userId (monthStart_le_today now)).map c.ofDay.adds).sum_eq]

/-- In every state whose usage was recorded up to now, for every account signed in, every number
of days and every key or none: `daily` and `endpoints` count the same requests, `daily` lists the
last days in order, and its last day without a key is the current day of `summary`. -/
theorem usage_views_agree (env : ProcessEnv) (cs : List Call) (s : Snapshot)
    (hs : s.db = Runs.final (Call.run env) {} cs) (now : ℕ)
    (hcs : ∀ c ∈ cs, (∃ entries, c.txn = .recordUsage entries) → c.now ≤ now)
    (caller : Caller) (userId : ℕ) (hin : SignedIn s.db now caller userId) (days : ℤ)
    (keyId : Option ℕ) :
    ∃ series rows, Usage.daily s now caller (.finite days) keyId = .ok series ∧
      Usage.endpoints s now caller (.finite days) keyId = .ok rows ∧
      (series.map fun d => d.counts.total).sum = (rows.map fun e => e.counts.total).sum ∧
      (series.map fun d => d.counts.successful).sum =
        (rows.map fun e => e.counts.successful).sum ∧
      (series.map fun d => d.counts.failed).sum = (rows.map fun e => e.counts.failed).sum ∧
      series.map DayCounts.day = seriesDays now (min (max 1 days) 90).toNat ∧
      (series.map DayCounts.day).Pairwise (fun a b => a.le b = true ∧ b.le a = false) ∧
      (keyId = none → ∃ summary, Usage.summary s now caller = .ok summary ∧
        series.getLast?.map DayCounts.counts = some summary.today) := by
  obtain ⟨span, hspan, hdays, hpos, hmax⟩ := seriesSpan_int days
  obtain ⟨hrows, hpast⟩ := @daysUpTo_final env now cs hcs
  rw [← hs] at hrows hpast
  have hsums : ∀ c : CountColumn,
      ((dailySeries s.db now userId span keyId).map fun d => c.read d.counts).sum =
        ((endpointTotals s.db now userId span keyId).map fun e => c.read e.counts).sum :=
    fun c => (c.sum_daily hpast hpos hmax).trans (c.sum_endpoints s.db now userId span keyId).symm
  have hlisted : (dailySeries s.db now userId span keyId).map DayCounts.day =
      seriesDays now span := by
    rw [dailySeries, List.map_map]
    exact List.map_id' _
  refine ⟨_, _, daily_ok hin hspan keyId, endpoints_ok hin hspan keyId, hsums .total,
    hsums .successful, hsums .failed, ?_, ?_, ?_⟩
  · rw [hlisted, hdays]
  · rw [hlisted]
    exact seriesDays_pairwise hmax
  · rintro rfl
    obtain ⟨summary, hsummary, htoday⟩ := summary_ok hrows hin
    exact ⟨summary, hsummary, by rw [htoday]; exact daily_today hpos hmax⟩

/-- The developer's key is used twice. -/
def developerUsage : List Call :=
  oneDeveloper ++ [⟨10, .recordUsage [⟨"0", "0", "/v1/geocode", "GET", some 200, some 5, some 9⟩,
    ⟨"0", "0", "/v1/geocode", "GET", some 404, some 7, some 10⟩]⟩]

theorem usage_views_agree_developer :
    let s : Snapshot := { db := Runs.final (Call.run testEnv) {} developerUsage }
    ∃ series rows summary, Usage.daily s 20 ⟨some 0, some 0⟩ (.finite (7 : ℤ)) none = .ok series ∧
      Usage.endpoints s 20 ⟨some 0, some 0⟩ (.finite (7 : ℤ)) none = .ok rows ∧
      Usage.summary s 20 ⟨some 0, some 0⟩ = .ok summary ∧
      (series.map fun d => d.counts.total).sum = (rows.map fun e => e.counts.total).sum ∧
      series.getLast?.map DayCounts.counts = some summary.today := by
  intro s
  have hpast : ∀ c ∈ developerUsage, (∃ entries, c.txn = .recordUsage entries) → c.now ≤ 20 := by
    have hall : ∀ c ∈ developerUsage, c.now ≤ 20 := by decide
    exact fun c hc _ => hall c hc
  have hin : SignedIn s.db 20 ⟨some 0, some 0⟩ 0 := by decide +kernel
  obtain ⟨series, rows, hdaily, hendpoints, htotal, -, -, -, -, hsummary⟩ :=
    usage_views_agree testEnv developerUsage s rfl 20 hpast ⟨some 0, some 0⟩ 0 hin 7 none
  obtain ⟨summary, hok, htoday⟩ := hsummary rfl
  exact ⟨series, rows, summary, hdaily, hendpoints, hok, htotal, htoday⟩

end GeoPlatform.Convex
