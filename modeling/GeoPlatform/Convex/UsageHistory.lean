import GeoPlatform.Convex.KeyTable
import GeoPlatform.Convex.UsageAbsorb

/-! The usage ledger over every run: the daily rows are the request rows ever inserted, sorted by
key, endpoint and day, and a key's last use is the latest of them. -/
namespace GeoPlatform.Convex
open Docs

variable {env : ProcessEnv}

/-! ### The last use of a key -/

/-- The last use of a key; an unused or missing key counts as used at 0. -/
def lastUse (t : Table ApiKey) (i : ℕ) : ℚ := ((t.get i).bind ApiKey.lastUsedAt).getD 0

theorem usedAfterEpoch_iff {t : Table ApiKey} : UsedAfterEpoch t ↔ ∀ i, 0 ≤ lastUse t i := by
  constructor
  · intro h i
    unfold lastUse
    cases hk : t.get i with
    | none => exact le_rfl
    | some k => exact h i k hk
  · intro h i k hk
    have hi := h i
    rwa [lastUse, hk] at hi

theorem lastUse_patch {f : ApiKey → ApiKey} (hf : ∀ k, (f k).lastUsedAt = k.lastUsedAt)
    (t : Table ApiKey) (j i : ℕ) : lastUse (t.patch j f) i = lastUse t i := by
  unfold lastUse
  rw [Table.get_patch]
  split_ifs
  · cases t.get i <;> simp [hf]
  · rfl

theorem lastUse_patchAll {f : ApiKey → ApiKey} (hf : ∀ k, (f k).lastUsedAt = k.lastUsedAt)
    (t : Table ApiKey) (p : ApiKey → Bool) (i : ℕ) : lastUse (t.patchAll p f) i = lastUse t i := by
  unfold lastUse
  rw [Table.get_patchAll]
  cases t.get i with
  | none => rfl
  | some k => cases h : p k <;> simp [h, hf]

theorem lastUse_insert {k : ApiKey} (hk : k.lastUsedAt = none) (t : Table ApiKey) (i : ℕ) :
    lastUse (t.insert k) i = lastUse t i := by
  unfold lastUse
  by_cases hi : i = t.nextId
  · simp [hi, Table.get_insert_self, Table.get_nextId, hk]
  · rw [Table.get_insert_of_ne _ hi]

theorem revokeApiKey_lastUsedAt (now : ℕ) (k : ApiKey) :
    (revokeApiKey now k).lastUsedAt = k.lastUsedAt := by
  unfold revokeApiKey
  split_ifs <;> rfl

theorem lastUse_retireSiteKeys (now : ℕ) (args : UpsertKeyArgs) (t : Table ApiKey) (i : ℕ) :
    lastUse (retireSiteKeys now args t) i = lastUse t i := by
  unfold retireSiteKeys
  split_ifs
  · exact lastUse_patchAll (revokeApiKey_lastUsedAt now) t _ i
  · rfl

theorem lastUse_touch {t : Table ApiKey} {r : ApiRequest} (h : (t.get r.apiKeyId).isSome) (i : ℕ) :
    lastUse (touch t r) i =
      if r.apiKeyId = i then max (lastUse t i) r.timestamp else lastUse t i := by
  unfold lastUse touch
  rw [Table.get_patch]
  by_cases hi : r.apiKeyId = i
  · obtain ⟨k, hk⟩ := Option.isSome_iff_exists.mp h
    rw [hi] at hk
    simp only [hi, if_true, hk, Option.map_some, Option.bind_some, touchedAt]
    split_ifs with hlate
    · simp [max_eq_right hlate.le]
    · simp [max_eq_left (not_lt.mp hlate)]
  · simp [hi, Ne.symm hi]

/-! ### Everything but `recordUsage` -/

/-- What keeps the ledger as it is; old request rows may go. -/
structure UsageKept (db db' : Db) : Prop where
  requests : ∀ d ∈ db'.apiRequests.docs, d ∈ db.apiRequests.docs
  lastUse : ∀ i, lastUse db'.apiKeys i = lastUse db.apiKeys i

theorem UsageKept.refl (db : Db) : UsageKept db db := ⟨fun _ h => h, fun _ => rfl⟩

theorem UsageKept.of_same {db db' : Db} (hrequests : db'.apiRequests = db.apiRequests)
    (hkeys : ∀ i, GeoPlatform.Convex.lastUse db'.apiKeys i =
      GeoPlatform.Convex.lastUse db.apiKeys i) : UsageKept db db' :=
  ⟨fun _ h => hrequests ▸ h, hkeys⟩

theorem usageKept_commit {α : Type} {db : Db} {answer : α → Answer} {r : Except TxError (α × Db)}
    (h : ∀ a db', r = .ok (a, db') → UsageKept db db') : UsageKept db (commit db answer r).2 :=
  commit_induction (UsageKept.refl db) h

theorem authorize_usageKept {now : ℕ} {args : AuthorizeArgs} {db db' : Db}
    {reply : AuthorizeReply} (h : authorize env now args db = .ok (reply, db')) :
    UsageKept db db' := by
  cases authorize_ok h <;> exact .of_same rfl fun _ => rfl

theorem settle_usageKept {now : ℕ} {args : SettleArgs} {db db' : Db} {granted : Bool}
    (h : settle now args db = .ok (granted, db')) : UsageKept db db' := by
  cases settle_ok h <;> exact .of_same rfl fun _ => rfl

theorem run_usageKept (db : Db) {c : Call} (hnot : ∀ entries, c.txn ≠ .recordUsage entries) :
    UsageKept db (c.run env db).2 := by
  obtain ⟨now, txn⟩ := c
  cases txn with
  | recordUsage entries => exact absurd rfl (hnot entries)
  | authorizeDemo args =>
    refine usageKept_commit fun a db' h => ?_
    obtain ⟨secret, states, windows, audit, -, -, -, rfl⟩ := authorizeDemo_ok h
    exact .of_same rfl fun _ => rfl
  | authorize args => exact usageKept_commit fun a db' h => authorize_usageKept h
  | describe hash =>
    simp only [Call.run]
    split <;> exact UsageKept.refl db
  | prune => exact ⟨fun d hd => List.mem_of_mem_filter hd, fun _ => rfl⟩
  | insertKey args =>
    refine usageKept_commit fun a db' h => ?_
    obtain ⟨-, -, rfl⟩ := insertKey_ok h
    exact .of_same rfl (lastUse_insert rfl _)
  | rename caller keyId name =>
    refine usageKept_commit fun a db' h => ?_
    obtain ⟨cleaned, rfl⟩ := rename_ok h
    refine .of_same rfl fun i => ?_
    exact @lastUse_patch (fun k => { k with name := cleaned }) (fun _ => rfl) _ keyId i
  | revoke caller keyId =>
    refine usageKept_commit fun a db' h => ?_
    obtain ⟨userId, key, -, -, rfl⟩ := revoke_ok h
    exact .of_same rfl (lastUse_patch (revokeApiKey_lastUsedAt now) _ keyId)
  | replaceSecret args =>
    refine usageKept_commit fun a db' h => ?_
    obtain ⟨-, rfl⟩ := replaceSecret_ok h
    exact .of_same rfl (@lastUse_patch args.rekey (fun _ => rfl) _ args.keyId)
  | insertPlaygroundToken args =>
    refine usageKept_commit fun a db' h => ?_
    obtain rfl := insertPlaygroundToken_ok h
    exact .of_same rfl fun _ => rfl
  | revokeKey keyId =>
    refine usageKept_commit fun a db' h => ?_
    obtain ⟨key, -, rfl⟩ := revokeKey_ok h
    exact .of_same rfl (lastUse_patch (revokeApiKey_lastUsedAt now) _ keyId)
  | lockUser userId =>
    refine usageKept_commit fun a db' h => ?_
    obtain ⟨-, rfl⟩ := lockUser_ok h
    exact .of_same rfl (lastUse_patchAll (revokeApiKey_lastUsedAt now) _ _)
  | enableUser email =>
    refine usageKept_commit fun a db' h => ?_
    obtain rfl := enableUser_ok h
    exact .of_same rfl fun _ => rfl
  | upsertSystemUser =>
    refine usageKept_commit fun a db' h => ?_
    rcases upsertSystemUser_ok h with rfl | rfl
    · exact UsageKept.refl _
    · exact .of_same rfl fun _ => rfl
  | upsertKey args =>
    refine usageKept_commit fun a db' h => ?_
    rcases upsertKey_ok h with ⟨-, rfl⟩ | rfl
    · refine .of_same rfl fun i => ?_
      exact (lastUse_retireSiteKeys now args _ i).trans (lastUse_insert rfl _ i)
    · exact .of_same rfl (lastUse_retireSiteKeys now args _)
  | activateFreeTier caller =>
    refine usageKept_commit fun a db' h => ?_
    rcases activateFreeTier_ok h with rfl | ⟨userId, user, -, -, rfl⟩
    · exact UsageKept.refl _
    · exact .of_same rfl fun _ => rfl
  | recordPending userId plan paymentIntentId =>
    refine usageKept_commit fun a db' h => ?_
    rcases recordPending_ok h with ⟨row, -, -, -, -, rfl⟩ | ⟨-, -, rfl⟩
    · exact UsageKept.refl _
    · exact .of_same rfl fun _ => rfl
  | settle args => exact usageKept_commit fun a db' h => settle_usageKept h
  | signUp email => exact .of_same rfl fun _ => rfl
  | signIn userId expirationTime => exact .of_same rfl fun _ => rfl
  | invalidateSessions userId => exact .of_same rfl fun _ => rfl

/-! ### The history of a run -/

/-- The request rows a step added. -/
def addedRequests (db db' : Db) : List ApiRequest :=
  (db'.apiRequests.docs.filter fun d => db.apiRequests.nextId ≤ d.id).map Doc.val

/-- Every request row a run ever inserted. -/
def requestLog (env : ProcessEnv) (db : Db) (cs : List Call) : List ApiRequest :=
  (Runs.trace (Call.run env) db cs).flatMap fun x =>
    addedRequests x.before (x.event.run env x.before).2

/-- The records of a key, endpoint and day. -/
def recordsOf (k : RollupKey) (log : List ApiRequest) : List ApiRequest :=
  log.filter fun r => r.rollupKey = k

def failures (rs : List ApiRequest) : ℕ := rs.countP fun r => FAILED_STATUS_FROM ≤ r.statusCode

/-- The daily row of the records of a key, endpoint and day. -/
structure IsRowOf (k : RollupKey) (rs : List ApiRequest) (d : UsageDaily) : Prop where
  key : isUsageRow k d = true
  owner : ∀ r ∈ rs, r.userId = d.userId
  total : d.total = rs.length
  failed : d.failed = failures rs
  successful : d.total = d.successful + d.failed
  totalResponseTimeMs : d.totalResponseTimeMs = (rs.map ApiRequest.responseTimeMs).sum

/-- The ledger of a database for the records inserted so far. -/
structure UsageBook (start : Db) (log : List ApiRequest) (db : Db) : Prop where
  absent : ∀ k, recordsOf k log = [] → db.usageDaily.query (isUsageRow k) = []
  present : ∀ k, recordsOf k log ≠ [] → ∃ d, db.usageDaily.query (isUsageRow k) = [d] ∧
    IsRowOf k (recordsOf k log) d.val
  totals : db.usageDaily.sum UsageDaily.total = log.length
  owners : ∀ r ∈ log, ∃ key, db.apiKeys.get r.apiKeyId = some key ∧ key.userId = r.userId
  lastUse : ∀ i, lastUse db.apiKeys i =
    ((log.filter fun r => r.apiKeyId = i).map ApiRequest.timestamp).foldl max
      (lastUse start.apiKeys i)
  epoch : UsedAfterEpoch db.apiKeys

theorem UsageBook.oneRow {start db : Db} {log : List ApiRequest} (h : UsageBook start log db) :
    OneRow db.usageDaily := by
  intro k
  by_cases hk : recordsOf k log = []
  · simp [h.absent k hk]
  · obtain ⟨d, hd, -⟩ := h.present k hk
    simp [hd]

theorem recordsOf_append (k : RollupKey) (log : List ApiRequest) (r : ApiRequest) :
    recordsOf k (log ++ [r]) = recordsOf k log ++ if r.rollupKey = k then [r] else [] := by
  simp only [recordsOf, List.filter_append, List.filter_cons, List.filter_nil, decide_eq_true_eq]

theorem isRowOf_row (r : ApiRequest) : IsRowOf r.rollupKey [r] r.row where
  key := isUsageRow_row r
  owner r' hr' := by rw [List.mem_singleton.mp hr']; rfl
  total := rfl
  failed := by
    cases h : r.failed <;>
      simp_all [ApiRequest.row, failures, ApiRequest.failed, FAILED_STATUS_FROM]
  successful := by cases h : r.failed <;> simp [ApiRequest.row, h]
  totalResponseTimeMs := by simp [ApiRequest.row]

theorem IsRowOf.more {rs : List ApiRequest} {d : UsageDaily} {r : ApiRequest}
    (h : IsRowOf r.rollupKey rs d) (howner : r.userId = d.userId) :
    IsRowOf r.rollupKey (rs ++ [r]) (mergedRow d r.row d) where
  key := h.key
  owner r' hr' := by
    rcases List.mem_append.mp hr' with hr' | hr'
    · exact h.owner r' hr'
    · rw [List.mem_singleton.mp hr']
      exact howner
  total := by simp [mergedRow, ApiRequest.row, h.total]
  failed := by
    have hrow := (isRowOf_row r).failed
    simp only [failures, List.countP_append, mergedRow] at hrow ⊢
    rw [h.failed, hrow]
    rfl
  successful := by
    have hrow := (isRowOf_row r).successful
    have hd := h.successful
    simp only [mergedRow]
    omega
  totalResponseTimeMs := by simp [mergedRow, ApiRequest.row, h.totalResponseTimeMs]

theorem countRow_total {t : Table UsageDaily} (ht : OneRow t) (r : ApiRequest) :
    (countRow t r).sum UsageDaily.total = t.sum UsageDaily.total + 1 := by
  unfold countRow
  rcases ht.cases r.rollupKey with h | ⟨d, h⟩
  · simp [h, ApiRequest.row]
  · have hpatch := Table.sum_patch (Table.get_of_unique h) (mergedRow d.val r.row)
      UsageDaily.total
    have hrow : (mergedRow d.val r.row d.val).total = d.val.total + 1 := rfl
    simp only [h]
    omega

theorem touch_owner {t : Table ApiKey} (r : ApiRequest) {i : ℕ} {k : ApiKey}
    (h : t.get i = some k) : ∃ k', (touch t r).get i = some k' ∧ k'.userId = k.userId := by
  unfold touch
  rw [Table.get_patch, h]
  split_ifs
  · refine ⟨_, rfl, ?_⟩
    unfold touchedAt
    split_ifs <;> rfl
  · exact ⟨k, rfl, rfl⟩

/-- All records of a row are of one key, and a key has one owner. -/
theorem UsageBook.row_owner {start db : Db} {log : List ApiRequest} (h : UsageBook start log db)
    {r : ApiRequest} {key : ApiKey} (hkey : db.apiKeys.get r.apiKeyId = some key)
    (howner : key.userId = r.userId) {d : UsageDaily} (hne : recordsOf r.rollupKey log ≠ [])
    (hrow : IsRowOf r.rollupKey (recordsOf r.rollupKey log) d) : r.userId = d.userId := by
  obtain ⟨r', hr'⟩ := List.exists_mem_of_ne_nil _ hne
  obtain ⟨hlog, hsame⟩ := List.mem_filter.mp hr'
  obtain ⟨key', hkey', howner'⟩ := h.owners r' hlog
  have hid : r'.apiKeyId = r.apiKeyId := congrArg RollupKey.apiKeyId (of_decide_eq_true hsame)
  rw [hid, hkey] at hkey'
  cases hkey'
  exact (howner.symm.trans howner').trans (hrow.owner r' hr')

/-- The row that a record is counted in. -/
theorem UsageBook.absorb_row {start db : Db} {log : List ApiRequest} (h : UsageBook start log db)
    {r : ApiRequest} {key : ApiKey} (hkey : db.apiKeys.get r.apiKeyId = some key)
    (howner : key.userId = r.userId) :
    ∃ d, (countRow db.usageDaily r).query (isUsageRow r.rollupKey) = [d] ∧
      IsRowOf r.rollupKey (recordsOf r.rollupKey log ++ [r]) d.val := by
  obtain ⟨hself, -⟩ := mergeRollup_row (isUsageRow_row r) (mergeRollup_countRow h.oneRow r)
  rcases hself with ⟨hnone, hq⟩ | ⟨d, hone, hq⟩
  · have hempty : recordsOf r.rollupKey log = [] := by
      by_contra hne
      obtain ⟨d, hd, -⟩ := h.present _ hne
      rw [Table.unique_none hnone] at hd
      cases hd
    rw [hempty]
    exact ⟨_, hq, isRowOf_row r⟩
  · have hne : recordsOf r.rollupKey log ≠ [] := by
      intro hempty
      have hd := h.absent _ hempty
      rw [Table.unique_one hone] at hd
      cases hd
    obtain ⟨d', hd', hrow⟩ := h.present _ hne
    rw [Table.unique_one hone] at hd'
    cases hd'
    exact ⟨_, hq, hrow.more (h.row_owner hkey howner hne hrow)⟩

/-- One record more, of a key of the table and its owner. -/
theorem UsageBook.absorb {start db : Db} {log : List ApiRequest} (h : UsageBook start log db)
    {r : ApiRequest} {key : ApiKey} (hkey : db.apiKeys.get r.apiKeyId = some key)
    (howner : key.userId = r.userId) : UsageBook start (log ++ [r]) (absorb db r) := by
  obtain ⟨-, hother⟩ := mergeRollup_row (isUsageRow_row r) (mergeRollup_countRow h.oneRow r)
  constructor
  · intro k hk
    rw [recordsOf_append, List.append_eq_nil_iff] at hk
    have hne : k ≠ r.rollupKey := by
      rintro rfl
      simp at hk
    exact (hother k hne).trans (h.absent k hk.1)
  · intro k hk
    rw [recordsOf_append] at hk ⊢
    by_cases hr : r.rollupKey = k
    · subst hr
      rw [if_pos rfl]
      exact h.absorb_row hkey howner
    · simp only [hr, if_false, List.append_nil] at hk ⊢
      rw [show (GeoPlatform.Convex.absorb db r).usageDaily = countRow db.usageDaily r from rfl,
        hother k (Ne.symm hr)]
      exact h.present k hk
  · rw [List.length_append, ← h.totals]
    exact countRow_total h.oneRow r
  · intro r' hr'
    rcases List.mem_append.mp hr' with hr' | hr'
    · obtain ⟨k, hk, howner'⟩ := h.owners r' hr'
      obtain ⟨k', hk', huser⟩ := touch_owner r hk
      exact ⟨k', hk', huser.trans howner'⟩
    · rw [List.mem_singleton.mp hr']
      obtain ⟨k', hk', huser⟩ := touch_owner r hkey
      exact ⟨k', hk', huser.trans howner⟩
  · intro i
    have hsome : (db.apiKeys.get r.apiKeyId).isSome := by rw [hkey]; rfl
    have hi := h.lastUse i
    show GeoPlatform.Convex.lastUse (touch db.apiKeys r) i = _
    rw [lastUse_touch hsome i, hi]
    by_cases hr : r.apiKeyId = i <;>
      simp [List.filter_append, hr, List.foldl_append]
  · exact h.epoch.touch r

theorem UsageBook.foldl {start db : Db} {log rs : List ApiRequest} (h : UsageBook start log db)
    (hrs : ∀ r ∈ rs, ∃ key, db.apiKeys.get r.apiKeyId = some key ∧ key.userId = r.userId) :
    UsageBook start (log ++ rs) (rs.foldl GeoPlatform.Convex.absorb db) := by
  induction rs generalizing log db with
  | nil => simpa using h
  | cons r rs ih =>
    obtain ⟨key, hkey, howner⟩ := hrs r (by simp)
    have hrest := ih (h.absorb hkey howner) fun r' hr' => by
      obtain ⟨key', hkey', howner'⟩ := hrs r' (List.mem_cons_of_mem _ hr')
      obtain ⟨k', hk', huser⟩ := touch_owner r hkey'
      exact ⟨k', hk', huser.trans howner'⟩
    simpa using hrest

/-! ### Runs -/

theorem acceptedRequests_owner {db : Db} {now : ℕ} {entries : List UsageEntry} {r : ApiRequest}
    (h : r ∈ acceptedRequests db now entries) :
    ∃ key, db.apiKeys.get r.apiKeyId = some key ∧ key.userId = r.userId := by
  obtain ⟨a, ha, rfl⟩ := List.mem_map.mp h
  obtain ⟨entry, -, ha⟩ := List.mem_filterMap.mp ha
  exact ⟨a.key.val, (acceptRecord_key ha).2.2, rfl⟩

theorem foldl_insert_docs (t : Table ApiRequest) (rs : List ApiRequest) :
    ∃ docs, (rs.foldl Table.insert t).docs = t.docs ++ docs ∧ docs.map Doc.val = rs ∧
      ∀ d ∈ docs, t.nextId ≤ d.id := by
  induction rs generalizing t with
  | nil => exact ⟨[], by simp, rfl, by simp⟩
  | cons r rs ih =>
    obtain ⟨docs, hdocs, hvals, hids⟩ := ih (t.insert r)
    refine ⟨⟨t.nextId, r⟩ :: docs, ?_, by simp [hvals], ?_⟩
    · rw [List.foldl_cons, hdocs]
      simp [Table.insert]
    · intro d hd
      rcases List.mem_cons.mp hd with rfl | hd
      · exact le_rfl
      · exact (Nat.le_succ _).trans (hids d hd)

theorem filter_old_docs {α : Type} (t : Table α) {docs : List (Doc α)}
    (h : ∀ d ∈ docs, d ∈ t.docs) : docs.filter (fun d => t.nextId ≤ d.id) = [] := by
  rw [List.filter_eq_nil_iff]
  intro d hd
  have hlt := t.bounded d (h d hd)
  simp only [decide_eq_true_eq]
  omega

theorem addedRequests_foldl (db : Db) (rs : List ApiRequest) :
    addedRequests db (rs.foldl absorb db) = rs := by
  obtain ⟨docs, hdocs, hvals, hids⟩ := foldl_insert_docs db.apiRequests rs
  have hnew : docs.filter (fun d => db.apiRequests.nextId ≤ d.id) = docs :=
    List.filter_eq_self.mpr fun d hd => by simpa using hids d hd
  simp only [addedRequests, foldl_absorb, hdocs, List.filter_append,
    filter_old_docs db.apiRequests fun d hd => hd, hnew, List.nil_append, hvals]

/-- What one call of `recordUsage` answers and writes. -/
structure RecordedBatch (db db' : Db) (now : ℕ) (entries : List UsageEntry) (reply : Answer) :
    Prop where
  added : addedRequests db db' = acceptedRequests db now (entries.take MAX_USAGE_ENTRIES)
  reply : reply = .usage ⟨(addedRequests db db').length,
    entries.length - (addedRequests db db').length⟩
  lastUse : ∀ i, lastUse db'.apiKeys i =
    (((addedRequests db db').filter fun r => r.apiKeyId = i).map ApiRequest.timestamp).foldl max
      (lastUse db.apiKeys i)

theorem run_recordUsage {db : Db} (hrows : OneRow db.usageDaily)
    (hused : UsedAfterEpoch db.apiKeys) (now : ℕ) (entries : List UsageEntry) :
    Call.run env db ⟨now, .recordUsage entries⟩ =
      (let rs := acceptedRequests db now (entries.take MAX_USAGE_ENTRIES)
      (.usage ⟨rs.length, entries.length - rs.length⟩, rs.foldl absorb db)) := by
  show commit db .usage (recordUsage now entries db) = _
  rw [recordUsage_eq hrows hused]
  rfl

theorem lastUse_foldl {t : Table ApiKey} {rs : List ApiRequest}
    (h : ∀ r ∈ rs, (t.get r.apiKeyId).isSome) (i : ℕ) :
    lastUse (rs.foldl touch t) i =
      ((rs.filter fun r => r.apiKeyId = i).map ApiRequest.timestamp).foldl max (lastUse t i) := by
  induction rs generalizing t with
  | nil => rfl
  | cons r rs ih =>
    have hrest := @ih (touch t r) fun r' hr' => by
      obtain ⟨k, hk⟩ := Option.isSome_iff_exists.mp (h r' (List.mem_cons_of_mem _ hr'))
      obtain ⟨k', hk', -⟩ := touch_owner r hk
      rw [hk']
      rfl
    rw [List.foldl_cons, hrest, lastUse_touch (h r (by simp))]
    by_cases hr : r.apiKeyId = i <;> simp [hr]

theorem recordedBatch {db : Db} (hrows : OneRow db.usageDaily)
    (hused : UsedAfterEpoch db.apiKeys) (now : ℕ) (entries : List UsageEntry) :
    RecordedBatch db (Call.run env db ⟨now, .recordUsage entries⟩).2 now entries
      (Call.run env db ⟨now, .recordUsage entries⟩).1 := by
  rw [run_recordUsage hrows hused]
  refine ⟨addedRequests_foldl db _, ?_, fun i => ?_⟩
  · simp only [addedRequests_foldl]
  · simp only [addedRequests_foldl]
    rw [foldl_absorb]
    refine lastUse_foldl (fun r hr => ?_) i
    obtain ⟨key, hkey, -⟩ := acceptedRequests_owner hr
    rw [hkey]
    rfl

/-- Any step moves the book on by the rows it inserts. -/
theorem UsageBook.run {start db : Db} {log : List ApiRequest} (h : UsageBook start log db)
    (c : Call) : UsageBook start (log ++ addedRequests db (c.run env db).2) (c.run env db).2 := by
  by_cases hrecord : ∃ entries, c.txn = .recordUsage entries
  · obtain ⟨entries, htxn⟩ := hrecord
    obtain ⟨now, txn⟩ := c
    obtain rfl : txn = .recordUsage entries := htxn
    rw [run_recordUsage h.oneRow h.epoch, addedRequests_foldl]
    exact h.foldl fun r hr => acceptedRequests_owner hr
  · have hnot : ∀ entries, c.txn ≠ .recordUsage entries := fun entries htxn =>
      hrecord ⟨entries, htxn⟩
    have hkept := @run_usageKept env db c hnot
    have hnone : addedRequests db (c.run env db).2 = [] := by
      rw [addedRequests, filter_old_docs db.apiRequests hkept.requests, List.map_nil]
    have hdaily : (c.run env db).2.usageDaily = db.usageDaily := by
      refine (run_frame env db c).usageDaily fun hw => ?_
      obtain ⟨now, txn⟩ := c
      cases txn <;> simp [Txn.writes] at hw
      exact absurd rfl (hnot _)
    rw [hnone, List.append_nil]
    refine ⟨fun k hk => ?_, fun k hk => ?_, ?_, fun r hr => ?_, fun i => ?_, ?_⟩
    · rw [hdaily]
      exact h.absent k hk
    · rw [hdaily]
      exact h.present k hk
    · rw [hdaily]
      exact h.totals
    · obtain ⟨key, hkey, howner⟩ := h.owners r hr
      obtain ⟨key', hkey', hrewrite⟩ := (run_apiKeys env db c).get_some hkey
      exact ⟨key', hkey', hrewrite.kept.userId.trans howner⟩
    · rw [hkept.lastUse]
      exact h.lastUse i
    · rw [usedAfterEpoch_iff]
      intro i
      rw [hkept.lastUse]
      exact usedAfterEpoch_iff.mp h.epoch i

theorem usageBook_nil {start : Db} (hempty : start.usageDaily.docs = [])
    (hused : UsedAfterEpoch start.apiKeys) : UsageBook start [] start where
  absent k _ := by simp [Table.query, hempty]
  present k hk := absurd rfl hk
  totals := by simp [Table.sum, hempty]
  owners r hr := by cases hr
  lastUse _ := rfl
  epoch := hused

theorem usageBook_final {start : Db} (hempty : start.usageDaily.docs = [])
    (hused : UsedAfterEpoch start.apiKeys) (cs : List Call) :
    UsageBook start (requestLog env start cs) (Runs.final (Call.run env) start cs) := by
  refine Runs.history_induction (Call.run env)
    (P := fun cs db => UsageBook start (requestLog env start cs) db)
    (usageBook_nil hempty hused) (fun pre c h => ?_) cs
  have hlog : requestLog env start (pre ++ [c]) = requestLog env start pre ++
      addedRequests (Runs.final (Call.run env) start pre)
        (c.run env (Runs.final (Call.run env) start pre)).2 := by
    simp [requestLog, Runs.trace_append]
  rw [hlog]
  exact h.run c

/-- A batch recorded in parts, in several calls of one instant, takes in the same records. -/
theorem final_parts {db : Db} (hrows : OneRow db.usageDaily) (hused : UsedAfterEpoch db.apiKeys)
    (now : ℕ) {parts : List (List UsageEntry)}
    (hshort : ∀ p ∈ parts, p.length ≤ MAX_USAGE_ENTRIES) :
    Runs.final (Call.run env) db (parts.map fun p => ⟨now, .recordUsage p⟩) =
      (acceptedRequests db now parts.flatten).foldl absorb db := by
  induction parts generalizing db with
  | nil => rfl
  | cons p parts ih =>
    have htake : p.take MAX_USAGE_ENTRIES = p := List.take_of_length_le (hshort p (by simp))
    have hfirst : Runs.next (Call.run env) db ⟨now, .recordUsage p⟩ =
        (acceptedRequests db now p).foldl absorb db := by
      rw [Runs.next, run_recordUsage hrows hused, htake]
    have hrows' : OneRow ((acceptedRequests db now p).foldl absorb db).usageDaily := by
      rw [foldl_absorb]
      exact hrows.foldl _
    have hused' : UsedAfterEpoch ((acceptedRequests db now p).foldl absorb db).apiKeys := by
      rw [foldl_absorb]
      exact hused.foldl _
    rw [List.map_cons, Runs.final_cons, hfirst,
      ih hrows' hused' fun q hq => hshort q (List.mem_cons_of_mem _ hq), acceptedRequests_foldl,
      List.flatten_cons, acceptedRequests_append, List.foldl_append]

theorem length_le_of_flatten {parts : List (List UsageEntry)} {entries : List UsageEntry}
    (h : parts.flatten = entries) {p : List UsageEntry} (hp : p ∈ parts) :
    p.length ≤ entries.length := by
  rw [← h, List.length_flatten]
  exact List.single_le_sum (fun _ _ => Nat.zero_le _) _ (List.mem_map_of_mem hp)

/-- The records a call says it wrote. -/
def writtenBy (reply : Answer) : ℕ :=
  match reply with
  | .usage r => r.written
  | _ => 0

theorem commit_writtenBy {α : Type} {db : Db} {answer : α → Answer} {r : Except TxError (α × Db)}
    (h : ∀ a, writtenBy (answer a) = 0) : writtenBy (commit db answer r).1 = 0 := by
  rcases commit_cases db answer r with ⟨e, -, hc⟩ | ⟨a, db', -, hc⟩
  · rw [hc]
    rfl
  · rw [hc]
    exact h a

/-- Only `recordUsage` answers with a written count. -/
theorem writtenBy_eq_zero {db : Db} {c : Call} (hnot : ∀ entries, c.txn ≠ .recordUsage entries) :
    writtenBy (c.run env db).1 = 0 := by
  obtain ⟨now, txn⟩ := c
  cases txn with
  | recordUsage entries => exact absurd rfl (hnot entries)
  | describe hash =>
    simp only [Call.run]
    split <;> rfl
  | prune => rfl
  | signUp email => rfl
  | signIn userId expirationTime => rfl
  | invalidateSessions userId => rfl
  | _ => exact commit_writtenBy fun _ => rfl

theorem sum_written {start : Db} (hempty : start.usageDaily.docs = [])
    (hused : UsedAfterEpoch start.apiKeys) (cs : List Call) :
    ((Runs.trace (Call.run env) start cs).map fun x => writtenBy x.reply).sum =
      (requestLog env start cs).length := by
  rw [requestLog, List.length_flatMap]
  congr 1
  refine List.map_congr_left fun x hx => ?_
  obtain ⟨pre, post, -, hbefore, hreply⟩ := Runs.mem_trace _ hx
  have hbook := @usageBook_final env start hempty hused pre
  rw [← hbefore] at hbook
  rw [hreply]
  by_cases hrecord : ∃ entries, x.event.txn = .recordUsage entries
  · obtain ⟨entries, htxn⟩ := hrecord
    obtain ⟨before, ⟨now, txn⟩, reply⟩ := x
    obtain rfl : txn = .recordUsage entries := htxn
    rw [(recordedBatch hbook.oneRow hbook.epoch now entries).reply]
    rfl
  · have hnot : ∀ entries, x.event.txn ≠ .recordUsage entries := fun entries htxn =>
      hrecord ⟨entries, htxn⟩
    have hkept := @run_usageKept env x.before x.event hnot
    rw [writtenBy_eq_zero hnot, addedRequests, filter_old_docs _ hkept.requests]
    rfl

/-- The usage ledger of every run. A key, endpoint and day has one daily row exactly when request
rows were inserted for it, and that row counts them. A batch is recorded alike in one call or in
several calls of the same instant, as far as one call reads it. -/
theorem usage_ledger {start : Db} (hempty : start.usageDaily.docs = [])
    (hused : UsedAfterEpoch start.apiKeys) (cs : List Call) :
    let db := Runs.final (Call.run env) start cs
    let log := requestLog env start cs
    (∀ k, recordsOf k log = [] → db.usageDaily.query (isUsageRow k) = []) ∧
    (∀ k, recordsOf k log ≠ [] → ∃ d key, db.usageDaily.query (isUsageRow k) = [d] ∧
      db.apiKeys.get k.apiKeyId = some key ∧ d.val.userId = key.userId ∧
        IsRowOf k (recordsOf k log) d.val) ∧
    db.usageDaily.sum UsageDaily.total =
      ((Runs.trace (Call.run env) start cs).map fun x => writtenBy x.reply).sum ∧
    (∀ i, lastUse db.apiKeys i =
      ((log.filter fun r => r.apiKeyId = i).map ApiRequest.timestamp).foldl max
        (lastUse start.apiKeys i)) ∧
    (∀ (now : ℕ) (entries : List UsageEntry), RecordedBatch db
      (Call.run env db ⟨now, .recordUsage entries⟩).2 now entries
      (Call.run env db ⟨now, .recordUsage entries⟩).1) ∧
    ∀ (now : ℕ) (entries : List UsageEntry) (parts : List (List UsageEntry)),
      parts.flatten = entries.take MAX_USAGE_ENTRIES →
        Runs.final (Call.run env) db (parts.map fun p => ⟨now, .recordUsage p⟩) =
          (Call.run env db ⟨now, .recordUsage entries⟩).2 := by
  intro db log
  have hbook : UsageBook start log db := usageBook_final hempty hused cs
  refine ⟨hbook.absent, fun k hk => ?_, ?_, hbook.lastUse, fun now entries => ?_,
    fun now entries parts hparts => ?_⟩
  · obtain ⟨d, hd, hrow⟩ := hbook.present k hk
    obtain ⟨r, hr⟩ := List.exists_mem_of_ne_nil _ hk
    obtain ⟨hlog, hsame⟩ := List.mem_filter.mp hr
    obtain ⟨key, hkey, howner⟩ := hbook.owners r hlog
    have hid : r.apiKeyId = k.apiKeyId := congrArg RollupKey.apiKeyId (of_decide_eq_true hsame)
    exact ⟨d, key, hd, hid ▸ hkey, (hrow.owner r hr).symm.trans howner.symm, hrow⟩
  · rw [sum_written hempty hused]
    exact hbook.totals
  · exact recordedBatch hbook.oneRow hbook.epoch now entries
  · have hshort : ∀ p ∈ parts, p.length ≤ MAX_USAGE_ENTRIES := fun p hp =>
      (length_le_of_flatten hparts hp).trans (List.length_take_le _ _)
    rw [final_parts hbook.oneRow hbook.epoch now hshort, hparts,
      run_recordUsage hbook.oneRow hbook.epoch]

/-- A geocoding request with the key of `freeAccount`, as the gateway reports it. -/
def freeEntry : UsageEntry where
  keyId := "0"
  userId := "0"
  endpoint := "/v1/geocode"
  method := "GET"
  statusCode := some 200
  responseTimeMs := some 5
  timestamp := some 86400000

theorem freeAccount_usedAfterEpoch : UsedAfterEpoch freeAccount.apiKeys := by
  intro i k hk
  have hmem := Table.get_eq_some.mp hk
  simp only [freeAccount, Table.insert, Table.empty, List.nil_append, List.mem_singleton,
    Doc.mk.injEq] at hmem
  rw [hmem.2]
  exact le_rfl

/-- One request recorded, and a daily total of one. -/
theorem usage_ledger_freeAccount :
    (Runs.final (Call.run testEnv) freeAccount
      [⟨86400000, .recordUsage [freeEntry]⟩]).usageDaily.sum UsageDaily.total = 1 := by
  have h := (@usage_ledger testEnv freeAccount rfl freeAccount_usedAfterEpoch
    [⟨86400000, .recordUsage [freeEntry]⟩]).2.2.1
  rw [h]
  decide +kernel

/-- As many records as one call reads, and one more. -/
def longBatch : List UsageEntry := List.replicate (MAX_USAGE_ENTRIES + 1) freeEntry

theorem acceptedRequests_replicate {db : Db} {now : ℕ} {entry : UsageEntry}
    (h : (acceptRecord db now entry).isSome) (n : ℕ) :
    (acceptedRequests db now (List.replicate n entry)).length = n := by
  obtain ⟨a, ha⟩ := Option.isSome_iff_exists.mp h
  rw [acceptedRequests, List.filterMap_replicate_of_some ha]
  simp

/-- A batch longer than a call reads is recorded in full only when it is split. -/
theorem long_batch_cut :
    Runs.final (Call.run testEnv) freeAccount
        [⟨86400000, .recordUsage (longBatch.take MAX_USAGE_ENTRIES)⟩,
          ⟨86400000, .recordUsage (longBatch.drop MAX_USAGE_ENTRIES)⟩] ≠
      (Call.run testEnv freeAccount ⟨86400000, .recordUsage longBatch⟩).2 := by
  intro h
  have haccept : (acceptRecord freeAccount 86400000 freeEntry).isSome := by decide +kernel
  have hrows : OneRow freeAccount.usageDaily := fun k => Nat.zero_le _
  have hsplit : Runs.final (Call.run testEnv) freeAccount
      [⟨86400000, .recordUsage (longBatch.take MAX_USAGE_ENTRIES)⟩,
        ⟨86400000, .recordUsage (longBatch.drop MAX_USAGE_ENTRIES)⟩] =
      (acceptedRequests freeAccount 86400000 longBatch).foldl absorb freeAccount := by
    have hshort : ∀ p ∈ [longBatch.take MAX_USAGE_ENTRIES, longBatch.drop MAX_USAGE_ENTRIES],
        p.length ≤ MAX_USAGE_ENTRIES := by
      intro p hp
      simp only [List.mem_cons, List.not_mem_nil, or_false] at hp
      rcases hp with rfl | rfl
      · exact List.length_take_le _ _
      · rw [longBatch, List.length_drop, List.length_replicate, MAX_USAGE_ENTRIES]
        omega
    have hparts := @final_parts testEnv freeAccount hrows freeAccount_usedAfterEpoch
      86400000 _ hshort
    simpa using hparts
  rw [hsplit, run_recordUsage hrows freeAccount_usedAfterEpoch] at h
  have hcount := congrArg (fun db => (addedRequests freeAccount db).length) h
  simp only [addedRequests_foldl, longBatch, List.take_replicate,
    acceptedRequests_replicate haccept] at hcount
  simp [MAX_USAGE_ENTRIES] at hcount

end GeoPlatform.Convex
