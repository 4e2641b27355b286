import GeoPlatform.Api.UsageRecorder
import GeoPlatform.Convex.UsageLedger
import GeoPlatform.Library.ListSums
import GeoPlatform.Library.Run

/-! How often a record is counted. The queue and the calls that have not failed hold a record at
most once, so it is counted once, and once more for every call that failed after counting it. -/
namespace GeoPlatform.Api
open GeoPlatform.Convex Docs ListSums

variable {config : RecorderConfig} {env : ProcessEnv}

/-! ### Counts -/

def tagCount (n : ℕ) (l : List TaggedRecord) : ℕ := l.countP fun t => t.tag = n

theorem tagCount_append (n : ℕ) (l m : List TaggedRecord) :
    tagCount n (l ++ m) = tagCount n l + tagCount n m := List.countP_append

theorem tagCount_take_drop (n k : ℕ) (l : List TaggedRecord) :
    tagCount n (l.take k) + tagCount n (l.drop k) = tagCount n l := by
  rw [← tagCount_append, List.take_append_drop]

theorem tagCount_sublist {l m : List TaggedRecord} (h : l.Sublist m) (n : ℕ) :
    tagCount n l ≤ tagCount n m := h.countP_le

/-- How often a call has counted the record. -/
def Post.counts (n : ℕ) (p : Post) : ℕ := p.counted.countP fun c => c.1 = n

/-- How often a call may still count the record. -/
def Post.owes (n : ℕ) (p : Post) : ℕ :=
  match p.stage with
  | .sent => tagCount n p.batch
  | .handling rest _ => rest.countP fun t => t.tag = n
  | .replied _ _ => 0

/-- How often a call that has not failed carries the record. -/
def Post.carries (n : ℕ) (p : Post) : ℕ := if p.failed then 0 else tagCount n p.batch

/-- How often the queue and the calls that have not failed hold the record. -/
def held (n : ℕ) (s : UsageSystem) : ℕ :=
  tagCount n s.pending + (s.posts.map (Post.carries n)).sum

/-- How often the record has been counted into the daily rollups. -/
def contributions (n : ℕ) (s : UsageSystem) : ℕ := (s.posts.map (Post.counts n)).sum

/-- The calls that ended in `ConvexGatewayError` although the record was counted for them. -/
def lostReplies (n : ℕ) (s : UsageSystem) : List Post :=
  s.posts.filter fun p => p.failed && decide (0 < p.counts n)

def Post.countedIn (k : RollupKey) (p : Post) : ℕ := p.counted.countP fun c => c.2 = k

/-! ### The invariant -/

structure UsageInv (s : UsageSystem) : Prop where
  once : ∀ n, held n s ≤ 1
  fresh : ∀ n, s.nextTag ≤ n → held n s = 0
  posts : ∀ p ∈ s.posts, ∀ n, p.counts n + p.owes n ≤ tagCount n p.batch ∧ tagCount n p.batch ≤ 1
  flushing : ∀ i, s.flushing = some i → ∃ p, s.posts[i]? = some p ∧ p.failed = false
  totals : ∀ k, totalColumn.sum k s.db.usageDaily = (s.posts.map (Post.countedIn k)).sum

theorem append_tagCount (n maxPending : ℕ) (pending : List TaggedRecord) (r : TaggedRecord) :
    tagCount n (append maxPending pending r) ≤
      tagCount n pending + if r.tag = n then 1 else 0 := by
  have hlast : tagCount n (pending ++ [r]) = tagCount n pending + if r.tag = n then 1 else 0 := by
    rw [tagCount_append]
    simp [tagCount, List.countP_cons]
  rw [← hlast]
  unfold append
  split_ifs
  · exact le_rfl
  · exact tagCount_sublist (List.drop_sublist 1 _) n

theorem inv_record {s : UsageSystem} (h : UsageInv s) (r : UsageRecord) :
    UsageInv (s.next config env (.record r)) := by
  have hheld : ∀ n, held n (s.next config env (.record r)) ≤
      held n s + if s.nextTag = n then 1 else 0 := by
    intro n
    have hcount := append_tagCount n config.maxPending s.pending ⟨s.nextTag, r⟩
    simp only [held, UsageSystem.next] at *
    omega
  refine ⟨fun n => ?_, fun n hn => ?_, h.posts, h.flushing, h.totals⟩
  · have hn := hheld n
    have honce := h.once n
    have hfresh := h.fresh n
    split_ifs at hn with heq
    · have hzero := hfresh heq.le
      omega
    · omega
  · have hnew : s.nextTag + 1 ≤ n := hn
    have hcount := hheld n
    have hzero := h.fresh n (by omega)
    rw [if_neg (by omega)] at hcount
    omega

theorem inv_unlock {s : UsageSystem} (h : UsageInv s) : UsageInv { s with flushing := none } := by
  refine ⟨h.once, h.fresh, h.posts, fun i hi => ?_, h.totals⟩
  cases hi

theorem held_sendBatch (s : UsageSystem) (n : ℕ) : held n (s.sendBatch config) = held n s := by
  unfold UsageSystem.sendBatch
  split_ifs
  · rfl
  · have hsplit := tagCount_take_drop n config.batchSize s.pending
    simp only [held, List.map_append, List.sum_append, List.map_cons, List.map_nil, List.sum_cons,
      List.sum_nil, Post.carries, Bool.false_eq_true, if_false]
    omega

theorem inv_sendBatch {s : UsageSystem} (h : UsageInv s) : UsageInv (s.sendBatch config) := by
  have hheld : ∀ n, held n (s.sendBatch config) = held n s := held_sendBatch s
  have hnextTag : (s.sendBatch config).nextTag = s.nextTag := by
    unfold UsageSystem.sendBatch
    split_ifs <;> rfl
  refine ⟨fun n => ?_, fun n hn => ?_, ?_, ?_, ?_⟩
  · rw [hheld]
    exact h.once n
  · rw [hheld]
    rw [hnextTag] at hn
    exact h.fresh n hn
  · unfold UsageSystem.sendBatch
    split_ifs
    · exact h.posts
    · intro p hp n
      rcases List.mem_append.mp hp with hp | hp
      · exact h.posts p hp n
      · rw [List.mem_singleton.mp hp]
        have honce := h.once n
        have hsplit := tagCount_take_drop n config.batchSize s.pending
        simp only [held] at honce
        simp only [Post.counts, Post.owes, List.countP_nil]
        omega
  · unfold UsageSystem.sendBatch
    split_ifs
    · intro i hi
      cases hi
    · intro i hi
      cases hi
      exact ⟨_, List.getElem?_concat_length .., rfl⟩
  · unfold UsageSystem.sendBatch
    split_ifs
    · exact h.totals
    · intro k
      simp only [List.map_append, List.sum_append, List.map_cons, List.map_nil, List.sum_cons,
        List.sum_nil, Post.countedIn, List.countP_nil]
      exact h.totals k

theorem inv_failCall {s : UsageSystem} (h : UsageInv s) {i : ℕ} {p : Post}
    (hp : s.posts[i]? = some p) (hopen : p.failed = false) :
    UsageInv (s.failCall config i p) := by
  have hheld : ∀ n, held n (s.failCall config i p) ≤ held n s := by
    intro n
    have hset := sum_map_set (Post.carries n) { p with failed := true } hp
    have hback := tagCount_sublist (List.take_sublist config.maxPending (p.batch ++ s.pending)) n
    rw [tagCount_append] at hback
    simp only [Post.carries, hopen, Bool.false_eq_true, if_false, if_true] at hset
    simp only [held, UsageSystem.failCall, requeue]
    omega
  refine ⟨fun n => (hheld n).trans (h.once n), fun n hn => ?_, ?_, ?_, ?_⟩
  · have hzero := h.fresh n hn
    have hle := hheld n
    omega
  · intro q hq n
    rcases List.mem_or_eq_of_mem_set hq with hq | rfl
    · exact h.posts q hq n
    · exact h.posts p (List.mem_of_getElem? hp) n
  · intro j hj
    cases hj
  · intro k
    have hset := sum_map_set (Post.countedIn k) { p with failed := true } hp
    have hsame : Post.countedIn k { p with failed := true } = p.countedIn k := rfl
    have htotals := h.totals k
    simp only [UsageSystem.failCall]
    omega

/-! ### The handler -/

/-- What a step of the handler may do to a call and the database. -/
structure PostStep (p p' : Post) (db db' : Db) : Prop where
  batch : p'.batch = p.batch
  failed : p'.failed = p.failed
  counts : ∀ n, p'.counts n + p'.owes n ≤ p.counts n + p.owes n
  totals : ∀ k, totalColumn.sum k db'.usageDaily + p.countedIn k =
    totalColumn.sum k db.usageDaily + p'.countedIn k

theorem inv_onPost {s : UsageSystem} (h : UsageInv s) (i : ℕ) {f : Post → Post × Db}
    (hf : ∀ p, PostStep p (f p).1 s.db (f p).2) : UsageInv (s.onPost i f) := by
  unfold UsageSystem.onPost
  cases hp : s.posts[i]? with
  | none => exact h
  | some p =>
    have hstep := hf p
    have hcarries : ∀ n, (f p).1.carries n = p.carries n := by
      intro n
      simp only [Post.carries, hstep.batch, hstep.failed]
    have hheld : ∀ n, tagCount n s.pending +
        ((s.posts.set i (f p).1).map (Post.carries n)).sum = held n s := by
      intro n
      have hset := sum_map_set (Post.carries n) (f p).1 hp
      rw [hcarries] at hset
      simp only [held]
      omega
    refine ⟨fun n => (hheld n).trans_le (h.once n), fun n hn => (hheld n).trans (h.fresh n hn),
      ?_, ?_, ?_⟩
    · intro q hq n
      rcases List.mem_or_eq_of_mem_set hq with hq | rfl
      · exact h.posts q hq n
      · have hpost := h.posts p (List.mem_of_getElem? hp) n
        have hcounts := hstep.counts n
        rw [hstep.batch]
        omega
    · intro j hj
      obtain ⟨q, hq, hopen⟩ := h.flushing j hj
      by_cases hij : i = j
      · subst hij
        rw [hp] at hq
        cases hq
        have hlt := (List.getElem?_eq_some_iff.mp hp).1
        refine ⟨(f p).1, ?_, by rw [hstep.failed, hopen]⟩
        exact List.getElem?_set_self hlt
      · exact ⟨q, by rw [← hq]; exact List.getElem?_set_ne hij, hopen⟩
    · intro k
      have hset := sum_map_set (Post.countedIn k) (f p).1 hp
      have htotals := h.totals k
      have hmoved := hstep.totals k
      simp only
      omega

theorem PostStep.refl (p : Post) (db : Db) : PostStep p p db db :=
  ⟨rfl, rfl, fun _ => le_rfl, fun _ => rfl⟩

theorem countP_toEntry (n : ℕ) (batch : List TaggedRecord) :
    (batch.map TaggedRecord.toEntry).countP (fun t => t.tag = n) = tagCount n batch := by
  rw [List.countP_map]
  rfl

theorem postStep_arrive (p : Post) (db : Db) : PostStep p p.arrive db db := by
  unfold Post.arrive
  split
  · rename_i hsent
    split_ifs
    · refine ⟨rfl, rfl, fun n => ?_, fun k => rfl⟩
      simp only [Post.counts, Post.owes]
      omega
    · refine ⟨rfl, rfl, fun n => ?_, fun k => rfl⟩
      have hentries := countP_toEntry n p.batch
      simp only [Post.counts, Post.owes, hsent, hentries]
      omega
  · exact PostStep.refl p db

theorem postStep_refuse (status : ℕ) (p : Post) (db : Db) : PostStep p (p.refuse status) db db := by
  unfold Post.refuse
  split
  · exact PostStep.refl p db
  · split_ifs
    · exact PostStep.refl p db
    · refine ⟨rfl, rfl, fun n => ?_, fun k => rfl⟩
      simp only [Post.counts, Post.owes]
      omega

/-- A chunk counts no record more often than it holds it. -/
theorem acceptedTags_count (db : Db) (now n : ℕ) (chunk : List TaggedEntry) :
    (acceptedTags db now chunk).countP (fun c => c.1 = n) ≤ chunk.countP fun t => t.tag = n := by
  have hall : ∀ l : List TaggedEntry, (l.filterMap fun t =>
      (acceptEntry now (keyByIdString db.apiKeys t.entry.keyId) t.entry).map fun a =>
        (t.tag, a.rollupKey)).countP (fun c => c.1 = n) ≤ l.countP fun t => t.tag = n := by
    intro l
    induction l with
    | nil => exact le_rfl
    | cons t l ih =>
      rw [List.filterMap_cons, List.countP_cons]
      cases acceptEntry now (keyByIdString db.apiKeys t.entry.keyId) t.entry with
      | none => exact ih.trans (Nat.le_add_right _ _)
      | some a =>
        simp only [Option.map_some, List.countP_cons]
        omega
  exact (hall _).trans (List.take_sublist _ _).countP_le

/-- The accepted records of a chunk, row by row, are what the mutation adds to the totals. -/
theorem acceptedTags_added (db : Db) (now : ℕ) (k : RollupKey) (chunk : List TaggedEntry) :
    totalColumn.added k (((chunk.map TaggedEntry.entry).take MAX_USAGE_ENTRIES).filterMap
      (acceptRecord db now)) = (acceptedTags db now chunk).countP fun c => c.2 = k := by
  unfold acceptedTags
  rw [← List.map_take]
  generalize chunk.take MAX_USAGE_ENTRIES = l
  induction l with
  | nil => rfl
  | cons t l ih =>
    simp only [UsageColumn.added, totalColumn] at ih ⊢
    rw [List.map_cons, List.filterMap_cons, List.filterMap_cons]
    simp only [acceptRecord] at ih ⊢
    cases acceptEntry now (keyByIdString db.apiKeys t.entry.keyId) t.entry with
    | none => exact ih
    | some a =>
      simp only [Option.map_some, List.map_cons, List.sum_cons, List.countP_cons, ih]
      simp only [decide_eq_true_eq]
      omega

theorem postStep_commit (now : ℕ) (p : Post) (db : Db) :
    PostStep p (p.commit now db).1 db (p.commit now db).2 := by
  unfold Post.commit
  split
  · rename_i rest written hhandling
    split_ifs
    · refine ⟨rfl, rfl, fun n => ?_, fun k => rfl⟩
      simp only [Post.counts, Post.owes]
      omega
    · cases hrecord : recordUsage now ((rest.take MAX_USAGE_BATCH).map TaggedEntry.entry) db with
      | error e =>
        simp only [hrecord]
        refine ⟨rfl, rfl, fun n => ?_, fun k => rfl⟩
        simp only [Post.counts, Post.owes]
        omega
      | ok r =>
        obtain ⟨reply, db'⟩ := r
        simp only [hrecord]
        refine ⟨rfl, rfl, fun n => ?_, fun k => ?_⟩
        · have hchunk := acceptedTags_count db now n (rest.take MAX_USAGE_BATCH)
          have hsplit : (rest.take MAX_USAGE_BATCH).countP (fun t => t.tag = n) +
              (rest.drop MAX_USAGE_BATCH).countP (fun t => t.tag = n) =
                rest.countP fun t => t.tag = n := by
            rw [← List.countP_append, List.take_append_drop]
          simp only [Post.counts, Post.owes, hhandling, List.countP_append]
          omega
        · have hcolumn := recordUsage_column totalColumn hrecord k
          rw [acceptedTags_added] at hcolumn
          simp only [Post.countedIn, List.countP_append]
          omega
  · exact PostStep.refl p db

/-! ### Whole runs -/

theorem call_usageDaily {c : Call} (h : isRecordUsage c.txn = false) (db : Db) :
    (c.run env db).2.usageDaily = db.usageDaily := by
  apply (run_frame env db c).usageDaily
  obtain ⟨now, txn⟩ := c
  cases txn with
  | recordUsage entries => cases h
  | _ => simp [Txn.writes]

theorem waiting_some {s : UsageSystem} (h : UsageInv s) {i : ℕ} {p : Post}
    (hwaiting : s.waiting = some (i, p)) : s.posts[i]? = some p ∧ p.failed = false := by
  unfold UsageSystem.waiting at hwaiting
  split at hwaiting
  · cases hwaiting
  · rename_i j hj
    obtain ⟨q, hq, hopen⟩ := h.flushing j hj
    rw [hq] at hwaiting
    cases hwaiting
    exact ⟨hq, hopen⟩

theorem inv_step {s : UsageSystem} (h : UsageInv s) (e : UsageEvent) :
    UsageInv (s.next config env e) := by
  cases e with
  | record r => exact inv_record h r
  | flush =>
    simp only [UsageSystem.next]
    split_ifs
    · exact h
    · exact inv_sendBatch h
  | arrive i => exact inv_onPost h i fun p => postStep_arrive p s.db
  | refuse i status => exact inv_onPost h i fun p => postStep_refuse status p s.db
  | commit now i => exact inv_onPost h i fun p => postStep_commit now p s.db
  | receive =>
    simp only [UsageSystem.next]
    split
    · exact h
    · rename_i i p hwaiting
      obtain ⟨hp, hopen⟩ := waiting_some h hwaiting
      unfold UsageSystem.receive
      split
      · split_ifs
        · exact inv_sendBatch h
        · exact inv_failCall h hp hopen
      · exact h
  | lose =>
    simp only [UsageSystem.next]
    split
    · exact h
    · rename_i i p hwaiting
      obtain ⟨hp, hopen⟩ := waiting_some h hwaiting
      exact inv_failCall h hp hopen
  | cancel => exact inv_unlock h
  | call c =>
    simp only [UsageSystem.next]
    cases hcall : isRecordUsage c.txn with
    | true => exact h
    | false =>
      refine ⟨h.once, h.fresh, h.posts, h.flushing, fun k => ?_⟩
      have hsame : (c.run env s.db).2.usageDaily = s.db.usageDaily := call_usageDaily hcall s.db
      simp only [Bool.false_eq_true, if_false, hsame]
      exact h.totals k

theorem inv_empty : UsageInv {} := by
  refine ⟨fun n => Nat.zero_le _, fun n _ => rfl, ?_, ?_, fun k => rfl⟩
  · intro p hp
    cases hp
  · intro i hi
    cases hi

/-- What is counted is held by a call that has not failed, or a failed call counted it. -/
theorem contributions_le {s : UsageSystem} (h : UsageInv s) (n : ℕ) :
    contributions n s ≤ 1 + (lostReplies n s).length := by
  have hsplit : ∀ posts : List Post,
      (∀ p ∈ posts, p.counts n ≤ tagCount n p.batch ∧ tagCount n p.batch ≤ 1) →
      (posts.map (Post.counts n)).sum ≤ (posts.map (Post.carries n)).sum +
        (posts.filter fun p => p.failed && decide (0 < p.counts n)).length := by
    intro posts hposts
    induction posts with
    | nil => exact le_rfl
    | cons p posts ih =>
      have hrest := ih fun q hq => hposts q (List.mem_cons_of_mem _ hq)
      obtain ⟨hcounts, hbatch⟩ := hposts p (List.mem_cons_self ..)
      cases hfailed : p.failed with
      | false =>
        simp only [List.map_cons, List.sum_cons, List.filter_cons, Post.carries, hfailed,
          Bool.false_and, Bool.false_eq_true, if_false] at hrest ⊢
        omega
      | true =>
        by_cases hpos : 0 < p.counts n
        · simp only [List.map_cons, List.sum_cons, List.filter_cons, Post.carries, hfailed, hpos,
            decide_true, Bool.and_self, if_true, List.length_cons] at hrest ⊢
          omega
        · simp only [List.map_cons, List.sum_cons, List.filter_cons, Post.carries, hfailed, hpos,
            decide_false, Bool.and_false, Bool.false_eq_true, if_false, if_true] at hrest ⊢
          omega
  have hposts := hsplit s.posts fun p hp => by
    have hp' := h.posts p hp n
    omega
  have honce := h.once n
  simp only [contributions, lostReplies, held] at *
  omega

/-- In every run, the totals of the daily rollups are the counted records row by row, and a record
is counted at most once more than gateway calls that counted it ended in `ConvexGatewayError`. -/
theorem usage_counted_once_but_for_lost_replies (es : List UsageEvent) :
    let s := Runs.final (UsageSystem.step config env) {} es
    (∀ k, totalColumn.sum k s.db.usageDaily = (s.posts.map (Post.countedIn k)).sum) ∧
      ∀ n, contributions n s ≤ 1 + (lostReplies n s).length := by
  intro s
  have hinv : UsageInv s := by
    apply Runs.final_induction (UsageSystem.step config env)
    · exact inv_empty
    · exact fun s e h => inv_step h e
  exact ⟨hinv.totals, contributions_le hinv⟩

/-- A record is sent, counted, and sent again because the reply is lost. -/
def lostReply : List UsageEvent :=
  let developer : Caller := ⟨some 0, some 0⟩
  let key : InsertKeyArgs := ⟨0, "first", "geo_aaaa", "first-hash", [.geocode, .route], none⟩
  [.call ⟨0, .signUp "dev@example.com"⟩, .call ⟨0, .signIn 0 1000000⟩,
    .call ⟨1, .activateFreeTier developer⟩, .call ⟨2, .insertKey key⟩,
    .record ⟨"0", "0", "/v1/geocode", "GET", 200, 12, 3⟩,
    .flush, .arrive 0, .commit 4 0, .lose,
    .flush, .arrive 1, .commit 5 1, .commit 5 1, .receive]

/-- The one record ends with a total of two. -/
theorem usage_counted_twice_after_lost_reply :
    let s := Runs.final (UsageSystem.step {} testEnv) {} lostReply
    s.nextTag = 1 ∧ contributions 0 s = 2 ∧
      s.db.usageDaily.docs.map (fun d => d.val.total) = [2] := by
  decide +kernel

end GeoPlatform.Api
