import GeoPlatform.Convex.PlaygroundTokens

/-! How many keys an account holds and how many playground tokens a key has. A new key is
counted against both ceilings before it is added, and a new token makes room for itself. -/
namespace GeoPlatform.Convex
open Docs

variable {env : ProcessEnv}

def heldKeys (keys : Table ApiKey) (userId : ℕ) : List (Doc ApiKey) :=
  keys.query fun k => k.userId = userId

def activeKeys (keys : Table ApiKey) (userId : ℕ) : List (Doc ApiKey) :=
  keys.query fun k => k.userId = userId && k.revokedAt.isNone

def heldTokens (tokens : Table PlaygroundToken) (keyId : ℕ) : List (Doc PlaygroundToken) :=
  tokens.query fun t => t.apiKeyId = keyId

/-! ### The keys of an account -/

/-- An account within its two ceilings. -/
structure KeysBounded (userId : ℕ) (keys : Table ApiKey) : Prop where
  total : (heldKeys keys userId).length ≤ MAX_TOTAL_KEYS_PER_USER
  active : (activeKeys keys userId).length ≤ MAX_ACTIVE_KEYS_PER_USER

/-- Rewriting keys in place gives no account another key and revives none. -/
theorem KeysBounded.rewritten {userId : ℕ} {f : ℕ → ApiKey → ApiKey} {keys keys' : Table ApiKey}
    (h : KeysBounded userId keys) (hf : Table.Rewritten f keys keys')
    (hkept : ∀ i k, KeyKept k (f i k)) : KeysBounded userId keys' := by
  constructor
  · have hle := hf.query_length_le (p := fun k => decide (k.userId = userId)) fun i k hk => by
      rw [← (hkept i k).userId]
      exact hk
    exact hle.trans h.total
  · have hle := hf.query_length_le (p := fun k => decide (k.userId = userId) && k.revokedAt.isNone)
      fun i k hk => by
        rw [Bool.and_eq_true, (hkept i k).userId] at hk
        rw [Bool.and_eq_true]
        refine ⟨hk.1, ?_⟩
        cases hrevoked : k.revokedAt with
        | none => rfl
        | some t =>
          rw [(hkept i k).revokedAt t hrevoked] at hk
          cases hk.2
    exact hle.trans h.active

/-- The keys that `insertKey` reads are all the keys of an account that may have one more. -/
theorem mayInsertKey_counts {now : ℕ} {args : InsertKeyArgs} {db : Db}
    (h : MayInsertKey now args db) :
    (heldKeys db.apiKeys args.userId).length < MAX_TOTAL_KEYS_PER_USER ∧
      (activeKeys db.apiKeys args.userId).length < MAX_ACTIVE_KEYS_PER_USER := by
  have htotal : (heldKeys db.apiKeys args.userId).length < MAX_TOTAL_KEYS_PER_USER := by
    have hread := h.total
    rw [List.length_take] at hread
    show (db.apiKeys.query fun k => k.userId = args.userId).length < MAX_TOTAL_KEYS_PER_USER
    omega
  refine ⟨htotal, ?_⟩
  have hactive := h.active
  have hwhole : (db.apiKeys.query fun k => k.userId = args.userId).length ≤
      MAX_TOTAL_KEYS_PER_USER + 1 := Nat.le_succ_of_le htotal.le
  rw [List.take_of_length_le hwhole] at hactive
  have hsame : activeKeys db.apiKeys args.userId =
      (db.apiKeys.query fun k => k.userId = args.userId).filter fun k =>
        k.val.revokedAt.isNone := by
    simp only [activeKeys, Table.query, List.filter_filter, Bool.and_comm]
  rw [hsame]
  exact hactive

theorem KeysBounded.insert {now userId : ℕ} {args : InsertKeyArgs} {db : Db}
    (h : KeysBounded userId db.apiKeys) (hmay : MayInsertKey now args db) :
    KeysBounded userId (db.apiKeys.insert args.key) := by
  by_cases howner : args.userId = userId
  · subst howner
    obtain ⟨htotal, hactive⟩ := mayInsertKey_counts hmay
    constructor
    · have hlen := Table.query_insert_length_le (t := db.apiKeys)
        (fun k => decide (k.userId = args.userId)) args.key
      exact hlen.trans htotal
    · have hlen := Table.query_insert_length_le (t := db.apiKeys)
        (fun k => decide (k.userId = args.userId) && k.revokedAt.isNone) args.key
      exact hlen.trans hactive
  · have hother : args.key.userId ≠ userId := howner
    constructor
    · rw [heldKeys, Table.query_insert_of_not (by simpa using hother)]
      exact h.total
    · rw [activeKeys, Table.query_insert_of_not (by simp [hother])]
      exact h.active

/-- A transaction that registers no key of the account keeps it within its ceilings. -/
theorem keysBounded_run {userId : ℕ} {db : Db} {c : Call} (h : KeysBounded userId db.apiKeys)
    (hregister : ∀ args, c.txn = .upsertKey args → args.userId ≠ userId) :
    KeysBounded userId (c.run env db).2.apiKeys := by
  obtain ⟨base, f, hbase, hf, hrewrite⟩ := run_apiKeys env db c
  suffices hb : KeysBounded userId base from hb.rewritten hf fun i k => (hrewrite i k).kept
  rcases hbase with rfl | ⟨key, hnew, rfl⟩
  · exact h
  · cases hnew with
    | insertKey args htxn hmay => exact h.insert hmay
    | upsertKey args htxn hnone =>
      have hother : args.key.userId ≠ userId := hregister args htxn
      constructor
      · rw [heldKeys, Table.query_insert_of_not (by simpa using hother)]
        exact h.total
      · rw [activeKeys, Table.query_insert_of_not (by simp [hother])]
        exact h.active

/-! ### The tokens of a key -/

/-- The tokens that stay when room is made for one more. -/
def keptTokens (db : Db) (keyId : ℕ) : List (Doc PlaygroundToken) :=
  let oldestFirst := (heldTokens db.playgroundTokens keyId).insertionSort
    fun a b => a.val.expiresAt ≤ b.val.expiresAt
  oldestFirst.drop (oldestFirst.length - (MAX_PLAYGROUND_TOKENS_PER_KEY - 1))

theorem keptTokens_length (db : Db) (keyId : ℕ) :
    (keptTokens db keyId).length < MAX_PLAYGROUND_TOKENS_PER_KEY := by
  have hroom : 0 < MAX_PLAYGROUND_TOKENS_PER_KEY := by decide
  simp only [keptTokens, List.length_drop]
  omega

theorem surplus_append_kept (db : Db) (keyId : ℕ) :
    surplusTokens db keyId ++ keptTokens db keyId =
      (heldTokens db.playgroundTokens keyId).insertionSort
        fun a b => a.val.expiresAt ≤ b.val.expiresAt :=
  List.take_append_drop _ _

theorem mem_surplus_or_kept {db : Db} {keyId : ℕ} {token : Doc PlaygroundToken} :
    token ∈ surplusTokens db keyId ∨ token ∈ keptTokens db keyId ↔
      token ∈ db.playgroundTokens.docs ∧ token.val.apiKeyId = keyId := by
  rw [← List.mem_append, surplus_append_kept, List.mem_insertionSort, heldTokens, Table.mem_query,
    decide_eq_true_eq]

/-- Every surplus token expires no later than every kept one. -/
theorem surplus_le_kept {db : Db} {keyId : ℕ} {removed kept : Doc PlaygroundToken}
    (hremoved : removed ∈ surplusTokens db keyId) (hkept : kept ∈ keptTokens db keyId) :
    removed.val.expiresAt ≤ kept.val.expiresAt := by
  have hsorted : (surplusTokens db keyId ++ keptTokens db keyId).Pairwise
      fun a b => a.val.expiresAt ≤ b.val.expiresAt := by
    rw [surplus_append_kept]
    have : Std.Total fun a b : Doc PlaygroundToken => a.val.expiresAt ≤ b.val.expiresAt :=
      ⟨fun a b => le_total a.val.expiresAt b.val.expiresAt⟩
    have : IsTrans (Doc PlaygroundToken) fun a b => a.val.expiresAt ≤ b.val.expiresAt :=
      ⟨fun _ _ _ => le_trans⟩
    exact List.pairwise_insertionSort _ _
  exact (List.pairwise_append.mp hsorted).2.2 removed hremoved kept hkept

/-- What an issue takes out of the table, and what it leaves. -/
theorem issue_mem {now : ℕ} {args : PlaygroundToken} {db db' : Db} {u : Unit}
    (h : insertPlaygroundToken now args db = .ok (u, db')) {token : Doc PlaygroundToken}
    (hold : token ∈ db.playgroundTokens.docs) :
    token ∈ db'.playgroundTokens.docs ↔ token ∉ surplusTokens db args.apiKeyId := by
  obtain rfl := insertPlaygroundToken_ok h
  have hsurplus : token.id ∈ (surplusTokens db args.apiKeyId).map Doc.id ↔
      token ∈ surplusTokens db args.apiKeyId := by
    rw [List.mem_map]
    constructor
    · rintro ⟨other, hother, hid⟩
      have hmem := (mem_surplus_or_kept.mp (Or.inl hother)).1
      rw [← Table.eq_of_id hmem hold hid]
      exact hother
    · exact fun htoken => ⟨token, htoken, rfl⟩
  rw [← hsurplus]
  constructor
  · intro hmem
    rcases List.mem_append.mp hmem with hkeep | hnew
    · simpa using (List.mem_filter.mp hkeep).2
    · -- The new token has an identifier that no old one has.
      rw [List.mem_singleton] at hnew
      have hbound := db.playgroundTokens.bounded token hold
      rw [hnew] at hbound
      exact absurd hbound (lt_irrefl _)
  · intro hkeep
    exact List.mem_append_left _ (List.mem_filter.mpr ⟨hold, by simpa using hkeep⟩)

/-- An issue removes tokens of its own key only, and those that expire first. -/
theorem issue_removes_oldest {now : ℕ} {args : PlaygroundToken} {db db' : Db} {u : Unit}
    (h : insertPlaygroundToken now args db = .ok (u, db')) {removed : Doc PlaygroundToken}
    (hold : removed ∈ db.playgroundTokens.docs) (hgone : removed ∉ db'.playgroundTokens.docs) :
    removed.val.apiKeyId = args.apiKeyId ∧ ∀ kept ∈ heldTokens db.playgroundTokens args.apiKeyId,
      kept ∈ db'.playgroundTokens.docs → removed.val.expiresAt ≤ kept.val.expiresAt := by
  rw [issue_mem h hold, not_not] at hgone
  refine ⟨(mem_surplus_or_kept.mp (Or.inl hgone)).2, fun kept hkept hstays => ?_⟩
  obtain ⟨hmem, hkey⟩ := Table.mem_query.mp hkept
  rw [issue_mem h hmem] at hstays
  rcases mem_surplus_or_kept.mpr ⟨hmem, by simpa using hkey⟩ with hsurplus | hkeep
  · exact absurd hsurplus hstays
  · exact surplus_le_kept hgone hkeep

/-- No key has more tokens than it may. -/
def TokensBounded (tokens : Table PlaygroundToken) : Prop :=
  ∀ keyId, (heldTokens tokens keyId).length ≤ MAX_PLAYGROUND_TOKENS_PER_KEY

theorem heldTokens_subset_length {tokens : Table PlaygroundToken} {keyId : ℕ}
    {l : List (Doc PlaygroundToken)} (h : heldTokens tokens keyId ⊆ l) :
    (heldTokens tokens keyId).length ≤ l.length := by
  have hnodup : (heldTokens tokens keyId).Nodup := tokens.docs_nodup.filter _
  exact (List.subperm_of_subset hnodup h).length_le

theorem TokensBounded.subset {tokens tokens' : Table PlaygroundToken} (h : TokensBounded tokens)
    (hsub : tokens'.docs ⊆ tokens.docs) : TokensBounded tokens' := by
  intro keyId
  have hquery : heldTokens tokens' keyId ⊆ heldTokens tokens keyId := by
    intro token htoken
    obtain ⟨hmem, hkey⟩ := Table.mem_query.mp htoken
    exact Table.mem_query.mpr ⟨hsub hmem, hkey⟩
  exact (heldTokens_subset_length hquery).trans (h keyId)

theorem TokensBounded.issue {now : ℕ} {args : PlaygroundToken} {db db' : Db} {u : Unit}
    (h : TokensBounded db.playgroundTokens)
    (hissue : insertPlaygroundToken now args db = .ok (u, db')) :
    TokensBounded db'.playgroundTokens := by
  have hdelete : TokensBounded (db.playgroundTokens.delete
      ((surplusTokens db args.apiKeyId).map Doc.id)) := h.subset (keep_docs_subset _ _)
  have hleft : heldTokens (db.playgroundTokens.delete
      ((surplusTokens db args.apiKeyId).map Doc.id)) args.apiKeyId ⊆
        keptTokens db args.apiKeyId := by
    intro token htoken
    obtain ⟨hmem, hkey⟩ := Table.mem_query.mp htoken
    have hold := List.mem_of_mem_filter hmem
    have hstays : token ∈ db'.playgroundTokens.docs := by
      rw [insertPlaygroundToken_ok hissue]
      exact List.mem_append_left _ hmem
    rw [issue_mem hissue hold] at hstays
    exact (mem_surplus_or_kept.mpr ⟨hold, by simpa using hkey⟩).resolve_left hstays
  obtain rfl := insertPlaygroundToken_ok hissue
  intro keyId
  by_cases hkey : args.apiKeyId = keyId
  · subst hkey
    have hlen := Table.query_insert_length_le (t := db.playgroundTokens.delete
      ((surplusTokens db args.apiKeyId).map Doc.id))
      (fun t => decide (t.apiKeyId = args.apiKeyId)) args
    have hkept := heldTokens_subset_length hleft
    have hroom := keptTokens_length db args.apiKeyId
    exact hlen.trans (Nat.succ_le_of_lt (hkept.trans_lt hroom))
  · rw [heldTokens, Table.query_insert_of_not (by simpa using hkey)]
    exact hdelete keyId

theorem tokensBounded_run {db : Db} (h : TokensBounded db.playgroundTokens) (c : Call) :
    TokensBounded (c.run env db).2.playgroundTokens := by
  by_cases hissue : ∃ args, c.txn = .insertPlaygroundToken args
  · obtain ⟨now, txn⟩ := c
    obtain ⟨args, rfl⟩ := hissue
    apply @commit_induction _ (fun db' => TokensBounded db'.playgroundTokens) _ _ _ h
    exact fun a db' hok => h.issue hok
  by_cases hregister : ∃ args, c.txn = .upsertKey args
  · obtain ⟨args, hargs⟩ := hregister
    rw [(run_frame env db c).playgroundTokens (by simp [hargs, Txn.writes])]
    exact h
  · apply h.subset
    intro token htoken
    exact (tokensKept_run db c (fun args hargs => hissue ⟨args, hargs⟩)
      (fun args hargs => hregister ⟨args, hargs⟩) token htoken).1

/-! ### Whole runs -/

/-- Only deployment-time setup registers a key without counting. -/
theorem committed_upsertKey {s : Dashboard} {e : DashboardEvent} {now : ℕ} {args : UpsertKeyArgs}
    (h : s.committed e = some ⟨now, .upsertKey args⟩) : e = .call ⟨now, .upsertKey args⟩ := by
  cases e with
  | call c =>
    simp only [Dashboard.committed] at h
    split_ifs at h
    rw [Option.some.inj h]
  | create => cases h
  | regenerate => cases h
  | createPlaygroundToken => cases h
  | resume now' i secret =>
    simp only [Dashboard.committed] at h
    split at h
    · cases h
    · split at h
      · rename_i txn hrun
        obtain rfl : txn = .upsertKey args := congrArg Call.txn (Option.some.inj h)
        rcases resume_runs hrun with ⟨_, -, hrun⟩ | ⟨_, -, hrun⟩ | ⟨_, -, hrun⟩ <;> cases hrun
      · cases h

/-- No event of the run registers a key for the account. -/
def RegistersNone (userId : ℕ) (es : List DashboardEvent) : Prop :=
  ∀ now args, DashboardEvent.call ⟨now, .upsertKey args⟩ ∈ es → args.userId ≠ userId

theorem keysBounded_final {userId : ℕ} {s : Dashboard} (h : KeysBounded userId s.db.apiKeys)
    {es : List DashboardEvent} (hes : RegistersNone userId es) :
    KeysBounded userId (Runs.final (Dashboard.step env) s es).db.apiKeys := by
  apply Runs.final_induction_mem (Dashboard.step env)
    (P := fun s => KeysBounded userId s.db.apiKeys) h
  intro s e he h
  show KeysBounded userId (s.step env e).2.db.apiKeys
  rcases @step_db env s e with ⟨-, hdb⟩ | ⟨⟨now, txn⟩, hc, hdb⟩
  · rw [hdb]
    exact h
  · rw [hdb]
    apply keysBounded_run h
    rintro args rfl
    exact hes now args (committed_upsertKey hc ▸ he)

theorem tokensBounded_final {s : Dashboard} (h : TokensBounded s.db.playgroundTokens)
    (es : List DashboardEvent) :
    TokensBounded (Runs.final (Dashboard.step env) s es).db.playgroundTokens := by
  apply Runs.final_induction (Dashboard.step env)
    (P := fun s => TokensBounded s.db.playgroundTokens)
  · exact h
  · intro s e hs
    exact step_induction (P := fun db => TokensBounded db.playgroundTokens) hs
      fun c hc => tokensBounded_run hc c

/-- In every state that a run of the deployment reaches, an account for which no key was
registered at setup is within both ceilings of `insertKey`, no key has more than its five
playground tokens, and a token that is issued next takes the place of the ones of its key that
expire first. -/
theorem keys_and_tokens_bounded (env : ProcessEnv) (es : List DashboardEvent) :
    let s := Runs.final (Dashboard.step env) {} es
    (∀ userId, RegistersNone userId es →
      (heldKeys s.db.apiKeys userId).length ≤ MAX_TOTAL_KEYS_PER_USER ∧
        (activeKeys s.db.apiKeys userId).length ≤ MAX_ACTIVE_KEYS_PER_USER) ∧
    (∀ keyId, (heldTokens s.db.playgroundTokens keyId).length ≤ MAX_PLAYGROUND_TOKENS_PER_KEY) ∧
    ∀ e now args, s.committed e = some ⟨now, .insertPlaygroundToken args⟩ →
      ∀ removed ∈ s.db.playgroundTokens.docs,
        removed ∉ (s.step env e).2.db.playgroundTokens.docs →
          removed.val.apiKeyId = args.apiKeyId ∧
            ∀ kept ∈ heldTokens s.db.playgroundTokens args.apiKeyId,
              kept ∈ (s.step env e).2.db.playgroundTokens.docs →
                removed.val.expiresAt ≤ kept.val.expiresAt := by
  intro s
  refine ⟨fun userId hes => ?_, ?_, fun e now args hc removed hold hgone => ?_⟩
  · have hstart : KeysBounded userId ({} : Dashboard).db.apiKeys :=
      ⟨Nat.zero_le _, Nat.zero_le _⟩
    have hend := @keysBounded_final env _ _ hstart _ hes
    exact ⟨hend.total, hend.active⟩
  · exact tokensBounded_final (s := {}) (fun keyId => Nat.zero_le _) es
  · rcases @step_db env s e with ⟨hnone, -⟩ | ⟨c, hc', hdb⟩
    · rw [hnone] at hc
      cases hc
    · rw [hc] at hc'
      obtain rfl := Option.some.inj hc'
      rw [hdb] at hgone ⊢
      rcases commit_cases s.db (fun _ => .done) (insertPlaygroundToken now args s.db) with
        ⟨error, -, hthrew⟩ | ⟨a, db', hok, hdone⟩
      · have hsame : (Call.run env s.db ⟨now, .insertPlaygroundToken args⟩).2 = s.db :=
          congrArg Prod.snd hthrew
        rw [hsame] at hgone
        exact absurd hold hgone
      · have hafter : (Call.run env s.db ⟨now, .insertPlaygroundToken args⟩).2 = db' :=
          congrArg Prod.snd hdone
        rw [hafter] at hgone ⊢
        exact issue_removes_oldest hok hold hgone

end GeoPlatform.Convex
