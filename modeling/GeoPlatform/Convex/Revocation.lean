import GeoPlatform.Convex.Dashboard
import GeoPlatform.Library.ListSums
import GeoPlatform.Convex.OkCalls

/-! Revocation and rotation are final. A revoked key keeps its revocation under every
transaction, and a hash that left the database does not come back when secrets are fresh. -/
namespace GeoPlatform.Convex
open Docs ListSums

variable {env : ProcessEnv}

/-! ### Revoked keys -/

/-- The key exists and is revoked. -/
def KeyRevoked (keyId : ℕ) (db : Db) : Prop :=
  ∃ k, db.apiKeys.get keyId = some k ∧ k.revokedAt.isSome

theorem keyRevoked_run {keyId : ℕ} {db : Db} (c : Call) (h : KeyRevoked keyId db) :
    KeyRevoked keyId (c.run env db).2 := by
  obtain ⟨k, hk, hrevoked⟩ := h
  obtain ⟨k', hk', hrewrite⟩ := (run_apiKeys env db c).get_some hk
  obtain ⟨t, ht⟩ := Option.isSome_iff_exists.mp hrevoked
  refine ⟨k', hk', ?_⟩
  rw [hrewrite.kept.revokedAt t ht]
  rfl

/-- No credential that resolves to a revoked key is answered ok. -/
theorem authorize_ne_revoked {keyId now : ℕ} {args : AuthorizeArgs} {db db' : Db}
    {reply : AuthorizeReply} (hrevoked : KeyRevoked keyId db)
    (h : authorize env now args db = .ok (reply, db')) (hstatus : reply.status = .ok) :
    ∃ p, reply.principal = some p ∧ p.keyId ≠ keyId := by
  have hlive : ∀ a, admission db now args = .ok a → a.principal.keyId ≠ keyId := by
    rintro a ha rfl
    have hadmitted := admission_ok ha
    obtain ⟨k, hk, hsome⟩ := hrevoked
    have hkey : db.apiKeys.get a.principal.keyId = some a.key.val := hadmitted.key_mem
    rw [hkey] at hk
    rw [← Option.some.inj hk, hadmitted.not_revoked] at hsome
    cases hsome
  cases authorize_ok h with
  | refused reply entry hrefused => exact absurd hstatus hrefused
  | rateLimited a windows reply entry hcharged hlimited =>
    rw [hlimited] at hstatus
    cases hstatus
  | quotaExceeded a windows reply entry hcharged hexceeded =>
    rw [hexceeded] at hstatus
    cases hstatus
  | site a windows reply entry hcharged _ hprincipal _ =>
    exact ⟨_, hprincipal, hlive a hcharged.admitted⟩
  | customer a windows quota quotas reply entry hcharged _ hprincipal _ _ _ =>
    exact ⟨_, hprincipal, hlive a hcharged.admitted⟩

theorem describe_ok {now : ℕ} {hash : String} {db : Db} {d : KeyDescription}
    (h : describe env now hash db = .ok (.ok d)) :
    ∃ key, db.apiKeys.unique (isKeyHash hash) = .one key ∧ key.val.revokedAt = none ∧
      d.keyId = key.id := by
  unfold describe at h
  split at h
  · cases h
  · cases h
  · rename_i key hkey
    split_ifs at h with hrevoked hexpired
    · cases h
    · cases h
    · split at h
      · cases h
      · split_ifs at h
        · cases h
        · cases h
        · cases h
          exact ⟨key, hkey, by simpa using hrevoked, rfl⟩

theorem describe_ne_revoked {keyId now : ℕ} {hash : String} {db : Db} {d : KeyDescription}
    (hrevoked : KeyRevoked keyId db) (h : describe env now hash db = .ok (.ok d)) :
    d.keyId ≠ keyId := by
  rintro rfl
  obtain ⟨key, hkey, hnone, hid⟩ := describe_ok h
  obtain ⟨k, hk, hsome⟩ := hrevoked
  rw [hid, Table.get_of_unique hkey] at hk
  rw [← Option.some.inj hk, hnone] at hsome
  cases hsome

/-- The event commits a revocation of the key: `revoke`, `revokeKey`, or `lockUser` on its owner. -/
inductive Revokes (keyId : ℕ) (s : Dashboard) : DashboardEvent → Prop
  | revoke (now : ℕ) (caller : Caller) (db' : Db)
      (h : revoke now caller keyId s.db = .ok ((), db')) :
      Revokes keyId s (.call ⟨now, .revoke caller keyId⟩)
  | revokeKey (now : ℕ) (db' : Db) (h : revokeKey now keyId s.db = .ok ((), db')) :
      Revokes keyId s (.call ⟨now, .revokeKey keyId⟩)
  | lockUser (now userId n : ℕ) (db' : Db) (h : lockUser now userId s.db = .ok (n, db'))
      (key : ApiKey) (hkey : s.db.apiKeys.get keyId = some key) (howner : key.userId = userId) :
      Revokes keyId s (.call ⟨now, .lockUser userId⟩)

theorem keyRevoked_of_revokes {keyId : ℕ} {s : Dashboard} {e : DashboardEvent}
    (h : Revokes keyId s e) : KeyRevoked keyId (s.step env e).2.db := by
  cases h with
  | revoke now caller db' h =>
    have hdb : (s.step env (.call ⟨now, .revoke caller keyId⟩)).2.db = db' := by
      show (commit s.db (fun _ => Answer.done) (revoke now caller keyId s.db)).2 = db'
      rw [h]
      rfl
    obtain ⟨userId, key, hkey, -, rfl⟩ := revoke_ok h
    rw [hdb]
    refine ⟨revokeApiKey now key, ?_, revokeApiKey_isSome now key⟩
    show (s.db.apiKeys.patch keyId (revokeApiKey now)).get keyId = _
    rw [Table.get_patch_self, hkey]
    rfl
  | revokeKey now db' h =>
    have hdb : (s.step env (.call ⟨now, .revokeKey keyId⟩)).2.db = db' := by
      show (commit s.db (fun _ => Answer.done) (revokeKey now keyId s.db)).2 = db'
      rw [h]
      rfl
    obtain ⟨key, hkey, rfl⟩ := revokeKey_ok h
    rw [hdb]
    refine ⟨revokeApiKey now key, ?_, revokeApiKey_isSome now key⟩
    show (s.db.apiKeys.patch keyId (revokeApiKey now)).get keyId = _
    rw [Table.get_patch_self, hkey]
    rfl
  | lockUser now userId n db' h key hkey howner =>
    have hdb : (s.step env (.call ⟨now, .lockUser userId⟩)).2.db = db' := by
      show (commit s.db (fun _ => Answer.done) (lockUser now userId s.db)).2 = db'
      rw [h]
      rfl
    obtain ⟨-, rfl⟩ := lockUser_ok h
    rw [hdb]
    refine ⟨revokeApiKey now key, ?_, revokeApiKey_isSome now key⟩
    show (s.db.apiKeys.patchAll (fun k => k.userId = userId) (revokeApiKey now)).get keyId = _
    rw [Table.get_patchAll, hkey, Option.map_some, if_pos (by simpa using howner)]

/-! ### Hashes -/

def hashIf (hash stored : String) : ℕ := if stored = hash then 1 else 0

/-- How often the database stores a hash, as a key's or as a playground token's. -/
def storedUses (hash : String) (db : Db) : ℕ :=
  db.apiKeys.sum (fun k => hashIf hash k.keyHash) +
    db.playgroundTokens.sum (fun t => hashIf hash t.tokenHash)

/-- The hash a transaction would store. -/
def Txn.brings (hash : String) : Txn → ℕ
  | .insertKey args => hashIf hash args.keyHash
  | .replaceSecret args => hashIf hash args.keyHash
  | .insertPlaygroundToken args => hashIf hash args.tokenHash
  | .upsertKey args => hashIf hash args.keyHash
  | _ => 0

/-- A rotation takes one use of the replaced hash away and adds one of the new hash. -/
theorem keyUses_replaceSecret {args : ReplaceSecretArgs} {keys : Table ApiKey} {key : ApiKey}
    (hkey : keys.get args.keyId = some key) (hash : String) :
    (keys.patch args.keyId args.rekey).sum (fun k => hashIf hash k.keyHash) +
        hashIf hash key.keyHash =
      keys.sum (fun k => hashIf hash k.keyHash) + hashIf hash args.keyHash :=
  Table.sum_patch hkey args.rekey fun k => hashIf hash k.keyHash

theorem keyUses_run (env : ProcessEnv) (hash : String) (db : Db) (c : Call)
    (hnot : ∀ args, c.txn ≠ .replaceSecret args) :
    (c.run env db).2.apiKeys.sum (fun k => hashIf hash k.keyHash) ≤
      db.apiKeys.sum (fun k => hashIf hash k.keyHash) + c.txn.brings hash := by
  obtain ⟨base, f, hbase, hf, hrewrite⟩ := run_apiKeys env db c
  have hsame : ∀ i k, hashIf hash (f i k).keyHash = hashIf hash k.keyHash := by
    intro i k
    rcases (hrewrite i k).keyHash with heq | ⟨args, htxn, -⟩
    · rw [heq]
    · exact absurd htxn (hnot args)
  rw [hf.sum hsame]
  rcases hbase with rfl | ⟨key, hnew, rfl⟩
  · exact Nat.le_add_right _ _
  · rw [Table.sum_insert]
    cases hnew with
    | insertKey args htxn => rw [htxn]; exact le_rfl
    | upsertKey args htxn => rw [htxn]; exact le_rfl

/-- Every transaction but an issue of a token only takes tokens away. -/
theorem tokens_run (env : ProcessEnv) (g : PlaygroundToken → ℕ) (db : Db) (c : Call)
    (hnot : ∀ args, c.txn ≠ .insertPlaygroundToken args) :
    (c.run env db).2.playgroundTokens.sum g ≤ db.playgroundTokens.sum g := by
  by_cases hw : TableName.playgroundTokens ∈ c.txn.writes
  · obtain ⟨now, txn⟩ := c
    let shrinks : Db → Prop := fun db' => db'.playgroundTokens.sum g ≤ db.playgroundTokens.sum g
    cases txn <;> simp only [Txn.writes, List.mem_cons, List.mem_nil_iff, reduceCtorEq, or_self,
      or_false] at hw
    case prune => exact Table.sum_keep_le _ _
    case revoke caller keyId =>
      apply @commit_induction _ shrinks _ _ _ le_rfl
      intro a db' h
      obtain ⟨userId, key, -, -, rfl⟩ := revoke_ok h
      exact Table.sum_keep_le _ _
    case replaceSecret args =>
      apply @commit_induction _ shrinks _ _ _ le_rfl
      intro a db' h
      obtain ⟨-, rfl⟩ := replaceSecret_ok h
      exact Table.sum_keep_le _ _
    case insertPlaygroundToken args => exact absurd rfl (hnot args)
    case revokeKey keyId =>
      apply @commit_induction _ shrinks _ _ _ le_rfl
      intro a db' h
      obtain ⟨key, -, rfl⟩ := revokeKey_ok h
      exact Table.sum_keep_le _ _
    case lockUser userId =>
      apply @commit_induction _ shrinks _ _ _ le_rfl
      intro a db' h
      obtain ⟨-, rfl⟩ := lockUser_ok h
      exact Table.sum_keep_le _ _
  · rw [(run_frame env db c).playgroundTokens hw]

/-- A transaction adds no use of a hash but the one it brings. -/
theorem storedUses_run (env : ProcessEnv) (hash : String) (db : Db) (c : Call) :
    storedUses hash (c.run env db).2 ≤ storedUses hash db + c.txn.brings hash := by
  obtain ⟨now, txn⟩ := c
  let bounded : Db → Prop := fun db' =>
    storedUses hash db' ≤ storedUses hash db + txn.brings hash
  by_cases hrotates : ∃ args, txn = .replaceSecret args
  · obtain ⟨args, rfl⟩ := hrotates
    apply @commit_induction _ bounded _ _ _ (Nat.le_add_right _ _)
    intro a db' h
    obtain ⟨⟨key, hkey, -, -⟩, rfl⟩ := replaceSecret_ok h
    have hkeys := keyUses_replaceSecret hkey hash
    have htokens := Table.sum_keep_le (t := db.playgroundTokens)
      (fun t => decide (t.val.apiKeyId ≠ args.keyId)) (fun t => hashIf hash t.tokenHash)
    simp only [bounded, storedUses, Txn.brings, writeAudit, deletePlaygroundTokens]
    omega
  by_cases hissues : ∃ args, txn = .insertPlaygroundToken args
  · obtain ⟨args, rfl⟩ := hissues
    apply @commit_induction _ bounded _ _ _ (Nat.le_add_right _ _)
    intro a db' h
    obtain rfl := insertPlaygroundToken_ok h
    have htokens := Table.sum_keep_le (t := db.playgroundTokens)
      (fun d => decide (d.id ∉ (surplusTokens db args.apiKeyId).map Doc.id))
      (fun t => hashIf hash t.tokenHash)
    simp only [bounded, storedUses, Txn.brings, Table.sum_insert, Table.delete]
    omega
  have hkeys := keyUses_run env hash db ⟨now, txn⟩ fun args h => hrotates ⟨args, h⟩
  have htokens := tokens_run env (fun t => hashIf hash t.tokenHash) db ⟨now, txn⟩
    fun args h => hissues ⟨args, h⟩
  simp only [storedUses] at *
  omega

/-! ### Hashes stored, in flight or drawn -/

def Thread.uses (hash : String) : Thread → ℕ
  | .insertKey args => hashIf hash args.keyHash
  | .replaceSecret args => hashIf hash args.keyHash
  | .insertPlaygroundToken args => hashIf hash args.tokenHash
  | _ => 0

/-- How often a hash is stored or carried by an action in flight. -/
def Dashboard.uses (hash : String) (s : Dashboard) : ℕ :=
  storedUses hash s.db + (s.threads.map (Thread.uses hash)).sum

/-- The hash an event may draw anew. -/
def DashboardEvent.draws (hash : String) : DashboardEvent → ℕ
  | .create _ _ _ _ _ secret => hashIf hash secret.keyHash
  | .resume _ _ secret => hashIf hash secret.keyHash
  | .call c => if c.txn.isInternal then 0 else c.txn.brings hash
  | _ => 0

/-- Every hash is stored, in flight or drawn at most once in the whole run. -/
def FreshSecrets (s : Dashboard) (es : List DashboardEvent) : Prop :=
  ∀ hash, s.uses hash + (es.map (DashboardEvent.draws hash)).sum ≤ 1

theorem createArgs_ok {db : Db} {now : ℕ} {caller : Caller} {name : String}
    {endpoints : Option (List ApiEndpoint)} {expiresAt : Option (Option ℚ)} {secret : Secret}
    {args : InsertKeyArgs}
    (h : createArgs db now caller name endpoints expiresAt secret = .ok args) :
    requireUserId db now caller = .ok args.userId ∧ args.keyHash = secret.keyHash := by
  obtain ⟨userId, huser, h⟩ := except_bind_ok.mp h
  obtain ⟨cleaned, -, h⟩ := except_bind_ok.mp h
  obtain ⟨chosen, -, h⟩ := except_bind_ok.mp h
  obtain ⟨expires, -, h⟩ := except_bind_ok.mp h
  cases h
  exact ⟨huser, rfl⟩

theorem resume_next {db : Db} {now : ℕ} {secret : Secret} {t t' : Thread}
    (h : t.resume db now secret = .next t') (hash : String) :
    t'.uses hash = hashIf hash secret.keyHash := by
  cases t with
  | insertKey args => cases h
  | ownedKeyForRotation userId keyId =>
    simp only [Thread.resume] at h
    split at h
    · cases h
    · cases h
      rfl
  | replaceSecret args => cases h
  | ownedKeyForPlayground userId keyId =>
    simp only [Thread.resume] at h
    split at h
    · cases h
    · split_ifs at h
      cases h
      rfl
  | insertPlaygroundToken args => cases h

theorem resume_run {db : Db} {now : ℕ} {secret : Secret} {t : Thread} {txn : Txn}
    (h : t.resume db now secret = .run txn) (hash : String) : txn.brings hash = t.uses hash := by
  rcases resume_runs h with ⟨args, rfl, rfl⟩ | ⟨args, rfl, rfl⟩ | ⟨args, rfl, rfl⟩ <;> rfl

theorem uses_start {s : Dashboard} {r : Except TxError Thread} {n : ℕ} {hash : String}
    (h : ∀ t, r = .ok t → t.uses hash ≤ n) : (s.start r).2.uses hash ≤ s.uses hash + n := by
  cases r with
  | error e => exact Nat.le_add_right _ _
  | ok t =>
    have ht := h t rfl
    simp only [Dashboard.start, Dashboard.uses, List.map_append, List.sum_append, List.map_cons,
      List.map_nil, List.sum_cons, List.sum_nil]
    omega

/-- An event adds no use of a hash but the one it draws. -/
theorem uses_step (env : ProcessEnv) (hash : String) (s : Dashboard) (e : DashboardEvent) :
    (s.step env e).2.uses hash ≤ s.uses hash + e.draws hash := by
  cases e with
  | call c =>
    simp only [Dashboard.step, DashboardEvent.draws]
    split_ifs
    · exact le_rfl
    · have hstored := storedUses_run env hash s.db c
      simp only [Dashboard.uses]
      omega
  | create now caller name endpoints expiresAt secret =>
    apply uses_start
    intro t ht
    obtain ⟨args, hargs, rfl⟩ := except_map_ok.mp ht
    simp only [Thread.uses, (createArgs_ok hargs).2, DashboardEvent.draws, le_refl]
  | regenerate now caller keyId =>
    apply uses_start
    intro t ht
    obtain ⟨userId, -, rfl⟩ := except_map_ok.mp ht
    exact le_rfl
  | createPlaygroundToken now caller keyId =>
    apply uses_start
    intro t ht
    obtain ⟨userId, -, rfl⟩ := except_map_ok.mp ht
    exact le_rfl
  | resume now i secret =>
    simp only [Dashboard.step, DashboardEvent.draws]
    cases ht : s.threads[i]? with
    | none => exact Nat.le_add_right _ _
    | some t =>
      have herase := sum_map_eraseIdx (Thread.uses hash) ht
      cases hr : t.resume s.db now secret with
      | throw e =>
        simp only [hr, Dashboard.uses]
        omega
      | next t' =>
        have hset := sum_map_set (Thread.uses hash) t' ht
        have hnew := resume_next hr hash
        simp only [hr, Dashboard.uses]
        omega
      | run txn =>
        have hstored : storedUses hash (Call.run env s.db ⟨now, txn⟩).2 ≤
            storedUses hash s.db + txn.brings hash := storedUses_run env hash s.db ⟨now, txn⟩
        have hbrings := resume_run hr hash
        simp only [hr, Dashboard.uses]
        omega

end GeoPlatform.Convex
