import GeoPlatform.Convex.Revocation

/-! Playground tokens and the revocation of their keys. A revocation deletes the tokens of the
key in its own transaction, but a token is issued in a transaction that does not look at the key
again, so it may be issued under a key revoked in between. -/
namespace GeoPlatform.Convex
open Docs

variable {env : ProcessEnv}

/-- The key exists and is not revoked. -/
def KeyLive (keyId : ℕ) (keys : Table ApiKey) : Prop :=
  ∃ k, keys.get keyId = some k ∧ k.revokedAt = none

/-- Every playground token belongs to a live key. -/
def TokensLive (db : Db) : Prop :=
  ∀ token ∈ db.playgroundTokens.docs, KeyLive token.val.apiKeyId db.apiKeys

theorem KeyLive.rewritten {keyId : ℕ} {f : ℕ → ApiKey → ApiKey} {keys keys' : Table ApiKey}
    (h : KeyLive keyId keys) (hf : Table.Rewritten f keys keys')
    (hlive : ∀ k, keys.get keyId = some k → k.revokedAt = none → (f keyId k).revokedAt = none) :
    KeyLive keyId keys' := by
  obtain ⟨k, hk, hnone⟩ := h
  refine ⟨f keyId k, ?_, hlive k hk hnone⟩
  rw [hf.get, hk, Option.map_some]

theorem KeyLive.patch {keyId i : ℕ} {keys : Table ApiKey} (h : KeyLive keyId keys)
    {f : ApiKey → ApiKey} (hf : ∀ k, (f k).revokedAt = k.revokedAt) :
    KeyLive keyId (keys.patch i f) := by
  apply h.rewritten (Table.Rewritten.patch keys i f)
  intro k _ hnone
  split_ifs
  · rw [hf, hnone]
  · exact hnone

theorem KeyLive.patch_of_ne {keyId i : ℕ} {keys : Table ApiKey} (h : KeyLive keyId keys)
    (f : ApiKey → ApiKey) (hne : keyId ≠ i) : KeyLive keyId (keys.patch i f) := by
  obtain ⟨k, hk, hnone⟩ := h
  exact ⟨k, by rw [Table.get_patch_of_ne f hne, hk], hnone⟩

theorem KeyLive.insert {keyId : ℕ} {keys : Table ApiKey} (h : KeyLive keyId keys)
    (key : ApiKey) : KeyLive keyId (keys.insert key) := by
  obtain ⟨k, hk, hnone⟩ := h
  exact ⟨k, Table.get_insert_of_some hk, hnone⟩

/-! ### Transactions that keep every token with a live key -/

/-- The tokens are old ones, and whose key was live has a live key still. -/
def TokensKept (db db' : Db) : Prop :=
  ∀ token ∈ db'.playgroundTokens.docs, token ∈ db.playgroundTokens.docs ∧
    (KeyLive token.val.apiKeyId db.apiKeys → KeyLive token.val.apiKeyId db'.apiKeys)

theorem TokensKept.live {db db' : Db} (h : TokensKept db db') (hlive : TokensLive db) :
    TokensLive db' := by
  intro token htoken
  obtain ⟨hold, hkey⟩ := h token htoken
  exact hkey (hlive token hold)

theorem tokensKept_of_keys {db db' : Db}
    (htokens : db'.playgroundTokens.docs ⊆ db.playgroundTokens.docs)
    (hkeys : ∀ keyId, KeyLive keyId db.apiKeys → KeyLive keyId db'.apiKeys) :
    TokensKept db db' := fun token htoken => ⟨htokens htoken, hkeys token.val.apiKeyId⟩

theorem keep_docs_subset {α : Type} (t : Table α) (p : Doc α → Bool) :
    (t.keep p).docs ⊆ t.docs := fun _ hd => List.mem_of_mem_filter hd

/-- A revocation takes the tokens of its key with it. -/
theorem tokensKept_revoke (db : Db) (now keyId : ℕ) :
    TokensKept db (deletePlaygroundTokens
      { db with apiKeys := db.apiKeys.patch keyId (revokeApiKey now) } keyId) := by
  intro token htoken
  obtain ⟨hold, hother⟩ := List.mem_filter.mp htoken
  refine ⟨hold, fun hlive => hlive.patch_of_ne _ ?_⟩
  simpa using hother

/-- A lock revokes the keys of the account and takes their tokens with it. -/
theorem tokensKept_lockUser {db db' : Db} {now userId n : ℕ}
    (h : lockUser now userId db = .ok (n, db')) : TokensKept db db' := by
  obtain ⟨-, rfl⟩ := lockUser_ok h
  intro token htoken
  obtain ⟨hold, hother⟩ := List.mem_filter.mp htoken
  refine ⟨hold, fun hlive => ?_⟩
  apply hlive.rewritten (Table.Rewritten.patchAll db.apiKeys _ _)
  intro k hk hnone
  have howner : k.userId ≠ userId := by
    rw [tokenOfUser, hk] at hother
    simpa using hother
  rw [if_neg (by simpa using howner)]
  exact hnone

theorem tokensKept_recordUsage {db db' : Db} {now : ℕ} {entries : List UsageEntry}
    {reply : UsageReply} (h : recordUsage now entries db = .ok (reply, db')) :
    TokensKept db db' := by
  obtain ⟨apiRequests, usageDaily, keys, lastUsed, rfl⟩ := recordUsage_ok h
  obtain ⟨f, hf, hsame⟩ := rewritten_touchKeys keys lastUsed db.apiKeys
  apply tokensKept_of_keys
  · exact List.Subset.refl _
  · intro keyId hlive
    apply hlive.rewritten hf
    intro k _ hnone
    have hrest := hsame keyId k
    unfold SameButLastUse at hrest
    rw [← hrest] at hnone
    exact hnone

theorem TokensKept.refl (db : Db) : TokensKept db db := fun _ htoken => ⟨htoken, id⟩

theorem tokensKept_commit {α : Type} {db : Db} {answer : α → Answer}
    {r : Except TxError (α × Db)} (h : ∀ a db', r = .ok (a, db') → TokensKept db db') :
    TokensKept db (commit db answer r).2 := by
  apply commit_induction
  · exact TokensKept.refl db
  · exact h

/-- All transactions but the issue of a token and the registration of a key. -/
theorem tokensKept_run (db : Db) (c : Call) (hissue : ∀ args, c.txn ≠ .insertPlaygroundToken args)
    (hupsert : ∀ args, c.txn ≠ .upsertKey args) : TokensKept db (c.run env db).2 := by
  by_cases hw : TableName.playgroundTokens ∈ c.txn.writes ∨ TableName.apiKeys ∈ c.txn.writes
  · obtain ⟨now, txn⟩ := c
    cases txn <;> simp only [Txn.writes, List.mem_cons, List.mem_nil_iff, reduceCtorEq, or_self,
      or_false] at hw
    case recordUsage entries => exact tokensKept_commit fun a db' h => tokensKept_recordUsage h
    case prune => exact tokensKept_of_keys (keep_docs_subset _ _) fun _ hlive => hlive
    case insertKey args =>
      apply tokensKept_commit
      intro a db' h
      obtain ⟨-, -, rfl⟩ := insertKey_ok h
      exact tokensKept_of_keys (List.Subset.refl _) fun _ hlive => hlive.insert args.key
    case rename caller keyId name =>
      apply tokensKept_commit
      intro a db' h
      obtain ⟨cleaned, rfl⟩ := rename_ok h
      exact tokensKept_of_keys (List.Subset.refl _) fun _ hlive => hlive.patch fun _ => rfl
    case revoke caller keyId =>
      apply tokensKept_commit
      intro a db' h
      obtain ⟨userId, key, -, -, rfl⟩ := revoke_ok h
      exact tokensKept_revoke db now keyId
    case replaceSecret args =>
      apply tokensKept_commit
      intro a db' h
      obtain ⟨-, rfl⟩ := replaceSecret_ok h
      exact tokensKept_of_keys (keep_docs_subset _ _) fun _ hlive => hlive.patch fun _ => rfl
    case insertPlaygroundToken args => exact absurd rfl (hissue args)
    case revokeKey keyId =>
      apply tokensKept_commit
      intro a db' h
      obtain ⟨key, -, rfl⟩ := revokeKey_ok h
      exact tokensKept_revoke db now keyId
    case lockUser userId => exact tokensKept_commit fun a db' h => tokensKept_lockUser h
    case upsertKey args => exact absurd rfl (hupsert args)
  · rw [not_or] at hw
    apply tokensKept_of_keys
    · rw [(run_frame env db c).playgroundTokens hw.1]
      exact List.Subset.refl _
    · rw [(run_frame env db c).apiKeys hw.2]
      exact fun _ hlive => hlive

/-! ### The issue of a token -/

/-- The account that a token is issued for may use keys. -/
def MayIssue (now : ℕ) (args : PlaygroundToken) (db : Db) : Prop :=
  ∃ user, db.users.get args.userId = some user ∧ hasKeyAccess user now = true

theorem insertPlaygroundToken_may {now : ℕ} {args : PlaygroundToken} {db db' : Db} {u : Unit}
    (h : insertPlaygroundToken now args db = .ok (u, db')) : MayIssue now args db := by
  unfold insertPlaygroundToken at h
  split at h
  · cases h
  · rename_i user huser
    split_ifs at h with haccess
    exact ⟨user, huser, by simpa using haccess⟩

theorem insertPlaygroundToken_of_may {now : ℕ} {args : PlaygroundToken} {db : Db}
    (h : MayIssue now args db) : ∃ db', insertPlaygroundToken now args db = .ok ((), db') := by
  obtain ⟨user, huser, haccess⟩ := h
  have hrefused : (!hasKeyAccess user now) = false := by rw [haccess]; rfl
  simp only [insertPlaygroundToken, huser, hrefused, Bool.false_eq_true, if_false]
  exact ⟨_, rfl⟩

/-- An issue keeps every token with a live key exactly when its own key is live, or it throws. -/
theorem tokensLive_issue_iff {db : Db} (h : TokensLive db) (now : ℕ) (args : PlaygroundToken) :
    TokensLive (Call.run env db ⟨now, .insertPlaygroundToken args⟩).2 ↔
      (MayIssue now args db → KeyLive args.apiKeyId db.apiKeys) := by
  constructor
  · intro hafter hmay
    obtain ⟨db', hok⟩ := insertPlaygroundToken_of_may hmay
    have hrun : (Call.run env db ⟨now, .insertPlaygroundToken args⟩).2 = db' := by
      simp only [Call.run, hok]
      rfl
    rw [hrun, insertPlaygroundToken_ok hok] at hafter
    exact hafter ⟨_, args⟩ (List.mem_append_right _ (List.mem_singleton_self _))
  · intro hkey
    apply @commit_induction _ TokensLive _ _ _ h
    intro a db' hok
    have hlive := hkey (insertPlaygroundToken_may hok)
    obtain rfl := insertPlaygroundToken_ok hok
    intro token htoken
    rcases List.mem_append.mp htoken with hold | hnew
    · exact h token (List.mem_of_mem_filter hold)
    · obtain rfl := List.mem_singleton.mp hnew
      exact hlive

/-! ### The rotation of a site key -/

/-- A registration that goes through and retires the key. -/
def Retires (now : ℕ) (args : UpsertKeyArgs) (db : Db) (key : ApiKey) : Prop :=
  (∃ db', upsertKey now args db = .ok ((), db')) ∧ args.isSiteKey = true ∧
    isOtherSiteKey args key = true

theorem retireSiteKeys_get (now : ℕ) (args : UpsertKeyArgs) (keys : Table ApiKey) (i : ℕ) :
    (retireSiteKeys now args keys).get i = (keys.get i).map fun k =>
      if args.isSiteKey = true ∧ isOtherSiteKey args k = true then revokeApiKey now k else k := by
  unfold retireSiteKeys
  split_ifs with hsite
  · rw [Table.get_patchAll]
    simp only [hsite, true_and]
  · simp [hsite]

/-- The keys after a registration: the old ones, retired or as they were, and maybe one more. -/
theorem upsertKey_get {now : ℕ} {args : UpsertKeyArgs} {db db' : Db} {u : Unit}
    (h : upsertKey now args db = .ok (u, db')) {i : ℕ} {k : ApiKey}
    (hk : db.apiKeys.get i = some k) :
    db'.playgroundTokens = db.playgroundTokens ∧ db'.apiKeys.get i = some
      (if args.isSiteKey = true ∧ isOtherSiteKey args k = true then revokeApiKey now k else k) := by
  rcases upsertKey_ok h with ⟨-, rfl⟩ | rfl
  · exact ⟨rfl, by rw [retireSiteKeys_get, Table.get_insert_of_some hk, Option.map_some]⟩
  · exact ⟨rfl, by rw [retireSiteKeys_get, hk, Option.map_some]⟩

theorem upsertKey_tokens {now : ℕ} {args : UpsertKeyArgs} {db db' : Db} {u : Unit}
    (h : upsertKey now args db = .ok (u, db')) : db'.playgroundTokens = db.playgroundTokens := by
  rcases upsertKey_ok h with ⟨-, rfl⟩ | rfl <;> rfl

/-- A registration keeps every token with a live key exactly when no key it retires has one. -/
theorem tokensLive_upsertKey_iff {db : Db} (h : TokensLive db) (now : ℕ) (args : UpsertKeyArgs) :
    TokensLive (Call.run env db ⟨now, .upsertKey args⟩).2 ↔
      ∀ token ∈ db.playgroundTokens.docs, ∀ k,
        db.apiKeys.get token.val.apiKeyId = some k → ¬ Retires now args db k := by
  constructor
  · rintro hafter token htoken k hk ⟨⟨db', hok⟩, hsite⟩
    have hrun : (Call.run env db ⟨now, .upsertKey args⟩).2 = db' := by
      simp only [Call.run, hok]
      rfl
    rw [hrun] at hafter
    obtain ⟨htokens, hget⟩ := upsertKey_get hok hk
    obtain ⟨k', hk', hlive⟩ := hafter token (by rw [htokens]; exact htoken)
    rw [hget, if_pos hsite] at hk'
    have hrevoked := revokeApiKey_isSome now k
    rw [Option.some.inj hk', hlive] at hrevoked
    cases hrevoked
  · intro hnone
    apply @commit_induction _ TokensLive _ _ _ h
    intro a db' hok token htoken
    rw [upsertKey_tokens hok] at htoken
    obtain ⟨k, hk, hlive⟩ := h token htoken
    obtain ⟨-, hget⟩ := upsertKey_get hok hk
    rw [if_neg fun hsite => hnone token htoken k hk ⟨⟨db', hok⟩, hsite⟩] at hget
    exact ⟨k, hget, hlive⟩

/-! ### Whole runs -/

/-- The transaction an event commits, if any, issues no token under a key that is revoked by
then, and registers no site key in the place of one that has tokens. -/
structure IssuesLive (s : Dashboard) (e : DashboardEvent) : Prop where
  issued : ∀ now args, s.committed e = some ⟨now, .insertPlaygroundToken args⟩ →
    MayIssue now args s.db → KeyLive args.apiKeyId s.db.apiKeys
  retired : ∀ now args, s.committed e = some ⟨now, .upsertKey args⟩ →
    ∀ token ∈ s.db.playgroundTokens.docs, ∀ k,
      s.db.apiKeys.get token.val.apiKeyId = some k → ¬ Retires now args s.db k

theorem tokensLive_step_iff {s : Dashboard} (h : TokensLive s.db) (e : DashboardEvent) :
    TokensLive (s.step env e).2.db ↔ IssuesLive s e := by
  rcases @step_db env s e with ⟨hnone, hdb⟩ | ⟨⟨now, txn⟩, hc, hdb⟩
  · rw [hdb]
    refine ⟨fun _ => ⟨?_, ?_⟩, fun _ => h⟩
    · intro now args hc
      rw [hnone] at hc
      cases hc
    · intro now args hc
      rw [hnone] at hc
      cases hc
  · rw [hdb]
    by_cases hissue : ∃ args, txn = .insertPlaygroundToken args
    · obtain ⟨args, rfl⟩ := hissue
      rw [tokensLive_issue_iff h]
      constructor
      · intro hlive
        refine ⟨?_, ?_⟩
        · intro now' args' hc'
          rw [hc] at hc'
          cases hc'
          exact hlive
        · intro now' args' hc'
          rw [hc] at hc'
          cases hc'
      · exact fun hlive => hlive.issued now args hc
    by_cases hupsert : ∃ args, txn = .upsertKey args
    · obtain ⟨args, rfl⟩ := hupsert
      rw [tokensLive_upsertKey_iff h]
      constructor
      · intro hnone
        refine ⟨?_, ?_⟩
        · intro now' args' hc'
          rw [hc] at hc'
          cases hc'
        · intro now' args' hc'
          rw [hc] at hc'
          cases hc'
          exact hnone
      · exact fun hlive => hlive.retired now args hc
    · have hkept := @tokensKept_run env s.db ⟨now, txn⟩ (fun args h => hissue ⟨args, h⟩)
        fun args h => hupsert ⟨args, h⟩
      refine ⟨fun _ => ⟨?_, ?_⟩, fun _ => hkept.live h⟩
      · intro now' args' hc'
        rw [hc] at hc'
        cases hc'
        exact absurd ⟨args', rfl⟩ hissue
      · intro now' args' hc'
        rw [hc] at hc'
        cases hc'
        exact absurd ⟨args', rfl⟩ hupsert

/-- In a run no playground token outlives its key exactly when every issue finds its key live
and no site key that has tokens is replaced. -/
theorem tokens_of_live_keys_iff (s : Dashboard) (hs : TokensLive s.db)
    (es : List DashboardEvent) :
    (∀ pre, pre <+: es → TokensLive (Runs.final (Dashboard.step env) s pre).db) ↔
      Runs.Guarded (Dashboard.step env) IssuesLive s es := by
  apply Runs.forall_prefix_iff_guarded (Dashboard.step env) (P := fun s => TokensLive s.db)
  · exact fun s e h => tokensLive_step_iff h e
  · exact hs

/-- A token of the key of `freeAccount`, about to be issued. -/
def issueInFlight : Dashboard where
  db := freeAccount
  threads := [.insertPlaygroundToken ⟨"token-hash", 0, 0, 900000⟩]

theorem tokens_of_live_keys_issue :
    TokensLive (Runs.final (Dashboard.step testEnv) issueInFlight
      [.resume 0 0 ⟨"", ""⟩, .call ⟨1, .revokeKey 0⟩]).db := by
  have hstart : TokensLive issueInFlight.db := by
    rintro token ⟨⟩
  have hguarded : Runs.Guarded (Dashboard.step testEnv) IssuesLive issueInFlight
      [.resume 0 0 ⟨"", ""⟩, .call ⟨1, .revokeKey 0⟩] := by
    refine ⟨⟨?_, ?_⟩, ⟨?_, ?_⟩, trivial⟩
    · intro now args hc _
      cases hc
      exact ⟨_, rfl, rfl⟩
    all_goals
      intro now args hc
      cases hc
  exact (tokens_of_live_keys_iff issueInFlight hstart _).mpr hguarded _ (List.prefix_refl _)

/-- A developer asks for a playground token and revokes the key between its check and the
insertion. -/
def revokeDuringIssue : List DashboardEvent :=
  let developer : Caller := ⟨some 0, some 0⟩
  [.call ⟨0, .signUp "dev@example.com"⟩, .call ⟨0, .signIn 0 1000000⟩,
    .call ⟨1, .activateFreeTier developer⟩,
    .create 2 developer "first" none none ⟨"geo_aaaa", "first-hash"⟩, .resume 3 0 ⟨"", ""⟩,
    .createPlaygroundToken 4 developer 0, .resume 5 0 ⟨"", "token-hash"⟩,
    .call ⟨6, .revoke developer 0⟩, .resume 7 0 ⟨"", ""⟩]

/-- The token is issued under the revoked key. -/
theorem token_outlives_key :
    ¬ TokensLive (Runs.final (Dashboard.step testEnv) {} revokeDuringIssue).db := by
  intro hlive
  have hissued : (Runs.final (Dashboard.step testEnv) {} revokeDuringIssue).db.playgroundTokens.docs
      = [⟨0, ⟨"token-hash", 0, 0, 900005⟩⟩] := by decide +kernel
  have hrevoked : ((Runs.final (Dashboard.step testEnv) {} revokeDuringIssue).db.apiKeys.get 0).any
      (fun k => k.revokedAt.isSome) = true := by decide +kernel
  obtain ⟨k, hk, hnone⟩ := hlive ⟨0, ⟨"token-hash", 0, 0, 900005⟩⟩ (by rw [hissued]; simp)
  rw [hk] at hrevoked
  simp [hnone] at hrevoked

end GeoPlatform.Convex
