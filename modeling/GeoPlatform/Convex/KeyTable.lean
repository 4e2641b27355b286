import GeoPlatform.Convex.Backend

/-! What a transaction does to the key table: at most one new key, and every key rewritten in
place, with its owner, kind and revocation kept. -/
namespace GeoPlatform.Convex
open Docs

/-- What is kept of a key by every transaction. A revocation is never undone. -/
structure KeyKept (k k' : ApiKey) : Prop where
  userId : k'.userId = k.userId
  isSiteKey : k'.isSiteKey = k.isSiteKey
  revokedAt : ∀ t, k.revokedAt = some t → k'.revokedAt = some t

theorem KeyKept.refl (k : ApiKey) : KeyKept k k := ⟨rfl, rfl, fun _ h => h⟩

theorem KeyKept.trans {a b c : ApiKey} (h : KeyKept a b) (h' : KeyKept b c) : KeyKept a c :=
  ⟨h'.userId.trans h.userId, h'.isSiteKey.trans h.isSiteKey,
    fun t ht => h'.revokedAt t (h.revokedAt t ht)⟩

theorem keyKept_revoke (now : ℕ) (k : ApiKey) : KeyKept k (revokeApiKey now k) := by
  unfold revokeApiKey
  split_ifs with h
  · refine ⟨rfl, rfl, fun t ht => ?_⟩
    rw [ht] at h
    cases h
  · exact KeyKept.refl k

theorem revokeApiKey_isSome (now : ℕ) (k : ApiKey) :
    (revokeApiKey now k).revokedAt.isSome = true := by
  unfold revokeApiKey
  split_ifs with h
  · rfl
  · simpa [Option.isSome_iff_ne_none] using h

/-- The key a transaction adds, and what made it do so. -/
inductive NewKey (db : Db) (c : Call) : ApiKey → Prop
  | insertKey (args : InsertKeyArgs) (htxn : c.txn = .insertKey args)
      (hmay : MayInsertKey c.now args db) : NewKey db c args.key
  | upsertKey (args : UpsertKeyArgs) (htxn : c.txn = .upsertKey args)
      (hnew : db.apiKeys.unique (fun k => k.keyHash = args.keyHash) = .none) :
      NewKey db c args.key

/-- How a transaction rewrites the key `i`: only a regeneration changes its hash. -/
structure KeyRewrite (c : Call) (i : ℕ) (k k' : ApiKey) : Prop where
  kept : KeyKept k k'
  keyHash : k'.keyHash = k.keyHash ∨ ∃ args, c.txn = .replaceSecret args ∧ args.keyId = i ∧
    k'.keyHash = args.keyHash

/-- The key table after a transaction. -/
def KeysAfter (db : Db) (c : Call) (keys : Table ApiKey) : Prop :=
  ∃ base f, (base = db.apiKeys ∨ ∃ key, NewKey db c key ∧ base = db.apiKeys.insert key) ∧
    Table.Rewritten f base keys ∧ ∀ i k, KeyRewrite c i k (f i k)

theorem KeysAfter.rewritten {db : Db} {c : Call} {keys : Table ApiKey} {f : ℕ → ApiKey → ApiKey}
    (h : Table.Rewritten f db.apiKeys keys) (hf : ∀ i k, KeyRewrite c i k (f i k)) :
    KeysAfter db c keys :=
  ⟨db.apiKeys, f, Or.inl rfl, h, hf⟩

theorem keysAfter_same (db : Db) (c : Call) : KeysAfter db c db.apiKeys :=
  KeysAfter.rewritten (Table.Rewritten.refl _) fun _ k => ⟨KeyKept.refl k, Or.inl rfl⟩

theorem keysAfter_patch {db : Db} {c : Call} {i : ℕ} {g : ApiKey → ApiKey}
    (h : ∀ k, KeyRewrite c i k (g k)) : KeysAfter db c (db.apiKeys.patch i g) := by
  refine KeysAfter.rewritten (Table.Rewritten.patch _ i g) fun j k => ?_
  split_ifs with hj
  · exact hj ▸ h k
  · exact ⟨KeyKept.refl k, Or.inl rfl⟩

theorem keyRewrite_revoke (c : Call) (i now : ℕ) (k : ApiKey) :
    KeyRewrite c i k (revokeApiKey now k) := by
  refine ⟨keyKept_revoke now k, Or.inl ?_⟩
  unfold revokeApiKey
  split_ifs <;> rfl

theorem SameButLastUse.kept {a b : ApiKey} (h : SameButLastUse a b) :
    KeyKept a b ∧ b.keyHash = a.keyHash := by
  rw [← h]
  exact ⟨⟨rfl, rfl, fun _ h => h⟩, rfl⟩

theorem rewritten_touchKeys (keys : List (String × Option (Doc ApiKey)))
    (lastUsed : List (ℕ × ℚ)) (t : Table ApiKey) :
    ∃ f : ℕ → ApiKey → ApiKey, Table.Rewritten f t (lastUsed.foldl (touchKey keys) t) ∧
      ∀ i k, SameButLastUse k (f i k) := by
  induction lastUsed generalizing t with
  | nil => exact ⟨_, Table.Rewritten.refl t, fun _ k => .refl k⟩
  | cons e lastUsed ih =>
    obtain ⟨g, hg, hfirst⟩ := touchKey_rewritten keys t e
    obtain ⟨f, hf, hrest⟩ := ih (touchKey keys t e)
    exact ⟨_, hg.trans hf, fun i k => (hfirst i k).trans (hrest i _)⟩

theorem rewritten_retireSiteKeys (c : Call) (now : ℕ) (args : UpsertKeyArgs) (t : Table ApiKey) :
    ∃ f, Table.Rewritten f t (retireSiteKeys now args t) ∧ ∀ i k, KeyRewrite c i k (f i k) := by
  unfold retireSiteKeys
  split_ifs
  · refine ⟨_, Table.Rewritten.patchAll t _ _, fun i k => ?_⟩
    split_ifs
    · exact keyRewrite_revoke c i now k
    · exact ⟨KeyKept.refl k, Or.inl rfl⟩
  · exact ⟨_, Table.Rewritten.refl t, fun _ k => ⟨KeyKept.refl k, Or.inl rfl⟩⟩

theorem keysAfter_commit {α : Type} {db : Db} {c : Call} {answer : α → Answer}
    {r : Except TxError (α × Db)} (h : ∀ a db', r = .ok (a, db') → KeysAfter db c db'.apiKeys) :
    KeysAfter db c (commit db answer r).2.apiKeys := by
  apply @commit_induction _ (fun db' => KeysAfter db c db'.apiKeys)
  · exact keysAfter_same db c
  · exact h

/-- Every transaction leaves the key table so. -/
theorem run_apiKeys (env : ProcessEnv) (db : Db) (c : Call) :
    KeysAfter db c (c.run env db).2.apiKeys := by
  by_cases hw : TableName.apiKeys ∈ c.txn.writes
  · obtain ⟨now, txn⟩ := c
    cases txn <;> simp only [Txn.writes, List.mem_cons, List.mem_nil_iff, reduceCtorEq, or_self,
      or_false] at hw
    case recordUsage entries =>
      refine keysAfter_commit fun a db' h => ?_
      obtain ⟨apiRequests, usageDaily, keys, lastUsed, rfl⟩ := recordUsage_ok h
      obtain ⟨f, hf, hkept⟩ := rewritten_touchKeys keys lastUsed db.apiKeys
      exact KeysAfter.rewritten hf fun i k => ⟨(hkept i k).kept.1, Or.inl (hkept i k).kept.2⟩
    case insertKey args =>
      refine keysAfter_commit fun a db' h => ?_
      obtain ⟨hmay, -, rfl⟩ := insertKey_ok h
      exact ⟨_, _, Or.inr ⟨args.key, .insertKey args rfl hmay, rfl⟩,
        Table.Rewritten.refl _, fun _ k => ⟨KeyKept.refl k, Or.inl rfl⟩⟩
    case rename caller keyId name =>
      refine keysAfter_commit fun a db' h => ?_
      obtain ⟨cleaned, rfl⟩ := rename_ok h
      refine @keysAfter_patch db _ keyId (fun k => { k with name := cleaned }) fun k => ?_
      exact ⟨⟨rfl, rfl, fun _ h => h⟩, Or.inl rfl⟩
    case revoke caller keyId =>
      refine keysAfter_commit fun a db' h => ?_
      obtain ⟨userId, key, -, -, rfl⟩ := revoke_ok h
      exact keysAfter_patch fun k => keyRewrite_revoke _ keyId now k
    case replaceSecret args =>
      refine keysAfter_commit fun a db' h => ?_
      obtain ⟨-, rfl⟩ := replaceSecret_ok h
      exact keysAfter_patch fun k => ⟨⟨rfl, rfl, fun _ h => h⟩, Or.inr ⟨args, rfl, rfl, rfl⟩⟩
    case revokeKey keyId =>
      refine keysAfter_commit fun a db' h => ?_
      obtain ⟨key, -, rfl⟩ := revokeKey_ok h
      exact keysAfter_patch fun k => keyRewrite_revoke _ keyId now k
    case lockUser userId =>
      refine keysAfter_commit fun a db' h => ?_
      obtain ⟨-, rfl⟩ := lockUser_ok h
      have hlocked := Table.Rewritten.patchAll db.apiKeys (fun k => k.userId = userId)
        (revokeApiKey now)
      refine KeysAfter.rewritten hlocked fun i k => ?_
      split_ifs
      · exact keyRewrite_revoke _ i now k
      · exact ⟨KeyKept.refl k, Or.inl rfl⟩
    case upsertKey args =>
      refine keysAfter_commit fun a db' h => ?_
      rcases upsertKey_ok h with ⟨hnew, rfl⟩ | rfl
      · obtain ⟨f, hf, hrewrite⟩ := rewritten_retireSiteKeys ⟨now, .upsertKey args⟩ now args
          (db.apiKeys.insert args.key)
        exact ⟨_, f, Or.inr ⟨args.key, .upsertKey args rfl hnew, rfl⟩, hf, hrewrite⟩
      · obtain ⟨f, hf, hrewrite⟩ := rewritten_retireSiteKeys ⟨now, .upsertKey args⟩ now args
          db.apiKeys
        exact KeysAfter.rewritten hf hrewrite
  · rw [(run_frame env db c).apiKeys hw]
    exact keysAfter_same db c

/-! ### One key -/

/-- A key that exists stays, rewritten. -/
theorem KeysAfter.get_some {db : Db} {c : Call} {keys : Table ApiKey} (h : KeysAfter db c keys)
    {i : ℕ} {k : ApiKey} (hk : db.apiKeys.get i = some k) :
    ∃ k', keys.get i = some k' ∧ KeyRewrite c i k k' := by
  obtain ⟨base, f, hbase, hf, hrewrite⟩ := h
  have hget : base.get i = some k := by
    rcases hbase with rfl | ⟨key, -, rfl⟩
    · exact hk
    · exact Table.get_insert_of_some hk
  exact ⟨f i k, by rw [hf.get, hget]; rfl, hrewrite i k⟩

/-- A key after a transaction was there before, or is the one it added. -/
theorem KeysAfter.of_get {db : Db} {c : Call} {keys : Table ApiKey} (h : KeysAfter db c keys)
    {i : ℕ} {k' : ApiKey} (hk : keys.get i = some k') :
    (∃ k, db.apiKeys.get i = some k ∧ KeyRewrite c i k k') ∨
      ∃ k, i = db.apiKeys.nextId ∧ NewKey db c k ∧ KeyRewrite c i k k' := by
  obtain ⟨base, f, hbase, hf, hrewrite⟩ := h
  rw [hf.get, Option.map_eq_some_iff] at hk
  obtain ⟨k, hk, rfl⟩ := hk
  rcases hbase with rfl | ⟨key, hnew, rfl⟩
  · exact Or.inl ⟨k, hk, hrewrite i k⟩
  · by_cases hi : i = db.apiKeys.nextId
    · rw [hi, Table.get_insert_self] at hk
      cases hk
      exact Or.inr ⟨k, hi, hnew, hrewrite i k⟩
    · rw [Table.get_insert_of_ne _ hi] at hk
      exact Or.inl ⟨k, hk, hrewrite i k⟩

/-! ### The owners of the keys -/

/-- The keys of an account, oldest first. -/
def keyIds (keys : Table ApiKey) (userId : ℕ) : List ℕ :=
  (keys.query fun k => k.userId = userId).map Doc.id

theorem keyIds_rewritten {f : ℕ → ApiKey → ApiKey} {t t' : Table ApiKey}
    (h : Table.Rewritten f t t') (hf : ∀ i k, KeyKept k (f i k)) (userId : ℕ) :
    keyIds t' userId = keyIds t userId := by
  unfold keyIds Table.query
  rw [h.docs, List.filter_map, List.map_map]
  have hp : ((fun d : Doc ApiKey => decide (d.val.userId = userId)) ∘
      fun d : Doc ApiKey => ⟨d.id, f d.id d.val⟩) =
        fun d : Doc ApiKey => decide (d.val.userId = userId) := by
    funext d
    simp [(hf d.id d.val).userId]
  rw [hp]
  rfl

theorem keyIds_insert (t : Table ApiKey) (key : ApiKey) (userId : ℕ) :
    keyIds (t.insert key) userId =
      keyIds t userId ++ if key.userId = userId then [t.nextId] else [] := by
  unfold keyIds Table.query Table.insert
  rw [List.filter_append, List.map_append]
  congr 1
  split_ifs with h <;> simp [h]

theorem keyIds_nodup (t : Table ApiKey) (userId : ℕ) : (keyIds t userId).Nodup :=
  t.ids_nodup.sublist (List.filter_sublist.map _)

theorem mem_keyIds {t : Table ApiKey} {userId i : ℕ} :
    i ∈ keyIds t userId ↔ ∃ k, t.get i = some k ∧ k.userId = userId := by
  unfold keyIds
  rw [List.mem_map]
  constructor
  · rintro ⟨d, hd, rfl⟩
    obtain ⟨hmem, howner⟩ := Table.mem_query.mp hd
    exact ⟨d.val, Table.get_of_mem hmem, by simpa using howner⟩
  · rintro ⟨k, hk, howner⟩
    exact ⟨⟨i, k⟩, Table.mem_query.mpr ⟨Table.get_eq_some.mp hk, by simpa using howner⟩, rfl⟩

/-- A transaction adds at most one key, to one account. -/
theorem keyIds_run (env : ProcessEnv) (db : Db) (c : Call) :
    (∀ userId, keyIds (c.run env db).2.apiKeys userId = keyIds db.apiKeys userId) ∧
        (c.run env db).2.apiKeys.nextId = db.apiKeys.nextId ∨
      ∃ owner, (∀ userId, keyIds (c.run env db).2.apiKeys userId =
          keyIds db.apiKeys userId ++ if owner = userId then [db.apiKeys.nextId] else []) ∧
        (c.run env db).2.apiKeys.nextId = db.apiKeys.nextId + 1 := by
  obtain ⟨base, f, hbase, hf, hrewrite⟩ := run_apiKeys env db c
  have hids := keyIds_rewritten hf fun i k => (hrewrite i k).kept
  rcases hbase with rfl | ⟨key, -, rfl⟩
  · exact Or.inl ⟨hids, hf.nextId⟩
  · refine Or.inr ⟨key.userId, fun userId => ?_, hf.nextId⟩
    rw [hids, keyIds_insert]

end GeoPlatform.Convex
