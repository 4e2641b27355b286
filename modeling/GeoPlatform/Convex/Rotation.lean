import GeoPlatform.Convex.Revocation

/-! Finality over whole runs of the dashboard: of a revocation for its key, and of a rotation for
the replaced hash and the tokens issued under it. -/
namespace GeoPlatform.Convex
open Docs ListSums

variable {env : ProcessEnv}

/-! ### Hashes that are gone -/

theorem freshSecrets_final (env : ProcessEnv) {s : Dashboard} {pre post : List DashboardEvent}
    (h : FreshSecrets s (pre ++ post)) :
    FreshSecrets (Runs.final (Dashboard.step env) s pre) post := by
  induction pre generalizing s with
  | nil => exact h
  | cons e pre ih =>
    apply ih
    intro hash
    have hfresh := h hash
    have hstep := uses_step env hash s e
    simp only [List.cons_append, List.map_cons, List.sum_cons] at hfresh
    simp only [Runs.next]
    omega

/-- A hash that nothing stores, carries or draws stays away. -/
theorem uses_final_eq_zero (env : ProcessEnv) {s : Dashboard} {es : List DashboardEvent}
    {hash : String}
    (hzero : s.uses hash = 0) (hdraws : (es.map (DashboardEvent.draws hash)).sum = 0) :
    (Runs.final (Dashboard.step env) s es).uses hash = 0 := by
  induction es generalizing s with
  | nil => exact hzero
  | cons e es ih =>
    simp only [List.map_cons, List.sum_cons] at hdraws
    have hstep := uses_step env hash s e
    apply ih
    · simp only [Runs.next]
      omega
    · omega

theorem storedUses_pos_of_key {db : Db} {i : ℕ} {k : ApiKey} (h : db.apiKeys.get i = some k) :
    0 < storedUses k.keyHash db := by
  have hpos : 0 < db.apiKeys.sum fun k' => hashIf k.keyHash k'.keyHash :=
    Table.sum_pos_of_mem (Table.get_eq_some.mp h) (by simp [hashIf])
  unfold storedUses
  omega

theorem storedUses_pos_of_token {db : Db} {d : Doc PlaygroundToken}
    (h : d ∈ db.playgroundTokens.docs) : 0 < storedUses d.val.tokenHash db := by
  have hpos : 0 < db.playgroundTokens.sum fun t => hashIf d.val.tokenHash t.tokenHash :=
    Table.sum_pos_of_mem h (by simp [hashIf])
  unfold storedUses
  omega

/-- A hash that is not stored is never answered ok, as a key's or as a token's. -/
theorem authorize_ne_ok_of_unused {now : ℕ} {args : AuthorizeArgs} {db db' : Db}
    {reply : AuthorizeReply} (hunused : storedUses args.hash db = 0)
    (h : authorize env now args db = .ok (reply, db')) : reply.status ≠ .ok := by
  intro hstatus
  have hnone : ∀ a, admission db now args ≠ .ok a := by
    intro a ha
    have hadmitted := admission_ok ha
    rcases hadmitted.credential with ⟨-, -, hhash⟩ | ⟨-, -, token, htoken, -⟩
    · have hpos := storedUses_pos_of_key hadmitted.key_mem
      rw [hhash] at hpos
      omega
    · obtain ⟨hmem, hhash⟩ := Table.unique_mem htoken
      have hpos := storedUses_pos_of_token hmem
      rw [show token.val.tokenHash = args.hash by simpa [isTokenHash] using hhash] at hpos
      omega
  cases authorize_ok h with
  | refused reply entry hrefused => exact hrefused hstatus
  | rateLimited a windows reply entry hcharged => exact hnone a hcharged.admitted
  | quotaExceeded a windows reply entry hcharged => exact hnone a hcharged.admitted
  | site a windows reply entry hcharged => exact hnone a hcharged.admitted
  | customer a windows quota quotas reply entry hcharged => exact hnone a hcharged.admitted

theorem describe_ne_ok_of_unused {now : ℕ} {hash : String} {db : Db} {d : KeyDescription}
    (hunused : storedUses hash db = 0) : describe env now hash db ≠ .ok (.ok d) := by
  intro h
  obtain ⟨key, hkey, -, -⟩ := describe_ok h
  obtain ⟨hmem, hhash⟩ := Table.unique_mem hkey
  have hpos := storedUses_pos_of_key (Table.get_of_mem hmem)
  rw [show key.val.keyHash = hash by simpa [isKeyHash] using hhash] at hpos
  omega

/-! ### Rotations -/

/-- The event commits `replaceSecret` on the key, which was `old` before. -/
inductive Rotates (keyId : ℕ) (old : ApiKey) (s : Dashboard) : DashboardEvent → Prop
  | mk (now i : ℕ) (secret : Secret) (args : ReplaceSecretArgs) (db' : Db)
      (hthread : s.threads[i]? = some (.replaceSecret args)) (hkey : args.keyId = keyId)
      (hold : s.db.apiKeys.get keyId = some old)
      (h : replaceSecret now args s.db = .ok ((), db')) : Rotates keyId old s (.resume now i secret)

/-- The hash is the key's own, or that of a playground token issued for it. -/
def OpensKey (keyId : ℕ) (old : ApiKey) (db : Db) (hash : String) : Prop :=
  hash = old.keyHash ∨ ∃ token ∈ db.playgroundTokens.docs, token.val.apiKeyId = keyId ∧
    token.val.tokenHash = hash

/-- After a rotation nothing stores or carries a hash that opened the key before. -/
theorem uses_after_rotation (env : ProcessEnv) {keyId : ℕ} {old : ApiKey}
    {s : Dashboard} {e : DashboardEvent}
    {post : List DashboardEvent} (hfresh : FreshSecrets s (e :: post)) (h : Rotates keyId old s e)
    {hash : String} (hopens : OpensKey keyId old s.db hash) :
    (s.step env e).2.uses hash = 0 ∧ (post.map (DashboardEvent.draws hash)).sum = 0 := by
  obtain ⟨now, i, secret, args, db', hthread, rfl, hold, hok⟩ := h
  have honce := hfresh hash
  simp only [List.map_cons, List.sum_cons, Dashboard.uses] at honce
  have herase := sum_map_eraseIdx (Thread.uses hash) hthread
  have hstep : s.step env (.resume now i secret) =
      (.done, { db := db', threads := s.threads.eraseIdx i }) := by
    simp only [Dashboard.step, hthread, Thread.resume, Call.run, hok, commit]
  obtain ⟨-, rfl⟩ := replaceSecret_ok hok
  have hkeys := keyUses_replaceSecret hold hash
  have htokens := Table.sum_keep_le (t := s.db.playgroundTokens)
    (fun t => decide (t.val.apiKeyId ≠ args.keyId)) (fun t => hashIf hash t.tokenHash)
  have hpos : 0 < storedUses hash s.db := by
    rcases hopens with rfl | ⟨token, hmem, -, rfl⟩
    · exact storedUses_pos_of_key hold
    · exact storedUses_pos_of_token hmem
  -- The one use of the hash is the stored one, so the new hash is another.
  have hnew : hashIf hash args.keyHash = 0 := by
    simp only [Thread.uses] at herase
    omega
  have hgone : storedUses hash (writeAudit (deletePlaygroundTokens
      { s.db with apiKeys := s.db.apiKeys.patch args.keyId args.rekey } args.keyId) now
      "api_key_rotated" .WARNING .success (some args.userId) (some args.keyId) none) = 0 := by
    rcases hopens with rfl | ⟨token, hmem, hkey, rfl⟩
    · have hself : hashIf old.keyHash old.keyHash = 1 := by simp [hashIf]
      simp only [storedUses, writeAudit, deletePlaygroundTokens] at hpos honce ⊢
      omega
    · have hself : hashIf token.val.tokenHash token.val.tokenHash = 1 := by simp [hashIf]
      have htaken := Table.sum_keep_add_le (f := fun t => hashIf token.val.tokenHash t.tokenHash)
        (p := fun t => decide (t.val.apiKeyId ≠ args.keyId)) hmem (by simp [hkey])
      simp only [storedUses, writeAudit, deletePlaygroundTokens] at hpos honce ⊢
      omega
  constructor
  · rw [hstep]
    simp only [Dashboard.uses, hgone]
    omega
  · omega

/-! ### Whole runs -/

/-- Revocation and rotation are final. Whatever the dashboard's actions, the operator functions
and the cleanup job do before and after, in any order: once a revocation of a key has committed, no
credential that resolves to it is answered ok; once a rotation has committed, with fresh secrets,
neither the replaced hash nor a token that existed for the key at that moment is. -/
theorem revocation_and_rotation_final (s : Dashboard) (pre : List DashboardEvent)
    (e : DashboardEvent) (post : List DashboardEvent) :
    let found := Runs.final (Dashboard.step env) s pre
    let later := Runs.final (Dashboard.step env) s (pre ++ e :: post)
    (∀ keyId, Revokes keyId found e →
      (∀ now args reply db', authorize env now args later.db = .ok (reply, db') →
        reply.status = .ok → ∃ p, reply.principal = some p ∧ p.keyId ≠ keyId) ∧
      ∀ now hash d, describe env now hash later.db = .ok (.ok d) → d.keyId ≠ keyId) ∧
    (FreshSecrets s (pre ++ e :: post) → ∀ keyId old, Rotates keyId old found e →
      ∀ hash, OpensKey keyId old found.db hash →
        (∀ now args reply db', args.hash = hash →
          authorize env now args later.db = .ok (reply, db') → reply.status ≠ .ok) ∧
        ∀ now d, describe env now hash later.db ≠ .ok (.ok d)) := by
  intro found later
  have hlater : later = Runs.final (Dashboard.step env) (found.step env e).2 post := by
    simp only [later, found, Runs.final_append, Runs.final_cons, Runs.next]
  constructor
  · intro keyId hrevokes
    have hrevoked : KeyRevoked keyId later.db := by
      rw [hlater]
      apply Runs.final_induction (Dashboard.step env) (P := fun s => KeyRevoked keyId s.db)
      · exact keyRevoked_of_revokes hrevokes
      · exact fun s e h => step_induction h fun c h => keyRevoked_run c h
    exact ⟨fun now args reply db' h hstatus => authorize_ne_revoked hrevoked h hstatus,
      fun now hash d h => describe_ne_revoked hrevoked h⟩
  · intro hfresh keyId old hrotates hash hopens
    have hreached := freshSecrets_final env hfresh
    obtain ⟨hgone, hdraws⟩ := uses_after_rotation env hreached hrotates hopens
    have hunused : storedUses hash later.db = 0 := by
      have hzero := uses_final_eq_zero env hgone hdraws
      rw [← hlater] at hzero
      simp only [Dashboard.uses] at hzero
      omega
    constructor
    · rintro now args reply db' rfl h
      exact authorize_ne_ok_of_unused hunused h
    · exact fun now d => describe_ne_ok_of_unused hunused

/-- A developer creates a key and asks for a new secret, up to the mutation that replaces it. -/
def beforeRotation : List DashboardEvent :=
  let developer : Caller := ⟨some 0, some 0⟩
  [.call ⟨0, .signUp "dev@example.com"⟩, .call ⟨0, .signIn 0 1000000⟩,
    .call ⟨1, .activateFreeTier developer⟩,
    .create 2 developer "first" none none ⟨"geo_aaaa", "first-hash"⟩, .resume 3 0 ⟨"", "r1"⟩,
    .regenerate 4 developer 0, .resume 5 0 ⟨"geo_bbbb", "second-hash"⟩]

theorem except_of_isOk {ε α : Type} {x : Except ε α} (h : x.isOk = true) : ∃ a, x = .ok a := by
  cases x with
  | ok a => exact ⟨a, rfl⟩
  | error e => cases h

theorem sum_hashIf_le_one {hashes : List String} (h : hashes.Nodup) (hash : String) :
    (hashes.map (hashIf hash)).sum ≤ 1 := by
  have hcount : (hashes.map (hashIf hash)).sum = hashes.count hash := by
    clear h
    induction hashes with
    | nil => rfl
    | cons stored hashes ih =>
      rw [List.map_cons, List.sum_cons, List.count_cons, ih, hashIf, Nat.add_comm]
      simp only [beq_iff_eq]
  exact hcount ▸ List.nodup_iff_count_le_one.mp h hash

theorem freshSecrets_beforeRotation {e : DashboardEvent}
    (he : ∀ hash, e.draws hash ≤ hashIf hash "r2") : FreshSecrets {} (beforeRotation ++ [e]) := by
  intro hash
  have hsum : ({} : Dashboard).uses hash + ((beforeRotation ++ [e]).map
      (DashboardEvent.draws hash)).sum = hashIf hash "first-hash" + (hashIf hash "r1" +
        (hashIf hash "second-hash" + e.draws hash)) := by
    simp [beforeRotation, Dashboard.uses, storedUses, DashboardEvent.draws, Txn.isInternal,
      Txn.brings, Table.sum, Table.empty]
  have hfour : (["first-hash", "r1", "second-hash", "r2"].map (hashIf hash)).sum ≤ 1 :=
    sum_hashIf_le_one (by decide) hash
  simp only [List.map_cons, List.map_nil, List.sum_cons, List.sum_nil] at hfour
  have hr2 := he hash
  omega

/-- The first secret opens the key until the rotation commits, or a revocation does. -/
theorem revocation_and_rotation_final_developer :
    let found := Runs.final (Dashboard.step testEnv) {} beforeRotation
    let rotated := Runs.final (Dashboard.step testEnv) {}
      (beforeRotation ++ [.resume 6 0 ⟨"", "r2"⟩])
    let revoked := Runs.final (Dashboard.step testEnv) {}
      (beforeRotation ++ [.call ⟨6, .revoke ⟨some 0, some 0⟩ 0⟩])
    (okCall testEnv found.db
        ⟨7, .authorize { freeRequest with hash := "first-hash" }⟩).isSome ∧
      (∀ now d, describe testEnv now "first-hash" rotated.db ≠ .ok (.ok d)) ∧
        ∀ now hash d, describe testEnv now hash revoked.db = .ok (.ok d) → d.keyId ≠ 0 := by
  intro found rotated revoked
  refine ⟨by decide +kernel, ?_, ?_⟩
  · obtain ⟨-, hrotation⟩ := @revocation_and_rotation_final testEnv {} beforeRotation
      (.resume 6 0 ⟨"", "r2"⟩) []
    obtain ⟨old, hold⟩ : ∃ old, found.db.apiKeys.get 0 = some old :=
      Option.isSome_iff_exists.mp (by decide +kernel)
    have hhash : (found.db.apiKeys.get 0).map ApiKey.keyHash = some "first-hash" := by
      decide +kernel
    rw [hold] at hhash
    obtain ⟨db', hok⟩ := except_of_isOk
      (show (replaceSecret 6 ⟨0, 0, "geo_bbbb", "second-hash"⟩ found.db).isOk = true by
        decide +kernel)
    have hrotates : Rotates 0 old found (.resume 6 0 ⟨"", "r2"⟩) :=
      ⟨6, 0, _, _, db'.2, by decide +kernel, rfl, hold, hok⟩
    have hgone := hrotation (freshSecrets_beforeRotation fun hash => le_rfl) 0 old hrotates
      "first-hash" (Or.inl (Option.some.inj hhash).symm)
    exact hgone.2
  · obtain ⟨hrevocation, -⟩ := @revocation_and_rotation_final testEnv {} beforeRotation
      (.call ⟨6, .revoke ⟨some 0, some 0⟩ 0⟩) []
    obtain ⟨db', hok⟩ := except_of_isOk
      (show (revoke 6 ⟨some 0, some 0⟩ 0 found.db).isOk = true by decide +kernel)
    exact (hrevocation 0 (.revoke 6 _ db'.2 hok)).2

end GeoPlatform.Convex
