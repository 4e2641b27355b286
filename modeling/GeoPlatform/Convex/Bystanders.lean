import GeoPlatform.Convex.Backend

/-! Transactions that look at no counter. On two databases that differ in their counters and
audit logs alone, such a transaction answers alike and leaves two databases that differ so. -/
namespace GeoPlatform.Convex
open Docs

/-- The databases differ in their counters and audit logs alone. -/
def SameAccounts (db db' : Db) : Prop :=
  ∃ windows quotas audit, db' = { db with
    rateLimitWindows := windows, quotaWindows := quotas, securityAuditEvents := audit }

theorem SameAccounts.refl (db : Db) : SameAccounts db db := ⟨_, _, _, rfl⟩

theorem SameAccounts.symm {db db' : Db} (h : SameAccounts db db') : SameAccounts db' db := by
  obtain ⟨w, q, au, rfl⟩ := h
  exact ⟨db.rateLimitWindows, db.quotaWindows, db.securityAuditEvents, rfl⟩

/-- Both throw the same, or both answer the same and their databases differ so. -/
def CommitAlike {α : Type} : Except TxError (α × Db) → Except TxError (α × Db) → Prop
  | .ok (a, db), .ok (a', db') => a = a' ∧ SameAccounts db db'
  | .error e, .error e' => e = e'
  | _, _ => False

section Alike
variable {α β : Type}

theorem commitAlike_error (e : TxError) : CommitAlike (α := α) (.error e) (.error e) := rfl

theorem commitAlike_bind {x : Except TxError β} {f g : β → Except TxError (α × Db)}
    (h : ∀ b, CommitAlike (f b) (g b)) : CommitAlike (x >>= f) (x >>= g) := by
  cases x with
  | error e => exact commitAlike_error e
  | ok b => exact h b

theorem CommitAlike.commit {r r' : Except TxError (α × Db)} (h : CommitAlike r r') {db db' : Db}
    (hdb : SameAccounts db db') (answer : α → Answer) :
    (commit db answer r).1 = (commit db' answer r').1 ∧
      SameAccounts (commit db answer r).2 (commit db' answer r').2 := by
  rcases r with e | ⟨a, d⟩ <;> rcases r' with e' | ⟨a', d'⟩
  · obtain rfl : e = e' := h
    exact ⟨rfl, hdb⟩
  · exact h.elim
  · exact h.elim
  · obtain ⟨rfl, hsame⟩ := h
    exact ⟨rfl, hsame⟩

end Alike

variable {now : ℕ} {db db' : Db}

theorem insertKey_alike (h : SameAccounts db db') (args : InsertKeyArgs) :
    CommitAlike (insertKey now args db) (insertKey now args db') := by
  obtain ⟨w, q, au, rfl⟩ := h
  unfold insertKey
  dsimp only
  cases db.users.get args.userId with
  | none => exact commitAlike_error _
  | some user =>
    dsimp only
    split_ifs
    · exact commitAlike_error _
    · exact commitAlike_error _
    · exact commitAlike_error _
    · exact ⟨rfl, _, _, _, rfl⟩

theorem rename_alike (h : SameAccounts db db') (caller : Caller) (keyId : ℕ) (name : String) :
    CommitAlike (rename now caller keyId name db) (rename now caller keyId name db') := by
  obtain ⟨w, q, au, rfl⟩ := h
  apply commitAlike_bind
  intro userId
  apply commitAlike_bind
  intro key
  apply commitAlike_bind
  intro cleaned
  exact ⟨rfl, _, _, _, rfl⟩

theorem revoke_alike (h : SameAccounts db db') (caller : Caller) (keyId : ℕ) :
    CommitAlike (revoke now caller keyId db) (revoke now caller keyId db') := by
  obtain ⟨w, q, au, rfl⟩ := h
  apply commitAlike_bind
  intro userId
  apply commitAlike_bind
  intro key
  exact ⟨rfl, _, _, _, rfl⟩

theorem replaceSecret_alike (h : SameAccounts db db') (args : ReplaceSecretArgs) :
    CommitAlike (replaceSecret now args db) (replaceSecret now args db') := by
  obtain ⟨w, q, au, rfl⟩ := h
  apply commitAlike_bind
  intro key
  dsimp only
  cases db.users.get args.userId with
  | none => exact commitAlike_error _
  | some user =>
    dsimp only
    split_ifs
    · exact commitAlike_error _
    · exact commitAlike_error _
    · exact commitAlike_error _
    · exact ⟨rfl, _, _, _, rfl⟩

theorem insertPlaygroundToken_alike (h : SameAccounts db db') (args : PlaygroundToken) :
    CommitAlike (insertPlaygroundToken now args db) (insertPlaygroundToken now args db') := by
  obtain ⟨w, q, au, rfl⟩ := h
  unfold insertPlaygroundToken
  dsimp only
  cases db.users.get args.userId with
  | none => exact commitAlike_error _
  | some user =>
    dsimp only
    split_ifs
    · exact commitAlike_error _
    · exact ⟨rfl, _, _, _, rfl⟩

theorem revokeKey_alike (h : SameAccounts db db') (keyId : ℕ) :
    CommitAlike (revokeKey now keyId db) (revokeKey now keyId db') := by
  obtain ⟨w, q, au, rfl⟩ := h
  unfold revokeKey
  dsimp only
  cases db.apiKeys.get keyId with
  | none => exact commitAlike_error _
  | some key => exact ⟨rfl, _, _, _, rfl⟩

theorem lockUser_alike (h : SameAccounts db db') (userId : ℕ) :
    CommitAlike (lockUser now userId db) (lockUser now userId db') := by
  obtain ⟨w, q, au, rfl⟩ := h
  unfold lockUser
  dsimp only
  cases db.users.get userId with
  | none => exact commitAlike_error _
  | some user =>
    dsimp only
    split_ifs
    · exact commitAlike_error _
    · exact ⟨rfl, _, _, _, rfl⟩

theorem enableUser_alike (h : SameAccounts db db') (email : String) :
    CommitAlike (enableUser now email db) (enableUser now email db') := by
  obtain ⟨w, q, au, rfl⟩ := h
  unfold enableUser findUser
  dsimp only
  cases (db.users.query fun u => u.email = some (lookupEmail email)).head? with
  | none => exact commitAlike_error _
  | some user => exact ⟨rfl, _, _, _, rfl⟩

theorem upsertSystemUser_alike (h : SameAccounts db db') :
    CommitAlike (upsertSystemUser db) (upsertSystemUser db') := by
  obtain ⟨w, q, au, rfl⟩ := h
  unfold upsertSystemUser
  dsimp only
  cases (db.users.query fun u => u.isSystem).head? with
  | some system => exact ⟨rfl, _, _, _, rfl⟩
  | none =>
    dsimp only
    cases (db.users.query fun u => u.email = some SYSTEM_EMAIL).head? with
    | some impostor => exact commitAlike_error _
    | none => exact ⟨rfl, _, _, _, rfl⟩

theorem upsertKey_alike (h : SameAccounts db db') (args : UpsertKeyArgs) :
    CommitAlike (upsertKey now args db) (upsertKey now args db') := by
  obtain ⟨w, q, au, rfl⟩ := h
  unfold upsertKey
  dsimp only
  cases db.apiKeys.unique fun k => k.keyHash = args.keyHash with
  | several => exact commitAlike_error _
  | none => exact ⟨rfl, _, _, _, rfl⟩
  | one existing =>
    dsimp only
    split_ifs
    · exact commitAlike_error _
    · exact ⟨rfl, _, _, _, rfl⟩

theorem activateFreeTier_alike (h : SameAccounts db db') (caller : Caller) :
    CommitAlike (activateFreeTier now caller db) (activateFreeTier now caller db') := by
  obtain ⟨w, q, au, rfl⟩ := h
  apply commitAlike_bind
  intro userId
  dsimp only
  cases db.users.get userId with
  | none => exact commitAlike_error _
  | some user =>
    dsimp only
    split_ifs
    · exact commitAlike_error _
    · exact ⟨rfl, _, _, _, rfl⟩
    · exact ⟨rfl, _, _, _, rfl⟩

theorem recordPending_alike (h : SameAccounts db db') (userId : ℕ) (plan : PaidPlan)
    (paymentIntentId : String) : CommitAlike (recordPending now userId plan paymentIntentId db)
      (recordPending now userId plan paymentIntentId db') := by
  obtain ⟨w, q, au, rfl⟩ := h
  unfold recordPending
  dsimp only
  cases db.payments.unique (isIntent paymentIntentId) with
  | several => exact commitAlike_error _
  | none => exact ⟨rfl, _, _, _, rfl⟩
  | one existing =>
    dsimp only
    split_ifs
    · exact commitAlike_error _
    · exact ⟨rfl, _, _, _, rfl⟩

theorem settle_alike (h : SameAccounts db db') (args : SettleArgs) :
    CommitAlike (settle now args db) (settle now args db') := by
  obtain ⟨w, q, au, rfl⟩ := h
  unfold settle
  dsimp only
  cases db.payments.unique (isIntent args.paymentIntentId) with
  | several => exact commitAlike_error _
  | none => exact ⟨rfl, _, _, _, rfl⟩
  | one payment =>
    dsimp only
    split_ifs
    · exact ⟨rfl, _, _, _, rfl⟩
    · exact ⟨rfl, _, _, _, rfl⟩
    · cases args.status with
      | failed => exact ⟨rfl, _, _, _, rfl⟩
      | succeeded =>
        dsimp only
        cases db.users.get payment.val.userId with
        | none => exact ⟨rfl, _, _, _, rfl⟩
        | some user => exact ⟨rfl, _, _, _, rfl⟩

theorem recordUsage_alike (h : SameAccounts db db') (entries : List UsageEntry) :
    CommitAlike (recordUsage now entries db) (recordUsage now entries db') := by
  obtain ⟨w, q, au, rfl⟩ := h
  apply commitAlike_bind
  intro usageDaily
  exact ⟨rfl, _, _, _, rfl⟩

/-- The transactions that read or write counters. -/
def Txn.counts : Txn → Bool
  | .authorizeDemo _ => true
  | .authorize _ => true
  | .prune => true
  | _ => false

/-- A transaction that looks at no counter answers alike on both databases. -/
theorem sameAccounts_run {env : ProcessEnv} (h : SameAccounts db db') {c : Call}
    (hcounts : c.txn.counts = false) : (c.run env db).1 = (c.run env db').1 ∧
      SameAccounts (c.run env db).2 (c.run env db').2 := by
  obtain ⟨now, txn⟩ := c
  cases txn with
  | authorizeDemo args => cases hcounts
  | authorize args => cases hcounts
  | prune => cases hcounts
  | describe hash =>
    obtain ⟨w, q, au, rfl⟩ := h
    have hsame : describe env now hash { db with
        rateLimitWindows := w, quotaWindows := q, securityAuditEvents := au } =
          describe env now hash db := rfl
    simp only [Call.run, hsame]
    cases describe env now hash db with
    | error e => exact ⟨rfl, _, _, _, rfl⟩
    | ok reply => exact ⟨rfl, _, _, _, rfl⟩
  | recordUsage entries => exact (recordUsage_alike h entries).commit h _
  | insertKey args => exact (insertKey_alike h args).commit h _
  | rename caller keyId name => exact (rename_alike h caller keyId name).commit h _
  | revoke caller keyId => exact (revoke_alike h caller keyId).commit h _
  | replaceSecret args => exact (replaceSecret_alike h args).commit h _
  | insertPlaygroundToken args => exact (insertPlaygroundToken_alike h args).commit h _
  | revokeKey keyId => exact (revokeKey_alike h keyId).commit h _
  | lockUser userId => exact (lockUser_alike h userId).commit h _
  | enableUser email => exact (enableUser_alike h email).commit h _
  | upsertSystemUser => exact (upsertSystemUser_alike h).commit h _
  | upsertKey args => exact (upsertKey_alike h args).commit h _
  | activateFreeTier caller => exact (activateFreeTier_alike h caller).commit h _
  | recordPending userId plan paymentIntentId =>
    exact (recordPending_alike h userId plan paymentIntentId).commit h _
  | settle args => exact (settle_alike h args).commit h _
  | signUp email =>
    obtain ⟨w, q, au, rfl⟩ := h
    exact ⟨rfl, _, _, _, rfl⟩
  | signIn userId expirationTime =>
    obtain ⟨w, q, au, rfl⟩ := h
    exact ⟨rfl, _, _, _, rfl⟩
  | invalidateSessions userId =>
    obtain ⟨w, q, au, rfl⟩ := h
    exact ⟨rfl, _, _, _, rfl⟩

end GeoPlatform.Convex
