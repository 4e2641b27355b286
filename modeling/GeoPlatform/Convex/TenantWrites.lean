import GeoPlatform.Convex.Dashboard
import GeoPlatform.Convex.PaymentRuns
import GeoPlatform.Convex.OwnedRows

/-! What a transaction that runs for one user leaves of everybody else's rows: all of them, as they
were. -/
namespace GeoPlatform.Convex
open Docs

/-- Every row of `B` is as it was, and `B` owns no other. -/
structure Untouched (B : ℕ) (db db' : Db) : Prop where
  user : db'.users.get B = db.users.get B
  apiKeys : (db'.apiKeys.query fun k => k.userId = B) = db.apiKeys.query fun k => k.userId = B
  playgroundTokens : db'.playgroundTokens.query (tokenOfUser db' B) =
    db.playgroundTokens.query (tokenOfUser db B)
  payments : (db'.payments.query fun p => p.userId = B) = db.payments.query fun p => p.userId = B
  audit : (db'.securityAuditEvents.query fun e => e.tenantId = some B) =
    db.securityAuditEvents.query fun e => e.tenantId = some B
  authSessions : db'.authSessions = db.authSessions
  rateLimitWindows : db'.rateLimitWindows = db.rateLimitWindows
  quotaWindows : db'.quotaWindows = db.quotaWindows
  apiRequests : db'.apiRequests = db.apiRequests
  usageDaily : db'.usageDaily = db.usageDaily

theorem Untouched.refl (B : ℕ) (db : Db) : Untouched B db db :=
  ⟨rfl, rfl, rfl, rfl, rfl, rfl, rfl, rfl, rfl, rfl⟩

theorem untouched_commit {α : Type} {B : ℕ} {db : Db} {answer : α → Answer}
    {r : Except TxError (α × Db)} (h : ∀ a db', r = .ok (a, db') → Untouched B db db') :
    Untouched B db (commit db answer r).2 :=
  commit_induction (Untouched.refl B db) h

/-- Who owns a token depends on the keys only. -/
theorem tokenOfUser_congr {B : ℕ} {db db' : Db}
    (h : (db'.apiKeys.query fun k => k.userId = B) = db.apiKeys.query fun k => k.userId = B) :
    tokenOfUser db' B = tokenOfUser db B := by
  funext t
  have hkey := Table.filter_get_congr h t.apiKeyId
  unfold tokenOfUser
  rw [← Option.isSome_filter, ← Option.isSome_filter, hkey]

/-- The rows a query of `B` reads are untouched. -/
theorem Untouched.ownedRows {B : ℕ} {db db' : Db} (h : Untouched B db db')
    (keyCreation requestCreation : ℕ → ℚ) (now : ℕ) :
    GeoPlatform.Convex.ownedRows ⟨db', keyCreation, requestCreation⟩ now B =
      GeoPlatform.Convex.ownedRows ⟨db, keyCreation, requestCreation⟩ now B := by
  have hkeys : keysOf ⟨db', keyCreation, requestCreation⟩ B =
      keysOf ⟨db, keyCreation, requestCreation⟩ B := by
    unfold keysOf
    rw [h.apiKeys]
  have hwindows : isKeyWindowOf ⟨db', keyCreation, requestCreation⟩ now B =
      isKeyWindowOf ⟨db, keyCreation, requestCreation⟩ now B := by
    funext w
    unfold isKeyWindowOf
    rw [hkeys]
  simp only [GeoPlatform.Convex.ownedRows, h.user, hkeys, h.playgroundTokens, hwindows,
    h.rateLimitWindows, h.usageDaily, requestsOf, h.apiRequests, h.quotaWindows, h.payments]

theorem Untouched.signedIn {B now : ℕ} {db db' : Db} {caller : Caller} (h : Untouched B db db')
    (hin : SignedIn db now caller B) : SignedIn db' now caller B := by
  obtain ⟨userId, sessionId⟩ := caller
  unfold SignedIn requireUserId currentUserId at hin ⊢
  cases userId with
  | none => cases hin
  | some userId =>
    cases sessionId with
    | none => cases hin
    | some sessionId =>
      simp only at hin ⊢
      split_ifs at hin with hactive
      cases hin
      have hsame : isSessionActive db' now B sessionId = isSessionActive db now B sessionId := by
        unfold isSessionActive
        rw [h.authSessions, h.user]
      rw [hsame, if_pos hactive]

/-- Whoever is left untouched by a step is answered as before it. -/
theorem Untouched.query {B now : ℕ} {db db' : Db} {caller : Caller} (h : Untouched B db db')
    (hdb : RequestsOwned db) (hdb' : RequestsOwned db') (hin : SignedIn db now caller B)
    (p : Paginator) (keyCreation requestCreation : ℕ → ℚ) (q : Query) :
    q.run p ⟨db', keyCreation, requestCreation⟩ now caller =
      q.run p ⟨db, keyCreation, requestCreation⟩ now caller :=
  same_query (h.ownedRows keyCreation requestCreation now) (h.signedIn hin) hin hdb' hdb q

/-! ### Tables -/

section Writes
variable {A B : ℕ} {db : Db} (hB : B ≠ A)
include hB

/-- A rewritten row of `A`, still of `A`, is no row of `B`. -/
theorem patch_other {α : Type} (owner : α → ℕ) {t : Table α} {i : ℕ} {v : α}
    (hget : t.get i = some v) (howner : owner v = A) {f : α → α}
    (hf : ∀ w, owner (f w) = owner w) :
    ((t.patch i f).query fun w => owner w = B) = t.query fun w => owner w = B := by
  apply Table.query_patch_of_not
  intro w hw
  rw [hget] at hw
  cases hw
  simp only [hf, howner, Ne.symm hB, decide_false, and_self]

/-- Tokens of another user are not those of a key of `A`. -/
theorem token_of_other {keyId : ℕ} {key : ApiKey} (hget : db.apiKeys.get keyId = some key)
    (howner : key.userId = A) {t : PlaygroundToken} (ht : tokenOfUser db B t = true) :
    t.apiKeyId ≠ keyId := by
  intro hid
  unfold tokenOfUser at ht
  rw [hid, hget, Option.any_some, howner] at ht
  exact hB (of_decide_eq_true ht).symm

theorem tokens_deleted_other {keyId : ℕ} {key : ApiKey} (hget : db.apiKeys.get keyId = some key)
    (howner : key.userId = A) :
    ((db.playgroundTokens.keep fun t => t.val.apiKeyId ≠ keyId).query (tokenOfUser db B)) =
      db.playgroundTokens.query (tokenOfUser db B) := by
  apply Table.query_keep
  intro d _ ht
  exact decide_eq_true (token_of_other hB hget howner ht)

theorem audit_other (event : String) (severity : AuditSeverity) (outcome : AuditOutcome)
    (apiKeyId : Option ℕ) (detail : Option String) (now : ℕ) :
    ((writeAudit db now event severity outcome (some A) apiKeyId detail).securityAuditEvents.query
      fun e => e.tenantId = some B) =
      db.securityAuditEvents.query fun e => e.tenantId = some B := by
  apply Table.query_insert_of_not
  simp [Ne.symm hB]

theorem user_patch_other (f : User → User) : (db.users.patch A f).get B = db.users.get B :=
  Table.get_patch_of_ne f hB

/-! ### Transactions -/

/-- A key of `A` rewritten, with its tokens gone and an event of `A` written. -/
theorem untouched_rekey {keyId : ℕ} {key : ApiKey} (hget : db.apiKeys.get keyId = some key)
    (howner : key.userId = A) {f : ApiKey → ApiKey} (hf : ∀ k, (f k).userId = k.userId) (now : ℕ)
    (event : String) :
    Untouched B db (writeAudit (deletePlaygroundTokens
      { db with apiKeys := db.apiKeys.patch keyId f } keyId) now event .WARNING .success (some A)
      (some keyId) none) := by
  have hkeys := patch_other hB ApiKey.userId hget howner hf
  constructor
  case apiKeys => exact hkeys
  case playgroundTokens =>
    have htokens : tokenOfUser (writeAudit (deletePlaygroundTokens
        { db with apiKeys := db.apiKeys.patch keyId f } keyId) now event .WARNING .success (some A)
        (some keyId) none) B = tokenOfUser db B := tokenOfUser_congr hkeys
    rw [htokens]
    exact tokens_deleted_other hB hget howner
  case audit => exact audit_other hB event .WARNING .success (some keyId) none now
  all_goals rfl

theorem rename_untouched {now keyId : ℕ} {caller : Caller} {name : String}
    (hin : SignedIn db now caller A) {db' : Db} {u : Unit}
    (h : rename now caller keyId name db = .ok (u, db')) : Untouched B db db' := by
  rw [rename, hin.bind] at h
  obtain ⟨key, hkey, h⟩ := except_bind_ok.mp h
  obtain ⟨cleaned, -, h⟩ := except_bind_ok.mp h
  cases h
  obtain ⟨hget, howner⟩ := requireOwnedKey_ok hkey
  have hkeys := patch_other hB ApiKey.userId hget howner
    (f := fun k => { k with name := cleaned }) fun _ => rfl
  constructor
  case apiKeys => exact hkeys
  case playgroundTokens => exact congrArg _ (tokenOfUser_congr hkeys)
  all_goals rfl

theorem revoke_untouched {now keyId : ℕ} {caller : Caller} (hin : SignedIn db now caller A)
    {db' : Db} {u : Unit} (h : revoke now caller keyId db = .ok (u, db')) :
    Untouched B db db' := by
  rw [revoke, hin.bind] at h
  obtain ⟨key, hkey, h⟩ := except_bind_ok.mp h
  cases h
  obtain ⟨hget, howner⟩ := requireOwnedKey_ok hkey
  exact untouched_rekey hB hget howner (fun k => (keyKept_revoke now k).userId) now
    "api_key_revoked"

theorem insertKey_untouched {now keyId : ℕ} {args : InsertKeyArgs} (hargs : args.userId = A)
    {db' : Db} (h : insertKey now args db = .ok (keyId, db')) : Untouched B db db' := by
  obtain ⟨-, -, rfl⟩ := insertKey_ok h
  have hkeys : ((db.apiKeys.insert args.key).query fun k => k.userId = B) =
      db.apiKeys.query fun k => k.userId = B := by
    apply Table.query_insert_of_not
    simp [InsertKeyArgs.key, hargs, Ne.symm hB]
  constructor
  case apiKeys => exact hkeys
  case playgroundTokens => exact congrArg _ (tokenOfUser_congr hkeys)
  case audit =>
    rw [hargs]
    exact audit_other hB "api_key_created" .INFO .success (some db.apiKeys.nextId) none now
  all_goals rfl

theorem replaceSecret_untouched {now : ℕ} {args : ReplaceSecretArgs} (hargs : args.userId = A)
    {db' : Db} {u : Unit} (h : replaceSecret now args db = .ok (u, db')) :
    Untouched B db db' := by
  obtain ⟨⟨key, hget, howner, -⟩, rfl⟩ := replaceSecret_ok h
  rw [hargs]
  rw [hargs] at howner
  exact untouched_rekey hB hget howner (f := args.rekey) (fun _ => rfl) now "api_key_rotated"

theorem insertPlaygroundToken_untouched {now : ℕ} {args : PlaygroundToken} {key : ApiKey}
    (hget : db.apiKeys.get args.apiKeyId = some key) (howner : key.userId = A) {db' : Db} {u : Unit}
    (h : insertPlaygroundToken now args db = .ok (u, db')) : Untouched B db db' := by
  obtain rfl := insertPlaygroundToken_ok h
  have hkept : ((db.playgroundTokens.delete ((surplusTokens db args.apiKeyId).map Doc.id)).query
      (tokenOfUser db B)) = db.playgroundTokens.query (tokenOfUser db B) := by
    apply Table.query_keep
    intro d hd ht
    apply decide_eq_true
    intro hsurplus
    obtain ⟨e, he, hid⟩ := List.mem_map.mp hsurplus
    have hquery := (List.perm_insertionSort _ _).mem_iff.mp (List.mem_of_mem_take he)
    obtain ⟨hmem, hkey⟩ := Table.mem_query.mp hquery
    obtain rfl := Table.eq_of_id hmem hd hid
    exact token_of_other hB hget howner ht (of_decide_eq_true hkey)
  have hnew : tokenOfUser db B args = false := by
    unfold tokenOfUser
    rw [hget, Option.any_some, howner]
    exact decide_eq_false (Ne.symm hB)
  constructor
  case playgroundTokens =>
    show ((db.playgroundTokens.delete _).insert args).query (tokenOfUser db B) = _
    rw [Table.query_insert_of_not hnew, hkept]
  all_goals rfl

theorem activateFreeTier_untouched {now : ℕ} {caller : Caller} (hin : SignedIn db now caller A)
    {db' : Db} {u : Unit} (h : activateFreeTier now caller db = .ok (u, db')) :
    Untouched B db db' := by
  rw [activateFreeTier, hin.bind] at h
  split at h
  · cases h
  · split_ifs at h
    · cases h
      exact Untouched.refl B db
    · cases h
      constructor
      case user => exact user_patch_other hB _
      all_goals rfl

theorem record_untouched (now : ℕ) (plan : PaidPlan) (paymentIntentId : String) :
    Untouched B db { db with
      payments := db.payments.insert (pendingPayment now A plan paymentIntentId) } := by
  constructor
  case payments =>
    apply Table.query_insert_of_not
    simp [pendingPayment, Ne.symm hB]
  all_goals rfl

/-- A row of `A` has the intent. -/
def PaysFor (db : Db) (A : ℕ) (paymentIntentId : String) : Prop :=
  ∃ i p, db.payments.get i = some p ∧ p.paymentIntentId = paymentIntentId ∧ p.userId = A

omit hB in
theorem PaysFor.row {paymentIntentId : String} (h : PaysFor db A paymentIntentId)
    {row : Doc Payment} (hrow : db.payments.unique (isIntent paymentIntentId) = .one row) :
    row.val.userId = A := by
  obtain ⟨i, p, hp, hintent, howner⟩ := h
  have hmem : (⟨i, p⟩ : Doc Payment) ∈ db.payments.query (isIntent paymentIntentId) :=
    Table.mem_query.mpr ⟨Table.get_eq_some.mp hp, decide_eq_true hintent⟩
  rw [Table.unique_one hrow, List.mem_singleton] at hmem
  rw [← hmem]
  exact howner

theorem settle_untouched {now : ℕ} {args : SettleArgs} (hargs : PaysFor db A args.paymentIntentId)
    {granted : Bool} {db' : Db} (h : SettleOutcome now args db granted db') :
    Untouched B db db' := by
  cases h with
  | unchanged => exact Untouched.refl B db
  | failed row hrow hpending hstatus =>
    have howner := hargs.row hrow
    constructor
    case payments =>
      exact patch_other hB Payment.userId (Table.get_of_unique hrow) howner fun _ => rfl
    all_goals rfl
  | succeeded row user hrow hpending hstatus hamount hcurrency huser =>
    have howner := hargs.row hrow
    constructor
    case user =>
      show (db.users.patch row.val.userId _).get B = _
      rw [howner]
      exact user_patch_other hB _
    case payments =>
      exact patch_other hB Payment.userId (Table.get_of_unique hrow) howner fun _ => rfl
    all_goals rfl

end Writes

end GeoPlatform.Convex
