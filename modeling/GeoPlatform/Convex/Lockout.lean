import GeoPlatform.Convex.Revocation
import GeoPlatform.Convex.UserTable

/-! Locking an account (`admin.ts`) against the dashboard's key actions. `lockUser` revokes the keys
it finds, but a `create` that checked its session before the lock inserts its key after it, and
`insertKey` asks for access only, not for the lock. -/
namespace GeoPlatform.Convex
open Docs

variable {env : ProcessEnv}

/-! ### Locked accounts -/

def IsLocked (userId : ℕ) (users : Table User) : Prop :=
  ∃ user, users.get userId = some user ∧ user.disabledAt.isSome

/-- Only `lockUser` locks an account. -/
theorem isLocked_of_run {db : Db} {c : Call} (hnot : ∀ i, c.txn ≠ .lockUser i) {userId : ℕ}
    (h : IsLocked userId (c.run env db).2.users) : IsLocked userId db.users := by
  obtain ⟨user', huser', hlocked⟩ := h
  rcases (run_users env db c).of_get huser' with ⟨user, huser, hrewrite⟩ | ⟨user, -, hnew, hrewrite⟩
  · rcases hrewrite.disabledAt hlocked with hbefore | ⟨i, hlock⟩
    · exact ⟨user, huser, hbefore⟩
    · exact absurd hlock (hnot i)
  · rcases hrewrite.disabledAt hlocked with hbefore | ⟨i, hlock⟩
    · rw [hnew.disabledAt] at hbefore
      cases hbefore
    · exact absurd hlock (hnot i)

/-! ### New keys -/

theorem retireSiteKeys_get_new (now : ℕ) (args : UpsertKeyArgs) (keys : Table ApiKey) :
    (retireSiteKeys now args (keys.insert args.key)).get keys.nextId = some args.key := by
  have hself : isOtherSiteKey args args.key = false := by
    simp [isOtherSiteKey, UpsertKeyArgs.key]
  unfold retireSiteKeys
  split_ifs
  · rw [Table.get_patchAll, Table.get_insert_self, Option.map_some, hself]
    rfl
  · exact Table.get_insert_self args.key

/-- A new key is live, and its transaction touches no account. -/
theorem newKey_live (env : ProcessEnv) {db : Db} {c : Call} {key : ApiKey}
    (h : NewKey db c key) :
    (c.run env db).2.users = db.users ∧
      (c.run env db).2.apiKeys.get db.apiKeys.nextId = some key ∧ key.revokedAt = none := by
  obtain ⟨now, txn⟩ := c
  cases h with
  | insertKey args htxn hmay =>
    obtain rfl : txn = .insertKey args := htxn
    have hrun : (Call.run env db ⟨now, .insertKey args⟩).2 =
        (commit db Answer.id (insertKey now args db)).2 := rfl
    rw [hrun, insertKey_of_may hmay]
    exact ⟨rfl, Table.get_insert_self args.key, rfl⟩
  | upsertKey args htxn hnew =>
    obtain rfl : txn = .upsertKey args := htxn
    have hrun : (Call.run env db ⟨now, .upsertKey args⟩).2 =
        (commit db (fun _ => Answer.done) (upsertKey now args db)).2 := rfl
    have hok : upsertKey now args db = .ok ((), { db with
        apiKeys := retireSiteKeys now args (db.apiKeys.insert args.key) }) := by
      simp only [upsertKey, hnew]
    rw [hrun, hok]
    exact ⟨rfl, retireSiteKeys_get_new now args db.apiKeys, rfl⟩

/-! ### The lock -/

/-- Every key of a locked account is revoked. -/
def LockedOut (db : Db) : Prop :=
  ∀ i k, db.apiKeys.get i = some k → IsLocked k.userId db.users → k.revokedAt.isSome

/-- The lock itself revokes the keys that exist. -/
theorem lockedOut_lockUser {db : Db} (h : LockedOut db) (now userId : ℕ) :
    LockedOut (Call.run env db ⟨now, .lockUser userId⟩).2 := by
  apply @commit_induction _ LockedOut _ _ _ h
  intro n db' hok
  obtain ⟨-, rfl⟩ := lockUser_ok hok
  intro i k' hk' hlocked
  have hget : (db.apiKeys.get i).map (fun k =>
      if decide (k.userId = userId) = true then revokeApiKey now k else k) = some k' := by
    rw [← Table.get_patchAll]
    exact hk'
  obtain ⟨k, hk, rfl⟩ := Option.map_eq_some_iff.mp hget
  by_cases howner : k.userId = userId
  · simp only [howner, decide_true, if_true]
    exact revokeApiKey_isSome now k
  · simp only [howner, decide_false, Bool.false_eq_true, if_false] at hlocked ⊢
    obtain ⟨user, huser, hsome⟩ := hlocked
    have hother : (db.users.patch userId (User.disable now)).get k.userId = some user := huser
    rw [Table.get_patch_of_ne _ howner] at hother
    exact h i k hk ⟨user, hother, hsome⟩

/-- A transaction keeps locked accounts without a live key exactly when it creates no key for
one. -/
theorem lockedOut_run_iff {db : Db} (h : LockedOut db) (c : Call) :
    LockedOut (c.run env db).2 ↔ ∀ key, NewKey db c key → ¬ IsLocked key.userId db.users := by
  constructor
  · intro hafter key hnew hlocked
    obtain ⟨husers, hget, hlive⟩ := newKey_live env hnew
    have hrevoked := hafter _ key hget (by rw [husers]; exact hlocked)
    rw [hlive] at hrevoked
    cases hrevoked
  · intro hnone
    by_cases hlock : ∃ userId, c.txn = .lockUser userId
    · obtain ⟨userId, hlock⟩ := hlock
      obtain ⟨now, txn⟩ := c
      obtain rfl : txn = .lockUser userId := hlock
      exact lockedOut_lockUser h now userId
    · intro i k' hk' hlocked
      have hbefore := isLocked_of_run (fun userId htxn => hlock ⟨userId, htxn⟩) hlocked
      rcases (run_apiKeys env db c).of_get hk' with ⟨k, hk, hrewrite⟩ | ⟨k, -, hnew, hrewrite⟩
      · rw [hrewrite.kept.userId] at hbefore
        obtain ⟨t, ht⟩ := Option.isSome_iff_exists.mp (h i k hk hbefore)
        rw [hrewrite.kept.revokedAt t ht]
        rfl
      · rw [hrewrite.kept.userId] at hbefore
        exact absurd hbefore (hnone k hnew)

/-- The transaction the event commits, if any, creates no key for a locked account: `insertKey`
does where the account has access and room, `upsertKey` where the hash is new. -/
def CreatesUnlocked (s : Dashboard) (e : DashboardEvent) : Prop :=
  ∀ c, s.committed e = some c → ∀ key, NewKey s.db c key → ¬ IsLocked key.userId s.db.users

theorem lockedOut_step_iff {s : Dashboard} (h : LockedOut s.db) (e : DashboardEvent) :
    LockedOut (s.step env e).2.db ↔ CreatesUnlocked s e := by
  rcases @step_db env s e with ⟨hnone, hdb⟩ | ⟨c, hc, hdb⟩
  · rw [hdb]
    refine ⟨fun _ c hc => ?_, fun _ => h⟩
    rw [hnone] at hc
    cases hc
  · rw [hdb, lockedOut_run_iff h c]
    constructor
    · intro hkeys c' hc'
      rw [hc] at hc'
      cases hc'
      exact hkeys
    · exact fun hkeys => hkeys c hc

/-! ### Whole runs -/

/-- Nothing that existed of a locked account opens anything in a later state. -/
def StaysOut (env : ProcessEnv) (found later : Db) : Prop :=
  ∀ i k, found.apiKeys.get i = some k → IsLocked k.userId found.users →
    ∀ now args reply db', authorize env now args later = .ok (reply, db') → reply.status = .ok →
      ∃ p, reply.principal = some p ∧ p.keyId ≠ i

theorem staysOut_final {s : Dashboard} (h : LockedOut s.db) (es : List DashboardEvent) :
    StaysOut env s.db (Runs.final (Dashboard.step env) s es).db := by
  intro i k hk hlocked now args reply db' hok hstatus
  have hrevoked : KeyRevoked i (Runs.final (Dashboard.step env) s es).db := by
    apply Runs.final_induction (Dashboard.step env) (P := fun s => KeyRevoked i s.db)
    · exact ⟨k, hk, h i k hk hlocked⟩
    · exact fun s e h => step_induction h fun c h => keyRevoked_run c h
  exact authorize_ne_revoked hrevoked hok hstatus

/-- A run leaves every locked account without a live key at each of its states, and without one
that comes back later, exactly when no step of it creates a key for a locked account. -/
theorem locked_account_without_live_key_iff (s : Dashboard) (hs : LockedOut s.db)
    (es : List DashboardEvent) :
    (∀ pre post, es = pre ++ post →
      LockedOut (Runs.final (Dashboard.step env) s pre).db ∧
        StaysOut env (Runs.final (Dashboard.step env) s pre).db
          (Runs.final (Dashboard.step env) s es).db) ↔
      Runs.Guarded (Dashboard.step env) CreatesUnlocked s es := by
  have hiff := Runs.forall_prefix_iff_guarded (Dashboard.step env) (C := CreatesUnlocked)
    (P := fun s => LockedOut s.db) (fun s e h => lockedOut_step_iff h e) hs es
  rw [← hiff]
  constructor
  · rintro h pre ⟨post, hpost⟩
    exact (h pre post hpost.symm).1
  · rintro h pre post rfl
    have hlocked := h pre ⟨post, rfl⟩
    refine ⟨hlocked, ?_⟩
    rw [Runs.final_append]
    exact staysOut_final hlocked post

theorem lockedOut_empty : LockedOut {} := by
  rintro i k hk -
  cases hk

theorem createsUnlocked_of_enabled {s : Dashboard}
    (h : ∀ d ∈ s.db.users.docs, d.val.disabledAt = none) (e : DashboardEvent) :
    CreatesUnlocked s e := by
  rintro c - key - ⟨u, hu, hdisabled⟩
  rw [h _ (Table.get_eq_some.mp hu)] at hdisabled
  cases hdisabled

/-- A developer creates a key, and later the account is locked. -/
def lockAfterCreate : List DashboardEvent :=
  let developer : Caller := ⟨some 0, some 0⟩
  [.call ⟨0, .signUp "dev@example.com"⟩, .call ⟨0, .signIn 0 1000000⟩,
    .call ⟨1, .activateFreeTier developer⟩,
    .create 2 developer "first" none none ⟨"geo_aaaa", "first-hash"⟩, .resume 3 0 ⟨"", "r1"⟩,
    .call ⟨4, .lockUser 0⟩]

/-- The key opened the API before the lock, and does not after the account is enabled again. -/
theorem locked_account_without_live_key_lockAfterCreate :
    let created := Runs.final (Dashboard.step testEnv) {} (lockAfterCreate.take 5)
    let locked := Runs.final (Dashboard.step testEnv) {} lockAfterCreate
    let enabled := Runs.final (Dashboard.step testEnv) {}
      (lockAfterCreate ++ [.call ⟨5, .enableUser "dev@example.com"⟩])
    (okCall testEnv created.db
        ⟨3, .authorize { freeRequest with hash := "first-hash" }⟩).isSome ∧
      LockedOut locked.db ∧ StaysOut testEnv locked.db enabled.db := by
  intro created locked enabled
  have hunlocked : ∀ x ∈ Runs.trace (Dashboard.step testEnv) {} lockAfterCreate,
      ∀ d ∈ x.before.db.users.docs, d.val.disabledAt = none := by decide +kernel
  have hguarded : Runs.Guarded (Dashboard.step testEnv) CreatesUnlocked {}
      (lockAfterCreate ++ [.call ⟨5, .enableUser "dev@example.com"⟩]) := by
    rw [Runs.guarded_append, Runs.guarded_iff_trace]
    refine ⟨fun x hx => createsUnlocked_of_enabled (hunlocked x hx) x.event, ?_, trivial⟩
    rintro c hc key (⟨args, htxn, -⟩ | ⟨args, htxn, -⟩)
    all_goals
      cases hc
      cases htxn
  exact ⟨by decide +kernel, (locked_account_without_live_key_iff {} lockedOut_empty _).mpr hguarded
    lockAfterCreate [.call ⟨5, .enableUser "dev@example.com"⟩] rfl⟩

/-- A developer creates a key; the account is locked between the session check and the
insertion. -/
def lockDuringCreate : List DashboardEvent :=
  let developer : Caller := ⟨some 0, some 0⟩
  [.call ⟨0, .signUp "dev@example.com"⟩, .call ⟨0, .signIn 0 1000000⟩,
    .call ⟨1, .activateFreeTier developer⟩,
    .create 2 developer "first" none none ⟨"geo_aaaa", "first-hash"⟩,
    .call ⟨3, .lockUser 0⟩, .call ⟨3, .invalidateSessions 0⟩, .resume 4 0 ⟨"", "r1"⟩]

/-- Whether the request was answered ok with the key. -/
def opens (keyId : ℕ) : Except TxError (AuthorizeReply × Db) → Bool
  | .ok (reply, _) => reply.status = .ok && reply.principal.any fun p => p.keyId = keyId
  | .error _ => false

/-- The locked account ends with a live key, which opens the API once the account is enabled. -/
theorem live_key_of_locked_account :
    let locked := Runs.final (Dashboard.step testEnv) {} lockDuringCreate
    let enabled := Runs.final (Dashboard.step testEnv) locked
      [.call ⟨5, .enableUser "dev@example.com"⟩]
    ¬ LockedOut locked.db ∧ ¬ StaysOut testEnv locked.db enabled.db := by
  intro locked enabled
  have hkey : (locked.db.apiKeys.get 0).any
      (fun k => k.userId = 0 && k.revokedAt.isNone) = true := by decide +kernel
  have huser : (locked.db.users.get 0).any (fun u => u.disabledAt.isSome) = true := by
    decide +kernel
  have hopens : opens 0 (authorize testEnv 6 { freeRequest with hash := "first-hash" } enabled.db) =
      true := by decide +kernel
  obtain ⟨k, hk, hlive⟩ := (Option.any_eq_true _ _).mp hkey
  obtain ⟨u, hu, hdisabled⟩ := (Option.any_eq_true _ _).mp huser
  simp only [Bool.and_eq_true, decide_eq_true_eq, Option.isNone_iff_eq_none] at hlive
  have hlocked : IsLocked k.userId locked.db.users := ⟨u, by rw [hlive.1]; exact hu, hdisabled⟩
  constructor
  · intro hout
    have hrevoked := hout 0 k hk hlocked
    rw [hlive.2] at hrevoked
    cases hrevoked
  · intro hstays
    cases hauth : authorize testEnv 6 { freeRequest with hash := "first-hash" } enabled.db with
    | error e =>
      rw [hauth] at hopens
      cases hopens
    | ok answer =>
      rw [hauth] at hopens
      simp only [opens, Bool.and_eq_true, decide_eq_true_eq] at hopens
      obtain ⟨p, hp, hne⟩ := hstays 0 k hk hlocked 6 _ answer.1 answer.2 hauth hopens.1
      rw [hp] at hopens
      exact hne (by simpa using hopens.2)

end GeoPlatform.Convex
