import GeoPlatform.Convex.Effects
import GeoPlatform.Library.Run

/-! The Convex deployment as a machine. Every transaction is atomic, one that throws leaves the
database as it was, and a run is any list of timed transactions. -/
namespace GeoPlatform.Convex
open Docs

inductive Txn where
  | authorizeDemo (args : DemoArgs)
  | authorize (args : AuthorizeArgs)
  | describe (hash : String)
  | recordUsage (entries : List UsageEntry)
  | prune
  | insertKey (args : InsertKeyArgs)
  | rename (caller : Caller) (keyId : ℕ) (name : String)
  | revoke (caller : Caller) (keyId : ℕ)
  | replaceSecret (args : ReplaceSecretArgs)
  | insertPlaygroundToken (args : PlaygroundToken)
  | revokeKey (keyId : ℕ)
  | lockUser (userId : ℕ)
  | enableUser (email : String)
  | upsertSystemUser
  | upsertKey (args : UpsertKeyArgs)
  | activateFreeTier (caller : Caller)
  | recordPending (userId : ℕ) (plan : PaidPlan) (paymentIntentId : String)
  | settle (args : SettleArgs)
  | signUp (email : String)
  | signIn (userId expirationTime : ℕ)
  | invalidateSessions (userId : ℕ)

/-- A transaction and the instant `Date.now()` gives it. -/
structure Call where
  now : ℕ
  txn : Txn

inductive Answer where
  | threw (e : TxError)
  | demo (reply : DemoReply)
  | authorized (reply : AuthorizeReply)
  | described (reply : DescribeReply)
  | usage (reply : UsageReply)
  | pruned (reply : PruneReply)
  | id (i : ℕ)
  | settled (granted : Bool)
  | done
  deriving DecidableEq

def commit {α : Type} (db : Db) (answer : α → Answer) : Except TxError (α × Db) → Answer × Db
  | .ok (a, db') => (answer a, db')
  | .error e => (.threw e, db)

theorem commit_cases {α : Type} (db : Db) (answer : α → Answer) (r : Except TxError (α × Db)) :
    (∃ e, r = .error e ∧ commit db answer r = (.threw e, db)) ∨
      ∃ a db', r = .ok (a, db') ∧ commit db answer r = (answer a, db') := by
  rcases r with e | ⟨a, db'⟩
  · exact Or.inl ⟨e, rfl, rfl⟩
  · exact Or.inr ⟨a, db', rfl, rfl⟩

/-- A property of the database survives a transaction that keeps it when it commits. -/
theorem commit_induction {α : Type} {P : Db → Prop} {db : Db} {answer : α → Answer}
    {r : Except TxError (α × Db)} (hdb : P db) (h : ∀ a db', r = .ok (a, db') → P db') :
    P (commit db answer r).2 := by
  rcases commit_cases db answer r with ⟨e, -, hc⟩ | ⟨a, db', hr, hc⟩
  · rw [hc]
    exact hdb
  · rw [hc]
    exact h a db' hr

def Call.run (env : ProcessEnv) (db : Db) (c : Call) : Answer × Db :=
  match c.txn with
  | .authorizeDemo args => commit db .demo (authorizeDemo env c.now args db)
  | .authorize args => commit db .authorized (authorize env c.now args db)
  | .describe hash =>
      match describe env c.now hash db with
      | .ok reply => (.described reply, db)
      | .error e => (.threw e, db)
  | .recordUsage entries => commit db .usage (recordUsage c.now entries db)
  | .prune => (.pruned (prune env c.now db).1, (prune env c.now db).2)
  | .insertKey args => commit db .id (insertKey c.now args db)
  | .rename caller keyId name => commit db (fun _ => .done) (rename c.now caller keyId name db)
  | .revoke caller keyId => commit db (fun _ => .done) (revoke c.now caller keyId db)
  | .replaceSecret args => commit db (fun _ => .done) (replaceSecret c.now args db)
  | .insertPlaygroundToken args => commit db (fun _ => .done) (insertPlaygroundToken c.now args db)
  | .revokeKey keyId => commit db (fun _ => .done) (revokeKey c.now keyId db)
  | .lockUser userId => commit db (fun _ => .done) (lockUser c.now userId db)
  | .enableUser email => commit db .id (enableUser c.now email db)
  | .upsertSystemUser => commit db .id (upsertSystemUser db)
  | .upsertKey args => commit db (fun _ => .done) (upsertKey c.now args db)
  | .activateFreeTier caller => commit db (fun _ => .done) (activateFreeTier c.now caller db)
  | .recordPending userId plan paymentIntentId =>
      commit db .id (recordPending c.now userId plan paymentIntentId db)
  | .settle args => commit db .settled (settle c.now args db)
  | .signUp email => (.id (signUp email db).1, (signUp email db).2)
  | .signIn userId expirationTime =>
      (.id (signIn userId expirationTime db).1, (signIn userId expirationTime db).2)
  | .invalidateSessions userId => (.done, invalidateSessions userId db)

section Run
variable (env : ProcessEnv) (db : Db) (now : ℕ)

theorem run_authorizeDemo (args : DemoArgs) : Call.run env db ⟨now, .authorizeDemo args⟩ =
    commit db .demo (authorizeDemo env now args db) := rfl

theorem run_authorize (args : AuthorizeArgs) : Call.run env db ⟨now, .authorize args⟩ =
    commit db .authorized (authorize env now args db) := rfl

theorem run_prune : Call.run env db ⟨now, .prune⟩ =
    (.pruned (prune env now db).1, (prune env now db).2) := rfl

end Run

/-! ### What a transaction leaves alone -/

inductive TableName where
  | users | apiKeys | playgroundTokens | rateLimitWindows | quotaWindows | payments | usageDaily
  deriving DecidableEq

/-- The tables a transaction may write. -/
def Txn.writes : Txn → List TableName
  | .authorizeDemo _ => [.rateLimitWindows]
  | .authorize _ => [.rateLimitWindows, .quotaWindows, .users]
  | .describe _ => []
  | .recordUsage _ => [.apiKeys, .usageDaily]
  | .prune => [.rateLimitWindows, .quotaWindows, .playgroundTokens]
  | .insertKey _ => [.apiKeys]
  | .rename _ _ _ => [.apiKeys]
  | .revoke _ _ => [.apiKeys, .playgroundTokens]
  | .replaceSecret _ => [.apiKeys, .playgroundTokens]
  | .insertPlaygroundToken _ => [.playgroundTokens]
  | .revokeKey _ => [.apiKeys, .playgroundTokens]
  | .lockUser _ => [.users, .apiKeys, .playgroundTokens]
  | .enableUser _ => [.users]
  | .upsertSystemUser => [.users]
  | .upsertKey _ => [.apiKeys]
  | .activateFreeTier _ => [.users]
  | .recordPending _ _ _ => [.payments]
  | .settle _ => [.payments, .users]
  | .signUp _ => [.users]
  | .signIn _ _ => []
  | .invalidateSessions _ => []

/-- Every table outside `written` is as it was. -/
structure Frame (written : List TableName) (db db' : Db) : Prop where
  users : .users ∉ written → db'.users = db.users
  apiKeys : .apiKeys ∉ written → db'.apiKeys = db.apiKeys
  playgroundTokens : .playgroundTokens ∉ written → db'.playgroundTokens = db.playgroundTokens
  rateLimitWindows : .rateLimitWindows ∉ written → db'.rateLimitWindows = db.rateLimitWindows
  quotaWindows : .quotaWindows ∉ written → db'.quotaWindows = db.quotaWindows
  payments : .payments ∉ written → db'.payments = db.payments
  usageDaily : .usageDaily ∉ written → db'.usageDaily = db.usageDaily

theorem Frame.refl (written : List TableName) (db : Db) : Frame written db db :=
  ⟨fun _ => rfl, fun _ => rfl, fun _ => rfl, fun _ => rfl, fun _ => rfl, fun _ => rfl, fun _ => rfl⟩

theorem frame_commit {α : Type} {written : List TableName} {db : Db} {answer : α → Answer}
    {r : Except TxError (α × Db)} (h : ∀ a db', r = .ok (a, db') → Frame written db db') :
    Frame written db (commit db answer r).2 :=
  commit_induction (Frame.refl _ _) h

theorem authorize_frame {env : ProcessEnv} {now : ℕ} {args : AuthorizeArgs} {db db' : Db}
    {reply : AuthorizeReply} (h : authorize env now args db = .ok (reply, db')) :
    Frame [.rateLimitWindows, .quotaWindows, .users] db db' := by
  cases authorize_ok h <;> constructor <;> simp

theorem settle_frame {now : ℕ} {args : SettleArgs} {db db' : Db} {granted : Bool}
    (h : settle now args db = .ok (granted, db')) : Frame [.payments, .users] db db' := by
  cases settle_ok h <;> constructor <;> simp

theorem run_frame (env : ProcessEnv) (db : Db) (c : Call) :
    Frame c.txn.writes db (c.run env db).2 := by
  obtain ⟨now, txn⟩ := c
  cases txn with
  | authorizeDemo args =>
    refine frame_commit fun a db' h => ?_
    obtain ⟨secret, states, windows, audit, -, -, -, rfl⟩ := authorizeDemo_ok h
    constructor <;> simp [Txn.writes]
  | authorize args => exact frame_commit fun a db' h => authorize_frame h
  | describe hash =>
    simp only [Call.run]
    split <;> exact Frame.refl _ _
  | recordUsage entries =>
    refine frame_commit fun a db' h => ?_
    obtain ⟨apiRequests, usageDaily, keys, lastUsed, rfl⟩ := recordUsage_ok h
    constructor <;> simp [Txn.writes]
  | prune => constructor <;> simp [Txn.writes, Call.run, prune]
  | insertKey args =>
    refine frame_commit fun a db' h => ?_
    obtain ⟨-, -, rfl⟩ := insertKey_ok h
    constructor <;> simp [Txn.writes, writeAudit]
  | rename caller keyId name =>
    refine frame_commit fun a db' h => ?_
    obtain ⟨cleaned, rfl⟩ := rename_ok h
    constructor <;> simp [Txn.writes]
  | revoke caller keyId =>
    refine frame_commit fun a db' h => ?_
    obtain ⟨userId, key, -, -, rfl⟩ := revoke_ok h
    constructor <;> simp [Txn.writes, writeAudit, deletePlaygroundTokens]
  | replaceSecret args =>
    refine frame_commit fun a db' h => ?_
    obtain ⟨-, rfl⟩ := replaceSecret_ok h
    constructor <;> simp [Txn.writes, writeAudit, deletePlaygroundTokens]
  | insertPlaygroundToken args =>
    refine frame_commit fun a db' h => ?_
    obtain rfl := insertPlaygroundToken_ok h
    constructor <;> simp [Txn.writes]
  | revokeKey keyId =>
    refine frame_commit fun a db' h => ?_
    obtain ⟨key, -, rfl⟩ := revokeKey_ok h
    constructor <;> simp [Txn.writes, writeAudit, deletePlaygroundTokens]
  | lockUser userId =>
    refine frame_commit fun a db' h => ?_
    obtain ⟨-, rfl⟩ := lockUser_ok h
    constructor <;> simp [Txn.writes, writeAudit]
  | enableUser email =>
    refine frame_commit fun a db' h => ?_
    obtain rfl := enableUser_ok h
    constructor <;> simp [Txn.writes, writeAudit]
  | upsertSystemUser =>
    refine frame_commit fun a db' h => ?_
    rcases upsertSystemUser_ok h with rfl | rfl
    · exact Frame.refl _ _
    · constructor <;> simp [Txn.writes]
  | upsertKey args =>
    refine frame_commit fun a db' h => ?_
    rcases upsertKey_ok h with ⟨-, rfl⟩ | rfl
    all_goals constructor <;> simp [Txn.writes]
  | activateFreeTier caller =>
    refine frame_commit fun a db' h => ?_
    rcases activateFreeTier_ok h with rfl | ⟨userId, user, -, -, rfl⟩
    · exact Frame.refl _ _
    · constructor <;> simp [Txn.writes]
  | recordPending userId plan paymentIntentId =>
    refine frame_commit fun a db' h => ?_
    rcases recordPending_ok h with ⟨row, -, -, -, -, rfl⟩ | ⟨-, -, rfl⟩
    · exact Frame.refl _ _
    · constructor <;> simp [Txn.writes]
  | settle args => exact frame_commit fun a db' h => settle_frame h
  | signUp email => constructor <;> simp [Txn.writes, Call.run, signUp]
  | signIn userId expirationTime => constructor <;> simp [Txn.writes, Call.run, signIn]
  | invalidateSessions userId =>
    constructor <;> simp [Txn.writes, Call.run, invalidateSessions]

/-! ### A small deployment, for the concrete runs -/

/-- One account on the free tier with one key. -/
def freeAccount : Db where
  users := Table.empty.insert { freeTierActivatedAt := some 0, freeRequestsUsed := some 0 }
  apiKeys := Table.empty.insert { userId := 0, keyHash := "free-key" }

/-- A geocoding request with the key of `freeAccount`. -/
def freeRequest : AuthorizeArgs where
  kind := .key
  hash := "free-key"
  endpoint := some "geocode"
  defaultLimit := some 100

end GeoPlatform.Convex
