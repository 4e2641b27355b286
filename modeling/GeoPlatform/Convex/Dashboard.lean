import GeoPlatform.Convex.KeyTable

/-! The dashboard's key actions (`apiKeys.ts`) as threads. An action checks its caller in one
transaction and writes in a later one; between the two any other transaction may commit. The
internal mutations run inside their actions only. -/
namespace GeoPlatform.Convex
open Docs

/-- An in-flight action, named by the transaction it runs next. -/
inductive Thread where
  | insertKey (args : InsertKeyArgs)
  | ownedKeyForRotation (userId keyId : ℕ)
  | replaceSecret (args : ReplaceSecretArgs)
  | ownedKeyForPlayground (userId keyId : ℕ)
  | insertPlaygroundToken (args : PlaygroundToken)
  deriving DecidableEq

structure Dashboard where
  db : Db := {}
  threads : List Thread := []

/-- A secret drawn by an action: what it shows of it and the hash it stores. -/
structure Secret where
  keyPrefix : String
  keyHash : String
  deriving DecidableEq

inductive DashboardEvent where
  | call (c : Call)
  | create (now : ℕ) (caller : Caller) (name : String) (endpoints : Option (List ApiEndpoint))
      (expiresAt : Option (Option ℚ)) (secret : Secret)
  | regenerate (now : ℕ) (caller : Caller) (keyId : ℕ)
  | createPlaygroundToken (now : ℕ) (caller : Caller) (keyId : ℕ)
  /-- The `i`-th action in flight goes on; `secret` is what it draws, should it draw one. -/
  | resume (now i : ℕ) (secret : Secret)

/-- The first part of `create`, up to its mutation. -/
def createArgs (db : Db) (now : ℕ) (caller : Caller) (name : String)
    (endpoints : Option (List ApiEndpoint)) (expiresAt : Option (Option ℚ)) (secret : Secret) :
    Except TxError InsertKeyArgs := do
  let userId ← requireUserId db now caller
  let name ← cleanKeyName name
  let endpoints ← cleanEndpoints (endpoints.getD API_ENDPOINTS)
  let expiresAt ← cleanExpiresAt expiresAt now
  return { userId, name, keyPrefix := secret.keyPrefix, keyHash := secret.keyHash, endpoints,
           expiresAt }

/-- What an action does when it goes on. -/
inductive Resumed where
  | throw (e : TxError)
  | next (t : Thread)
  | run (txn : Txn)

def Thread.resume (db : Db) (now : ℕ) (secret : Secret) : Thread → Resumed
  | .insertKey args => .run (.insertKey args)
  | .ownedKeyForRotation userId keyId =>
      match ownedKey db keyId userId with
      | none => .throw (.convex "API key not found.")
      | some _ => .next (.replaceSecret ⟨keyId, userId, secret.keyPrefix, secret.keyHash⟩)
  | .replaceSecret args => .run (.replaceSecret args)
  | .ownedKeyForPlayground userId keyId =>
      match ownedKey db keyId userId with
      | none => .throw (.convex "API key not found.")
      | some key =>
          if key.revokedAt.isSome then
            .throw (.convex "A revoked key cannot be used in the playground.")
          else if key.expiresAt.any (· ≤ now) then
            .throw (.convex "An expired key cannot be used in the playground.")
          else .next (.insertPlaygroundToken
            ⟨secret.keyHash, keyId, userId, now + PLAYGROUND_TOKEN_TTL_MS⟩)
  | .insertPlaygroundToken args => .run (.insertPlaygroundToken args)

def Txn.isInternal : Txn → Bool
  | .insertKey _ => true
  | .replaceSecret _ => true
  | .insertPlaygroundToken _ => true
  | _ => false

def Dashboard.start (s : Dashboard) : Except TxError Thread → Answer × Dashboard
  | .ok t => (.done, { s with threads := s.threads ++ [t] })
  | .error e => (.threw e, s)

def Dashboard.step (env : ProcessEnv) (s : Dashboard) : DashboardEvent → Answer × Dashboard
  | .call c =>
      if c.txn.isInternal then (.done, s)
      else ((c.run env s.db).1, { s with db := (c.run env s.db).2 })
  | .create now caller name endpoints expiresAt secret =>
      s.start (Thread.insertKey <$> createArgs s.db now caller name endpoints expiresAt secret)
  | .regenerate now caller keyId =>
      s.start ((Thread.ownedKeyForRotation · keyId) <$> requireUserId s.db now caller)
  | .createPlaygroundToken now caller keyId =>
      s.start ((Thread.ownedKeyForPlayground · keyId) <$> requireUserId s.db now caller)
  | .resume now i secret =>
      match s.threads[i]? with
      | none => (.done, s)
      | some t =>
          match t.resume s.db now secret with
          | .throw e => (.threw e, { s with threads := s.threads.eraseIdx i })
          | .next t' => (.done, { s with threads := s.threads.set i t' })
          | .run txn =>
              ((Call.run env s.db ⟨now, txn⟩).1,
                { db := (Call.run env s.db ⟨now, txn⟩).2, threads := s.threads.eraseIdx i })

/-- The transaction an event commits, if any. -/
def Dashboard.committed (s : Dashboard) : DashboardEvent → Option Call
  | .call c => if c.txn.isInternal then none else some c
  | .resume now i secret =>
      match s.threads[i]? with
      | none => none
      | some t =>
          match t.resume s.db now secret with
          | .run txn => some ⟨now, txn⟩
          | _ => none
  | _ => none

variable {env : ProcessEnv}

/-- An action that runs a mutation runs the one it is named by. -/
theorem resume_runs {db : Db} {now : ℕ} {secret : Secret} {t : Thread} {txn : Txn}
    (h : t.resume db now secret = .run txn) :
    (∃ args, t = .insertKey args ∧ txn = .insertKey args) ∨
      (∃ args, t = .replaceSecret args ∧ txn = .replaceSecret args) ∨
        ∃ args, t = .insertPlaygroundToken args ∧ txn = .insertPlaygroundToken args := by
  cases t with
  | insertKey args =>
    cases h
    exact Or.inl ⟨args, rfl, rfl⟩
  | ownedKeyForRotation userId keyId =>
    simp only [Thread.resume] at h
    split at h <;> cases h
  | replaceSecret args =>
    cases h
    exact Or.inr (Or.inl ⟨args, rfl, rfl⟩)
  | ownedKeyForPlayground userId keyId =>
    simp only [Thread.resume] at h
    split at h
    · cases h
    · split_ifs at h
  | insertPlaygroundToken args =>
    cases h
    exact Or.inr (Or.inr ⟨args, rfl, rfl⟩)

theorem start_db (s : Dashboard) (r : Except TxError Thread) : (s.start r).2.db = s.db := by
  cases r <;> rfl

/-- An event of the dashboard is at most one transaction on the database. -/
theorem step_db (s : Dashboard) (e : DashboardEvent) :
    (s.committed e = none ∧ (s.step env e).2.db = s.db) ∨
      ∃ c, s.committed e = some c ∧ (s.step env e).2.db = (c.run env s.db).2 := by
  cases e with
  | call c =>
    simp only [Dashboard.committed, Dashboard.step]
    split_ifs
    · exact Or.inl ⟨rfl, rfl⟩
    · exact Or.inr ⟨c, rfl, rfl⟩
  | create => exact Or.inl ⟨rfl, start_db _ _⟩
  | regenerate => exact Or.inl ⟨rfl, start_db _ _⟩
  | createPlaygroundToken => exact Or.inl ⟨rfl, start_db _ _⟩
  | resume now i secret =>
    simp only [Dashboard.committed, Dashboard.step]
    cases s.threads[i]? with
    | none => exact Or.inl ⟨rfl, rfl⟩
    | some t =>
      cases ht : t.resume s.db now secret with
      | throw e => exact Or.inl ⟨by simp only [ht], by simp only [ht]⟩
      | next t' => exact Or.inl ⟨by simp only [ht], by simp only [ht]⟩
      | run txn => exact Or.inr ⟨⟨now, txn⟩, by simp only [ht], by simp only [ht]⟩

/-- What every transaction keeps, every event of the dashboard keeps. -/
theorem step_induction {P : Db → Prop} {s : Dashboard} {e : DashboardEvent}
    (h : P s.db) (hrun : ∀ c : Call, P s.db → P (c.run env s.db).2) : P (s.step env e).2.db := by
  rcases @step_db env s e with ⟨-, hdb⟩ | ⟨c, -, hdb⟩
  · rw [hdb]
    exact h
  · rw [hdb]
    exact hrun c h

end GeoPlatform.Convex
