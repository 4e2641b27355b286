import GeoPlatform.Convex.TenantPayments

/-! Tenants are isolated on the dashboard surface: the queries of a user show the user's own rows
only, and a step that runs for one user touches nobody else's, in whatever order the actions of the
dashboard and of the payments go on. -/
namespace GeoPlatform.Convex
open Docs

variable {env : ProcessEnv} {A B : ℕ}

/-! ### The key actions -/

/-- The user an action runs for. -/
def Thread.userId : Thread → ℕ
  | .insertKey args => args.userId
  | .ownedKeyForRotation userId _ => userId
  | .replaceSecret args => args.userId
  | .ownedKeyForPlayground userId _ => userId
  | .insertPlaygroundToken args => args.userId

/-- The event is a step of `apiKeys.ts` that runs for `A`. -/
inductive Dashboard.RunBy (s : Dashboard) (A : ℕ) : DashboardEvent → Prop
  | rename (now : ℕ) (caller : Caller) (keyId : ℕ) (name : String)
      (hin : SignedIn s.db now caller A) : RunBy s A (.call ⟨now, .rename caller keyId name⟩)
  | revoke (now : ℕ) (caller : Caller) (keyId : ℕ) (hin : SignedIn s.db now caller A) :
      RunBy s A (.call ⟨now, .revoke caller keyId⟩)
  | create (now : ℕ) (caller : Caller) (name : String) (endpoints : Option (List ApiEndpoint))
      (expiresAt : Option (Option ℚ)) (secret : Secret) (hin : SignedIn s.db now caller A) :
      RunBy s A (.create now caller name endpoints expiresAt secret)
  | regenerate (now : ℕ) (caller : Caller) (keyId : ℕ) (hin : SignedIn s.db now caller A) :
      RunBy s A (.regenerate now caller keyId)
  | createPlaygroundToken (now : ℕ) (caller : Caller) (keyId : ℕ)
      (hin : SignedIn s.db now caller A) : RunBy s A (.createPlaygroundToken now caller keyId)
  | resume (now i : ℕ) (secret : Secret) (t : Thread) (hthread : s.threads[i]? = some t)
      (huser : t.userId = A) : RunBy s A (.resume now i secret)

/-- A token about to be issued is one for a key of its user. -/
def IssuesOwned (s : Dashboard) : Prop :=
  ∀ args, Thread.insertPlaygroundToken args ∈ s.threads →
    ∃ key, s.db.apiKeys.get args.apiKeyId = some key ∧ key.userId = args.userId

theorem resume_issues {db : Db} {now : ℕ} {secret : Secret} {t : Thread} {args : PlaygroundToken}
    (h : t.resume db now secret = .next (.insertPlaygroundToken args)) :
    ∃ key, db.apiKeys.get args.apiKeyId = some key ∧ key.userId = args.userId := by
  cases t with
  | insertKey args => cases h
  | ownedKeyForRotation userId keyId =>
    simp only [Thread.resume] at h
    split at h <;> cases h
  | replaceSecret args => cases h
  | ownedKeyForPlayground userId keyId =>
    simp only [Thread.resume] at h
    split at h
    · cases h
    · rename_i key hkey
      split_ifs at h
      cases h
      exact ⟨key, ownedKey_eq_some.mp hkey⟩
  | insertPlaygroundToken args => cases h

/-- A token about to be issued was so before, or its key has just been checked. -/
theorem issue_step {s : Dashboard} {e : DashboardEvent} {args : PlaygroundToken}
    (h : Thread.insertPlaygroundToken args ∈ (s.step env e).2.threads) :
    Thread.insertPlaygroundToken args ∈ s.threads ∨
      ∃ key, s.db.apiKeys.get args.apiKeyId = some key ∧ key.userId = args.userId := by
  have hstart : ∀ (α : Type) (f : α → Thread) (r : Except TxError α),
      (∀ a, f a ≠ .insertPlaygroundToken args) →
        Thread.insertPlaygroundToken args ∈ (s.start (f <$> r)).2.threads →
          Thread.insertPlaygroundToken args ∈ s.threads := by
    intro α f r hf hmem
    cases r with
    | error e => exact hmem
    | ok a =>
      rcases List.mem_append.mp hmem with hmem | hmem
      · exact hmem
      · exact absurd (List.mem_singleton.mp hmem).symm (hf a)
  cases e with
  | call c =>
    simp only [Dashboard.step] at h
    split_ifs at h <;> exact Or.inl h
  | create => exact Or.inl (hstart _ Thread.insertKey _ (fun _ ht => by cases ht) h)
  | regenerate now caller keyId =>
    exact Or.inl (hstart _ (Thread.ownedKeyForRotation · keyId) _ (fun _ ht => by cases ht) h)
  | createPlaygroundToken now caller keyId =>
    exact Or.inl (hstart _ (Thread.ownedKeyForPlayground · keyId) _ (fun _ ht => by cases ht) h)
  | resume now i secret =>
    simp only [Dashboard.step] at h
    split at h
    · exact Or.inl h
    · split at h
      · exact Or.inl (List.mem_of_mem_eraseIdx h)
      · rename_i t' ht'
        rcases List.mem_or_eq_of_mem_set h with h | h
        · exact Or.inl h
        · rw [← h] at ht'
          exact Or.inr (resume_issues ht')
      · exact Or.inl (List.mem_of_mem_eraseIdx h)

theorem issuesOwned_step {s : Dashboard} (h : IssuesOwned s) (e : DashboardEvent) :
    IssuesOwned (s.step env e).2 := by
  intro args hargs
  have hbefore : ∃ key, s.db.apiKeys.get args.apiKeyId = some key ∧ key.userId = args.userId := by
    rcases issue_step hargs with hold | hchecked
    · exact h args hold
    · exact hchecked
  apply @step_induction env (fun db => ∃ key, db.apiKeys.get args.apiKeyId = some key ∧
    key.userId = args.userId)
  · exact hbefore
  · rintro c ⟨key, hget, howner⟩
    obtain ⟨key', hget', hrewrite⟩ := (run_apiKeys env s.db c).get_some hget
    exact ⟨key', hget', hrewrite.kept.userId.trans howner⟩

theorem issuesOwned_final (db : Db) (es : List DashboardEvent) :
    IssuesOwned (Runs.final (Dashboard.step env) ⟨db, []⟩ es) := by
  apply Runs.final_induction (Dashboard.step env) (P := IssuesOwned)
  · intro args hargs
    cases hargs
  · exact fun s e h => issuesOwned_step h e

/-- What an action runs, it runs for its user. -/
theorem thread_untouched {s : Dashboard} (hs : IssuesOwned s) {t : Thread} (ht : t ∈ s.threads)
    {now : ℕ} {secret : Secret} {txn : Txn} (hrun : t.resume s.db now secret = .run txn)
    (hB : B ≠ t.userId) : Untouched B s.db (Call.run env s.db ⟨now, txn⟩).2 := by
  cases t with
  | insertKey args =>
    cases hrun
    exact untouched_commit fun _ _ h => insertKey_untouched hB rfl h
  | ownedKeyForRotation userId keyId =>
    simp only [Thread.resume] at hrun
    split at hrun <;> cases hrun
  | replaceSecret args =>
    cases hrun
    exact untouched_commit fun _ _ h => replaceSecret_untouched hB rfl h
  | ownedKeyForPlayground userId keyId =>
    simp only [Thread.resume] at hrun
    split at hrun
    · cases hrun
    · split_ifs at hrun
  | insertPlaygroundToken args =>
    cases hrun
    obtain ⟨key, hget, howner⟩ := hs args ht
    exact untouched_commit fun _ _ h => insertPlaygroundToken_untouched hB hget howner h

theorem dashboard_untouched {s : Dashboard} (hs : IssuesOwned s) {e : DashboardEvent}
    (h : s.RunBy A e) (hB : B ≠ A) : Untouched B s.db (s.step env e).2.db := by
  cases h with
  | rename now caller keyId name hin =>
    exact untouched_commit fun _ _ h => rename_untouched hB hin h
  | revoke now caller keyId hin => exact untouched_commit fun _ _ h => revoke_untouched hB hin h
  | create now caller name endpoints expiresAt secret =>
    simp only [Dashboard.step, start_db]
    exact Untouched.refl B s.db
  | regenerate now caller keyId =>
    simp only [Dashboard.step, start_db]
    exact Untouched.refl B s.db
  | createPlaygroundToken now caller keyId =>
    simp only [Dashboard.step, start_db]
    exact Untouched.refl B s.db
  | resume now i secret t hthread huser =>
    simp only [Dashboard.step, hthread]
    cases hresume : t.resume s.db now secret with
    | throw e => exact Untouched.refl B s.db
    | next t' => exact Untouched.refl B s.db
    | run txn =>
      subst huser
      exact thread_untouched hs (List.mem_of_getElem? hthread) hresume hB

/-! ### Isolation -/

/-- Tenants are isolated on the dashboard surface. Between two snapshots whose request rows are of
keys of their users, as in every run they stay, and which agree on what a signed-in user owns, no
query of that user tells a difference. And in every run, whatever else goes on, a step of an action
or mutation that runs for a user leaves the rows of every other user alone. -/
theorem tenants_isolated (env : ProcessEnv) :
    (∀ (p : Paginator) (s s' : Snapshot) (now A : ℕ) (caller : Caller),
      RequestsOwned s.db → RequestsOwned s'.db →
      SignedIn s.db now caller A → SignedIn s'.db now caller A →
      ownedRows s now A = ownedRows s' now A →
        ∀ q : Query, q.run p s now caller = q.run p s' now caller) ∧
    (∀ db, RequestsOwned db → ∀ cs, RequestsOwned (Runs.final (Call.run env) db cs)) ∧
    (∀ db es, let s := Runs.final (Dashboard.step env) ⟨db, []⟩ es
      ∀ A B e, s.RunBy A e → B ≠ A → Untouched B s.db (s.step env e).2.db) ∧
    (∀ db es, let s := Runs.final (TenantPayments.step env) ⟨db, []⟩ es
      s.forget = Runs.final (PaymentSystem.step env) ⟨db, []⟩ es ∧
        ∀ A B e, s.RunBy A e → B ≠ A → Untouched B s.db (s.step env e).2.db) := by
  refine ⟨?_, ?_, ?_, ?_⟩
  · intro p s s' now A caller howned howned' hin hin' hsame q
    exact same_query hsame hin hin' howned howned' q
  · exact fun db howned cs => requestsOwned_final howned cs
  · intro db es s A B e hrun hB
    exact dashboard_untouched (issuesOwned_final db es) hrun hB
  · intro db es s
    refine ⟨TenantPayments.forget_final ⟨db, []⟩ es, ?_⟩
    intro A B e hrun hB
    exact payments_untouched (actionsOwned_final db es) hrun hB

/-- The whole range as one page. -/
def onePage : Paginator where
  paginate _ rows _ := .ok { page := rows, isDone := true, continueCursor := "end" }
  mem_of_page h r hr := by
    cases h
    exact hr

def firstDeveloper : Caller := ⟨some 0, some 0⟩

/-- Two developers with a key each, the first signed in with one request, made with the key
`keyId`; the second's key has that name. -/
def twoDevelopers (keyId : ℕ) (name : String) : Snapshot where
  db :=
    { users := (Table.empty.insert {}).insert {}
      authSessions := Table.empty.insert ⟨0, 1000000⟩
      apiKeys := (Table.empty.insert { userId := 0, name := "Server", keyHash := "first" }).insert
        { userId := 1, name, keyHash := "second" }
      apiRequests := Table.empty.insert ⟨keyId, 0, "/v1/geocode", "GET", 200, 12, 500⟩ }

theorem twoDevelopers_owned (name : String) : RequestsOwned (twoDevelopers 0 name).db := by
  intro d hd
  rw [List.mem_singleton.mp hd]
  exact ⟨_, rfl, rfl⟩

def lastRequests : Query := .recent { numItems := .finite 10, cursor := none } none

theorem tenants_isolated_twoDevelopers :
    lastRequests.run onePage (twoDevelopers 0 "Payroll") 1000 firstDeveloper =
      lastRequests.run onePage (twoDevelopers 0 "Search") 1000 firstDeveloper :=
  (tenants_isolated testEnv).1 onePage _ _ 1000 0 firstDeveloper (twoDevelopers_owned _)
    (twoDevelopers_owned _) (by decide) (by decide) (by decide +kernel) lastRequests

/-- A request row of one user under a key of another shows that key's name. -/
theorem stray_request_shows_key :
    ¬ ∀ (p : Paginator) (s s' : Snapshot) (now A : ℕ) (caller : Caller),
      SignedIn s.db now caller A → SignedIn s'.db now caller A →
      ownedRows s now A = ownedRows s' now A →
        ∀ q : Query, q.run p s now caller = q.run p s' now caller := by
  intro h
  have hsame := h onePage (twoDevelopers 1 "Payroll") (twoDevelopers 1 "Search") 1000 0
    firstDeveloper (by decide) (by decide) (by decide +kernel) lastRequests
  revert hsame
  decide +kernel

end GeoPlatform.Convex
