import GeoPlatform.Convex.Counters

/-! Calls of `authorize` that were answered ok, and what they did to the counters, the quota
windows and the free allowance. -/
namespace GeoPlatform.Convex
open Docs

/-- The request and its admission, when the call is an `authorize` answered ok. -/
def okCall (env : ProcessEnv) (db : Db) (c : Call) : Option (AuthorizeArgs × Admission) :=
  match c.txn with
  | .authorize args =>
      match authorize env c.now args db, admission db c.now args with
      | .ok (reply, _), .ok a => if reply.status = .ok then some (args, a) else none
      | _, _ => none
  | _ => none

variable {env : ProcessEnv}

/-- What an `authorize` answered ok was, and how it answered. -/
theorem okCall_eq_some {db : Db} {c : Call} {args : AuthorizeArgs} {a : Admission}
    (h : okCall env db c = some (args, a)) :
    c.txn = .authorize args ∧ admission db c.now args = .ok a ∧
      ∃ reply, c.run env db = (.authorized reply, (c.run env db).2) ∧ reply.status = .ok ∧
        authorize env c.now args db = .ok (reply, (c.run env db).2) := by
  obtain ⟨now, txn⟩ := c
  unfold okCall at h
  split at h
  · rename_i args' htxn
    split at h
    · rename_i reply db' a' hok ha
      split_ifs at h with hstatus
      simp only [Option.some.injEq, Prod.mk.injEq] at h
      obtain ⟨rfl, rfl⟩ := h
      obtain rfl : txn = .authorize args' := htxn
      have hrun : Call.run env db ⟨now, .authorize args'⟩ = (.authorized reply, db') := by
        rw [run_authorize, hok]
        rfl
      exact ⟨rfl, ha, reply, by rw [hrun], hstatus, by rw [hrun]; exact hok⟩
    · cases h
  · cases h

/-- An `authorize` answered ok was charged to its buckets, and either used the site key or passed
the quotas as a customer. -/
theorem okCall_outcome {db : Db} {c : Call} {args : AuthorizeArgs} {a : Admission}
    (h : okCall env db c = some (args, a)) :
    Charged env c.now args db a (c.run env db).2.rateLimitWindows true ∧
      ((a.isSiteKey = true ∧ (c.run env db).2.quotaWindows = db.quotaWindows ∧
          (c.run env db).2.users = db.users) ∨
        (a.isSiteKey = false ∧ (c.run env db).2.users = countFree db.users a ∧
          ∃ quota, consumeCustomerQuotas env db.quotaWindows c.now a.key.id a.key.val.userId
            args.endpoint a.plan = .ok (quota, (c.run env db).2.quotaWindows) ∧
            quota.allowed = true)) := by
  obtain ⟨-, ha, reply, -, hstatus, hok⟩ := okCall_eq_some h
  have hsame : ∀ {a' windows allowed}, Charged env c.now args db a' windows allowed → a' = a := by
    intro a' windows allowed hcharged
    exact Except.ok.inj (hcharged.admitted.symm.trans ha)
  generalize (c.run env db).2 = db' at hok
  cases authorize_ok hok with
  | refused reply entry hrefused => exact absurd hstatus hrefused
  | rateLimited a' windows reply entry hcharged hlimited =>
    rw [hlimited] at hstatus
    cases hstatus
  | quotaExceeded a' windows reply entry hcharged hexceeded =>
    rw [hexceeded] at hstatus
    cases hstatus
  | site a' windows reply entry hcharged _ _ hsite =>
    obtain rfl := hsame hcharged
    exact ⟨hcharged, Or.inl ⟨hsite, rfl, rfl⟩⟩
  | customer a' windows quota quotas reply entry hcharged _ _ hsite hquota hallowed =>
    obtain rfl := hsame hcharged
    exact ⟨hcharged, Or.inr ⟨hsite, rfl, quota, hquota, hallowed⟩⟩

/-- An `authorize` answered ok was let through by every bucket it names. -/
theorem okCall_counted {db : Db} {c : Call} {args : AuthorizeArgs} {a : Admission}
    (h : okCall env db c = some (args, a)) :
    ∃ bs, buckets env args a = .ok bs ∧ ∀ b ∈ bs, Counted env db c (hit b.1 b.2) := by
  obtain ⟨hcharged, -⟩ := okCall_outcome h
  obtain ⟨bs, states, hbs, hhits, hall⟩ := hcharged.hits
  exact ⟨bs, hbs, fun b hb => counted_of_hitAll hhits hall (List.mem_map_of_mem hb)⟩

theorem okCall_admitted {db : Db} {c : Call} {args : AuthorizeArgs} {a : Admission}
    (h : okCall env db c = some (args, a)) : Admitted db c.now args a :=
  admission_ok (okCall_eq_some h).2.1

theorem commit_ne_authorized {α : Type} {db : Db} {answer : α → Answer}
    {r : Except TxError (α × Db)} {reply : AuthorizeReply} (h : ∀ a, answer a ≠ .authorized reply) :
    (commit db answer r).1 ≠ .authorized reply := by
  rcases commit_cases db answer r with ⟨e, -, hc⟩ | ⟨a, db', -, hc⟩
  · rw [hc]
    exact nofun
  · rw [hc]
    exact h a

/-- Only `authorize` answers as `authorize` does. -/
theorem txn_of_authorized {db : Db} {c : Call} {reply : AuthorizeReply}
    (h : (c.run env db).1 = .authorized reply) : ∃ args, c.txn = .authorize args := by
  obtain ⟨now, txn⟩ := c
  cases txn with
  | authorize args => exact ⟨args, rfl⟩
  | describe hash =>
    simp only [Call.run] at h
    split at h <;> cases h
  | prune => cases h
  | signUp email => cases h
  | signIn userId expirationTime => cases h
  | invalidateSessions userId => cases h
  | _ => exact absurd h (commit_ne_authorized fun a ha => by cases ha)

theorem okCall_isSome_iff {db : Db} {c : Call} :
    (okCall env db c).isSome ↔
      ∃ reply, (c.run env db).1 = .authorized reply ∧ reply.status = .ok := by
  constructor
  · intro h
    obtain ⟨⟨args, a⟩, hok⟩ := Option.isSome_iff_exists.mp h
    obtain ⟨-, -, reply, hrun, hstatus, -⟩ := okCall_eq_some hok
    exact ⟨reply, by rw [hrun], hstatus⟩
  · rintro ⟨reply, hreply, hstatus⟩
    obtain ⟨args, htxn⟩ := txn_of_authorized hreply
    obtain ⟨now, txn⟩ := c
    obtain rfl : txn = .authorize args := htxn
    rcases commit_cases db .authorized (authorize env now args db) with
      ⟨e, -, hc⟩ | ⟨reply', db', hok, hc⟩
    · rw [run_authorize, hc] at hreply
      cases hreply
    · rw [run_authorize, hc] at hreply
      cases hreply
      obtain ⟨a, ha⟩ : ∃ a, admission db now args = .ok a := by
        cases authorize_ok hok with
        | refused reply entry hrefused => exact absurd hstatus hrefused
        | rateLimited a _ _ _ hcharged => exact ⟨a, hcharged.admitted⟩
        | quotaExceeded a _ _ _ hcharged => exact ⟨a, hcharged.admitted⟩
        | site a _ _ _ hcharged => exact ⟨a, hcharged.admitted⟩
        | customer a _ _ _ _ _ hcharged => exact ⟨a, hcharged.admitted⟩
      simp only [okCall, hok, ha, hstatus, if_true, Option.isSome_some]

/-- A refused or throwing `authorize` changes no quota window and no account. -/
theorem authorize_not_ok {db : Db} {c : Call} {args : AuthorizeArgs}
    (htxn : c.txn = .authorize args) (h : okCall env db c = none) :
    (c.run env db).2.quotaWindows = db.quotaWindows ∧ (c.run env db).2.users = db.users := by
  obtain ⟨now, txn⟩ := c
  obtain rfl : txn = .authorize args := htxn
  have hnot : ∀ reply, (Call.run env db ⟨now, .authorize args⟩).1 = .authorized reply →
      reply.status ≠ .ok := by
    intro reply hreply hstatus
    have hsome := okCall_isSome_iff.mpr ⟨reply, hreply, hstatus⟩
    rw [h] at hsome
    cases hsome
  rcases commit_cases db .authorized (authorize env now args db) with
    ⟨e, -, hc⟩ | ⟨reply, db', hok, hc⟩
  · rw [run_authorize, hc]
    exact ⟨rfl, rfl⟩
  · have hreply := hnot reply (by rw [run_authorize, hc])
    rw [run_authorize, hc]
    cases authorize_ok hok with
    | refused => exact ⟨rfl, rfl⟩
    | rateLimited => exact ⟨rfl, rfl⟩
    | quotaExceeded => exact ⟨rfl, rfl⟩
    | site _ _ _ _ _ hstatus => exact absurd hstatus hreply
    | customer _ _ _ _ _ _ _ hstatus => exact absurd hstatus hreply

end GeoPlatform.Convex
