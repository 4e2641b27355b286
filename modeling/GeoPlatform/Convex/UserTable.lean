import GeoPlatform.Convex.Backend

/-! What a transaction does to the users table: at most one new account, unlocked and without a
plan, and every account rewritten in place. `lockUser` alone locks, `settle` alone sells. -/
namespace GeoPlatform.Convex
open Docs

/-- How a transaction rewrites an account. -/
structure UserRewrite (c : Call) (u u' : User) : Prop where
  disabledAt : u'.disabledAt.isSome → u.disabledAt.isSome ∨ ∃ i, c.txn = .lockUser i
  plan : (u'.plan = u.plan ∧ u'.planExpiresAt = u.planExpiresAt) ∨ ∃ args, c.txn = .settle args

theorem UserRewrite.refl (c : Call) (u : User) : UserRewrite c u u := ⟨Or.inl, Or.inl ⟨rfl, rfl⟩⟩

structure NewUser (u : User) : Prop where
  disabledAt : u.disabledAt = none
  plan : u.plan = none
  planExpiresAt : u.planExpiresAt = none

/-- The users table after a transaction. -/
def UsersAfter (c : Call) (users users' : Table User) : Prop :=
  ∃ base f, (base = users ∨ ∃ u, NewUser u ∧ base = users.insert u) ∧
    Table.Rewritten f base users' ∧ ∀ i u, UserRewrite c u (f i u)

theorem usersAfter_same (c : Call) (users : Table User) : UsersAfter c users users :=
  ⟨users, _, Or.inl rfl, Table.Rewritten.refl users, fun _ u => UserRewrite.refl c u⟩

theorem usersAfter_insert (c : Call) (users : Table User) {u : User} (h : NewUser u) :
    UsersAfter c users (users.insert u) :=
  ⟨_, _, Or.inr ⟨u, h, rfl⟩, Table.Rewritten.refl _, fun _ u => UserRewrite.refl c u⟩

theorem usersAfter_patch {c : Call} (users : Table User) (i : ℕ) {g : User → User}
    (h : ∀ u, UserRewrite c u (g u)) : UsersAfter c users (users.patch i g) := by
  refine ⟨users, _, Or.inl rfl, Table.Rewritten.patch users i g, fun j u => ?_⟩
  split_ifs
  · exact h u
  · exact UserRewrite.refl c u

/-- Every transaction leaves the users table so. -/
theorem run_users (env : ProcessEnv) (db : Db) (c : Call) :
    UsersAfter c db.users (c.run env db).2.users := by
  by_cases hw : TableName.users ∈ c.txn.writes
  · obtain ⟨now, txn⟩ := c
    let after : Db → Prop := fun db' => UsersAfter ⟨now, txn⟩ db.users db'.users
    have hsame : after db := usersAfter_same _ db.users
    cases txn <;> simp only [Txn.writes, List.mem_cons, List.mem_nil_iff, reduceCtorEq, or_self,
      or_false] at hw
    case authorize args =>
      apply @commit_induction _ after _ _ _ hsame
      intro reply db' h
      cases authorize_ok h with
      | refused => exact hsame
      | rateLimited => exact hsame
      | quotaExceeded => exact hsame
      | site => exact hsame
      | customer a =>
        show UsersAfter _ db.users (countFree db.users a)
        unfold countFree
        split_ifs
        · apply usersAfter_patch
          exact fun u => ⟨Or.inl, Or.inl ⟨rfl, rfl⟩⟩
        · exact hsame
    case lockUser userId =>
      apply @commit_induction _ after _ _ _ hsame
      intro n db' h
      obtain ⟨-, rfl⟩ := lockUser_ok h
      apply usersAfter_patch
      exact fun u => ⟨fun _ => Or.inr ⟨userId, rfl⟩, Or.inl ⟨rfl, rfl⟩⟩
    case enableUser email =>
      apply @commit_induction _ after _ _ _ hsame
      intro userId db' h
      obtain rfl := enableUser_ok h
      apply usersAfter_patch
      refine fun u => ⟨fun hlocked => ?_, Or.inl ⟨rfl, rfl⟩⟩
      cases hlocked
    case upsertSystemUser =>
      apply @commit_induction _ after _ _ _ hsame
      intro userId db' h
      rcases upsertSystemUser_ok h with rfl | rfl
      · exact hsame
      · exact usersAfter_insert _ _ ⟨rfl, rfl, rfl⟩
    case activateFreeTier caller =>
      apply @commit_induction _ after _ _ _ hsame
      intro u db' h
      rcases activateFreeTier_ok h with rfl | ⟨userId, user, -, -, rfl⟩
      · exact hsame
      · apply usersAfter_patch
        exact fun u => ⟨Or.inl, Or.inl ⟨rfl, rfl⟩⟩
    case settle args =>
      apply @commit_induction _ after _ _ _ hsame
      intro granted db' h
      cases settle_ok h with
      | unchanged => exact hsame
      | failed => exact hsame
      | succeeded =>
        apply usersAfter_patch
        exact fun u => ⟨Or.inl, Or.inr ⟨args, rfl⟩⟩
    case signUp email => exact usersAfter_insert _ _ ⟨rfl, rfl, rfl⟩
  · rw [(run_frame env db c).users hw]
    exact usersAfter_same c db.users

/-- An account after a transaction was there before, or is the one it added. -/
theorem UsersAfter.of_get {c : Call} {users users' : Table User} (h : UsersAfter c users users')
    {i : ℕ} {u' : User} (hu : users'.get i = some u') :
    (∃ u, users.get i = some u ∧ UserRewrite c u u') ∨
      ∃ u, i = users.nextId ∧ NewUser u ∧ UserRewrite c u u' := by
  obtain ⟨base, f, hbase, hf, hrewrite⟩ := h
  rw [hf.get, Option.map_eq_some_iff] at hu
  obtain ⟨u, hu, rfl⟩ := hu
  rcases hbase with rfl | ⟨new, hnew, rfl⟩
  · exact Or.inl ⟨u, hu, hrewrite i u⟩
  · by_cases hi : i = users.nextId
    · rw [hi, Table.get_insert_self] at hu
      cases hu
      exact Or.inr ⟨u, hi, hnew, hrewrite i u⟩
    · rw [Table.get_insert_of_ne _ hi] at hu
      exact Or.inl ⟨u, hu, hrewrite i u⟩

/-- An account that exists stays, rewritten. -/
theorem UsersAfter.get_some {c : Call} {users users' : Table User} (h : UsersAfter c users users')
    {i : ℕ} {u : User} (hu : users.get i = some u) :
    ∃ u', users'.get i = some u' ∧ UserRewrite c u u' := by
  obtain ⟨base, f, hbase, hf, hrewrite⟩ := h
  have hget : base.get i = some u := by
    rcases hbase with rfl | ⟨new, -, rfl⟩
    · exact hu
    · exact Table.get_insert_of_some hu
  exact ⟨f i u, by rw [hf.get, hget]; rfl, hrewrite i u⟩

end GeoPlatform.Convex
