import GeoPlatform.Convex.Lookups
import GeoPlatform.Convex.Revocation

/-! The system account and the website's key: `ensureSiteKey` (`platform.ts`) in its two
transactions, with any others in between. -/
namespace GeoPlatform.Convex
open Docs

/-! ### The action -/

/-- The database, and the account that each running `ensureSiteKey` registers a key for. -/
structure Deployment where
  db : Db := {}
  owners : List ℕ := []

def SITE_KEY_NAME : String := "Website (public map)"

/-- The arguments of the second transaction; the secret has been hashed. -/
def siteKeyArgs (userId : ℕ) (keyHash keyPrefix : String) : UpsertKeyArgs where
  userId
  name := SITE_KEY_NAME
  keyHash
  keyPrefix
  isSiteKey := true

inductive DeploymentEvent where
  /-- An `ensureSiteKey` starts. -/
  | ensure (now : ℕ)
  | register (now i : ℕ) (keyHash keyPrefix : String)
  /-- Any other transaction. -/
  | call (c : Call)

def Txn.registersSiteKey : Txn → Bool
  | .upsertKey args => args.isSiteKey
  | _ => false

/-- The transaction of an event; no other caller registers a site key. -/
def Deployment.txn (s : Deployment) : DeploymentEvent → Option Call
  | .ensure now => some ⟨now, .upsertSystemUser⟩
  | .register now i keyHash keyPrefix =>
      s.owners[i]?.map fun userId => ⟨now, .upsertKey (siteKeyArgs userId keyHash keyPrefix)⟩
  | .call c => if c.txn.registersSiteKey then none else some c

def Deployment.step (env : ProcessEnv) (s : Deployment) (e : DeploymentEvent) :
    Option Answer × Deployment :=
  match s.txn e with
  | none => (none, s)
  | some c =>
      let (answer, db) := c.run env s.db
      let owners := match e, answer with
        | .ensure _, .id userId => s.owners ++ [userId]
        | _, _ => s.owners
      (some answer, { db, owners })

/-! ### The system account -/

def IsSystem (users : Table User) (i : ℕ) : Prop :=
  ∃ u, users.get i = some u ∧ u.isSystem = true

/-- What a transaction other than `upsertSystemUser` does to the users table. -/
structure SystemKept (users users' : Table User) : Prop where
  kept : ∀ i u, users.get i = some u → ∃ u', users'.get i = some u' ∧ u'.isSystem = u.isSystem ∧
    (u.isSystem = true → u.disabledAt = none → u'.disabledAt = none)
  old : ∀ i, IsSystem users' i → IsSystem users i

theorem SystemKept.refl (users : Table User) : SystemKept users users :=
  ⟨fun _ u hu => ⟨u, hu, rfl, fun _ h => h⟩, fun _ h => h⟩

theorem systemKept_insert (users : Table User) {u : User} (h : u.isSystem = false) :
    SystemKept users (users.insert u) := by
  refine ⟨fun i v hv => ⟨v, Table.get_insert_of_some hv, rfl, fun _ h => h⟩, ?_⟩
  rintro i ⟨v, hv, hsystem⟩
  by_cases hi : i = users.nextId
  · rw [hi, Table.get_insert_self] at hv
    obtain rfl := Option.some.inj hv
    exact absurd hsystem (by simp [h])
  · rw [Table.get_insert_of_ne _ hi] at hv
    exact ⟨v, hv, hsystem⟩

theorem systemKept_patch (users : Table User) (i : ℕ) {g : User → User}
    (h : ∀ u, users.get i = some u → (g u).isSystem = u.isSystem ∧
      (u.isSystem = true → u.disabledAt = none → (g u).disabledAt = none)) :
    SystemKept users (users.patch i g) := by
  constructor
  · intro j u hu
    by_cases hj : j = i
    · subst hj
      exact ⟨g u, by rw [Table.get_patch_self, hu]; rfl, h u hu⟩
    · exact ⟨u, by rw [Table.get_patch_of_ne _ hj, hu], rfl, fun _ h => h⟩
  · rintro j ⟨v, hv, hsystem⟩
    by_cases hj : j = i
    · subst hj
      rw [Table.get_patch_self, Option.map_eq_some_iff] at hv
      obtain ⟨u, hu, rfl⟩ := hv
      exact ⟨u, hu, (h u hu).1 ▸ hsystem⟩
    · exact ⟨v, by rwa [Table.get_patch_of_ne _ hj] at hv, hsystem⟩

/-- No transaction but `upsertSystemUser` makes or locks a system account. -/
theorem systemKept_run (env : ProcessEnv) (db : Db) (c : Call) (hnot : c.txn ≠ .upsertSystemUser) :
    SystemKept db.users (c.run env db).2.users := by
  by_cases hw : TableName.users ∈ c.txn.writes
  · obtain ⟨now, txn⟩ := c
    let after : Db → Prop := fun db' => SystemKept db.users db'.users
    have hsame : after db := SystemKept.refl db.users
    cases txn <;> simp only [Txn.writes, List.mem_cons, List.mem_nil_iff, reduceCtorEq, or_self,
      or_false] at hw
    case authorize args =>
      apply @commit_induction _ after _ _ _ hsame
      intro reply db' h
      cases authorize_ok h with
      | refused => exact hsame
      | rateLimited => exact hsame
      | quotaExceeded => exact hsame
      | site => exact hsame
      | customer a =>
        show SystemKept db.users (countFree db.users a)
        unfold countFree
        split_ifs
        · exact systemKept_patch _ _ fun u _ => ⟨rfl, fun _ h => h⟩
        · exact hsame
    case lockUser userId =>
      apply @commit_induction _ after _ _ _ hsame
      intro n db' h
      obtain ⟨⟨user, huser, hordinary⟩, rfl⟩ := lockUser_ok h
      apply systemKept_patch
      intro u hu
      obtain rfl := Option.some.inj (huser.symm.trans hu)
      refine ⟨rfl, fun hsystem => ?_⟩
      rw [hordinary] at hsystem
      cases hsystem
    case enableUser email =>
      apply @commit_induction _ after _ _ _ hsame
      intro userId db' h
      obtain rfl := enableUser_ok h
      exact systemKept_patch _ _ fun u _ => ⟨rfl, fun _ _ => rfl⟩
    case upsertSystemUser => exact absurd rfl hnot
    case activateFreeTier caller =>
      apply @commit_induction _ after _ _ _ hsame
      intro u db' h
      rcases activateFreeTier_ok h with rfl | ⟨userId, user, -, -, rfl⟩
      · exact hsame
      · exact systemKept_patch _ _ fun u _ => ⟨rfl, fun _ h => h⟩
    case settle args =>
      apply @commit_induction _ after _ _ _ hsame
      intro granted db' h
      cases settle_ok h with
      | unchanged => exact hsame
      | failed => exact hsame
      | succeeded => exact systemKept_patch _ _ fun u _ => ⟨rfl, fun _ h => h⟩
    case signUp email => exact systemKept_insert _ rfl
  · rw [(run_frame env db c).users hw]
    exact SystemKept.refl db.users

/-- `upsertSystemUser` finds the account, or creates it where there is none. -/
theorem upsertSystemUser_run (env : ProcessEnv) (now : ℕ) (db : Db) :
    (∃ e, Call.run env db ⟨now, .upsertSystemUser⟩ = (.threw e, db)) ∨
      (∃ i, IsSystem db.users i ∧ Call.run env db ⟨now, .upsertSystemUser⟩ = (.id i, db)) ∨
      (∀ i, ¬ IsSystem db.users i) ∧ Call.run env db ⟨now, .upsertSystemUser⟩ =
        (.id db.users.nextId, { db with
          users := db.users.insert { email := some SYSTEM_EMAIL, isSystem := true } }) := by
  simp only [Call.run, upsertSystemUser]
  cases hsystem : (db.users.query fun u => u.isSystem).head? with
  | some d =>
    obtain ⟨hmem, hflag⟩ := Table.mem_query.mp (List.mem_of_head? hsystem)
    exact .inr (.inl ⟨d.id, ⟨d.val, Table.get_of_mem hmem, hflag⟩, rfl⟩)
  | none =>
    simp only
    cases himpostor : (db.users.query fun u => u.email = some SYSTEM_EMAIL).head? with
    | some d => exact .inl ⟨_, rfl⟩
    | none =>
      refine .inr (.inr ⟨?_, rfl⟩)
      rintro i ⟨u, hu, hflag⟩
      have hmem : (⟨i, u⟩ : Doc User) ∈ db.users.query fun u => u.isSystem :=
        Table.mem_query.mpr ⟨Table.get_eq_some.mp hu, hflag⟩
      rw [List.head?_eq_none_iff.mp hsystem] at hmem
      exact List.not_mem_nil hmem

/-! ### Site keys -/

/-- One system account, never locked; every site key is its own, and at most one is live. -/
structure SiteSetup (s : Deployment) : Prop where
  one : ∀ i j, IsSystem s.db.users i → IsSystem s.db.users j → i = j
  unlocked : ∀ i u, s.db.users.get i = some u → u.isSystem = true → u.disabledAt = none
  owners : ∀ i ∈ s.owners, IsSystem s.db.users i
  owned : ∀ i k, s.db.apiKeys.get i = some k → k.isSiteKey = true → IsSystem s.db.users k.userId
  oneLive : ∀ i j k l, s.db.apiKeys.get i = some k → s.db.apiKeys.get j = some l →
    k.isSiteKey = true → l.isSiteKey = true → k.revokedAt = none → l.revokedAt = none → i = j

theorem siteSetup_empty : SiteSetup {} where
  one i j hi := by obtain ⟨u, hu, -⟩ := hi; cases hu
  unlocked i u hu := by cases hu
  owners i hi := by cases hi
  owned i k hk := by cases hk
  oneLive i j k l hk := by cases hk

theorem SystemKept.isSystem {users users' : Table User} (h : SystemKept users users') {i : ℕ}
    (hi : IsSystem users i) : IsSystem users' i := by
  obtain ⟨u, hu, hflag⟩ := hi
  obtain ⟨u', hu', hsame, -⟩ := h.kept i u hu
  exact ⟨u', hu', hsame.trans hflag⟩

/-- What a transaction has to leave of the accounts and keys. -/
theorem SiteSetup.of_kept {s : Deployment} (h : SiteSetup s) {db : Db}
    (husers : SystemKept s.db.users db.users)
    (hkeys : ∀ i k', db.apiKeys.get i = some k' → k'.isSiteKey = true →
      ∃ k, s.db.apiKeys.get i = some k ∧ KeyKept k k') : SiteSetup { s with db } := by
  have hlive : ∀ i k', db.apiKeys.get i = some k' → k'.isSiteKey = true → k'.revokedAt = none →
      ∃ k, s.db.apiKeys.get i = some k ∧ k.isSiteKey = true ∧ k.revokedAt = none := by
    intro i k' hk' hsite hrevoked
    obtain ⟨k, hk, hkept⟩ := hkeys i k' hk' hsite
    refine ⟨k, hk, hkept.isSiteKey ▸ hsite, ?_⟩
    cases hk₀ : k.revokedAt with
    | none => rfl
    | some t =>
      rw [hkept.revokedAt t hk₀] at hrevoked
      cases hrevoked
  constructor
  · exact fun i j hi hj => h.one i j (husers.old i hi) (husers.old j hj)
  · intro i u hu hflag
    obtain ⟨v, hv, hsystem⟩ := husers.old i ⟨u, hu, hflag⟩
    obtain ⟨u', hu', -, hkept⟩ := husers.kept i v hv
    obtain rfl := Option.some.inj (hu'.symm.trans hu)
    exact hkept hsystem (h.unlocked i v hv hsystem)
  · exact fun i hi => husers.isSystem (h.owners i hi)
  · intro i k' hk' hsite
    obtain ⟨k, hk, hkept⟩ := hkeys i k' hk' hsite
    rw [hkept.userId]
    exact husers.isSystem (h.owned i k hk (hkept.isSiteKey ▸ hsite))
  · intro i j k' l' hk' hl' hsite hsite' hrevoked hrevoked'
    obtain ⟨k, hk, hks, hkr⟩ := hlive i k' hk' hsite hrevoked
    obtain ⟨l, hl, hls, hlr⟩ := hlive j l' hl' hsite' hrevoked'
    exact h.oneLive i j k l hk hl hks hls hkr hlr

/-- A transaction that registers no site key makes none. -/
theorem siteKeys_run (env : ProcessEnv) (db : Db) {c : Call}
    (hnot : c.txn.registersSiteKey = false) {i : ℕ} {k' : ApiKey}
    (hk' : (c.run env db).2.apiKeys.get i = some k') (hsite : k'.isSiteKey = true) :
    ∃ k, db.apiKeys.get i = some k ∧ KeyKept k k' := by
  rcases (run_apiKeys env db c).of_get hk' with ⟨k, hk, hrewrite⟩ | ⟨k, -, hnew, hrewrite⟩
  · exact ⟨k, hk, hrewrite.kept⟩
  · rw [hrewrite.kept.isSiteKey] at hsite
    cases hnew with
    | insertKey args htxn => cases hsite
    | upsertKey args htxn =>
      rw [htxn] at hnot
      exact absurd (hsite.symm.trans hnot) (by decide)

/-- The key of a hash after it was registered: live, of the given owner, and alone among the live
site keys. -/
structure Registered (keys : Table ApiKey) (keyHash : String) (userId : ℕ) (before : Table ApiKey)
    (i : ℕ) : Prop where
  key : ∃ k, keys.get i = some k ∧ k.keyHash = keyHash ∧ k.userId = userId ∧
    k.revokedAt = none ∧
      ((k.isSiteKey = true ∧ k.endpoints = none ∧ k.expiresAt = none) ∨ before.get i = some k)
  alone : ∀ j l, keys.get j = some l → l.keyHash = keyHash → j = i
  only : ∀ j l, keys.get j = some l → l.isSiteKey = true → l.revokedAt = none → j = i

theorem retire_siteKeyArgs (now userId : ℕ) (keyHash keyPrefix : String) (keys : Table ApiKey) :
    retireSiteKeys now (siteKeyArgs userId keyHash keyPrefix) keys =
      keys.patchAll (isOtherSiteKey (siteKeyArgs userId keyHash keyPrefix)) (revokeApiKey now) :=
  rfl

/-- Every other site key of the owner is retired from the keys in which the hash stands once. -/
theorem registered_retire {now userId i : ℕ} {keyHash keyPrefix : String}
    {base before : Table ApiKey} {k : ApiKey}
    (hquery : base.query (fun k => k.keyHash = keyHash) = [⟨i, k⟩]) (howner : k.userId = userId)
    (hrevoked : k.revokedAt = none)
    (hkey : (k.isSiteKey = true ∧ k.endpoints = none ∧ k.expiresAt = none) ∨ before.get i = some k)
    (howned : ∀ j l, base.get j = some l → l.isSiteKey = true → l.userId = userId) :
    Registered (retireSiteKeys now (siteKeyArgs userId keyHash keyPrefix) base) keyHash userId
      before i := by
  have hhash : ∀ j l, base.get j = some l → l.keyHash = keyHash → j = i := by
    intro j l hl hlhash
    have hmem : (⟨j, l⟩ : Doc ApiKey) ∈ base.query fun k => k.keyHash = keyHash :=
      Table.mem_query.mpr ⟨Table.get_eq_some.mp hl, by simpa using hlhash⟩
    rw [hquery, List.mem_singleton] at hmem
    exact congrArg Doc.id hmem
  obtain ⟨hmem, hkhash⟩ := Table.mem_query.mp (by rw [hquery]; exact List.mem_singleton_self _)
  have hk : base.get i = some k := Table.get_of_mem hmem
  have hkhash : k.keyHash = keyHash := by simpa using hkhash
  have hget : ∀ j l', (retireSiteKeys now (siteKeyArgs userId keyHash keyPrefix) base).get j =
      some l' → ∃ l, base.get j = some l ∧ l' =
        if isOtherSiteKey (siteKeyArgs userId keyHash keyPrefix) l then revokeApiKey now l
        else l := by
    intro j l' hl'
    rw [retire_siteKeyArgs, Table.get_patchAll, Option.map_eq_some_iff] at hl'
    obtain ⟨l, hl, rfl⟩ := hl'
    exact ⟨l, hl, rfl⟩
  constructor
  · refine ⟨k, ?_, hkhash, howner, hrevoked, hkey⟩
    rw [retire_siteKeyArgs, Table.get_patchAll, hk, Option.map_some, if_neg]
    simp [isOtherSiteKey, siteKeyArgs, hkhash]
  · intro j l' hl' hlhash
    obtain ⟨l, hl, rfl⟩ := hget j l' hl'
    refine hhash j l hl ?_
    split_ifs at hlhash
    · unfold revokeApiKey at hlhash
      split_ifs at hlhash <;> exact hlhash
    · exact hlhash
  · intro j l' hl' hsite hlive
    obtain ⟨l, hl, rfl⟩ := hget j l' hl'
    split_ifs at hsite hlive with hother
    · have hdead := revokeApiKey_isSome now l
      rw [hlive] at hdead
      cases hdead
    · have howner' := howned j l hl hsite
      refine hhash j l hl ?_
      by_contra hne
      exact hother (by simp [isOtherSiteKey, siteKeyArgs, howner', hsite, hne])

/-- A registration throws and changes nothing, or leaves the key registered. -/
theorem register_run (env : ProcessEnv) (now : ℕ) {db : Db} {userId : ℕ}
    (keyHash keyPrefix : String)
    (howned : ∀ j l, db.apiKeys.get j = some l → l.isSiteKey = true → l.userId = userId) :
    (∃ e, Call.run env db ⟨now, .upsertKey (siteKeyArgs userId keyHash keyPrefix)⟩ =
      (.threw e, db)) ∨
    ∃ keys i, Call.run env db ⟨now, .upsertKey (siteKeyArgs userId keyHash keyPrefix)⟩ =
      (.done, { db with apiKeys := keys }) ∧ Registered keys keyHash userId db.apiKeys i ∧
        (db.apiKeys.unique (fun k => k.keyHash = keyHash) = .none → i = db.apiKeys.nextId) := by
  have hrun : Call.run env db ⟨now, .upsertKey (siteKeyArgs userId keyHash keyPrefix)⟩ =
      commit db (fun _ => .done) (upsertKey now (siteKeyArgs userId keyHash keyPrefix) db) := rfl
  rw [hrun]
  unfold upsertKey
  split
  · exact .inl ⟨_, rfl⟩
  · rename_i hnone
    have hquery : (db.apiKeys.insert (siteKeyArgs userId keyHash keyPrefix).key).query
        (fun k => k.keyHash = keyHash) =
          [⟨db.apiKeys.nextId, (siteKeyArgs userId keyHash keyPrefix).key⟩] := by
      rw [Table.query_insert, if_pos (by simp [siteKeyArgs, UpsertKeyArgs.key])]
      exact congrArg (· ++ _) (Table.unique_none hnone)
    refine .inr ⟨_, db.apiKeys.nextId, rfl,
      registered_retire hquery rfl rfl (.inl ⟨rfl, rfl, rfl⟩) fun j l hl hsite => ?_, fun _ => rfl⟩
    by_cases hj : j = db.apiKeys.nextId
    · rw [hj, Table.get_insert_self] at hl
      rw [← Option.some.inj hl]
      rfl
    · exact howned j l (by rwa [Table.get_insert_of_ne _ hj] at hl) hsite
  · rename_i existing hone
    split_ifs with hbad
    · exact .inl ⟨_, rfl⟩
    · obtain ⟨hrevoked, howner⟩ := not_or.mp hbad
      refine .inr ⟨_, existing.id, rfl, registered_retire (Table.unique_one hone)
        (not_not.mp howner) (by simpa using hrevoked) (.inr (Table.get_of_unique hone)) howned,
        fun hnone => ?_⟩
      cases hone.symm.trans hnone

/-! ### Runs -/

variable {env : ProcessEnv}

theorem SiteSetup.upsertSystemUser {s : Deployment} (h : SiteSetup s) (now : ℕ) :
    SiteSetup { s with db := (Call.run env s.db ⟨now, .upsertSystemUser⟩).2 } ∧
      ∀ i, (Call.run env s.db ⟨now, .upsertSystemUser⟩).1 = .id i →
        IsSystem (Call.run env s.db ⟨now, .upsertSystemUser⟩).2.users i := by
  rcases upsertSystemUser_run env now s.db with ⟨e, hrun⟩ | ⟨j, hj, hrun⟩ | ⟨hnone, hrun⟩
  · rw [hrun]
    exact ⟨h, fun i hi => by cases hi⟩
  · rw [hrun]
    exact ⟨h, fun i hi => by cases hi; exact hj⟩
  · rw [hrun]
    have hnew : ∀ i, IsSystem (s.db.users.insert { email := some SYSTEM_EMAIL, isSystem := true })
        i → i = s.db.users.nextId := by
      rintro i ⟨u, hu, hflag⟩
      by_contra hi
      rw [Table.get_insert_of_ne _ hi] at hu
      exact hnone i ⟨u, hu, hflag⟩
    have hsystem : IsSystem (s.db.users.insert { email := some SYSTEM_EMAIL, isSystem := true })
        s.db.users.nextId := ⟨_, Table.get_insert_self _, rfl⟩
    refine ⟨⟨fun i j hi hj => (hnew i hi).trans (hnew j hj).symm, fun i u hu hflag => ?_,
      fun i hi => absurd (h.owners i hi) (hnone i),
      fun i k hk hsite => absurd (h.owned i k hk hsite) (hnone _), h.oneLive⟩, fun i hi => ?_⟩
    · rw [hnew i ⟨u, hu, hflag⟩, Table.get_insert_self] at hu
      obtain rfl := Option.some.inj hu
      rfl
    · cases hi
      exact hsystem

theorem SiteSetup.register {s : Deployment} (h : SiteSetup s) {userId : ℕ}
    (howner : IsSystem s.db.users userId) (now : ℕ) (keyHash keyPrefix : String) :
    SiteSetup { s with db := (Call.run env s.db
      ⟨now, .upsertKey (siteKeyArgs userId keyHash keyPrefix)⟩).2 } := by
  have howned : ∀ j l, s.db.apiKeys.get j = some l → l.isSiteKey = true → l.userId = userId :=
    fun j l hl hsite => h.one _ _ (h.owned j l hl hsite) howner
  have hkeys := run_apiKeys env s.db ⟨now, .upsertKey (siteKeyArgs userId keyHash keyPrefix)⟩
  rcases register_run env now keyHash keyPrefix howned with ⟨e, hrun⟩ | ⟨keys, i, hrun, hreg, -⟩
  · rw [hrun]
    exact h
  · rw [hrun] at hkeys ⊢
    refine ⟨h.one, h.unlocked, h.owners, fun j k' hk' hsite => ?_,
      fun j l k k' hk hk' hsite hsite' hlive hlive' =>
        (hreg.only j k hk hsite hlive).trans (hreg.only l k' hk' hsite' hlive').symm⟩
    rcases hkeys.of_get hk' with ⟨k, hk, hrewrite⟩ | ⟨k, -, hnew, hrewrite⟩
    · rw [hrewrite.kept.userId]
      exact h.owned j k hk (hrewrite.kept.isSiteKey ▸ hsite)
    · rw [hrewrite.kept.userId]
      cases hnew with
      | insertKey args htxn => cases htxn
      | upsertKey args htxn =>
        cases htxn
        exact howner

theorem siteSetup_step {s : Deployment} (h : SiteSetup s) (e : DeploymentEvent) :
    SiteSetup (Runs.next (Deployment.step env) s e) := by
  cases e with
  | ensure now =>
    obtain ⟨hsetup, hid⟩ := h.upsertSystemUser now
    simp only [Runs.next, Deployment.step, Deployment.txn]
    split
    · rename_i userId hevent hanswer
      refine ⟨hsetup.one, hsetup.unlocked, fun i hi => ?_, hsetup.owned, hsetup.oneLive⟩
      rcases List.mem_append.mp hi with hi | hi
      · exact hsetup.owners i hi
      · rw [List.mem_singleton.mp hi]
        exact hid userId hanswer
    · exact hsetup
  | register now i keyHash keyPrefix =>
    simp only [Runs.next, Deployment.step, Deployment.txn]
    cases howner : s.owners[i]? with
    | none => exact h
    | some userId =>
      exact h.register (h.owners userId (List.mem_of_getElem? howner)) now keyHash keyPrefix
  | call c =>
    simp only [Runs.next, Deployment.step, Deployment.txn]
    cases hsite : c.txn.registersSiteKey with
    | true => exact h
    | false =>
      simp only [Bool.false_eq_true, if_false]
      obtain ⟨now, txn⟩ := c
      by_cases hsystem : txn = .upsertSystemUser
      · subst hsystem
        exact (h.upsertSystemUser now).1
      · exact h.of_kept (systemKept_run env s.db _ hsystem) fun i k' hk' hk =>
          siteKeys_run env s.db hsite hk' hk

/-- Whatever runs in between, `ensureSiteKey` keeps one system account, which no operator locks,
and at most one live site key, which is its own. A registration that succeeds makes the key with
its hash the only live site key, unless it is an ordinary key of the account already. -/
theorem site_key_registered (es : List DeploymentEvent) :
    SiteSetup (Runs.final (Deployment.step env) {} es) ∧
      ∀ now i keyHash keyPrefix userId,
        (Runs.final (Deployment.step env) {} es).owners[i]? = some userId →
        ((Runs.final (Deployment.step env) {} es).step env
          (.register now i keyHash keyPrefix)).1 = some .done →
        ∃ j, Registered (Runs.final (Deployment.step env) {}
          (es ++ [.register now i keyHash keyPrefix])).db.apiKeys keyHash userId
          (Runs.final (Deployment.step env) {} es).db.apiKeys j ∧
          ((Runs.final (Deployment.step env) {} es).db.apiKeys.unique
            (fun k => k.keyHash = keyHash) = .none →
              j = (Runs.final (Deployment.step env) {} es).db.apiKeys.nextId) := by
  have hsetup := Runs.final_induction (Deployment.step env) siteSetup_empty
    (fun s e hs => siteSetup_step hs e) es
  refine ⟨hsetup, fun now i keyHash keyPrefix userId howner hdone => ?_⟩
  rw [Runs.final_append]
  generalize Runs.final (Deployment.step env) {} es = s at *
  have howned : ∀ j l, s.db.apiKeys.get j = some l → l.isSiteKey = true → l.userId = userId :=
    fun j l hl hsite => hsetup.one _ _ (hsetup.owned j l hl hsite)
      (hsetup.owners userId (List.mem_of_getElem? howner))
  simp only [Deployment.step, Deployment.txn, howner, Option.map_some] at hdone
  simp only [Runs.final_cons, Runs.final_nil, Runs.next, Deployment.step, Deployment.txn, howner,
    Option.map_some]
  rcases register_run env now keyHash keyPrefix howned with ⟨e, hrun⟩ | ⟨keys, j, hrun, hreg⟩
  · rw [hrun] at hdone
    cases hdone
  · rw [hrun]
    exact ⟨j, hreg⟩

/-! ### The website is served -/

structure SameStanding (k k' : ApiKey) : Prop where
  revokedAt : k'.revokedAt = k.revokedAt
  endpoints : k'.endpoints = k.endpoints
  expiresAt : k'.expiresAt = k.expiresAt

theorem SameStanding.refl (k : ApiKey) : SameStanding k k := ⟨rfl, rfl, rfl⟩

/-- A transaction that neither takes the key back nor stores its hash again. -/
def Txn.spares (keyId : ℕ) (keyHash : String) (txn : Txn) : Bool :=
  txn.brings keyHash = 0 && !txn.registersSiteKey && match txn with
    | .revoke _ i => i ≠ keyId
    | .revokeKey i => i ≠ keyId
    | .replaceSecret args => args.keyId ≠ keyId
    | _ => true

/-- A transaction that spares a key of the system account leaves its standing. -/
theorem sameStanding_run (env : ProcessEnv) {db : Db} {c : Call} {i : ℕ}
    {keyHash : String} {k : ApiKey}
    (hk : db.apiKeys.get i = some k) (howner : IsSystem db.users k.userId)
    (hspares : c.txn.spares i keyHash = true) :
    ∃ k', (c.run env db).2.apiKeys.get i = some k' ∧ SameStanding k k' := by
  by_cases hw : TableName.apiKeys ∈ c.txn.writes
  · obtain ⟨now, txn⟩ := c
    let after : Db → Prop := fun db' => ∃ k', db'.apiKeys.get i = some k' ∧ SameStanding k k'
    have hsame : after db := ⟨k, hk, .refl k⟩
    cases txn <;> simp only [Txn.writes, List.mem_cons, List.mem_nil_iff, reduceCtorEq, or_self,
      or_false] at hw
    case recordUsage entries =>
      apply @commit_induction _ after _ _ _ hsame
      intro a db' h
      obtain ⟨apiRequests, usageDaily, keys, lastUsed, rfl⟩ := recordUsage_ok h
      obtain ⟨f, hf, hkept⟩ := rewritten_touchKeys keys lastUsed db.apiKeys
      refine ⟨f i k, by rw [hf.get, hk]; rfl, ?_⟩
      have hrevokedAt := congrArg ApiKey.revokedAt (hkept i k)
      have hendpoints := congrArg ApiKey.endpoints (hkept i k)
      have hexpiresAt := congrArg ApiKey.expiresAt (hkept i k)
      exact ⟨hrevokedAt, hendpoints, hexpiresAt⟩
    case insertKey args =>
      apply @commit_induction _ after _ _ _ hsame
      intro a db' h
      obtain ⟨-, -, rfl⟩ := insertKey_ok h
      exact ⟨k, Table.get_insert_of_some hk, .refl k⟩
    case rename caller keyId name =>
      apply @commit_induction _ after _ _ _ hsame
      intro a db' h
      obtain ⟨cleaned, rfl⟩ := rename_ok h
      show ∃ k', (db.apiKeys.patch keyId _).get i = some k' ∧ SameStanding k k'
      rw [Table.get_patch, hk]
      split_ifs
      · exact ⟨_, rfl, ⟨rfl, rfl, rfl⟩⟩
      · exact ⟨k, rfl, .refl k⟩
    case revoke caller keyId =>
      have hne : keyId ≠ i := by simpa [Txn.spares, Txn.brings, Txn.registersSiteKey] using hspares
      apply @commit_induction _ after _ _ _ hsame
      intro a db' h
      obtain ⟨userId, key, -, -, rfl⟩ := revoke_ok h
      exact ⟨k, (Table.get_patch_of_ne _ hne.symm).trans hk, .refl k⟩
    case replaceSecret args =>
      have hne : args.keyId ≠ i := by
        simp only [Txn.spares, Bool.and_eq_true, decide_eq_true_eq] at hspares
        exact hspares.2
      apply @commit_induction _ after _ _ _ hsame
      intro a db' h
      obtain ⟨-, rfl⟩ := replaceSecret_ok h
      exact ⟨k, (Table.get_patch_of_ne _ hne.symm).trans hk, .refl k⟩
    case revokeKey keyId =>
      have hne : keyId ≠ i := by simpa [Txn.spares, Txn.brings, Txn.registersSiteKey] using hspares
      apply @commit_induction _ after _ _ _ hsame
      intro a db' h
      obtain ⟨key, -, rfl⟩ := revokeKey_ok h
      exact ⟨k, (Table.get_patch_of_ne _ hne.symm).trans hk, .refl k⟩
    case lockUser userId =>
      apply @commit_induction _ after _ _ _ hsame
      intro a db' h
      obtain ⟨⟨user, huser, hordinary⟩, rfl⟩ := lockUser_ok h
      refine ⟨k, ?_, .refl k⟩
      show (db.apiKeys.patchAll _ _).get i = some k
      rw [Table.get_patchAll, hk, Option.map_some, if_neg]
      intro hlocked
      obtain ⟨u, hu, hsystem⟩ := howner
      rw [of_decide_eq_true hlocked, huser] at hu
      rw [← Option.some.inj hu, hordinary] at hsystem
      cases hsystem
    case upsertKey args =>
      have hordinary : args.isSiteKey = false := by
        simp only [Txn.spares, Txn.registersSiteKey, Bool.and_eq_true] at hspares
        simpa using hspares.1.2
      apply @commit_induction _ after _ _ _ hsame
      intro a db' h
      rcases upsertKey_ok h with ⟨-, rfl⟩ | rfl
      · refine ⟨k, ?_, .refl k⟩
        simp only [retireSiteKeys, hordinary, Bool.false_eq_true, if_false]
        exact Table.get_insert_of_some hk
      · refine ⟨k, ?_, .refl k⟩
        simp only [retireSiteKeys, hordinary, Bool.false_eq_true, if_false]
        exact hk
  · rw [(run_frame env db c).apiKeys hw]
    exact ⟨k, hk, .refl k⟩

/-- The one key with the hash is a live site key without an end and without a scope. -/
structure SiteKeyLive (keys : Table ApiKey) (keyHash : String) (i : ℕ) : Prop where
  key : ∃ k, keys.get i = some k ∧ k.keyHash = keyHash ∧ k.isSiteKey = true ∧
    k.revokedAt = none ∧ k.endpoints = none ∧ k.expiresAt = none
  alone : ∀ j l, keys.get j = some l → l.keyHash = keyHash → j = i

theorem Registered.live {keys before : Table ApiKey} {keyHash : String} {userId i : ℕ}
    (h : Registered keys keyHash userId before i)
    (hnew : before.unique (fun k => k.keyHash = keyHash) = .none) :
    SiteKeyLive keys keyHash i := by
  obtain ⟨k, hk, hhash, -, hrevoked, ⟨hsite, hscope, hend⟩ | hold⟩ := h.key
  · exact ⟨⟨k, hk, hhash, hsite, hrevoked, hscope, hend⟩, h.alone⟩
  · have hmem : (⟨i, k⟩ : Doc ApiKey) ∈ before.query fun k => k.keyHash = keyHash :=
      Table.mem_query.mpr ⟨Table.get_eq_some.mp hold, by simpa using hhash⟩
    rw [Table.unique_none hnew] at hmem
    exact absurd hmem List.not_mem_nil

theorem not_brings_of_spares {txn : Txn} {i : ℕ} {keyHash : String}
    (h : txn.spares i keyHash = true) : txn.brings keyHash = 0 := by
  simp only [Txn.spares, Bool.and_eq_true, decide_eq_true_eq] at h
  exact h.1.1

theorem hashIf_eq_zero {hash stored : String} : hashIf hash stored = 0 ↔ stored ≠ hash := by
  unfold hashIf
  split_ifs with h <;> simp [h]

theorem SiteKeyLive.run {s : Deployment} {keyHash : String} {i : ℕ}
    (h : SiteKeyLive s.db.apiKeys keyHash i) (hsetup : SiteSetup s) {c : Call}
    (hspares : c.txn.spares i keyHash = true) :
    SiteKeyLive (c.run env s.db).2.apiKeys keyHash i := by
  obtain ⟨k, hk, hhash, hsite, hrevoked, hscope, hend⟩ := h.key
  have hbrings := not_brings_of_spares hspares
  have hafter := run_apiKeys env s.db c
  have hnotHash : ∀ args, c.txn = .replaceSecret args → args.keyHash ≠ keyHash := by
    intro args htxn
    rw [htxn] at hbrings
    exact hashIf_eq_zero.mp hbrings
  constructor
  · obtain ⟨k', hk', hstanding⟩ := sameStanding_run env hk (hsetup.owned i k hk hsite) hspares
    obtain ⟨k'', hk'', hrewrite⟩ := hafter.get_some hk
    obtain rfl := Option.some.inj (hk''.symm.trans hk')
    refine ⟨k'', hk', ?_, hrewrite.kept.isSiteKey.trans hsite, hstanding.revokedAt.trans hrevoked,
      hstanding.endpoints.trans hscope, hstanding.expiresAt.trans hend⟩
    rcases hrewrite.keyHash with heq | ⟨args, htxn, hid, -⟩
    · exact heq.trans hhash
    · simp only [Txn.spares, htxn, Bool.and_eq_true, decide_eq_true_eq] at hspares
      exact absurd hid hspares.2
  · intro j l' hl' hlhash
    rcases hafter.of_get hl' with ⟨l, hl, hrewrite⟩ | ⟨l, -, hnew, hrewrite⟩
    · rcases hrewrite.keyHash with heq | ⟨args, htxn, -, heq⟩
      · exact h.alone j l hl (heq ▸ hlhash)
      · exact absurd (heq ▸ hlhash) (hnotHash args htxn)
    · rcases hrewrite.keyHash with heq | ⟨args, htxn, -, heq⟩
      · exfalso
        have hlhash : l.keyHash = keyHash := heq ▸ hlhash
        cases hnew with
        | insertKey args htxn =>
          rw [htxn] at hbrings
          exact hashIf_eq_zero.mp hbrings hlhash
        | upsertKey args htxn =>
          rw [htxn] at hbrings
          exact hashIf_eq_zero.mp hbrings hlhash
      · exact absurd (heq ▸ hlhash) (hnotHash args htxn)

/-- What must not happen to a key that stays registered. -/
def DeploymentEvent.spares (i : ℕ) (keyHash : String) : DeploymentEvent → Bool
  | .ensure _ => true
  | .register _ _ hash _ => hash = keyHash
  | .call c => c.txn.spares i keyHash

theorem SiteKeyLive.step {s : Deployment} {keyHash : String} {i : ℕ}
    (h : SiteKeyLive s.db.apiKeys keyHash i) (hsetup : SiteSetup s) {e : DeploymentEvent}
    (hspares : e.spares i keyHash = true) :
    SiteKeyLive (Runs.next (Deployment.step env) s e).db.apiKeys keyHash i := by
  cases e with
  | ensure now =>
    simp only [Runs.next, Deployment.step, Deployment.txn]
    exact h.run hsetup rfl
  | call c =>
    simp only [Runs.next, Deployment.step, Deployment.txn]
    split_ifs
    · exact h
    · exact h.run hsetup hspares
  | register now j hash keyPrefix =>
    obtain rfl : hash = keyHash := of_decide_eq_true hspares
    simp only [Runs.next, Deployment.step, Deployment.txn]
    cases howner : s.owners[j]? with
    | none => exact h
    | some userId =>
      have howned : ∀ j l, s.db.apiKeys.get j = some l → l.isSiteKey = true → l.userId = userId :=
        fun j l hl hsite => hsetup.one _ _ (hsetup.owned j l hl hsite)
          (hsetup.owners userId (List.mem_of_getElem? howner))
      simp only [Option.map_some]
      rcases register_run env now hash keyPrefix howned with ⟨e, hrun⟩ | ⟨keys, n, hrun, hreg, -⟩
      · rw [hrun]
        exact h
      · obtain ⟨k, hk, hkhash, hsite, hrevoked, hscope, hend⟩ := h.key
        have hafter := run_apiKeys env s.db ⟨now, .upsertKey (siteKeyArgs userId hash keyPrefix)⟩
        rw [hrun] at hafter ⊢
        -- The hash stands once, so the registered key is the one it was.
        obtain ⟨k', hk', hrewrite⟩ := hafter.get_some hk
        have hk'hash : k'.keyHash = hash := by
          rcases hrewrite.keyHash with heq | ⟨args, htxn, -⟩
          · exact heq.trans hkhash
          · cases htxn
        obtain rfl := hreg.alone i k' hk' hk'hash
        obtain ⟨l, hl, hlhash, -, hlrevoked, ⟨hlsite, hlscope, hlend⟩ | hold⟩ := hreg.key
        · exact ⟨⟨l, hl, hlhash, hlsite, hlrevoked, hlscope, hlend⟩, hreg.alone⟩
        · obtain rfl := Option.some.inj (hk.symm.trans hold)
          exact ⟨⟨k, hl, hkhash, hsite, hrevoked, hscope, hend⟩, hreg.alone⟩

theorem SiteKeyLive.unique {keys : Table ApiKey} {keyHash : String} {i : ℕ}
    (h : SiteKeyLive keys keyHash i) : ∃ k, keys.unique (isKeyHash keyHash) = .one ⟨i, k⟩ ∧
      k.isSiteKey = true ∧ k.revokedAt = none ∧ k.endpoints = none ∧ k.expiresAt = none := by
  obtain ⟨k, hk, hhash, hsite, hrevoked, hscope, hend⟩ := h.key
  refine ⟨k, Table.unique_eq_one.mpr (Table.query_eq_singleton hk ?_ fun j l hl hlhash => ?_),
    hsite, hrevoked, hscope, hend⟩
  · simpa [isKeyHash] using hhash
  · exact h.alone j l hl (of_decide_eq_true hlhash)

/-- A live site key is admitted, whatever the endpoint. -/
theorem SiteKeyLive.admission {s : Deployment} {keyHash : String} {i : ℕ}
    (h : SiteKeyLive s.db.apiKeys keyHash i) (hsetup : SiteSetup s) (now : ℕ)
    {args : AuthorizeArgs} (hkind : args.kind = .key) (hhash : args.hash = keyHash) :
    ∃ a, admission s.db now args = .ok a ∧ a.isSiteKey = true := by
  obtain ⟨k, hunique, hsite, hrevoked, hscope, hend⟩ := h.unique
  obtain ⟨u, hu, hsystem⟩ := hsetup.owned i k (Table.get_of_unique hunique) hsite
  have hfind : findKey s.db now args = .ok (⟨i, k⟩, false) := by
    simp only [findKey, hkind, hhash, hunique]
  have hcheck : checkKey s.db now ⟨i, k⟩ = .ok u := by
    simp [checkKey, hrevoked, hend, hu, hsetup.unlocked k.userId u hu hsystem]
  have hscope' : checkScope now args ⟨i, k⟩ false u = .ok ⟨⟨i, k⟩, u, false, true, none⟩ := by
    simp [checkScope, hsite, hscope]
  refine ⟨⟨⟨i, k⟩, u, false, true, none⟩, ?_, rfl⟩
  rw [Convex.admission, hfind]
  show (checkKey s.db now ⟨i, k⟩ >>= fun owner => checkScope now args ⟨i, k⟩ false owner) = _
  rw [hcheck]
  exact hscope'

/-- What is admitted with a site key is counted, and answered ok or stopped by a rate limit. -/
theorem authorize_site {db : Db} (hrows : RowsUnique db) {secret : String}
    (hsecret : env.gatewaySecret = .ok secret) {now : ℕ} {args : AuthorizeArgs} {a : Admission}
    (ha : admission db now args = .ok a) (hsite : a.isSiteKey = true) :
    ∃ reply db', authorize env now args db = .ok (reply, db') ∧
      (reply.status = .ok ∨ reply.status = .rateLimited) := by
  obtain ⟨bs, hbuckets⟩ : ∃ bs, buckets env args a = .ok bs := by
    simp only [buckets, hsite, if_true, hsecret]
    exact ⟨_, rfl⟩
  obtain ⟨states, windows, hhits, -⟩ :=
    hitAll_unique hrows.windows now (bs.map fun b => hit b.1 b.2)
  simp only [authorize, ha, charge, hbuckets, hhits, hsite, bind, Except.bind, pure, Except.pure,
    if_true]
  split_ifs
  · exact ⟨_, _, rfl, .inr rfl⟩
  · exact ⟨_, _, rfl, .inl rfl⟩

theorem rowsUnique_step {s : Deployment} (h : RowsUnique s.db) (e : DeploymentEvent) :
    RowsUnique (Runs.next (Deployment.step env) s e).db := by
  unfold Runs.next Deployment.step
  cases s.txn e with
  | none => exact h
  | some c => exact rowsUnique_run h c

/-- A secret that is registered new serves the website from then on, on both of its ways, until an
operator takes the key back, another is registered, or the hash is stored once more: whatever
happens to customers, keys and plans. -/
theorem site_key_served {pre post : List DeploymentEvent} {now i userId : ℕ}
    {keyHash keyPrefix : String}
    (howner : (Runs.final (Deployment.step env) {} pre).owners[i]? = some userId)
    (hnew : (Runs.final (Deployment.step env) {} pre).db.apiKeys.unique
      (fun k => k.keyHash = keyHash) = .none)
    (hdone : ((Runs.final (Deployment.step env) {} pre).step env
      (.register now i keyHash keyPrefix)).1 = some .done) :
    let keyId := (Runs.final (Deployment.step env) {} pre).db.apiKeys.nextId
    (∀ e ∈ post, e.spares keyId keyHash = true) →
      let db := (Runs.final (Deployment.step env) {}
        (pre ++ .register now i keyHash keyPrefix :: post)).db
      ∀ later, (∀ secret, env.gatewaySecret = .ok secret →
          ∀ args, args.kind = .key → args.hash = keyHash →
            ∃ reply db', authorize env later args db = .ok (reply, db') ∧
              (reply.status = .ok ∨ reply.status = .rateLimited)) ∧
        ∃ d, describe env later keyHash db = .ok (.ok d) ∧ d.keyId = keyId ∧
          d.isSiteKey = true := by
  intro keyId hspares db later
  obtain ⟨j, hreg, hindex⟩ :=
    (site_key_registered pre).2 now i keyHash keyPrefix userId howner hdone
  obtain rfl : j = keyId := hindex hnew
  have hstart := hreg.live hnew
  have hrows : RowsUnique db :=
    Runs.final_induction (Deployment.step env) (P := fun s => RowsUnique s.db) rowsUnique_empty
      (fun _ e h => rowsUnique_step h e) _
  obtain ⟨hsetup, hlive⟩ : SiteSetup (Runs.final (Deployment.step env) {}
        (pre ++ .register now i keyHash keyPrefix :: post)) ∧
      SiteKeyLive db.apiKeys keyHash keyId := by
    simp only [db]
    rw [List.append_cons, Runs.final_append]
    exact Runs.final_induction_mem (Deployment.step env)
      (P := fun s => SiteSetup s ∧ SiteKeyLive s.db.apiKeys keyHash keyId)
      ⟨(site_key_registered _).1, hstart⟩ fun s e he hs =>
        ⟨siteSetup_step hs.1 e, hs.2.step hs.1 (hspares e he)⟩
  constructor
  · intro secret hsecret args hkind hhash
    obtain ⟨a, ha, hsite⟩ := hlive.admission hsetup later hkind hhash
    exact authorize_site hrows hsecret ha hsite
  · obtain ⟨k, hunique, hsite, hrevoked, -, hend⟩ := hlive.unique
    obtain ⟨u, hu, hsystem⟩ := hsetup.owned keyId k (Table.get_of_unique hunique) hsite
    have hunlocked := hsetup.unlocked k.userId u hu hsystem
    simp only [describe, db, hunique, hrevoked, hend, hu, hunlocked, hsite]
    exact ⟨_, rfl, rfl, rfl⟩

/-! ### A small deployment -/

/-- A customer signs up, and the system account is made. -/
def firstDeployment : List DeploymentEvent :=
  [.call ⟨0, .signUp "customer@example.com"⟩, .ensure 1]

/-- The customer is locked, and the next deployment registers the same secret. -/
def nextDeployment : List DeploymentEvent :=
  [.call ⟨3, .lockUser 0⟩, .ensure 4, .register 5 1 "site-key" "geo_site", .call ⟨6, .prune⟩]

theorem site_key_registered_sample : ∃ j, Registered
    (Runs.final (Deployment.step testEnv) {}
      (firstDeployment ++ [.register 2 0 "site-key" "geo_site"])).db.apiKeys "site-key" 1
    (Runs.final (Deployment.step testEnv) {} firstDeployment).db.apiKeys j := by
  have howner : (Runs.final (Deployment.step testEnv) {} firstDeployment).owners[0]? = some 1 := by
    decide +kernel
  have hdone : ((Runs.final (Deployment.step testEnv) {} firstDeployment).step testEnv
      (.register 2 0 "site-key" "geo_site")).1 = some .done := by
    decide +kernel
  obtain ⟨j, hreg, -⟩ := (site_key_registered firstDeployment).2 2 0 _ _ 1 howner hdone
  exact ⟨j, hreg⟩

theorem site_key_served_sample :
    let db := (Runs.final (Deployment.step testEnv) {}
      (firstDeployment ++ .register 2 0 "site-key" "geo_site" :: nextDeployment)).db
    (∃ reply db', authorize testEnv 7 ⟨.key, "site-key", some "geocode", some 100, none, none⟩ db =
        .ok (reply, db') ∧ (reply.status = .ok ∨ reply.status = .rateLimited)) ∧
      ∃ d, describe testEnv 7 "site-key" db = .ok (.ok d) ∧ d.keyId = 0 ∧ d.isSiteKey = true := by
  have hnew : (Runs.final (Deployment.step testEnv) {} firstDeployment).db.apiKeys.unique
      (fun k => k.keyHash = "site-key") = .none := rfl
  have howner : (Runs.final (Deployment.step testEnv) {} firstDeployment).owners[0]? = some 1 := by
    decide +kernel
  have hdone : ((Runs.final (Deployment.step testEnv) {} firstDeployment).step testEnv
      (.register 2 0 "site-key" "geo_site")).1 = some .done := by
    decide +kernel
  have hspares : ∀ e ∈ nextDeployment, e.spares
      (Runs.final (Deployment.step testEnv) {} firstDeployment).db.apiKeys.nextId "site-key" =
        true := by
    decide +kernel
  obtain ⟨hauthorize, hdescribe⟩ := site_key_served howner hnew hdone hspares 7
  exact ⟨hauthorize "test-gateway-secret-0123456789abcdefghijklmnop" rfl _ rfl rfl, hdescribe⟩

end GeoPlatform.Convex
