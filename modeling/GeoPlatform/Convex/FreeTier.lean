import GeoPlatform.Convex.QuotaLedger

/-! The free tier as a lifetime allowance. The counter of an account moves by one exactly when a
customer call of it is answered ok without an active plan, and no other transaction touches it
after the one activation. -/
namespace GeoPlatform.Convex
open Docs

/-- When the account activated the free tier. -/
def activatedAt (db : Db) (userId : ℕ) : Option ℕ :=
  (db.users.get userId).bind User.freeTierActivatedAt

/-- One for a call of the account, not by the site key itself, that was answered ok without an
active plan. -/
def okWithoutPlan (env : ProcessEnv) (userId : ℕ) (db : Db) (c : Call) : ℕ :=
  match okCall env db c with
  | some (_, a) =>
      if userId = a.key.val.userId ∧ a.isSiteKey = false ∧ activePlan a.owner c.now = none then 1
      else 0
  | none => 0

/-- What a transaction does to the free allowance of an account. -/
inductive FreeStep (env : ProcessEnv) (userId : ℕ) (db : Db) (c : Call) : Prop
  | kept (hat : activatedAt (c.run env db).2 userId = activatedAt db userId)
      (hused : freeUsed (c.run env db).2 userId = freeUsed db userId)
      (hok : okWithoutPlan env userId db c = 0)
  | counted (hat : activatedAt (c.run env db).2 userId = activatedAt db userId)
      (hused : freeUsed (c.run env db).2 userId = freeUsed db userId + 1)
      (hok : okWithoutPlan env userId db c = 1)
      (hactive : (activatedAt db userId).isSome)
      (hroom : freeUsed db userId < FREE_TOTAL_REQUESTS)
  | activated (hat : activatedAt db userId = none)
      (hused : freeUsed (c.run env db).2 userId = 0)
      (hok : okWithoutPlan env userId db c = 0)

variable {env : ProcessEnv} {userId : ℕ}

theorem okWithoutPlan_of_not_authorize {db : Db} {c : Call} (h : ∀ args, c.txn ≠ .authorize args) :
    okWithoutPlan env userId db c = 0 := by
  unfold okWithoutPlan
  split
  · rename_i args a hok
    exact absurd (okCall_eq_some hok).1 (h args)
  · rfl

theorem FreeStep.of_users {db : Db} {c : Call} (hok : okWithoutPlan env userId db c = 0)
    (h : (c.run env db).2.users = db.users) : FreeStep env userId db c := by
  refine .kept ?_ ?_ hok
  · rw [activatedAt, h]
    rfl
  · rw [freeUsed, h]
    rfl

/-- Patches of other fields and new accounts leave every allowance alone. -/
theorem free_patch {users : Table User} {i : ℕ} (f : User → User)
    (hf : ∀ u, (f u).freeTierActivatedAt = u.freeTierActivatedAt ∧
      (f u).freeRequestsUsed = u.freeRequestsUsed) (userId : ℕ) :
    ((users.patch i f).get userId).bind User.freeTierActivatedAt =
        (users.get userId).bind User.freeTierActivatedAt ∧
      ((users.patch i f).get userId).bind User.freeRequestsUsed =
        (users.get userId).bind User.freeRequestsUsed := by
  rw [Table.get_patch]
  split_ifs
  · cases users.get userId with
    | none => exact ⟨rfl, rfl⟩
    | some u => exact hf u
  · exact ⟨rfl, rfl⟩

theorem free_insert {users : Table User} {user : User} (hat : user.freeTierActivatedAt = none)
    (hused : user.freeRequestsUsed = none) (userId : ℕ) :
    ((users.insert user).get userId).bind User.freeTierActivatedAt =
        (users.get userId).bind User.freeTierActivatedAt ∧
      ((users.insert user).get userId).bind User.freeRequestsUsed =
        (users.get userId).bind User.freeRequestsUsed := by
  by_cases hi : userId = users.nextId
  · subst hi
    rw [Table.get_insert_self, Table.get_nextId]
    exact ⟨hat, hused⟩
  · rw [Table.get_insert_of_ne _ hi]
    exact ⟨rfl, rfl⟩

theorem FreeStep.of_fields {db : Db} {c : Call} (hok : okWithoutPlan env userId db c = 0)
    (h : ((c.run env db).2.users.get userId).bind User.freeTierActivatedAt =
        (db.users.get userId).bind User.freeTierActivatedAt ∧
      ((c.run env db).2.users.get userId).bind User.freeRequestsUsed =
        (db.users.get userId).bind User.freeRequestsUsed) : FreeStep env userId db c :=
  .kept h.1 (by rw [freeUsed, h.2]; rfl) hok

/-- A committed transaction decides the step; a throwing one changes nothing. -/
theorem freeStep_commit {α : Type} {db : Db} {c : Call} {answer : α → Answer}
    {r : Except TxError (α × Db)} (hrun : c.run env db = commit db answer r)
    (hok : okWithoutPlan env userId db c = 0)
    (h : ∀ a db', r = .ok (a, db') → (c.run env db).2 = db' → FreeStep env userId db c) :
    FreeStep env userId db c := by
  rcases commit_cases db answer r with ⟨e, -, hc⟩ | ⟨a, db', hr, hc⟩
  · exact .of_users hok (by rw [hrun, hc])
  · exact h a db' hr (by rw [hrun, hc])

theorem freeStep_authorize {db : Db} {c : Call} {args : AuthorizeArgs}
    (htxn : c.txn = .authorize args) : FreeStep env userId db c := by
  rcases hok : okCall env db c with _ | ⟨args', a⟩
  · have hzero : okWithoutPlan env userId db c = 0 := by simp only [okWithoutPlan, hok]
    exact .of_users hzero (authorize_not_ok htxn hok).2
  · have hadmitted := okCall_admitted hok
    rcases (okCall_outcome hok).2 with ⟨hsite, -, husers⟩ | ⟨hsite, husers, -⟩
    · refine .of_users ?_ husers
      simp [okWithoutPlan, hok, hsite]
    · have hplan := customer_plan hok hsite
      have hused := freeUsed_countFree hadmitted.owner_mem husers userId
      have hat : activatedAt (c.run env db).2 userId = activatedAt db userId := by
        unfold activatedAt
        rw [husers, countFree]
        split_ifs
        · rw [Table.get_patch]
          split_ifs with hu
          · rw [hu, hadmitted.owner_mem]
            rfl
          · rfl
        · rfl
      by_cases hcount : userId = a.key.val.userId ∧ a.plan = none
      · obtain ⟨hu, hnone⟩ := hcount
        rw [if_pos ⟨hu, hnone⟩] at hused
        have haccess := hadmitted.access hsite
        rw [hplan] at hnone
        rw [hasKeyAccess, hnone, Option.isSome_none, Bool.false_or, decide_eq_true_eq] at haccess
        have hget : db.users.get userId = some a.owner := by rw [hu, hadmitted.owner_mem]
        refine .counted hat hused ?_ ?_ ?_
        · simp only [okWithoutPlan, hok, hu, hsite, hnone, and_self, if_true]
        · unfold freeRequestsRemaining at haccess
          rw [activatedAt, hget]
          split at haccess
          · exact absurd haccess (lt_irrefl 0)
          · rename_i t ht
            simp [ht]
        · unfold freeRequestsRemaining at haccess
          rw [freeUsed, hget]
          split at haccess
          · exact absurd haccess (lt_irrefl 0)
          · simp only [Option.bind_some]
            omega
      · rw [if_neg hcount, Nat.add_zero] at hused
        refine .kept hat hused ?_
        have hcond : ¬ (userId = a.key.val.userId ∧ a.isSiteKey = false ∧
            activePlan a.owner c.now = none) := by
          rw [← hplan]
          tauto
        simp only [okWithoutPlan, hok, if_neg hcond]

theorem freeStep_run (env : ProcessEnv) (userId : ℕ) (db : Db) (c : Call) :
    FreeStep env userId db c := by
  by_cases hauth : ∃ args, c.txn = .authorize args
  · obtain ⟨args, htxn⟩ := hauth
    exact freeStep_authorize htxn
  have hok : okWithoutPlan env userId db c = 0 :=
    okWithoutPlan_of_not_authorize fun args h => hauth ⟨args, h⟩
  by_cases hw : TableName.users ∈ c.txn.writes
  · obtain ⟨now, txn⟩ := c
    cases txn <;> simp only [Txn.writes, List.mem_cons, List.mem_nil_iff, reduceCtorEq, or_self,
      or_false] at hw
    case authorize args => exact absurd ⟨args, rfl⟩ hauth
    case lockUser target =>
      refine freeStep_commit rfl hok fun a db' h hrun => .of_fields hok ?_
      obtain ⟨-, rfl⟩ := lockUser_ok h
      rw [hrun]
      exact free_patch (User.disable now) (fun u => ⟨rfl, rfl⟩) userId
    case enableUser email =>
      refine freeStep_commit rfl hok fun a db' h hrun => .of_fields hok ?_
      obtain rfl := enableUser_ok h
      rw [hrun]
      exact free_patch User.enable (fun u => ⟨rfl, rfl⟩) userId
    case upsertSystemUser =>
      refine freeStep_commit rfl hok fun a db' h hrun => .of_fields hok ?_
      rw [hrun]
      rcases upsertSystemUser_ok h with rfl | rfl
      · exact ⟨rfl, rfl⟩
      · exact free_insert rfl rfl userId
    case activateFreeTier caller =>
      refine freeStep_commit rfl hok fun a db' h hrun => ?_
      rcases activateFreeTier_ok h with rfl | ⟨target, user, huser, hnone, rfl⟩
      · exact .of_users hok (by rw [hrun])
      · by_cases hu : userId = target
        · subst hu
          refine .activated ?_ ?_ hok
          · rw [activatedAt, huser]
            exact hnone
          · rw [hrun, freeUsed, Table.get_patch_self, huser]
            rfl
        · refine .of_fields hok ?_
          rw [hrun, Table.get_patch_of_ne _ hu]
          exact ⟨rfl, rfl⟩
    case settle args =>
      refine freeStep_commit rfl hok fun a db' h hrun => .of_fields hok ?_
      rw [hrun]
      cases settle_ok h with
      | unchanged => exact ⟨rfl, rfl⟩
      | failed => exact ⟨rfl, rfl⟩
      | succeeded row user =>
        exact free_patch (extendPlan now row.val.plan user) (fun u => ⟨rfl, rfl⟩) userId
    case signUp email => exact .of_fields hok (free_insert rfl rfl userId)
  · exact .of_users hok ((run_frame env db c).users hw)

/-! ### Whole runs -/

/-- Before the activation nothing is used, and never more than the allowance. -/
structure WithinAllowance (userId : ℕ) (db : Db) : Prop where
  unused : activatedAt db userId = none → freeUsed db userId = 0
  bounded : freeUsed db userId ≤ FREE_TOTAL_REQUESTS

theorem withinAllowance_run {db : Db} (c : Call) (h : WithinAllowance userId db) :
    WithinAllowance userId (c.run env db).2 := by
  constructor
  · intro hnone
    cases freeStep_run env userId db c with
    | kept hat hused hok =>
      rw [hused]
      apply h.unused
      rw [← hat, hnone]
    | counted hat hused hok hactive hroom =>
      rw [← hat, hnone] at hactive
      cases hactive
    | activated hat hused hok => exact hused
  · have hbounded := h.bounded
    cases freeStep_run env userId db c with
    | kept hat hused hok => omega
    | counted hat hused hok hactive hroom => omega
    | activated hat hused hok => omega

/-- The counter moves by the calls answered ok without a plan; the activation resets nothing. -/
theorem freeUsed_run {db : Db} (c : Call) (h : WithinAllowance userId db) :
    freeUsed (c.run env db).2 userId = freeUsed db userId + okWithoutPlan env userId db c := by
  cases freeStep_run env userId db c with
  | kept hat hused hok => omega
  | counted hat hused hok hactive hroom => omega
  | activated hat hused hok =>
    have hzero := h.unused hat
    omega

theorem activated_of_okWithoutPlan {db : Db} {c : Call}
    (h : okWithoutPlan env userId db c ≠ 0) : (activatedAt db userId).isSome := by
  cases freeStep_run env userId db c with
  | kept hat hused hok => exact absurd hok h
  | counted hat hused hok hactive hroom => exact hactive
  | activated hat hused hok => exact absurd hok h

/-- The free tier is a lifetime allowance. For an account that starts without it, in every run the
counter equals the calls answered ok without an active plan, site-key calls apart, never exceeds
the allowance and never decreases, and no such call is answered ok before the activation. -/
theorem free_tier_lifetime {db : Db} (hstart : ∀ u, db.users.get userId = some u →
      u.freeTierActivatedAt = none ∧ u.freeRequestsUsed = none) (cs more : List Call) :
    let reached := Runs.final (Call.run env) db cs
    freeUsed reached userId = Runs.total (Call.run env) (okWithoutPlan env userId) db cs ∧
      freeUsed reached userId ≤ FREE_TOTAL_REQUESTS ∧
      freeUsed reached userId ≤ freeUsed (Runs.final (Call.run env) db (cs ++ more)) userId ∧
      ∀ c, okWithoutPlan env userId reached c ≠ 0 → (activatedAt reached userId).isSome := by
  have hzero : freeUsed db userId = 0 := by
    unfold freeUsed
    cases hu : db.users.get userId with
    | none => rfl
    | some u => simp [(hstart u hu).2]
  have hwithin : WithinAllowance userId db := by
    constructor
    · exact fun _ => hzero
    · omega
  have hkept : ∀ db c, WithinAllowance userId db →
      WithinAllowance userId (Runs.next (Call.run env) db c) := fun _ c h => withinAllowance_run c h
  have hreached := Runs.final_induction (Call.run env) hwithin hkept cs
  have hcount : ∀ {s : Db} (es : List Call), WithinAllowance userId s →
      freeUsed (Runs.final (Call.run env) s es) userId =
        freeUsed s userId + Runs.total (Call.run env) (okWithoutPlan env userId) s es := by
    intro s es hs
    exact Runs.count_eq_total (Call.run env) (fun db => freeUsed db userId) _ hkept
      (fun _ c h => freeUsed_run c h) hs es
  refine ⟨?_, hreached.bounded, ?_, fun c => activated_of_okWithoutPlan⟩
  · have htotal := hcount cs hwithin
    omega
  · have hmore := hcount more hreached
    rw [Runs.final_append]
    omega

/-- A newcomer signs up, activates the free tier, creates a key and uses it. -/
def newcomer : List Call :=
  [⟨0, .signUp "dev@example.com"⟩, ⟨0, .signIn 0 1000000⟩,
    ⟨1, .activateFreeTier ⟨some 0, some 0⟩⟩,
    ⟨2, .insertKey ⟨0, "first", "geo_abcd", "free-key", [.geocode, .route], none⟩⟩,
    ⟨3, .authorize freeRequest⟩]

theorem free_tier_newcomer :
    freeUsed (Runs.final (Call.run testEnv) {} newcomer) 0 = 1 := by
  have hstart : ∀ u, ({} : Db).users.get 0 = some u →
      u.freeTierActivatedAt = none ∧ u.freeRequestsUsed = none := fun u hu => nomatch hu
  rw [(free_tier_lifetime hstart newcomer []).1]
  decide +kernel

/-- The deployment's setup: the system account and its site key. -/
def siteSetup : List Call :=
  [⟨0, .upsertSystemUser⟩, ⟨0, .upsertKey
      ⟨0, "Website (public map)", "site-key", "geo_site", true⟩⟩]

def siteRequest : AuthorizeArgs where
  kind := .key
  hash := "site-key"
  endpoint := some "geocode"
  defaultLimit := some 100
  clientIp := some "203.0.113.7"

/-- The site key's own account is answered ok without a plan, without an activation and
uncounted, so the law does not hold for every account and key. -/
theorem site_key_ok_without_activation :
    ¬ ∀ (db : Db) (c : Call) (reply : AuthorizeReply) (p : Principal),
      (c.run testEnv db).1 = .authorized reply → reply.status = .ok → reply.principal = some p →
      (db.users.get p.userId).bind (fun u => activePlan u c.now) = none →
      (activatedAt db p.userId).isSome ∧
        freeUsed (c.run testEnv db).2 p.userId = freeUsed db p.userId + 1 := by
  intro h
  have hsite := h (Runs.final (Call.run testEnv) {} siteSetup)
    ⟨1, .authorize siteRequest⟩
    { status := .ok, principal := some ⟨0, 0, 0, 0, true, false⟩, rateLimit := some ⟨60, 59, 60⟩ }
    ⟨0, 0, 0, 0, true, false⟩ (by decide +kernel) rfl rfl (by decide +kernel)
  exact absurd hsite.1 (by decide +kernel)

end GeoPlatform.Convex
