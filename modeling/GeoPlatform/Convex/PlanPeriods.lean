import GeoPlatform.Convex.PaymentRuns
import GeoPlatform.Library.Renewals

/-! What payments buy. Each settled payment renews its user's plan for one period, and nothing
else moves the expiry, so the plan runs for as many periods as were paid. -/
namespace GeoPlatform.Convex
open Docs

variable (env : ProcessEnv)

/-- The call settles a payment of the user as succeeded. -/
def grants (userId : ℕ) (db : Db) (c : Call) : Bool :=
  match c.txn with
  | .settle args =>
      args.status = .succeeded && (c.run env db).1 = .settled true &&
        match db.payments.unique (isIntent args.paymentIntentId) with
        | .one row => row.val.userId = userId
        | _ => false
  | _ => false

/-- The instants of the user's settlements in a run. -/
def grantTimes (userId : ℕ) (db : Db) (cs : List Call) : List ℕ :=
  ((Runs.trace (Call.run env) db cs).filter fun x => grants env userId x.before x.event).map
    fun x => x.event.now

/-- The user has a plan at an instant, after the calls made by then. -/
def HasPlanAt (userId : ℕ) (db : Db) (cs : List Call) (t : ℕ) : Prop :=
  ∃ user, (Runs.final (Call.run env) db (cs.filter fun c => c.now ≤ t)).users.get userId =
    some user ∧ (activePlan user t).isSome = true

/-- The user has no plan at an instant: none at all, or one that has lapsed. -/
structure WithoutPlan (userId start : ℕ) (db : Db) : Prop where
  paired : UserPaired userId db
  inactive : ∀ user, db.users.get userId = some user → activePlan user start = none

variable {env}

/-! ### One call -/

theorem settle_account (userId : ℕ) (db : Db) (now : ℕ) (args : SettleArgs) :
    (grants env userId db ⟨now, .settle args⟩ = true ∧
      ∃ plan user, db.users.get userId = some user ∧
        (Call.run env db ⟨now, .settle args⟩).2.users =
          db.users.patch userId (extendPlan now plan user)) ∨
    (grants env userId db ⟨now, .settle args⟩ = false ∧
      (Call.run env db ⟨now, .settle args⟩).2.users.get userId = db.users.get userId) := by
  have hrun : Call.run env db ⟨now, .settle args⟩ = commit db .settled (settle now args db) := rfl
  rcases commit_cases db .settled (settle now args db) with ⟨e, -, hc⟩ | ⟨granted, db', hok, hc⟩
  · rw [hc] at hrun
    exact Or.inr ⟨by simp [grants, hrun], by rw [hrun]⟩
  · rw [hc] at hrun
    cases settle_ok hok with
    | unchanged => exact Or.inr ⟨by simp [grants, hrun], by rw [hrun]⟩
    | failed row hrow hpending hstatus =>
      exact Or.inr ⟨by simp [grants, hstatus], by rw [hrun]⟩
    | succeeded row user hrow hpending hstatus hamount hcurrency huser =>
      by_cases hu : row.val.userId = userId
      · subst hu
        refine Or.inl ⟨by simp [grants, hstatus, hrun, hrow], row.val.plan, user, huser, ?_⟩
        rw [hrun]
      · refine Or.inr ⟨by simp [grants, hrow, hu], ?_⟩
        rw [hrun]
        exact Table.get_patch_of_ne _ (Ne.symm hu)

/-- A call renews the user's plan when it grants the user a payment, and else leaves it alone. -/
theorem run_expiry {userId : ℕ} {db : Db} (h : UserPaired userId db) (c : Call) :
    UserPaired userId (c.run env db).2 ∧
      planExpiry (c.run env db).2 userId =
        if grants env userId db c then
          some (Renewals.renew PLAN_DURATION_MS ((planExpiry db userId).getD 0) c.now)
        else planExpiry db userId := by
  obtain ⟨now, txn⟩ := c
  by_cases hsettle : ∃ args, txn = .settle args
  · obtain ⟨args, rfl⟩ := hsettle
    rcases @settle_account env userId db now args with
      ⟨hgrants, plan, user, huser, husers⟩ | ⟨hgrants, hsame⟩
    · have hafter : (Call.run env db ⟨now, .settle args⟩).2.users.get userId =
          some (extendPlan now plan user user) := by
        rw [husers, Table.get_patch_self, huser, Option.map_some]
      refine ⟨fun u' hu' _ => ?_, ?_⟩
      · obtain rfl := Option.some.inj (hafter.symm.trans hu')
        rfl
      · rw [if_pos hgrants, planExpiry, planExpiry, hafter, huser, Option.bind_some,
          Option.bind_some, Renewals.renew, ← extendedExpiry_eq (h user huser)]
        rfl
    · refine ⟨fun u' hu' => h u' (hsame ▸ hu'), ?_⟩
      rw [if_neg (by simp [hgrants]), planExpiry, planExpiry, hsame]
  · have hc : ∀ args, txn ≠ .settle args := fun args hargs => hsettle ⟨args, hargs⟩
    have hgrants : grants env userId db ⟨now, txn⟩ = false := by
      cases txn with
      | settle args => exact absurd rfl (hc args)
      | _ => rfl
    refine ⟨userPaired_other hc h, ?_⟩
    rw [hgrants]
    exact planExpiry_other hc db userId

/-! ### Runs -/

theorem grantTimes_sublist (userId : ℕ) (db : Db) (cs : List Call) :
    (grantTimes env userId db cs).Sublist (cs.map Call.now) := by
  induction cs generalizing db with
  | nil => exact List.Sublist.refl _
  | cons c cs ih =>
    have hrest := ih (Runs.next (Call.run env) db c)
    simp only [grantTimes, Runs.trace_cons, List.filter_cons, List.map_cons]
    split_ifs
    · exact hrest.cons_cons c.now
    · exact hrest.cons c.now

/-- The expiry after a run is the first one, renewed at every settlement. -/
theorem final_expiry {userId : ℕ} {db : Db} (h : UserPaired userId db) (cs : List Call) :
    UserPaired userId (Runs.final (Call.run env) db cs) ∧
      (planExpiry (Runs.final (Call.run env) db cs) userId).getD 0 =
        (grantTimes env userId db cs).foldl (Renewals.renew PLAN_DURATION_MS)
          ((planExpiry db userId).getD 0) := by
  induction cs generalizing db with
  | nil => exact ⟨h, rfl⟩
  | cons c cs ih =>
    obtain ⟨hpaired, hexpiry⟩ := @run_expiry env userId db h c
    obtain ⟨hfinal, hrest⟩ := ih hpaired
    refine ⟨hfinal, ?_⟩
    rw [Runs.final_cons, Runs.next, hrest, hexpiry]
    cases hgrants : grants env userId db c <;>
      simp [grantTimes, Runs.next, hgrants]

/-- In a run in order of time, the calls made by an instant have the settlements made by then. -/
theorem grantTimes_filter (userId : ℕ) {db : Db} {cs : List Call}
    (hclock : cs.Pairwise fun a b => a.now ≤ b.now) (t : ℕ) :
    grantTimes env userId db (cs.filter fun c => c.now ≤ t) =
      (grantTimes env userId db cs).filter fun s => s ≤ t := by
  induction cs generalizing db with
  | nil => rfl
  | cons c cs ih =>
    obtain ⟨hlater, hrest⟩ := List.pairwise_cons.mp hclock
    by_cases hc : c.now ≤ t
    · have htail := @ih (Runs.next (Call.run env) db c) hrest
      rw [List.filter_cons_of_pos (by simpa using hc)]
      unfold grantTimes at htail ⊢
      simp only [Runs.trace_cons, List.filter_cons]
      cases grants env userId db c <;> simp [hc, htail]
    · -- Nothing later is made by then either.
      have hnone : ∀ s ∈ (c :: cs).map Call.now, ¬ s ≤ t := by
        intro s hs
        obtain ⟨d, hd, rfl⟩ := List.mem_map.mp hs
        rcases List.mem_cons.mp hd with rfl | hd
        · exact hc
        · exact fun hle => hc ((hlater d hd).trans hle)
      have hcalls : (c :: cs).filter (fun c => c.now ≤ t) = [] := by
        rw [List.filter_eq_nil_iff]
        intro d hd
        simpa using hnone d.now (List.mem_map_of_mem hd)
      have htimes : (grantTimes env userId db (c :: cs)).filter (fun s => s ≤ t) = [] := by
        rw [List.filter_eq_nil_iff]
        intro s hs
        simpa using hnone s ((grantTimes_sublist userId db _).subset hs)
      rw [hcalls, htimes]
      rfl

theorem hasPlanAt_iff {userId : ℕ} {db : Db} (h : UserPaired userId db) {cs : List Call}
    (hclock : cs.Pairwise fun a b => a.now ≤ b.now) (t : ℕ) :
    HasPlanAt env userId db cs t ↔
      t < Renewals.expiryAt PLAN_DURATION_MS ((planExpiry db userId).getD 0)
        (grantTimes env userId db cs) t := by
  obtain ⟨hpaired, hexpiry⟩ := @final_expiry env userId db h (cs.filter fun c => c.now ≤ t)
  rw [Renewals.expiryAt, ← grantTimes_filter userId hclock, ← hexpiry, HasPlanAt]
  cases huser : (Runs.final (Call.run env) db (cs.filter fun c => c.now ≤ t)).users.get userId with
  | none => simp [planExpiry, huser]
  | some user =>
    simp only [Option.some.injEq, exists_eq_left', planExpiry, huser, Option.bind_some]
    exact activePlan_isSome_iff (hpaired user huser) t

/-- Each payment buys one plan period. In a run in order of time, a user without a plan at the
start has one at exactly as many periods' worth of instants as payments of the user were settled,
and each settlement puts the expiry one period after the previous expiry or after now, whichever
is later. -/
theorem payments_buy_periods {userId start : ℕ} {db : Db} (hnone : WithoutPlan userId start db)
    {cs : List Call} (hclock : cs.Pairwise fun a b => a.now ≤ b.now)
    (hstart : ∀ c ∈ cs, start ≤ c.now) :
    Set.encard {t | start ≤ t ∧ HasPlanAt env userId db cs t} =
        ((grantTimes env userId db cs).length * PLAN_DURATION_MS : ℕ) ∧
      ∀ x ∈ Runs.trace (Call.run env) db cs, grants env userId x.before x.event = true →
        planExpiry (Runs.next (Call.run env) x.before x.event) userId =
          some (max ((planExpiry x.before userId).getD x.event.now) x.event.now +
            PLAN_DURATION_MS) := by
  constructor
  · have htimes : (grantTimes env userId db cs).Sublist (cs.map Call.now) :=
      grantTimes_sublist userId db cs
    have hsorted : (grantTimes env userId db cs).Pairwise (· ≤ ·) :=
      (List.pairwise_map.mpr hclock).sublist htimes
    have hfrom : ∀ s ∈ grantTimes env userId db cs, start ≤ s := by
      intro s hs
      obtain ⟨c, hc, rfl⟩ := List.mem_map.mp (htimes.subset hs)
      exact hstart c hc
    have hlapsed : (planExpiry db userId).getD 0 ≤ start := by
      cases huser : db.users.get userId with
      | none => simp [planExpiry, huser]
      | some user =>
        have hno : ¬ (activePlan user start).isSome = true := by
          rw [hnone.inactive user huser]
          exact Bool.false_ne_true
        rw [activePlan_isSome_iff (hnone.paired user huser)] at hno
        simpa only [planExpiry, huser, Option.bind_some, not_lt] using hno
    have hset : {t | start ≤ t ∧ HasPlanAt env userId db cs t} =
        Renewals.covered PLAN_DURATION_MS ((planExpiry db userId).getD 0) start
          (grantTimes env userId db cs) := by
      ext t
      exact and_congr_right fun _ => hasPlanAt_iff hnone.paired hclock t
    rw [hset, Renewals.encard_covered hsorted hfrom hlapsed]
  · intro x hx hgrants
    obtain ⟨pre, post, -, hbefore, -⟩ := Runs.mem_trace _ hx
    have hpaired : UserPaired userId x.before := by
      rw [hbefore]
      exact (final_expiry hnone.paired pre).1
    rw [Runs.next, (run_expiry hpaired x.event).2, if_pos hgrants, Renewals.renew]
    cases planExpiry x.before userId <;> simp

/-- An account without a plan and two open checkouts of different plans. -/
def twoOpenCheckouts : Db where
  users := Table.empty.insert {}
  payments := (Table.empty.insert
    ⟨0, .starter, "pi_1", PLAN_WIRE_AMOUNT, "MNT", .pending, 0, none⟩).insert
    ⟨0, .pro, "pi_2", PLAN_WIRE_AMOUNT, "MNT", .pending, 1, none⟩

/-- The second is paid while the first still runs, with a cleanup in between. -/
def earlyRenewal : List Call :=
  [⟨1000, .settle ⟨"pi_1", .succeeded, PLAN_WIRE_AMOUNT, "MNT"⟩⟩, ⟨2000, .prune⟩,
    ⟨3000, .settle ⟨"pi_2", .succeeded, PLAN_WIRE_AMOUNT, "MNT"⟩⟩]

theorem early_renewal_buys_two_periods :
    Set.encard {t | 1000 ≤ t ∧ HasPlanAt testEnv 0 twoOpenCheckouts earlyRenewal t} =
        (2 * PLAN_DURATION_MS : ℕ) ∧
      ∀ x ∈ Runs.trace (Call.run testEnv) twoOpenCheckouts earlyRenewal,
        grants testEnv 0 x.before x.event = true →
          planExpiry (Runs.next (Call.run testEnv) x.before x.event) 0 =
            some (max ((planExpiry x.before 0).getD x.event.now) x.event.now +
              PLAN_DURATION_MS) := by
  have huser : twoOpenCheckouts.users.get 0 = some {} := by decide +kernel
  have hnone : WithoutPlan 0 1000 twoOpenCheckouts := by
    constructor <;> intro user h <;> rw [huser] at h <;> cases h <;> simp [activePlan]
  have hclock : earlyRenewal.Pairwise fun a b => a.now ≤ b.now := by simp [earlyRenewal]
  have hstart : ∀ c ∈ earlyRenewal, 1000 ≤ c.now := by simp [earlyRenewal]
  have htimes : (grantTimes testEnv 0 twoOpenCheckouts earlyRenewal).length = 2 := by
    decide +kernel
  have hperiods := @payments_buy_periods testEnv 0 1000 twoOpenCheckouts hnone earlyRenewal
    hclock hstart
  rw [htimes] at hperiods
  exact hperiods

end GeoPlatform.Convex
