import GeoPlatform.Convex.Effects

/-! What a settlement does to the entitlement that was there. The account has one plan and one
expiry, so all of the remaining time takes the plan just paid for. -/
namespace GeoPlatform.Convex
open Docs

/-- At least the limits of the other plan. -/
def PaidPlan.Covers (p q : PaidPlan) : Prop :=
  q.monthlyRequests ≤ p.monthlyRequests ∧ q.requestsPerMinute ≤ p.requestsPerMinute

instance (p q : PaidPlan) : Decidable (p.Covers q) := inferInstanceAs (Decidable (_ ∧ _))

/-- From `now` on, the second account has at every instant at which the first has a plan one
with at least its limits. -/
def KeepsEntitlement (now : ℕ) (user user' : User) : Prop :=
  ∀ t, now ≤ t → ∀ old, activePlan user t = some old →
    ∃ plan, activePlan user' t = some plan ∧ plan.Covers old

theorem activePlan_eq_some {user : User} {t : ℕ} {plan : PaidPlan} :
    activePlan user t = some plan ↔
      user.plan = some plan ∧ ∃ expiry, user.planExpiresAt = some expiry ∧ t < expiry := by
  unfold activePlan
  cases user.plan with
  | none => simp
  | some p =>
    cases user.planExpiresAt with
    | none => simp
    | some expiry =>
      simp only [Option.some.injEq, exists_eq_left']
      split_ifs with h
      · simp [h.2]
      · simp only [false_iff, not_and, not_lt]
        intro _
        by_contra hlt
        exact h ⟨by omega, by omega⟩

/-- A plan that is active later was active all along. -/
theorem activePlan_of_later {user : User} {now t : ℕ} {plan : PaidPlan} (hle : now ≤ t)
    (h : activePlan user t = some plan) : activePlan user now = some plan := by
  obtain ⟨hplan, expiry, hexpiry, hlt⟩ := activePlan_eq_some.mp h
  exact activePlan_eq_some.mpr ⟨hplan, expiry, hexpiry, by omega⟩

/-- Extending a plan leaves no gap: whenever the old plan would have been active, the new one
is. -/
theorem activePlan_extendPlan {user : User} {now t : ℕ} {old plan : PaidPlan} (hle : now ≤ t)
    (h : activePlan user t = some old) :
    activePlan (extendPlan now plan user user) t = some plan := by
  have hnow := activePlan_of_later hle h
  obtain ⟨-, expiry, hexpiry, hlt⟩ := activePlan_eq_some.mp h
  have hlast : extendedExpiry user now = expiry + PLAN_DURATION_MS := by
    simp [extendedExpiry, hnow, hexpiry]
  exact activePlan_eq_some.mpr ⟨rfl, _, rfl, by omega⟩

/-- The limits are kept exactly when the plan paid for covers the one active at the
settlement. -/
theorem keepsEntitlement_extendPlan (user : User) (now : ℕ) (plan : PaidPlan) :
    KeepsEntitlement now user (extendPlan now plan user user) ↔
      ∀ old, activePlan user now = some old → plan.Covers old := by
  constructor
  · intro h old hold
    obtain ⟨p, hp, hcovers⟩ := h now le_rfl old hold
    rw [activePlan_extendPlan le_rfl hold] at hp
    exact Option.some.inj hp ▸ hcovers
  · intro h t hle old hold
    exact ⟨plan, activePlan_extendPlan hle hold, h old (activePlan_of_later hle hold)⟩

/-- After a successful settlement the payer has, at every later instant at which a plan would
have been active without it, the plan just paid for. Its limits are at least those of the plan
that was there exactly when it covers the plan active at the settlement, if there is one. -/
theorem settlement_keeps_paid_time {now : ℕ} {args : SettleArgs} {db db' : Db}
    (hok : settle now args db = .ok (true, db')) (hstatus : args.status = .succeeded) :
    ∃ row user user', db.payments.unique (isIntent args.paymentIntentId) = .one row ∧
      db.users.get row.val.userId = some user ∧ db'.users.get row.val.userId = some user' ∧
      (∀ t, now ≤ t → ∀ old, activePlan user t = some old →
        activePlan user' t = some row.val.plan) ∧
      (KeepsEntitlement now user user' ↔
        ∀ old, activePlan user now = some old → row.val.plan.Covers old) := by
  cases settle_ok hok with
  | failed row hrow hpending hfailed =>
    rw [hstatus] at hfailed
    cases hfailed
  | succeeded row user hrow hpending hsucceeded hamount hcurrency huser =>
    refine ⟨row, user, extendPlan now row.val.plan user user, hrow, huser, ?_, ?_, ?_⟩
    · simp [Table.get_patch, huser]
    · intro t hle old hold
      exact activePlan_extendPlan hle hold
    · exact keepsEntitlement_extendPlan user now row.val.plan

/-- An account on one plan with an open checkout of another. -/
def secondCheckout (current next : PaidPlan) : Db where
  users := Table.empty.insert { plan := some current, planExpiresAt := some PLAN_DURATION_MS }
  payments := Table.empty.insert
    ⟨0, next, "pi_1", PLAN_WIRE_AMOUNT, "MNT", .pending, 0, none⟩

def secondPayment : SettleArgs := ⟨"pi_1", .succeeded, PLAN_WIRE_AMOUNT, "MNT"⟩

/-- The settled state, for a payment that is due. -/
def settled (now : ℕ) (args : SettleArgs) (db : Db) : Db :=
  match settle now args db with
  | .ok (_, db') => db'
  | .error _ => db

theorem settlement_keeps_starter_time :
    ∃ row user user', (secondCheckout .starter .pro).payments.unique (isIntent "pi_1") = .one row ∧
      (secondCheckout .starter .pro).users.get row.val.userId = some user ∧
      (settled 1000 secondPayment (secondCheckout .starter .pro)).users.get row.val.userId =
        some user' ∧
      (∀ t, 1000 ≤ t → ∀ old, activePlan user t = some old →
        activePlan user' t = some row.val.plan) ∧
      (KeepsEntitlement 1000 user user' ↔
        ∀ old, activePlan user 1000 = some old → row.val.plan.Covers old) :=
  @settlement_keeps_paid_time 1000 secondPayment _ _ rfl rfl

/-- A pro account that pays for the starter plan is on the starter plan at once. -/
theorem settlement_lowers_pro_limits :
    ¬ ∀ (now : ℕ) (args : SettleArgs) (db db' : Db),
      settle now args db = .ok (true, db') → args.status = .succeeded →
      ∀ userId user user', db.users.get userId = some user →
        db'.users.get userId = some user' → KeepsEntitlement now user user' := by
  intro h
  have hkeeps := h 1000 secondPayment (secondCheckout .pro .starter) _ rfl rfl 0 _ _ rfl rfl
  obtain ⟨plan, hplan, hcovers⟩ := hkeeps 2000 (by decide) .pro (by decide +kernel)
  have hstarter : plan = .starter := Option.some.inj (hplan.symm.trans (by decide +kernel))
  rw [hstarter] at hcovers
  exact absurd hcovers (by decide)

end GeoPlatform.Convex
