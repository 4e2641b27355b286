import GeoPlatform.Convex.Keys

/-! The transactions of `payments.ts`: the free tier, and the payments table that gates every
plan. -/
namespace GeoPlatform.Convex
open Docs

def startFreeTier (now : ℕ) (u : User) : User :=
  { u with freeTierActivatedAt := some now, freeRequestsUsed := some 0 }

def activateFreeTier (now : ℕ) (caller : Caller) (db : Db) : Except TxError (Unit × Db) := do
  let userId ← requireUserId db now caller
  match db.users.get userId with
  | none => .error (.convex "Account not found.")
  | some user =>
      if user.isSystem || user.disabledAt.isSome then .error (.convex "Account not found.")
      else if user.freeTierActivatedAt.isSome then .ok ((), db)
      else .ok ((), { db with users := db.users.patch userId (startFreeTier now) })

def isIntent (paymentIntentId : String) (p : Payment) : Bool := p.paymentIntentId = paymentIntentId

theorem intent_of_unique {t : Table Payment} {paymentIntentId : String} {row : Doc Payment}
    (h : t.unique (isIntent paymentIntentId) = .one row) :
    row.val.paymentIntentId = paymentIntentId := by
  simpa [isIntent] using (Table.unique_mem h).2

def recordPending (now userId : ℕ) (plan : PaidPlan) (paymentIntentId : String) (db : Db) :
    Except TxError (ℕ × Db) :=
  match db.payments.unique (isIntent paymentIntentId) with
  | .several => .error .notUnique
  | .one existing =>
      if existing.val.userId ≠ userId ∨ existing.val.plan ≠ plan then
        .error (.error "Payment intent already belongs to another checkout.")
      else .ok (existing.id, db)
  | .none =>
      let payment : Payment :=
        ⟨userId, plan, paymentIntentId, PLAN_WIRE_AMOUNT, "MNT", .pending, now, none⟩
      .ok (db.payments.nextId, { db with payments := db.payments.insert payment })

/-- The outcome a settlement reports. -/
inductive Settlement where
  | succeeded | failed
  deriving DecidableEq, Repr

structure SettleArgs where
  paymentIntentId : String
  status : Settlement
  amount : ℚ
  currency : String
  deriving DecidableEq, Repr

def extendedExpiry (user : User) (now : ℕ) : ℕ :=
  (if (activePlan user now).isSome then user.planExpiresAt.getD now else now) + PLAN_DURATION_MS

theorem activePlan_isSome_iff {user : User} (hpaired : user.planExpiresAt.isSome → user.plan.isSome)
    (t : ℕ) : (activePlan user t).isSome = true ↔ t < user.planExpiresAt.getD 0 := by
  unfold activePlan
  cases hexpiry : user.planExpiresAt with
  | none => simp
  | some expiry =>
    obtain ⟨plan, hplan⟩ := Option.isSome_iff_exists.mp (hpaired (by rw [hexpiry]; rfl))
    simp only [hplan, Option.getD_some]
    split_ifs with hactive
    · simpa using hactive.2
    · simp only [Option.isSome_none, Bool.false_eq_true, false_iff]
      omega

/-- A settlement renews the plan from its expiry or from now, whichever is later. -/
theorem extendedExpiry_eq {user : User} (hpaired : user.planExpiresAt.isSome → user.plan.isSome)
    (now : ℕ) : extendedExpiry user now =
      max (user.planExpiresAt.getD 0) now + PLAN_DURATION_MS := by
  unfold extendedExpiry
  by_cases hactive : (activePlan user now).isSome = true
  · have hlater := (activePlan_isSome_iff hpaired now).mp hactive
    rw [if_pos hactive]
    cases hexpiry : user.planExpiresAt with
    | none =>
      rw [hexpiry] at hlater
      exact absurd hlater (Nat.not_lt_zero _)
    | some expiry =>
      rw [hexpiry] at hlater
      rw [Option.getD_some] at hlater ⊢
      rw [Option.getD_some, max_eq_left hlater.le]
  · have hlapsed := mt (activePlan_isSome_iff hpaired now).mpr hactive
    rw [if_neg hactive, max_eq_right (not_lt.mp hlapsed)]

def extendPlan (now : ℕ) (plan : PaidPlan) (user u : User) : User :=
  { u with plan := some plan, planExpiresAt := some (extendedExpiry user now) }

def Payment.succeed (now : ℕ) (p : Payment) : Payment :=
  { p with status := .succeeded, paidAt := some now }

def Payment.fail (p : Payment) : Payment := { p with status := .failed }

def settle (now : ℕ) (args : SettleArgs) (db : Db) : Except TxError (Bool × Db) :=
  match db.payments.unique (isIntent args.paymentIntentId) with
  | .several => .error .notUnique
  | .none => .ok (false, db)
  | .one payment =>
      if payment.val.status ≠ .pending then .ok (false, db)
      else if args.amount ≠ payment.val.amountMinor ∨ args.currency ≠ payment.val.currency then
        .ok (false, db)
      else match args.status with
        | .failed =>
            .ok (true, { db with payments := db.payments.patch payment.id Payment.fail })
        | .succeeded =>
            match db.users.get payment.val.userId with
            | none => .ok (false, db)
            | some user =>
                .ok (true, { db with
                  users := db.users.patch payment.val.userId
                    (extendPlan now payment.val.plan user)
                  payments := db.payments.patch payment.id (Payment.succeed now) })

def userForCheckout (db : Db) (userId : ℕ) : Bool :=
  (db.users.get userId).any fun u => u.disabledAt.all (· = 0) && !u.isSystem

/-- The hundred newest pending payments, newest first. -/
def pendingPayments (db : Db) : List (Doc Payment) :=
  let pending := db.payments.query fun p => p.status = .pending
  ((pending.insertionSort fun a b => a.val.createdAt ≤ b.val.createdAt).reverse).take 100

end GeoPlatform.Convex
