import GeoPlatform.Convex.PaymentEffects
import GeoPlatform.Library.Run

/-! Payments grant access exactly once, in whatever order the payment actions, the other
transactions and the answers of Wire come. -/
namespace GeoPlatform.Convex
open Docs

variable {env : ProcessEnv}

/-! ### Rows of the payments table -/

/-- What may become of a row: its status moves once, from pending. -/
structure PaymentMove (p p' : Payment) : Prop where
  userId : p'.userId = p.userId
  plan : p'.plan = p.plan
  paymentIntentId : p'.paymentIntentId = p.paymentIntentId
  amountMinor : p'.amountMinor = p.amountMinor
  currency : p'.currency = p.currency
  status : p'.status = p.status ∨ p.status = .pending

theorem PaymentMove.refl (p : Payment) : PaymentMove p p := ⟨rfl, rfl, rfl, rfl, rfl, Or.inl rfl⟩

theorem PaymentMove.trans {p q r : Payment} (h : PaymentMove p q) (h' : PaymentMove q r) :
    PaymentMove p r where
  userId := h'.userId.trans h.userId
  plan := h'.plan.trans h.plan
  paymentIntentId := h'.paymentIntentId.trans h.paymentIntentId
  amountMinor := h'.amountMinor.trans h.amountMinor
  currency := h'.currency.trans h.currency
  status := by
    rcases h.status with heq | hpending
    · rw [← heq]
      exact h'.status
    · exact Or.inr hpending

/-- A row is settled, if it is, from pending. -/
theorem payments_patch {payments : Table Payment} {row : Doc Payment} {f : Payment → Payment}
    (hrow : payments.get row.id = some row.val) (hmove : PaymentMove row.val (f row.val)) {i : ℕ}
    {p : Payment} (hp : payments.get i = some p) :
    ∃ p', (payments.patch row.id f).get i = some p' ∧ PaymentMove p p' := by
  by_cases hi : i = row.id
  · subst hi
    rw [hrow] at hp
    cases hp
    exact ⟨f row.val, by rw [Table.get_patch_self, hrow]; rfl, hmove⟩
  · exact ⟨p, by rw [Table.get_patch_of_ne _ hi, hp], PaymentMove.refl p⟩

theorem effect_payments {s : PaymentSystem} {e : PaymentEvent} {db' : Db}
    (h : PaymentEffect env s e db') {i : ℕ} {p : Payment} (hp : s.db.payments.get i = some p) :
    ∃ p', db'.payments.get i = some p' ∧ PaymentMove p p' := by
  cases h with
  | same => exact ⟨p, hp, PaymentMove.refl p⟩
  | call c hcall => exact ⟨p, by rw [call_payments hcall, hp], PaymentMove.refl p⟩
  | recorded => exact ⟨p, Table.get_insert_of_some hp, PaymentMove.refl p⟩
  | settled now j t args granted db' hthread hargs h =>
    cases h with
    | unchanged => exact ⟨p, hp, PaymentMove.refl p⟩
    | failed row hrow hpending =>
      have hmove : PaymentMove row.val row.val.fail := ⟨rfl, rfl, rfl, rfl, rfl, Or.inr hpending⟩
      exact payments_patch (Table.get_of_unique hrow) hmove hp
    | succeeded row user hrow hpending =>
      have hmove : PaymentMove row.val (row.val.succeed now) :=
        ⟨rfl, rfl, rfl, rfl, rfl, Or.inr hpending⟩
      exact payments_patch (Table.get_of_unique hrow) hmove hp

theorem payments_final {s : PaymentSystem} {i : ℕ} {p : Payment}
    (hp : s.db.payments.get i = some p) (es : List PaymentEvent) :
    ∃ p', (Runs.final (PaymentSystem.step env) s es).db.payments.get i = some p' ∧
      PaymentMove p p' := by
  apply Runs.final_induction (PaymentSystem.step env)
    (P := fun s' => ∃ p', s'.db.payments.get i = some p' ∧ PaymentMove p p')
  · exact ⟨p, hp, PaymentMove.refl p⟩
  · rintro s' e ⟨q, hq, hmove⟩
    obtain ⟨r, hr, hmove'⟩ := effect_payments (step_effect env s' e) hq
    exact ⟨r, hr, hmove.trans hmove'⟩

/-! ### Extensions of a plan -/

def planExpiry (db : Db) (userId : ℕ) : Option ℕ := (db.users.get userId).bind User.planExpiresAt

/-- Whether the step moved the expiry of the user's plan. -/
def extensions (env : ProcessEnv) (userId : ℕ) (s : PaymentSystem) (e : PaymentEvent) : ℕ :=
  if planExpiry (s.step env e).2.db userId = planExpiry s.db userId then 0 else 1

/-- The user's rows in status succeeded. -/
def succeededRows (db : Db) (userId : ℕ) : List (Doc Payment) :=
  db.payments.query fun p => p.userId = userId && p.status = .succeeded

def succeededUnit (userId : ℕ) (p : Payment) : ℕ :=
  if (p.userId = userId && p.status = .succeeded) = true then 1 else 0

theorem succeededRows_length (db : Db) (userId : ℕ) :
    (succeededRows db userId).length = db.payments.sum (succeededUnit userId) := by
  have hsum := Table.sum_query (t := db.payments)
    (fun p => decide (p.userId = userId) && decide (p.status = .succeeded)) fun _ => 1
  rw [List.map_const', List.sum_replicate, smul_eq_mul, mul_one] at hsum
  exact hsum.symm

/-- A user with an expiry has a plan. -/
def UserPaired (userId : ℕ) (db : Db) : Prop :=
  ∀ u, db.users.get userId = some u → u.planExpiresAt.isSome → u.plan.isSome

/-- An account with an expiry has a plan. -/
def PlansPaired (db : Db) : Prop :=
  ∀ i u, db.users.get i = some u → u.planExpiresAt.isSome → u.plan.isSome

/-- A transaction other than a settlement leaves the plan of every account alone. -/
theorem UserRewrite.keeps_plan {c : Call} (hc : ∀ args, c.txn ≠ .settle args) {u u' : User}
    (h : UserRewrite c u u') : u'.plan = u.plan ∧ u'.planExpiresAt = u.planExpiresAt := by
  rcases h.plan with heq | ⟨args, htxn⟩
  · exact heq
  · exact absurd htxn (hc args)

theorem ne_settle {c : Call} (hcall : c.txn.isPaymentStep = false) (args : SettleArgs) :
    c.txn ≠ .settle args := by
  intro htxn
  rw [htxn] at hcall
  cases hcall

theorem userPaired_other {c : Call} (hc : ∀ args, c.txn ≠ .settle args) {userId : ℕ} {db : Db}
    (h : UserPaired userId db) : UserPaired userId (c.run env db).2 := by
  intro u' hu' hexpiry
  rcases (run_users env db c).of_get hu' with ⟨u, hu, hrewrite⟩ | ⟨u, -, hnew, hrewrite⟩
  · obtain ⟨hplan, hexpires⟩ := hrewrite.keeps_plan hc
    rw [hexpires] at hexpiry
    rw [hplan]
    exact h u hu hexpiry
  · rw [(hrewrite.keeps_plan hc).2, hnew.planExpiresAt] at hexpiry
    cases hexpiry

theorem plansPaired_call {c : Call} (hcall : c.txn.isPaymentStep = false) {db : Db}
    (h : PlansPaired db) : PlansPaired (c.run env db).2 :=
  fun userId => userPaired_other (ne_settle hcall) (h userId)

theorem planExpiry_other {c : Call} (hc : ∀ args, c.txn ≠ .settle args) (db : Db) (userId : ℕ) :
    planExpiry (c.run env db).2 userId = planExpiry db userId := by
  unfold planExpiry
  cases hu : db.users.get userId with
  | some u =>
    obtain ⟨u', hu', hrewrite⟩ := (run_users env db c).get_some hu
    rw [hu', Option.bind_some, Option.bind_some, (hrewrite.keeps_plan hc).2]
  | none =>
    cases hu' : (c.run env db).2.users.get userId with
    | none => rfl
    | some u' =>
      rcases (run_users env db c).of_get hu' with ⟨u, hget, -⟩ | ⟨u, -, hnew, hrewrite⟩
      · rw [hu] at hget
        cases hget
      · rw [Option.bind_some, (hrewrite.keeps_plan hc).2, hnew.planExpiresAt]
        rfl

theorem planExpiry_call {c : Call} (hcall : c.txn.isPaymentStep = false) (db : Db) (userId : ℕ) :
    planExpiry (c.run env db).2 userId = planExpiry db userId :=
  planExpiry_other (ne_settle hcall) db userId

/-- An extension moves the expiry of a plan. -/
theorem extendedExpiry_ne {user : User} (h : user.planExpiresAt.isSome → user.plan.isSome)
    (now : ℕ) : some (extendedExpiry user now) ≠ user.planExpiresAt := by
  intro heq
  have hnew := extendedExpiry_eq h now
  rw [← heq, Option.getD_some] at hnew
  have hpos : 0 < PLAN_DURATION_MS := by decide
  omega

theorem planExpiry_of_get {db : Db} {userId : ℕ} {user : User}
    (h : db.users.get userId = some user) : planExpiry db userId = user.planExpiresAt := by
  rw [planExpiry, h, Option.bind_some]

theorem planExpiry_extended {db db' : Db} {userId now : ℕ} {plan : PaidPlan} {user : User}
    (husers : db'.users = db.users.patch userId (extendPlan now plan user))
    (huser : db.users.get userId = some user) :
    planExpiry db' userId = some (extendedExpiry user now) := by
  rw [planExpiry, husers, Table.get_patch_self, huser, Option.map_some, Option.bind_some,
    extendPlan]

theorem planExpiry_unextended {db db' : Db} {userId now : ℕ} {plan : PaidPlan} {user : User}
    (husers : db'.users = db.users.patch userId (extendPlan now plan user)) {other : ℕ}
    (hne : other ≠ userId) : planExpiry db' other = planExpiry db other := by
  rw [planExpiry, planExpiry, husers, Table.get_patch_of_ne _ hne]

/-- Where no account changes, no row may become succeeded. -/
theorem unmoved {db db' : Db} {userId before after : ℕ} (husers : db'.users = db.users)
    (h : after = before) : after = before +
      if planExpiry db' userId = planExpiry db userId then 0 else 1 := by
  have hsame : planExpiry db' userId = planExpiry db userId := by
    unfold planExpiry
    rw [husers]
  rw [if_pos hsame, h, Nat.add_zero]

theorem plansPaired_extended {db db' : Db} {userId now : ℕ} {plan : PaidPlan} {user : User}
    (husers : db'.users = db.users.patch userId (extendPlan now plan user))
    (h : PlansPaired db) : PlansPaired db' := by
  intro j u' hu' hexpiry
  rw [husers, Table.get_patch] at hu'
  split_ifs at hu' with hj
  · obtain ⟨u, -, rfl⟩ := Option.map_eq_some_iff.mp hu'
    rfl
  · exact h j u' hu' hexpiry

/-- A settlement adds its row to the succeeded ones of the row's user. -/
theorem sum_succeed {t : Table Payment} {row : Doc Payment} (hrow : t.get row.id = some row.val)
    (hpending : row.val.status = .pending) (userId now : ℕ) :
    (t.patch row.id (Payment.succeed now)).sum (succeededUnit userId) =
      t.sum (succeededUnit userId) + if row.val.userId = userId then 1 else 0 := by
  have hsum := Table.sum_patch hrow (Payment.succeed now) (succeededUnit userId)
  have hbefore : succeededUnit userId row.val = 0 := by simp [succeededUnit, hpending]
  have hafter : succeededUnit userId (row.val.succeed now) =
      if row.val.userId = userId then 1 else 0 := by
    by_cases hu : row.val.userId = userId <;> simp [succeededUnit, Payment.succeed, hu]
  omega

/-- A step moves one user's expiry exactly when it settles one row of that user as succeeded. -/
theorem effect_extension {s : PaymentSystem} {e : PaymentEvent} {db' : Db}
    (hpaired : PlansPaired s.db) (h : PaymentEffect env s e db') :
    PlansPaired db' ∧ ∀ userId, db'.payments.sum (succeededUnit userId) =
      s.db.payments.sum (succeededUnit userId) +
        if planExpiry db' userId = planExpiry s.db userId then 0 else 1 := by
  cases h with
  | same => exact ⟨hpaired, fun userId => unmoved rfl rfl⟩
  | call c hcall =>
    refine ⟨plansPaired_call hcall hpaired, fun userId => ?_⟩
    rw [planExpiry_call hcall, call_payments hcall, if_pos rfl, Nat.add_zero]
  | recorded now i o paymentIntentId =>
    refine ⟨hpaired, fun userId => ?_⟩
    have hzero : succeededUnit userId (pendingPayment now o.userId o.plan paymentIntentId) = 0 := by
      simp [succeededUnit, pendingPayment]
    apply unmoved rfl
    show (s.db.payments.insert _).sum (succeededUnit userId) = _
    rw [Table.sum_insert, hzero, Nat.add_zero]
  | settled now i t args granted db' hthread hargs h =>
    cases h with
    | unchanged => exact ⟨hpaired, fun userId => unmoved rfl rfl⟩
    | failed row hrow hpending =>
      refine ⟨hpaired, fun userId => ?_⟩
      have hsum := Table.sum_patch (Table.get_of_unique hrow) Payment.fail (succeededUnit userId)
      have hbefore : succeededUnit userId row.val = 0 := by simp [succeededUnit, hpending]
      have hafter : succeededUnit userId row.val.fail = 0 := by
        simp [succeededUnit, Payment.fail]
      apply unmoved rfl
      show (s.db.payments.patch row.id Payment.fail).sum (succeededUnit userId) = _
      omega
    | succeeded row user hrow hpending hstatus hamount hcurrency huser =>
      refine ⟨plansPaired_extended rfl hpaired, fun userId => ?_⟩
      have hsum := sum_succeed (Table.get_of_unique hrow) hpending userId now
      by_cases hu : userId = row.val.userId
      · subst hu
        have hmoved : some (extendedExpiry user now) ≠ planExpiry s.db row.val.userId := by
          rw [planExpiry_of_get huser]
          exact extendedExpiry_ne (hpaired _ user huser) now
        rw [planExpiry_extended rfl huser, if_neg hmoved]
        rw [if_pos rfl] at hsum
        exact hsum
      · rw [planExpiry_unextended rfl hu, if_pos rfl]
        rw [if_neg (Ne.symm hu)] at hsum
        exact hsum

/-- An action is about to settle the row as succeeded, for its user and its amount. -/
structure Extends (s : PaymentSystem) (userId : ℕ) (args : SettleArgs) (row : Doc Payment) :
    Prop where
  inFlight : ∃ t ∈ s.threads, t.settles = some args
  status : args.status = .succeeded
  stored : s.db.payments.get row.id = some row.val
  pending : row.val.status = .pending
  owner : row.val.userId = userId
  intent : args.paymentIntentId = row.val.paymentIntentId
  amount : args.amount = row.val.amountMinor
  currency : args.currency = row.val.currency

theorem extends_of_moved {s : PaymentSystem} {e : PaymentEvent} {db' : Db} {userId : ℕ}
    (h : PaymentEffect env s e db') (hmoved : planExpiry db' userId ≠ planExpiry s.db userId) :
    ∃ args row now, Extends s userId args row ∧
      db'.payments.get row.id = some (row.val.succeed now) := by
  cases h with
  | same => exact absurd rfl hmoved
  | call c hcall => exact absurd (planExpiry_call hcall s.db userId) hmoved
  | recorded => exact absurd rfl hmoved
  | settled now i t args granted db' hthread hargs h =>
    cases h with
    | unchanged => exact absurd rfl hmoved
    | failed => exact absurd rfl hmoved
    | succeeded row user hrow hpending hstatus hamount hcurrency huser =>
      have hu : row.val.userId = userId := by
        by_contra hne
        exact hmoved (planExpiry_unextended rfl (Ne.symm hne))
      have hstored := Table.get_of_unique hrow
      refine ⟨args, row, now, ?_, by rw [Table.get_patch_self, hstored]; rfl⟩
      exact ⟨⟨t, List.mem_of_getElem? hthread, hargs⟩, hstatus, hstored, hpending, hu,
        (intent_of_unique hrow).symm, hamount, hcurrency⟩

/-! ### Where settlements come from -/

/-- Some event of the run brought an answer of Wire that reports the settlement. -/
def AnsweredIn (env : ProcessEnv) (es : List PaymentEvent) (args : SettleArgs) : Prop :=
  ∃ pre e post, es = pre ++ e :: post ∧
    Answered (Runs.final (PaymentSystem.step env) {} pre) args e

theorem AnsweredIn.append {es : List PaymentEvent} {args : SettleArgs}
    (h : AnsweredIn env es args) (fs : List PaymentEvent) : AnsweredIn env (es ++ fs) args := by
  obtain ⟨pre, e, post, rfl, hanswered⟩ := h
  exact ⟨pre, e, post ++ fs, by simp, hanswered⟩

/-- Every settlement in flight has been reported by an answer. -/
theorem answered_of_settles (es : List PaymentEvent) :
    ∀ t ∈ (Runs.final (PaymentSystem.step env) {} es).threads, ∀ args,
      t.settles = some args → AnsweredIn env es args := by
  apply Runs.history_induction (PaymentSystem.step env) (P := fun pre s =>
    ∀ t ∈ s.threads, ∀ args, t.settles = some args → AnsweredIn env pre args)
  · rintro t ht
    cases ht
  · intro pre e ih t ht args hargs
    rcases settles_step ht hargs with hmem | hanswered
    · exact (ih t hmem args hargs).append [e]
    · exact ⟨pre, e, [], rfl, hanswered⟩

/-! ### Confirmations -/

/-- The checkout of the confirmation is recorded, for its user and its plan, when it is sent. -/
theorem confirm_bound {s : PaymentSystem} {e : PaymentEvent} {paymentIntentId key : String}
    (h : (s.step env e).1 = .sent (.confirm paymentIntentId key)) :
    ∃ now i o, e = .resume now i ∧ s.threads[i]? = some (.recordPending o paymentIntentId) ∧
      ∃ paymentId row, (s.step env e).2.db.payments.get paymentId = some row ∧
        row.paymentIntentId = paymentIntentId ∧ row.userId = o.userId ∧ row.plan = o.plan := by
  obtain ⟨now, i, o, paymentId, db', he, hthread, hok, hdb⟩ := confirms_step h
  refine ⟨now, i, o, he, hthread, ?_⟩
  rw [hdb]
  rcases recordPending_ok hok with ⟨row, hrow, -, howner, hplan, rfl⟩ | ⟨-, -, rfl⟩
  · exact ⟨row.id, row.val, Table.get_of_unique hrow, intent_of_unique hrow, howner, hplan⟩
  · exact ⟨_, _, Table.get_insert_self _, rfl, rfl, rfl⟩

/-! ### Whole runs -/

theorem settlementOf_succeeded {status : JsonValue} (h : settlementOf status = some .succeeded) :
    status = .string "succeeded" := by
  unfold settlementOf at h
  split_ifs at h with hsucceeded
  · exact hsucceeded
  · cases h

/-- Wire reported the row's intent to a waiting action as succeeded, with its amount and its
currency. -/
def ReportedPaid (env : ProcessEnv) (es : List PaymentEvent) (row : Payment) : Prop :=
  ∃ pre i intent post, es = pre ++ .answer i (.ok intent) :: post ∧
    ((Runs.final (PaymentSystem.step env) {} pre).threads[i]?.any PaymentThread.isWaiting) ∧
    intent.id = .string row.paymentIntentId ∧ intent.status = .string "succeeded" ∧
    intent.amount = .number row.amountMinor ∧ intent.currency = .string row.currency

theorem reportedPaid_of_extends {es : List PaymentEvent} {userId : ℕ} {args : SettleArgs}
    {row : Doc Payment}
    (h : Extends (Runs.final (PaymentSystem.step env) {} es) userId args row) :
    ReportedPaid env es row.val := by
  obtain ⟨t, hmem, hargs⟩ := h.inFlight
  obtain ⟨pre, e, post, rfl, hanswered⟩ := answered_of_settles es t hmem args hargs
  obtain ⟨i, u, intent, hthread, hwaiting, hreports⟩ := hanswered
  have hstatus : settlementOf intent.status = some .succeeded := by
    rw [hreports.status, h.status]
  refine ⟨pre, i, intent, post, rfl, ?_, ?_, settlementOf_succeeded hstatus, ?_, ?_⟩
  · rw [hthread]
    exact hwaiting
  · rw [← h.intent]
    exact hreports.id
  · rw [← h.amount]
    exact hreports.amount
  · rw [← h.currency]
    exact hreports.currency

theorem plansPaired_empty : PlansPaired {} := by
  rintro i u hu
  cases hu

/-- Payments grant access exactly once. In every run of the payment actions from the empty
deployment: a row keeps its user, plan, intent, amount and currency and moves from pending only; a
user's plan was extended as often as the user has succeeded rows; before each extension Wire
reported the row's intent as succeeded with the row's amount and currency; and a confirmation is
sent for an intent with a row of the same user and plan only. -/
theorem payments_grant_exactly_once (es : List PaymentEvent) :
    let reached := Runs.final (PaymentSystem.step env) {}
    (∀ pre post, es = pre ++ post → ∀ i p, (reached pre).db.payments.get i = some p →
      ∃ p', (reached es).db.payments.get i = some p' ∧ PaymentMove p p') ∧
    (∀ userId, Runs.total (PaymentSystem.step env) (extensions env userId) {} es =
      (succeededRows (reached es).db userId).length) ∧
    (∀ pre e post, es = pre ++ e :: post → ∀ userId, extensions env userId (reached pre) e ≠ 0 →
      ∃ i row now, (reached pre).db.payments.get i = some row ∧ row.userId = userId ∧
        row.status = .pending ∧
        (reached (pre ++ [e])).db.payments.get i = some (row.succeed now) ∧
        ReportedPaid env pre row) ∧
    (∀ pre e post, es = pre ++ e :: post → ∀ paymentIntentId key,
      ((reached pre).step env e).1 = .sent (.confirm paymentIntentId key) →
        ∃ now i o, e = .resume now i ∧
          (reached pre).threads[i]? = some (.recordPending o paymentIntentId) ∧
          ∃ paymentId row, (reached (pre ++ [e])).db.payments.get paymentId = some row ∧
            row.paymentIntentId = paymentIntentId ∧ row.userId = o.userId ∧ row.plan = o.plan) := by
  intro reached
  have hlast : ∀ pre e, reached (pre ++ [e]) = ((reached pre).step env e).2 :=
    fun pre e => Runs.final_append _ _ _ _
  refine ⟨?_, ?_, ?_, ?_⟩
  · rintro pre post rfl i p hp
    have hfinal : reached (pre ++ post) =
        Runs.final (PaymentSystem.step env) (reached pre) post := Runs.final_append _ _ _ _
    rw [hfinal]
    exact payments_final hp post
  · intro userId
    have hcount := Runs.count_eq_total (PaymentSystem.step env)
      (fun s => s.db.payments.sum (succeededUnit userId)) (extensions env userId)
      (I := fun s => PlansPaired s.db)
      (fun s e h => (effect_extension h (step_effect env s e)).1)
      (fun s e h => (effect_extension h (step_effect env s e)).2 userId)
      (s := {}) plansPaired_empty es
    have hzero : ({} : PaymentSystem).db.payments.sum (succeededUnit userId) = 0 := rfl
    simp only [hzero, Nat.zero_add] at hcount
    rw [succeededRows_length, ← hcount]
  · rintro pre e post - userId hextended
    have hmoved : planExpiry ((reached pre).step env e).2.db userId ≠
        planExpiry (reached pre).db userId := by
      intro hsame
      exact hextended (if_pos hsame)
    obtain ⟨args, row, now, hextends, hafter⟩ :=
      extends_of_moved (step_effect env (reached pre) e) hmoved
    rw [← hlast] at hafter
    exact ⟨row.id, row.val, now, hextends.stored, hextends.owner, hextends.pending, hafter,
      reportedPaid_of_extends hextends⟩
  · rintro pre e post - paymentIntentId key hsent
    rw [hlast]
    exact confirm_bound hsent

/-- A checkout that Wire reports paid at once, while the webhook asks for the same intent. -/
def paidCheckout : List PaymentEvent :=
  let developer : Caller := ⟨some 0, some 0⟩
  let paid : WireResponse := .ok
    ⟨.string "pi_1", .string "succeeded", .number PLAN_WIRE_AMOUNT, .string "MNT", "null"⟩
  [.call ⟨0, .signUp "dev@example.com"⟩, .call ⟨0, .signIn 0 1000000⟩,
    .startCheckout 1 developer .pro "4b52e335-f398-4f3e-8887-179130740572", .resume 2 0,
    .answer 0 paid, .resume 3 0, .settleFromWebhook "pi_1", .answer 0 paid, .answer 1 paid,
    .resume 4 1, .resume 5 0]

example :
    let env := { testEnv with
      ENVIRONMENT := some "test", WIREPAYMENT_SECRET_KEY := some "sk_test_example" }
    Runs.total (PaymentSystem.step env) (extensions env 0) {} paidCheckout = 1 := by
  decide +kernel

end GeoPlatform.Convex
