import GeoPlatform.Convex.PaymentRuns
import GeoPlatform.Library.StableSort
import GeoPlatform.Library.UniqueRows

/-! The reconciliation job over whole runs. A run of the job asks Wire about the hundred newest
pending payments and about no other, so it reaches a payment exactly when fewer than a hundred
pending ones are newer. -/
namespace GeoPlatform.Convex
open Docs

variable {env : ProcessEnv}

/-! ### The batch -/

/-- `a` comes before `b` in the index order of `_pending`. -/
def newer (a b : Doc Payment) : Bool :=
  b.val.createdAt < a.val.createdAt || (b.val.createdAt = a.val.createdAt && b.id < a.id)

/-- How many pending payments are newer. -/
def newerPending (db : Db) (d : Doc Payment) : ℕ :=
  ((db.payments.query fun p => p.status = .pending).filter fun e => newer e d).length

theorem newer_asymm (a b : Doc Payment) (h : newer a b = true) : newer b a = false := by
  simp only [newer, Bool.or_eq_true, Bool.and_eq_true, decide_eq_true_eq] at h
  simp only [newer, Bool.or_eq_false_iff, Bool.and_eq_false_iff, decide_eq_false_iff_not]
  omega

theorem mem_pendingPayments {db : Db} {d : Doc Payment} :
    d ∈ pendingPayments db ↔
      d ∈ db.payments.docs ∧ d.val.status = .pending ∧ newerPending db d < 100 := by
  let pending := db.payments.query fun p => p.status = .pending
  let sorted := pending.insertionSort fun a b => a.val.createdAt ≤ b.val.createdAt
  have hids : pending.Pairwise fun a b => a.id < b.id :=
    db.payments.ascending.sublist List.filter_sublist
  have hperm : sorted.reverse.Perm pending :=
    (List.reverse_perm _).trans (List.perm_insertionSort _ _)
  have hnewest : sorted.reverse.Pairwise fun a b => newer a b = true := by
    rw [List.pairwise_reverse]
    refine (StableSort.insertionSort_stable hids).imp fun {a b} h => ?_
    simpa [newer, StableSort.StablyBefore] using h
  have hmem : d ∈ sorted.reverse ↔ d ∈ db.payments.docs ∧ d.val.status = .pending := by
    rw [hperm.mem_iff, Table.mem_query, decide_eq_true_eq]
  have hrank : (sorted.reverse.filter fun e => newer e d).length = newerPending db d :=
    (hperm.filter _).length_eq
  change d ∈ sorted.reverse.take 100 ↔ _
  rw [mem_take_iff_rank hnewest newer_asymm, hmem, hrank, and_assoc]

/-! ### One row for each intent -/

/-- No two payments have the same intent. -/
def IntentsUnique (db : Db) : Prop :=
  ∀ paymentIntentId, (db.payments.query (isIntent paymentIntentId)).length ≤ 1

theorem IntentsUnique.unique {db : Db} (h : IntentsUnique db) {i : ℕ} {p : Payment}
    (hp : db.payments.get i = some p) :
    db.payments.unique (isIntent p.paymentIntentId) = .one ⟨i, p⟩ := by
  have hmem : (⟨i, p⟩ : Doc Payment) ∈ db.payments.query (isIntent p.paymentIntentId) := by
    refine Table.mem_query.mpr ⟨Table.get_eq_some.mp hp, ?_⟩
    simp [isIntent]
  rcases Table.AtMostOne.cases h p.paymentIntentId with hnone | ⟨d, hone⟩
  · rw [Table.unique_none hnone] at hmem
    cases hmem
  · rw [Table.unique_one hone] at hmem
    rw [hone, List.mem_singleton.mp hmem]

theorem isIntent_separates : Table.Separates isIntent := by
  intro j k p hj hk
  simp only [isIntent, decide_eq_true_eq] at hj hk
  exact hj.symm.trans hk

/-- A payment is recorded only where its intent has no row yet. -/
theorem intentsUnique_effect {s : PaymentSystem} {e : PaymentEvent} {db' : Db}
    (h : PaymentEffect env s e db') (hs : IntentsUnique s.db) : IntentsUnique db' := by
  have hrows : Table.AtMostOne isIntent s.db.payments := hs
  cases h with
  | same => exact hs
  | call c hcall =>
    intro paymentIntentId
    rw [call_payments hcall]
    exact hs paymentIntentId
  | recorded now i o paymentIntentId hthread hnew =>
    exact hrows.insert isIntent_separates (by simp [isIntent, pendingPayment]) hnew
  | settled now i t args granted db' hthread hargs h =>
    cases h with
    | unchanged => exact hs
    | failed row =>
      apply hrows.patch
      exact fun _ _ => rfl
    | succeeded row =>
      apply hrows.patch
      exact fun _ _ => rfl

/-! ### What a run of the job has left to do -/

/-- The intents that a run of the job still has to check, the current one first. -/
def PaymentThread.toCheck : PaymentThread → List String
  | .awaitRetrieve paymentIntentId (.reconcilePending rest) => paymentIntentId :: rest
  | .settleChecked args _ (.reconcilePending rest) => args.paymentIntentId :: rest
  | _ => []

/-- No run of the job is in flight. -/
def PaymentSystem.Reconciled (s : PaymentSystem) : Prop := ∀ t ∈ s.threads, t.toCheck = []

/-- Wire's body reports the payment as succeeded, with its amount and its currency. -/
def WireIntent.isPaid (p : Payment) (body : WireIntent) : Bool :=
  body.id = .string p.paymentIntentId && body.status = .string "succeeded" &&
    body.amount = .number p.amountMinor && body.currency = .string p.currency

/-- The settlement that such a body leads to. -/
def Payment.paidArgs (p : Payment) : SettleArgs :=
  ⟨p.paymentIntentId, .succeeded, p.amountMinor, p.currency⟩

def PaymentThread.asksAbout (paymentIntentId : String) : PaymentThread → Bool
  | .awaitRetrieve asked _ => asked = paymentIntentId
  | _ => false

/-- Wire answers a request about the payment's intent with that intent, and reports it as paid
whenever it speaks of it. Its other answers are free. -/
def AnswersPaid (p : Payment) (s : PaymentSystem) : PaymentEvent → Prop
  | .answer i response =>
      (∀ body, response = .ok body → body.id = .string p.paymentIntentId → body.isPaid p = true) ∧
      ((s.threads[i]?.any fun t => t.asksAbout p.paymentIntentId) = true →
        ∃ body, response = .ok body ∧ body.id = .string p.paymentIntentId)
  | _ => True

theorem settleArgs_of_paid {p : Payment} {body : WireIntent} (h : body.isPaid p = true) :
    settlementOf body.status = some .succeeded ∧
      settleArgs p.paymentIntentId .succeeded body = some p.paidArgs := by
  simp only [WireIntent.isPaid, Bool.and_eq_true, decide_eq_true_eq] at h
  obtain ⟨⟨⟨-, hstatus⟩, hamount⟩, hcurrency⟩ := h
  constructor
  · rw [hstatus]
    rfl
  · simp only [settleArgs, hamount, hcurrency]
    rfl

/-- The job goes on with the next intent. -/
theorem reconcileNext_toCheck (hkey : env.wireKey.isSome = true) (rest : List String) :
    (∃ t, (reconcileNext env rest).2 = some t ∧ t.toCheck = rest) ∨
      rest = [] ∧ (reconcileNext env rest).2 = none := by
  cases rest with
  | nil => exact Or.inr ⟨rfl, rfl⟩
  | cons paymentIntentId rest =>
    refine Or.inl ⟨.awaitRetrieve paymentIntentId (.reconcilePending rest), ?_, rfl⟩
    simp only [reconcileNext, hkey, if_true]

/-- A check by the job that fails or returns goes on with the next intent. -/
theorem mem_toCheck_next (hkey : env.wireKey.isSome = true) {rest : List String} {id : String}
    (hid : id ∈ rest) : ∃ t, (reconcileNext env rest).2 = some t ∧ id ∈ t.toCheck := by
  rcases reconcileNext_toCheck hkey rest with ⟨t, ht, htc⟩ | ⟨rfl, -⟩
  · exact ⟨t, ht, by rw [htc]; exact hid⟩
  · cases hid

/-- An answer to the job keeps an intent on its list, and one about the intent itself leads to
its settlement. -/
theorem answer_toCheck (hkey : env.wireKey.isSome = true) {p : Payment} {s : PaymentSystem}
    {i : ℕ} {t : PaymentThread} {response : WireResponse} (hthread : s.threads[i]? = some t)
    (hpaid : AnswersPaid p s (.answer i response)) (ht : p.paymentIntentId ∈ t.toCheck) :
    ∃ t', (answerAction env response t).2 = some t' ∧ p.paymentIntentId ∈ t'.toCheck := by
  obtain ⟨hbody, hasked⟩ := hpaid
  cases t with
  | awaitRetrieve asked check =>
    cases check with
    | reconcilePending rest =>
      by_cases hcurrent : asked = p.paymentIntentId
      · obtain ⟨body, rfl, hid⟩ := hasked (by simp [hthread, PaymentThread.asksAbout, hcurrent])
        obtain ⟨hstatus, hargs⟩ := settleArgs_of_paid (hbody body rfl hid)
        subst hcurrent
        refine ⟨.settleChecked p.paidArgs body.status (.reconcilePending rest), ?_, ?_⟩
        · simp only [answerAction, wireRequest, retrieveAnswered, hid, ne_eq, not_true_eq_false,
            if_false, hstatus, hargs]
        · simp [PaymentThread.toCheck, Payment.paidArgs]
      · have hrest : p.paymentIntentId ∈ rest := by
          rcases List.mem_cons.mp ht with heq | hmem
          · exact absurd heq.symm hcurrent
          · exact hmem
        have hnext := mem_toCheck_next hkey hrest
        simp only [answerAction, retrieveAnswered]
        split
        · exact hnext
        · split_ifs
          · exact hnext
          · split
            · exact hnext
            · split
              · exact ⟨_, rfl, List.mem_cons_of_mem _ hrest⟩
              · exact hnext
    | refreshPayment => cases ht
    | settleFromWebhook => cases ht
  | settleChecked args status check =>
    refine ⟨.settleChecked args status check, rfl, ht⟩
  | _ => cases ht

/-! ### What a step does to one payment -/

/-- A new expiry is a full duration after the old one and after the settlement. -/
theorem le_extendedExpiry {user : User} (hpaired : user.planExpiresAt.isSome → user.plan.isSome)
    (now : ℕ) : now + PLAN_DURATION_MS ≤ extendedExpiry user now ∧
      ∀ expiry, user.planExpiresAt = some expiry →
        expiry + PLAN_DURATION_MS ≤ extendedExpiry user now := by
  rw [extendedExpiry_eq hpaired]
  refine ⟨Nat.add_le_add_right (le_max_right _ _) _, fun expiry hexpiry => ?_⟩
  rw [hexpiry, Option.getD_some]
  exact Nat.add_le_add_right (le_max_left _ _) _

theorem row_of_unique {db : Db} {paymentIntentId : String} {row : Doc Payment} {p : Payment}
    (hrow : db.payments.unique (isIntent paymentIntentId) = .one row)
    (hp : db.payments.get row.id = some p) : row.val = p ∧ paymentIntentId = p.paymentIntentId := by
  rw [Table.get_of_unique hrow] at hp
  obtain rfl := Option.some.inj hp
  exact ⟨rfl, (intent_of_unique hrow).symm⟩

/-- A step moves a payment's row only by a settlement of its intent. -/
theorem effect_row {s : PaymentSystem} {e : PaymentEvent} {db' : Db}
    (h : PaymentEffect env s e db') {i : ℕ} {p : Payment} (hp : s.db.payments.get i = some p) :
    db'.payments.get i = some p ∨
      p.status = .pending ∧ ∃ t ∈ s.threads, ∃ args, t.settles = some args ∧
        args.paymentIntentId = p.paymentIntentId ∧ (args.status = .failed ∨
          ∃ now user, db'.payments.get i = some (p.succeed now) ∧
            s.db.users.get p.userId = some user ∧
            db'.users = s.db.users.patch p.userId (extendPlan now p.plan user)) := by
  cases h with
  | same => exact Or.inl hp
  | call c hcall =>
    rw [call_payments hcall]
    exact Or.inl hp
  | recorded => exact Or.inl (Table.get_insert_of_some hp)
  | settled now j t args granted db' hthread hargs h =>
    have hmem := List.mem_of_getElem? hthread
    cases h with
    | unchanged => exact Or.inl hp
    | failed row hrow hpending hstatus =>
      by_cases hi : i = row.id
      · subst hi
        obtain ⟨rfl, hintent⟩ := row_of_unique hrow hp
        exact Or.inr ⟨hpending, t, hmem, args, hargs, hintent, Or.inl hstatus⟩
      · exact Or.inl (by rw [Table.get_patch_of_ne _ hi]; exact hp)
    | succeeded row user hrow hpending hstatus hamount hcurrency huser =>
      by_cases hi : i = row.id
      · subst hi
        obtain ⟨rfl, hintent⟩ := row_of_unique hrow hp
        refine Or.inr ⟨hpending, t, hmem, args, hargs, hintent,
          Or.inr ⟨now, user, ?_, huser, rfl⟩⟩
        rw [Table.get_patch_self, hp]
        rfl
      · exact Or.inl (by rw [Table.get_patch_of_ne _ hi]; exact hp)

/-- No step takes an account away. -/
theorem effect_user {s : PaymentSystem} {e : PaymentEvent} {db' : Db}
    (h : PaymentEffect env s e db') {userId : ℕ} (hu : (s.db.users.get userId).isSome = true) :
    (db'.users.get userId).isSome = true := by
  cases h with
  | same => exact hu
  | call c hcall =>
    obtain ⟨u, hget⟩ := Option.isSome_iff_exists.mp hu
    obtain ⟨u', hu', -⟩ := (run_users env s.db c).get_some hget
    rw [hu']
    rfl
  | recorded => exact hu
  | settled now j t args granted db' hthread hargs h =>
    cases h with
    | unchanged => exact hu
    | failed => exact hu
    | succeeded row user hrow hpending hstatus hamount hcurrency huser =>
      show ((s.db.users.patch row.val.userId _).get userId).isSome = true
      rw [Table.get_patch]
      split_ifs
      · rw [Option.isSome_map]
        exact hu
      · exact hu

/-- No step takes back an expiry. -/
theorem effect_expiry {s : PaymentSystem} {e : PaymentEvent} {db' : Db}
    (h : PaymentEffect env s e db') (hpaired : PlansPaired s.db) {userId expiry : ℕ}
    (hexpiry : planExpiry s.db userId = some expiry) :
    ∃ expiry', planExpiry db' userId = some expiry' ∧ expiry ≤ expiry' := by
  cases h with
  | same => exact ⟨expiry, hexpiry, le_rfl⟩
  | call c hcall => exact ⟨expiry, by rw [planExpiry_call hcall, hexpiry], le_rfl⟩
  | recorded => exact ⟨expiry, hexpiry, le_rfl⟩
  | settled now j t args granted db' hthread hargs h =>
    cases h with
    | unchanged => exact ⟨expiry, hexpiry, le_rfl⟩
    | failed => exact ⟨expiry, hexpiry, le_rfl⟩
    | succeeded row user hrow hpending hstatus hamount hcurrency huser =>
      by_cases hu : userId = row.val.userId
      · subst hu
        have hold : user.planExpiresAt = some expiry := (planExpiry_of_get huser).symm.trans hexpiry
        have hlater := (le_extendedExpiry (hpaired _ user huser) now).2 expiry hold
        exact ⟨extendedExpiry user now, planExpiry_extended rfl huser, by omega⟩
      · exact ⟨expiry, (planExpiry_unextended rfl hu).trans hexpiry, le_rfl⟩

/-! ### The payment during a run of the job -/

/-- The user's plan runs for a full duration from the payment on, and was extended by a full
duration if it had an expiry. -/
def Extended (before after : Db) (p : Payment) : Prop :=
  ∃ paid expiry, p.paidAt = some paid ∧ planExpiry after p.userId = some expiry ∧
    paid + PLAN_DURATION_MS ≤ expiry ∧
    ∀ old, planExpiry before p.userId = some old → old + PLAN_DURATION_MS ≤ expiry

/-- The row of a payment that Wire reports as paid: pending as it was, or succeeded with its
user's plan extended. -/
def PaidRow (before after : Db) (i : ℕ) (p : Payment) : Prop :=
  after.payments.get i = some p ∨
    ∃ now, after.payments.get i = some (p.succeed now) ∧ Extended before after (p.succeed now)

/-- What holds of a payment from the state `s₀` on, while Wire reports it as paid. -/
structure Reconciling (s₀ s : PaymentSystem) (i : ℕ) (p : Payment) : Prop where
  paired : PlansPaired s.db
  unique : IntentsUnique s.db
  user : (s.db.users.get p.userId).isSome = true
  grown : ∀ old, planExpiry s₀.db p.userId = some old →
    ∃ expiry, planExpiry s.db p.userId = some expiry ∧ old ≤ expiry
  agrees : ∀ t ∈ s.threads, ∀ args, t.settles = some args →
    args.paymentIntentId = p.paymentIntentId → args = p.paidArgs
  row : PaidRow s₀.db s.db i p

theorem Reconciling.agrees_step {s₀ s : PaymentSystem} {i : ℕ} {p : Payment}
    (h : Reconciling s₀ s i p) {e : PaymentEvent} (hpaid : AnswersPaid p s e)
    {t : PaymentThread} (ht : t ∈ (s.step env e).2.threads) {args : SettleArgs}
    (hargs : t.settles = some args) (hintent : args.paymentIntentId = p.paymentIntentId) :
    args = p.paidArgs := by
  rcases settles_step ht hargs with hmem | ⟨j, u, body, hthread, hwaiting, hreports⟩
  · exact h.agrees t hmem args hargs hintent
  · have hid : body.id = .string p.paymentIntentId := by rw [hreports.id, hintent]
    have hbody := hpaid.1 body rfl hid
    obtain ⟨hstatus, -⟩ := settleArgs_of_paid hbody
    simp only [WireIntent.isPaid, Bool.and_eq_true, decide_eq_true_eq] at hbody
    obtain ⟨⟨-, hamount⟩, hcurrency⟩ := hbody
    obtain ⟨intent, status, amount, currency⟩ := args
    have hs : some status = some .succeeded := hreports.status.symm.trans hstatus
    have ha : JsonValue.number amount = .number p.amountMinor := hreports.amount.symm.trans hamount
    have hc : JsonValue.string currency = .string p.currency :=
      hreports.currency.symm.trans hcurrency
    cases hs
    cases ha
    cases hc
    rw [Payment.paidArgs, ← hintent]

theorem Reconciling.row_step {s₀ s : PaymentSystem} {i : ℕ} {p : Payment}
    (h : Reconciling s₀ s i p) (e : PaymentEvent) :
    PaidRow s₀.db (s.step env e).2.db i p := by
  have heffect := step_effect env s e
  rcases h.row with hp | ⟨paidAt, hp, paid, expiry, hpaidAt, hexpiry, hfull, hgrown⟩
  · rcases effect_row heffect hp with hsame | ⟨-, t, hmem, args, hargs, hintent, hmoved⟩
    · exact Or.inl hsame
    · obtain rfl := h.agrees t hmem args hargs hintent
      rcases hmoved with hfailed | ⟨now, user, hrow, huser, husers⟩
      · cases hfailed
      · -- The settlement pays for a full duration after whatever was paid for before.
        obtain ⟨hnow, hold⟩ := le_extendedExpiry (h.paired _ user huser) now
        refine Or.inr ⟨now, hrow, now, extendedExpiry user now, rfl,
          planExpiry_extended husers huser, hnow, fun old hpast => ?_⟩
        obtain ⟨current, hcurrent, hle⟩ := h.grown old hpast
        rw [planExpiry_of_get huser] at hcurrent
        exact (Nat.add_le_add_right hle _).trans (hold current hcurrent)
  · rcases effect_row heffect hp with hsame | ⟨hpending, -⟩
    · obtain ⟨expiry', hexpiry', hle⟩ := effect_expiry heffect h.paired hexpiry
      exact Or.inr ⟨paidAt, hsame, paid, expiry', hpaidAt, hexpiry', hfull.trans hle,
        fun old hpast => (hgrown old hpast).trans hle⟩
    · cases hpending

theorem Reconciling.step {s₀ s : PaymentSystem} {i : ℕ} {p : Payment}
    (h : Reconciling s₀ s i p) {e : PaymentEvent} (hpaid : AnswersPaid p s e) :
    Reconciling s₀ (s.step env e).2 i p where
  paired := (effect_extension h.paired (step_effect env s e)).1
  unique := intentsUnique_effect (step_effect env s e) h.unique
  user := effect_user (step_effect env s e) h.user
  grown old hold := by
    obtain ⟨current, hcurrent, hle⟩ := h.grown old hold
    obtain ⟨expiry, hexpiry, hle'⟩ := effect_expiry (step_effect env s e) h.paired hcurrent
    exact ⟨expiry, hexpiry, hle.trans hle'⟩
  agrees _ ht _ hargs hintent := h.agrees_step hpaid ht hargs hintent
  row := h.row_step e

/-! ### The list of the job -/

theorem mem_put_other {s : PaymentSystem} {j k : ℕ} {q : Progress} {db : Db} {t : PaymentThread}
    (ht : s.threads[k]? = some t) (hjk : k ≠ j) : t ∈ (s.put j q db).2.threads := by
  simp only [PaymentSystem.put]
  split
  · refine List.mem_of_getElem? (?_ : _[k]? = some t)
    rw [List.getElem?_set_ne hjk.symm]
    exact ht
  · exact List.mem_eraseIdx_iff_getElem?.mpr ⟨k, hjk, ht⟩

theorem mem_put_self {s : PaymentSystem} {j : ℕ} {q : Progress} {db : Db} {t t' : PaymentThread}
    (ht : s.threads[j]? = some t) (hq : q.2 = some t') : t' ∈ (s.put j q db).2.threads := by
  simp only [PaymentSystem.put, hq]
  obtain ⟨hj, -⟩ := List.getElem?_eq_some_iff.mp ht
  exact List.mem_set hj t'

/-- What some action has, some action still has after a step of one that hands it on. -/
theorem mem_put_of_handed_on {s : PaymentSystem} {j : ℕ} {q : Progress} {db : Db}
    {u : PaymentThread} {P : PaymentThread → Prop} (h : ∃ t ∈ s.threads, P t)
    (hj : s.threads[j]? = some u) (hnext : P u → ∃ t', q.2 = some t' ∧ P t') :
    ∃ t ∈ (s.put j q db).2.threads, P t := by
  obtain ⟨t, hmem, ht⟩ := h
  obtain ⟨k, hk⟩ := List.mem_iff_getElem?.mp hmem
  by_cases hjk : k = j
  · subst hjk
    obtain rfl : t = u := Option.some.inj (hk.symm.trans hj)
    obtain ⟨t', hq, ht'⟩ := hnext ht
    exact ⟨t', mem_put_self hj hq, ht'⟩
  · exact ⟨t, mem_put_other hk hjk, ht⟩

/-- The settlement of a pending payment that is reported as paid goes through. -/
theorem settle_paid {db : Db} (hunique : IntentsUnique db) {i : ℕ} {p : Payment}
    (hp : db.payments.get i = some p) (hpending : p.status = .pending)
    (hu : (db.users.get p.userId).isSome = true) (now : ℕ) :
    ∃ db', settle now p.paidArgs db = .ok (true, db') ∧
      db'.payments.get i = some (p.succeed now) := by
  obtain ⟨user, huser⟩ := Option.isSome_iff_exists.mp hu
  have hone : db.payments.unique (isIntent p.paymentIntentId) = .one ⟨i, p⟩ := hunique.unique hp
  simp only [settle, hone, hpending, Payment.paidArgs, ne_eq, not_true_eq_false, or_self, if_false,
    huser]
  refine ⟨_, rfl, ?_⟩
  simp only [Table.get_patch_self, hp, Option.map_some]

/-- The job keeps a pending payment on its list until it settles it. -/
theorem resume_toCheck (hkey : env.wireKey.isSome = true) {s₀ s : PaymentSystem} {i : ℕ}
    {p : Payment} (h : Reconciling s₀ s i p) (hpending : p.status = .pending)
    (hp : s.db.payments.get i = some p) {now : ℕ} {t : PaymentThread} (hmem : t ∈ s.threads)
    (ht : p.paymentIntentId ∈ t.toCheck) :
    (∃ now', (resumeAction env now s.db t).2.payments.get i = some (p.succeed now')) ∨
      ∃ t', (resumeAction env now s.db t).1.2 = some t' ∧ p.paymentIntentId ∈ t'.toCheck := by
  cases t with
  | awaitRetrieve asked check => exact Or.inr ⟨_, rfl, ht⟩
  | settleChecked args status check =>
    cases check with
    | reconcilePending rest =>
      by_cases hcurrent : args.paymentIntentId = p.paymentIntentId
      · obtain rfl := h.agrees _ hmem args rfl hcurrent
        obtain ⟨db', hok, hrow⟩ := settle_paid h.unique hp hpending h.user now
        refine Or.inl ⟨now, ?_⟩
        simp only [resumeAction, hok]
        exact hrow
      · have hrest : p.paymentIntentId ∈ rest := by
          rcases List.mem_cons.mp ht with heq | hmem
          · exact absurd heq.symm hcurrent
          · exact hmem
        refine Or.inr ?_
        simp only [resumeAction]
        split <;> exact mem_toCheck_next hkey hrest
    | refreshPayment => cases ht
    | settleFromWebhook => cases ht
  | _ => cases ht

/-- A pending payment on the list of a run of the job is settled or still on it after a step. -/
theorem listed_step (hkey : env.wireKey.isSome = true) {s₀ s : PaymentSystem} {i : ℕ}
    {p : Payment} (h : Reconciling s₀ s i p) (hpending : p.status = .pending) {e : PaymentEvent}
    (hpaid : AnswersPaid p s e)
    (hlisted : s.db.payments.get i = some p → ∃ t ∈ s.threads, p.paymentIntentId ∈ t.toCheck)
    (hp' : (s.step env e).2.db.payments.get i = some p) :
    ∃ t ∈ (s.step env e).2.threads, p.paymentIntentId ∈ t.toCheck := by
  have hp : s.db.payments.get i = some p := by
    rcases h.row with hp | ⟨now, hp, -⟩
    · exact hp
    · rcases effect_row (step_effect env s e) hp with hsame | ⟨hpending', -⟩
      · rw [hsame] at hp'
        rw [← Option.some.inj hp'] at hpending
        cases hpending
      · cases hpending'
  have hnow := hlisted hp
  obtain ⟨t, hmem, ht⟩ := id hnow
  cases e with
  | call c =>
    simp only [PaymentSystem.step]
    split_ifs <;> exact hnow
  | startCheckout => exact ⟨t, List.mem_append_left _ hmem, ht⟩
  | refreshPayment => exact ⟨t, List.mem_append_left _ hmem, ht⟩
  | settleFromWebhook => exact ⟨t, List.mem_append_left _ hmem, ht⟩
  | reconcilePending => exact ⟨t, List.mem_append_left _ hmem, ht⟩
  | resume now j =>
    simp only [PaymentSystem.step] at hp' ⊢
    cases hj : s.threads[j]? with
    | none => exact hnow
    | some u =>
      rw [hj] at hp'
      apply mem_put_of_handed_on hnow hj
      intro hu
      rcases resume_toCheck hkey h hpending hp (List.mem_of_getElem? hj) hu with
        ⟨now', hrow⟩ | hnext
      · have hsame : some (p.succeed now') = some p := hrow.symm.trans hp'
        rw [← Option.some.inj hsame] at hpending
        cases hpending
      · exact hnext
  | answer j response =>
    simp only [PaymentSystem.step]
    cases hj : s.threads[j]? with
    | none => exact hnow
    | some u => exact mem_put_of_handed_on hnow hj (answer_toCheck hkey hj hpaid)

/-! ### Complete runs of the job -/

/-- A pending payment whose user exists, before a run of the job, with no settlement in flight
that says otherwise than paid. -/
structure Reconcilable (s : PaymentSystem) (i : ℕ) (p : Payment) : Prop where
  stored : s.db.payments.get i = some p
  pending : p.status = .pending
  user : (s.db.users.get p.userId).isSome = true
  idle : s.Reconciled
  agrees : ∀ t ∈ s.threads, ∀ args, t.settles = some args →
    args.paymentIntentId = p.paymentIntentId → args = p.paidArgs

theorem Reconcilable.start {s : PaymentSystem} {i : ℕ} {p : Payment} (h : Reconcilable s i p)
    (hpaired : PlansPaired s.db) (hunique : IntentsUnique s.db) : Reconciling s s i p where
  paired := hpaired
  unique := hunique
  user := h.user
  grown old hold := ⟨old, hold, le_rfl⟩
  agrees := h.agrees
  row := Or.inl h.stored

/-- A run of the job settles a payment that its batch has. -/
theorem settled_of_batch (hkey : env.wireKey.isSome = true) {s : PaymentSystem} {i : ℕ}
    {p : Payment} (h : Reconcilable s i p) (hpaired : PlansPaired s.db)
    (hunique : IntentsUnique s.db) (hbatch : newerPending s.db ⟨i, p⟩ < 100)
    {es : List PaymentEvent}
    (hpaid : Runs.Guarded (PaymentSystem.step env) (AnswersPaid p) s (.reconcilePending :: es))
    (hdone : (Runs.final (PaymentSystem.step env) s (.reconcilePending :: es)).Reconciled) :
    ∃ now, (Runs.final (PaymentSystem.step env) s (.reconcilePending :: es)).db.payments.get i =
        some (p.succeed now) ∧
      Extended s.db (Runs.final (PaymentSystem.step env) s (.reconcilePending :: es)).db
        (p.succeed now) := by
  let s₁ := Runs.next (PaymentSystem.step env) s .reconcilePending
  have hstart : Reconciling s s₁ i p := (h.start hpaired hunique).step hpaid.1
  have hlisted : ∃ t ∈ s₁.threads, p.paymentIntentId ∈ t.toCheck := by
    have hmem : (⟨i, p⟩ : Doc Payment) ∈ pendingPayments s.db :=
      mem_pendingPayments.mpr ⟨Table.get_eq_some.mp h.stored, h.pending, hbatch⟩
    have hintent : p.paymentIntentId ∈
        (pendingPayments s.db).map fun d => d.val.paymentIntentId :=
      List.mem_map.mpr ⟨⟨i, p⟩, hmem, rfl⟩
    obtain ⟨t, ht, htc⟩ := mem_toCheck_next hkey hintent
    refine ⟨t, List.mem_append_right _ ?_, htc⟩
    rw [ht]
    simp
  obtain ⟨hlast, hleft⟩ := hpaid.2.final_induction (PaymentSystem.step env)
    (P := fun s' => Reconciling s s' i p ∧
      (s'.db.payments.get i = some p → ∃ t ∈ s'.threads, p.paymentIntentId ∈ t.toCheck))
    ⟨hstart, fun _ => hlisted⟩
    fun s' e hC hP => ⟨hP.1.step hC, listed_step hkey hP.1 h.pending hC hP.2⟩
  rcases hlast.row with hstill | hsettled
  · obtain ⟨t, hmem, ht⟩ := hleft hstill
    rw [hdone t hmem] at ht
    cases ht
  · exact hsettled

/-- A body of Wire's that leaves a payment open. -/
def stillOpen (paymentIntentId : String) : WireResponse :=
  .ok ⟨.string paymentIntentId, .string "processing", .missing, .missing, "null"⟩

/-- The last action in flight goes on, or ends. -/
theorem put_last (db : Db) (ts : List PaymentThread) (t : PaymentThread) (q : Progress) :
    ((⟨db, ts ++ [t]⟩ : PaymentSystem).put ts.length q db).2 = ⟨db, ts ++ q.2.toList⟩ := by
  obtain ⟨reply, next⟩ := q
  cases next with
  | none => simp [PaymentSystem.put, List.eraseIdx_append_of_length_le]
  | some t' => simp [PaymentSystem.put, List.set_append_right]

/-- The job run to its end, on intents that are all still open. -/
theorem reconcile_open (hkey : env.wireKey.isSome = true) (p : Payment) (db : Db)
    (ts : List PaymentThread) {ids : List String} (hids : p.paymentIntentId ∉ ids) :
    let s : PaymentSystem := ⟨db, ts ++ (reconcileNext env ids).2.toList⟩
    let es := ids.map fun id => PaymentEvent.answer ts.length (stillOpen id)
    Runs.Guarded (PaymentSystem.step env) (AnswersPaid p) s es ∧
      Runs.final (PaymentSystem.step env) s es = ⟨db, ts⟩ := by
  induction ids with
  | nil => exact ⟨trivial, by simp [reconcileNext]⟩
  | cons id rest ih =>
    obtain ⟨hid, hrest⟩ := not_or.mp (mt List.mem_cons.mpr hids)
    obtain ⟨hguarded, hfinal⟩ := ih hrest
    let t : PaymentThread := .awaitRetrieve id (.reconcilePending rest)
    have hnext : (reconcileNext env (id :: rest)).2.toList = [t] := by
      simp only [reconcileNext, hkey, if_true]
      rfl
    have hthread : (ts ++ [t])[ts.length]? = some t := by simp
    have hanswer : answerAction env (stillOpen id) t = reconcileNext env rest := by
      simp [t, answerAction, retrieveAnswered, stillOpen, wireRequest, settlementOf, Check.return]
    have hstep : Runs.next (PaymentSystem.step env) ⟨db, ts ++ [t]⟩
        (.answer ts.length (stillOpen id)) = ⟨db, ts ++ (reconcileNext env rest).2.toList⟩ := by
      simp only [Runs.next, PaymentSystem.step, hthread, hanswer]
      exact put_last db ts t _
    simp only [hnext, List.map_cons, Runs.guarded_cons, Runs.final_cons, hstep]
    refine ⟨⟨⟨?_, ?_⟩, hguarded⟩, hfinal⟩
    · rintro body hbody hsame
      cases hbody
      exact absurd (JsonValue.string.inj hsame).symm hid
    · intro hasks
      simp only [hthread, t, Option.any_some, PaymentThread.asksAbout, decide_eq_true_eq] at hasks
      exact absurd hasks.symm hid

theorem reconcileNext_of_no_key (hkey : env.wireKey.isSome = false) (ids : List String) :
    reconcileNext env ids = (.reconciled, none) := by
  induction ids with
  | nil => rfl
  | cons id rest ih => simp only [reconcileNext, hkey, Bool.false_eq_true, if_false, ih]

/-- A run of the job that passes a payment over may end with everything as it was. -/
theorem run_passing_over (hkey : env.wireKey.isSome = true) {s : PaymentSystem} {p : Payment}
    (hids : p.paymentIntentId ∉ (pendingPayments s.db).map fun d => d.val.paymentIntentId) :
    ∃ es, Runs.Guarded (PaymentSystem.step env) (AnswersPaid p) s (.reconcilePending :: es) ∧
      Runs.final (PaymentSystem.step env) s (.reconcilePending :: es) = s := by
  obtain ⟨hguarded, hfinal⟩ := reconcile_open hkey p s.db s.threads hids
  exact ⟨_, ⟨trivial, hguarded⟩, hfinal⟩

/-- Where the batch does not have a payment, or Wire cannot be asked, a run of the job may end
with the payment as it was. -/
theorem unsettled_run {s : PaymentSystem} {i : ℕ} {p : Payment} (h : Reconcilable s i p)
    (hunique : IntentsUnique s.db)
    (hno : ¬ (env.wireKey.isSome = true ∧ newerPending s.db ⟨i, p⟩ < 100)) :
    ∃ es, Runs.Guarded (PaymentSystem.step env) (AnswersPaid p) s (.reconcilePending :: es) ∧
      Runs.final (PaymentSystem.step env) s (.reconcilePending :: es) = s := by
  let ids := (pendingPayments s.db).map fun d => d.val.paymentIntentId
  cases hkey : env.wireKey.isSome with
  | false =>
    refine ⟨[], ⟨trivial, trivial⟩, ?_⟩
    show (s.start (reconcileNext env ids)).2 = s
    rw [reconcileNext_of_no_key hkey]
    simp [PaymentSystem.start]
  | true =>
    have hids : p.paymentIntentId ∉ ids := by
      intro hmem
      obtain ⟨d, hd, hintent⟩ := List.mem_map.mp hmem
      obtain ⟨hdocs, -, hrank⟩ := mem_pendingPayments.mp hd
      have hone := hunique.unique h.stored
      have htwo := hunique.unique (Table.get_of_mem hdocs)
      rw [hintent, hone] at htwo
      cases htwo
      exact hno ⟨hkey, hrank⟩
    exact run_passing_over hkey hids

/-- In every state that the deployment reaches, and for every pending payment whose user exists:
every complete run of the job during which Wire reports the payment as paid settles it and extends
its user's plan, whatever else happens, if and only if Wire's key is set and fewer than a hundred
pending payments are newer. -/
theorem reconcile_settles_iff (pre : List PaymentEvent) (i : ℕ) (p : Payment)
    (h : Reconcilable (Runs.final (PaymentSystem.step env) {} pre) i p) :
    let s := Runs.final (PaymentSystem.step env) {} pre
    (∀ es, Runs.Guarded (PaymentSystem.step env) (AnswersPaid p) s (.reconcilePending :: es) →
      (Runs.final (PaymentSystem.step env) s (.reconcilePending :: es)).Reconciled →
      ∃ now,
        (Runs.final (PaymentSystem.step env) s (.reconcilePending :: es)).db.payments.get i =
          some (p.succeed now) ∧
        Extended s.db (Runs.final (PaymentSystem.step env) s (.reconcilePending :: es)).db
          (p.succeed now)) ↔
      env.wireKey.isSome = true ∧ newerPending s.db ⟨i, p⟩ < 100 := by
  intro s
  have hinv : PlansPaired s.db ∧ IntentsUnique s.db := by
    apply Runs.final_induction (PaymentSystem.step env)
      (P := fun s => PlansPaired s.db ∧ IntentsUnique s.db)
    · refine ⟨plansPaired_empty, fun _ => ?_⟩
      exact Nat.zero_le _
    · rintro s e ⟨hpaired, hunique⟩
      have heffect := step_effect env s e
      exact ⟨(effect_extension hpaired heffect).1, intentsUnique_effect heffect hunique⟩
  obtain ⟨hpaired, hunique⟩ := hinv
  constructor
  · intro hall
    by_contra hno
    obtain ⟨es, hguarded, hfinal⟩ := unsettled_run h hunique hno
    obtain ⟨now, hrow, -⟩ := hall es hguarded (by rw [hfinal]; exact h.idle)
    rw [hfinal, h.stored] at hrow
    have hpending := h.pending
    rw [Option.some.inj hrow] at hpending
    cases hpending
  · rintro ⟨hkey, hbatch⟩ es hguarded hdone
    exact settled_of_batch hkey h hpaired hunique hbatch hguarded hdone

/-- The tests' environment with a Wire key. -/
def wireEnv : ProcessEnv :=
  { testEnv with ENVIRONMENT := some "test", WIREPAYMENT_SECRET_KEY := some "sk_test_example" }

/-- The `k`-th checkout of the one developer, still open at Wire. -/
def openPayment (k : ℕ) : Payment where
  userId := 0
  plan := .starter
  paymentIntentId := "pi_" ++ toString k
  amountMinor := PLAN_WIRE_AMOUNT
  currency := "MNT"
  status := .pending
  createdAt := k + 1
  paidAt := none

/-- The signed-in developer starts a checkout and leaves it open. -/
def oneOpenCheckout : List PaymentEvent :=
  let intent : WireResponse := .ok
    ⟨.string "pi_0", .string "requires_action", .number PLAN_WIRE_AMOUNT, .string "MNT", "null"⟩
  [.call ⟨0, .signUp "dev@example.com"⟩, .call ⟨0, .signIn 0 1000000⟩,
    .startCheckout 1 ⟨some 0, some 0⟩ .starter "4b52e335-f398-4f3e-8887-179130740572",
    .resume 1 0, .answer 0 intent, .resume 1 0, .answer 0 intent]

theorem reconcile_settles_one_open_checkout :
    let s := Runs.final (PaymentSystem.step wireEnv) {} oneOpenCheckout
    ∀ es, Runs.Guarded (PaymentSystem.step wireEnv) (AnswersPaid (openPayment 0)) s
        (.reconcilePending :: es) →
      (Runs.final (PaymentSystem.step wireEnv) s (.reconcilePending :: es)).Reconciled →
      ∃ now,
        (Runs.final (PaymentSystem.step wireEnv) s (.reconcilePending :: es)).db.payments.get 0 =
          some ((openPayment 0).succeed now) ∧
        Extended s.db (Runs.final (PaymentSystem.step wireEnv) s (.reconcilePending :: es)).db
          ((openPayment 0).succeed now) := by
  have hthreads : (Runs.final (PaymentSystem.step wireEnv) {} oneOpenCheckout).threads = [] := by
    decide +kernel
  have h : Reconcilable (Runs.final (PaymentSystem.step wireEnv) {} oneOpenCheckout) 0
      (openPayment 0) := by
    refine ⟨by decide +kernel, rfl, by decide +kernel, fun t ht => ?_, fun t ht => ?_⟩ <;>
      rw [hthreads] at ht <;> cases ht
  exact (reconcile_settles_iff oneOpenCheckout 0 (openPayment 0) h).mpr
    ⟨by decide +kernel, by decide +kernel⟩

/-- A hundred and one open checkouts of one developer. -/
def crowded : PaymentSystem where
  db := {
    users := Table.empty.insert { email := some "dev@example.com" }
    payments := (List.range 101).foldl (fun t k => t.insert (openPayment k)) Table.empty }

/-- Wire reports the oldest checkout as paid whenever it is asked, and the job never asks. -/
theorem oldest_of_hundred_and_one_unsettled :
    ¬ ∀ es, Runs.Guarded (PaymentSystem.step wireEnv) (AnswersPaid (openPayment 0)) crowded
        (.reconcilePending :: es) →
      (Runs.final (PaymentSystem.step wireEnv) crowded (.reconcilePending :: es)).Reconciled →
      ∃ now,
        (Runs.final (PaymentSystem.step wireEnv) crowded (.reconcilePending :: es)).db.payments.get
          0 = some ((openPayment 0).succeed now) := by
  have hids : (openPayment 0).paymentIntentId ∉
      (pendingPayments crowded.db).map fun d => d.val.paymentIntentId := by
    decide +kernel
  have hthreads : crowded.threads = [] := rfl
  have hpending : crowded.db.payments.get 0 = some (openPayment 0) := by decide +kernel
  intro hall
  obtain ⟨es, hguarded, hfinal⟩ := @run_passing_over wireEnv (by decide) crowded _ hids
  obtain ⟨now, hrow⟩ := hall es hguarded (by rw [hfinal]; exact fun t ht => nomatch hthreads ▸ ht)
  rw [hfinal, hpending] at hrow
  cases hrow

end GeoPlatform.Convex
