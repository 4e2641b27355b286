import GeoPlatform.Convex.TenantWrites

/-! The payment actions with the user each runs for. A settlement names no user, so that it is one
of its user's payments is an invariant of the whole run. -/
namespace GeoPlatform.Convex
open Docs

variable {env : ProcessEnv} {A B : ℕ}

/-- An action in flight and the user whose call it is; the webhook and the reconciliation are
nobody's. -/
structure TenantAction where
  runner : Option ℕ
  thread : PaymentThread
  deriving DecidableEq

structure TenantPayments where
  db : Db := {}
  actions : List TenantAction := []

namespace TenantPayments

/-- The payment system, without the users. -/
def forget (s : TenantPayments) : PaymentSystem := ⟨s.db, s.actions.map TenantAction.thread⟩

def start (s : TenantPayments) (runner : Option ℕ) (p : Progress) : PaymentReply × TenantPayments :=
  (p.1, { s with actions := s.actions ++ (p.2.map (TenantAction.mk runner)).toList })

def put (s : TenantPayments) (i : ℕ) (a : TenantAction) (p : Progress) (db : Db) :
    PaymentReply × TenantPayments :=
  (p.1, { db, actions :=
    match p.2 with
    | some t => s.actions.set i { a with thread := t }
    | none => s.actions.eraseIdx i })

def step (env : ProcessEnv) (s : TenantPayments) : PaymentEvent → PaymentReply × TenantPayments
  | .call c =>
      if c.txn.isPaymentStep then (.idle, s) else (.idle, { s with db := (c.run env s.db).2 })
  | .startCheckout now caller plan requestId =>
      s.start (requireUserId s.db now caller).toOption
        (beginCheckout s.db now caller plan requestId)
  | .refreshPayment now caller paymentId =>
      s.start (requireUserId s.db now caller).toOption (beginRefresh s.db now caller paymentId)
  | .settleFromWebhook paymentIntentId =>
      s.start none (checkIntent env paymentIntentId .settleFromWebhook)
  | .reconcilePending =>
      s.start none
        (reconcileNext env ((pendingPayments s.db).map fun p => p.val.paymentIntentId))
  | .resume now i =>
      match s.actions[i]? with
      | none => (.idle, s)
      | some a =>
          s.put i a (resumeAction env now s.db a.thread).1 (resumeAction env now s.db a.thread).2
  | .answer i response =>
      match s.actions[i]? with
      | none => (.idle, s)
      | some a => s.put i a (answerAction env response a.thread) s.db

theorem forget_start (s : TenantPayments) (runner : Option ℕ) (p : Progress) :
    ((s.start runner p).1, (s.start runner p).2.forget) = s.forget.start p := by
  obtain ⟨reply, next⟩ := p
  cases next <;> simp [start, forget, PaymentSystem.start]

theorem forget_put (s : TenantPayments) (i : ℕ) (a : TenantAction) (p : Progress) (db : Db) :
    ((s.put i a p db).1, (s.put i a p db).2.forget) = s.forget.put i p db := by
  obtain ⟨reply, next⟩ := p
  cases next <;> simp [put, forget, PaymentSystem.put, List.map_set, List.eraseIdx_map]

theorem forget_thread {s : TenantPayments} {i : ℕ} {a : TenantAction}
    (h : s.actions[i]? = some a) : s.forget.threads[i]? = some a.thread := by
  simp only [forget, List.getElem?_map, h, Option.map_some]

theorem forget_step (s : TenantPayments) (e : PaymentEvent) :
    ((s.step env e).1, (s.step env e).2.forget) = s.forget.step env e := by
  cases e with
  | call c =>
    simp only [step, PaymentSystem.step]
    split_ifs <;> rfl
  | startCheckout now caller plan requestId => exact forget_start s _ _
  | refreshPayment now caller paymentId => exact forget_start s _ _
  | settleFromWebhook paymentIntentId => exact forget_start s _ _
  | reconcilePending => exact forget_start s _ _
  | resume now i =>
    simp only [step, PaymentSystem.step, forget, List.getElem?_map]
    cases s.actions[i]? with
    | none => rfl
    | some a => exact forget_put s i a _ _
  | answer i response =>
    simp only [step, PaymentSystem.step, forget, List.getElem?_map]
    cases s.actions[i]? with
    | none => rfl
    | some a => exact forget_put s i a _ _

/-- With the users left out, a run is a run of the payment system. -/
theorem forget_final (s : TenantPayments) (es : List PaymentEvent) :
    (Runs.final (step env) s es).forget = Runs.final (PaymentSystem.step env) s.forget es := by
  induction es generalizing s with
  | nil => rfl
  | cons e es ih =>
    have hnext : (Runs.next (step env) s e).forget =
        Runs.next (PaymentSystem.step env) s.forget e := congrArg Prod.snd (forget_step s e)
    rw [Runs.final_cons, Runs.final_cons, ih, hnext]

/-- The event is a step of `payments.ts` that runs for `A`. -/
inductive RunBy (s : TenantPayments) (A : ℕ) : PaymentEvent → Prop
  | activateFreeTier (now : ℕ) (caller : Caller) (hin : SignedIn s.db now caller A) :
      RunBy s A (.call ⟨now, .activateFreeTier caller⟩)
  | startCheckout (now : ℕ) (caller : Caller) (plan : PaidPlan) (requestId : String)
      (hin : SignedIn s.db now caller A) : RunBy s A (.startCheckout now caller plan requestId)
  | refreshPayment (now : ℕ) (caller : Caller) (paymentId : ℕ)
      (hin : SignedIn s.db now caller A) : RunBy s A (.refreshPayment now caller paymentId)
  | resume (now i : ℕ) (a : TenantAction) (haction : s.actions[i]? = some a)
      (hrunner : a.runner = some A) : RunBy s A (.resume now i)
  | answer (i : ℕ) (response : WireResponse) (a : TenantAction) (haction : s.actions[i]? = some a)
      (hrunner : a.runner = some A) : RunBy s A (.answer i response)

end TenantPayments

/-! ### The payments an action is about -/

/-- The action acts for `A`: it carries the user, or an intent of one of the user's payments. -/
def PaymentThread.RunsFor (db : Db) (A : ℕ) : PaymentThread → Prop
  | .userForCheckout o => o.userId = A
  | .awaitCreate o => o.userId = A
  | .recordPending o _ => o.userId = A
  | .awaitConfirm _ paymentIntentId _ => PaysFor db A paymentIntentId
  | .settleConfirmed args _ _ => PaysFor db A args.paymentIntentId
  | .paymentById userId _ => userId = A
  | .awaitRetrieve paymentIntentId check => check = .refreshPayment ∧ PaysFor db A paymentIntentId
  | .settleChecked args _ check => check = .refreshPayment ∧ PaysFor db A args.paymentIntentId

theorem PaymentThread.RunsFor.mono {db db' : Db} {t : PaymentThread} (h : t.RunsFor db A)
    (hpays : ∀ paymentIntentId, PaysFor db A paymentIntentId → PaysFor db' A paymentIntentId) :
    t.RunsFor db' A := by
  cases t with
  | userForCheckout o => exact h
  | awaitCreate o => exact h
  | recordPending o paymentIntentId => exact h
  | awaitConfirm o paymentIntentId paymentId => exact hpays _ h
  | settleConfirmed args paymentId nextAction => exact hpays _ h
  | paymentById userId paymentId => exact h
  | awaitRetrieve paymentIntentId check => exact ⟨h.1, hpays _ h.2⟩
  | settleChecked args status check => exact ⟨h.1, hpays _ h.2⟩

theorem PaymentThread.RunsFor.settles {db : Db} {t : PaymentThread} (h : t.RunsFor db A)
    {args : SettleArgs} (hargs : t.settles = some args) : PaysFor db A args.paymentIntentId := by
  cases t with
  | settleConfirmed args paymentId nextAction =>
    cases hargs
    exact h
  | settleChecked args status check =>
    cases hargs
    exact h.2
  | _ => cases hargs

theorem paysFor_effect {s : PaymentSystem} {e : PaymentEvent} {db' : Db}
    (heffect : PaymentEffect env s e db') {paymentIntentId : String}
    (h : PaysFor s.db A paymentIntentId) : PaysFor db' A paymentIntentId := by
  obtain ⟨i, p, hp, hintent, howner⟩ := h
  obtain ⟨p', hp', hmove⟩ := effect_payments heffect hp
  exact ⟨i, p', hp', hmove.paymentIntentId.trans hintent, hmove.userId.trans howner⟩

theorem beginCheckout_runsFor {db : Db} {now : ℕ} {caller : Caller} {plan : PaidPlan}
    {requestId : String} {t : PaymentThread} (hin : SignedIn db now caller A)
    (h : (beginCheckout db now caller plan requestId).2 = some t) : t.RunsFor db A := by
  unfold SignedIn at hin
  simp only [beginCheckout, hin] at h
  split_ifs at h
  · cases h
  · cases h
    rfl

theorem beginRefresh_runsFor {db : Db} {now paymentId : ℕ} {caller : Caller} {t : PaymentThread}
    (hin : SignedIn db now caller A) (h : (beginRefresh db now caller paymentId).2 = some t) :
    t.RunsFor db A := by
  unfold SignedIn at hin
  simp only [beginRefresh, hin] at h
  cases h
  rfl

theorem createIntent_runsFor {db : Db} {o : Order} {t : PaymentThread} (ho : o.userId = A)
    (h : (createIntent env o).2 = some t) : t.RunsFor db A := by
  unfold createIntent at h
  split at h
  · cases h
  · split_ifs at h <;> cases h <;> exact ho

theorem checkIntent_runsFor {db : Db} {paymentIntentId : String} {t : PaymentThread}
    (hpays : PaysFor db A paymentIntentId)
    (h : (checkIntent env paymentIntentId .refreshPayment).2 = some t) : t.RunsFor db A := by
  unfold checkIntent at h
  split_ifs at h <;> cases h
  exact ⟨rfl, hpays⟩

/-- An action that goes on acts for the same user. -/
theorem resume_runsFor {now : ℕ} {db : Db} {t t' : PaymentThread} (ht : t.RunsFor db A)
    (h : (resumeAction env now db t).1.2 = some t') :
    t'.RunsFor (resumeAction env now db t).2 A := by
  cases t with
  | userForCheckout o =>
    simp only [resumeAction] at h ⊢
    split_ifs at h ⊢
    · cases h
    · exact createIntent_runsFor ht h
  | awaitCreate o =>
    cases h
    exact ht
  | recordPending o paymentIntentId =>
    have ho : o.userId = A := ht
    simp only [resumeAction] at h ⊢
    cases hrecord : recordPending now o.userId o.plan paymentIntentId db with
    | error e =>
      rw [hrecord] at h
      cases h
    | ok r =>
      rw [hrecord] at h
      cases h
      rcases recordPending_ok hrecord with ⟨row, hrow, -, howner, -, hdb⟩ | ⟨-, -, hdb⟩
      · exact ⟨row.id, row.val, by rw [hdb]; exact Table.get_of_unique hrow,
          intent_of_unique hrow, howner.trans ho⟩
      · exact ⟨_, _, by rw [hdb]; exact Table.get_insert_self _, rfl, ho⟩
  | awaitConfirm o paymentIntentId paymentId =>
    cases h
    exact ht
  | settleConfirmed args paymentId nextAction =>
    simp only [resumeAction] at h
    split at h <;> cases h
  | paymentById userId paymentId =>
    simp only [resumeAction] at h ⊢
    cases hget : db.payments.get paymentId with
    | none =>
      rw [hget] at h
      cases h
    | some payment =>
      simp only [hget] at h ⊢
      split_ifs at h ⊢ with howner hstatus
      · cases h
      · have hpays : PaysFor db A payment.paymentIntentId :=
          ⟨paymentId, payment, hget, rfl, (not_not.mp howner).trans ht⟩
        exact checkIntent_runsFor hpays h
  | awaitRetrieve paymentIntentId check =>
    cases h
    exact ht
  | settleChecked args status check =>
    obtain ⟨rfl, -⟩ := ht
    simp only [resumeAction] at h
    split at h <;> cases h

theorem answer_runsFor {db : Db} {response : WireResponse} {t t' : PaymentThread}
    (ht : t.RunsFor db A) (h : (answerAction env response t).2 = some t') : t'.RunsFor db A := by
  cases t with
  | awaitCreate o =>
    simp only [answerAction, createAnswered] at h
    split at h
    · split_ifs at h
    · cases h
    · split_ifs at h
      · cases h
      · split at h <;> cases h
        exact ht
  | awaitConfirm o paymentIntentId paymentId =>
    simp only [answerAction, confirmAnswered] at h
    split at h
    · cases h
    · split_ifs at h
      · cases h
      · split at h
        · rename_i args hargs
          cases h
          show PaysFor db A args.paymentIntentId
          rw [(settleArgs_some hargs).1]
          exact ht
        · cases h
  | awaitRetrieve paymentIntentId check =>
    obtain ⟨rfl, hpays⟩ := ht
    simp only [answerAction, retrieveAnswered] at h
    split at h
    · cases h
    · split_ifs at h
      · cases h
      · split at h
        · cases h
        · split at h
          · rename_i args hargs
            cases h
            refine ⟨rfl, ?_⟩
            rw [(settleArgs_some hargs).1]
            exact hpays
          · cases h
  | _ =>
    cases h
    exact ht

/-! ### Runs -/

/-- Every action in flight acts for the user it runs for. -/
def ActionsOwned (s : TenantPayments) : Prop :=
  ∀ a ∈ s.actions, ∀ A, a.runner = some A → a.thread.RunsFor s.db A

theorem signedIn_of_toOption {db : Db} {now : ℕ} {caller : Caller}
    (h : (requireUserId db now caller).toOption = some A) : SignedIn db now caller A := by
  unfold SignedIn
  cases hin : requireUserId db now caller with
  | error e =>
    rw [hin] at h
    cases h
  | ok userId =>
    rw [hin] at h
    cases h
    rfl

theorem ActionsOwned.start {s : TenantPayments} (h : ActionsOwned s) {runner : Option ℕ}
    {p : Progress} (hp : ∀ t A, p.2 = some t → runner = some A → t.RunsFor s.db A) :
    ActionsOwned (s.start runner p).2 := by
  intro a ha A hA
  rcases List.mem_append.mp ha with ha | ha
  · exact h a ha A hA
  · obtain ⟨t, ht, rfl⟩ := Option.map_eq_some_iff.mp (Option.mem_toList.mp ha)
    exact hp t A ht hA

theorem ActionsOwned.put {s : TenantPayments} (h : ActionsOwned s) {i : ℕ} {a : TenantAction}
    {p : Progress} {db : Db} (hp : ∀ t A, p.2 = some t → a.runner = some A → t.RunsFor db A)
    (hpays : ∀ A paymentIntentId, PaysFor s.db A paymentIntentId → PaysFor db A paymentIntentId) :
    ActionsOwned (s.put i a p db).2 := by
  intro b hb A hA
  simp only [TenantPayments.put] at hb
  split at hb
  · rename_i t ht
    rcases List.mem_or_eq_of_mem_set hb with hb | rfl
    · exact (h b hb A hA).mono (hpays A)
    · exact hp t A ht hA
  · exact (h b (List.mem_of_mem_eraseIdx hb) A hA).mono (hpays A)

theorem actionsOwned_step {s : TenantPayments} (h : ActionsOwned s) (e : PaymentEvent) :
    ActionsOwned (s.step env e).2 := by
  cases e with
  | call c =>
    simp only [TenantPayments.step]
    cases hcall : c.txn.isPaymentStep with
    | true => exact h
    | false =>
      have heffect : PaymentEffect env s.forget (.call c) (c.run env s.db).2 := .call c hcall
      intro a ha A hA
      exact (h a ha A hA).mono fun _ hpays => paysFor_effect heffect hpays
  | startCheckout now caller plan requestId =>
    apply h.start
    intro t A ht hA
    exact beginCheckout_runsFor (signedIn_of_toOption hA) ht
  | refreshPayment now caller paymentId =>
    apply h.start
    intro t A ht hA
    exact beginRefresh_runsFor (signedIn_of_toOption hA) ht
  | settleFromWebhook paymentIntentId =>
    apply h.start
    intro t A _ hA
    cases hA
  | reconcilePending =>
    apply h.start
    intro t A _ hA
    cases hA
  | resume now i =>
    simp only [TenantPayments.step]
    cases haction : s.actions[i]? with
    | none => exact h
    | some a =>
      have hthread := TenantPayments.forget_thread haction
      apply h.put
      · intro t A ht hA
        exact resume_runsFor (h a (List.mem_of_getElem? haction) A hA) ht
      · intro A paymentIntentId hpays
        exact paysFor_effect (resume_effect hthread now) hpays
  | answer i response =>
    simp only [TenantPayments.step]
    cases haction : s.actions[i]? with
    | none => exact h
    | some a =>
      apply h.put
      · intro t A ht hA
        exact answer_runsFor (h a (List.mem_of_getElem? haction) A hA) ht
      · exact fun _ _ hpays => hpays

theorem actionsOwned_final (db : Db) (es : List PaymentEvent) :
    ActionsOwned (Runs.final (TenantPayments.step env) ⟨db, []⟩ es) := by
  apply Runs.final_induction (TenantPayments.step env) (P := ActionsOwned)
  · intro a ha
    cases ha
  · exact fun s e h => actionsOwned_step h e

/-- A step of a payment action leaves everybody else's rows alone. -/
theorem payments_untouched {s : TenantPayments} (hs : ActionsOwned s) {e : PaymentEvent}
    (h : s.RunBy A e) (hB : B ≠ A) : Untouched B s.db (s.step env e).2.db := by
  cases h with
  | activateFreeTier now caller hin =>
    exact untouched_commit fun _ _ h => activateFreeTier_untouched hB hin h
  | startCheckout now caller plan requestId => exact Untouched.refl B s.db
  | refreshPayment now caller paymentId => exact Untouched.refl B s.db
  | answer i response a haction =>
    simp only [TenantPayments.step, haction]
    exact Untouched.refl B s.db
  | resume now i a haction hrunner =>
    have hruns := hs a (List.mem_of_getElem? haction) A hrunner
    have hthread := TenantPayments.forget_thread haction
    have heffect : PaymentEffect env s.forget (.resume now i) _ := resume_effect hthread now
    simp only [TenantPayments.step, haction]
    show Untouched B s.forget.db (resumeAction env now s.forget.db a.thread).2
    generalize (resumeAction env now s.forget.db a.thread).2 = db' at heffect ⊢
    cases heffect with
    | same => exact Untouched.refl B s.db
    | recorded _ _ o paymentIntentId ho =>
      rw [hthread] at ho
      rw [Option.some.inj ho] at hruns
      have howner : o.userId = A := hruns
      rw [howner]
      exact record_untouched hB now o.plan paymentIntentId
    | settled _ _ t args granted _ ht hargs hsettle =>
      rw [hthread] at ht
      rw [Option.some.inj ht] at hruns
      exact settle_untouched hB (hruns.settles hargs) hsettle

end GeoPlatform.Convex
