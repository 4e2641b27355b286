import GeoPlatform.Convex.Checkout
import GeoPlatform.Convex.UserTable

/-! What one step of the payment system does: to the database, where a row is recorded or settled,
and to the actions in flight, where an answer of Wire is the only source of a settlement. -/
namespace GeoPlatform.Convex
open Docs

variable {env : ProcessEnv}

/-! ### The database -/

/-- The settlement an action is about to run. -/
def PaymentThread.settles : PaymentThread → Option SettleArgs
  | .settleConfirmed args _ _ => some args
  | .settleChecked args _ _ => some args
  | _ => none

/-- The database after a step. -/
inductive PaymentEffect (env : ProcessEnv) (s : PaymentSystem) : PaymentEvent → Db → Prop
  | same (e : PaymentEvent) : PaymentEffect env s e s.db
  | call (c : Call) (hcall : c.txn.isPaymentStep = false) :
      PaymentEffect env s (.call c) (c.run env s.db).2
  | recorded (now i : ℕ) (o : Order) (paymentIntentId : String)
      (hthread : s.threads[i]? = some (.recordPending o paymentIntentId))
      (hnew : s.db.payments.unique (isIntent paymentIntentId) = .none) :
      PaymentEffect env s (.resume now i)
        { s.db with payments :=
          s.db.payments.insert (pendingPayment now o.userId o.plan paymentIntentId) }
  | settled (now i : ℕ) (t : PaymentThread) (args : SettleArgs) (granted : Bool) (db' : Db)
      (hthread : s.threads[i]? = some t) (hargs : t.settles = some args)
      (h : SettleOutcome now args s.db granted db') : PaymentEffect env s (.resume now i) db'

theorem resume_effect {s : PaymentSystem} {i : ℕ} {t : PaymentThread}
    (hthread : s.threads[i]? = some t) (now : ℕ) :
    PaymentEffect env s (.resume now i) (resumeAction env now s.db t).2 := by
  cases t with
  | userForCheckout o =>
    simp only [resumeAction]
    split_ifs <;> exact .same _
  | awaitCreate o => exact .same _
  | recordPending o paymentIntentId =>
    simp only [resumeAction]
    cases h : recordPending now o.userId o.plan paymentIntentId s.db with
    | error e => exact .same _
    | ok r =>
      obtain ⟨paymentId, db'⟩ := r
      rcases recordPending_ok h with ⟨row, -, -, -, -, hdb⟩ | ⟨hnew, -, hdb⟩
      · rw [hdb]
        exact .same _
      · rw [hdb]
        exact .recorded now i o paymentIntentId hthread hnew
  | awaitConfirm o paymentIntentId paymentId => exact .same _
  | settleConfirmed args paymentId nextAction =>
    simp only [resumeAction]
    cases h : settle now args s.db with
    | error e => exact .same _
    | ok r => exact .settled now i _ args r.1 r.2 hthread rfl (settle_ok h)
  | paymentById userId paymentId =>
    simp only [resumeAction]
    split
    · exact .same _
    · split_ifs <;> exact .same _
  | awaitRetrieve paymentIntentId check => exact .same _
  | settleChecked args status check =>
    simp only [resumeAction]
    cases h : settle now args s.db with
    | error e => exact .same _
    | ok r => exact .settled now i _ args r.1 r.2 hthread rfl (settle_ok h)

theorem step_effect (env : ProcessEnv) (s : PaymentSystem) (e : PaymentEvent) :
    PaymentEffect env s e (s.step env e).2.db := by
  cases e with
  | call c =>
    simp only [PaymentSystem.step]
    cases hcall : c.txn.isPaymentStep with
    | true => exact .same _
    | false => exact .call c hcall
  | startCheckout => exact .same _
  | refreshPayment => exact .same _
  | settleFromWebhook => exact .same _
  | reconcilePending => exact .same _
  | resume now i =>
    simp only [PaymentSystem.step]
    cases hthread : s.threads[i]? with
    | none => exact .same _
    | some t => exact resume_effect hthread now
  | answer i response =>
    simp only [PaymentSystem.step]
    cases s.threads[i]? <;> exact .same _

/-- A transaction that is no step of a payment action leaves the payments alone. -/
theorem call_payments {c : Call} (h : c.txn.isPaymentStep = false) (db : Db) :
    (c.run env db).2.payments = db.payments := by
  apply (run_frame env db c).payments
  obtain ⟨now, txn⟩ := c
  cases txn with
  | recordPending userId plan paymentIntentId => cases h
  | settle args => cases h
  | _ => simp [Txn.writes]

/-! ### Actions in flight -/

/-- The action does not settle next and sends no confirmation. -/
structure Quiet (p : Progress) : Prop where
  settles : ∀ t, p.2 = some t → t.settles = none
  confirms : ∀ paymentIntentId key, p.1 ≠ .sent (.confirm paymentIntentId key)

theorem quiet_end {reply : PaymentReply}
    (h : ∀ paymentIntentId key, reply ≠ .sent (.confirm paymentIntentId key)) :
    Quiet (reply, none) := by
  refine ⟨fun t ht => ?_, h⟩
  cases ht

theorem quiet_next {reply : PaymentReply} {t : PaymentThread} (ht : t.settles = none)
    (h : ∀ paymentIntentId key, reply ≠ .sent (.confirm paymentIntentId key)) :
    Quiet (reply, some t) := by
  refine ⟨fun t' ht' => ?_, h⟩
  cases ht'
  exact ht

theorem quiet_failConvex (message : String) : Quiet (failConvex message) :=
  quiet_end fun _ _ => nofun

theorem quiet_failError (message : String) : Quiet (failError message) :=
  quiet_end fun _ _ => nofun

theorem reconcileNext_quiet (env : ProcessEnv) (rest : List String) :
    Quiet (reconcileNext env rest) := by
  induction rest with
  | nil => exact quiet_end fun _ _ => nofun
  | cons paymentIntentId rest ih =>
    unfold reconcileNext
    split_ifs
    · exact quiet_next rfl fun _ _ => nofun
    · exact ih

theorem checkFail_quiet (env : ProcessEnv) (e : PaymentError) (check : Check) :
    Quiet (check.fail env e) := by
  cases check with
  | refreshPayment => exact quiet_end fun _ _ => nofun
  | settleFromWebhook => exact quiet_end fun _ _ => nofun
  | reconcilePending rest => exact reconcileNext_quiet env rest

theorem checkReturn_quiet (env : ProcessEnv) (status : JsonValue) (check : Check) :
    Quiet (check.return env status) := by
  cases check with
  | refreshPayment => exact quiet_end fun _ _ => nofun
  | settleFromWebhook => exact quiet_end fun _ _ => nofun
  | reconcilePending rest => exact reconcileNext_quiet env rest

theorem checkIntent_quiet (env : ProcessEnv) (paymentIntentId : String) (check : Check) :
    Quiet (checkIntent env paymentIntentId check) := by
  unfold checkIntent
  split_ifs
  · exact quiet_next rfl fun _ _ => nofun
  · exact checkFail_quiet env _ check

theorem createIntent_quiet (env : ProcessEnv) (o : Order) : Quiet (createIntent env o) := by
  unfold createIntent
  split
  · exact quiet_failConvex _
  · split_ifs
    · exact quiet_failConvex _
    all_goals exact quiet_next rfl fun _ _ => nofun

theorem beginCheckout_quiet (db : Db) (now : ℕ) (caller : Caller) (plan : PaidPlan)
    (requestId : String) : Quiet (beginCheckout db now caller plan requestId) := by
  unfold beginCheckout
  split
  · exact quiet_end fun _ _ => nofun
  · split_ifs
    · exact quiet_failConvex _
    · exact quiet_next rfl fun _ _ => nofun

theorem beginRefresh_quiet (db : Db) (now : ℕ) (caller : Caller) (paymentId : ℕ) :
    Quiet (beginRefresh db now caller paymentId) := by
  unfold beginRefresh
  split
  · exact quiet_end fun _ _ => nofun
  · exact quiet_next rfl fun _ _ => nofun

/-- A step on the database is quiet, but for the one that records a checkout and confirms it. -/
theorem resume_quiet (env : ProcessEnv) (now : ℕ) (db : Db) (t : PaymentThread) :
    Quiet (resumeAction env now db t).1 ∨
      ∃ o paymentIntentId paymentId db', t = .recordPending o paymentIntentId ∧
        recordPending now o.userId o.plan paymentIntentId db = .ok (paymentId, db') ∧
        resumeAction env now db t =
          ((.sent (.confirm paymentIntentId ("confirm-" ++ o.requestId)),
            some (.awaitConfirm o paymentIntentId paymentId)), db') := by
  cases t with
  | userForCheckout o =>
    left
    simp only [resumeAction]
    split_ifs
    · exact quiet_failConvex _
    · exact createIntent_quiet env o
  | recordPending o paymentIntentId =>
    simp only [resumeAction]
    cases h : recordPending now o.userId o.plan paymentIntentId db with
    | error e => exact Or.inl (quiet_end fun _ _ => nofun)
    | ok r => exact Or.inr ⟨o, paymentIntentId, r.1, r.2, rfl, h, rfl⟩
  | settleConfirmed args paymentId nextAction =>
    left
    simp only [resumeAction]
    split <;> exact quiet_end fun _ _ => nofun
  | paymentById userId paymentId =>
    left
    simp only [resumeAction]
    split
    · exact quiet_failConvex _
    · split_ifs
      · exact quiet_failConvex _
      · exact quiet_end fun _ _ => nofun
      · exact checkIntent_quiet env _ _
  | settleChecked args status check =>
    left
    simp only [resumeAction]
    split
    · exact checkFail_quiet env _ check
    · exact checkReturn_quiet env status check
  | awaitCreate | awaitConfirm | awaitRetrieve =>
    exact Or.inl (quiet_next rfl fun _ _ => nofun)

theorem resume_settles {now : ℕ} {db : Db} {t t' : PaymentThread}
    (h : (resumeAction env now db t).1.2 = some t') : t'.settles = none := by
  rcases resume_quiet env now db t with hquiet | ⟨o, paymentIntentId, paymentId, db', -, -, hstep⟩
  · exact hquiet.settles t' h
  · rw [hstep] at h
    cases h
    rfl

/-- The answer reports the settlement: its intent, its outcome, its amount and its currency. -/
structure Reports (intent : WireIntent) (args : SettleArgs) : Prop where
  id : intent.id = .string args.paymentIntentId
  status : settlementOf intent.status = some args.status
  amount : intent.amount = .number args.amount
  currency : intent.currency = .string args.currency

theorem settleArgs_some {paymentIntentId : String} {status : Settlement} {intent : WireIntent}
    {args : SettleArgs} (h : settleArgs paymentIntentId status intent = some args) :
    args.paymentIntentId = paymentIntentId ∧ args.status = status ∧
      intent.amount = .number args.amount ∧ intent.currency = .string args.currency := by
  unfold settleArgs at h
  split at h
  · rename_i amount currency hamount hcurrency
    cases h
    exact ⟨rfl, rfl, hamount, hcurrency⟩
  · cases h

theorem wireRequest_ok {response : WireResponse} {intent : WireIntent}
    (h : wireRequest response = .ok intent) : response = .ok intent := by
  cases response with
  | ok body => cases h; rfl
  | refused status code requestId => cases h
  | unreadable => cases h

theorem createAnswered_quiet (o : Order) (r : Except WireError WireIntent) :
    Quiet (createAnswered o r) := by
  unfold createAnswered
  split
  · split_ifs <;> exact quiet_end fun _ _ => nofun
  · exact quiet_end fun _ _ => nofun
  · split_ifs
    · exact quiet_failError _
    · split
      · exact quiet_next rfl fun _ _ => nofun
      · exact quiet_end fun _ _ => nofun

/-- An answer makes an action settle next only if it reports the settlement. -/
inductive AfterAnswer (r : Except WireError WireIntent) : Progress → Prop
  | quiet (p : Progress) (h : Quiet p) : AfterAnswer r p
  | settles (t : PaymentThread) (args : SettleArgs) (intent : WireIntent)
      (ht : t.settles = some args) (hr : r = .ok intent) (hreports : Reports intent args) :
      AfterAnswer r (.running, some t)

theorem confirmAnswered_after (paymentIntentId : String) (paymentId : ℕ)
    (r : Except WireError WireIntent) :
    AfterAnswer r (confirmAnswered paymentIntentId paymentId r) := by
  unfold confirmAnswered
  split
  · exact .quiet _ (quiet_end fun _ _ => nofun)
  · rename_i confirmed
    split_ifs with hother hpaid
    · exact .quiet _ (quiet_failError _)
    · split
      · rename_i args hargs
        obtain ⟨hid, hstatus, hamount, hcurrency⟩ := settleArgs_some hargs
        rw [not_or, not_not] at hother
        apply AfterAnswer.settles _ args confirmed rfl rfl
        refine ⟨?_, ?_, hamount, hcurrency⟩
        · rw [hid]
          exact hother.1
        · rw [hpaid, hstatus]
          rfl
      · exact .quiet _ (quiet_end fun _ _ => nofun)
    · exact .quiet _ (quiet_end fun _ _ => nofun)

theorem retrieveAnswered_after (env : ProcessEnv) (paymentIntentId : String) (check : Check)
    (r : Except WireError WireIntent) :
    AfterAnswer r (retrieveAnswered env paymentIntentId check r) := by
  unfold retrieveAnswered
  split
  · exact .quiet _ (checkFail_quiet env _ check)
  · rename_i intent
    split_ifs with hother
    · exact .quiet _ (checkFail_quiet env _ check)
    · split
      · exact .quiet _ (checkReturn_quiet env _ check)
      · rename_i status hsettles
        split
        · rename_i args hargs
          obtain ⟨hid, hstatus, hamount, hcurrency⟩ := settleArgs_some hargs
          apply AfterAnswer.settles _ args intent rfl rfl
          refine ⟨?_, ?_, hamount, hcurrency⟩
          · rw [hid]
            exact not_not.mp hother
          · rw [hsettles, hstatus]
        · exact .quiet _ (checkFail_quiet env _ check)

/-- An answer reaches a waiting action, or changes nothing. -/
theorem answer_after (env : ProcessEnv) (response : WireResponse) (t : PaymentThread) :
    answerAction env response t = (.idle, some t) ∨
      t.isWaiting = true ∧ AfterAnswer (wireRequest response) (answerAction env response t) := by
  cases t with
  | awaitCreate o => exact Or.inr ⟨rfl, .quiet _ (createAnswered_quiet o _)⟩
  | awaitConfirm o paymentIntentId paymentId =>
    exact Or.inr ⟨rfl, confirmAnswered_after paymentIntentId paymentId _⟩
  | awaitRetrieve paymentIntentId check =>
    exact Or.inr ⟨rfl, retrieveAnswered_after env paymentIntentId check _⟩
  | userForCheckout | recordPending | settleConfirmed | paymentById | settleChecked =>
    exact Or.inl rfl

/-- An action that settles next did so before, or has just read it from an answer. -/
theorem answer_settles {response : WireResponse} {t t' : PaymentThread} {args : SettleArgs}
    (h : (answerAction env response t).2 = some t') (ht : t'.settles = some args) :
    t' = t ∨ t.isWaiting = true ∧ ∃ intent, response = .ok intent ∧ Reports intent args := by
  rcases answer_after env response t with hsame | ⟨hwaiting, hafter⟩
  · rw [hsame] at h
    cases h
    exact Or.inl rfl
  · generalize answerAction env response t = p at h hafter
    cases hafter with
    | quiet _ hquiet =>
      rw [hquiet.settles t' h] at ht
      cases ht
    | settles u args' intent hu hr hreports =>
      cases h
      rw [hu] at ht
      cases ht
      exact Or.inr ⟨hwaiting, intent, wireRequest_ok hr, hreports⟩

theorem answer_confirms (env : ProcessEnv) (response : WireResponse) (t : PaymentThread)
    (paymentIntentId key : String) :
    (answerAction env response t).1 ≠ .sent (.confirm paymentIntentId key) := by
  rcases answer_after env response t with hsame | ⟨-, hafter⟩
  · rw [hsame]
    exact nofun
  · generalize answerAction env response t = p at hafter
    cases hafter with
    | quiet _ hquiet => exact hquiet.confirms paymentIntentId key
    | settles => exact nofun

theorem mem_start {s : PaymentSystem} {p : Progress} {t : PaymentThread}
    (h : t ∈ (s.start p).2.threads) : t ∈ s.threads ∨ p.2 = some t := by
  rcases List.mem_append.mp h with h | h
  · exact Or.inl h
  · exact Or.inr (by simpa using h)

theorem mem_put {s : PaymentSystem} {i : ℕ} {p : Progress} {db : Db} {t : PaymentThread}
    (h : t ∈ (s.put i p db).2.threads) : t ∈ s.threads ∨ p.2 = some t := by
  simp only [PaymentSystem.put] at h
  split at h
  · rename_i t' ht'
    rcases List.mem_or_eq_of_mem_set h with h | h
    · exact Or.inl h
    · exact Or.inr (by rw [ht', h])
  · exact Or.inl (List.mem_of_mem_eraseIdx h)

/-- Wire's answer reports the settlement to a waiting action. -/
inductive Answered (s : PaymentSystem) (args : SettleArgs) : PaymentEvent → Prop
  | mk (i : ℕ) (t : PaymentThread) (intent : WireIntent) (hthread : s.threads[i]? = some t)
      (hwaiting : t.isWaiting = true) (hreports : Reports intent args) :
      Answered s args (.answer i (.ok intent))

/-- A settlement in flight was in flight before, or has just been answered. -/
theorem settles_step {s : PaymentSystem} {e : PaymentEvent} {t : PaymentThread}
    {args : SettleArgs} (h : t ∈ (s.step env e).2.threads) (ht : t.settles = some args) :
    t ∈ s.threads ∨ Answered s args e := by
  have hnew : ∀ {p : Progress}, t ∈ (s.start p).2.threads →
      Quiet p → t ∈ s.threads ∨ Answered s args e := by
    intro p hmem hquiet
    rcases mem_start hmem with hmem | hp
    · exact Or.inl hmem
    · rw [hquiet.settles t hp] at ht
      cases ht
  cases e with
  | call c =>
    simp only [PaymentSystem.step] at h
    split_ifs at h <;> exact Or.inl h
  | startCheckout => exact hnew h (beginCheckout_quiet _ _ _ _ _)
  | refreshPayment => exact hnew h (beginRefresh_quiet _ _ _ _)
  | settleFromWebhook => exact hnew h (checkIntent_quiet _ _ _)
  | reconcilePending => exact hnew h (reconcileNext_quiet _ _)
  | resume now i =>
    simp only [PaymentSystem.step] at h
    split at h
    · exact Or.inl h
    · rcases mem_put h with hmem | hp
      · exact Or.inl hmem
      · rw [resume_settles hp] at ht
        cases ht
  | answer i response =>
    simp only [PaymentSystem.step] at h
    split at h
    · exact Or.inl h
    · rename_i u hthread
      rcases mem_put h with hmem | hp
      · exact Or.inl hmem
      · rcases answer_settles hp ht with rfl | ⟨hwaiting, intent, rfl, hreports⟩
        · exact Or.inl (List.mem_of_getElem? hthread)
        · exact Or.inr (.mk i u intent hthread hwaiting hreports)

/-- A confirmation is sent by the step that records its checkout. -/
theorem confirms_step {s : PaymentSystem} {e : PaymentEvent} {paymentIntentId key : String}
    (h : (s.step env e).1 = .sent (.confirm paymentIntentId key)) :
    ∃ now i o paymentId db', e = .resume now i ∧
      s.threads[i]? = some (.recordPending o paymentIntentId) ∧
      recordPending now o.userId o.plan paymentIntentId s.db = .ok (paymentId, db') ∧
      (s.step env e).2.db = db' := by
  cases e with
  | call c =>
    simp only [PaymentSystem.step] at h
    split_ifs at h
  | startCheckout => exact absurd h ((beginCheckout_quiet _ _ _ _ _).confirms _ _)
  | refreshPayment => exact absurd h ((beginRefresh_quiet _ _ _ _).confirms _ _)
  | settleFromWebhook => exact absurd h ((checkIntent_quiet _ _ _).confirms _ _)
  | reconcilePending => exact absurd h ((reconcileNext_quiet _ _).confirms _ _)
  | resume now i =>
    cases hthread : s.threads[i]? with
    | none =>
      simp only [PaymentSystem.step, hthread] at h
      cases h
    | some t =>
      have hstep : s.step env (.resume now i) =
          s.put i (resumeAction env now s.db t).1 (resumeAction env now s.db t).2 := by
        simp only [PaymentSystem.step, hthread]
      rw [hstep] at h
      rcases resume_quiet env now s.db t with hquiet | ⟨o, id, paymentId, db', rfl, hok, hresume⟩
      · exact absurd h (hquiet.confirms _ _)
      · rw [hresume] at h hstep
        cases h
        exact ⟨now, i, o, paymentId, db', rfl, hthread, hok, by rw [hstep]; rfl⟩
  | answer i response =>
    simp only [PaymentSystem.step] at h
    split at h
    · cases h
    · exact absurd h (answer_confirms env response _ _ _)

end GeoPlatform.Convex
