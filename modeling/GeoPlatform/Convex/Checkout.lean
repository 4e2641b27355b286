import GeoPlatform.Convex.Backend

/-! The actions of `payments.ts` and the Wire client (`lib/wire.ts`) as threads. An action goes on
from one transaction or request to the next; in between anything may commit, and Wire may answer a
waiting request with anything at any time, or never. -/
namespace GeoPlatform.Convex
open Docs

/-! ### Wire -/

/-- A JSON value, as far as the actions tell values apart. -/
inductive JsonValue where
  | missing
  | string (s : String)
  | number (q : ℚ)
  | other (truthy : Bool)
  deriving DecidableEq, Repr

def JsonValue.truthy : JsonValue → Bool
  | .missing => false
  | .string s => s ≠ ""
  | .number q => q ≠ 0
  | .other b => b

structure WireIntent where
  id : JsonValue
  status : JsonValue
  amount : JsonValue
  currency : JsonValue
  /-- The value as JSON text, `null` when it is missing. -/
  next_action : String := "null"
  deriving DecidableEq, Repr

/-- What a request ends in: a body with an accepting status, one with a refusing status, or nothing
that can be read (a timeout, a broken connection, a body without fields). -/
inductive WireResponse where
  | ok (body : WireIntent)
  | refused (status : ℕ) (code requestId : Option String)
  | unreadable
  deriving DecidableEq, Repr

inductive WireError where
  | api (status : ℕ) (code : String) (requestId : Option String)
  | failed
  deriving DecidableEq, Repr

def wireRequest : WireResponse → Except WireError WireIntent
  | .ok body => .ok body
  | .refused status code requestId => .error (.api status (code.getD "request_failed") requestId)
  | .unreadable => .error .failed

/-- A request by its path, its idempotency key and its body. -/
inductive WireRequest where
  | create (idempotencyKey : String) (amount : ℕ) (currency description : String)
      (allowedOperators : Option (List String)) (userId plan : String)
  | retrieve (paymentIntentId : String)
  | confirm (paymentIntentId idempotencyKey : String)
  deriving DecidableEq, Repr

def ProcessEnv.isProduction (env : ProcessEnv) : Bool :=
  let environment := trimmedLower (env.ENVIRONMENT.getD "")
  environment ≠ "development" && environment ≠ "test"

/-- `process.env.WIREPAYMENT_SECRET_KEY`, when it is set and not empty. -/
def ProcessEnv.wireKey (env : ProcessEnv) : Option String :=
  env.WIREPAYMENT_SECRET_KEY.filter (· ≠ "")

/-! ### What the actions check -/

def isHexDigit (c : Char) : Bool := c.isDigit || ('a' ≤ c.toLower && c.toLower ≤ 'f')

/-- The pattern of a checkout's request id, one test for each character. -/
def requestIdPattern : List (Char → Bool) :=
  let hex (n : ℕ) := List.replicate n isHexDigit
  let dash : List (Char → Bool) := [fun c => c = '-']
  hex 8 ++ dash ++ hex 4 ++ dash ++ [fun c => '1' ≤ c && c ≤ '8'] ++ hex 3 ++ dash ++
    [fun c => ['8', '9', 'a', 'b'].contains c.toLower] ++ hex 3 ++ dash ++ hex 12

def isRequestId (requestId : String) : Bool :=
  requestId.toList.length = requestIdPattern.length &&
    (requestIdPattern.zipWith (fun test c => test c) requestId.toList).all id

/-- The settlement an intent's status asks for, if any. -/
def settlementOf (status : JsonValue) : Option Settlement :=
  if status = .string "succeeded" then some .succeeded
  else if [JsonValue.string "failed", .string "canceled", .string "expired"].contains status then
    some .failed
  else none

/-- The arguments of `_settle`, whose validators refuse an amount that is no number and a currency
that is no string. -/
def settleArgs (paymentIntentId : String) (status : Settlement) (intent : WireIntent) :
    Option SettleArgs :=
  match intent.amount, intent.currency with
  | .number amount, .string currency => some ⟨paymentIntentId, status, amount, currency⟩
  | _, _ => none

/-! ### Threads -/

/-- What a signed-in user asked to buy. -/
structure Order where
  userId : ℕ
  plan : PaidPlan
  requestId : String
  deriving DecidableEq, Repr

/-- Who runs `checkIntent`. -/
inductive Check where
  | refreshPayment
  | settleFromWebhook
  | reconcilePending (rest : List String)
  deriving DecidableEq, Repr

/-- An action in flight, named by what it does next; those that `await` have a request out. -/
inductive PaymentThread where
  | userForCheckout (o : Order)
  | awaitCreate (o : Order)
  | recordPending (o : Order) (paymentIntentId : String)
  | awaitConfirm (o : Order) (paymentIntentId : String) (paymentId : ℕ)
  | settleConfirmed (args : SettleArgs) (paymentId : ℕ) (nextAction : String)
  | paymentById (userId paymentId : ℕ)
  | awaitRetrieve (paymentIntentId : String) (check : Check)
  | settleChecked (args : SettleArgs) (status : JsonValue) (check : Check)
  deriving DecidableEq

inductive PaymentError where
  | tx (e : TxError)
  | wire (e : WireError)
  | validation
  deriving DecidableEq, Repr

inductive PaymentReply where
  | idle
  | running
  | sent (r : WireRequest)
  | ready (paymentId : ℕ) (nextAction : String)
  | unavailable
  | paymentStatus (status : PaymentStatus)
  | checked
  | intentStatus (status : JsonValue)
  | reconciled
  | threw (e : PaymentError)
  deriving DecidableEq

/-- What an action did, and how it goes on, if it does. -/
abbrev Progress := PaymentReply × Option PaymentThread

def failError (message : String) : Progress := (.threw (.tx (.error message)), none)

def failConvex (message : String) : Progress := (.threw (.tx (.convex message)), none)

/-- The loop of `reconcilePending`: an intent that cannot even be asked for is passed over. -/
def reconcileNext (env : ProcessEnv) : List String → Progress
  | [] => (.reconciled, none)
  | paymentIntentId :: rest =>
      if env.wireKey.isSome then
        (.sent (.retrieve paymentIntentId),
          some (.awaitRetrieve paymentIntentId (.reconcilePending rest)))
      else reconcileNext env rest

/-- `checkIntent` threw. -/
def Check.fail (env : ProcessEnv) (e : PaymentError) : Check → Progress
  | .refreshPayment => (.threw e, none)
  | .settleFromWebhook => (.threw e, none)
  | .reconcilePending rest => reconcileNext env rest

/-- `checkIntent` returned. -/
def Check.return (env : ProcessEnv) (status : JsonValue) : Check → Progress
  | .refreshPayment => (.checked, none)
  | .settleFromWebhook => (.intentStatus status, none)
  | .reconcilePending rest => reconcileNext env rest

/-- The first step of `checkIntent`. -/
def checkIntent (env : ProcessEnv) (paymentIntentId : String) (check : Check) : Progress :=
  if env.wireKey.isSome then
    (.sent (.retrieve paymentIntentId), some (.awaitRetrieve paymentIntentId check))
  else check.fail env (.tx (.error "WIREPAYMENT_SECRET_KEY is not configured."))

/-- `startCheckout` from its account check to the request that creates the intent. -/
def createIntent (env : ProcessEnv) (o : Order) : Progress :=
  match env.wireKey with
  | none => failConvex "Payments are not configured yet."
  | some key =>
      if env.isProduction && "sk_test_".toList.isPrefixOf key.toList then
        failConvex "Live payments are not configured yet."
      else
        let operators :=
          if "sk_test_".toList.isPrefixOf key.toList then some ["sandbox"] else none
        (.sent (.create ("plan-" ++ o.requestId) PLAN_WIRE_AMOUNT "MNT"
          ("Ubhub " ++ o.plan.name ++ " " ++ slice 8 o.requestId) operators
          (toString o.userId) o.plan.name), some (.awaitCreate o))

/-- A step of an action on the database; an action with a request out waits. -/
def resumeAction (env : ProcessEnv) (now : ℕ) (db : Db) : PaymentThread → Progress × Db
  | .userForCheckout o =>
      if !userForCheckout db o.userId then (failConvex "Account not found.", db)
      else (createIntent env o, db)
  | .recordPending o paymentIntentId =>
      match recordPending now o.userId o.plan paymentIntentId db with
      | .error e => ((.threw (.tx e), none), db)
      | .ok (paymentId, db') =>
          ((.sent (.confirm paymentIntentId ("confirm-" ++ o.requestId)),
            some (.awaitConfirm o paymentIntentId paymentId)), db')
  | .settleConfirmed args paymentId nextAction =>
      match settle now args db with
      | .error e => ((.threw (.tx e), none), db)
      | .ok (_, db') => ((.ready paymentId nextAction, none), db')
  | .paymentById userId paymentId =>
      match db.payments.get paymentId with
      | none => (failConvex "Payment not found.", db)
      | some payment =>
          if payment.userId ≠ userId then (failConvex "Payment not found.", db)
          else if payment.status ≠ .pending then ((.paymentStatus payment.status, none), db)
          else (checkIntent env payment.paymentIntentId .refreshPayment, db)
  | .settleChecked args status check =>
      match settle now args db with
      | .error e => (check.fail env (.tx e), db)
      | .ok (_, db') => (check.return env status, db')
  | .awaitCreate o => ((.idle, some (.awaitCreate o)), db)
  | .awaitConfirm o paymentIntentId paymentId =>
      ((.idle, some (.awaitConfirm o paymentIntentId paymentId)), db)
  | .awaitRetrieve paymentIntentId check =>
      ((.idle, some (.awaitRetrieve paymentIntentId check)), db)

/-- The error codes that mean that the shop cannot be used yet. -/
def unavailableCodes : List String :=
  ["connector_required", "settlement_account_required", "dan_verification_required"]

/-- The amount and the currency are those of the plan. -/
def WireIntent.isPlanPrice (intent : WireIntent) : Bool :=
  intent.amount = .number PLAN_WIRE_AMOUNT && intent.currency = .string "MNT"

def createAnswered (o : Order) : Except WireError WireIntent → Progress
  | .error (.api status code requestId) =>
      if unavailableCodes.contains code then (.unavailable, none)
      else (.threw (.wire (.api status code requestId)), none)
  | .error .failed => (.threw (.wire .failed), none)
  | .ok intent =>
      if !intent.id.truthy || !intent.isPlanPrice then
        failError "Invalid Wire payment intent."
      else match intent.id with
        | .string paymentIntentId => (.running, some (.recordPending o paymentIntentId))
        | _ => (.threw .validation, none)

def confirmAnswered (paymentIntentId : String) (paymentId : ℕ) :
    Except WireError WireIntent → Progress
  | .error e => (.threw (.wire e), none)
  | .ok confirmed =>
      if confirmed.id ≠ .string paymentIntentId ∨ !confirmed.isPlanPrice then
        failError "Invalid confirmed Wire payment intent."
      else if confirmed.status = .string "succeeded" then
        match settleArgs paymentIntentId .succeeded confirmed with
        | some args => (.running, some (.settleConfirmed args paymentId confirmed.next_action))
        | none => (.threw .validation, none)
      else (.ready paymentId confirmed.next_action, none)

def retrieveAnswered (env : ProcessEnv) (paymentIntentId : String) (check : Check) :
    Except WireError WireIntent → Progress
  | .error e => check.fail env (.wire e)
  | .ok intent =>
      if intent.id ≠ .string paymentIntentId then
        check.fail env (.tx (.error "Wire returned an unexpected payment intent."))
      else match settlementOf intent.status with
        | none => check.return env intent.status
        | some status =>
            match settleArgs paymentIntentId status intent with
            | some args => (.running, some (.settleChecked args intent.status check))
            | none => check.fail env .validation

/-- Wire's response reaches an action; one without a request out takes none. -/
def answerAction (env : ProcessEnv) (response : WireResponse) : PaymentThread → Progress
  | .awaitCreate o => createAnswered o (wireRequest response)
  | .awaitConfirm _ paymentIntentId paymentId =>
      confirmAnswered paymentIntentId paymentId (wireRequest response)
  | .awaitRetrieve paymentIntentId check =>
      retrieveAnswered env paymentIntentId check (wireRequest response)
  | t => (.idle, some t)

def PaymentThread.isWaiting : PaymentThread → Bool
  | .awaitCreate _ => true
  | .awaitConfirm _ _ _ => true
  | .awaitRetrieve _ _ => true
  | _ => false

/-! ### The system -/

structure PaymentSystem where
  db : Db := {}
  threads : List PaymentThread := []

inductive PaymentEvent where
  | call (c : Call)
  | startCheckout (now : ℕ) (caller : Caller) (plan : PaidPlan) (requestId : String)
  | refreshPayment (now : ℕ) (caller : Caller) (paymentId : ℕ)
  | settleFromWebhook (paymentIntentId : String)
  | reconcilePending
  /-- The `i`-th action in flight takes its next step on the database. -/
  | resume (now i : ℕ)
  /-- Wire's response reaches the `i`-th action in flight. -/
  | answer (i : ℕ) (response : WireResponse)

/-- The mutations that run inside the payment actions only. -/
def Txn.isPaymentStep : Txn → Bool
  | .recordPending _ _ _ => true
  | .settle _ => true
  | _ => false

/-- A new action, after its first step. -/
def PaymentSystem.start (s : PaymentSystem) (p : Progress) : PaymentReply × PaymentSystem :=
  (p.1, { s with threads := s.threads ++ p.2.toList })

/-- The `i`-th action after a step. -/
def PaymentSystem.put (s : PaymentSystem) (i : ℕ) (p : Progress) (db : Db) :
    PaymentReply × PaymentSystem :=
  (p.1, { db, threads :=
    match p.2 with
    | some t => s.threads.set i t
    | none => s.threads.eraseIdx i })

def beginCheckout (db : Db) (now : ℕ) (caller : Caller) (plan : PaidPlan) (requestId : String) :
    Progress :=
  match requireUserId db now caller with
  | .error e => (.threw (.tx e), none)
  | .ok userId =>
      if !isRequestId requestId then failConvex "Invalid checkout request."
      else (.running, some (.userForCheckout ⟨userId, plan, requestId⟩))

def beginRefresh (db : Db) (now : ℕ) (caller : Caller) (paymentId : ℕ) : Progress :=
  match requireUserId db now caller with
  | .error e => (.threw (.tx e), none)
  | .ok userId => (.running, some (.paymentById userId paymentId))

def PaymentSystem.step (env : ProcessEnv) (s : PaymentSystem) :
    PaymentEvent → PaymentReply × PaymentSystem
  | .call c =>
      if c.txn.isPaymentStep then (.idle, s) else (.idle, { s with db := (c.run env s.db).2 })
  | .startCheckout now caller plan requestId =>
      s.start (beginCheckout s.db now caller plan requestId)
  | .refreshPayment now caller paymentId => s.start (beginRefresh s.db now caller paymentId)
  | .settleFromWebhook paymentIntentId =>
      s.start (checkIntent env paymentIntentId .settleFromWebhook)
  | .reconcilePending =>
      s.start (reconcileNext env ((pendingPayments s.db).map fun p => p.val.paymentIntentId))
  | .resume now i =>
      match s.threads[i]? with
      | none => (.idle, s)
      | some t => s.put i (resumeAction env now s.db t).1 (resumeAction env now s.db t).2
  | .answer i response =>
      match s.threads[i]? with
      | none => (.idle, s)
      | some t => s.put i (answerAction env response t) s.db

end GeoPlatform.Convex
