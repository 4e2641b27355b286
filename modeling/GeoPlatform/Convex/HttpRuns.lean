import GeoPlatform.Convex.Webhook
import GeoPlatform.Library.RunPairs

/-! Convex behind its HTTP surface. Requests arrive in any order among the transactions of the
dashboard and of the payments; those of outsiders change nothing. -/
namespace GeoPlatform.Convex.Http
open Docs

/-! ### The system -/

/-- A request of `/gateway/usage` on its way through its chunks. -/
structure UsageHandling where
  rest : List UsageEntry
  written : ℕ := 0
  total : ℕ

structure HttpSystem where
  payments : PaymentSystem := {}
  usage : List UsageHandling := []

inductive HttpEvent where
  | request (now : ℕ) (r : HttpRequest)
  /-- The `i`-th request of `/gateway/usage` goes on. -/
  | nextChunk (now i : ℕ)
  /-- What happens without a request; the webhook's action starts with one. -/
  | other (e : PaymentEvent)

inductive HttpOutcome where
  | replied (r : HttpReply)
  | handling
  | checking (r : PaymentReply)
  | other (r : PaymentReply)
  | idle

def UsageHandling.step (now : ℕ) (db : Db) (u : UsageHandling) :
    HttpOutcome × Option UsageHandling × Db :=
  if u.rest = [] then
    (.replied (json (usageJson ⟨u.written, u.total - u.written⟩) 200), none, db)
  else match recordUsage now (u.rest.take MAX_USAGE_BATCH) db with
    | .error _ => (.replied serverError, none, db)
    | .ok (reply, db') =>
        (.handling, some { u with
          rest := u.rest.drop MAX_USAGE_BATCH
          written := u.written + reply.written }, db')

def HttpSystem.withDb (s : HttpSystem) (db : Db) : HttpSystem :=
  { s with payments := { s.payments with db } }

/-- A request goes on as its handler says. -/
def HttpSystem.handled (env : HttpEnv) (s : HttpSystem) (now : ℕ) :
    Handling → HttpOutcome × HttpSystem
  | .reply reply => (.replied reply, s)
  | .throws => (.replied serverError, s)
  | .transaction txn =>
      let (answer, db) := Call.run env.toProcessEnv s.payments.db ⟨now, txn⟩
      (.replied (answerReply answer), s.withDb db)
  | .usage valid total => (.handling, { s with usage := s.usage ++ [{ rest := valid, total }] })
  | .settle paymentIntentId =>
      let (reply, payments) :=
        s.payments.step env.toProcessEnv (.settleFromWebhook paymentIntentId)
      (.checking reply, { s with payments })

def isWebhookEvent : PaymentEvent → Bool
  | .settleFromWebhook _ => true
  | _ => false

def HttpSystem.step (env : HttpEnv) (s : HttpSystem) : HttpEvent → HttpOutcome × HttpSystem
  | .request now r => s.handled env now (handle env now r)
  | .nextChunk now i =>
      match s.usage[i]? with
      | none => (.idle, s)
      | some u =>
          let (outcome, u', db) := u.step now s.payments.db
          (outcome, { s.withDb db with
            usage := match u' with
              | some u' => s.usage.set i u'
              | none => s.usage.eraseIdx i })
  | .other e =>
      if isWebhookEvent e then (.idle, s)
      else
        let (reply, payments) := s.payments.step env.toProcessEnv e
        (.other reply, { s with payments })

/-! ### Outsiders -/

/-- Whoever sent the request knows no gateway secret, and shows no signature of its text. -/
structure Outsider (env : HttpEnv) (r : HttpRequest) : Prop where
  gateway : ∀ secret, some secret ∈ env.secrets →
    r.headers "authorization" ≠ some ("Bearer " ++ secret)
  webhook : ∀ secret header timestamp, env.WIREPAYMENT_WEBHOOK_SECRET = some secret →
    r.headers "wirepayment-signature" = some header →
    ¬ Shows env secret header (payload timestamp r.text)

variable {env : HttpEnv} {r : HttpRequest}

theorem Outsider.unauthorized (h : Outsider env r) : authorized env r = false := by
  rw [Bool.eq_false_iff]
  intro hauthorized
  obtain ⟨secret, hmem, -, hheader⟩ := authorized_iff.mp hauthorized
  exact h.gateway secret hmem hheader

theorem Outsider.unverified (h : Outsider env r) {secret : String} (now : ℕ)
    (hsecret : env.WIREPAYMENT_WEBHOOK_SECRET = some secret) :
    verifyWireSignature env r.text (r.headers "wirepayment-signature") secret now = false := by
  rw [Bool.eq_false_iff]
  intro hverified
  cases hheader : r.headers "wirepayment-signature" with
  | none =>
    rw [hheader] at hverified
    cases hverified
  | some header =>
    rw [hheader] at hverified
    have hne : header ≠ "" := by
      rintro rfl
      cases hverified
    obtain ⟨timestamp, -, -, -, -, hshows⟩ := ((verifyWireSignature_iff hne).mp hverified).shows
    exact h.webhook secret header _ hsecret hheader hshows

theorem Outsider.webhook_refused (h : Outsider env r) (now : ℕ) :
    ∃ reply, Http.webhook env now r = .reply reply ∧ 400 ≤ reply.status := by
  rw [Http.webhook]
  cases hsecret : env.WIREPAYMENT_WEBHOOK_SECRET.filter (· ≠ "") with
  | none => exact ⟨_, rfl, by decide⟩
  | some secret =>
    simp only
    split_ifs with hsize hverified
    · exact ⟨_, rfl, by decide⟩
    · exact ⟨_, rfl, by decide⟩
    · rw [h.unverified now (Option.filter_eq_some_iff.mp hsecret).1] at hverified
      exact absurd rfl hverified

/-- An outsider is turned away, except where Convex Auth answers. -/
theorem Outsider.refused (h : Outsider env r) (now : ℕ) :
    ∃ reply, handle env now r = .reply reply ∧
      (400 ≤ reply.status ∨ env.authRoutes r = some reply) := by
  have hroute : ∀ handler, gatewayRoute env r handler = .reply Http.unauthorized := by
    intro handler
    rw [gatewayRoute, h.unauthorized]
    rfl
  rw [handle]
  split
  · rw [h.unauthorized]
    exact ⟨_, rfl, .inl (by decide)⟩
  iterate 4
    · rw [hroute]
      exact ⟨_, rfl, .inl (by decide)⟩
  · obtain ⟨reply, hreply, hstatus⟩ := h.webhook_refused now
    exact ⟨reply, hreply, .inl hstatus⟩
  · refine ⟨_, rfl, ?_⟩
    cases hroutes : env.authRoutes r with
    | none => exact .inl (by decide)
    | some reply => exact .inr rfl

theorem step_outsider (h : Outsider env r) (s : HttpSystem) (now : ℕ) :
    ∃ reply, s.step env (.request now r) = (.replied reply, s) ∧
      (400 ≤ reply.status ∨ env.authRoutes r = some reply) := by
  obtain ⟨reply, hreply, hstatus⟩ := h.refused now
  refine ⟨reply, ?_, hstatus⟩
  rw [HttpSystem.step, hreply]
  rfl

/-- The event is a request of an outsider. -/
def IsOutsiders (env : HttpEnv) (e : HttpEvent) : Prop :=
  ∃ now r, e = .request now r ∧ Outsider env r

/-- In every run outsiders are turned away, except where Convex Auth answers anyone, and everything
else goes on as if they had sent nothing. -/
theorem outsiders_ignored {es : List HttpEvent} {outsiders : HttpEvent → Bool}
    (houtsiders : ∀ e ∈ es, outsiders e = true → IsOutsiders env e) (s : HttpSystem) :
    Runs.final (HttpSystem.step env) s es =
      Runs.final (HttpSystem.step env) s (es.filter fun e => !outsiders e) ∧
    (Runs.kept (HttpSystem.step env) (fun _ => outsiders) s es).map Runs.Entry.reply =
      (Runs.trace (HttpSystem.step env) s (es.filter fun e => !outsiders e)).map
        Runs.Entry.reply ∧
    ∀ x ∈ Runs.trace (HttpSystem.step env) s es, outsiders x.event = true →
      ∃ now r reply, x.event = .request now r ∧ x.reply = .replied reply ∧
        (400 ≤ reply.status ∨ env.authRoutes r = some reply) := by
  have hguarded : Runs.Guarded (HttpSystem.step env)
      (fun _ e => outsiders e = true → IsOutsiders env e) s es :=
    (Runs.guarded_iff_trace _ _ s es).mpr fun x hx =>
      houtsiders _ (Runs.event_mem_of_mem_trace _ hx)
  have hskip : ∀ s t e, s = t → (outsiders e = true → IsOutsiders env e) → outsiders e = true →
      s = Runs.next (HttpSystem.step env) t e := by
    rintro s t e rfl hsender he
    obtain ⟨now, r, rfl, h⟩ := hsender he
    obtain ⟨reply, hstep, -⟩ := step_outsider h s now
    rw [Runs.next, hstep]
  rw [← Runs.without_eq_filter (HttpSystem.step env) outsiders s es]
  refine ⟨?_, ?_, ?_⟩
  · refine (Runs.final_without (HttpSystem.step env) (fun _ => outsiders)
      hskip ?_ rfl hguarded).symm
    rintro s t e rfl - -
    rfl
  · have hkeep : ∀ s t e, s = t → (outsiders e = true → IsOutsiders env e) → outsiders e = false →
        id (HttpSystem.step env s e).1 = id (HttpSystem.step env t e).1 ∧
          Runs.next (HttpSystem.step env) s e = Runs.next (HttpSystem.step env) t e := by
      rintro s t e rfl - -
      exact ⟨rfl, rfl⟩
    exact Runs.kept_observed (HttpSystem.step env) (fun _ => outsiders) hskip hkeep rfl hguarded
  · intro x hx he
    obtain ⟨now, r, hevent, h⟩ := houtsiders _ (Runs.event_mem_of_mem_trace _ hx) he
    obtain ⟨reply, hstep, hstatus⟩ := step_outsider h x.before now
    obtain ⟨-, -, -, -, hreply⟩ := Runs.mem_trace _ hx
    exact ⟨now, r, reply, hevent, by rw [hreply, hevent, hstep], hstatus⟩

/-! ### A guess -/

/-- A request for a key's description. -/
def sampleDescribe (secret : String) : HttpRequest where
  method := "POST"
  path := "/gateway/describe"
  headers name := if name = "authorization" then some ("Bearer " ++ secret) else none
  text := ""
  json := some (.object [("hash", .string (sampleProcess.hmacSha256Hex sampleSecret ""))])

def sampleGuess : HttpEvent := .request 0 (sampleDescribe "test-gateway-secret-0123456789")

def sampleGenuine : HttpEvent :=
  .request 0 (sampleDescribe "test-gateway-secret-0123456789abcdefghijklmnop")

def isSampleGuess : HttpEvent → Bool
  | .request _ r => r.headers "authorization" = some "Bearer test-gateway-secret-0123456789"
  | _ => false

theorem sampleGuess_outsider : ∀ e ∈ [sampleGuess, sampleGenuine], isSampleGuess e = true →
    IsOutsiders sampleEnv e := by
  intro e he hguess
  simp only [List.mem_cons, List.not_mem_nil, or_false] at he
  rcases he with rfl | rfl
  · refine ⟨0, _, rfl, fun secret hsecret hheader => ?_, fun _ _ _ _ hheader => ?_⟩
    · have hsecret : some secret ∈ [testEnv.GATEWAY_SECRET, none] := hsecret
      simp only [testEnv, List.mem_cons, List.not_mem_nil, or_false, Option.some_inj,
        reduceCtorEq] at hsecret
      subst hsecret
      exact absurd hheader (by decide +kernel)
    · have hnone : (sampleDescribe "test-gateway-secret-0123456789").headers
          "wirepayment-signature" = none := by decide +kernel
      rw [hnone] at hheader
      cases hheader
  · exact absurd hguess (by decide +kernel)

/-- Who guesses the secret is turned away, and the gateway's own request goes on undisturbed. -/
theorem outsiders_ignored_sample :
    Runs.final (HttpSystem.step sampleEnv) {} [sampleGuess, sampleGenuine] =
      Runs.final (HttpSystem.step sampleEnv) {} [sampleGenuine] ∧
    ∀ x ∈ Runs.trace (HttpSystem.step sampleEnv) {} [sampleGuess, sampleGenuine],
      isSampleGuess x.event = true → ∃ reply, x.reply = .replied reply ∧ 400 ≤ reply.status := by
  obtain ⟨hfinal, -, hrefused⟩ := outsiders_ignored sampleGuess_outsider {}
  have hfilter : [sampleGuess, sampleGenuine].filter (fun e => !isSampleGuess e) =
      [sampleGenuine] := by
    rw [List.filter_cons_of_neg (by decide +kernel), List.filter_cons_of_pos (by decide +kernel),
      List.filter_nil]
  rw [hfilter] at hfinal
  refine ⟨hfinal, fun x hx hguess => ?_⟩
  obtain ⟨now, r, reply, -, hreply, hstatus | hroutes⟩ := hrefused x hx hguess
  · exact ⟨reply, hreply, hstatus⟩
  · cases hroutes

end GeoPlatform.Convex.Http
