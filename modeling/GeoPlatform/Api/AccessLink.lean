import GeoPlatform.Api.AccessRuns
import GeoPlatform.Api.GatewayClient
import GeoPlatform.Library.RunImage

/-! The API and Convex with HTTP and JSON between them. A gateway call is a posted body, Convex
handles it or refuses it, and the reply is read back; a run of this system is a run of the one in
which the calls are transactions. -/
namespace GeoPlatform.Api
open GeoPlatform.ArcGIS
open GeoPlatform.Convex hiding KeyDescription RateLimitState Principal
open GeoPlatform.Convex.Http

/-! ### Reading -/

def endpointNamed (name : String) : Option ApiEndpoint := API_ENDPOINTS.find? fun e => e.name = name

/-- The key of a good description; ids and endpoints are those of Convex. -/
def DescribedKey.key (d : DescribedKey) : Option KeyDescription := do
  let keyId ← d.keyId.bind fun id => JsNumber.digits 10 id.toList
  let userId ← d.userId.bind fun id => JsNumber.digits 10 id.toList
  let endpoints ← match d.endpoints with
    | none => some none
    | some names => (names.mapM endpointNamed).map some
  return { keyId, userId, isSiteKey := d.isSiteKey, rateLimitPerMinute := d.rateLimitPerMinute,
           accountLimit := d.accountLimit, routeLimit := d.routeLimit, endpoints }

/-- `require_api_key` from the reply to its gateway call on. -/
def Gate.receive (lax : String → Option ℤ) (settings : AccessSettings) (g : Gate) (now : ℕ)
    (monotonic : ℚ) (l : Lookup) (reply : HttpReply) : Api.Reply × Effects × Gate :=
  match l.txn with
  | .describe hash =>
      match readDescription lax reply with
      | none => (refuse serviceUnavailable, {}, g)
      | some described =>
          if described.status ≠ .ok then
            (refuse (refusal described.status .key), terminalEffects l described.status, g)
          else match described.key with
            | none => (refuse serviceUnavailable, {}, g)
            | some d =>
                let g :=
                  { g with app := { g.app with keyCache := g.app.keyCache.set hash d monotonic } }
                let (reply, g) := enforceReply settings g (.of l.request now monotonic) d
                (reply, {}, g)
  | _ =>
      match readAuthorization lax reply with
      | none => (refuse serviceUnavailable, {}, g)
      | some result =>
          let state : RequestState := ⟨result.principal, result.rateLimit⟩
          (⟨authorizationVerdict l now result, state⟩, terminalEffects l result.status, g)

/-! ### The system -/

/-- What Convex made of a call: a refusal, or a transaction and its answer. -/
inductive CallOutcome where
  | refused (reply : HttpReply)
  | committed (now : ℕ) (answer : Answer)

def CallOutcome.reply : CallOutcome → HttpReply
  | .refused reply => reply
  | .committed _ answer => answerReply answer

def CallOutcome.answer : CallOutcome → Option (ℕ × Answer)
  | .refused _ => none
  | .committed now answer => some (now, answer)

structure LinkCall where
  lookup : Lookup
  envelope : Envelope
  handled : Option CallOutcome := none
  waiting : Bool := true

structure LinkSystem where
  gate : Gate
  calls : List LinkCall := []
  db : Db := {}

inductive LinkEvent where
  /-- A request arrives; `envelope` is how its call is written down, if it makes one. -/
  | arrive (now : ℕ) (monotonic : ℚ) (r : ApiRequest) (envelope : Envelope)
  /-- A call reaches Convex. -/
  | handle (now i : ℕ)
  /-- The reply reaches the API. -/
  | receive (now : ℕ) (monotonic : ℚ) (i : ℕ)
  | fail (i : ℕ)
  | call (c : Call)

/-- The handlers of the gateway's calls. -/
def handleCall (env : HttpEnv) (now : ℕ) (db : Db) (r : HttpRequest) : CallOutcome × Db :=
  match handle env now r with
  | .transaction txn =>
      let (answer, db) := Call.run env.toProcessEnv db ⟨now, txn⟩
      (.committed now answer, db)
  | .reply reply => (.refused reply, db)
  | _ => (.refused serverError, db)

def LinkCall.request (settings : LinkSettings) (c : LinkCall) : HttpRequest :=
  (c.lookup.post settings.toAccessSettings).request settings.gatewaySecret c.envelope

def LinkSystem.step (P : PyText) (lax : String → Option ℤ) (settings : LinkSettings)
    (env : HttpEnv) (s : LinkSystem) : LinkEvent → AccessReply × LinkSystem
  | .arrive now monotonic r envelope =>
      let (arrival, effects, gate) := s.gate.arrive P settings.toAccessSettings now monotonic r
      let s := { s with gate := gate.remember now monotonic effects }
      match arrival with
      | .done reply => (⟨some reply, effects⟩, s)
      | .lookup lookup =>
          (⟨none, effects⟩, { s with calls := s.calls ++ [{ lookup, envelope }] })
  | .handle now i =>
      match s.calls[i]? with
      | some { lookup, envelope, handled := none, waiting } =>
          let call : LinkCall := { lookup, envelope, waiting }
          let (handled, db) := handleCall env now s.db (call.request settings)
          ({}, { s with db, calls := s.calls.set i { call with handled := some handled } })
      | _ => ({}, s)
  | .receive now monotonic i =>
      match s.calls[i]? with
      | some { lookup, envelope, handled := some handled, waiting := true } =>
          let (reply, effects, gate) :=
            s.gate.receive lax settings.toAccessSettings now monotonic lookup handled.reply
          let call := { lookup, envelope, handled := some handled, waiting := false }
          (⟨some reply, effects⟩, { s with
            gate := gate.remember now monotonic effects
            calls := s.calls.set i call })
      | _ => ({}, s)
  | .fail i =>
      match s.calls[i]? with
      | some { lookup, envelope, handled, waiting := true } =>
          (⟨some (refuse serviceUnavailable), {}⟩,
            { s with calls := s.calls.set i { lookup, envelope, handled, waiting := false } })
      | _ => ({}, s)
  | .call c => ({}, { s with db := (c.run env.toProcessEnv s.db).2 })

/-! ### Its transactions -/

def LinkCall.access (c : LinkCall) : GatewayCall where
  lookup := c.lookup
  committed := c.handled.bind CallOutcome.answer
  waiting := c.waiting

/-- The state without HTTP. -/
def LinkSystem.access (s : LinkSystem) : AccessSystem where
  gate := s.gate
  calls := s.calls.map LinkCall.access
  db := s.db

/-- The event without HTTP: what Convex refuses is not committed, and its reply is a failure. -/
def LinkSystem.accessEvent (settings : LinkSettings) (env : HttpEnv) (s : LinkSystem) :
    LinkEvent → Option AccessEvent
  | .arrive now monotonic r _ => some (.arrive now monotonic r)
  | .handle now i =>
      match s.calls[i]? with
      | some { lookup, envelope, handled := none, waiting } =>
          let call : LinkCall := { lookup, envelope, waiting }
          match handle env now (call.request settings) with
          | .transaction _ => some (.commit now i)
          | _ => none
      | _ => none
  | .receive now monotonic i =>
      match s.calls[i]? with
      | some { handled := some (.refused _), waiting := true, .. } => some (.fail i)
      | _ => some (.receive now monotonic i)
  | .fail i => some (.fail i)
  | .call c => some (.call c)

/-! ### One reply -/

variable {P : PyText} {lax : String → Option ℤ} {settings : LinkSettings} {env : HttpEnv}

/-- The kind of answer that a gateway call gets. -/
def AnswersTo (txn : Txn) : Answer → Prop
  | .threw _ => True
  | .described _ => ∃ hash, txn = .describe hash
  | .authorized _ => ∃ args, txn = .authorize args
  | _ => False

theorem run_answers {settings : AccessSettings} {l : Lookup} (hl : l.Proper settings)
    (env : ProcessEnv) (db : Db) (now : ℕ) :
    AnswersTo l.txn (Call.run env db ⟨now, l.txn⟩).1 := by
  rcases hl.txn with htxn | htxn
  · rw [htxn]
    simp only [Call.run]
    split
    · exact ⟨_, rfl⟩
    · trivial
  · rw [htxn, run_authorize]
    rcases commit_cases db .authorized (authorize env now _ db) with ⟨e, -, hc⟩ | ⟨a, db', -, hc⟩
    · rw [hc]
      trivial
    · rw [hc]
      exact ⟨_, rfl⟩

theorem mapM_endpointNamed (endpoints : List ApiEndpoint) :
    (endpoints.map ApiEndpoint.name).mapM endpointNamed = some endpoints := by
  have hnamed : ∀ e : ApiEndpoint, endpointNamed e.name = some e := by
    intro e
    cases e <;> decide
  induction endpoints with
  | nil => rfl
  | cons e endpoints ih => simp [hnamed, ih]

theorem described_key (d : KeyDescription) : d.described.key = some d := by
  obtain ⟨keyId, userId, isSiteKey, rateLimitPerMinute, accountLimit, routeLimit, endpoints⟩ := d
  cases endpoints <;>
    simp only [DescribedKey.key, KeyDescription.described, Option.bind_some, Option.map_none,
      Option.map_some, JsNumber.digits_toString, mapM_endpointNamed, Option.bind_eq_bind] <;>
    rfl

theorem describeAnswer_error {reply : DescribeReply} {status : AuthorizeStatus}
    (h : describeAnswer (.described reply) = some (.error status)) : status ≠ .ok := by
  cases reply with
  | ok d =>
    rw [describeAnswer, gatewayDescribe] at h
    cases hd : KeyDescription.validate d <;> rw [hd] at h <;> cases h
  | _ =>
    cases h
    decide

/-- What the API does with a reply is what it does with the answer in it. -/
theorem receive_answerReply {g : Gate} {now : ℕ} {monotonic : ℚ} {l : Lookup} {answer : Answer}
    (settings : AccessSettings) (h : AnswersTo l.txn answer) :
    g.receive lax settings now monotonic l (answerReply answer) =
      g.conclude settings now monotonic l answer := by
  unfold Gate.receive Gate.conclude
  cases answer with
  | threw e =>
    have hauthorize : readAuthorization lax (answerReply (.threw e)) = none := rfl
    have hdescribe : readDescription lax (answerReply (.threw e)) = none := rfl
    rw [hauthorize, hdescribe]
    rfl
  | authorized reply =>
    obtain ⟨args, htxn⟩ := h
    rewrite [htxn, readAuthorization_reply]
    rfl
  | described reply =>
    obtain ⟨hash, htxn⟩ := h
    rw [htxn, readDescription_reply]
    simp only
    cases hanswer : describeAnswer (.described reply) with
    | none => rfl
    | some described =>
      cases described with
      | error status =>
        have hstatus := describeAnswer_error hanswer
        simp only [Option.map_some, describedKey, ne_eq, hstatus, not_false_eq_true, if_true]
      | ok d =>
        have hok : d.described.status = .ok := rfl
        simp only [Option.map_some, describedKey, hok, ne_eq, not_true_eq_false, if_false,
          described_key]
  | _ => exact False.elim h

theorem receive_refused {g : Gate} {now : ℕ} {monotonic : ℚ} {l : Lookup} {reply : HttpReply}
    (settings : AccessSettings) (h : payloadOf reply = none) :
    g.receive lax settings now monotonic l reply = (refuse serviceUnavailable, {}, g) := by
  unfold Gate.receive
  have hauthorize : readAuthorization lax reply = none := by rw [readAuthorization, h]; rfl
  have hdescribe : readDescription lax reply = none := by rw [readDescription, h]; rfl
  rw [hauthorize, hdescribe]
  split <;> rfl

/-! ### Runs -/

structure LinkCall.Sound (settings : AccessSettings) (c : LinkCall) : Prop where
  proper : c.lookup.Proper settings
  refused : ∀ reply, c.handled = some (.refused reply) → payloadOf reply = none
  answered : ∀ now answer, c.handled = some (.committed now answer) →
    AnswersTo c.lookup.txn answer

def LinkSystem.Sound (settings : AccessSettings) (s : LinkSystem) : Prop :=
  ∀ c ∈ s.calls, c.Sound settings

/-- Convex commits the transaction of a call, or refuses it with a reply that says nothing. -/
theorem handleCall_cases (env : HttpEnv) {c : LinkCall}
    (hc : c.lookup.Proper settings.toAccessSettings) (now : ℕ) (db : Db) :
    (handle env now (c.request settings) = .transaction c.lookup.txn ∧
      handleCall env now db (c.request settings) =
        (.committed now (Call.run env.toProcessEnv db ⟨now, c.lookup.txn⟩).1,
          (Call.run env.toProcessEnv db ⟨now, c.lookup.txn⟩).2)) ∨
    ∃ reply, handle env now (c.request settings) = .reply reply ∧ payloadOf reply = none ∧
      handleCall env now db (c.request settings) = (.refused reply, db) := by
  rcases handle_post_cases (l := c.lookup) hc c.envelope now with
    ⟨-, -, hhandle⟩ | ⟨-, reply, hhandle, hpayload⟩
  · refine Or.inl ⟨hhandle, ?_⟩
    rw [handleCall, LinkCall.request, hhandle]
  · refine Or.inr ⟨reply, hhandle, hpayload, ?_⟩
    rw [handleCall, LinkCall.request, hhandle]

theorem LinkSystem.Sound.set {s : LinkSystem} (h : s.Sound settings.toAccessSettings) {i : ℕ}
    {c : LinkCall} (hc : c.Sound settings.toAccessSettings) :
    ∀ x ∈ s.calls.set i c, x.Sound settings.toAccessSettings := by
  intro x hx
  rcases List.mem_or_eq_of_mem_set hx with hx | rfl
  · exact h x hx
  · exact hc

theorem LinkSystem.Sound.next {s : LinkSystem} (h : s.Sound settings.toAccessSettings)
    (e : LinkEvent) :
    (Runs.next (LinkSystem.step P lax settings env) s e).Sound settings.toAccessSettings := by
  cases e with
  | arrive now monotonic r envelope =>
    simp only [Runs.next, LinkSystem.step]
    cases harrival : (s.gate.arrive P settings.toAccessSettings now monotonic r).1 with
    | done reply => exact h
    | lookup l =>
      intro c hc
      rcases List.mem_append.mp hc with hc | hc
      · exact h c hc
      · rw [List.mem_singleton.mp hc]
        refine ⟨arrive_proper harrival, fun reply hnone => ?_, fun t answer hnone => ?_⟩
        · cases hnone
        · cases hnone
  | handle now i =>
    simp only [Runs.next, LinkSystem.step]
    rcases hcall : s.calls[i]? with _ | ⟨lookup, envelope, _ | handled, waiting⟩
    · exact h
    · have hsound := h _ (List.mem_of_getElem? hcall)
      rcases handleCall_cases env (c := ⟨lookup, envelope, none, waiting⟩) hsound.proper now s.db
        with ⟨-, hhandled⟩ | ⟨reply, -, hpayload, hhandled⟩
      · simp only [hhandled]
        refine h.set ⟨hsound.proper, fun reply hreply => ?_, fun t answer hanswer => ?_⟩
        · cases hreply
        · cases hanswer
          exact run_answers hsound.proper env.toProcessEnv s.db now
      · simp only [hhandled]
        refine h.set ⟨hsound.proper, fun reply' hreply => ?_, fun t answer hanswer => ?_⟩
        · cases hreply
          exact hpayload
        · cases hanswer
    · exact h
  | receive now monotonic i =>
    simp only [Runs.next, LinkSystem.step]
    rcases hcall : s.calls[i]? with _ | ⟨lookup, envelope, _ | handled, _ | _⟩
    · exact h
    · exact h
    · exact h
    · exact h
    · have hsound := h _ (List.mem_of_getElem? hcall)
      exact h.set ⟨hsound.proper, hsound.refused, hsound.answered⟩
  | fail i =>
    simp only [Runs.next, LinkSystem.step]
    rcases hcall : s.calls[i]? with _ | ⟨lookup, envelope, handled, _ | _⟩
    · exact h
    · exact h
    · have hsound := h _ (List.mem_of_getElem? hcall)
      exact h.set ⟨hsound.proper, hsound.refused, hsound.answered⟩
  | call c => exact h

theorem set_same {α : Type} {l : List α} {i : ℕ} {x : α} (h : l[i]? = some x) : l.set i x = l := by
  obtain ⟨hi, rfl⟩ := List.getElem?_eq_some_iff.mp h
  exact List.set_getElem_self hi

theorem access_get (s : LinkSystem) (i : ℕ) :
    s.access.calls[i]? = s.calls[i]?.map LinkCall.access := List.getElem?_map

/-- The step that an event makes without HTTP. -/
structure Matches (P : PyText) (lax : String → Option ℤ) (settings : LinkSettings) (env : HttpEnv)
    (s : LinkSystem) (e : LinkEvent) : Prop where
  state : (Runs.next (LinkSystem.step P lax settings env) s e).access =
    Runs.final (AccessSystem.step P settings.toAccessSettings env.toProcessEnv) s.access
      (s.accessEvent settings env e).toList
  reply : (LinkSystem.step P lax settings env s e).1.reply =
    (s.accessEvent settings env e).bind fun e' =>
      (AccessSystem.step P settings.toAccessSettings env.toProcessEnv s.access e').1.reply

variable {s : LinkSystem}

theorem matches_arrive (now : ℕ) (monotonic : ℚ) (r : ApiRequest) (envelope : Envelope) :
    Matches P lax settings env s (.arrive now monotonic r envelope) := by
  have hgate : s.access.gate = s.gate := rfl
  cases harrival : (s.gate.arrive P settings.toAccessSettings now monotonic r).1 with
  | done reply =>
    constructor <;>
      simp [Runs.next, LinkSystem.step, LinkSystem.accessEvent, AccessSystem.step, harrival,
        LinkSystem.access]
  | lookup l =>
    constructor <;>
      simp [Runs.next, LinkSystem.step, LinkSystem.accessEvent, AccessSystem.step, harrival,
        LinkSystem.access, LinkCall.access]

theorem matches_handle (h : s.Sound settings.toAccessSettings) (now i : ℕ) :
    Matches P lax settings env s (.handle now i) := by
  have hget := access_get s i
  rcases hcall : s.calls[i]? with _ | ⟨lookup, envelope, _ | handled, waiting⟩
  · constructor <;> simp [Runs.next, LinkSystem.step, LinkSystem.accessEvent, hcall]
  · have hsound := h _ (List.mem_of_getElem? hcall)
    rw [hcall] at hget
    rcases handleCall_cases env (c := ⟨lookup, envelope, none, waiting⟩) hsound.proper now s.db
      with ⟨hhandle, hhandled⟩ | ⟨reply, hhandle, -, hhandled⟩
    · constructor
      · simp [Runs.next, LinkSystem.step, LinkSystem.accessEvent, hcall, hhandle, hhandled,
          AccessSystem.step, LinkCall.access, LinkSystem.access, List.map_set, CallOutcome.answer]
      · simp [LinkSystem.step, LinkSystem.accessEvent, hcall, hhandle, AccessSystem.step, hget,
          LinkCall.access]
    · -- A refusal is not committed: without HTTP nothing happens, and the call stays open.
      have hsame : (s.calls.map LinkCall.access).set i
          (LinkCall.access ⟨lookup, envelope, some (.refused reply), waiting⟩) =
            s.calls.map LinkCall.access := set_same hget
      constructor
      · simp [Runs.next, LinkSystem.step, LinkSystem.accessEvent, hcall, hhandle, hhandled,
          LinkSystem.access, List.map_set, hsame]
      · simp [LinkSystem.step, LinkSystem.accessEvent, hcall, hhandle]
  · constructor <;> simp [Runs.next, LinkSystem.step, LinkSystem.accessEvent, hcall]

theorem matches_receive (h : s.Sound settings.toAccessSettings) (now : ℕ) (monotonic : ℚ) (i : ℕ) :
    Matches P lax settings env s (.receive now monotonic i) := by
  have hget := access_get s i
  have hgate : s.access.gate = s.gate := rfl
  rcases hcall : s.calls[i]? with _ | ⟨lookup, envelope, _ | handled, waiting⟩
  · rw [hcall] at hget
    constructor <;>
      simp [Runs.next, LinkSystem.step, LinkSystem.accessEvent, hcall, AccessSystem.step, hget]
  · rw [hcall] at hget
    constructor <;>
      simp [Runs.next, LinkSystem.step, LinkSystem.accessEvent, hcall, AccessSystem.step, hget,
        LinkCall.access]
  · have hsound := h _ (List.mem_of_getElem? hcall)
    rw [hcall] at hget
    cases handled with
    | refused reply =>
      cases waiting with
      | false =>
        constructor <;>
          simp [Runs.next, LinkSystem.step, LinkSystem.accessEvent, hcall, AccessSystem.step, hget,
            LinkCall.access, CallOutcome.answer]
      | true =>
        -- The reply to a refused call is a call that fails.
        have hreceive : s.gate.receive lax settings.toAccessSettings now monotonic lookup reply =
            (refuse serviceUnavailable, {}, s.gate) :=
          receive_refused settings.toAccessSettings (hsound.refused reply rfl)
        have hremember : s.gate.remember now monotonic {} = s.gate := rfl
        constructor <;>
          simp [Runs.next, LinkSystem.step, LinkSystem.accessEvent, hcall, AccessSystem.step,
            LinkCall.access, CallOutcome.answer, CallOutcome.reply, hreceive, hremember,
            LinkSystem.access, List.map_set]
    | committed t answer =>
      cases waiting with
      | false =>
        constructor <;>
          simp [Runs.next, LinkSystem.step, LinkSystem.accessEvent, hcall, AccessSystem.step, hget,
            LinkCall.access, CallOutcome.answer]
      | true =>
        have hreceive : s.gate.receive lax settings.toAccessSettings now monotonic lookup
            (answerReply answer) =
              s.gate.conclude settings.toAccessSettings now monotonic lookup answer :=
          receive_answerReply settings.toAccessSettings (hsound.answered t answer rfl)
        constructor <;>
          simp [Runs.next, LinkSystem.step, LinkSystem.accessEvent, hcall, AccessSystem.step,
            LinkCall.access, CallOutcome.answer, CallOutcome.reply, hreceive, LinkSystem.access,
            List.map_set]

theorem matches_fail (i : ℕ) : Matches P lax settings env s (.fail i) := by
  have hget := access_get s i
  rcases hcall : s.calls[i]? with _ | ⟨lookup, envelope, handled, waiting⟩
  · rw [hcall] at hget
    constructor <;>
      simp [Runs.next, LinkSystem.step, LinkSystem.accessEvent, hcall, AccessSystem.step, hget]
  · rw [hcall] at hget
    cases waiting <;> constructor <;>
      simp [Runs.next, LinkSystem.step, LinkSystem.accessEvent, hcall, AccessSystem.step,
        LinkCall.access, LinkSystem.access, List.map_set]

theorem LinkSystem.Sound.matched (h : s.Sound settings.toAccessSettings) (e : LinkEvent) :
    Matches P lax settings env s e := by
  cases e with
  | arrive now monotonic r envelope => exact matches_arrive now monotonic r envelope
  | handle now i => exact matches_handle h now i
  | receive now monotonic i => exact matches_receive h now monotonic i
  | fail i => exact matches_fail i
  | call c => exact ⟨rfl, rfl⟩

/-- A run over HTTP is a run in which the gateway's calls are transactions, whatever Convex refuses:
the requests get the same replies, and the gate and the database end up the same. -/
theorem link_refines (gate : Gate) (db : Db) (es : List LinkEvent) :
    let start : LinkSystem := { gate, db }
    let calls := Runs.image (LinkSystem.step P lax settings env)
      (LinkSystem.accessEvent settings env) start es
    let plain := AccessSystem.step P settings.toAccessSettings env.toProcessEnv
    (Runs.trace (LinkSystem.step P lax settings env) start es).filterMap (fun x => x.reply.reply) =
        (Runs.trace plain start.access calls).filterMap (fun x => x.reply.reply) ∧
      (Runs.final (LinkSystem.step P lax settings env) start es).access =
        Runs.final plain start.access calls := by
  have hsound : LinkSystem.Sound settings.toAccessSettings { gate, db } :=
    fun c hc => absurd hc List.not_mem_nil
  have hnext : ∀ (s : LinkSystem) (e : LinkEvent), s.Sound settings.toAccessSettings →
      (Runs.next (LinkSystem.step P lax settings env) s e).Sound settings.toAccessSettings :=
    fun _ e h => h.next e
  have hstate : ∀ (s : LinkSystem) (e : LinkEvent), s.Sound settings.toAccessSettings →
      (Runs.next (LinkSystem.step P lax settings env) s e).access =
        Runs.final (AccessSystem.step P settings.toAccessSettings env.toProcessEnv) s.access
          (s.accessEvent settings env e).toList := fun _ e h => (h.matched e).state
  exact ⟨Runs.filterMap_image hnext hstate (fun _ e h => (h.matched e).reply) hsound es,
    Runs.final_image_of hnext hstate hsound es⟩

/-- The call of a request that arrives runs its transaction exactly when Convex knows the secret and
the body is not too long, and then the API goes on with what the transaction answered. Any other
call leaves the database as it is, and the request is told that the service is unavailable. -/
theorem call_exact {g : Gate} {now : ℕ} {monotonic : ℚ} {r : ApiRequest} {l : Lookup}
    (h : (g.arrive P settings.toAccessSettings now monotonic r).1 = .lookup l) (envelope : Envelope)
    (db : Db) (t : ℕ) :
    let handled := handleCall env t db (LinkCall.request settings { lookup := l, envelope })
    let (answer, after) := Call.run env.toProcessEnv db ⟨t, l.txn⟩
    (Trusts env settings.gatewaySecret ∧ envelope.Fits →
      handled = (.committed t answer, after) ∧
        ∀ (g' : Gate) (now' : ℕ) (monotonic' : ℚ),
          g'.receive lax settings.toAccessSettings now' monotonic' l handled.1.reply =
            g'.conclude settings.toAccessSettings now' monotonic' l answer) ∧
      (¬ (Trusts env settings.gatewaySecret ∧ envelope.Fits) →
        handled.2 = db ∧ ∀ (g' : Gate) (now' : ℕ) (monotonic' : ℚ),
          g'.receive lax settings.toAccessSettings now' monotonic' l handled.1.reply =
            (refuse serviceUnavailable, {}, g')) := by
  intro handled
  have hproper := arrive_proper h
  have hanswers := run_answers hproper env.toProcessEnv db t
  cases hrun : Call.run env.toProcessEnv db ⟨t, l.txn⟩ with
  | mk answer after =>
    rw [hrun] at hanswers
    rcases @handle_post_cases env settings l hproper envelope t with
      ⟨htrusts, hfits, hhandle⟩ | ⟨hnot, reply, hhandle, hpayload⟩
    · have hhandled : handled = (.committed t answer, after) := by
        simp only [handled, handleCall, LinkCall.request, hhandle, hrun]
      refine ⟨fun _ => ⟨hhandled, fun g' now' monotonic' => ?_⟩,
        fun hnot => absurd ⟨htrusts, hfits⟩ hnot⟩
      rw [hhandled]
      exact receive_answerReply settings.toAccessSettings hanswers
    · have hhandled : handled = (.refused reply, db) := by
        simp only [handled, handleCall, LinkCall.request, hhandle]
      refine ⟨fun hknown => absurd hknown hnot, fun _ => ?_⟩
      rw [hhandled]
      exact ⟨rfl, fun g' now' monotonic' => receive_refused settings.toAccessSettings hpayload⟩

/-! ### A small deployment -/

def linkEnv : HttpEnv where
  toProcessEnv := testEnv
  digest_valid := testEnv_digest

def linkSettings : LinkSettings where
  limits := ⟨100, 60⟩
  hashCredential := testEnv.hmacSha256Hex "pepper"
  gatewaySecret := "test-gateway-secret-0123456789abcdefghijklmnop"
  limits_valid := by decide
  hash_valid := testEnv_digest "pepper"

/-- One account on the free tier, whose key is `sampleKey`. -/
def linkDb : Db := { freeAccount with
  apiKeys := Docs.Table.empty.insert
    { userId := 0, keyHash := linkSettings.hashCredential sampleKey } }

/-- The body of the call for `sampleKey`. -/
def linkText : String :=
  "\x7b\"kind\":\"key\",\"hash\":" ++
    "\"0222c36204b1c345b3c8c73c8cfc44b9621757d8795e8672204a2cb58eb4eb11\"," ++
    "\"endpoint\":\"geocode\",\"defaultLimit\":100\x7d"

def linkEnvelope : Envelope where
  contentLength := some "128"
  text := linkText

def Arrival.lookup? : Arrival → Option Lookup
  | .done _ => none
  | .lookup l => some l

theorem Arrival.eq_lookup {a : Arrival} {l : Lookup} (h : a.lookup? = some l) : a = .lookup l := by
  cases a with
  | done reply => cases h
  | lookup l' => exact congrArg Arrival.lookup (Option.some.inj h)

/-- The request asks Convex, its transaction runs, and the request gets through; with the length of
a longer body nothing runs, and the request is turned away. -/
theorem call_exact_sample : ∃ l : Lookup,
    (accessSystem.gate.arrive asciiTables linkSettings.toAccessSettings 0 0 sampleRequest).1 =
        .lookup l ∧
      let handled := handleCall linkEnv 1 linkDb
        (LinkCall.request linkSettings ⟨l, linkEnvelope, none, true⟩)
      let long := handleCall linkEnv 1 linkDb
        (LinkCall.request linkSettings ⟨l, { linkEnvelope with contentLength := some "300000" },
          none, true⟩)
      let receive := accessSystem.gate.receive (fun _ => none) linkSettings.toAccessSettings 2 2 l
      handled = (.committed 1 (Call.run testEnv linkDb ⟨1, l.txn⟩).1,
          (Call.run testEnv linkDb ⟨1, l.txn⟩).2) ∧
        (receive handled.1.reply).1.verdict.isOk = true ∧ long.2 = linkDb ∧
          receive long.1.reply = (refuse serviceUnavailable, {}, accessSystem.gate) := by
  obtain ⟨l, hl, hok⟩ : ∃ l, (accessSystem.gate.arrive asciiTables linkSettings.toAccessSettings
      0 0 sampleRequest).1.lookup? = some l ∧ (accessSystem.gate.conclude
        linkSettings.toAccessSettings 2 2 l
        (Call.run testEnv linkDb ⟨1, l.txn⟩).1).1.verdict.isOk = true := by
    apply (Option.any_eq_true _ _).mp
    decide +kernel
  have hcall (envelope : Envelope) := @call_exact asciiTables (fun _ => none) linkSettings linkEnv
    _ _ _ _ l (Arrival.eq_lookup hl) envelope linkDb 1
  have hknown : Trusts linkEnv linkSettings.gatewaySecret :=
    ⟨by decide +kernel, by decide +kernel⟩
  obtain ⟨hhandled, hreceive⟩ := (hcall linkEnvelope).1 ⟨hknown, by decide +kernel⟩
  obtain ⟨hkept, hrefused⟩ := (hcall { linkEnvelope with contentLength := some "300000" }).2
    fun h => absurd h.2 (by decide +kernel)
  refine ⟨l, Arrival.eq_lookup hl, hhandled, ?_, hkept, hrefused ..⟩
  rw [hreceive]
  exact hok

end GeoPlatform.Api
