import GeoPlatform.Api.AccessRuns

/-! What the gate remembers over a run: the failures of a client in a minute, and the credentials
that Convex refused for good. -/
namespace GeoPlatform.Api
open GeoPlatform.ArcGIS BoundedCounter Recency
open GeoPlatform.Convex hiding KeyDescription RateLimitState Principal

variable {P : PyText} {settings : AccessSettings} {env : ProcessEnv}

/-! ### The logs of a run -/

/-- `time.time()` and `time.monotonic()` at an event that reads them. -/
def AccessEvent.clock : AccessEvent → Option (ℕ × ℚ)
  | .arrive now monotonic _ => some (now, monotonic)
  | .receive now monotonic _ => some (now, monotonic)
  | _ => none

/-- The minutes of a run never go back, and its monotonic clock does not. -/
def SteadyClocks (es : List AccessEvent) : Prop :=
  (es.filterMap AccessEvent.clock).Pairwise fun a b => minuteOf a.1 ≤ minuteOf b.1 ∧ a.2 ≤ b.2

/-- The failure that an entry records, with its minute. -/
def failureOf (x : Runs.Entry AccessSystem AccessEvent AccessReply) : Option (String × ℕ) :=
  match x.reply.effects.failure, x.event.clock with
  | some client, some (now, _) => some (client, minuteOf now)
  | _, _ => none

/-- The refusal that an entry remembers, with its time. -/
def refusalOf (x : Runs.Entry AccessSystem AccessEvent AccessReply) :
    Option (String × ℚ × AuthorizeStatus) :=
  match x.reply.effects.refusal, x.event.clock with
  | some (hash, status), some (_, monotonic) => some (hash, monotonic, status)
  | _, _ => none

def failures (P : PyText) (settings : AccessSettings) (env : ProcessEnv) (s : AccessSystem)
    (es : List AccessEvent) : List (String × ℕ) :=
  (Runs.trace (AccessSystem.step P settings env) s es).filterMap failureOf

def refusals (P : PyText) (settings : AccessSettings) (env : ProcessEnv) (s : AccessSystem)
    (es : List AccessEvent) : Puts :=
  (Runs.trace (AccessSystem.step P settings env) s es).filterMap refusalOf

/-! ### Steps of the gate -/

variable (P settings)

/-- A request that arrives reads both memories, and remembers no refusal. -/
theorem arrive_gate (g : Gate) (now : ℕ) (monotonic : ℚ) (r : ApiRequest) :
    (g.arrive P settings now monotonic r).2.2.failedAuth = g.failedAuth ∧
      ((g.arrive P settings now monotonic r).2.2.knownBad = g.knownBad ∨
        ∃ hash, (g.arrive P settings now monotonic r).2.2.knownBad =
          (g.knownBad.get hash monotonic).2) ∧
      (g.arrive P settings now monotonic r).2.1.refusal = none := by
  unfold Gate.arrive
  split_ifs
  · exact ⟨rfl, .inl rfl, rfl⟩
  · split
    · exact ⟨rfl, .inl rfl, rfl⟩
    · rename_i credentials hcredentials
      split
      · exact ⟨rfl, .inl rfl, rfl⟩
      · rcases hkind : credentialKind (strip P credentials.toList) with _ | kind
        · simp only [hkind]
          exact ⟨trivial, .inl trivial, trivial⟩
        · simp only [hkind]
          split
          · exact ⟨rfl, .inr ⟨_, rfl⟩, rfl⟩
          · split_ifs
            · split <;> exact ⟨rfl, .inr ⟨_, rfl⟩, rfl⟩
            · exact ⟨rfl, .inr ⟨_, rfl⟩, rfl⟩

variable {P settings}

variable (settings)

theorem conclude_gate (g : Gate) (now : ℕ) (monotonic : ℚ) (l : Lookup) (answer : Answer) :
    (g.conclude settings now monotonic l answer).2.2.failedAuth = g.failedAuth ∧
      (g.conclude settings now monotonic l answer).2.2.knownBad = g.knownBad := by
  unfold Gate.conclude
  split
  · split <;> exact ⟨rfl, rfl⟩
  · split <;> exact ⟨rfl, rfl⟩

variable {settings}

/-- A refusal is remembered for the credential that Convex was asked about. -/
theorem conclude_refusal {g : Gate} {now : ℕ} {monotonic : ℚ} {l : Lookup} {answer : Answer}
    {args : AuthorizeArgs} (htxn : l.txn = .authorize args) {hash : String}
    {status : AuthorizeStatus}
    (h : (g.conclude settings now monotonic l answer).2.1.refusal = some (hash, status)) :
    ∃ reply, answer = .authorized reply ∧ l.hash = hash ∧ reply.status = status := by
  unfold Gate.conclude at h
  rw [htxn] at h
  simp only at h
  split at h
  · cases h
  · rename_i result hresult
    simp only [terminalEffects] at h
    split_ifs at h
    obtain ⟨rfl, rfl⟩ := Prod.mk.inj (Option.some.inj h)
    cases answer with
    | authorized reply =>
      simp only [gatewayAuthorize, Option.bind_eq_bind, Option.bind_eq_some_iff] at hresult
      obtain ⟨rateLimit, -, hreturn⟩ := hresult
      obtain rfl := Option.some.inj hreturn
      exact ⟨reply, rfl, rfl, rfl⟩
    | _ => cases hresult

/-! ### Memory along a run -/

/-- What a gate remembers after failures and refusals, all of them read at one of the clocks. -/
structure Gate.Remembers (g start : Gate) (failed : List (String × ℕ)) (refused : Puts)
    (clocks : List (ℕ × ℚ)) : Prop where
  limit : g.failedAuth.limit = start.failedAuth.limit
  maxClients : g.failedAuth.maxClients = start.failedAuth.maxClients
  ttl : g.knownBad.ttl = start.knownBad.ttl
  maxEntries : g.knownBad.maxEntries = start.knownBad.maxEntries
  failures : g.failedAuth.Knows failed
  minutes : ∀ j ∈ failed, ∃ c ∈ clocks, j.2 = minuteOf c.1
  refusals : 0 < start.knownBad.ttl → ∀ t, (∀ c ∈ clocks, c.2 ≤ t) → g.knownBad.Knows refused t

theorem knownBad_get_same (c : TerminalStatusCache) (hash : String) (monotonic : ℚ) :
    (c.get hash monotonic).2.ttl = c.ttl ∧ (c.get hash monotonic).2.maxEntries = c.maxEntries := by
  unfold TerminalStatusCache.get
  split
  · exact ⟨rfl, rfl⟩
  · split_ifs <;> exact ⟨rfl, rfl⟩

theorem knownBad_put_same (c : TerminalStatusCache) (hash : String) (status : AuthorizeStatus)
    (monotonic : ℚ) : (c.put hash status monotonic).ttl = c.ttl ∧
      (c.put hash status monotonic).maxEntries = c.maxEntries := by
  unfold TerminalStatusCache.put
  split_ifs <;> exact ⟨rfl, rfl⟩

variable {g g' start : Gate} {failed : List (String × ℕ)} {refused : Puts}
variable {clocks : List (ℕ × ℚ)} {now : ℕ} {monotonic : ℚ}

/-- What a step reads leaves the memory as it is, at the clock of the step. -/
theorem Gate.Remembers.read (h : g.Remembers start failed refused clocks) (now : ℕ)
    (hclocks : ∀ c ∈ clocks, c.2 ≤ monotonic) (hfailed : g'.failedAuth = g.failedAuth)
    (hknown : g'.knownBad = g.knownBad ∨
      ∃ hash, g'.knownBad = (g.knownBad.get hash monotonic).2) :
    g'.Remembers start failed refused (clocks ++ [(now, monotonic)]) := by
  have hminutes : ∀ j ∈ failed, ∃ c ∈ clocks ++ [(now, monotonic)], j.2 = minuteOf c.1 := by
    intro j hj
    obtain ⟨c, hc, heq⟩ := h.minutes j hj
    exact ⟨c, List.mem_append_left _ hc, heq⟩
  have hlast : ∀ {t}, (∀ c ∈ clocks ++ [(now, monotonic)], c.2 ≤ t) → monotonic ≤ t :=
    fun ht => ht (now, monotonic) (by simp)
  rcases hknown with hknown | ⟨hash, hknown⟩
  · refine ⟨by rw [hfailed, h.limit], by rw [hfailed, h.maxClients], by rw [hknown, h.ttl],
      by rw [hknown, h.maxEntries], by rw [hfailed]; exact h.failures, hminutes, ?_⟩
    intro hpos t ht
    rw [hknown]
    exact h.refusals hpos t fun c hc => ht c (List.mem_append_left _ hc)
  · obtain ⟨httl, hmax⟩ := knownBad_get_same g.knownBad hash monotonic
    refine ⟨by rw [hfailed, h.limit], by rw [hfailed, h.maxClients], by rw [hknown, httl, h.ttl],
      by rw [hknown, hmax, h.maxEntries], by rw [hfailed]; exact h.failures, hminutes, ?_⟩
    intro hpos t ht
    rw [hknown]
    exact ((h.refusals hpos monotonic hclocks).get le_rfl hash).later (hlast ht)

theorem Gate.Remembers.fail (h : g.Remembers start failed refused clocks) (client : String)
    (hmem : (now, monotonic) ∈ clocks)
    (hclocks : ∀ c ∈ clocks, minuteOf c.1 ≤ minuteOf now) :
    Gate.Remembers { g with failedAuth := g.failedAuth.recordFailure client now } start
      (failed ++ [(client, minuteOf now)]) refused clocks := by
  refine ⟨h.limit, h.maxClients, h.ttl, h.maxEntries, ?_, ?_, h.refusals⟩
  · refine h.failures.recordFailure client fun j hj => ?_
    obtain ⟨c, hc, heq⟩ := h.minutes j hj
    rw [heq]
    exact hclocks c hc
  · intro j hj
    rcases List.mem_append.mp hj with hj | hj
    · exact h.minutes j hj
    · rw [List.mem_singleton.mp hj]
      exact ⟨_, hmem, rfl⟩

theorem Gate.Remembers.refuse (h : g.Remembers start failed refused clocks) (hash : String)
    (status : AuthorizeStatus) (hmem : (now, monotonic) ∈ clocks)
    (hclocks : ∀ c ∈ clocks, c.2 ≤ monotonic) :
    Gate.Remembers { g with knownBad := g.knownBad.put hash status monotonic } start
      failed (refused ++ [(hash, monotonic, status)]) clocks := by
  obtain ⟨httl, hmax⟩ := knownBad_put_same g.knownBad hash status monotonic
  refine ⟨h.limit, h.maxClients, httl.trans h.ttl, hmax.trans h.maxEntries, h.failures, h.minutes,
    fun hpos t ht => ?_⟩
  have hput :=
    (h.refusals hpos monotonic hclocks).put le_rfl (by rw [h.ttl]; exact hpos) hash status
  exact hput.later (ht _ hmem)

/-- A step that has read its clock remembers what it is to remember. -/
theorem Gate.Remembers.remember (h : g.Remembers start failed refused clocks)
    (hmem : (now, monotonic) ∈ clocks)
    (hclocks : ∀ c ∈ clocks, minuteOf c.1 ≤ minuteOf now ∧ c.2 ≤ monotonic) (e : Effects) :
    (g.remember now monotonic e).Remembers start
      (failed ++ (e.failure.map fun client => (client, minuteOf now)).toList)
      (refused ++ (e.refusal.map fun r => (r.1, monotonic, r.2)).toList) clocks := by
  obtain ⟨refusal, failure⟩ := e
  have hput : (g.remember now monotonic ⟨refusal, none⟩).Remembers start failed
      (refused ++ (refusal.map fun r => (r.1, monotonic, r.2)).toList) clocks := by
    cases refusal with
    | none => simpa [Gate.remember] using h
    | some r => exact h.refuse r.1 r.2 hmem fun c hc => (hclocks c hc).2
  cases failure with
  | none => simpa using hput
  | some client => exact hput.fail client hmem fun c hc => (hclocks c hc).1

variable (P settings env) (s : AccessSystem)

/-- A step that reads the clocks reads the gate, then remembers. -/
theorem step_gate_clock {e : AccessEvent} (h : e.clock = some (now, monotonic)) :
    ∃ g' : Gate, g'.failedAuth = s.gate.failedAuth ∧
      (g'.knownBad = s.gate.knownBad ∨
        ∃ hash, g'.knownBad = (s.gate.knownBad.get hash monotonic).2) ∧
      (Runs.next (AccessSystem.step P settings env) s e).gate =
        g'.remember now monotonic (s.step P settings env e).1.effects := by
  cases e with
  | arrive now' monotonic' r =>
    obtain ⟨rfl, rfl⟩ := Prod.mk.inj (Option.some.inj h)
    obtain ⟨hfailed, hknown, -⟩ := arrive_gate P settings s.gate now'
      monotonic' r
    refine ⟨_, hfailed, hknown, ?_⟩
    simp only [Runs.next, AccessSystem.step]
    split <;> rfl
  | receive now' monotonic' i =>
    obtain ⟨rfl, rfl⟩ := Prod.mk.inj (Option.some.inj h)
    rcases hcall : s.calls[i]? with _ | ⟨l, _ | ⟨at', answer⟩, _ | _⟩
    · exact ⟨s.gate, rfl, .inl rfl, by simp [Runs.next, AccessSystem.step, hcall, Gate.remember]⟩
    · exact ⟨s.gate, rfl, .inl rfl, by simp [Runs.next, AccessSystem.step, hcall, Gate.remember]⟩
    · exact ⟨s.gate, rfl, .inl rfl, by simp [Runs.next, AccessSystem.step, hcall, Gate.remember]⟩
    · exact ⟨s.gate, rfl, .inl rfl, by simp [Runs.next, AccessSystem.step, hcall, Gate.remember]⟩
    · obtain ⟨hfailed, hknown⟩ := conclude_gate settings s.gate now' monotonic' l
        answer
      exact ⟨_, hfailed, .inl hknown, by simp [Runs.next, AccessSystem.step, hcall]⟩
  | commit now' i => cases h
  | fail i => cases h
  | call c => cases h

theorem step_gate_still {e : AccessEvent} (h : e.clock = none) :
    (Runs.next (AccessSystem.step P settings env) s e).gate = s.gate ∧
      (s.step P settings env e).1.effects = {} := by
  cases e with
  | arrive now monotonic r => cases h
  | receive now monotonic i => cases h
  | commit now i =>
    rcases hcall : s.calls[i]? with _ | ⟨l, _ | c, waiting⟩ <;>
      simp [Runs.next, AccessSystem.step, hcall]
  | fail i =>
    rcases hcall : s.calls[i]? with _ | ⟨l, committed, _ | _⟩ <;>
      simp [Runs.next, AccessSystem.step, hcall]
  | call c => exact ⟨rfl, rfl⟩

variable {P settings env s}

theorem failures_append (pre : List AccessEvent) (e : AccessEvent) :
    failures P settings env s (pre ++ [e]) = failures P settings env s pre ++
      (failureOf ⟨Runs.final (AccessSystem.step P settings env) s pre, e,
        ((Runs.final (AccessSystem.step P settings env) s pre).step P settings env
          e).1⟩).toList := by
  rw [failures, Runs.trace_append, List.filterMap_append]
  simp only [Runs.trace_cons, Runs.trace_nil, List.filterMap_cons, List.filterMap_nil]
  congr 1

theorem refusals_append (pre : List AccessEvent) (e : AccessEvent) :
    refusals P settings env s (pre ++ [e]) = refusals P settings env s pre ++
      (refusalOf ⟨Runs.final (AccessSystem.step P settings env) s pre, e,
        ((Runs.final (AccessSystem.step P settings env) s pre).step P settings env
          e).1⟩).toList := by
  rw [refusals, Runs.trace_append, List.filterMap_append]
  simp only [Runs.trace_cons, Runs.trace_nil, List.filterMap_cons, List.filterMap_nil]
  congr 1

variable (P settings env)

/-- What the gate remembers after a run from a fresh start. -/
theorem remembers_run (hfailed : s.gate.failedAuth.windows = [])
    (hknown : s.gate.knownBad.entries = []) {es : List AccessEvent} (hsteady : SteadyClocks es) :
    (Runs.final (AccessSystem.step P settings env) s es).gate.Remembers s.gate
      (failures P settings env s es) (refusals P settings env s es)
      (es.filterMap AccessEvent.clock) := by
  induction es using List.reverseRecOn with
  | nil =>
    refine ⟨rfl, rfl, rfl, rfl, ?_, ?_, fun _ t _ => ?_⟩
    · have hfresh : s.gate.failedAuth =
          ⟨s.gate.failedAuth.limit, s.gate.failedAuth.maxClients, []⟩ := by rw [← hfailed]
      show s.gate.failedAuth.Knows []
      rw [hfresh]
      exact FailureLimiter.knows_nil _ _
    · exact fun j hj => absurd hj List.not_mem_nil
    · have hfresh : s.gate.knownBad =
          ⟨s.gate.knownBad.ttl, s.gate.knownBad.maxEntries, []⟩ := by rw [← hknown]
      show s.gate.knownBad.Knows [] t
      rw [hfresh]
      exact TerminalStatusCache.knows_nil _ _ t
  | append_singleton pre e ih =>
    rw [SteadyClocks, List.filterMap_append] at hsteady
    obtain ⟨hpre, -, hcross⟩ := List.pairwise_append.mp hsteady
    have hold := ih hpre
    rw [failures_append, refusals_append, Runs.final_append, List.filterMap_append]
    simp only [Runs.final_cons, Runs.final_nil]
    generalize Runs.final (AccessSystem.step P settings env) s pre = s' at hold ⊢
    cases hclock : e.clock with
    | none =>
      obtain ⟨hgate, heffects⟩ := step_gate_still P settings env s' hclock
      simp only [failureOf, refusalOf, heffects, hgate, List.filterMap_cons, hclock,
        List.filterMap_nil, Option.toList_none, List.append_nil]
      exact hold
    | some c =>
      obtain ⟨now, monotonic⟩ := c
      obtain ⟨g', hfailed', hknown', hgate⟩ := step_gate_clock P settings env s' hclock
      have hbefore : ∀ c ∈ pre.filterMap AccessEvent.clock,
          minuteOf c.1 ≤ minuteOf now ∧ c.2 ≤ monotonic := by
        exact fun c hc => hcross c hc (now, monotonic) (by simp [hclock])
      have hread := hold.read now (fun c hc => (hbefore c hc).2) hfailed' hknown'
      have hnew : (now, monotonic) ∈ pre.filterMap AccessEvent.clock ++ [(now, monotonic)] :=
        List.mem_append_right _ (List.mem_singleton_self _)
      have hremember := hread.remember hnew (fun c hc => by
        rcases List.mem_append.mp hc with hc | hc
        · exact hbefore c hc
        · rw [List.mem_singleton.mp hc]
          exact ⟨le_rfl, le_rfl⟩) (s'.step P settings env e).1.effects
      rw [← hgate] at hremember
      have hfailure : failureOf ⟨s', e, (s'.step P settings env e).1⟩ =
          (s'.step P settings env e).1.effects.failure.map fun c => (c, minuteOf now) := by
        simp only [failureOf, hclock]
        cases (s'.step P settings env e).1.effects.failure <;> rfl
      have hrefusal : refusalOf ⟨s', e, (s'.step P settings env e).1⟩ =
          (s'.step P settings env e).1.effects.refusal.map fun r => (r.1, monotonic, r.2) := by
        simp only [refusalOf, hclock]
        rcases (s'.step P settings env e).1.effects.refusal with _ | ⟨hash, status⟩ <;> rfl
      rw [hfailure, hrefusal]
      simpa only [List.filterMap_cons, hclock, List.filterMap_nil] using hremember

variable {P settings env}

/-! ### Clients with too many failures -/

theorem refusal_ne_tooMany (status : AuthorizeStatus) (kind : CredentialKind) (retryAfter : ℕ) :
    refusal status kind ≠ tooManyFailures retryAfter := by
  cases status <;> cases kind <;> simp [refusal, invalidKey, tooManyFailures]

theorem enforceReply_ne_tooMany {r : SiteRequest} {d : KeyDescription} {retryAfter : ℕ} :
    (enforceReply settings g r d).1 ≠ refuse (tooManyFailures retryAfter) := by
  intro h
  have hverdict := congrArg Reply.verdict h
  simp only [enforceReply, refuse] at hverdict
  split at hverdict
  · cases hverdict
  · cases congrArg ApiError.statusCode (Except.error.inj hverdict)
  · exact refusal_ne_tooMany _ _ _ (Except.error.inj hverdict)
  · cases congrArg ApiError.statusCode (Except.error.inj hverdict)
  · have hmessage : "Too many requests." =
        "Too many failed authentication attempts. Try again later." :=
      congrArg ApiError.message (Except.error.inj hverdict)
    exact absurd hmessage (by decide +kernel)

/-- A request with a credential is turned away for its client's failures exactly when the limiter
blocks the client. -/
theorem arrive_tooMany_iff {r : ApiRequest} {credentials client : String} {retryAfter : ℕ}
    (hheader : r.authorizations ≤ 1) (hcredentials : r.credentials = some credentials)
    (hnonempty : credentials ≠ "") (hclient : r.client = some client) :
    (g.arrive P settings now monotonic r).1 = .done (refuse (tooManyFailures retryAfter)) ↔
      g.failedAuth.blocked client now = some retryAfter := by
  have hpresented : r.credentials.filter (· ≠ "") = some credentials := by
    simp [hcredentials, hnonempty]
  unfold Gate.arrive
  rw [if_neg (by omega), hpresented, hclient, Option.bind_some]
  cases hblocked : g.failedAuth.blocked client now with
  | some n =>
    simp only [Arrival.done.injEq, refuse, Reply.mk.injEq, Except.error.injEq, and_true,
      tooManyFailures, ApiError.mk.injEq, true_and, Option.some.injEq]
  | none =>
    simp only [reduceCtorEq, iff_false]
    rcases hkind : credentialKind (strip P credentials.toList) with _ | kind
    · simp only
      exact fun h => refusal_ne_tooMany .invalid .key retryAfter
        (Except.error.inj (congrArg Reply.verdict (Arrival.done.inj h)))
    · simp only
      split
      · exact fun h => refusal_ne_tooMany _ _ _
          (Except.error.inj (congrArg Reply.verdict (Arrival.done.inj h)))
      · split_ifs
        · split
          · exact fun h => enforceReply_ne_tooMany (Arrival.done.inj h)
          · exact Arrival.noConfusion
        · exact not_false

theorem arrive_reply (s : AccessSystem) (r : ApiRequest) {reply : Reply} :
    (s.step P settings env (.arrive now monotonic r)).1.reply = some reply ↔
      (s.gate.arrive P settings now monotonic r).1 = .done reply := by
  simp only [AccessSystem.step]
  split
  · rename_i answered harrival
    simp [harrival]
  · rename_i l harrival
    simp [harrival]

theorem refusal_ne (status : AuthorizeStatus) (kind : CredentialKind) :
    refusal status kind ≠ severalHeaders ∧ refusal status kind ≠ missingKey := by
  cases status <;> cases kind <;> simp [refusal, invalidKey, severalHeaders, missingKey]

/-- On arrival a failure is recorded for a request whose credential is refused at once. -/
theorem arrive_failure_iff (g : Gate) (now : ℕ) (monotonic : ℚ) (r : ApiRequest) (client : String) :
    (g.arrive P settings now monotonic r).2.1.failure = some client ↔ r.client = some client ∧
      ∃ status kind, (g.arrive P settings now monotonic r).1 =
        .done (refuse (refusal status kind)) := by
  have hrefused (e : ApiError) (he : ∀ status kind, refusal status kind ≠ e) :
      ¬ (r.client = some client ∧
        ∃ status kind, Arrival.done (refuse e) = .done (refuse (refusal status kind))) := by
    rintro ⟨-, status, kind, h⟩
    exact he status kind (Except.error.inj (congrArg Reply.verdict (Arrival.done.inj h))).symm
  unfold Gate.arrive
  split_ifs
  · exact iff_of_false (by simp) (hrefused _ fun status kind => (refusal_ne status kind).1)
  · split
    · exact iff_of_false (by simp) (hrefused _ fun status kind => (refusal_ne status kind).2)
    · rename_i credentials hcredentials
      split
      · exact iff_of_false (by simp)
          (hrefused _ fun status kind => refusal_ne_tooMany status kind _)
      · rcases hkind : credentialKind (strip P credentials.toList) with _ | kind
        · simp only [hkind]
          exact ⟨fun h => ⟨h, .invalid, .key, rfl⟩, And.left⟩
        · simp only [hkind]
          split
          · rename_i status hknown
            exact ⟨fun h => ⟨h, status, kind, rfl⟩, And.left⟩
          · split_ifs
            · split
              · refine iff_of_false (by simp) ?_
                rintro ⟨-, status, kind', h⟩
                cases congrArg (fun reply : Reply => reply.state.principal) (Arrival.done.inj h)
              · exact iff_of_false (by simp) (by simp)
            · exact iff_of_false (by simp) (by simp)

/-- The status that a reply of Convex gives to the credential. -/
def Lookup.answered (l : Lookup) (answer : Answer) : Option AuthorizeStatus :=
  match l.txn with
  | .describe _ =>
      match describeAnswer answer with
      | some (.error status) => some status
      | _ => none
  | _ => (gatewayAuthorize answer).map Authorization.status

/-- On Convex's reply a failure is recorded for a credential that is refused for good. -/
theorem conclude_failure_iff (g : Gate) (now : ℕ) (monotonic : ℚ) (l : Lookup) (answer : Answer)
    (client : String) : (g.conclude settings now monotonic l answer).2.1.failure = some client ↔
      l.request.client = some client ∧
        ∃ status ∈ TERMINAL_STATUSES, l.answered answer = some status := by
  have hterminal (status : AuthorizeStatus) : (terminalEffects l status).failure = some client ↔
      l.request.client = some client ∧ ∃ status' ∈ TERMINAL_STATUSES,
        some status = some status' := by
    unfold terminalEffects
    split_ifs with hmem
    · exact ⟨fun h => ⟨h, status, hmem, rfl⟩, And.left⟩
    · refine iff_of_false nofun ?_
      rintro ⟨-, status', hmem', h⟩
      exact hmem (Option.some.inj h ▸ hmem')
  unfold Gate.conclude Lookup.answered
  cases l.txn with
  | describe hash =>
    rcases describeAnswer answer with _ | status | d
    · exact iff_of_false (by simp) (by simp)
    · exact hterminal status
    · exact iff_of_false (by simp) (by simp)
  | _ =>
    rcases gatewayAuthorize answer with _ | result
    · exact iff_of_false (by simp) (by simp)
    · exact hterminal result.status

theorem failureOf_eq_some (s : AccessSystem) (e : AccessEvent) (reply : AccessReply)
    (client : String) (m : ℕ) : failureOf ⟨s, e, reply⟩ = some (client, m) ↔
      reply.effects.failure = some client ∧ ∃ c, e.clock = some c ∧ m = minuteOf c.1 := by
  unfold failureOf
  cases reply.effects.failure with
  | none => simp
  | some client' =>
    cases e.clock with
    | none => simp
    | some c => simp [eq_comm]

/-- The failures of a run, read off its requests and replies: a request is refused at once for its
credential, or Convex refuses it for good. -/
theorem failureOf_iff (s : AccessSystem) (e : AccessEvent) (client : String) (m : ℕ) :
    failureOf ⟨s, e, (s.step P settings env e).1⟩ = some (client, m) ↔
      (∃ now monotonic r status kind, e = .arrive now monotonic r ∧ m = minuteOf now ∧
        r.client = some client ∧
        (s.step P settings env e).1.reply = some (refuse (refusal status kind))) ∨
      ∃ now monotonic i l at' answer, e = .receive now monotonic i ∧ m = minuteOf now ∧
        s.received e = some (l, at', answer) ∧ l.request.client = some client ∧
        ∃ status ∈ TERMINAL_STATUSES, l.answered answer = some status := by
  rw [failureOf_eq_some]
  cases e with
  | arrive now monotonic r =>
    have heffects : (s.step P settings env (.arrive now monotonic r)).1.effects =
        (s.gate.arrive P settings now monotonic r).2.1 := by
      simp only [AccessSystem.step]
      split <;> rfl
    rw [heffects, arrive_failure_iff]
    constructor
    · rintro ⟨⟨hclient, status, kind, hreply⟩, c, hc, rfl⟩
      cases hc
      exact Or.inl ⟨now, monotonic, r, status, kind, rfl, rfl, hclient,
        (arrive_reply s r).mpr hreply⟩
    · rintro (⟨_, _, _, status, kind, heq, rfl, hclient, hreply⟩ | ⟨_, _, _, _, _, _, heq, -⟩)
      · cases heq
        exact ⟨⟨hclient, status, kind, (arrive_reply s r).mp hreply⟩, _, rfl, rfl⟩
      · cases heq
  | receive now monotonic i =>
    rcases hcall : s.calls[i]? with _ | ⟨l, _ | ⟨at', answer⟩, _ | _⟩
    all_goals simp only [AccessSystem.step, AccessSystem.received, hcall]
    case some.some.true =>
      rw [conclude_failure_iff]
      constructor
      · rintro ⟨⟨hclient, hstatus⟩, c, hc, rfl⟩
        cases hc
        exact Or.inr ⟨now, monotonic, i, l, at', answer, rfl, rfl, rfl, hclient, hstatus⟩
      · rintro (⟨_, _, _, _, _, heq, -⟩ | ⟨_, _, _, _, _, _, heq, rfl, hreceived, hclient, hstatus⟩)
        · cases heq
        · cases heq
          cases hreceived
          exact ⟨⟨hclient, hstatus⟩, _, rfl, rfl⟩
    all_goals simp
  | _ => simp [AccessEvent.clock]

/-- A client is turned away only after as many failures of its own in this minute as the limit
allows; and whenever the clients that failed in this minute fit the limiter, exactly then. -/
theorem tooManyFailures_exact {s : AccessSystem} (hfailed : s.gate.failedAuth.windows = [])
    (hknown : s.gate.knownBad.entries = []) (hlimit : 0 < s.gate.failedAuth.limit)
    {es : List AccessEvent} {r : ApiRequest}
    (hsteady : SteadyClocks (es ++ [.arrive now monotonic r])) (hheader : r.authorizations ≤ 1)
    {credentials client : String} (hcredentials : r.credentials = some credentials)
    (hnonempty : credentials ≠ "") (hclient : r.client = some client) :
    let failed := failures P settings env s es
    let reply := ((Runs.final (AccessSystem.step P settings env) s es).step P settings env
      (.arrive now monotonic r)).1.reply
    ((∃ retryAfter, reply = some (refuse (tooManyFailures retryAfter))) →
      s.gate.failedAuth.limit ≤ failed.count (client, minuteOf now)) ∧
    ((names failed (minuteOf now)).card ≤ s.gate.failedAuth.maxClients →
      s.gate.failedAuth.limit ≤ failed.count (client, minuteOf now) →
        reply = some (refuse (tooManyFailures (60 - now % 60000 / 1000)))) := by
  rw [SteadyClocks, List.filterMap_append] at hsteady
  obtain ⟨hes, -, hcross⟩ := List.pairwise_append.mp hsteady
  have hmemory := remembers_run P settings env hfailed hknown hes
  intro failed reply
  have hreply : ∀ n, reply = some (refuse (tooManyFailures n)) ↔
      (Runs.final (AccessSystem.step P settings env) s es).gate.failedAuth.blocked client now =
        some n := fun n => (arrive_reply _ r).trans
    (arrive_tooMany_iff hheader hcredentials hnonempty hclient)
  have hpos : 0 < (Runs.final (AccessSystem.step P settings env) s es).gate.failedAuth.limit := by
    rw [hmemory.limit]
    exact hlimit
  constructor
  · rintro ⟨n, hn⟩
    have hcount := hmemory.failures.failures_of_blocked hpos ((hreply n).mp hn)
    rwa [hmemory.limit] at hcount
  · intro hfew hreached
    have hlast : ∀ j ∈ failed, j.2 ≤ minuteOf now := by
      intro j hj
      obtain ⟨c, hc, heq⟩ := hmemory.minutes j hj
      rw [heq]
      exact (hcross c hc (now, monotonic) (by simp [AccessEvent.clock])).1
    have hsome := (hmemory.failures.blocked_iff hpos hlast (by rwa [hmemory.maxClients])).mpr
      (by rwa [hmemory.limit])
    obtain ⟨n, hn⟩ := Option.isSome_iff_exists.mp hsome
    rw [← FailureLimiter.blocked_value hn]
    exact (hreply n).mpr hn

/-- A gate that allows one failure a minute. -/
def strictSystem : AccessSystem :=
  { accessSystem with gate := { accessSystem.gate with failedAuth := { limit := 1 } } }

def guess : ApiRequest := { sampleRequest with credentials := some "guess" }

theorem tooManyFailures_exact_sample :
    ((Runs.final (AccessSystem.step asciiTables accessSettings testEnv) strictSystem
      [.arrive 0 0 guess]).step asciiTables accessSettings testEnv (.arrive 5000 1 guess)).1.reply =
        some (refuse (tooManyFailures 55)) := by
  have hsteady : SteadyClocks ([.arrive 0 0 guess] ++ [.arrive 5000 1 guess]) := by
    simp [SteadyClocks, AccessEvent.clock, minuteOf]
  exact (tooManyFailures_exact rfl rfl (by decide) hsteady le_rfl rfl (by decide +kernel)
    rfl).2 (by decide +kernel) (by decide +kernel)

/-! ### Credentials refused before -/

/-- Convex answered an `authorize` of the credential with the status. -/
def AnsweredWith (env : ProcessEnv) (db : Db) (cs : List Call) (hash : String)
    (status : AuthorizeStatus) : Prop :=
  ∃ y ∈ Runs.trace (Call.run env) db cs, ∃ args reply, y.event.txn = .authorize args ∧
    args.hash = hash ∧ y.reply = .authorized reply ∧ reply.status = status

/-- A refusal that is remembered is what Convex answered. -/
theorem refusals_answered {s : AccessSystem} (huncached : s.gate.app.keyCache.enabled = false)
    (hcalls : s.calls = []) {es : List AccessEvent} {hash : String} {t : ℚ}
    {status : AuthorizeStatus} (h : (hash, t, status) ∈ refusals P settings env s es) :
    AnsweredWith env s.db (convexCalls P settings env s es) hash status := by
  obtain ⟨x, hx, hrefusal⟩ := List.mem_filterMap.mp h
  obtain ⟨pre, post, rfl, hbefore, hreply⟩ := Runs.mem_trace _ hx
  obtain ⟨hdirect, hasked⟩ := asked_run P settings env huncached hcalls pre
  rw [← hbefore] at hdirect hasked
  obtain ⟨hash', status', heffect, hhash, hstatus⟩ : ∃ hash' status',
      x.reply.effects.refusal = some (hash', status') ∧ hash' = hash ∧ status' = status := by
    simp only [refusalOf] at hrefusal
    split at hrefusal
    · rename_i hash' status' now monotonic heffect hclock
      simp only [Option.some.injEq, Prod.mk.injEq] at hrefusal
      exact ⟨hash', status', heffect, hrefusal.1, hrefusal.2.2⟩
    · cases hrefusal
  subst hhash hstatus
  rw [hreply] at heffect
  cases hevent : x.event with
  | arrive now monotonic r =>
    have hnone := (arrive_gate P settings x.before.gate now monotonic r).2.2
    simp only [hevent, AccessSystem.step] at heffect
    split at heffect <;> cases hnone.symm.trans heffect
  | commit now i =>
    rcases hcall : x.before.calls[i]? with _ | ⟨l, _ | c, waiting⟩ <;>
      simp [hevent, AccessSystem.step, hcall] at heffect
  | fail i =>
    rcases hcall : x.before.calls[i]? with _ | ⟨l, committed, _ | _⟩ <;>
      simp [hevent, AccessSystem.step, hcall] at heffect
  | call c => simp [hevent, AccessSystem.step] at heffect
  | receive now monotonic i =>
    rcases hcall : x.before.calls[i]? with _ | ⟨l, _ | ⟨at', answer⟩, _ | _⟩
    · simp [hevent, AccessSystem.step, hcall] at heffect
    · simp [hevent, AccessSystem.step, hcall] at heffect
    · simp [hevent, AccessSystem.step, hcall] at heffect
    · simp [hevent, AccessSystem.step, hcall] at heffect
    · have hask := hasked _ (List.mem_of_getElem? hcall)
      obtain ⟨credentials, isSiteKey, hasks⟩ := hask.asks
      simp only [hevent, AccessSystem.step, hcall] at heffect
      obtain ⟨reply, rfl, hhash, hstatus⟩ := conclude_refusal hasks.txn heffect
      obtain ⟨y, hy, hy', hyreply⟩ := (hask.append (x.event :: post)).committed _ rfl
      refine ⟨y, hevent ▸ hy, _, reply, by rw [hy']; exact hasks.txn, ?_, hyreply, hstatus⟩
      exact hhash

/-- Without the cache a credential of a known form is answered at once exactly when its refusal is
remembered. -/
theorem arrive_done_iff (huncached : g.app.keyCache.enabled = false) {r : ApiRequest}
    {credentials : String} {kind : CredentialKind} (hheader : r.authorizations ≤ 1)
    (hcredentials : r.credentials = some credentials) (hnonempty : credentials ≠ "")
    (hkind : credentialKind (strip P credentials.toList) = some kind)
    (hopen : (r.client.bind fun client => g.failedAuth.blocked client now) = none)
    {reply : Reply} :
    (g.arrive P settings now monotonic r).1 = .done reply ↔
      ∃ status, (g.knownBad.get (settings.hashCredential
        (String.ofList (strip P credentials.toList))) monotonic).1 = some status ∧
          refuse (refusal status kind) = reply := by
  have hpresented : r.credentials.filter (· ≠ "") = some credentials := by
    simp [hcredentials, hnonempty]
  unfold Gate.arrive
  rw [if_neg (by omega), hpresented]
  simp only [hopen, hkind, huncached, Bool.and_false, Bool.false_eq_true, if_false]
  split
  · rename_i status hstatus
    simp [hstatus]
  · rename_i hnone
    simp [hnone]

/-- A deployment without accounts, and a request that it refuses. -/
def emptySystem : AccessSystem := { accessSystem with db := {} }

def refusedOnce : List AccessEvent := [.arrive 0 0 sampleRequest, .commit 1 0, .receive 2 1 0]

end GeoPlatform.Api
