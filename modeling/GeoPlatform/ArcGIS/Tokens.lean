import GeoPlatform.ArcGIS.Circuit

/-! The generated-token providers. A provider caches one token for all requests of the process
and renews it under a lock, which is held across `_generate` and nowhere else across an
`await`. -/
namespace GeoPlatform.ArcGIS

/-- An `ArcGISError` in flight. -/
structure RaisedError where
  kind : ArcGISError
  message : String
  arcgisCode : Option ℤ := none
  details : List String := []
  deriving DecidableEq, Repr

/-- The `code` member of an error body. -/
inductive CodeField where
  | missing
  | int (n : ℤ)
  | other (shown : String)
  deriving DecidableEq, Repr

/-- `f"{code}"`. -/
def CodeField.shown : CodeField → String
  | .missing => "None"
  | .int n => toString n
  | .other s => s

/-- `code if isinstance(code, int) else None`. -/
def CodeField.int? : CodeField → Option ℤ
  | .int n => some n
  | _ => none

/-! ### The token service -/

/-- A JSON object of the token service: the string members, the numeric members and the code of
its `error` member. A member of another type reads as absent. -/
structure TokenPayload where
  accessToken : Option String := none
  expiresIn : Option ℚ := none
  token : Option String := none
  expires : Option ℚ := none
  errorCode : CodeField := .missing
  deriving DecidableEq, Repr

inductive TokenReply where
  | httpError (name : String)
  | notJson
  | notObject
  | object (payload : TokenPayload)
  deriving DecidableEq, Repr

def tokenPost : TokenReply → Except RaisedError TokenPayload
  | .httpError name => .error ⟨.unavailable, s!"Could not reach the token service ({name})",
      none, []⟩
  | .notJson => .error ⟨.auth, "The token service returned a non-JSON response", none, []⟩
  | .notObject => .error ⟨.auth, "The token service returned an unexpected response", none, []⟩
  | .object payload => .ok payload

def refused (payload : TokenPayload) : RaisedError :=
  ⟨.auth, "The token service refused the credentials (code " ++ payload.errorCode.shown ++ ")",
    payload.errorCode.int?, []⟩

/-- The two providers: an OAuth app, or a service account. -/
inductive Grant where
  | clientCredentials
  | generateToken
  deriving DecidableEq, Repr

structure TokenService where
  grant : Grant
  expirationMinutes : ℕ
  deriving DecidableEq, Repr

/-- What the provider reads from a payload: the token, and when it expires. -/
def TokenService.read (svc : TokenService) (now : ℚ) (p : TokenPayload) : Option String × ℚ :=
  match svc.grant with
  | .clientCredentials =>
      (p.accessToken, now + p.expiresIn.getD (svc.expirationMinutes * 60))
  | .generateToken =>
      (p.token, match p.expires with
        | some ms => ms / 1000
        | none => now + svc.expirationMinutes * 60)

/-- `_generate`, answered by `reply` at the time `now`. -/
def TokenService.generate (svc : TokenService) (now : ℚ) (reply : TokenReply) :
    Except RaisedError (String × ℚ) :=
  match tokenPost reply with
  | .error e => .error e
  | .ok p =>
      match svc.read now p with
      | (some token, expiresAt) => if token = "" then .error (refused p) else .ok (token, expiresAt)
      | (none, _) => .error (refused p)

/-! ### The cache -/

def RENEW_MARGIN_SECONDS : ℚ := 300
def FAILURE_BACKOFF_SECONDS : ℚ := 5

structure TokenCache where
  token : Option String := none
  renewAt : ℚ := 0
  failedUntil : ℚ := 0
  lastFailure : Option RaisedError := none
  deriving DecidableEq, Repr

/-- `self._token and now < self._renew_at`: the token to hand out, if there is one. -/
def TokenCache.current (c : TokenCache) (now : ℚ) : Option String :=
  c.token.filter fun t => t ≠ "" ∧ now < c.renewAt

/-- The remembered failure that callers get instead of another call. -/
def TokenCache.remembered (c : TokenCache) (now : ℚ) : Option RaisedError :=
  c.lastFailure.filter fun _ => now < c.failedUntil

/-- `start` is the reading made before `_generate`. -/
def renewTime (start expiresAt : ℚ) : ℚ :=
  expiresAt - min RENEW_MARGIN_SECONDS (max 0 (expiresAt - start) / 5)

def TokenCache.issued (c : TokenCache) (start : ℚ) (token : String) (expiresAt : ℚ) : TokenCache :=
  { c with token := some token, renewAt := renewTime start expiresAt, lastFailure := none }

/-- The `except` clause around `_generate`: two classes are remembered. -/
def TokenCache.failed (c : TokenCache) (now : ℚ) (e : RaisedError) : TokenCache :=
  match e.kind with
  | .auth | .unavailable =>
      { c with lastFailure := some e, failedUntil := now + FAILURE_BACKOFF_SECONDS }
  | _ => c

def TokenCache.invalidate (c : TokenCache) (rejected : Option String) : TokenCache :=
  if rejected = none ∨ rejected = c.token then { c with token := none, renewAt := 0 } else c

/-! ### Concurrent requests -/

/-- Where a request stands: outside, waiting for the lock in `token()`, inside `_generate`,
with a token on its headers, or with a rejected token, waiting for the lock in
`invalidate()`. -/
inductive Task where
  | idle
  | waiting
  | generating (start : ℚ)
  | holding (token : String)
  | rejecting (token : String)
  deriving DecidableEq, Repr

structure Provider where
  cache : TokenCache := {}
  tasks : ℕ → Task := fun _ => .idle
  lock : Option ℕ := none
  now : ℚ := 0

def Provider.setTask (s : Provider) (i : ℕ) (t : Task) : Provider :=
  { s with tasks := Function.update s.tasks i t }

inductive ProviderEvent where
  | call (i : ℕ)
  | acquire (i : ℕ)
  | generated (i : ℕ) (reply : Option TokenReply)
  | reject (i : ℕ)
  | invalidate (i : ℕ)
  | leave (i : ℕ)
  | clock (t : ℚ)
  deriving DecidableEq, Repr

inductive ProviderReply where
  | cached (token : String)
  | queued
  | started
  | issued (token : String) (renewAt : ℚ)
  | raised (e : RaisedError)
  | done
  | disabled
  deriving DecidableEq, Repr

/-- The unlocked path of `token()`. -/
def Provider.call (s : Provider) (i : ℕ) : ProviderReply × Provider :=
  match s.cache.current s.now with
  | some t => (.cached t, s.setTask i (.holding t))
  | none => (.queued, s.setTask i .waiting)

/-- `token()` from the lock to `_generate`. -/
def Provider.acquire (s : Provider) (i : ℕ) : ProviderReply × Provider :=
  match s.cache.current s.now with
  | some t => (.cached t, s.setTask i (.holding t))
  | none =>
      match s.cache.remembered s.now with
      | some e => (.raised e, s.setTask i .idle)
      | none => (.started, { s.setTask i (.generating s.now) with lock := some i })

/-- `token()` from the end of `_generate`. With no reply, `_generate` was cancelled or raised an
exception that is not remembered. -/
def Provider.generated (svc : TokenService) (s : Provider) (i : ℕ) (start : ℚ)
    (reply : Option TokenReply) : ProviderReply × Provider :=
  match reply.map (svc.generate s.now) with
  | none => (.done, { s.setTask i .idle with lock := none })
  | some (.error e) =>
      (.raised e, { s.setTask i .idle with lock := none, cache := s.cache.failed s.now e })
  | some (.ok (t, expiresAt)) =>
      (.issued t (renewTime start expiresAt),
        { s.setTask i (.holding t) with
          lock := none, cache := s.cache.issued start t expiresAt })

/-- One atomic step. A free lock goes to any request that waits for it. The wall clock may be
set to anything. -/
def providerStep (svc : TokenService) (s : Provider) : ProviderEvent → ProviderReply × Provider
  | .call i => if s.tasks i = .idle then s.call i else (.disabled, s)
  | .acquire i => if s.tasks i = .waiting ∧ s.lock = none then s.acquire i else (.disabled, s)
  | .generated i reply =>
      match s.tasks i with
      | .generating start => s.generated svc i start reply
      | _ => (.disabled, s)
  | .reject i =>
      match s.tasks i with
      | .holding t => (.done, s.setTask i (.rejecting t))
      | _ => (.disabled, s)
  | .invalidate i =>
      match s.tasks i, s.lock with
      | .rejecting t, none =>
          (.done, { s.setTask i .idle with cache := s.cache.invalidate (some t) })
      | _, _ => (.disabled, s)
  | .leave i =>
      match s.tasks i with
      | .generating _ => (.disabled, s)
      | _ => (.done, s.setTask i .idle)
  | .clock t => (.done, { s with now := t })

end GeoPlatform.ArcGIS
