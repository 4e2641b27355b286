import GeoPlatform.ArcGIS.Tokens

/-! `_request_with_retries`. A request is the list of the turns its loop takes: what the token
provider and the network answered on each, and what the clock read. -/
namespace GeoPlatform.ArcGIS
variable {α : Type}

def RETRYABLE_STATUS : List ℕ := [429, 502, 503, 504]
def ARCGIS_TOKEN_ERROR_CODES : List ℤ := [498, 499]

structure RequestSettings where
  token : Option String := none
  hasProvider : Bool := false
  referer : Option String := none
  timeout : ℚ := 8
  maxRetries : ℕ := 2
  backoffBase : ℚ := 1 / 5
  maxResponseBytes : ℕ := 32 * 1024 * 1024
  deriving DecidableEq, Repr

/-! ### Headers -/

/-- The headers that a token leads to. -/
structure Headers where
  authorization : Option String := none
  referer : Option String := none
  deriving DecidableEq, Repr

/-- `_headers`. The provider's answer counts only where there is a provider. -/
def requestHeaders (cfg : RequestSettings) (provider : Except RaisedError (Option String)) :
    Except RaisedError Headers :=
  if cfg.hasProvider then
    match provider with
    | .error e => .error e
    | .ok token => .ok
        { authorization := (token.filter (· ≠ "")).map ("Bearer " ++ ·)
          referer := cfg.referer.filter (· ≠ "") }
  else .ok { authorization := (cfg.token.filter (· ≠ "")).map ("Bearer " ++ ·) }

def removePrefix (p s : String) : String :=
  if p.toList <+: s.toList then String.ofList (s.toList.drop p.toList.length) else s

/-- `_bearer`. -/
def bearer (h : Headers) : Option String :=
  let value := removePrefix "Bearer " (h.authorization.getD "")
  if value = "" then none else some value

/-- What a rejection invalidates is the token the provider gave. -/
theorem bearer_requestHeaders {cfg : RequestSettings} (hp : cfg.hasProvider = true) {t : String}
    (ht : t ≠ "") : (requestHeaders cfg (.ok (some t))).map bearer = .ok (some t) := by
  have hfilter : (some t).filter (· ≠ "") = some t := by simp [Option.filter, ht]
  have hremove : removePrefix "Bearer " ("Bearer " ++ t) = t := by
    rw [removePrefix, String.toList_append, if_pos (List.prefix_append _ _), List.drop_left,
      String.ofList_toList]
  simp only [requestHeaders, if_pos hp, hfilter, Except.map, bearer, Option.map_some,
    Option.getD_some, hremove, if_neg ht]

/-! ### One attempt -/

/-- The `error` member of a payload, with its `details` as strings. -/
structure ErrorBody where
  code : CodeField := .missing
  details : List String := []
  deriving DecidableEq, Repr

/-- A JSON object, with its `error` member when that is an object. -/
structure Payload (α : Type) where
  value : α
  error : Option ErrorBody := none
  deriving DecidableEq, Repr

inductive Body (α : Type) where
  | notJson
  | notObject
  | object (payload : Payload α)
  deriving DecidableEq, Repr

/-- A response of the data service: its declared and its actual length, and `Retry-After` as a
number. -/
structure Response (α : Type) where
  status : ℕ
  contentLength : ℤ := 0
  size : ℕ := 0
  retryAfter : Option ℚ := none
  body : Body α
  deriving DecidableEq, Repr

/-- What `_send` meets: no free slot, an exception, or a response. `responded` says that the
head of a response had arrived before the exception. -/
inductive Attempt (α : Type) where
  | queueFull
  | connectTimeout
  | timeout (responded : Bool)
  | transportError (name : String) (responded : Bool)
  | response (r : Response α)
  | cancelled (responded : Bool)
  | foreign (responded : Bool)
  deriving DecidableEq, Repr

/-- The attempt received an HTTP response from the data service. -/
def Attempt.responded : Attempt α → Bool
  | .response _ => true
  | .timeout b | .transportError _ b | .cancelled b | .foreign b => b
  | .queueFull | .connectTimeout => false

/-- How `_request_with_retries` ends. -/
inductive Finish (α : Type) where
  | result (value : α)
  | raised (e : RaisedError)
  | cancelled
  | foreign
  deriving DecidableEq, Repr

def Finish.ending : Finish α → Ending
  | .result _ => .result
  | .raised e => .raised e.kind
  | .cancelled => .cancelled
  | .foreign => .foreign

/-- Where one attempt leaves the loop. -/
inductive Verdict (α : Type) where
  | finished (f : Finish α)
  | renew
  | failed (failure : RaisedError) (retryAfter : Option ℚ)
  deriving DecidableEq, Repr

/-- An error body with HTTP status 200. -/
def judgeError (cfg : RequestSettings) (renewed : Bool) (err : ErrorBody) : Verdict α :=
  match err.code.int? with
  | none => .finished (.raised
      ⟨.response, "The data service rejected the query (code None)", none, err.details⟩)
  | some code =>
      if code ∈ ARCGIS_TOKEN_ERROR_CODES then
        if cfg.hasProvider && !renewed then .renew
        else .finished (.raised
          ⟨.auth, "The data service rejected the access token", some code, []⟩)
      else if code < 500 then
        .finished (.raised
          ⟨.response, s!"The data service rejected the query (code {code})", some code,
            err.details⟩)
      else
        .failed ⟨.unavailable, s!"The data service reported an internal error (code {code})",
          none, []⟩ none

/-- `_parse_retry_after`. -/
def parseRetryAfter (value : Option ℚ) : Option ℚ := value.map fun v => min 2 (max 0 v)

def judgeResponse (cfg : RequestSettings) (renewed : Bool) (r : Response α) : Verdict α :=
  if (cfg.maxResponseBytes : ℤ) < r.contentLength ∨ cfg.maxResponseBytes < r.size then
    .finished (.raised ⟨.response, "The data service response is too large", none, []⟩)
  else if r.status ∈ RETRYABLE_STATUS then
    .failed ⟨.unavailable, s!"The data service returned HTTP {r.status}", none, []⟩
      (parseRetryAfter r.retryAfter)
  else if 400 ≤ r.status then
    .finished (.raised ⟨.response, s!"The data service returned HTTP {r.status}", none, []⟩)
  else
    match r.body with
    | .notJson => .finished (.raised
        ⟨.response, "The data service returned a non-JSON response", none, []⟩)
    | .notObject => .finished (.raised
        ⟨.response, "The data service returned an unexpected JSON document", none, []⟩)
    | .object p =>
        match p.error with
        | none => .finished (.result p.value)
        | some err => judgeError cfg renewed err

def judge (cfg : RequestSettings) (renewed : Bool) : Attempt α → Verdict α
  | .queueFull => .finished (.raised
      ⟨.unavailable, "Too many concurrent requests to the data service", none, []⟩)
  | .connectTimeout =>
      .failed ⟨.timeout, "Timed out connecting to the data service", none, []⟩ none
  | .timeout _ => .finished (.raised
      ⟨.timeout, "The data service did not respond in time", none, []⟩)
  | .transportError name _ =>
      .failed ⟨.unavailable, s!"Could not reach the data service ({name})", none, []⟩ none
  | .response r => judgeResponse cfg renewed r
  | .cancelled _ => .finished .cancelled
  | .foreign _ => .finished .foreign

/-! ### The loop -/

/-- One turn: cancelled before its attempt, or run. `now` is the clock at the deadline check
and `jitter` the random part of the backoff. -/
inductive Turn (α : Type) where
  | cancelled
  | runs (provider : Except RaisedError (Option String)) (attempt : Attempt α) (now jitter : ℚ)

/-- What a request does to the outside. -/
inductive Action where
  | sent (headers : Headers) (responded : Bool)
  | invalidated (token : Option String)
  | slept (start delay : ℚ)
  deriving DecidableEq, Repr

/-- Waiting for a slot sends nothing. -/
def Attempt.actions (h : Headers) : Attempt α → List Action
  | .queueFull => []
  | a => [.sent h a.responded]

/-- `_backoff`, with the random part drawn. -/
def backoff (cfg : RequestSettings) (attempt : ℕ) (jitter : ℚ) : ℚ :=
  cfg.backoffBase * 2 ^ (attempt - 1) + jitter

/-- No retry is left, or the pause would not end before the deadline. -/
def givesUp (cfg : RequestSettings) (deadline : ℚ) (attempt : ℕ) (now delay : ℚ) : Prop :=
  cfg.maxRetries < attempt ∨ deadline ≤ now + delay

instance (cfg : RequestSettings) (deadline : ℚ) (attempt : ℕ) (now delay : ℚ) :
    Decidable (givesUp cfg deadline attempt now delay) :=
  inferInstanceAs (Decidable (_ ∨ _))

/-- The loop, with what it did and how it ended. It is still running when the turns end
first. -/
def requestLoop (cfg : RequestSettings) (deadline : ℚ) :
    ℕ → Bool → List (Turn α) → List Action × Option (Finish α)
  | _, _, [] => ([], none)
  | _, _, .cancelled :: _ => ([], some .cancelled)
  | attempt, renewed, .runs provider sent now jitter :: turns =>
      match requestHeaders cfg provider with
      | .error e => ([], some (.raised e))
      | .ok h =>
          match judge cfg renewed sent with
          | .finished f => (sent.actions h, some f)
          | .renew =>
              let rest := requestLoop cfg deadline attempt true turns
              (sent.actions h ++ .invalidated (bearer h) :: rest.1, rest.2)
          | .failed e retryAfter =>
              let delay := retryAfter.getD (backoff cfg (attempt + 1) jitter)
              if givesUp cfg deadline (attempt + 1) now delay then
                (sent.actions h, some (.raised e))
              else
                let rest := requestLoop cfg deadline (attempt + 1) renewed turns
                (sent.actions h ++ .slept now delay :: rest.1, rest.2)

def requestWithRetries (cfg : RequestSettings) (start : ℚ) (turns : List (Turn α)) :
    List Action × Option (Finish α) :=
  requestLoop cfg (start + cfg.timeout * (cfg.maxRetries + 1)) 0 false turns

end GeoPlatform.ArcGIS
