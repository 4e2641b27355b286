import GeoPlatform.ArcGIS.Requests

/-! How often `_request_with_retries` tries. A turn ends the loop, or passes it on with one retry
fewer, or with the token renewed; only the last does not count as a retry. -/
namespace GeoPlatform.ArcGIS
variable {α : Type}

/-! ### What an attempt met -/

/-- An error body, received with a status below 400. -/
def ErrorResponse (sent : Attempt α) (err : ErrorBody) : Prop :=
  ∃ r p, sent = .response r ∧ r.status < 400 ∧ r.body = .object p ∧ p.error = some err

/-- An error body with code 498 or 499. -/
def RejectsToken (sent : Attempt α) : Prop :=
  ∃ err code, ErrorResponse sent err ∧ err.code.int? = some code ∧
    code ∈ ARCGIS_TOKEN_ERROR_CODES

/-- An error-free JSON object, received with a status below 400 and within the size limit. -/
def Carries (cfg : RequestSettings) (sent : Attempt α) (value : α) : Prop :=
  ∃ r p, sent = .response r ∧ r.contentLength ≤ cfg.maxResponseBytes ∧
    r.size ≤ cfg.maxResponseBytes ∧ r.status < 400 ∧ r.body = .object p ∧ p.error = none ∧
    p.value = value

/-- What is not tried again: a read timeout, a status that is not for retrying, a malformed
body, and an error body without a code of 500 or more, save a token rejection. -/
inductive NotRetried : Attempt α → Prop
  | readTimeout (responded : Bool) : NotRetried (.timeout responded)
  | status {r : Response α} (h : 400 ≤ r.status) (hr : r.status ∉ RETRYABLE_STATUS) :
      NotRetried (.response r)
  | notJson {r : Response α} (h : r.status < 400) (hb : r.body = .notJson) :
      NotRetried (.response r)
  | notObject {r : Response α} (h : r.status < 400) (hb : r.body = .notObject) :
      NotRetried (.response r)
  | error {sent : Attempt α} {err : ErrorBody} (h : ErrorResponse sent err)
      (hcode : ∀ code, err.code.int? = some code →
        code < 500 ∧ code ∉ ARCGIS_TOKEN_ERROR_CODES) : NotRetried sent

theorem not_retryable_of_lt {status : ℕ} (h : status < 400) : status ∉ RETRYABLE_STATUS := by
  simp only [RETRYABLE_STATUS, List.mem_cons, List.not_mem_nil, or_false]
  omega

/-- A response is refused, tried again for its status, or read. -/
theorem judge_response (cfg : RequestSettings) (renewed : Bool) (r : Response α) :
    (∃ e, judge cfg renewed (.response r) = .finished (.raised e)) ∨
    (r.status ∈ RETRYABLE_STATUS ∧
      ∃ e retryAfter, judge cfg renewed (.response r) = .failed e retryAfter) ∨
    ∃ p, r.contentLength ≤ cfg.maxResponseBytes ∧ r.size ≤ cfg.maxResponseBytes ∧
      r.status < 400 ∧ r.body = .object p ∧
      ((p.error = none ∧ judge cfg renewed (.response r) = .finished (.result p.value)) ∨
        ∃ err, p.error = some err ∧ judge cfg renewed (.response r) =
          judgeError cfg renewed err) := by
  simp only [judge, judgeResponse]
  split_ifs with hlarge hretryable hfour
  · exact Or.inl ⟨_, rfl⟩
  · exact Or.inr (Or.inl ⟨hretryable, _, _, rfl⟩)
  · exact Or.inl ⟨_, rfl⟩
  · rw [not_or, not_lt, not_lt] at hlarge
    cases hbody : r.body with
    | notJson => exact Or.inl ⟨_, rfl⟩
    | notObject => exact Or.inl ⟨_, rfl⟩
    | object p =>
      refine Or.inr (Or.inr ⟨p, hlarge.1, hlarge.2, not_le.mp hfour, rfl, ?_⟩)
      cases herror : p.error with
      | none => exact Or.inl ⟨rfl, by simp only [herror]⟩
      | some err => exact Or.inr ⟨err, rfl, by simp only [herror]⟩

/-- An error body is judged by its code, or was too large to be read. -/
theorem judge_error (cfg : RequestSettings) (renewed : Bool) {sent : Attempt α}
    {err : ErrorBody} (h : ErrorResponse sent err) :
    judge cfg renewed sent = judgeError cfg renewed err ∨
      ∃ e, judge cfg renewed sent = .finished (.raised e) := by
  obtain ⟨r, p, rfl, hstatus, hbody, herror⟩ := h
  rcases judge_response cfg renewed r with
    hraised | ⟨hretryable, -⟩ | ⟨p', -, -, -, hbody', ⟨hnone, -⟩ | ⟨err', hsome, hj⟩⟩
  · exact Or.inr hraised
  · exact absurd hretryable (not_retryable_of_lt hstatus)
  · cases hbody.symm.trans hbody'
    cases herror.symm.trans hnone
  · cases hbody.symm.trans hbody'
    cases herror.symm.trans hsome
    exact Or.inl hj

theorem judgeError_ne_result (cfg : RequestSettings) (renewed : Bool) (err : ErrorBody)
    (value : α) : judgeError cfg renewed err ≠ .finished (.result value) := by
  unfold judgeError
  cases err.code.int? with
  | none => simp
  | some code =>
    simp only
    split_ifs <;> simp

/-- A rejected token is renewed once, where there is a provider. -/
theorem judgeError_renew {cfg : RequestSettings} {renewed : Bool} {err : ErrorBody}
    (h : (judgeError cfg renewed err : Verdict α) = .renew) :
    cfg.hasProvider = true ∧ renewed = false ∧
      ∃ code, err.code.int? = some code ∧ code ∈ ARCGIS_TOKEN_ERROR_CODES := by
  unfold judgeError at h
  cases hc : err.code.int? with
  | none => simp [hc] at h
  | some code =>
    simp only [hc] at h
    split_ifs at h with hcode hcond
    simp only [Bool.and_eq_true, Bool.not_eq_true'] at hcond
    exact ⟨hcond.1, hcond.2, code, rfl, hcode⟩

theorem NotRetried.finished {sent : Attempt α} (h : NotRetried sent) (cfg : RequestSettings)
    (renewed : Bool) : ∃ f, judge cfg renewed sent = .finished f := by
  cases h with
  | readTimeout responded => exact ⟨_, rfl⟩
  | status h hr =>
    simp only [judge, judgeResponse, if_neg hr, if_pos h]
    split_ifs <;> exact ⟨_, rfl⟩
  | notJson h hb =>
    simp only [judge, judgeResponse, if_neg (not_retryable_of_lt h), if_neg (not_le.mpr h), hb]
    split_ifs <;> exact ⟨_, rfl⟩
  | notObject h hb =>
    simp only [judge, judgeResponse, if_neg (not_retryable_of_lt h), if_neg (not_le.mpr h), hb]
    split_ifs <;> exact ⟨_, rfl⟩
  | @error sent err h hcode =>
    rcases judge_error cfg renewed h with hj | ⟨e, he⟩
    · rw [hj, judgeError]
      cases hc : err.code.int? with
      | none => exact ⟨_, rfl⟩
      | some code =>
        obtain ⟨hlt, hnot⟩ := hcode code hc
        simp only [if_neg hnot, if_pos hlt]
        exact ⟨_, rfl⟩
    · exact ⟨_, he⟩

/-- A rejected token is renewed at most once, and not without a provider. -/
theorem RejectsToken.finished {sent : Attempt α} (h : RejectsToken sent) {cfg : RequestSettings}
    {renewed : Bool} (hdone : cfg.hasProvider = false ∨ renewed = true) :
    ∃ f, judge cfg renewed sent = .finished f := by
  obtain ⟨err, code, herror, hc, hcode⟩ := h
  rcases judge_error cfg renewed herror with hj | ⟨e, he⟩
  · have hcond : (cfg.hasProvider && !renewed) = false := by
      rcases hdone with h | h <;> simp [h]
    rw [hj, judgeError, hc]
    simp only [if_pos hcode, hcond, Bool.false_eq_true, if_false]
    exact ⟨_, rfl⟩
  · exact ⟨_, he⟩

theorem judge_renew {cfg : RequestSettings} {renewed : Bool} {sent : Attempt α}
    (h : judge cfg renewed sent = .renew) :
    cfg.hasProvider = true ∧ renewed = false ∧ RejectsToken sent := by
  cases sent with
  | response r =>
    rcases judge_response cfg renewed r with ⟨e, hj⟩ | ⟨-, e, retryAfter, hj⟩ |
      ⟨p, -, -, hstatus, hbody, ⟨-, hj⟩ | ⟨err, herror, hj⟩⟩
    · cases hj.symm.trans h
    · cases hj.symm.trans h
    · cases hj.symm.trans h
    · obtain ⟨hprovider, hrenewed, code, hc, hcode⟩ := judgeError_renew (hj.symm.trans h)
      exact ⟨hprovider, hrenewed, err, code, ⟨r, p, rfl, hstatus, hbody, herror⟩, hc, hcode⟩
  | _ => cases h

theorem judge_result {cfg : RequestSettings} {renewed : Bool} {sent : Attempt α} {value : α} :
    judge cfg renewed sent = .finished (.result value) ↔ Carries cfg sent value := by
  constructor
  · intro h
    cases sent with
    | response r =>
      rcases judge_response cfg renewed r with ⟨e, hj⟩ | ⟨-, e, retryAfter, hj⟩ |
        ⟨p, hlength, hsize, hstatus, hbody, ⟨hnone, hj⟩ | ⟨err, -, hj⟩⟩
      · cases hj.symm.trans h
      · cases hj.symm.trans h
      · cases hj.symm.trans h
        exact ⟨r, p, rfl, hlength, hsize, hstatus, hbody, hnone, rfl⟩
      · exact absurd (hj.symm.trans h) (judgeError_ne_result cfg renewed err value)
    | _ => cases h
  · rintro ⟨r, p, rfl, hlength, hsize, hstatus, hbody, herror, rfl⟩
    have hlarge : ¬ ((cfg.maxResponseBytes : ℤ) < r.contentLength ∨
        cfg.maxResponseBytes < r.size) := by
      rw [not_or, not_lt, not_lt]
      exact ⟨hlength, hsize⟩
    simp only [judge, judgeResponse, if_neg hlarge, if_neg (not_retryable_of_lt hstatus),
      if_neg (not_le.mpr hstatus), hbody, herror]

/-! ### One turn -/

def Action.isSent : Action → Bool
  | .sent _ _ => true
  | _ => false

def Action.isInvalidated : Action → Bool
  | .invalidated _ => true
  | _ => false

/-- A turn that goes on: what it did, the retries counted after it, and whether the token has
been renewed. -/
inductive Passes (cfg : RequestSettings) (deadline : ℚ) (attempt : ℕ) (renewed : Bool) :
    Turn α → List Action → ℕ → Bool → Prop
  | renew {provider : Except RaisedError (Option String)} {sent : Attempt α} {now jitter : ℚ}
      {h : Headers} (hh : requestHeaders cfg provider = .ok h)
      (hj : judge cfg renewed sent = .renew) :
      Passes cfg deadline attempt renewed (.runs provider sent now jitter)
        (sent.actions h ++ [.invalidated (bearer h)]) attempt true
  | failed {provider : Except RaisedError (Option String)} {sent : Attempt α} {now jitter : ℚ}
      {h : Headers} {e : RaisedError} {retryAfter : Option ℚ}
      (hh : requestHeaders cfg provider = .ok h)
      (hj : judge cfg renewed sent = .failed e retryAfter)
      (hg : ¬ givesUp cfg deadline (attempt + 1) now
        (retryAfter.getD (backoff cfg (attempt + 1) jitter))) :
      Passes cfg deadline attempt renewed (.runs provider sent now jitter)
        (sent.actions h ++ [.slept now (retryAfter.getD (backoff cfg (attempt + 1) jitter))])
        (attempt + 1) renewed

/-- A turn that ends the loop. -/
inductive Ends (cfg : RequestSettings) (deadline : ℚ) (attempt : ℕ) (renewed : Bool) :
    Turn α → List Action → Finish α → Prop
  | cancelled : Ends cfg deadline attempt renewed .cancelled [] .cancelled
  | noHeaders {provider : Except RaisedError (Option String)} {sent : Attempt α}
      {now jitter : ℚ} {e : RaisedError} (hh : requestHeaders cfg provider = .error e) :
      Ends cfg deadline attempt renewed (.runs provider sent now jitter) [] (.raised e)
  | finished {provider : Except RaisedError (Option String)} {sent : Attempt α}
      {now jitter : ℚ} {h : Headers} {f : Finish α} (hh : requestHeaders cfg provider = .ok h)
      (hj : judge cfg renewed sent = .finished f) :
      Ends cfg deadline attempt renewed (.runs provider sent now jitter) (sent.actions h) f
  | givenUp {provider : Except RaisedError (Option String)} {sent : Attempt α}
      {now jitter : ℚ} {h : Headers} {e : RaisedError} {retryAfter : Option ℚ}
      (hh : requestHeaders cfg provider = .ok h)
      (hj : judge cfg renewed sent = .failed e retryAfter)
      (hg : givesUp cfg deadline (attempt + 1) now
        (retryAfter.getD (backoff cfg (attempt + 1) jitter))) :
      Ends cfg deadline attempt renewed (.runs provider sent now jitter) (sent.actions h)
        (.raised e)

variable {cfg : RequestSettings} {deadline start : ℚ} {attempt : ℕ} {renewed : Bool}
variable {t : Turn α} {acts : List Action} {attempt' : ℕ} {renewed' : Bool}

/-- Whatever comes later, a turn ends the loop or goes on. -/
theorem turn_cases (cfg : RequestSettings) (deadline : ℚ) (attempt : ℕ) (renewed : Bool)
    (t : Turn α) :
    (∃ acts f, Ends cfg deadline attempt renewed t acts f ∧
      ∀ turns, requestLoop cfg deadline attempt renewed (t :: turns) = (acts, some f)) ∨
    ∃ acts attempt' renewed', Passes cfg deadline attempt renewed t acts attempt' renewed' ∧
      ∀ turns, requestLoop cfg deadline attempt renewed (t :: turns) =
        (acts ++ (requestLoop cfg deadline attempt' renewed' turns).1,
          (requestLoop cfg deadline attempt' renewed' turns).2) := by
  cases t with
  | cancelled => exact Or.inl ⟨[], .cancelled, .cancelled, fun turns => by rw [requestLoop]⟩
  | runs provider sent now jitter =>
    cases hh : requestHeaders cfg provider with
    | error e =>
      refine Or.inl ⟨[], .raised e, .noHeaders hh, fun turns => ?_⟩
      rw [requestLoop, hh]
    | ok h =>
      cases hj : judge cfg renewed sent with
      | finished f =>
        refine Or.inl ⟨sent.actions h, f, .finished hh hj, fun turns => ?_⟩
        simp only [requestLoop, hh, hj]
      | renew =>
        refine Or.inr ⟨_, _, _, .renew hh hj, fun turns => ?_⟩
        simp only [requestLoop, hh, hj, List.append_assoc, List.singleton_append]
      | failed e retryAfter =>
        by_cases hg : givesUp cfg deadline (attempt + 1) now
            (retryAfter.getD (backoff cfg (attempt + 1) jitter))
        · refine Or.inl ⟨sent.actions h, .raised e, .givenUp hh hj hg, fun turns => ?_⟩
          simp only [requestLoop, hh, hj, if_pos hg]
        · refine Or.inr ⟨_, _, _, .failed hh hj hg, fun turns => ?_⟩
          simp only [requestLoop, hh, hj, if_neg hg, List.append_assoc, List.singleton_append]

theorem Attempt.actions_sent (sent : Attempt α) (h : Headers) :
    (sent.actions h).length ≤ 1 ∧ ∀ a ∈ sent.actions h, a.isSent = true := by
  cases sent <;> simp [Attempt.actions, Action.isSent]

theorem Ends.sent {f : Finish α} (h : Ends cfg deadline attempt renewed t acts f) :
    acts.length ≤ 1 ∧ ∀ a ∈ acts, a.isSent = true := by
  cases h with
  | cancelled => simp
  | noHeaders hh => simp
  | finished hh hj => exact Attempt.actions_sent _ _
  | givenUp hh hj hg => exact Attempt.actions_sent _ _

theorem Ends.result {value : α}
    (h : Ends cfg deadline attempt renewed t acts (.result value)) :
    ∃ provider sent now jitter, t = .runs provider sent now jitter ∧ Carries cfg sent value := by
  cases h with
  | finished hh hj => exact ⟨_, _, _, _, rfl, judge_result.mp hj⟩

theorem not_sent {sent : Attempt α} {h : Headers} {a : Action} (ha : a.isSent = false) :
    a ∉ sent.actions h := by
  intro hmem
  rw [(sent.actions_sent h).2 a hmem] at ha
  cases ha

/-! ### Counting -/

/-- Each turn that goes on takes one from the retries and the renewal. -/
theorem Passes.counts (h : Passes cfg deadline attempt renewed t acts attempt' renewed') :
    attempt' + renewed'.toNat = attempt + renewed.toNat + 1 ∧
      (attempt ≤ cfg.maxRetries → attempt' ≤ cfg.maxRetries) ∧
      acts.countP Action.isSent ≤ 1 ∧
      acts.countP Action.isInvalidated + renewed.toNat = renewed'.toNat := by
  have hsent : ∀ (sent : Attempt α) (h : Headers), (sent.actions h).countP Action.isSent ≤ 1 ∧
      (sent.actions h).countP Action.isInvalidated = 0 := by
    intro sent h
    refine ⟨List.countP_le_length.trans (sent.actions_sent h).1, ?_⟩
    cases sent <;> simp [Attempt.actions, Action.isInvalidated]
  cases h with
  | @renew provider sent now jitter h hh hj =>
    obtain ⟨hle, hzero⟩ := hsent sent h
    have hrenewed : renewed = false := (judge_renew hj).2.1
    simp only [List.countP_append, hzero, hrenewed]
    simp [Action.isSent, Action.isInvalidated, hle]
  | @failed provider sent now jitter h e retryAfter hh hj hg =>
    obtain ⟨hle, hzero⟩ := hsent sent h
    have hlt : attempt + 1 ≤ cfg.maxRetries := not_lt.mp fun hlt => hg (Or.inl hlt)
    simp only [List.countP_append, hzero]
    refine ⟨by omega, fun _ => hlt, ?_, ?_⟩
    · simpa [Action.isSent] using hle
    · simp [Action.isInvalidated]

theorem sent_le (turns : List (Turn α)) (h : attempt ≤ cfg.maxRetries) :
    (requestLoop cfg deadline attempt renewed turns).1.countP Action.isSent +
      (attempt + renewed.toNat) ≤ cfg.maxRetries + 2 := by
  have hbool : ∀ b : Bool, b.toNat ≤ 1 := Bool.toNat_le
  induction turns generalizing attempt renewed with
  | nil =>
    have hr := hbool renewed
    simp only [requestLoop, List.countP_nil]
    omega
  | cons t turns ih =>
    have hr := hbool renewed
    rcases turn_cases cfg deadline attempt renewed t with
      ⟨acts, f, hends, hloop⟩ | ⟨acts, attempt', renewed', hpass, hloop⟩
    · have hcount : acts.countP Action.isSent ≤ 1 := List.countP_le_length.trans hends.sent.1
      rw [hloop]
      simp only
      omega
    · obtain ⟨hused, hle, hsent, -⟩ := hpass.counts
      have hrest := @ih attempt' renewed' (hle h)
      rw [hloop]
      simp only [List.countP_append]
      omega

theorem finishes (turns : List (Turn α)) (h : attempt ≤ cfg.maxRetries)
    (hturns : cfg.maxRetries + 2 ≤ turns.length + (attempt + renewed.toNat)) :
    (requestLoop cfg deadline attempt renewed turns).2.isSome := by
  induction turns generalizing attempt renewed with
  | nil =>
    have hr := Bool.toNat_le renewed
    rw [List.length_nil] at hturns
    omega
  | cons t turns ih =>
    rcases turn_cases cfg deadline attempt renewed t with
      ⟨acts, f, -, hloop⟩ | ⟨acts, attempt', renewed', hpass, hloop⟩
    · rw [hloop]
      rfl
    · obtain ⟨hused, hle, -, -⟩ := hpass.counts
      rw [hloop]
      apply ih (hle h)
      rw [List.length_cons] at hturns
      omega

theorem invalidated_le (turns : List (Turn α)) :
    (requestLoop cfg deadline attempt renewed turns).1.countP Action.isInvalidated +
      renewed.toNat ≤ 1 := by
  induction turns generalizing attempt renewed with
  | nil => simpa [requestLoop] using Bool.toNat_le renewed
  | cons t turns ih =>
    rcases turn_cases cfg deadline attempt renewed t with
      ⟨acts, f, hends, hloop⟩ | ⟨acts, attempt', renewed', hpass, hloop⟩
    · have hzero : acts.countP Action.isInvalidated = 0 := by
        apply List.countP_eq_zero.mpr
        intro a ha
        cases a with
        | invalidated token => cases hends.sent.2 _ ha
        | _ => simp [Action.isInvalidated]
      rw [hloop]
      simpa [hzero] using Bool.toNat_le renewed
    · obtain ⟨-, -, -, hcount⟩ := hpass.counts
      have hrest := @ih attempt' renewed'
      rw [hloop]
      simp only [List.countP_append]
      omega

/-- The pause that a turn starts ends before the deadline. -/
theorem Passes.slept (h : Passes cfg deadline attempt renewed t acts attempt' renewed')
    {now delay : ℚ} (hmem : .slept now delay ∈ acts) : now + delay < deadline := by
  cases h with
  | renew hh hj =>
    rcases List.mem_append.mp hmem with hmem | hmem
    · exact absurd hmem (not_sent rfl)
    · cases List.mem_singleton.mp hmem
  | failed hh hj hg =>
    rcases List.mem_append.mp hmem with hmem | hmem
    · exact absurd hmem (not_sent rfl)
    · cases List.mem_singleton.mp hmem
      exact not_le.mp fun hle => hg (Or.inr hle)

theorem slept_before (turns : List (Turn α)) {now delay : ℚ}
    (h : .slept now delay ∈ (requestLoop cfg deadline attempt renewed turns).1) :
    now + delay < deadline := by
  induction turns generalizing attempt renewed with
  | nil => simp [requestLoop] at h
  | cons t turns ih =>
    rcases turn_cases cfg deadline attempt renewed t with
      ⟨acts, f, hends, hloop⟩ | ⟨acts, attempt', renewed', hpass, hloop⟩
    · rw [hloop] at h
      cases hends.sent.2 _ h
    · rw [hloop] at h
      rcases List.mem_append.mp h with h | h
      · exact hpass.slept h
      · exact ih h

/-! ### What has gone before -/

/-- A loop that has ended sees nothing of later turns. One that is still running goes on from
the retries it has counted, and knows whether it has renewed the token. -/
theorem requestLoop_append (cfg : RequestSettings) (deadline : ℚ) (attempt : ℕ) (renewed : Bool)
    (pre : List (Turn α)) :
    ((requestLoop cfg deadline attempt renewed pre).2.isSome ∧ ∀ post,
      requestLoop cfg deadline attempt renewed (pre ++ post) =
        requestLoop cfg deadline attempt renewed pre) ∨
    ((requestLoop cfg deadline attempt renewed pre).2 = none ∧ ∃ attempt' renewed',
      (requestLoop cfg deadline attempt renewed pre).1.countP Action.isInvalidated +
        renewed.toNat = renewed'.toNat ∧
      ∀ post, requestLoop cfg deadline attempt renewed (pre ++ post) =
        ((requestLoop cfg deadline attempt renewed pre).1 ++
          (requestLoop cfg deadline attempt' renewed' post).1,
        (requestLoop cfg deadline attempt' renewed' post).2)) := by
  induction pre generalizing attempt renewed with
  | nil => exact Or.inr ⟨by simp [requestLoop], attempt, renewed, by simp [requestLoop]⟩
  | cons t pre ih =>
    rcases turn_cases cfg deadline attempt renewed t with
      ⟨acts, f, -, hloop⟩ | ⟨acts, attempt', renewed', hpass, hloop⟩
    · left
      rw [hloop]
      exact ⟨rfl, fun post => by rw [List.cons_append, hloop]⟩
    · obtain ⟨-, -, -, hcount⟩ := hpass.counts
      rcases ih attempt' renewed' with ⟨hend, happend⟩ | ⟨hrunning, a, r, hinvalidated, happend⟩
      · left
        rw [hloop]
        exact ⟨hend, fun post => by rw [List.cons_append, hloop, happend]⟩
      · right
        rw [hloop]
        refine ⟨hrunning, a, r, ?_, fun post => ?_⟩
        · simp only [List.countP_append]
          omega
        · rw [List.cons_append, hloop, happend, List.append_assoc]

/-- While the loop is running every turn has gone on. -/
theorem passes_of_running {turns : List (Turn α)}
    (h : (requestLoop cfg deadline attempt renewed turns).2 = none) :
    ∀ t ∈ turns, ∃ a r acts a' r', Passes cfg deadline a r t acts a' r' := by
  induction turns generalizing attempt renewed with
  | nil => simp
  | cons t turns ih =>
    rcases turn_cases cfg deadline attempt renewed t with
      ⟨acts, f, -, hloop⟩ | ⟨acts, attempt', renewed', hpass, hloop⟩
    · rw [hloop] at h
      cases h
    · rw [hloop] at h
      intro t' ht'
      rcases List.mem_cons.mp ht' with rfl | ht'
      · exact ⟨attempt, renewed, acts, attempt', renewed', hpass⟩
      · exact ih h t' ht'

/-- The token is given up right after the response that rejects it. -/
theorem invalidated_after {turns : List (Turn α)} {token : Option String}
    (h : .invalidated token ∈ (requestLoop cfg deadline attempt renewed turns).1) :
    cfg.hasProvider = true ∧ ∃ pre provider sent now jitter post headers,
      turns = pre ++ .runs provider sent now jitter :: post ∧ RejectsToken sent ∧
      requestHeaders cfg provider = .ok headers ∧
      (requestLoop cfg deadline attempt renewed
        (pre ++ [.runs provider sent now jitter])).1 =
        (requestLoop cfg deadline attempt renewed pre).1 ++
          [.sent headers true, .invalidated (bearer headers)] ∧
      token = bearer headers := by
  induction turns generalizing attempt renewed with
  | nil => simp [requestLoop] at h
  | cons t turns ih =>
    rcases turn_cases cfg deadline attempt renewed t with
      ⟨acts, f, hends, hloop⟩ | ⟨acts, attempt', renewed', hpass, hloop⟩
    · rw [hloop] at h
      cases hends.sent.2 _ h
    · have hrest := h
      rw [hloop] at hrest
      rcases List.mem_append.mp hrest with hmem | hmem
      · cases hpass with
        | @renew provider sent now jitter headers hh hj =>
          obtain ⟨hprovider, -, hrejects⟩ := judge_renew hj
          have hactions : sent.actions headers = [.sent headers true] := by
            obtain ⟨-, -, ⟨r, p, rfl, -⟩, -⟩ := hrejects
            rfl
          rw [hactions] at hmem
          refine ⟨hprovider, [], provider, sent, now, jitter, turns, headers, rfl, hrejects, hh,
            ?_, ?_⟩
          · rw [List.nil_append, hloop, hactions]
            simp [requestLoop]
          · simpa using hmem
        | failed hh hj hg =>
          rcases List.mem_append.mp hmem with hmem | hmem
          · exact absurd hmem (not_sent rfl)
          · cases List.mem_singleton.mp hmem
      · obtain ⟨hprovider, pre, provider, sent, now, jitter, post, headers, rfl, hrejects, hh,
          hloop', htoken⟩ := ih hmem
        refine ⟨hprovider, t :: pre, provider, sent, now, jitter, post, headers, rfl, hrejects,
          hh, ?_, htoken⟩
        rw [List.cons_append, hloop, hloop, hloop', List.append_assoc]

/-- The value is that of the turn that ends the loop. -/
theorem result_of {turns : List (Turn α)} {value : α}
    (h : (requestLoop cfg deadline attempt renewed turns).2 = some (.result value)) :
    ∃ pre provider sent now jitter post,
      turns = pre ++ .runs provider sent now jitter :: post ∧ Carries cfg sent value ∧
      (requestLoop cfg deadline attempt renewed pre).2 = none := by
  induction turns generalizing attempt renewed with
  | nil => cases h
  | cons t turns ih =>
    rcases turn_cases cfg deadline attempt renewed t with
      ⟨acts, f, hends, hloop⟩ | ⟨acts, attempt', renewed', hpass, hloop⟩
    · rw [hloop] at h
      cases h
      obtain ⟨provider, sent, now, jitter, rfl, hcarries⟩ := hends.result
      exact ⟨[], provider, sent, now, jitter, turns, rfl, hcarries, rfl⟩
    · rw [hloop] at h
      obtain ⟨pre, provider, sent, now, jitter, post, rfl, hcarries, hrunning⟩ := ih h
      refine ⟨t :: pre, provider, sent, now, jitter, post, rfl, hcarries, ?_⟩
      rw [hloop]
      exact hrunning

/-- A turn that went on carried no value. -/
theorem Passes.not_carries
    (h : Passes cfg deadline attempt renewed t acts attempt' renewed')
    {provider : Except RaisedError (Option String)} {sent : Attempt α} {now jitter : ℚ}
    (ht : t = .runs provider sent now jitter) (value : α) : ¬ Carries cfg sent value := by
  intro hcarries
  have hresult : judge cfg renewed sent = .finished (.result value) := judge_result.mpr hcarries
  subst ht
  cases h with
  | renew hh hj => cases hj.symm.trans hresult
  | failed hh hj hg => cases hj.symm.trans hresult

/-- No turn follows one whose attempt is judged the end. -/
theorem requestLoop_finished {provider : Except RaisedError (Option String)} {sent : Attempt α}
    {now jitter : ℚ} (hj : ∃ f, judge cfg renewed sent = .finished f) (post : List (Turn α)) :
    requestLoop cfg deadline attempt renewed (.runs provider sent now jitter :: post) =
      requestLoop cfg deadline attempt renewed [.runs provider sent now jitter] := by
  obtain ⟨f, hj⟩ := hj
  rcases turn_cases cfg deadline attempt renewed (.runs provider sent now jitter) with
    ⟨acts, f', -, hloop⟩ | ⟨acts, attempt', renewed', hpass, -⟩
  · rw [hloop, hloop]
  · cases hpass with
    | renew hh hj' => cases hj'.symm.trans hj
    | failed hh hj' hg => cases hj'.symm.trans hj

/-! ### The request -/

/-- After the turns `pre`, this attempt is the last. -/
def LastAttempt (cfg : RequestSettings) (start : ℚ) (pre : List (Turn α)) (sent : Attempt α) :
    Prop :=
  NotRetried sent ∨ RejectsToken sent ∧
    (cfg.hasProvider = false ∨ ∃ token, .invalidated token ∈ (requestWithRetries cfg start pre).1)

/-- What a request does, whatever its turns. -/
structure Bounded (cfg : RequestSettings) (start : ℚ) (turns : List (Turn α)) : Prop where
  ends : cfg.maxRetries + 2 ≤ turns.length → (requestWithRetries cfg start turns).2.isSome
  attempts : (requestWithRetries cfg start turns).1.countP Action.isSent ≤ cfg.maxRetries + 2
  renewals : (requestWithRetries cfg start turns).1.countP Action.isInvalidated ≤ 1
  /-- The token is given up right after the response that rejects it. -/
  renewed : ∀ token, .invalidated token ∈ (requestWithRetries cfg start turns).1 →
    cfg.hasProvider = true ∧ ∃ pre provider sent now jitter post headers,
      turns = pre ++ .runs provider sent now jitter :: post ∧ RejectsToken sent ∧
      requestHeaders cfg provider = .ok headers ∧
      (requestWithRetries cfg start (pre ++ [.runs provider sent now jitter])).1 =
        (requestWithRetries cfg start pre).1 ++
          [.sent headers true, .invalidated (bearer headers)] ∧
      token = bearer headers
  /-- What would come after it makes no difference. -/
  last : ∀ pre provider sent now jitter post,
    turns = pre ++ .runs provider sent now jitter :: post → LastAttempt cfg start pre sent →
    requestWithRetries cfg start turns =
      requestWithRetries cfg start (pre ++ [.runs provider sent now jitter])
  /-- The value is the first to be received. -/
  result : ∀ value, (requestWithRetries cfg start turns).2 = some (.result value) →
    ∃ pre provider sent now jitter post,
      turns = pre ++ .runs provider sent now jitter :: post ∧ Carries cfg sent value ∧
      ∀ provider' sent' now' jitter', .runs provider' sent' now' jitter' ∈ pre →
        ∀ value', ¬ Carries cfg sent' value'
  sleeps : ∀ now delay, .slept now delay ∈ (requestWithRetries cfg start turns).1 →
    now + delay < start + cfg.timeout * (cfg.maxRetries + 1)

theorem lastAttempt_append {pre : List (Turn α)} {provider : Except RaisedError (Option String)}
    {sent : Attempt α} {now jitter : ℚ} (h : LastAttempt cfg start pre sent)
    (post : List (Turn α)) :
    requestWithRetries cfg start (pre ++ .runs provider sent now jitter :: post) =
      requestWithRetries cfg start (pre ++ [.runs provider sent now jitter]) := by
  unfold LastAttempt at h
  unfold requestWithRetries at h ⊢
  rcases requestLoop_append cfg (start + cfg.timeout * (cfg.maxRetries + 1)) 0 false pre with
    ⟨-, happend⟩ | ⟨-, attempt', renewed', hcount, happend⟩
  · rw [happend, happend]
  · have hj : ∃ f, judge cfg renewed' sent = .finished f := by
      rcases h with h | ⟨h, hdone⟩
      · exact h.finished cfg renewed'
      · apply h.finished
        refine hdone.imp_right fun ⟨token, htoken⟩ => ?_
        have hpos : 0 < (requestLoop cfg (start + cfg.timeout * (cfg.maxRetries + 1)) 0 false
            pre).1.countP Action.isInvalidated :=
          List.countP_pos_iff.mpr ⟨_, htoken, rfl⟩
        cases renewed' with
        | true => rfl
        | false =>
          simp only [Bool.toNat_false] at hcount
          omega
    rw [happend, happend, requestLoop_finished hj post]

/-- A request ends after at most two attempts more than it may retry, renews the token at most
once, tries again only what it may, and starts no pause that would outlast the deadline. -/
theorem requestWithRetries_bounded (cfg : RequestSettings) (start : ℚ) (turns : List (Turn α)) :
    Bounded cfg start turns := by
  constructor
  case ends => exact fun h => finishes turns (Nat.zero_le _) h
  case attempts =>
    have h : (requestWithRetries cfg start turns).1.countP Action.isSent +
        (0 + Bool.toNat false) ≤ cfg.maxRetries + 2 := sent_le turns (Nat.zero_le _)
    simpa using h
  case renewals =>
    have h : (requestWithRetries cfg start turns).1.countP Action.isInvalidated +
        Bool.toNat false ≤ 1 := invalidated_le turns
    simpa using h
  case renewed => exact fun token h => invalidated_after h
  case last =>
    rintro pre provider sent now jitter post rfl h
    exact lastAttempt_append h post
  case result =>
    intro value h
    obtain ⟨pre, provider, sent, now, jitter, post, hturns, hcarries, hrunning⟩ := result_of h
    refine ⟨pre, provider, sent, now, jitter, post, hturns, hcarries, ?_⟩
    intro provider' sent' now' jitter' hmem
    obtain ⟨a, r, acts, a', r', hpass⟩ := passes_of_running hrunning _ hmem
    exact hpass.not_carries rfl
  case sleeps => exact fun now delay h => slept_before turns h

/-- The data service rejects the token with status 200. -/
def rejection : Attempt ℕ :=
  .response { status := 200, body := .object { value := 0, error := some { code := .int 498 } } }

/-- An error-free JSON object, received with any status. -/
def ObjectReceived (sent : Attempt α) (value : α) : Prop :=
  ∃ r p, sent = .response r ∧ r.body = .object p ∧ p.error = none ∧ p.value = value

/-- A second attempt follows an error body with code 498, and one follows an object that comes with
status 503, so that the second object is returned. -/
theorem requestWithRetries_tries_again :
    (¬ ∀ (cfg : RequestSettings) (start : ℚ) (pre : List (Turn ℕ))
        (provider : Except RaisedError (Option String)) (sent : Attempt ℕ) (now jitter : ℚ)
        (post : List (Turn ℕ)) (err : ErrorBody) (code : ℤ),
      ErrorResponse sent err → err.code.int? = some code → code < 500 →
      (requestWithRetries cfg start
        (pre ++ .runs provider sent now jitter :: post)).1.countP Action.isSent ≤
        pre.length + 1) ∧
      ¬ ∀ (cfg : RequestSettings) (start : ℚ) (provider : Except RaisedError (Option String))
        (sent : Attempt ℕ) (now jitter : ℚ) (post : List (Turn ℕ)) (first value : ℕ),
      ObjectReceived sent first →
      (requestWithRetries cfg start (.runs provider sent now jitter :: post)).2 =
        some (.result value) → value = first := by
  constructor
  · intro h
    have hle := h { hasProvider := true } 0 [] (.ok (some "token")) rejection 1 0
      [.runs (.ok (some "renewed"))
        (.response { status := 200, body := .object { value := 7 } }) 2 0]
      { code := .int 498 } 498 ⟨_, _, rfl, by decide, rfl, rfl⟩ rfl (by decide)
    exact absurd hle (by decide +kernel)
  · intro h
    have heq := h {} 0 (.ok none) (.response { status := 503, body := .object { value := 1 } }) 1 0
      [.runs (.ok none) (.response { status := 200, body := .object { value := 7 } }) 2 0] 1 7
      ⟨_, _, rfl, rfl, rfl, rfl⟩ (by decide +kernel)
    exact absurd heq (by decide)

end GeoPlatform.ArcGIS
