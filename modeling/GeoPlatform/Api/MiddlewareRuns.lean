import GeoPlatform.Api.Middleware

/-! What holds of every run of the middleware, whatever the endpoints do and whatever the server
answers: the order of the response, its headers, the records of the request, and the size of the
body that comes through. -/
namespace GeoPlatform.Api
open GeoPlatform.ArcGIS Interaction

variable {H : Type} {M : MutableHeaders H} {P : PyText} {unquote : List Char → List Char}
variable {settings : MiddlewareSettings} {readings : Readings} {scope : Scope}
variable {contextId : Option String} {p : App H Note} {s s' : RequestState}
variable {r : Except Failure Unit}

abbrev AppEvent (H ν : Type) := Event RequestState Incoming (Message H) ν Failure

variable {fs : List (AppEvent H Note)}

/-! ### What is read off a run -/

/-- The status of the last response that was started, 500 if there was none. -/
def statusSeen {ν : Type} (es : List (AppEvent H ν)) : ℕ :=
  (sentMessages es).foldl Message.statusAfter 500

def started {ν : Type} (es : List (AppEvent H ν)) : Bool :=
  (sentMessages es).foldl (fun started m => started || m.isStart) false

def Note.usage? : Note → Option UsageRecord
  | .usage r => some r
  | _ => none

def Note.access? : Note → Option AccessLine
  | .access line => some line
  | _ => none

def usageRecords (es : List (AppEvent H Note)) : List UsageRecord :=
  (notes es).filterMap Note.usage?

def accessLines (es : List (AppEvent H Note)) : List AccessLine :=
  (notes es).filterMap Note.access?

/-! ### Runs of a layer -/

theorem runs_errorResponse {status : ℕ} {code : ErrorCode} {message : String}
    {details : List (String × String)} :
    let body := errorBody contextId code message details
    Runs (errorResponse M contextId status code message details) s fs s' r ↔ s' = s ∧
      ((∃ e, fs = [.sent s (.start status (M.json body)) (.error e)] ∧ r = .error e) ∨
        fs = [.sent s (.start status (M.json body)) (.ok ()),
          .sent s (.body (.error body) false) r]) := by
  simp only [errorResponse, runs_send]
  constructor
  · rintro ⟨a, gs, rfl, h⟩
    cases a with
    | error e =>
      obtain ⟨rfl, rfl, rfl⟩ := runs_ret.mp h
      exact ⟨rfl, .inl ⟨e, rfl, rfl⟩⟩
    | ok u =>
      obtain ⟨a, hs, rfl, hbody⟩ := runs_send.mp h
      obtain ⟨rfl, rfl, rfl⟩ := runs_ret.mp hbody
      exact ⟨rfl, .inr rfl⟩
  · rintro ⟨rfl, ⟨e, rfl, rfl⟩ | rfl⟩
    · exact ⟨.error e, [], rfl, .ret⟩
    · exact ⟨.ok (), _, rfl, .send r .ret⟩

/-- How `UnhandledErrorMiddleware` goes on after a program that sent `es` and returned `r₁`. -/
def Handled (M : MutableHeaders H) (scope : Scope) (contextId : Option String)
    (es : List (AppEvent H Note)) (r₁ : Except Failure Unit) (s : RequestState)
    (rest : List (AppEvent H Note))
    (r : Except Failure Unit) : Prop :=
  match r₁ with
  | .error (.exception e) => ∃ more, rest = .noted (.unhandled scope.path) :: more ∧
      if started es then more = [] ∧ r = .error (.exception e)
      else Runs (errorResponse M contextId 500 .INTERNAL_ERROR "Internal server error." [])
        s more s r
  | r₁ => rest = [] ∧ r = r₁

theorem runs_unhandledError (hhttp : scope.http = true)
    (h : Runs (unhandledError M scope contextId p) s fs s' r) :
    ∃ es r₁ rest, Runs p s es s' r₁ ∧ fs = es ++ rest ∧
      Handled M scope contextId es r₁ s' rest r := by
  simp only [unhandledError, hhttp, Bool.not_true, Bool.false_eq_true, if_false,
    Wrapper.runs_sender, mapSent_self] at h
  obtain ⟨es, s₁, r₁, rest, hrun, hend, rfl⟩ := h
  have hfold : (sentMessages es).foldl (fun started m => started || m.isStart) false =
    started es := rfl
  rw [hfold] at hend
  rcases r₁ with (_ | e | e) | u
  · obtain ⟨rfl, rfl, rfl⟩ := runs_ret.mp hend
    exact ⟨es, _, [], hrun, rfl, rfl, rfl⟩
  · obtain ⟨more, rfl, hmore⟩ := runs_note.mp hend
    refine ⟨es, .error (.exception e), _, ?_, rfl, more, rfl, ?_⟩
    · split_ifs at hmore
      · obtain ⟨-, rfl, -⟩ := runs_ret.mp hmore
        exact hrun
      · obtain ⟨rfl, -⟩ := runs_errorResponse.mp hmore
        exact hrun
    · split_ifs at hmore ⊢
      · obtain ⟨rfl, -, rfl⟩ := runs_ret.mp hmore
        exact ⟨rfl, rfl⟩
      · obtain ⟨rfl, -⟩ := runs_errorResponse.mp hmore
        exact hmore
  · obtain ⟨rfl, rfl, rfl⟩ := runs_ret.mp hend
    exact ⟨es, _, [], hrun, rfl, rfl, rfl⟩
  · obtain ⟨rfl, rfl, rfl⟩ := runs_ret.mp hend
    exact ⟨es, _, [], hrun, rfl, rfl, rfl⟩

def meterAt (M : MutableHeaders H) (scope : Scope) (s : RequestState) (m : Message H) :
    Message H :=
  if scope.isMetered then meter M s m else m

/-- The records of a request whose response has the status. -/
def recordsOf (readings : Readings) (scope : Scope) (status : ℕ) (s : RequestState) :
    List UsageRecord :=
  if scope.isMetered then s.principal.toList.map (usageRecord readings scope status) else []

theorem runs_apiMetering (hhttp : scope.http = true)
    (h : Runs (apiMetering M readings scope p) s fs s' r) :
    ∃ es, Runs p s es s' r ∧ fs = es.map (Event.mapSent (meterAt M scope)) ++
      (recordsOf readings scope (statusSeen es) s').map fun u => .noted (.usage u) := by
  cases hmetered : scope.isMetered with
  | false =>
    have hsame : meterAt M scope = fun _ m => m := by
      funext s m
      simp [meterAt, hmetered]
    rw [hsame]
    simp only [apiMetering, hmetered, Bool.not_false, Bool.or_true, if_true] at h
    exact ⟨fs, h, by simp [mapSent_self, recordsOf, hmetered]⟩
  | true =>
    have hsame : meterAt M scope = meter M := by
      funext s m
      simp [meterAt, hmetered]
    rw [hsame]
    simp only [apiMetering, hhttp, hmetered, Bool.not_true, Bool.or_self, Bool.false_eq_true,
      if_false, Wrapper.runs_sender, runs_get] at h
    obtain ⟨es, s₁, r₁, rest, hrun, hend, rfl⟩ := h
    refine ⟨es, ?_⟩
    cases hprincipal : s₁.principal with
    | none =>
      rw [hprincipal] at hend
      obtain ⟨rfl, rfl, rfl⟩ := runs_ret.mp hend
      simp [hrun, recordsOf, hprincipal]
    | some q =>
      rw [hprincipal] at hend
      obtain ⟨more, rfl, hmore⟩ := runs_note.mp hend
      obtain ⟨rfl, rfl, rfl⟩ := runs_ret.mp hmore
      simp [hrun, recordsOf, hmetered, hprincipal, statusSeen]

/-! ### Bodies -/

/-- What comes through the limit of what is received, after `n` bytes. -/
def delivered (settings : MiddlewareSettings) :
    ℕ → List (AppEvent H Note) → List (AppEvent H Note)
  | _, [] => []
  | n, .received (.ok m) :: fs =>
      let (a, t) := countBody settings ⟨n, false⟩ m
      .received a :: delivered settings t.received fs
  | n, .received (.error e) :: fs => .received (.error e) :: delivered settings n fs
  | n, .noted note :: fs => .noted note :: delivered settings n fs
  | n, .sent s m a :: fs => .sent s m a :: delivered settings n fs

theorem sentMessages_delivered (n : ℕ) (fs : List (AppEvent H Note)) :
    sentMessages (delivered settings n fs) = sentMessages fs := by
  induction fs generalizing n with
  | nil => rfl
  | cons f fs ih =>
    rcases f with note | ⟨s, m, a⟩ | (e | m) <;> simp [delivered, sentMessages, ih]

theorem mem_delivered {n : ℕ} {fs : List (AppEvent H Note)} {m : Message H}
    {a : Except Failure Unit} : .sent s m a ∈ delivered settings n fs ↔ .sent s m a ∈ fs := by
  induction fs generalizing n with
  | nil => exact Iff.rfl
  | cons f fs ih =>
    rcases f with note | ⟨s, m, a⟩ | (e | m) <;> simp [delivered, ih]

theorem notes_delivered (n : ℕ) (fs : List (AppEvent H Note)) :
    notes (delivered settings n fs) = notes fs := by
  induction fs generalizing n with
  | nil => rfl
  | cons f fs ih =>
    rcases f with note | ⟨s, m, a⟩ | (e | m) <;> simp [delivered, notes, ih]

theorem countBody_started (t : BodyProgress) (m : Incoming) :
    countBody settings t m = ((countBody settings ⟨t.received, false⟩ m).1,
      ⟨(countBody settings ⟨t.received, false⟩ m).2.received, t.responseStarted⟩) := by
  cases m <;> rfl

theorem through_bodyLimiter {t t' : BodyProgress} {es front : List (AppEvent H Note)}
    (h : (bodyLimiter M settings contextId).Through t es front t') :
    es = delivered settings t.received front ∧ t'.responseStarted =
      (sentMessages front).foldl (fun started m => started || m.isStart) t.responseStarted := by
  induction h with
  | nil => exact ⟨rfl, rfl⟩
  | noted n _ ih => exact ⟨by rw [ih.1]; rfl, ih.2⟩
  | sent a hpass _ ih =>
    obtain ⟨rfl, rfl⟩ := Prod.ext_iff.mp hpass
    exact ⟨by rw [ih.1]; rfl, ih.2⟩
  | @received t t₁ es fs t' a a' hpass _ ih =>
    cases a with
    | error e =>
      obtain ⟨rfl, rfl⟩ := Prod.ext_iff.mp hpass
      exact ⟨by rw [ih.1]; rfl, ih.2⟩
    | ok m =>
      have hcount : countBody settings t m = (a', t₁) := hpass
      rw [countBody_started] at hcount
      obtain ⟨rfl, rfl⟩ := Prod.ext_iff.mp hcount
      exact ⟨by rw [ih.1]; rfl, ih.2⟩

/-- How `BodySizeLimitMiddleware` goes on after a program that sent `front` and returned `r₁`. -/
def Cut (M : MutableHeaders H) (contextId : Option String) (front : List (AppEvent H Note))
    (r₁ : Except Failure Unit) (s : RequestState) (rest : List (AppEvent H Note))
    (r : Except Failure Unit) : Prop :=
  if r₁ = .error .bodyTooLarge then
    if started front then rest = [] ∧ r = .ok ()
    else Runs (bodyTooLargeResponse M contextId) s rest s r
  else rest = [] ∧ r = r₁

theorem runs_bodyLimiter (h : Runs ((bodyLimiter M settings contextId).wrap {} p) s fs s' r) :
    ∃ front r₁ rest, Runs p s (delivered settings 0 front) s' r₁ ∧ fs = front ++ rest ∧
      Cut M contextId front r₁ s' rest r := by
  obtain ⟨es, s₁, r₁, t₁, front, rest, hrun, hthrough, hend, rfl⟩ :=
    (Wrapper.runs_wrap _ _ _ _ _ _ _).mp h
  obtain ⟨rfl, hstarted⟩ := through_bodyLimiter hthrough
  have hfold : t₁.responseStarted = started front := hstarted
  refine ⟨front, r₁, rest, ?_⟩
  simp only [bodyLimiter, hfold] at hend
  unfold Cut
  rcases r₁ with (_ | e | e) | u
  · rw [if_pos rfl]
    simp only at hend
    split_ifs at hend ⊢
    · obtain ⟨rfl, rfl, rfl⟩ := runs_ret.mp hend
      exact ⟨hrun, rfl, rfl, rfl⟩
    · have hsame := (runs_errorResponse.mp hend).1
      subst hsame
      exact ⟨hrun, rfl, hend⟩
  · obtain ⟨rfl, rfl, rfl⟩ := runs_ret.mp hend
    simp [hrun]
  · obtain ⟨rfl, rfl, rfl⟩ := runs_ret.mp hend
    simp [hrun]
  · obtain ⟨rfl, rfl, rfl⟩ := runs_ret.mp hend
    simp [hrun]

theorem runs_securityHeaders (hhttp : scope.http = true)
    (h : Runs (securityHeaders M settings scope p) s fs s' r) :
    ∃ es, Runs p s es s' r ∧ fs = es.map (Event.mapSent fun _ => secure M settings scope) := by
  simp only [securityHeaders, hhttp, Bool.not_true, Bool.false_eq_true, if_false,
    Wrapper.runs_sender] at h
  obtain ⟨es, s₁, r₁, rest, hrun, hend, rfl⟩ := h
  obtain ⟨rfl, rfl, rfl⟩ := runs_ret.mp hend
  exact ⟨es, hrun, List.append_nil _⟩

theorem runs_requestContext {app : Option String → App H Note} (hhttp : scope.http = true)
    (h : Runs (requestContext M P settings readings scope app) s fs s' r) :
    ∃ es, Runs (app (some (requestId readings scope))) s es s' r ∧
      fs = es.map (Event.mapSent fun _ => stamp M (requestId readings scope)) ++
        [.noted (.access (accessLine P settings readings scope (statusSeen es) s'))] := by
  simp only [requestContext, hhttp, Bool.not_true, Bool.false_eq_true, if_false,
    Wrapper.runs_sender, runs_get, runs_note] at h
  obtain ⟨es, s₁, r₁, rest, hrun, ⟨more, rfl, hend⟩, rfl⟩ := h
  obtain ⟨rfl, rfl, rfl⟩ := runs_ret.mp hend
  exact ⟨es, hrun, rfl⟩

/-! ### One response -/

inductive Phase where
  | waiting
  | streaming
  | done
  deriving DecidableEq

/-- The order that the server demands: one start, and bodies up to one that is the last. -/
def Phase.after : Option Phase → Message H → Option Phase
  | some .waiting, .start _ _ => some .streaming
  | some .streaming, .body _ true => some .streaming
  | some .streaming, .body _ false => some .done
  | phase, .other => phase
  | _, _ => none

def phase {ν : Type} (es : List (AppEvent H ν)) : Option Phase :=
  (sentMessages es).foldl Phase.after (some .waiting)

/-- A program keeps to the order on every run, and has started a response when it returns without
an error. -/
structure Conforms {ν : Type} (p : App H ν) : Prop where
  ordered : ∀ {s es s' r}, Runs p s es s' r → phase es ≠ none
  answered : ∀ {s es s' u}, Runs p s es s' (.ok u) → started es = true

theorem after_none (ms : List (Message H)) : ms.foldl Phase.after none = none := by
  induction ms with
  | nil => rfl
  | cons m ms ih => cases m <;> exact ih

theorem foldl_started (ms : List (Message H)) (b : Bool) :
    ms.foldl (fun started m => started || m.isStart) b = (b || ms.any Message.isStart) := by
  induction ms generalizing b with
  | nil => simp
  | cons m ms ih => simp [ih, Bool.or_assoc]

theorem started_eq {ν : Type} (es : List (AppEvent H ν)) :
    started es = (sentMessages es).any Message.isStart := by
  simp [started, foldl_started]

theorem started_append {ν : Type} (es fs : List (AppEvent H ν)) :
    started (es ++ fs) = (started es || started fs) := by
  simp [started_eq]

theorem started_mapSent {f : RequestState → Message H → Message H}
    (h : ∀ s m, (f s m).isStart = m.isStart) {ν : Type} (es : List (AppEvent H ν)) :
    started (es.map (Event.mapSent f)) = started es :=
  foldl_mapSent (fun s t m => by rw [h]) es false

/-- Before a response is started the server waits for one. -/
theorem phase_of_not_started {ν : Type} {es : List (AppEvent H ν)} (hphase : phase es ≠ none)
    (h : started es = false) : phase es = some .waiting := by
  rw [started_eq] at h
  unfold phase at hphase ⊢
  generalize sentMessages es = ms at h hphase ⊢
  induction ms with
  | nil => rfl
  | cons m ms ih =>
    rw [List.any_cons, Bool.or_eq_false_iff] at h
    cases m with
    | start status headers => exact absurd h.1 (by simp [Message.isStart])
    | body content more => exact absurd (after_none ms) hphase
    | other => exact ih h.2 hphase

theorem phase_append {ν : Type} (es fs : List (AppEvent H ν)) :
    phase (es ++ fs) = (sentMessages fs).foldl Phase.after (phase es) := by
  simp [phase]

/-- An answer with the error envelope, given where none was started. -/
theorem answer_conforms {status : ℕ} {code : ErrorCode} {message : String}
    {details : List (String × String)} {es rest : List (AppEvent H Note)}
    (hphase : phase es = some .waiting)
    (h : Runs (errorResponse M contextId status code message details) s rest s' r) :
    phase (es ++ rest) ≠ none ∧ started rest = true := by
  rw [phase_append, hphase]
  obtain ⟨-, ⟨e, rfl, -⟩ | rfl⟩ := runs_errorResponse.mp h
  · exact ⟨by simp [sentMessages, Phase.after], rfl⟩
  · exact ⟨by simp [sentMessages, Phase.after], rfl⟩

theorem conforms_errorResponse {status : ℕ} {code : ErrorCode} {message : String}
    {details : List (String × String)} :
    Conforms (errorResponse M contextId status code message details) where
  ordered h := (answer_conforms (show phase [] = some .waiting from rfl) h).1
  answered h := (answer_conforms (show phase [] = some .waiting from rfl) h).2

theorem conforms_quiet {app : App H Empty} (h : Conforms app) :
    Conforms (app.quiet : App H Note) where
  ordered hrun := by
    obtain ⟨es, happ, rfl⟩ := runs_quiet.mp hrun
    simpa [phase] using h.ordered happ
  answered hrun := by
    obtain ⟨es, happ, rfl⟩ := runs_quiet.mp hrun
    simpa [started] using h.answered happ

/-- A layer that changes headers at most keeps the order. -/
theorem conforms_mapSent {f : RequestState → Message H → Message H} {q : App H Note}
    (hphase : ∀ s t m, Phase.after t (f s m) = Phase.after t m)
    (hstart : ∀ s m, (f s m).isStart = m.isStart) (h : Conforms p)
    (hruns : ∀ {s fs s' r}, Runs q s fs s' r → ∃ es more, Runs p s es s' r ∧
      fs = es.map (Event.mapSent f) ++ more ∧ sentMessages more = []) : Conforms q where
  ordered hrun := by
    obtain ⟨es, more, hinner, rfl, hmore⟩ := hruns hrun
    rw [phase_append, hmore]
    have hsame : phase (es.map (Event.mapSent f)) = phase es := foldl_mapSent hphase _ _
    rw [List.foldl_nil, hsame]
    exact h.ordered hinner
  answered hrun := by
    obtain ⟨es, more, hinner, rfl, hmore⟩ := hruns hrun
    rw [started_append, started_mapSent hstart, h.answered hinner, Bool.true_or]

theorem conforms_unhandledError (hhttp : scope.http = true) (h : Conforms p) :
    Conforms (unhandledError M scope contextId p) where
  ordered hrun := by
    obtain ⟨es, r₁, rest, hinner, rfl, hend⟩ := runs_unhandledError hhttp hrun
    have hphase := h.ordered hinner
    rcases r₁ with (_ | e | e) | u
    · obtain ⟨rfl, -⟩ := hend
      simpa using hphase
    · obtain ⟨more, rfl, hmore⟩ := hend
      rw [List.append_cons, phase_append]
      have hnote : phase (es ++ [.noted (.unhandled scope.path)]) = phase es := by
        rw [phase_append]
        rfl
      cases hstarted : started es with
      | true =>
        obtain ⟨rfl, -⟩ : more = [] ∧ _ := by simpa [hstarted] using hmore
        rw [hnote]
        exact hphase
      | false =>
        have hanswer := (if_neg (by simp [hstarted])).mp hmore
        rw [← phase_append]
        exact (answer_conforms (hnote.trans (phase_of_not_started hphase hstarted)) hanswer).1
    · obtain ⟨rfl, -⟩ := hend
      simpa using hphase
    · obtain ⟨rfl, -⟩ := hend
      simpa using hphase
  answered hrun := by
    obtain ⟨es, r₁, rest, hinner, rfl, hend⟩ := runs_unhandledError hhttp hrun
    rcases r₁ with (_ | e | e) | u
    · exact nomatch hend.2
    · obtain ⟨more, rfl, hmore⟩ := hend
      cases hstarted : started es with
      | true => rw [started_append, hstarted, Bool.true_or]
      | false =>
        have hanswer := (if_neg (by simp [hstarted])).mp hmore
        rw [List.append_cons, started_append, conforms_errorResponse.answered hanswer,
          Bool.or_true]
    · exact nomatch hend.2
    · obtain ⟨rfl, -⟩ := hend
      rw [List.append_nil]
      exact h.answered hinner

theorem conforms_apiMetering (hhttp : scope.http = true) (h : Conforms p) :
    Conforms (apiMetering M readings scope p) := by
  refine conforms_mapSent (f := meterAt M scope) (fun s t m => ?_) (fun s m => ?_) h ?_
  · unfold meterAt
    split_ifs
    · cases m <;> rcases t with _ | _ | _ | _ <;> rfl
    · rfl
  · unfold meterAt
    split_ifs
    · cases m <;> rfl
    · rfl
  · intro s fs s' r hrun
    obtain ⟨es, hinner, rfl⟩ := runs_apiMetering hhttp hrun
    refine ⟨es, _, hinner, rfl, ?_⟩
    generalize recordsOf readings scope (statusSeen es) s' = records
    induction records with
    | nil => rfl
    | cons record records ih => exact ih

theorem conforms_bodyLimiter (h : Conforms p) :
    Conforms ((bodyLimiter M settings contextId).wrap {} p) where
  ordered hrun := by
    obtain ⟨front, r₁, rest, hinner, rfl, hend⟩ := runs_bodyLimiter hrun
    have hphase : phase front ≠ none := by
      have hordered := h.ordered hinner
      rwa [phase, sentMessages_delivered] at hordered
    unfold Cut at hend
    split_ifs at hend with hlarge hstarted
    · rw [hend.1, List.append_nil]
      exact hphase
    · exact (answer_conforms (phase_of_not_started hphase (by simpa using hstarted)) hend).1
    · rw [hend.1, List.append_nil]
      exact hphase
  answered hrun := by
    obtain ⟨front, r₁, rest, hinner, rfl, hend⟩ := runs_bodyLimiter hrun
    rw [started_append]
    unfold Cut at hend
    split_ifs at hend with hlarge hstarted
    · rw [hstarted, Bool.true_or]
    · rw [conforms_errorResponse.answered hend, Bool.or_true]
    · rw [← hend.2] at hinner
      have hanswered := h.answered hinner
      rw [started, sentMessages_delivered] at hanswered
      rw [started, hanswered, Bool.true_or]

theorem conforms_bodySizeLimit (hhttp : scope.http = true) (h : Conforms p) :
    Conforms (bodySizeLimit M settings scope contextId p) := by
  simp only [bodySizeLimit, hhttp, Bool.not_true, Bool.false_eq_true, if_false]
  split
  · split
    · exact ⟨fun hrun => by rw [(runs_ret.mp hrun).1]; simp [phase, sentMessages],
        fun hrun => nomatch (runs_ret.mp hrun).2.2⟩
    · split_ifs
      · exact conforms_errorResponse
      · exact conforms_bodyLimiter h
  · exact conforms_bodyLimiter h

theorem conforms_securityHeaders (hhttp : scope.http = true) (h : Conforms p) :
    Conforms (securityHeaders M settings scope p) := by
  refine conforms_mapSent (f := fun _ => secure M settings scope) (fun s t m => ?_)
    (fun s m => by cases m <;> rfl) h fun hrun => ?_
  · cases m <;> rcases t with _ | _ | _ | _ <;> rfl
  · obtain ⟨es, hinner, rfl⟩ := runs_securityHeaders hhttp hrun
    exact ⟨es, [], hinner, (List.append_nil _).symm, rfl⟩

theorem conforms_requestLimits (h : Conforms p) :
    Conforms (requestLimits M unquote settings scope contextId p) := by
  unfold requestLimits
  split_ifs
  · exact h
  · split
    · exact h
    · exact conforms_errorResponse

theorem conforms_requestContext {app : Option String → App H Note} (hhttp : scope.http = true)
    (h : ∀ id, Conforms (app id)) : Conforms (requestContext M P settings readings scope app) := by
  refine conforms_mapSent
    (f := fun _ => stamp M (requestId readings scope)) (fun s t m => ?_)
    (fun s m => by cases m <;> rfl) (h (some (requestId readings scope)))
    fun hrun => ?_
  · cases m <;> rcases t with _ | _ | _ | _ <;> rfl
  · obtain ⟨es, hinner, rfl⟩ := runs_requestContext hhttp hrun
    exact ⟨es, _, hinner, rfl, rfl⟩

/-- The server gets at most one response, in order, and at least a part of one when the stack
returns without an error. -/
theorem stack_conforms {app : App H Empty} (hhttp : scope.http = true) (happ : Conforms app) :
    Conforms (stack M P unquote settings readings scope app) :=
  conforms_requestContext hhttp fun _ => conforms_requestLimits <| conforms_securityHeaders hhttp <|
    conforms_bodySizeLimit hhttp <| conforms_apiMetering hhttp <|
      conforms_unhandledError hhttp (conforms_quiet happ)

/-! ### A request -/

theorem sampleUuid_valid : requestIdPattern "0123456789abcdef0123456789abcdef".toList = true := by
  decide +kernel

def sampleReadings : Readings where
  uuid := "0123456789abcdef0123456789abcdef".toList
  uuid_valid := sampleUuid_valid
  accessTimeMs := 7 / 2
  usageTimeMs := 3
  timestampMs := 1700000000000

def sampleScope : Scope where
  method := "GET"
  path := "/v1/geocode"

/-- An endpoint that knows its principal, reads a message of the body and answers. -/
def sampleApp : App (List (HeaderName × String)) Empty :=
  .put { principal := some { keyId := "k1", userId := "u1" }, rateLimit := some ⟨100, 99, 60⟩ } <|
    .receive fun
      | .error e => .ret (.error e)
      | .ok _ => .send (.start 200 []) fun _ => .send (.body (.bytes []) false) .ret

theorem conforms_sampleApp : Conforms sampleApp where
  ordered hrun := by
    obtain ⟨a, fs, rfl, hrest⟩ := runs_receive.mp (runs_put.mp hrun)
    cases a with
    | error e =>
      rw [(runs_ret.mp hrest).1]
      simp [phase, sentMessages]
    | ok m =>
      obtain ⟨_, gs, rfl, hbody⟩ := runs_send.mp hrest
      obtain ⟨_, hs, rfl, hend⟩ := runs_send.mp hbody
      rw [(runs_ret.mp hend).1]
      simp [phase, sentMessages, Phase.after]
  answered hrun := by
    obtain ⟨a, fs, rfl, hrest⟩ := runs_receive.mp (runs_put.mp hrun)
    cases a with
    | error e => cases (runs_ret.mp hrest).2.2
    | ok m =>
      obtain ⟨_, gs, rfl, -⟩ := runs_send.mp hrest
      rw [started_eq]
      rfl

theorem stack_conforms_sample : Conforms (stack headerPairs asciiTables id {} sampleReadings
    sampleScope sampleApp) :=
  stack_conforms rfl conforms_sampleApp

end GeoPlatform.Api
