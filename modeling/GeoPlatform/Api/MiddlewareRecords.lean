import GeoPlatform.Api.MiddlewareRuns

/-! What a request leaves behind that the middleware lets through to the endpoints: its usage record
and access line, the headers of its responses, and how much of its body the endpoints see. -/
namespace GeoPlatform.Api
open GeoPlatform.ArcGIS Interaction

variable {H : Type} {M : MutableHeaders H} {P : PyText} {unquote : List Char → List Char}
variable {settings : MiddlewareSettings} {readings : Readings} {scope : Scope}
variable {contextId : Option String} {app : App H Empty} {s s' : RequestState}
variable {r r₁ r₂ : Except Failure Unit} {es : List (AppEvent H Empty)}
variable {fs front more rest : List (AppEvent H Note)}

/-- The request passes what is checked before the endpoints run. -/
structure Admitted (unquote : List Char → List Char) (settings : MiddlewareSettings)
    (scope : Scope) : Prop where
  http : scope.http = true
  limits : problem unquote settings scope = none
  declared : ∀ digits, (scope.header "content-length").filter isDigits = some digits →
    ∃ n, intOfDigits digits = some n ∧ n ≤ settings.maxRequestBodyBytes

/-- The run of the endpoints inside a run of the stack, and what the layers make of it. -/
structure Inside (M : MutableHeaders H) (P : PyText) (settings : MiddlewareSettings)
    (readings : Readings) (scope : Scope) (es : List (AppEvent H Empty)) (r₁ : Except Failure Unit)
    (more front : List (AppEvent H Note)) (r₂ : Except Failure Unit)
    (rest fs : List (AppEvent H Note)) (s' : RequestState) (r : Except Failure Unit) : Prop where
  handled : Handled M scope (some (requestId readings scope)) (es.map Event.quiet) r₁ s' more r₂
  metered : delivered settings 0 front =
    (es.map Event.quiet ++ more).map (Event.mapSent (meterAt M scope)) ++
      (recordsOf readings scope (statusSeen (es.map Event.quiet ++ more)) s').map
        fun u => .noted (.usage u)
  cut : Cut M (some (requestId readings scope)) front r₂ s' rest r
  logged : fs = (front ++ rest).map
      (Event.mapSent fun _ m => stamp M (requestId readings scope) (secure M settings scope m)) ++
    [.noted (.access (accessLine P settings readings scope (statusSeen (front ++ rest)) s'))]

theorem mapSent_mapSent (f g : RequestState → Message H → Message H)
    (fs : List (AppEvent H Note)) : (fs.map (Event.mapSent g)).map (Event.mapSent f) =
      fs.map (Event.mapSent fun s m => f s (g s m)) := by
  rw [List.map_map]
  refine List.map_congr_left fun e _ => ?_
  cases e <;> rfl

theorem statusSeen_mapSent {ν : Type} {f : RequestState → Message H → Message H}
    (h : ∀ s t m, Message.statusAfter t (f s m) = Message.statusAfter t m)
    (es : List (AppEvent H ν)) : statusSeen (es.map (Event.mapSent f)) = statusSeen es :=
  foldl_mapSent h es 500

theorem statusAfter_secure (status : ℕ) (m : Message H) :
    (secure M settings scope m).statusAfter status = m.statusAfter status := by
  cases m <;> rfl

theorem Admitted.inside (h : Admitted unquote settings scope)
    (hrun : Runs (stack M P unquote settings readings scope app) s fs s' r) :
    ∃ es r₁ more front r₂ rest, Runs app s es s' r₁ ∧
      Inside M P settings readings scope es r₁ more front r₂ rest fs s' r := by
  obtain ⟨gs, hlimits, rfl⟩ := runs_requestContext h.http hrun
  simp only [requestLimits, h.http, h.limits, Bool.not_true, Bool.false_eq_true, if_false]
    at hlimits
  obtain ⟨hs, hsize, rfl⟩ := runs_securityHeaders h.http hlimits
  have hlimiter : Runs ((bodyLimiter M settings (some (requestId readings scope))).wrap {}
      (apiMetering M readings scope
        (unhandledError M scope (some (requestId readings scope)) app.quiet))) s hs s' r := by
    simp only [bodySizeLimit, h.http, Bool.not_true, Bool.false_eq_true, if_false] at hsize
    cases hdigits : (scope.header "content-length").filter isDigits with
    | none => rwa [hdigits] at hsize
    | some digits =>
      obtain ⟨n, hn, hle⟩ := h.declared digits hdigits
      simpa only [hdigits, hn, if_neg (Nat.not_lt.mpr hle)] using hsize
  obtain ⟨front, r₂, rest, hmetering, rfl, hcut⟩ := runs_bodyLimiter hlimiter
  obtain ⟨js, hunhandled, hmetered⟩ := runs_apiMetering h.http hmetering
  obtain ⟨ks, r₁, more, hquiet, rfl, hhandled⟩ := runs_unhandledError h.http hunhandled
  obtain ⟨es, happ, rfl⟩ := runs_quiet.mp hquiet
  refine ⟨es, r₁, more, front, r₂, rest, happ, hhandled, hmetered, hcut, ?_⟩
  rw [mapSent_mapSent, statusSeen_mapSent fun _ => statusAfter_secure]

/-! ### Status -/

theorem statusSeen_append {ν : Type} (es fs : List (AppEvent H ν)) :
    statusSeen (es ++ fs) = (sentMessages fs).foldl Message.statusAfter (statusSeen es) := by
  simp [statusSeen]

/-- An answer with the error envelope sends its status and leaves no notes. -/
theorem answer_events {status : ℕ} {code : ErrorCode} {message : String}
    {details : List (String × String)}
    (h : Runs (errorResponse M contextId status code message details) s rest s' r) :
    (∀ es : List (AppEvent H Note), statusSeen (es ++ rest) = status) ∧ notes rest = [] ∧
      received rest = [] := by
  obtain ⟨-, ⟨e, rfl, -⟩ | rfl⟩ := runs_errorResponse.mp h
  · exact ⟨fun es => by rw [statusSeen_append]; rfl, rfl, rfl⟩
  · exact ⟨fun es => by rw [statusSeen_append]; rfl, rfl, rfl⟩

theorem statusSeen_of_not_started {ν : Type} {es : List (AppEvent H ν)}
    (h : started es = false) : statusSeen es = 500 := by
  rw [started_eq] at h
  unfold statusSeen
  generalize sentMessages es = ms at h
  induction ms with
  | nil => rfl
  | cons m ms ih =>
    rw [List.any_cons, Bool.or_eq_false_iff] at h
    cases m with
    | start status headers => exact absurd h.1 (by simp [Message.isStart])
    | body content more => exact ih h.2
    | other => exact ih h.2

/-- An unexpected exception counts as 500 also where the answer to it was sent. -/
theorem Handled.statusSeen {es : List (AppEvent H Note)}
    (h : Handled M scope contextId es r₁ s' more r₂) :
    statusSeen (es ++ more) = statusSeen es ∧ usageRecords more = [] ∧ accessLines more = [] ∧
      received more = [] := by
  rcases r₁ with (_ | e | e) | u
  · obtain ⟨rfl, -⟩ := h
    simp [usageRecords, accessLines, notes, received]
  · obtain ⟨answer, rfl, hanswer⟩ := h
    have hnote : Api.statusSeen (es ++ .noted (.unhandled scope.path) :: answer) =
        Api.statusSeen (es ++ answer) := by
      rw [statusSeen_append, statusSeen_append]
      rfl
    rw [hnote]
    cases hstarted : started es with
    | true =>
      obtain ⟨rfl, -⟩ : answer = [] ∧ _ := by simpa [hstarted] using hanswer
      rw [List.append_nil]
      exact ⟨rfl, rfl, rfl, rfl⟩
    | false =>
      have hsent := (if_neg (by simp [hstarted])).mp hanswer
      obtain ⟨hstatus, hnotes, hreceived⟩ := answer_events hsent
      refine ⟨(hstatus es).trans (statusSeen_of_not_started hstarted).symm, ?_, ?_, hreceived⟩
      · simp only [usageRecords, notes, hnotes]
        rfl
      · simp only [accessLines, notes, hnotes]
        rfl
  · obtain ⟨rfl, -⟩ := h
    simp [usageRecords, accessLines, notes, received]
  · obtain ⟨rfl, -⟩ := h
    simp [usageRecords, accessLines, notes, received]

/-! ### What comes to the border -/

theorem usageNotes_events (records : List UsageRecord) :
    let fs : List (AppEvent H Note) := records.map fun u => .noted (.usage u)
    sentMessages fs = [] ∧ received fs = [] ∧ notes fs = records.map .usage := by
  induction records with
  | nil => exact ⟨rfl, rfl, rfl⟩
  | cons record records ih =>
    obtain ⟨hsent, hreceived, hnotes⟩ := ih
    exact ⟨hsent, hreceived, congrArg (Note.usage record :: ·) hnotes⟩

theorem isStart_meterAt (s : RequestState) (m : Message H) :
    (meterAt M scope s m).isStart = m.isStart := by
  unfold meterAt
  split_ifs
  · cases m <;> rfl
  · rfl

theorem statusAfter_meterAt (s : RequestState) (status : ℕ) (m : Message H) :
    (meterAt M scope s m).statusAfter status = m.statusAfter status := by
  unfold meterAt
  split_ifs
  · cases m <;> rfl
  · rfl

theorem statusSeen_quiet (es : List (AppEvent H Empty)) :
    statusSeen (es.map Event.quiet : List (AppEvent H Note)) = statusSeen es := by
  rw [statusSeen, sentMessages_quiet]
  rfl

theorem started_quiet (es : List (AppEvent H Empty)) :
    started (es.map Event.quiet : List (AppEvent H Note)) = started es := by
  rw [started, sentMessages_quiet]
  rfl

section Inside
variable (h : Inside M P settings readings scope es r₁ more front r₂ rest fs s' r)
include h

theorem Inside.statusSeen_front : statusSeen front = statusSeen es := by
  have hdelivered := congrArg statusSeen h.metered
  rw [statusSeen, sentMessages_delivered, statusSeen_append, (usageNotes_events _).1,
    List.foldl_nil, statusSeen_mapSent statusAfter_meterAt, h.handled.statusSeen.1,
    statusSeen_quiet] at hdelivered
  exact hdelivered

theorem Inside.started_front : started front = (started es || started more) := by
  have hdelivered := congrArg started h.metered
  rw [started_append, started_mapSent isStart_meterAt, started_append, started_quiet,
    started_eq (List.map _ (recordsOf ..)), (usageNotes_events _).1, List.any_nil, Bool.or_false,
    started, sentMessages_delivered] at hdelivered
  exact hdelivered

theorem Inside.usageRecords_front :
    usageRecords front = recordsOf readings scope (statusSeen es) s' := by
  have hdelivered := congrArg usageRecords h.metered
  rw [usageRecords, notes_delivered, usageRecords, notes_append, notes_mapSent, notes_append,
    notes_quiet, List.nil_append, (usageNotes_events _).2.2, List.filterMap_append,
    h.handled.statusSeen.1, statusSeen_quiet] at hdelivered
  rw [usageRecords, hdelivered, show (notes more).filterMap Note.usage? = [] from
    h.handled.statusSeen.2.1, List.nil_append, List.filterMap_map]
  exact List.filterMap_some

theorem Inside.accessLines_front : accessLines front = [] := by
  have hdelivered := congrArg accessLines h.metered
  rw [accessLines, notes_delivered, accessLines, notes_append, notes_mapSent, notes_append,
    notes_quiet, List.nil_append, (usageNotes_events _).2.2, List.filterMap_append] at hdelivered
  rw [accessLines, hdelivered, show (notes more).filterMap Note.access? = [] from
    h.handled.statusSeen.2.2.1, List.nil_append, List.filterMap_map]
  exact List.filterMap_eq_nil_iff.mpr fun _ _ => rfl

/-- The rest is the refusal of a large body or nothing. -/
theorem Inside.rest_cases :
    r₁ = .error .bodyTooLarge ∧ started es = false ∧
        Runs (bodyTooLargeResponse M (some (requestId readings scope))) s' rest s' r ∨
      ¬ (r₁ = .error .bodyTooLarge ∧ started es = false) ∧ rest = [] := by
  have hcut := h.cut
  have hstarted := h.started_front
  have hhandled := h.handled
  unfold Cut at hcut
  rcases r₁ with (_ | e | e) | u
  · obtain ⟨rfl, rfl⟩ := hhandled
    rw [if_pos rfl, hstarted, show started ([] : List (AppEvent H Note)) = false from rfl,
      Bool.or_false] at hcut
    cases hes : started es with
    | true => exact .inr ⟨by simp, (if_pos hes ▸ hcut).1⟩
    | false => exact .inl ⟨rfl, rfl, (if_neg (by simp [hes])).mp hcut⟩
  · refine .inr ⟨by simp, ?_⟩
    obtain ⟨answer, rfl, hanswer⟩ := hhandled
    rw [started_quiet] at hanswer
    cases hes : started es with
    | true =>
      obtain ⟨rfl, rfl⟩ : answer = [] ∧ r₂ = .error (.exception e) := by simpa [hes] using hanswer
      exact ((if_neg (by simp)).mp hcut).1
    | false =>
      have hsent := (if_neg (by simp [hes])).mp hanswer
      have hfront : started front = true := by
        rw [hstarted, started_eq (_ :: _), sentMessages, ← started_eq,
          (answer_conforms (show phase [] = some .waiting from rfl) hsent).2, Bool.or_true]
      split_ifs at hcut
      · exact hcut.1
      · exact hcut.1
  · obtain ⟨rfl, rfl⟩ := hhandled
    exact .inr ⟨by simp, ((if_neg (by simp)).mp hcut).1⟩
  · obtain ⟨rfl, rfl⟩ := hhandled
    exact .inr ⟨by simp, ((if_neg (by simp)).mp hcut).1⟩

end Inside

/-! ### Records -/

/-- A request that is refused before the endpoints run leaves an access line only. -/
theorem refused_notes (hhttp : scope.http = true) (h : ¬ Admitted unquote settings scope)
    (hrun : Runs (stack M P unquote settings readings scope app) s fs s' r) :
    notes fs = [.access (accessLine P settings readings scope (statusSeen fs) s')] := by
  obtain ⟨gs, hlimits, rfl⟩ := runs_requestContext hhttp hrun
  have hnone : notes gs = [] := by
    simp only [requestLimits, hhttp, Bool.not_true, Bool.false_eq_true, if_false] at hlimits
    cases hproblem : problem unquote settings scope with
    | some q =>
      rw [hproblem] at hlimits
      exact (answer_events hlimits).2.1
    | none =>
      rw [hproblem] at hlimits
      obtain ⟨hs, hsize, rfl⟩ := runs_securityHeaders hhttp hlimits
      rw [notes_mapSent]
      simp only [bodySizeLimit, hhttp, Bool.not_true, Bool.false_eq_true, if_false] at hsize
      cases hdigits : (scope.header "content-length").filter isDigits with
      | none =>
        exact absurd ⟨hhttp, hproblem, fun digits hd => by simp [hdigits] at hd⟩ h
      | some digits =>
        simp only [hdigits] at hsize
        cases hn : intOfDigits digits with
        | none =>
          rw [hn] at hsize
          rw [(runs_ret.mp hsize).1]
          rfl
        | some n =>
          simp only [hn] at hsize
          split_ifs at hsize with hlarge
          · exact (answer_events hsize).2.1
          · refine absurd ⟨hhttp, hproblem, fun digits' hd => ⟨n, ?_, Nat.le_of_not_lt hlarge⟩⟩ h
            rw [hdigits, Option.some.injEq] at hd
            rw [← hd, hn]
  have hstatus : statusSeen (gs.map (Event.mapSent fun _ => stamp M (requestId readings scope)) ++
      [.noted (.access (accessLine P settings readings scope (statusSeen gs) s'))]) =
        statusSeen gs := by
    rw [statusSeen_append]
    exact statusSeen_mapSent (fun _ t m => by cases m <;> rfl) gs
  rw [hstatus, notes_append, notes_mapSent, hnone]
  rfl

/-- Every request that the CORS layer passes on leaves one access line, with the status that the
client saw. It leaves a usage record where the endpoints were reached and found a principal, and the
record's status is the one of the access line unless the body was too large: then the client saw
413. -/
theorem request_records (hhttp : scope.http = true)
    (hrun : Runs (stack M P unquote settings readings scope app) s fs s' r) :
    accessLines fs = [accessLine P settings readings scope (statusSeen fs) s'] ∧
      (¬ Admitted unquote settings scope → usageRecords fs = []) ∧
      (Admitted unquote settings scope → ∃ es r₁, Runs app s es s' r₁ ∧
        usageRecords fs = recordsOf readings scope (statusSeen es) s' ∧
        statusSeen fs =
          if r₁ = .error .bodyTooLarge ∧ started es = false then 413 else statusSeen es) := by
  by_cases hadm : Admitted unquote settings scope
  · obtain ⟨es, r₁, more, front, r₂, rest, happ, hinside⟩ := hadm.inside hrun
    have hnotes : notes fs = notes (front ++ rest) ++
        [.access (accessLine P settings readings scope (statusSeen (front ++ rest)) s')] := by
      rw [hinside.logged, notes_append, notes_mapSent]
      rfl
    have hstatus : statusSeen fs = statusSeen (front ++ rest) := by
      rw [hinside.logged, statusSeen_append]
      exact statusSeen_mapSent (fun _ t m => by cases m <;> rfl) _
    have hrest : notes rest = [] ∧ statusSeen (front ++ rest) =
        if r₁ = .error .bodyTooLarge ∧ started es = false then 413 else statusSeen es := by
      rcases hinside.rest_cases with ⟨hlarge, hes, hanswer⟩ | ⟨hno, rfl⟩
      · rw [if_pos ⟨hlarge, hes⟩]
        exact ⟨(answer_events hanswer).2.1, (answer_events hanswer).1 front⟩
      · rw [if_neg hno, List.append_nil]
        exact ⟨rfl, hinside.statusSeen_front⟩
    refine ⟨?_, fun h => absurd hadm h, fun _ => ⟨es, r₁, happ, ?_, hstatus.trans hrest.2⟩⟩
    · have hfront := hinside.accessLines_front
      rw [accessLines] at hfront
      rw [accessLines, hnotes, hstatus, notes_append, hrest.1, List.append_nil,
        List.filterMap_append, hfront]
      rfl
    · have hfront := hinside.usageRecords_front
      rw [usageRecords] at hfront
      rw [usageRecords, hnotes, notes_append, hrest.1, List.append_nil, List.filterMap_append,
        hfront]
      exact List.append_nil _
  · have hnotes := refused_notes hhttp hadm hrun
    refine ⟨?_, fun _ => ?_, fun h => absurd h hadm⟩
    · rw [accessLines, hnotes]
      rfl
    · rw [usageRecords, hnotes]
      rfl

theorem admitted_sampleScope (maxRequestBodyBytes : ℕ) :
    Admitted id { maxRequestBodyBytes } sampleScope where
  http := rfl
  limits := by simp [problem, sampleScope]
  declared := by simp [Scope.header, sampleScope]

/-- A body of three bytes where two are allowed. -/
def sampleRun : List (AppEvent (List (HeaderName × String)) Note) × RequestState ×
    Except Failure Unit :=
  (stack headerPairs asciiTables id { maxRequestBodyBytes := 2 } sampleReadings sampleScope
    sampleApp).play (.exception "disconnected") [.request [1, 2, 3] false] {}

theorem request_records_sample : ∃ es r₁, Runs sampleApp {} es sampleRun.2.1 r₁ ∧
    usageRecords sampleRun.1 = recordsOf sampleReadings sampleScope (statusSeen es) sampleRun.2.1 ∧
    statusSeen sampleRun.1 =
      if r₁ = .error .bodyTooLarge ∧ started es = false then 413 else statusSeen es :=
  (request_records rfl (runs_play ..)).2.2 (admitted_sampleScope 2)

example : statusSeen sampleRun.1 = 413 ∧
    (usageRecords sampleRun.1).map UsageRecord.statusCode = [500] := by decide +kernel

/-! ### Bodies -/

def Incoming.bytes : Incoming → Bytes
  | .request body _ => body
  | .disconnect => []

/-- The bytes of the body that a program has received. -/
def bodyBytes {ν : Type} (es : List (AppEvent H ν)) : Bytes :=
  (received es).flatMap fun a => (a.toOption.map Incoming.bytes).getD []

theorem delivered_over {n : ℕ} (hn : settings.maxRequestBodyBytes < n)
    (fs : List (AppEvent H Note)) : bodyBytes (delivered settings n fs) = [] := by
  induction fs generalizing n with
  | nil => rfl
  | cons f fs ih =>
    rcases f with note | ⟨s, m, a⟩ | (e | body | _)
    · exact ih hn
    · exact ih hn
    · exact ih hn
    · have hlarge : settings.maxRequestBodyBytes < n + body.length := by omega
      simp only [delivered, countBody, if_pos hlarge]
      exact ih hlarge
    · exact ih hn

theorem delivered_bound {n : ℕ} (hn : n ≤ settings.maxRequestBodyBytes)
    (fs : List (AppEvent H Note)) :
    n + (bodyBytes (delivered settings n fs)).length ≤ settings.maxRequestBodyBytes ∧
      bodyBytes (delivered settings n fs) <+: bodyBytes fs := by
  induction fs generalizing n with
  | nil => exact ⟨hn, List.prefix_rfl⟩
  | cons f fs ih =>
    rcases f with note | ⟨s, m, a⟩ | (e | ⟨body, last⟩ | _)
    · exact ih hn
    · exact ih hn
    · exact ih hn
    · by_cases hlarge : settings.maxRequestBodyBytes < n + body.length
      · have hnone : bodyBytes (delivered settings n (.received (.ok (.request body last)) :: fs)) =
            [] := by
          simp only [delivered, countBody, if_pos hlarge]
          exact delivered_over hlarge fs
        rw [hnone]
        exact ⟨hn, List.nil_prefix⟩
      · obtain ⟨hle, hfirst⟩ := ih (Nat.le_of_not_lt hlarge)
        have hsome : bodyBytes (delivered settings n (.received (.ok (.request body last)) :: fs)) =
            body ++ bodyBytes (delivered settings (n + body.length) fs) := by
          simp only [delivered, countBody, if_neg hlarge]
          rfl
        rw [hsome, List.length_append]
        exact ⟨by omega, (List.prefix_append_right_inj body).mpr hfirst⟩
    · exact ih hn

theorem delivered_all {n : ℕ} {fs : List (AppEvent H Note)}
    (h : n + (bodyBytes fs).length ≤ settings.maxRequestBodyBytes) :
    received (delivered settings n fs) = received fs := by
  induction fs generalizing n with
  | nil => rfl
  | cons f fs ih =>
    rcases f with note | ⟨s, m, a⟩ | (e | ⟨body, last⟩ | _)
    · exact ih h
    · exact ih h
    · exact congrArg (.error e :: ·) (ih h)
    · have hbytes : bodyBytes (.received (.ok (.request body last)) :: fs) =
          body ++ bodyBytes fs := rfl
      rw [hbytes, List.length_append] at h
      have hsmall : ¬ settings.maxRequestBodyBytes < n + body.length := by omega
      simp only [delivered, countBody, if_neg hsmall, received]
      rw [ih (by simpa only [countBody, Nat.add_assoc] using h)]
    · exact congrArg (.ok .disconnect :: ·) (ih h)

/-- The endpoints see an initial part of the body, of at most the allowed size, and all of a body
that is not larger. -/
theorem body_bounded (hadm : Admitted unquote settings scope)
    (hrun : Runs (stack M P unquote settings readings scope app) s fs s' r) :
    ∃ es r₁, Runs app s es s' r₁ ∧ (bodyBytes es).length ≤ settings.maxRequestBodyBytes ∧
      bodyBytes es <+: bodyBytes fs ∧
      ((bodyBytes fs).length ≤ settings.maxRequestBodyBytes → received es = received fs) := by
  obtain ⟨es, r₁, more, front, r₂, rest, happ, hinside⟩ := hadm.inside hrun
  have hinner : received es = received (delivered settings 0 front) := by
    rw [hinside.metered, received_append, received_mapSent, received_append, received_quiet,
      hinside.handled.statusSeen.2.2.2, (usageNotes_events _).2.1]
    simp
  have hrest : received rest = [] := by
    rcases hinside.rest_cases with ⟨-, -, hanswer⟩ | ⟨-, rfl⟩
    · exact (answer_events hanswer).2.2
    · rfl
  have houter : received fs = received front := by
    rw [hinside.logged, received_append, received_mapSent, received_append, hrest]
    simp [received]
  have hbytes : bodyBytes es = bodyBytes (delivered settings 0 front) := by
    rw [bodyBytes, hinner]
    rfl
  have hsame : bodyBytes fs = bodyBytes front := by
    rw [bodyBytes, houter]
    rfl
  obtain ⟨hle, hfirst⟩ := delivered_bound (Nat.zero_le settings.maxRequestBodyBytes) front
  refine ⟨es, r₁, happ, ?_⟩
  rw [hbytes, hsame, hinner, houter]
  exact ⟨by omega, hfirst, fun h => delivered_all (by omega)⟩

theorem body_bounded_sample : ∃ es r₁, Runs sampleApp {} es sampleRun.2.1 r₁ ∧
    (bodyBytes es).length ≤ 2 ∧ bodyBytes es <+: bodyBytes sampleRun.1 ∧
      ((bodyBytes sampleRun.1).length ≤ 2 → received es = received sampleRun.1) :=
  body_bounded (admitted_sampleScope 2) (runs_play ..)

end GeoPlatform.Api
