import GeoPlatform.Api.MiddlewareRecords

/-! The headers of the responses that leave the middleware, and the ids in its error envelopes. -/
namespace GeoPlatform.Api
open GeoPlatform.ArcGIS Interaction

variable {H : Type} {M : MutableHeaders H} {P : PyText} {unquote : List Char → List Char}
variable {settings : MiddlewareSettings} {readings : Readings} {scope : Scope}
variable {contextId : Option String} {app : App H Empty} {s s' t : RequestState}
variable {r r₁ r₂ : Except Failure Unit} {es : List (AppEvent H Empty)}
variable {fs front more rest : List (AppEvent H Note)}

/-! ### Request ids -/

theorem requestId_valid (readings : Readings) (scope : Scope) :
    requestIdPattern (requestId readings scope).toList = true := by
  rw [requestId, String.toList_ofList]
  split_ifs with hincoming
  · exact hincoming
  · exact readings.uuid_valid

theorem requestId_ne : requestId readings scope ≠ "" := by
  intro hempty
  have hvalid := requestId_valid readings scope
  rw [hempty] at hvalid
  exact absurd hvalid (by decide)

/-! ### Defaults -/

/-- A default counts where the name has no value yet. -/
theorem getlist_defaults (h : H) (defaults : List (HeaderName × String)) (n : HeaderName) :
    M.getlist (defaults.foldl (fun h e => M.setdefault h e.1 e.2) h) n =
      if M.getlist h n = [] then (OrderedMap.get? defaults n).toList else M.getlist h n := by
  unfold OrderedMap.get?
  induction defaults generalizing h with
  | nil =>
    split_ifs with hempty
    · exact hempty
    · rfl
  | cons e defaults ih =>
    rw [List.foldl_cons, ih, M.getlist_setdefault]
    by_cases hname : e.1 = n
    · subst hname
      by_cases hempty : M.getlist h e.1 = [] <;> simp [hempty]
    · simp [hname, Ne.symm hname]

theorem securityDefaults_names (settings : MiddlewareSettings) (scope : Scope) :
    ((securityDefaults settings scope).map Prod.fst).Nodup ∧
      ∀ e ∈ securityDefaults settings scope, e.1 ≠ .requestId ∧ e.1 ≠ .rateLimitLimit ∧
        e.1 ≠ .rateLimitRemaining ∧ e.1 ≠ .rateLimitReset := by
  unfold securityDefaults
  split_ifs <;> decide

/-! ### Rate limits -/

theorem getlist_rateLimit (h : H) (limit : RateLimitState) :
    (∀ e ∈ limit.headers,
      M.getlist (limit.headers.foldl (fun h e => M.setitem h e.1 e.2) h) e.1 = [e.2]) ∧
    ∀ n, n ≠ .rateLimitLimit → n ≠ .rateLimitRemaining → n ≠ .rateLimitReset →
      M.getlist (limit.headers.foldl (fun h e => M.setitem h e.1 e.2) h) n = M.getlist h n := by
  simp only [RateLimitState.headers, List.foldl_cons, List.foldl_nil, M.getlist_setitem]
  refine ⟨?_, fun n hlimit hremaining hreset => by simp [hlimit, hremaining, hreset]⟩
  simp

/-- The headers of a start as the endpoints or a layer made them, once they have been metered. -/
theorem meterAt_start (M : MutableHeaders H) (scope : Scope) (t : RequestState) (status : ℕ)
    (h : H) :
    ∃ h', meterAt M scope t (.start status h) = .start status h' ∧
      (∀ n, n ≠ .rateLimitLimit → n ≠ .rateLimitRemaining → n ≠ .rateLimitReset →
        M.getlist h' n = M.getlist h n) ∧
      (scope.isMetered = true → ∀ limit, t.rateLimit = some limit →
        ∀ e ∈ limit.headers, M.getlist h' e.1 = [e.2]) := by
  unfold meterAt
  split_ifs with hmetered
  · cases hlimit : t.rateLimit with
    | none => exact ⟨h, by simp [meter, hlimit], fun _ _ _ _ => rfl, fun _ _ h => nomatch h⟩
    | some limit =>
      refine ⟨_, by simp only [meter, hlimit], (getlist_rateLimit h limit).2, fun _ l hl => ?_⟩
      rw [← Option.some.inj hl]
      exact (getlist_rateLimit h limit).1
  · exact ⟨h, rfl, fun _ _ _ _ => rfl, fun hyes => absurd hyes hmetered⟩

/-! ### What leaves -/

/-- Where a response start or an error envelope at the border comes from. -/
theorem Inside.sent_cases (h : Inside M P settings readings scope es r₁ more front r₂ rest fs s' r)
    {m : Message H} {a : Except Failure Unit} (hsent : .sent t m a ∈ fs) :
    (∃ m₀, m = stamp M (requestId readings scope) (secure M settings scope (meterAt M scope t m₀)) ∧
      (.sent t m₀ a ∈ es ∨ (∃ e, r₁ = .error (.exception e)) ∧
        let b := errorBody (some (requestId readings scope)) .INTERNAL_ERROR
          "Internal server error." []
        (m₀ = .start 500 (M.json b) ∨ m₀ = .body (.error b) false))) ∨
    r₁ = .error .bodyTooLarge ∧
      ∃ m₀, m = stamp M (requestId readings scope) (secure M settings scope m₀) ∧
        let b := errorBody (some (requestId readings scope)) .INVALID_REQUEST
          "The request body is too large." []
        (m₀ = .start 413 (M.json b) ∨ m₀ = .body (.error b) false) := by
  rw [h.logged, List.mem_append, mem_mapSent] at hsent
  obtain ⟨m₁, hm₁, rfl⟩ := hsent.resolve_right fun hnote =>
    nomatch List.mem_singleton.mp hnote
  rcases List.mem_append.mp hm₁ with hfront | hrest
  · left
    have hdelivered : .sent t m₁ a ∈ delivered settings 0 front := mem_delivered.mpr hfront
    rw [h.metered, List.mem_append, mem_mapSent] at hdelivered
    obtain ⟨m₀, hm₀, rfl⟩ := hdelivered.resolve_right fun hnote => by
      obtain ⟨u, -, hu⟩ := List.mem_map.mp hnote
      exact nomatch hu
    refine ⟨m₀, rfl, ?_⟩
    rcases List.mem_append.mp hm₀ with happ | hmore
    · exact .inl (mem_quiet.mp happ)
    · right
      have hhandled := h.handled
      rcases r₁ with (_ | e | e) | u
      · rw [hhandled.1] at hmore
        exact absurd hmore List.not_mem_nil
      · obtain ⟨answer, rfl, hanswer⟩ := hhandled
        refine ⟨⟨e, rfl⟩, ?_⟩
        have hin := (List.mem_cons.mp hmore).resolve_left nofun
        split_ifs at hanswer
        · rw [hanswer.1] at hin
          exact absurd hin List.not_mem_nil
        · obtain ⟨-, ⟨e', rfl, -⟩ | rfl⟩ := runs_errorResponse.mp hanswer
          · simp only [List.mem_singleton, Event.sent.injEq] at hin
            exact .inl hin.2.1
          · simp only [List.mem_cons, Event.sent.injEq, List.not_mem_nil, or_false] at hin
            rcases hin with ⟨-, hm, -⟩ | ⟨-, hm, -⟩
            · exact .inl hm
            · exact .inr hm
      · rw [hhandled.1] at hmore
        exact absurd hmore List.not_mem_nil
      · rw [hhandled.1] at hmore
        exact absurd hmore List.not_mem_nil
  · right
    rcases h.rest_cases with ⟨hlarge, -, hanswer⟩ | ⟨-, rfl⟩
    · refine ⟨hlarge, m₁, rfl, ?_⟩
      obtain ⟨-, ⟨e', rfl, -⟩ | rfl⟩ := runs_errorResponse.mp hanswer
      · simp only [List.mem_singleton, Event.sent.injEq] at hrest
        exact .inl hrest.2.1
      · simp only [List.mem_cons, Event.sent.injEq, List.not_mem_nil, or_false] at hrest
        rcases hrest with ⟨-, hm, -⟩ | ⟨-, hm, -⟩
        · exact .inl hm
        · exact .inr hm
    · exact absurd hrest List.not_mem_nil

theorem stamp_eq_start {id : String} {m : Message H} {status : ℕ} {h : H}
    (heq : .start status h = stamp M id (secure M settings scope m)) :
    ∃ h', m = .start status h' ∧ h = M.append
      ((securityDefaults settings scope).foldl (fun h e => M.setdefault h e.1 e.2) h')
      .requestId id := by
  cases m with
  | start status' h' =>
    obtain ⟨rfl, rfl⟩ := Message.start.inj heq
    exact ⟨h', rfl, rfl⟩
  | body content more => exact nomatch heq
  | other => exact nomatch heq

theorem stamp_eq_body {id : String} {m : Message H} {content : Content} {last : Bool}
    (heq : .body content last = stamp M id (secure M settings scope m)) :
    m = .body content last := by
  cases m with
  | start status h => exact nomatch heq
  | body content' last' =>
    obtain ⟨rfl, rfl⟩ := Message.body.inj heq
    rfl
  | other => exact nomatch heq

theorem meterAt_eq_start {m : Message H} {status : ℕ} {h : H}
    (heq : meterAt M scope t m = .start status h) : ∃ h', m = .start status h' := by
  unfold meterAt at heq
  cases m with
  | start status' h' =>
    split_ifs at heq
    · exact ⟨h', by rw [(Message.start.inj heq).1]⟩
    · exact ⟨h, heq⟩
  | body content more =>
    split_ifs at heq
    exact nomatch heq
  | other =>
    split_ifs at heq
    exact nomatch heq

theorem meterAt_eq_body {m : Message H} {content : Content} {last : Bool}
    (heq : meterAt M scope t m = .body content last) : m = .body content last := by
  unfold meterAt at heq
  cases m with
  | start status h =>
    split_ifs at heq
    exact nomatch heq
  | body content' last' => split_ifs at heq <;> exact heq
  | other =>
    split_ifs at heq
    exact nomatch heq

/-- The values of a header that the endpoints or a layer gave the values of `h'`. -/
theorem getlist_stamped (M : MutableHeaders H) (settings : MiddlewareSettings) (scope : Scope)
    (h' : H) (id : String) :
    let h := M.append ((securityDefaults settings scope).foldl
      (fun h e => M.setdefault h e.1 e.2) h') .requestId id
    M.getlist h .requestId = M.getlist h' .requestId ++ [id] ∧
      (∀ e ∈ securityDefaults settings scope, M.getlist h e.1 =
        if M.getlist h' e.1 = [] then [e.2] else M.getlist h' e.1) ∧
      ∀ n ∈ [HeaderName.rateLimitLimit, .rateLimitRemaining, .rateLimitReset],
        M.getlist h n = M.getlist h' n := by
  have hnames := securityDefaults_names settings scope
  have hnone : ∀ n : HeaderName, (∀ e ∈ securityDefaults settings scope, e.1 ≠ n) →
      M.getlist ((securityDefaults settings scope).foldl
        (fun h e => M.setdefault h e.1 e.2) h') n = M.getlist h' n := by
    intro n hn
    rw [getlist_defaults, OrderedMap.get?_eq_none hn]
    split_ifs with hempty
    · rw [hempty]
      rfl
    · rfl
  refine ⟨?_, fun e he => ?_, fun n hn => ?_⟩
  · rw [M.getlist_append, if_pos rfl, hnone _ fun e he => (hnames.2 e he).1]
  · rw [M.getlist_append, if_neg (hnames.2 e he).1, getlist_defaults,
      OrderedMap.get?_of_mem hnames.1 he]
    rfl
  · rw [M.getlist_append, if_neg (by rintro rfl; simp at hn)]
    refine hnone n fun e he => ?_
    obtain ⟨-, hlimit, hremaining, hreset⟩ := hnames.2 e he
    simp only [List.mem_cons, List.not_mem_nil, or_false] at hn
    rcases hn with rfl | rfl | rfl
    · exact hlimit
    · exact hremaining
    · exact hreset

/-- Every response that leaves for a request with access to the endpoints carries the request id
after all ids of its own, the security headers unless the endpoints set them otherwise, and the
state of the rate limit that was known when it was started; only the refusal of a large body lacks
the last. The error envelopes of the layers themselves name the same id. -/
theorem response_headers (hadm : Admitted unquote settings scope)
    (hrun : Runs (stack M P unquote settings readings scope app) s fs s' r) :
    ∃ es r₁, Runs app s es s' r₁ ∧
      (∀ t status h a, .sent t (.start status h) a ∈ fs → ∃ h₀,
        (.sent t (.start status h₀) a ∈ es ∨ ∃ b, h₀ = M.json b) ∧
        M.getlist h .requestId = M.getlist h₀ .requestId ++ [requestId readings scope] ∧
        (∀ e ∈ securityDefaults settings scope, M.getlist h e.1 =
          if M.getlist h₀ e.1 = [] then [e.2] else M.getlist h₀ e.1) ∧
        (scope.isMetered = true → ∀ limit, t.rateLimit = some limit →
          (∀ e ∈ limit.headers, M.getlist h e.1 = [e.2]) ∨
            status = 413 ∧ r₁ = .error .bodyTooLarge)) ∧
      ∀ t b last a, .sent t (.body (.error b) last) a ∈ fs →
        .sent t (.body (.error b) last) a ∈ es ∨ b.requestId = some (requestId readings scope) := by
  obtain ⟨es, r₁, more, front, r₂, rest, happ, hinside⟩ := hadm.inside hrun
  have hid : (some (requestId readings scope)).filter (· ≠ "") =
      some (requestId readings scope) := by
    simp [Option.filter, requestId_ne]
  refine ⟨es, r₁, happ, fun t status h a hsent => ?_, fun t b last a hsent => ?_⟩
  · rcases hinside.sent_cases hsent with ⟨m₀, hm, horigin⟩ | ⟨hlarge, m₀, hm, horigin⟩
    · obtain ⟨h₂, hm₂, rfl⟩ := stamp_eq_start hm
      obtain ⟨h₀, rfl⟩ := meterAt_eq_start hm₂
      obtain ⟨h₁, hmeter, hother, hlimits⟩ := meterAt_start M scope t status h₀
      obtain rfl : h₁ = h₂ := (Message.start.inj (hmeter.symm.trans hm₂)).2
      obtain ⟨hrequest, hsecurity, hrate⟩ :=
        getlist_stamped M settings scope h₁ (requestId readings scope)
      refine ⟨h₀, ?_, ?_, fun e he => ?_, fun hmetered limit hlimit => .inl fun e he => ?_⟩
      · rcases horigin with happ | ⟨-, hjson | hbody⟩
        · exact .inl happ
        · exact .inr ⟨_, (Message.start.inj hjson).2⟩
        · exact nomatch hbody
      · rw [hrequest, hother .requestId (by decide) (by decide) (by decide)]
      · obtain ⟨-, hl, hr, hs⟩ := (securityDefaults_names settings scope).2 e he
        rw [hsecurity e he, hother e.1 hl hr hs]
      · rw [hrate e.1 (List.mem_map_of_mem he)]
        exact hlimits hmetered limit hlimit e he
    · obtain ⟨h₀, rfl, rfl⟩ := stamp_eq_start hm
      obtain ⟨hrequest, hsecurity, -⟩ :=
        getlist_stamped M settings scope h₀ (requestId readings scope)
      have hjson := horigin.resolve_right nofun
      obtain ⟨rfl, rfl⟩ := Message.start.inj hjson
      exact ⟨_, .inr ⟨_, rfl⟩, hrequest, hsecurity, fun _ _ _ => .inr ⟨rfl, hlarge⟩⟩
  · rcases hinside.sent_cases hsent with ⟨m₀, hm, horigin⟩ | ⟨hlarge, m₀, hm, horigin⟩
    · obtain rfl := meterAt_eq_body (stamp_eq_body hm)
      rcases horigin with happ | ⟨-, hjson | hbody⟩
      · exact .inl happ
      · exact nomatch hjson
      · right
        obtain ⟨hb, -⟩ := Message.body.inj hbody
        rw [Content.error.inj hb]
        exact hid
    · obtain rfl := stamp_eq_body hm
      rcases horigin with hjson | hbody
      · exact nomatch hjson
      · right
        obtain ⟨hb, -⟩ := Message.body.inj hbody
        rw [Content.error.inj hb]
        exact hid

theorem response_headers_sample : ∃ es r₁, Runs sampleApp {} es sampleRun.2.1 r₁ ∧
    (∀ t status h a, .sent t (.start status h) a ∈ sampleRun.1 → ∃ h₀,
      (.sent t (.start status h₀) a ∈ es ∨ ∃ b, h₀ = headerPairs.json b) ∧
      headerPairs.getlist h .requestId =
        headerPairs.getlist h₀ .requestId ++ [requestId sampleReadings sampleScope] ∧
      (∀ e ∈ securityDefaults { maxRequestBodyBytes := 2 } sampleScope,
        headerPairs.getlist h e.1 =
          if headerPairs.getlist h₀ e.1 = [] then [e.2] else headerPairs.getlist h₀ e.1) ∧
      (sampleScope.isMetered = true → ∀ limit, t.rateLimit = some limit →
        (∀ e ∈ limit.headers, headerPairs.getlist h e.1 = [e.2]) ∨
          status = 413 ∧ r₁ = .error .bodyTooLarge)) ∧
    ∀ t b last a, .sent t (.body (.error b) last) a ∈ sampleRun.1 →
      .sent t (.body (.error b) last) a ∈ es ∨
        b.requestId = some (requestId sampleReadings sampleScope) :=
  response_headers (admitted_sampleScope 2) (runs_play ..)

/-- The remaining requests that the starts of a run show. -/
def remainingShown (es : List (AppEvent (List (HeaderName × String)) Note)) : List (List String) :=
  es.filterMap fun
    | .sent _ (.start _ h) _ => some (headerPairs.getlist h .rateLimitRemaining)
    | _ => none

/-- The refusal of the body shows no limit; with room for the body it is shown. -/
example : remainingShown sampleRun.1 = [[]] ∧
    remainingShown ((stack headerPairs asciiTables id { maxRequestBodyBytes := 3 } sampleReadings
      sampleScope sampleApp).play (.exception "disconnected") [.request [1, 2, 3] false] {}).1 =
        [["99"]] := by decide +kernel

end GeoPlatform.Api
