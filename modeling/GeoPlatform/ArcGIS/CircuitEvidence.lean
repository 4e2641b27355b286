import GeoPlatform.ArcGIS.Requests
import GeoPlatform.ArcGIS.CircuitOpening

/-! What closes the circuit. The handler of `_request` is chosen by the class of the exception,
and a token provider raises the same `ArcGISAuthError` as a rejected token does, so a request
that never reached the data service may close the circuit. -/
namespace GeoPlatform.ArcGIS
open Runs
variable {α : Type}

/-- The action received an HTTP response from the data service. -/
def Action.responded : Action → Bool
  | .sent _ b => b
  | _ => false

/-- The request heard from the data service. -/
def Heard (r : List Action × Option (Finish α)) : Prop := ∃ a ∈ r.1, a.responded = true

/-- The request ends in a way that closes the circuit. -/
def Answers (r : List Action × Option (Finish α)) : Prop :=
  ∃ f, r.2 = some f ∧ f.ending.answered = true

/-- An attempt that fails before any response, and may be retried. -/
def Attempt.unheard : Attempt α → Bool
  | .connectTimeout | .transportError _ false => true
  | _ => false

/-- The token provider raises an error that is no availability failure, on the first turn or
after attempts that all failed before any response. -/
def RefusedUnheard (cfg : RequestSettings) (deadline : ℚ) : ℕ → List (Turn α) → Prop
  | attempt, .runs provider sent now jitter :: turns =>
      match requestHeaders cfg provider with
      | .error e => (Ending.raised e.kind).outage = false
      | .ok _ => sent.unheard = true ∧
          ¬ givesUp cfg deadline (attempt + 1) now (backoff cfg (attempt + 1) jitter) ∧
          RefusedUnheard cfg deadline (attempt + 1) turns
  | _, _ => False

/-- An attempt that got a response leaves it on the record, whatever follows. -/
theorem heard_of_responded {cfg : RequestSettings} {deadline : ℚ} {attempt : ℕ} {renewed : Bool}
    {provider : Except RaisedError (Option String)} {sent : Attempt α} {now jitter : ℚ}
    {turns : List (Turn α)} {h : Headers} (hh : requestHeaders cfg provider = .ok h)
    (hs : sent.responded = true) :
    Heard (requestLoop cfg deadline attempt renewed (.runs provider sent now jitter :: turns)) := by
  have hmem : .sent h true ∈ sent.actions h := by
    cases sent <;> simp_all [Attempt.responded, Attempt.actions]
  refine ⟨.sent h true, ?_, rfl⟩
  unfold requestLoop
  simp only [hh]
  cases judge cfg renewed sent with
  | finished f => exact hmem
  | renew => exact List.mem_append_left _ hmem
  | failed e retryAfter =>
    simp only
    split_ifs
    · exact hmem
    · exact List.mem_append_left _ hmem

/-- A failure before any response is judged a failure, with no `Retry-After`. -/
theorem judge_unheard (cfg : RequestSettings) (renewed : Bool) {sent : Attempt α}
    (hs : sent.unheard = true) : ∃ e, judge cfg renewed sent = .failed e none ∧
      (Ending.raised e.kind).outage = true ∧ ∀ h, sent.actions h = [.sent h false] := by
  cases sent with
  | connectTimeout => exact ⟨_, rfl, rfl, fun _ => rfl⟩
  | transportError name b =>
    cases b with
    | true => cases hs
    | false => exact ⟨_, rfl, rfl, fun _ => rfl⟩
  | _ => cases hs

/-- An attempt that fails unheard passes the turn on, or ends the request as an availability
failure. -/
theorem answers_unheard_step {cfg : RequestSettings} {deadline : ℚ} {attempt : ℕ}
    {renewed : Bool} {provider : Except RaisedError (Option String)} {sent : Attempt α}
    {now jitter : ℚ} {turns : List (Turn α)} {h : Headers}
    (hh : requestHeaders cfg provider = .ok h) (hs : sent.unheard = true) :
    let r := requestLoop cfg deadline attempt renewed (.runs provider sent now jitter :: turns)
    let rest := requestLoop cfg deadline (attempt + 1) renewed turns
    (Answers r ∧ ¬ Heard r) ↔
      ¬ givesUp cfg deadline (attempt + 1) now (backoff cfg (attempt + 1) jitter) ∧
        Answers rest ∧ ¬ Heard rest := by
  obtain ⟨e, hj, he, ha⟩ := judge_unheard cfg renewed hs
  intro r rest
  by_cases hg : givesUp cfg deadline (attempt + 1) now (backoff cfg (attempt + 1) jitter)
  · have hr : r = ([.sent h false], some (.raised e)) := by
      simp only [r, requestLoop, hh, hj, Option.getD_none, if_pos hg, ha]
    rw [hr]
    simp [hg, Answers, Finish.ending, Ending.answered, he]
  · have hr : r = (.sent h false ::
        .slept now (backoff cfg (attempt + 1) jitter) :: rest.1, rest.2) := by
      simp only [r, rest]
      rw [requestLoop]
      simp only [hh, hj, Option.getD_none, if_neg hg, ha, List.singleton_append]
    rw [hr]
    simp [hg, Answers, Heard, Action.responded]

/-- The exceptions that pass straight through the loop are no answers. -/
theorem not_answers_of_aborted {cfg : RequestSettings} {deadline : ℚ} {attempt : ℕ}
    {renewed : Bool} {provider : Except RaisedError (Option String)} {sent : Attempt α}
    {now jitter : ℚ} {turns : List (Turn α)} {h : Headers}
    (hh : requestHeaders cfg provider = .ok h) (hs : sent.unheard = false)
    (hr : sent.responded = false) : ¬ Answers (requestLoop cfg deadline attempt renewed
      (.runs provider sent now jitter :: turns)) := by
  unfold requestLoop
  simp only [hh]
  cases sent with
  | connectTimeout => cases hs
  | transportError name b =>
    cases b with
    | true => cases hr
    | false => cases hs
  | response r => cases hr
  | _ => simp [judge, Answers, Finish.ending, Ending.answered, Ending.outage, Ending.recorded]

/-- A request closes the circuit unheard exactly when its token provider refuses unheard. -/
theorem answers_unheard_iff (cfg : RequestSettings) (deadline : ℚ) (attempt : ℕ)
    (renewed : Bool) (turns : List (Turn α)) :
    (Answers (requestLoop cfg deadline attempt renewed turns) ∧
      ¬ Heard (requestLoop cfg deadline attempt renewed turns)) ↔
      RefusedUnheard cfg deadline attempt turns := by
  induction turns generalizing attempt with
  | nil => simp [requestLoop, Answers, RefusedUnheard]
  | cons turn turns ih =>
    cases turn with
    | cancelled =>
      simp [requestLoop, Answers, RefusedUnheard, Finish.ending, Ending.answered,
        Ending.recorded]
    | runs provider sent now jitter =>
      rw [RefusedUnheard]
      cases hh : requestHeaders cfg provider with
      | error e =>
        simp [requestLoop, hh, Answers, Heard, Finish.ending, Ending.answered, Ending.recorded]
      | ok h =>
        cases hs : sent.unheard with
        | false =>
          refine iff_of_false (fun hx => ?_) (by simp)
          cases hr : sent.responded with
          | true => exact hx.2 (heard_of_responded hh hr)
          | false => exact not_answers_of_aborted hh hs hr hx.1
        | true =>
          refine (answers_unheard_step hh hs).trans ?_
          rw [ih (attempt + 1)]
          simp

/-! ### The client -/

/-- `finish i` ends the `i`-th outstanding request after the given turns of its loop. -/
inductive RequestEvent (α : Type) where
  | request
  | finish (i : ℕ) (start : ℚ) (turns : List (Turn α))
  | clock (t : ℚ)

/-- A request whose loop is still running has not ended. -/
def RequestEvent.settles (cfg : RequestSettings) : RequestEvent α → Option ClientEvent
  | .request => some .request
  | .finish i start turns =>
      (requestWithRetries cfg start turns).2.map fun f => .finish i f.ending
  | .clock t => some (.clock t)

def requestStep (cfg : CircuitSettings) (rq : RequestSettings) (s : Client)
    (e : RequestEvent α) : ClientReply × Client :=
  match e.settles rq with
  | some e => clientStep cfg s e
  | none => (.done, s)

/-- The step settles a request that heard from the data service. -/
def RequestEvent.heard (rq : RequestSettings) : RequestEvent α → Prop
  | .finish _ start turns => Heard (requestWithRetries rq start turns)
  | _ => False

/-- A step that closes the circuit settles a request that heard from the data service. -/
def ClosesOnEvidence (cfg : CircuitSettings) (rq : RequestSettings) (s : Client)
    (e : RequestEvent α) : Prop :=
  s.circuit.state ≠ .closed → (next (requestStep cfg rq) s e).circuit.state = .closed →
    e.heard rq

/-- While the circuit is not closed, no request ends whose token provider refused it before any
response. -/
def NotRefusedUnlessClosed (rq : RequestSettings) (s : Client) : RequestEvent α → Prop
  | .finish i start turns => s.circuit.state ≠ .closed → i < s.outstanding.length →
      ¬ RefusedUnheard rq (start + rq.timeout * (rq.maxRetries + 1)) 0 turns
  | _ => True

theorem closes_iff (cfg : CircuitSettings) {s : Client} (hs : s.circuit.state ≠ .closed)
    (e : ClientEvent) : (next (clientStep cfg) s e).circuit.state = .closed ↔
      ∃ ending, completion s e = some ending ∧ ending.answered = true := by
  cases hc : completion s e with
  | none =>
    rw [(circuit_of_no_completion cfg hc).2.1]
    simp [hs]
  | some ending =>
    rw [(circuit_of_completion cfg hc).1]
    cases ho : ending.outage with
    | true =>
      rw [circuitSettle_outage ho]
      by_cases ht : Trips cfg s.circuit
      · simp [circuitFailed_trips ht, Ending.answered, ho]
      · simp [circuitFailed_counts ht, Ending.answered, ho, hs]
    | false =>
      rw [circuitSettle_not_outage ho]
      cases hr : ending.recorded <;> simp [Ending.answered, ho, hr, circuitSucceeded, hs]

theorem closesOnEvidence_iff (cfg : CircuitSettings) (rq : RequestSettings) (s : Client)
    (e : RequestEvent α) : ClosesOnEvidence cfg rq s e ↔ NotRefusedUnlessClosed rq s e := by
  cases e with
  | request =>
    refine iff_of_true (fun hs hc => ?_) trivial
    obtain ⟨ending, hx, -⟩ := (closes_iff cfg hs .request).mp hc
    cases hx
  | clock t => exact iff_of_true (fun hs hc => absurd hc hs) trivial
  | finish i start turns =>
    have hloop := answers_unheard_iff rq (start + rq.timeout * (rq.maxRetries + 1)) 0 false turns
    have hclose (hs : s.circuit.state ≠ .closed) :
        (next (requestStep cfg rq) s (.finish i start turns)).circuit.state = .closed ↔
          i < s.outstanding.length ∧ Answers (requestWithRetries rq start turns) := by
      cases hr : (requestWithRetries rq start turns).2 with
      | none => simp [next, requestStep, RequestEvent.settles, hr, hs, Answers]
      | some f =>
        have hstep : next (requestStep cfg rq) s (.finish i start turns) =
            next (clientStep cfg) s (.finish i f.ending) := by
          simp only [next, requestStep, RequestEvent.settles, hr, Option.map_some]
        rw [hstep, closes_iff cfg hs]
        by_cases hi : i < s.outstanding.length <;> simp [completion, hi, Answers, hr]
    simp only [ClosesOnEvidence, NotRefusedUnlessClosed, RequestEvent.heard]
    refine forall_congr' fun hs => ?_
    rw [hclose hs, ← hloop, and_imp]
    refine imp_congr_right fun _ => ?_
    rw [not_and, not_not]
    rfl

/-- In a run every transition of the circuit to closed is caused by a request that received a
response from the data service, exactly when no request whose token provider refused it before
any response ends while the circuit is open or half-open. -/
theorem circuit_closes_on_evidence_iff (cfg : CircuitSettings) (rq : RequestSettings)
    (es : List (RequestEvent α)) :
    (∀ x ∈ trace (requestStep cfg rq) {} es, ClosesOnEvidence cfg rq x.before x.event) ↔
      Guarded (requestStep cfg rq) (NotRefusedUnlessClosed rq) {} es := by
  rw [guarded_iff_trace]
  exact forall₂_congr fun x _ => closesOnEvidence_iff cfg rq x.before x.event

/-- One outage opens the circuit. The recovery probe cannot even be sent, since the token
service refuses the credentials, and the circuit closes. -/
theorem circuit_closed_by_token_refusal :
    ¬ ∀ (cfg : CircuitSettings) (rq : RequestSettings) (es : List (RequestEvent Unit)),
      ∀ x ∈ trace (requestStep cfg rq) {} es, ClosesOnEvidence cfg rq x.before x.event := by
  intro h
  have hg := (guarded_iff_trace _ _ _ _).mpr (h ⟨1, 30⟩ { hasProvider := true } [.request,
    .finish 0 0 [.runs (.ok (some "a")) (.timeout false) 0 0], .clock 30, .request,
    .finish 0 30 [.runs (.error (refused { errorCode := .int 400 })) .queueFull 30 0]])
  obtain ⟨-, -, -, -, hlast, -⟩ := hg
  obtain ⟨a, ha, -⟩ := hlast (by decide +kernel) (by decide +kernel)
  exact List.not_mem_nil ha

end GeoPlatform.ArcGIS
