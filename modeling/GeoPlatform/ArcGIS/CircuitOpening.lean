import GeoPlatform.ArcGIS.CircuitProbes

/-! When the circuit breaker opens. Its counter is read against the completions of the run, so
that a failure is counted once and a success-type completion forgets the failures before it. -/
namespace GeoPlatform.ArcGIS
open Runs

/-- A success-type ending: a payload, or an error that is no availability failure. -/
def Ending.answered (e : Ending) : Bool := e.recorded && !e.outage

/-- The ending of the request that a step completes. -/
def completion (s : Client) : ClientEvent → Option Ending
  | .finish i ending => if i < s.outstanding.length then some ending else none
  | _ => none

def completions (cfg : CircuitSettings) (s : Client) (es : List ClientEvent) : List Ending :=
  (trace (clientStep cfg) s es).filterMap fun x => completion x.before x.event

/-- The availability failures among the completions after the last success-type one. -/
def failuresSince (l : List Ending) : ℕ :=
  (l.reverse.takeWhile fun e => !e.answered).countP (·.outage)

@[simp] theorem failuresSince_nil : failuresSince [] = 0 := rfl

theorem failuresSince_snoc (l : List Ending) (e : Ending) :
    failuresSince (l ++ [e]) =
      if e.answered then 0 else failuresSince l + if e.outage then 1 else 0 := by
  rw [failuresSince, List.reverse_append, List.reverse_singleton, List.singleton_append,
    List.takeWhile_cons]
  cases ha : e.answered with
  | true => rfl
  | false =>
    rw [Bool.not_false, if_pos rfl, List.countP_cons]
    rfl

theorem completions_snoc (cfg : CircuitSettings) (s : Client) (es : List ClientEvent)
    (e : ClientEvent) : completions cfg s (es ++ [e]) =
      completions cfg s es ++ (completion (final (clientStep cfg) s es) e).toList := by
  rw [completions, trace_append, List.filterMap_append]
  congr 1

/-- Between completions the circuit changes only as `_circuit_enter` changes it: the failure
count stays, and it closes or opens for nobody. -/
theorem circuit_of_no_completion (cfg : CircuitSettings) {s : Client} {e : ClientEvent}
    (h : completion s e = none) :
    (next (clientStep cfg) s e).circuit.failures = s.circuit.failures ∧
      ((next (clientStep cfg) s e).circuit.state = .closed ↔ s.circuit.state = .closed) ∧
      ((next (clientStep cfg) s e).circuit.state = .opened → s.circuit.state = .opened) := by
  cases e with
  | clock t => exact ⟨rfl, Iff.rfl, id⟩
  | finish i e =>
    have hi : ¬ i < s.outstanding.length := by
      intro hi
      simp [completion, hi] at h
    have hsame : next (clientStep cfg) s (.finish i e) = s := by
      simp only [next, clientStep, if_neg hi]
    rw [hsame]
    exact ⟨rfl, Iff.rfl, id⟩
  | request =>
    simp only [next, clientStep, clientRequest]
    rcases circuitEnter_outcome s.now s.circuit with ⟨-, he⟩ | ⟨-, -, he⟩ | ⟨hs, -, -, he⟩ |
      ⟨hs, -, -, he⟩ <;> rw [he]
    · exact ⟨rfl, Iff.rfl, id⟩
    · exact ⟨rfl, Iff.rfl, id⟩
    all_goals exact ⟨rfl, iff_of_false (by simp) hs, by simp⟩

theorem circuit_of_completion (cfg : CircuitSettings) {s : Client} {e : ClientEvent}
    {ending : Ending} (h : completion s e = some ending) :
    (next (clientStep cfg) s e).circuit = circuitSettle cfg s.now s.circuit ending ∧
      (next (clientStep cfg) s e).now = s.now := by
  cases e with
  | clock t => simp [completion] at h
  | request => simp [completion] at h
  | finish i e =>
    by_cases hi : i < s.outstanding.length
    · simp only [completion, if_pos hi, Option.some.injEq] at h
      simp only [next, clientStep, if_pos hi, h, and_self]
    · simp [completion, hi] at h

/-- The counter counts the failures since the last success-type completion, and the circuit is
closed exactly while they are fewer than the threshold. -/
structure Counts (cfg : CircuitSettings) (l : List Ending) (c : Circuit) : Prop where
  failures : c.failures = failuresSince l
  closed : c.state = .closed ↔ c.failures < cfg.failureThreshold

theorem counts_settle {cfg : CircuitSettings} (hcfg : 1 ≤ cfg.failureThreshold) {now : ℚ}
    {l : List Ending} {c : Circuit} (h : Counts cfg l c) (e : Ending) :
    Counts cfg (l ++ [e]) (circuitSettle cfg now c e) := by
  have hsnoc := failuresSince_snoc l e
  cases ho : e.outage with
  | true =>
    have ha : e.answered = false := by simp [Ending.answered, ho]
    rw [circuitSettle_outage ho]
    by_cases ht : Trips cfg c
    · rw [circuitFailed_trips ht]
      refine ⟨by simp [hsnoc, ha, ho, h.failures], ?_⟩
      -- Half-open already means a full count, so either way the new count reaches the threshold.
      have hfull : cfg.failureThreshold ≤ c.failures + 1 := by
        rcases ht with hs | ht
        · have hn : ¬ c.failures < cfg.failureThreshold := by
            rw [← h.closed, hs]
            decide
          omega
        · exact ht
      simpa using hfull
    · rw [circuitFailed_counts ht]
      refine ⟨by simp [hsnoc, ha, ho, h.failures], ?_⟩
      have hlt : c.failures + 1 < cfg.failureThreshold :=
        not_le.mp fun hle => ht (Or.inr hle)
      exact iff_of_true (h.closed.mpr (by omega)) hlt
  | false =>
    rw [circuitSettle_not_outage ho]
    cases hr : e.recorded with
    | true =>
      have ha : e.answered = true := by simp [Ending.answered, ho, hr]
      refine ⟨by simp [hsnoc, ha, circuitSucceeded], ?_⟩
      exact iff_of_true rfl hcfg
    | false =>
      have ha : e.answered = false := by simp [Ending.answered, hr]
      exact ⟨by simpa [hsnoc, ha, ho] using h.failures, h.closed⟩

theorem counts_step {cfg : CircuitSettings} (hcfg : 1 ≤ cfg.failureThreshold)
    {l : List Ending} {s : Client} (h : Counts cfg l s.circuit) (e : ClientEvent) :
    Counts cfg (l ++ (completion s e).toList) (next (clientStep cfg) s e).circuit := by
  cases hc : completion s e with
  | none =>
    obtain ⟨hf, hs, -⟩ := circuit_of_no_completion cfg hc
    rw [Option.toList_none, List.append_nil]
    exact ⟨hf.trans h.failures, hs.trans (by rw [h.closed, hf])⟩
  | some ending =>
    rw [(circuit_of_completion cfg hc).1]
    exact counts_settle hcfg h ending

theorem counts_run {cfg : CircuitSettings} (hcfg : 1 ≤ cfg.failureThreshold)
    (es : List ClientEvent) :
    Counts cfg (completions cfg {} es) (final (clientStep cfg) {} es).circuit := by
  refine history_induction (clientStep cfg)
    (P := fun es s => Counts cfg (completions cfg {} es) s.circuit) ?_ (fun pre e h => ?_) es
  · exact ⟨rfl, iff_of_true rfl hcfg⟩
  · rw [completions_snoc]
    exact counts_step hcfg h e

/-- The step that opens the circuit completes a failure: in the half-open state, or the one
that brings the count to the threshold. -/
theorem opens_iff {cfg : CircuitSettings} {l : List Ending} {s : Client}
    (h : Counts cfg l s.circuit) (hs : s.circuit.state ≠ .opened) (e : ClientEvent) :
    (next (clientStep cfg) s e).circuit.state = .opened ↔
      ∃ ending, completion s e = some ending ∧ ending.outage = true ∧
        (s.circuit.state = .halfOpen ∨ failuresSince (l ++ [ending]) = cfg.failureThreshold) := by
  cases hc : completion s e with
  | none => simpa using fun ho => hs ((circuit_of_no_completion cfg hc).2.2 ho)
  | some ending =>
    rw [(circuit_of_completion cfg hc).1]
    simp only [Option.some.injEq, exists_eq_left']
    cases ho : ending.outage with
    | false =>
      rw [circuitSettle_not_outage ho]
      cases ending.recorded with
      | true => simp [circuitSucceeded]
      | false => simpa using hs
    | true =>
      have ha : ending.answered = false := by simp [Ending.answered, ho]
      have hcount : failuresSince (l ++ [ending]) = s.circuit.failures + 1 := by
        simp [failuresSince_snoc, ha, ho, h.failures]
      rw [circuitSettle_outage ho, hcount]
      by_cases ht : Trips cfg s.circuit
      · rw [circuitFailed_trips ht]
        refine iff_of_true rfl ⟨rfl, ?_⟩
        cases hst : s.circuit.state with
        | opened => exact absurd hst hs
        | halfOpen => exact Or.inl rfl
        | closed =>
          right
          have hlt := h.closed.mp hst
          rcases ht with hh | hle
          · rw [hst] at hh
            cases hh
          · omega
      · rw [circuitFailed_counts ht]
        refine iff_of_false hs fun hx => ht (hx.2.imp_right fun heq => ?_)
        omega

/-- The deadline `D` has passed, or the circuit is still open up to it. -/
def OpenUntil (cfg : CircuitSettings) (D : ℚ) (s : Client) : Prop :=
  D ≤ s.now ∨ (s.circuit.state = .opened ∧ D ≤ s.circuit.openUntil ∧
    s.circuit.openUntil ≤ s.now + cfg.recoverySeconds)

/-- An open circuit was opened in the past. -/
def OpenedBefore (cfg : CircuitSettings) (s : Client) : Prop :=
  s.circuit.state = .opened → s.circuit.openUntil ≤ s.now + cfg.recoverySeconds

theorem openedBefore_step (cfg : CircuitSettings) (s : Client) (e : ClientEvent)
    (h : OpenedBefore cfg s) : OpenedBefore cfg (next (clientStep cfg) s e) := by
  cases e with
  | clock t =>
    intro ho
    exact (h ho).trans (add_le_add_left (le_max_left _ _) _)
  | request =>
    simp only [OpenedBefore, next, clientStep, clientRequest]
    rcases circuitEnter_outcome s.now s.circuit with ⟨-, he⟩ | ⟨-, -, he⟩ | ⟨-, -, -, he⟩ |
      ⟨-, -, -, he⟩ <;> rw [he]
    · exact h
    · exact h
    all_goals
      intro ho
      cases ho
  | finish i e =>
    by_cases hi : i < s.outstanding.length
    · simp only [OpenedBefore, next, clientStep, if_pos hi]
      cases ho : e.outage with
      | true =>
        rw [circuitSettle_outage ho]
        by_cases ht : Trips cfg s.circuit
        · simp [circuitFailed_trips ht]
        · rw [circuitFailed_counts ht]
          exact h
      | false =>
        rw [circuitSettle_not_outage ho]
        split_ifs
        · intro ho
          cases ho
        · exact h
    · simpa only [next, clientStep, if_neg hi] using h

/-- A failure completed while the circuit is open can only postpone its deadline. -/
theorem openUntil_step {cfg : CircuitSettings} {D : ℚ} {s : Client} {e : ClientEvent}
    (hc : ∀ ending, completion s e = some ending → ending.answered = false)
    (h : OpenUntil cfg D s) : OpenUntil cfg D (next (clientStep cfg) s e) := by
  have hnow : s.now ≤ (next (clientStep cfg) s e).now := by
    cases e with
    | clock t => exact le_max_left _ _
    | request => simp only [next, clientStep, clientRequest]; split <;> exact le_rfl
    | finish i e => simp only [next, clientStep]; split_ifs <;> exact le_rfl
  rcases h with hd | ⟨ho, hD, hle⟩
  · exact Or.inl (hd.trans hnow)
  · cases hcomp : completion s e with
    | some ending =>
      obtain ⟨hcirc, hnow⟩ := circuit_of_completion cfg hcomp
      right
      rw [hcirc, hnow]
      cases hout : ending.outage with
      | true =>
        rw [circuitSettle_outage hout]
        by_cases ht : Trips cfg s.circuit
        · rw [circuitFailed_trips ht]
          exact ⟨rfl, hD.trans hle, le_rfl⟩
        · rw [circuitFailed_counts ht]
          exact ⟨ho, hD, hle⟩
      | false =>
        have hr : ending.recorded = false := by
          simpa [Ending.answered, hout] using hc ending hcomp
        rw [circuitSettle_not_outage hout, hr]
        exact ⟨ho, hD, hle⟩
    | none =>
      cases e with
      | clock t =>
        exact Or.inr ⟨ho, hD, hle.trans (add_le_add_left hnow _)⟩
      | finish i e =>
        have hi : ¬ i < s.outstanding.length := fun hi => by simp [completion, hi] at hcomp
        simp only [next, clientStep, if_neg hi]
        exact Or.inr ⟨ho, hD, hle⟩
      | request =>
        by_cases hn : s.now < s.circuit.openUntil
        · have he : circuitEnter s.now s.circuit =
              (.error "The data service circuit is open", s.circuit) := by
            simp [circuitEnter, ho, hn]
          simp only [next, clientStep, clientRequest, he]
          exact Or.inr ⟨ho, hD, hle⟩
        · exact Or.inl ((hD.trans (not_lt.mp hn)).trans hnow)

theorem openUntil_run {cfg : CircuitSettings} {D : ℚ} {s : Client} (h : OpenUntil cfg D s)
    {es : List ClientEvent} (hc : ∀ e ∈ completions cfg s es, e.answered = false) :
    OpenUntil cfg D (final (clientStep cfg) s es) := by
  have hg : Guarded (clientStep cfg)
      (fun s e => ∀ ending, completion s e = some ending → ending.answered = false) s es := by
    rw [guarded_iff_trace]
    intro x hx ending he
    exact hc ending (List.mem_filterMap.mpr ⟨x, hx, he⟩)
  exact hg.final_induction (clientStep cfg) h fun _ _ hc h => openUntil_step hc h

/-- In every run, while the circuit is closed fewer than `failureThreshold` availability
failures have completed since the last success-type completion. A step opens it exactly when it
completes a failure in the half-open state or the failure that fills the count. From then to
`openUntil` no request is admitted, unless a success-type completion comes first. -/
theorem circuit_opens_when_due (cfg : CircuitSettings) (hcfg : 1 ≤ cfg.failureThreshold)
    (es : List ClientEvent) :
    let s := final (clientStep cfg) {} es
    (s.circuit.state = .closed →
      failuresSince (completions cfg {} es) < cfg.failureThreshold) ∧
    (∀ e, s.circuit.state ≠ .opened →
      ((next (clientStep cfg) s e).circuit.state = .opened ↔
        ∃ ending, completion s e = some ending ∧ ending.outage = true ∧
          (s.circuit.state = .halfOpen ∨
            failuresSince (completions cfg {} es ++ [ending]) = cfg.failureThreshold))) ∧
    (∀ more, s.circuit.state = .opened →
      (∀ ending ∈ completions cfg s more, ending.answered = false) →
      (final (clientStep cfg) s more).now < s.circuit.openUntil →
      (clientStep cfg (final (clientStep cfg) s more) .request).1 =
        .refused "The data service circuit is open") := by
  have hcounts := counts_run hcfg es
  refine ⟨fun hs => ?_, fun e hs => opens_iff hcounts hs e, fun more ho hc hlt => ?_⟩
  · rw [← hcounts.failures]
    exact hcounts.closed.mp hs
  · have hbefore : OpenedBefore cfg (final (clientStep cfg) {} es) :=
      final_induction (clientStep cfg) nofun (openedBefore_step cfg) es
    rcases openUntil_run (Or.inr ⟨ho, le_rfl, hbefore ho⟩) hc with hd | ⟨hs, hD, -⟩
    · exact absurd hlt (not_lt.mpr hd)
    · have hn := hlt.trans_le hD
      simp [clientStep, clientRequest, circuitEnter, hs, hn]

/-- Two failures open a circuit of threshold two, and a request made in time is refused. -/
theorem circuit_opens_after_two :
    (clientStep ⟨2, 30⟩ (final (clientStep ⟨2, 30⟩) {} [.request, .finish 0 (.raised .timeout),
      .request, .finish 0 (.raised .unavailable), .clock 29]) .request).1 =
      .refused "The data service circuit is open" :=
  (circuit_opens_when_due ⟨2, 30⟩ (by decide) [.request, .finish 0 (.raised .timeout),
    .request, .finish 0 (.raised .unavailable)]).2.2 [.clock 29] (by decide +kernel)
    (by decide +kernel) (by decide +kernel)

end GeoPlatform.ArcGIS
