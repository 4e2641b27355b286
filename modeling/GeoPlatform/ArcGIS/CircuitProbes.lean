import GeoPlatform.ArcGIS.Circuit

/-! How many recovery probes are upstream. A probe is a request that entered while the circuit
was not closed. Requests admitted while it was closed may end later, and their endings move the
same state and flag as the probe's own. -/
namespace GeoPlatform.ArcGIS
open Runs

/-- An ending counted against the data service's availability. -/
def Ending.outage : Ending → Bool
  | .raised .unavailable | .raised .timeout => true
  | _ => false

/-- Everything one entry can do: pass through a closed circuit, bounce off an open one, or meet
a recovering one with its flag up or down. -/
theorem circuitEnter_outcome (now : ℚ) (c : Circuit) :
    (c.state = .closed ∧ circuitEnter now c = (.ok (), c)) ∨
    (c.state = .opened ∧ now < c.openUntil ∧
      circuitEnter now c = (.error "The data service circuit is open", c)) ∨
    (c.state ≠ .closed ∧ (c.state = .opened → c.openUntil ≤ now) ∧ c.probeInFlight = true ∧
      circuitEnter now c =
        (.error "The data service circuit is recovering", { c with state := .halfOpen })) ∨
    (c.state ≠ .closed ∧ (c.state = .opened → c.openUntil ≤ now) ∧ c.probeInFlight = false ∧
      circuitEnter now c = (.ok (), { c with state := .halfOpen, probeInFlight := true })) := by
  obtain ⟨state, failures, openUntil, flag⟩ := c
  cases state with
  | closed => left; simp [circuitEnter, circuitProbe]
  | opened =>
    right
    by_cases hn : now < openUntil
    · left; simp [circuitEnter, hn]
    · right
      cases flag with
      | false => right; simpa [circuitEnter, circuitProbe, hn] using not_lt.mp hn
      | true => left; simpa [circuitEnter, circuitProbe, hn] using not_lt.mp hn
  | halfOpen =>
    right; right
    cases flag with
    | false => right; simp [circuitEnter, circuitProbe]
    | true => left; simp [circuitEnter, circuitProbe]

/-- Settling an outage opens the circuit or leaves its state alone, and lowers the flag. -/
theorem circuitSettle_outage {cfg : CircuitSettings} {now : ℚ} {c : Circuit} {e : Ending}
    (h : e.outage = true) : circuitSettle cfg now c e = circuitFailed cfg now c := by
  cases e with
  | raised e => cases e <;> first | rfl | cases h
  | result => cases h
  | cancelled => cases h
  | foreign => cases h

/-- Settling anything else closes the circuit or does nothing. -/
theorem circuitSettle_not_outage {cfg : CircuitSettings} {now : ℚ} {c : Circuit} {e : Ending}
    (h : e.outage = false) :
    circuitSettle cfg now c e = if e.recorded then circuitSucceeded c else c := by
  cases e with
  | raised e => cases e <;> first | rfl | cases h
  | result => rfl
  | cancelled => rfl
  | foreign => rfl

/-- A failure now would open the circuit, or open it again. -/
def Trips (cfg : CircuitSettings) (c : Circuit) : Prop :=
  c.state = .halfOpen ∨ cfg.failureThreshold ≤ c.failures + 1

instance (cfg : CircuitSettings) (c : Circuit) : Decidable (Trips cfg c) :=
  inferInstanceAs (Decidable (_ ∨ _))

theorem circuitFailed_trips {cfg : CircuitSettings} {now : ℚ} {c : Circuit} (h : Trips cfg c) :
    circuitFailed cfg now c =
      { state := .opened, failures := c.failures + 1, openUntil := now + cfg.recoverySeconds
        probeInFlight := false } := if_pos h

theorem circuitFailed_counts {cfg : CircuitSettings} {now : ℚ} {c : Circuit}
    (h : ¬ Trips cfg c) : circuitFailed cfg now c =
      { c with failures := c.failures + 1, probeInFlight := false } := if_neg h

/-- The flag is up only in the half-open state. -/
def FlagHalfOpen (s : Client) : Prop :=
  s.circuit.probeInFlight = true → s.circuit.state = .halfOpen

theorem flagHalfOpen_step (cfg : CircuitSettings) (s : Client) (e : ClientEvent)
    (h : FlagHalfOpen s) : FlagHalfOpen (next (clientStep cfg) s e) := by
  cases e with
  | request =>
    rcases circuitEnter_outcome s.now s.circuit with ⟨-, he⟩ | ⟨-, -, he⟩ | ⟨-, -, -, he⟩ |
      ⟨-, -, -, he⟩
    · simpa only [next, clientStep, clientRequest, he, FlagHalfOpen] using h
    · simpa only [next, clientStep, clientRequest, he, FlagHalfOpen] using h
    · intro _
      simp only [next, clientStep, clientRequest, he]
    · intro _
      simp only [next, clientStep, clientRequest, he]
  | clock t => exact h
  | finish i e =>
    by_cases hi : i < s.outstanding.length
    · simp only [FlagHalfOpen, next, clientStep, if_pos hi]
      cases ho : e.outage with
      | true =>
        rw [circuitSettle_outage ho]
        by_cases ht : Trips cfg s.circuit
        · simp [circuitFailed_trips ht]
        · simp [circuitFailed_counts ht]
      | false =>
        rw [circuitSettle_not_outage ho]
        split_ifs
        · simp [circuitSucceeded]
        · exact h
    · simpa only [next, clientStep, if_neg hi] using h

/-- What an admitted request is marked with is whether it entered a circuit that was not
closed. -/
theorem probe_iff_not_closed {s : Client} (h : FlagHalfOpen s)
    (ha : (clientRequest s).1 = .admitted) :
    ∃ a, (clientRequest s).2.outstanding = a :: s.outstanding ∧
      (a.probe = true ↔ s.circuit.state ≠ .closed) := by
  rcases circuitEnter_outcome s.now s.circuit with ⟨hs, he⟩ | ⟨-, -, he⟩ | ⟨-, -, -, he⟩ |
    ⟨hs, -, -, he⟩
  · refine ⟨⟨s.circuit.probeInFlight⟩, by simp only [clientRequest, he], ?_⟩
    refine iff_of_false (fun hf => ?_) (fun hn => hn hs)
    rw [h hf] at hs
    cases hs
  · simp [clientRequest, he] at ha
  · simp [clientRequest, he] at ha
  · exact ⟨⟨true⟩, by simp only [clientRequest, he], iff_of_true rfl hs⟩

/-- At most one outstanding request is a probe. -/
def OneProbe (s : Client) : Prop := s.outstanding.countP (·.probe) ≤ 1

/-- A probe upstream is either overtaken by a recovery, or the raised flag is its own. -/
def ProbeHeld (s : Client) : Prop :=
  0 < s.outstanding.countP (·.probe) → s.circuit.state = .closed ∨
    (s.circuit.state = .halfOpen ∧ s.circuit.probeInFlight = true)

/-- A failure that opens the circuit leaves no probe behind it. -/
def FailsAlone (cfg : CircuitSettings) (s : Client) : ClientEvent → Prop
  | .finish i ending => i < s.outstanding.length → ending.outage = true → Trips cfg s.circuit →
      (s.outstanding.eraseIdx i).countP (·.probe) = 0
  | _ => True

structure ProbeSafe (s : Client) : Prop where
  one : OneProbe s
  held : ProbeHeld s
  flag : FlagHalfOpen s

theorem countP_eraseIdx_le (l : List Admitted) (i : ℕ) :
    (l.eraseIdx i).countP (·.probe) ≤ l.countP (·.probe) :=
  (List.eraseIdx_sublist l i).countP_le

theorem probeSafe_request {s : Client} (h : ProbeSafe s) : ProbeSafe (clientRequest s).2 := by
  have hflag : FlagHalfOpen (clientRequest s).2 := flagHalfOpen_step ⟨0, 0⟩ s .request h.flag
  rcases circuitEnter_outcome s.now s.circuit with ⟨hs, he⟩ | ⟨-, -, he⟩ | ⟨hs, -, hp, he⟩ |
    ⟨hs, -, hp, he⟩
  · -- A closed circuit marks nobody: its flag is down.
    have hd : s.circuit.probeInFlight = false := by
      by_contra hn
      rw [h.flag (by simpa using hn)] at hs
      cases hs
    refine ⟨?_, ?_, hflag⟩
    · simpa [OneProbe, clientRequest, he, hd] using h.one
    · intro _
      left
      simp only [clientRequest, he, hs]
  · refine ⟨?_, ?_, hflag⟩
    · simpa only [OneProbe, clientRequest, he] using h.one
    · simpa only [ProbeHeld, clientRequest, he] using h.held
  · refine ⟨?_, ?_, hflag⟩
    · simpa only [OneProbe, clientRequest, he] using h.one
    · intro _
      right
      simp only [clientRequest, he, hp, and_self]
  · -- Neither closed nor flagged: no probe is upstream yet.
    have hz : s.outstanding.countP (·.probe) = 0 := by
      by_contra hn
      rcases h.held (Nat.pos_of_ne_zero hn) with hc | ⟨-, hf⟩
      · exact hs hc
      · rw [hp] at hf
        cases hf
    refine ⟨?_, ?_, hflag⟩
    · simp [OneProbe, clientRequest, he, hz]
    · intro _
      right
      simp only [clientRequest, he, and_self]

theorem probeSafe_finish (cfg : CircuitSettings) {s : Client} (h : ProbeSafe s) (i : ℕ)
    (e : Ending) (hc : FailsAlone cfg s (.finish i e)) :
    ProbeSafe (next (clientStep cfg) s (.finish i e)) := by
  have hflag := flagHalfOpen_step cfg s (.finish i e) h.flag
  by_cases hi : i < s.outstanding.length
  · have hle := countP_eraseIdx_le s.outstanding i
    have hone : OneProbe (next (clientStep cfg) s (.finish i e)) := by
      simp only [OneProbe, next, clientStep, if_pos hi]
      exact hle.trans h.one
    refine ⟨hone, fun hpos => ?_, hflag⟩
    simp only [next, clientStep, if_pos hi] at hpos ⊢
    have hheld := h.held (lt_of_lt_of_le hpos hle)
    cases ho : e.outage with
    | true =>
      rw [circuitSettle_outage ho]
      by_cases ht : Trips cfg s.circuit
      · rw [hc hi ho ht] at hpos
        exact absurd hpos (lt_irrefl 0)
      · rw [circuitFailed_counts ht]
        rcases hheld with hs | ⟨hs, -⟩
        · exact Or.inl hs
        · exact absurd (Or.inl hs) ht
    | false =>
      rw [circuitSettle_not_outage ho]
      split_ifs
      · exact Or.inl rfl
      · exact hheld
  · have hsame : next (clientStep cfg) s (.finish i e) = s := by
      simp only [next, clientStep, if_neg hi]
    rw [hsame]
    exact h

/-- One more request, now or at any later time, still leaves one probe at most. -/
def OneProbeNext (cfg : CircuitSettings) (s : Client) : Prop :=
  OneProbe s ∧ ∀ t, OneProbe (final (clientStep cfg) s [.clock t, .request])

/-- With the flag confined to the half-open state, `ProbeHeld` is what keeps the next request
from being a second probe. -/
theorem probeSafe_iff (cfg : CircuitSettings) {s : Client} (hflag : FlagHalfOpen s) :
    ProbeSafe s ↔ OneProbeNext cfg s := by
  constructor
  · intro h
    refine ⟨h.one, fun t => ?_⟩
    have hclock : ProbeSafe { s with now := max s.now t } := ⟨h.one, h.held, h.flag⟩
    exact (probeSafe_request hclock).one
  · rintro ⟨hone, hnext⟩
    refine ⟨hone, fun hpos => ?_, hflag⟩
    -- The request made once `openUntil` has passed is what a lost flag lets in.
    have hlater := hnext s.circuit.openUntil
    simp only [final_cons, final_nil, next, clientStep, clientRequest] at hlater
    rcases circuitEnter_outcome (max s.now s.circuit.openUntil) s.circuit with ⟨hs, -⟩ |
      ⟨-, hn, -⟩ | ⟨-, -, hp, -⟩ | ⟨-, -, -, he⟩
    · exact Or.inl hs
    · exact absurd (le_max_right _ _) (not_le.mpr hn)
    · exact Or.inr ⟨hflag hp, hp⟩
    · rw [he] at hlater
      simp [OneProbe] at hlater
      have hz : s.outstanding.countP (·.probe) = 0 :=
        List.countP_eq_zero.mpr (by simpa using hlater)
      omega

/-- `FailsAlone` is exactly what one step needs. -/
theorem probeSafe_step (cfg : CircuitSettings) (s : Client) (e : ClientEvent)
    (h : ProbeSafe s) : ProbeSafe (next (clientStep cfg) s e) ↔ FailsAlone cfg s e := by
  cases e with
  | request => exact iff_of_true (probeSafe_request h) trivial
  | clock t => exact iff_of_true ⟨h.one, h.held, h.flag⟩ trivial
  | finish i e =>
    refine ⟨fun hs hi ho ht => ?_, probeSafe_finish cfg h i e⟩
    by_contra hz
    have hheld := hs.held
    simp only [ProbeHeld, next, clientStep, if_pos hi, circuitSettle_outage ho,
      circuitFailed_trips ht] at hheld
    simpa using hheld (Nat.pos_of_ne_zero hz)

/-- A run never lets in a second probe, whenever the next request comes, exactly when every
availability failure that opens or reopens the circuit completes with no probe but itself
outstanding. -/
theorem one_probe_iff (cfg : CircuitSettings) (es : List ClientEvent) :
    (∀ pre, pre <+: es → OneProbeNext cfg (final (clientStep cfg) {} pre)) ↔
      Guarded (clientStep cfg) (FailsAlone cfg) {} es := by
  have hzero : ProbeSafe {} := ⟨Nat.zero_le _, fun hp => absurd hp (lt_irrefl 0), nofun⟩
  have hflag (pre : List ClientEvent) : FlagHalfOpen (final (clientStep cfg) {} pre) :=
    final_induction (clientStep cfg) hzero.flag (flagHalfOpen_step cfg) pre
  rw [← forall_prefix_iff_guarded (clientStep cfg) (probeSafe_step cfg) hzero es]
  exact forall_congr' fun pre => imp_congr_right fun _ => (probeSafe_iff cfg (hflag pre)).symm

/-- Two requests enter the closed circuit, one failure opens it, a probe enters after the
recovery time, the second old request fails late and lowers the probe's flag, and a second
probe enters while the first is still upstream. -/
theorem two_probes_after_late_failure :
    ¬ ∀ (cfg : CircuitSettings) (es : List ClientEvent),
      OneProbe (final (clientStep cfg) {} es) := by
  intro h
  have h1 := h ⟨1, 30⟩ [.request, .request, .finish 0 (.raised .unavailable), .clock 30,
    .request, .finish 1 (.raised .unavailable), .clock 60, .request]
  exact absurd h1 (by unfold OneProbe; decide +kernel)

end GeoPlatform.ArcGIS
