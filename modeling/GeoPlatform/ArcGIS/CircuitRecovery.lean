import GeoPlatform.ArcGIS.Circuit

/-! When the circuit breaker recovers. The probe flag is raised by the request it admits and
lowered only when some request records an outcome, so a probe that ends without one leaves
the flag up, and a raised flag with nothing upstream is permanent. -/
namespace GeoPlatform.ArcGIS
open Runs

/-- With nothing upstream the flag is down, and the next request after `openUntil` enters. -/
def NotLocked (s : Client) : Prop :=
  s.outstanding = [] → s.circuit.probeInFlight = false ∧
    (s.circuit.openUntil ≤ s.now → (clientRequest s).1 = .admitted)

/-- A raised flag has a request upstream that may still lower it. -/
def FlagOwned (s : Client) : Prop := s.circuit.probeInFlight = true → s.outstanding ≠ []

/-- A request that records no outcome ends while the flag is down, or while another request
is upstream. -/
def EndsOwned (s : Client) : ClientEvent → Prop
  | .finish i ending => i < s.outstanding.length → ending.recorded = false →
      s.circuit.probeInFlight = false ∨ 2 ≤ s.outstanding.length
  | _ => True

/-- Entering either admits the request, or leaves the flag as it was. -/
theorem circuitProbe_cases (c : Circuit) :
    (∃ c', circuitProbe c = (.ok (), c')) ∨
      ∃ m c', circuitProbe c = (.error m, c') ∧ c'.probeInFlight = c.probeInFlight := by
  unfold circuitProbe
  split_ifs
  · exact Or.inr ⟨_, _, rfl, rfl⟩
  · exact Or.inl ⟨_, rfl⟩
  · exact Or.inl ⟨_, rfl⟩

theorem circuitEnter_cases (now : ℚ) (c : Circuit) :
    (∃ c', circuitEnter now c = (.ok (), c')) ∨
      ∃ m c', circuitEnter now c = (.error m, c') ∧ c'.probeInFlight = c.probeInFlight := by
  unfold circuitEnter
  split_ifs
  · exact Or.inr ⟨_, _, rfl, rfl⟩
  · exact circuitProbe_cases { c with state := .halfOpen }
  · exact circuitProbe_cases c

theorem circuitProbe_admits {c : Circuit} (hp : c.probeInFlight = false) :
    ∃ c', circuitProbe c = (.ok (), c') := by
  unfold circuitProbe
  split_ifs with _ h
  · rw [hp] at h
    cases h
  · exact ⟨_, rfl⟩
  · exact ⟨_, rfl⟩

/-- With the flag down and `openUntil` passed, entering never refuses. -/
theorem circuitEnter_admits {now : ℚ} {c : Circuit} (hp : c.probeInFlight = false)
    (ht : c.openUntil ≤ now) : ∃ c', circuitEnter now c = (.ok (), c') := by
  unfold circuitEnter
  split_ifs with _ hn
  · exact absurd ht (not_le.mpr hn)
  · exact circuitProbe_admits hp
  · exact circuitProbe_admits hp

theorem clientRequest_flagOwned {s : Client} (h : FlagOwned s) :
    FlagOwned (clientRequest s).2 := by
  rcases circuitEnter_cases s.now s.circuit with ⟨c, hc⟩ | ⟨m, c, hc, hp⟩
  · intro _
    simp [clientRequest, hc]
  · intro hf
    simp only [clientRequest, hc, hp] at hf ⊢
    exact h hf

theorem notLocked_iff (s : Client) : NotLocked s ↔ FlagOwned s := by
  constructor
  · intro h hf he
    rw [(h he).1] at hf
    cases hf
  · intro h he
    have hp : s.circuit.probeInFlight = false := by
      by_contra hn
      exact h (by simpa using hn) he
    refine ⟨hp, fun ht => ?_⟩
    obtain ⟨c, hc⟩ := circuitEnter_admits hp ht
    simp [clientRequest, hc]

theorem circuitSettle_recorded {cfg : CircuitSettings} {now : ℚ} {c : Circuit} {e : Ending}
    (h : e.recorded = true) : (circuitSettle cfg now c e).probeInFlight = false := by
  have hfail : (circuitFailed cfg now c).probeInFlight = false := by
    unfold circuitFailed
    split_ifs <;> rfl
  cases e with
  | result => rfl
  | raised e => cases e <;> first | rfl | exact hfail
  | cancelled => cases h
  | foreign => cases h

theorem circuitSettle_unrecorded {cfg : CircuitSettings} {now : ℚ} {c : Circuit} {e : Ending}
    (h : e.recorded = false) : circuitSettle cfg now c e = c := by
  cases e <;> first | rfl | cases h

/-- `EndsOwned` is exactly what one step needs. -/
theorem flagOwned_step (cfg : CircuitSettings) (s : Client) (e : ClientEvent)
    (h : FlagOwned s) : FlagOwned (next (clientStep cfg) s e) ↔ EndsOwned s e := by
  cases e with
  | request => exact iff_of_true (clientRequest_flagOwned h) trivial
  | clock t => exact iff_of_true h trivial
  | finish i e =>
    by_cases hi : i < s.outstanding.length
    · cases hr : e.recorded with
      | true =>
        refine iff_of_true (fun hf => ?_) (fun _ hn => by rw [hr] at hn; cases hn)
        simp only [next, clientStep, if_pos hi, circuitSettle_recorded hr] at hf
        cases hf
      | false =>
        have hlen := List.length_eraseIdx_of_lt hi
        have hnil : s.outstanding.eraseIdx i ≠ [] ↔ 2 ≤ s.outstanding.length := by
          rw [← List.length_pos_iff, hlen]
          omega
        simp only [next, clientStep, if_pos hi, circuitSettle_unrecorded hr, FlagOwned]
        constructor
        · intro hf _ _
          cases hp : s.circuit.probeInFlight with
          | false => exact Or.inl rfl
          | true => exact Or.inr (hnil.mp (hf hp))
        · intro hc hf
          rcases hc hi hr with hp | hl
          · rw [hp] at hf
            cases hf
          · exact hnil.mpr hl
    · refine iff_of_true ?_ (fun h' => absurd h' hi)
      simpa only [next, clientStep, if_neg hi] using h

/-- A run never locks the circuit shut exactly when every request that ends by cancellation
or by an exception that is not an `ArcGISError` ends while the flag is down or while another
admitted request is outstanding. -/
theorem circuit_not_locked_iff (cfg : CircuitSettings) (es : List ClientEvent) :
    (∀ pre, pre <+: es → NotLocked (final (clientStep cfg) {} pre)) ↔
      Guarded (clientStep cfg) EndsOwned {} es := by
  simp only [notLocked_iff]
  exact forall_prefix_iff_guarded (clientStep cfg) (flagOwned_step cfg)
    (fun h => by cases h) es

/-- One failure opens the circuit; the recovery probe is cancelled; nothing is upstream and
every later request is refused. -/
theorem circuit_locked_by_cancelled_probe :
    ¬ ∀ (cfg : CircuitSettings) (es : List ClientEvent),
      NotLocked (final (clientStep cfg) {} es) := by
  intro h
  have h1 := h ⟨1, 30⟩ [.request, .finish 0 (.raised .unavailable), .clock 31, .request,
    .finish 0 .cancelled]
  exact absurd (h1 (by decide +kernel)).1 (by decide +kernel)

/-- A request admitted while the circuit is not closed ends with a recorded outcome. -/
def ProbeRecorded (s : Client) : ClientEvent → Prop
  | .finish i ending => ending.recorded = false → ∀ a, s.outstanding[i]? = some a → a.probe = false
  | _ => True

/-- The raised flag belongs to a probe that is still upstream. -/
def ProbeUpstream (s : Client) : Prop :=
  s.circuit.probeInFlight = true → ∃ a ∈ s.outstanding, a.probe = true

theorem probeUpstream_step (cfg : CircuitSettings) (s : Client) (e : ClientEvent)
    (hc : ProbeRecorded s e) (h : ProbeUpstream s) :
    ProbeUpstream (next (clientStep cfg) s e) := by
  cases e with
  | request =>
    intro hf
    rcases circuitEnter_cases s.now s.circuit with ⟨c, he⟩ | ⟨m, c, he, hp⟩
    · simp only [next, clientStep, clientRequest, he] at hf ⊢
      exact ⟨⟨c.probeInFlight⟩, by simp, hf⟩
    · simp only [next, clientStep, clientRequest, he, hp] at hf ⊢
      exact h hf
  | clock t => exact h
  | finish i e =>
    by_cases hi : i < s.outstanding.length
    · intro hf
      cases hr : e.recorded with
      | true =>
        simp only [next, clientStep, if_pos hi, circuitSettle_recorded hr] at hf
        cases hf
      | false =>
        simp only [next, clientStep, if_pos hi, circuitSettle_unrecorded hr] at hf ⊢
        obtain ⟨a, ha, hp⟩ := h hf
        obtain ⟨j, hj, rfl⟩ := List.mem_iff_getElem.mp ha
        have hji : j ≠ i := by
          rintro rfl
          have hh := hc hr _ (List.getElem?_eq_getElem hj)
          rw [hh] at hp
          cases hp
        exact ⟨_, List.mem_eraseIdx_iff_getElem.mpr ⟨j, hj, hji, rfl⟩, hp⟩
    · simpa only [next, clientStep, if_neg hi] using h

/-- It is enough that no recovery probe ends without a recorded outcome. -/
theorem circuit_not_locked_of_probes_recorded (cfg : CircuitSettings) {es : List ClientEvent}
    (h : Guarded (clientStep cfg) ProbeRecorded {} es) :
    NotLocked (final (clientStep cfg) {} es) := by
  have hp : ProbeUpstream (final (clientStep cfg) {} es) :=
    h.final_induction (clientStep cfg) (fun hf => by cases hf) (probeUpstream_step cfg)
  refine (notLocked_iff _).mpr fun hf he => ?_
  obtain ⟨a, ha, -⟩ := hp hf
  rw [he] at ha
  cases ha

/-- A flag left up by a probe that is gone. -/
def Leaked (s : Client) : Prop :=
  s.outstanding = [] ∧ s.circuit.state = .halfOpen ∧ s.circuit.probeInFlight = true

theorem leaked_step (cfg : CircuitSettings) {s : Client} (h : Leaked s) (e : ClientEvent) :
    Leaked (next (clientStep cfg) s e) ∧ (clientStep cfg s e).1 ≠ .admitted := by
  obtain ⟨ho, hs, hp⟩ := h
  have henter : circuitEnter s.now s.circuit =
      (.error "The data service circuit is recovering", s.circuit) := by
    simp [circuitEnter, circuitProbe, hs, hp]
  cases e with
  | request => simp [next, clientStep, clientRequest, henter, Leaked, ho, hs, hp]
  | finish i e => simp [next, clientStep, Leaked, ho, hs, hp]
  | clock t => simp [next, clientStep, Leaked, ho, hs, hp]

/-- A leaked probe flag shuts the client for good: no run from there admits a request. -/
theorem leaked_probe_is_permanent (cfg : CircuitSettings) {s : Client} (h : Leaked s)
    (es : List ClientEvent) : ∀ x ∈ trace (clientStep cfg) s es, x.reply ≠ .admitted := by
  intro x hx
  have hb : Leaked x.before :=
    trace_induction (clientStep cfg) h (fun s e hs => (leaked_step cfg hs e).1) hx
  obtain ⟨_, _, _, _, hr⟩ := mem_trace (clientStep cfg) hx
  exact hr ▸ (leaked_step cfg hb x.event).2

end GeoPlatform.ArcGIS
