import GeoPlatform.Library.Run

/-! The circuit breaker of `ArcGISFeatureServerClient`. Each of `_circuit_enter`,
`_circuit_succeeded` and `_circuit_failed` runs under a lock that is never held across an
`await`, so each is one atomic step; cancellation lands only while a request is upstream. -/
namespace GeoPlatform.ArcGIS

inductive CircuitState where
  | closed | opened | halfOpen
  deriving DecidableEq, Repr

structure CircuitSettings where
  failureThreshold : ℕ
  recoverySeconds : ℚ

structure Circuit where
  state : CircuitState := .closed
  failures : ℕ := 0
  openUntil : ℚ := 0
  probeInFlight : Bool := false
  deriving DecidableEq, Repr

/-- `ArcGISError` and its subclasses. -/
inductive ArcGISError where
  | base | notConfigured | timeout | unavailable | response | auth
  deriving DecidableEq, Repr

/-- How `_request_with_retries` ends: with a payload, with an `ArcGISError`, cancelled at an
`await` (a demo deadline, a readiness probe's `wait_for`), or with an exception of another
class (an httpx decoding error, a malformed `Content-Length`). -/
inductive Ending where
  | result
  | raised (e : ArcGISError)
  | cancelled
  | foreign
  deriving DecidableEq, Repr

/-- The second half of `_circuit_enter`: a half-open circuit admits one probe. -/
def circuitProbe (c : Circuit) : Except String Unit × Circuit :=
  if c.state = .halfOpen then
    if c.probeInFlight then (.error "The data service circuit is recovering", c)
    else (.ok (), { c with probeInFlight := true })
  else (.ok (), c)

/-- `_circuit_enter`. An assignment made before a refusal stays in force. -/
def circuitEnter (now : ℚ) (c : Circuit) : Except String Unit × Circuit :=
  if c.state = .opened then
    if now < c.openUntil then (.error "The data service circuit is open", c)
    else circuitProbe { c with state := .halfOpen }
  else circuitProbe c

def circuitSucceeded (c : Circuit) : Circuit :=
  { c with state := .closed, failures := 0, probeInFlight := false }

def circuitFailed (cfg : CircuitSettings) (now : ℚ) (c : Circuit) : Circuit :=
  if c.state = .halfOpen ∨ cfg.failureThreshold ≤ c.failures + 1 then
    { state := .opened, failures := c.failures + 1, openUntil := now + cfg.recoverySeconds
      probeInFlight := false }
  else { c with failures := c.failures + 1, probeInFlight := false }

/-- The `except` clauses of `_request`. An ending that none of them names passes through
without touching the circuit. -/
def circuitSettle (cfg : CircuitSettings) (now : ℚ) (c : Circuit) : Ending → Circuit
  | .result => circuitSucceeded c
  | .raised .unavailable | .raised .timeout => circuitFailed cfg now c
  | .raised _ => circuitSucceeded c
  | .cancelled | .foreign => c

/-- An ending that `_request` records in the circuit. -/
def Ending.recorded : Ending → Bool
  | .result | .raised _ => true
  | .cancelled | .foreign => false

/-- An admitted request that has not ended, with what the circuit was when it entered. -/
structure Admitted where
  probe : Bool
  deriving DecidableEq, Repr

structure Client where
  circuit : Circuit := {}
  outstanding : List Admitted := []
  now : ℚ := 0
  deriving DecidableEq, Repr

inductive ClientEvent where
  | request
  | finish (i : ℕ) (ending : Ending)
  | clock (t : ℚ)
  deriving DecidableEq, Repr

inductive ClientReply where
  | admitted
  | refused (message : String)
  | done
  deriving DecidableEq, Repr

def clientRequest (s : Client) : ClientReply × Client :=
  match circuitEnter s.now s.circuit with
  | (.ok (), c) =>
      (.admitted, { s with circuit := c, outstanding := ⟨c.probeInFlight⟩ :: s.outstanding })
  | (.error m, c) => (.refused m, { s with circuit := c })

/-- One atomic step of the client. `finish i` ends the `i`-th outstanding request; the
monotonic clock never goes back. -/
def clientStep (cfg : CircuitSettings) (s : Client) : ClientEvent → ClientReply × Client
  | .request => clientRequest s
  | .finish i ending =>
      if i < s.outstanding.length then
        (.done, { s with
          circuit := circuitSettle cfg s.now s.circuit ending
          outstanding := s.outstanding.eraseIdx i })
      else (.done, s)
  | .clock t => (.done, { s with now := max s.now t })

end GeoPlatform.ArcGIS
