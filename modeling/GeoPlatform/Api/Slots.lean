import GeoPlatform.ArcGIS.Requests
import GeoPlatform.Api.Access
import GeoPlatform.Library.RunImage
import GeoPlatform.Library.Semaphore

/-! The two places where a request waits for a slot: `demo_concurrency` (`api/deps.py`) before the
endpoints of the demo, and `_slot` of the ArcGIS client (`services/arcgis/client.py`) around each
attempt. -/
namespace GeoPlatform.Api
open GeoPlatform.ArcGIS

structure SlotSettings where
  demoMaxConcurrency : ℕ := 4
  arcgisMaxConcurrency : ℕ := 16
  demo_valid : 1 ≤ demoMaxConcurrency ∧ demoMaxConcurrency ≤ 64 := by decide
  arcgis_valid : 1 ≤ arcgisMaxConcurrency ∧ arcgisMaxConcurrency ≤ 256 := by decide

/-- How a request fares with its slot. -/
inductive SlotReply (ε : Type) where
  | yields (i : ℕ)
  | waits (i : ℕ)
  | raises (i : ℕ) (e : ε)
  | cancelled (i : ℕ)
  | released (i : ℕ)
  | nothing
  deriving DecidableEq

/-- `asyncio.wait_for(semaphore.acquire(), …)`, what comes of its timeout, and the release. -/
def withSlot {ε : Type} (busy : ε) (s : Semaphore.State) (e : Semaphore.Event) :
    SlotReply ε × Semaphore.State :=
  let (reply, s) := s.step e
  let reply := match reply with
    | .entered i => .yields i
    | .queued i => .waits i
    | .busy i => .raises i busy
    | .cancelled i => .cancelled i
    | .left i => .released i
    | .nothing => .nothing
  (reply, s)

def demoBusy : ApiError where
  statusCode := 503
  code := .SERVICE_UNAVAILABLE
  message := "The demo is busy. Try again shortly."
  retryAfter := some 1

def demoConcurrency : Semaphore.State → Semaphore.Event → SlotReply ApiError × Semaphore.State :=
  withSlot demoBusy

def tooManyConcurrent : RaisedError :=
  ⟨.unavailable, "Too many concurrent requests to the data service", none, []⟩

/-- `_slot`. -/
def slot : Semaphore.State → Semaphore.Event → SlotReply RaisedError × Semaphore.State :=
  withSlot tooManyConcurrent

def SlotSettings.demoSemaphore (settings : SlotSettings) : Semaphore.State :=
  { value := settings.demoMaxConcurrency }

def SlotSettings.slots (settings : SlotSettings) : Semaphore.State :=
  { value := settings.arcgisMaxConcurrency }

section WithSlot
variable {ε : Type} {busy : ε} {s : Semaphore.State} {e : Semaphore.Event} {i : ℕ}

theorem final_withSlot (busy : ε) (s : Semaphore.State) (es : List Semaphore.Event) :
    Runs.final (withSlot busy) s es = Runs.final Semaphore.State.step s es := by
  have hsame : ∀ s e, Runs.next (withSlot busy) s e = Runs.next Semaphore.State.step s e :=
    fun _ _ => rfl
  exact Runs.final_congr hsame s es

theorem withSlot_yields (h : (withSlot busy s e).1 = .yields i) : (s.step e).1 = .entered i := by
  simp only [withSlot] at h
  split at h <;> cases h
  assumption

theorem withSlot_raises {err : ε} (h : (withSlot busy s e).1 = .raises i err) :
    err = busy ∧ (s.step e).1 = .busy i := by
  simp only [withSlot] at h
  split at h <;> cases h
  exact ⟨rfl, by assumption⟩

end WithSlot

/-- The attempts that are under way at the data service are at most as many as allowed. When no
task is about to run on they are that many, or all there are; this is reached when the tasks that
are about to run on do so, and slots are never lost, however the attempts end. -/
theorem slots_kept (settings : SlotSettings) (es : List Semaphore.Event) :
    let s := Runs.final slot settings.slots es
    s.inside.Nodup ∧ s.inside.length ≤ settings.arcgisMaxConcurrency ∧
      (s.Idle → s.inside.length =
        min settings.arcgisMaxConcurrency (s.inside.length + s.waiters.length)) ∧
      (∃ is : List ℕ, (Runs.final slot s (is.map .resume)).Idle) ∧
      (s.inside = [] → s.waiters = [] → s.value = settings.arcgisMaxConcurrency) := by
  intro s
  have hs : Semaphore.Sound settings.arcgisMaxConcurrency s := by
    have hrun := (Semaphore.sound_start settings.arcgisMaxConcurrency).run es
    rw [← final_withSlot tooManyConcurrent] at hrun
    exact hrun
  obtain ⟨is, hidle⟩ := hs.settles
  rw [← final_withSlot tooManyConcurrent] at hidle
  exact ⟨hs.distinct, hs.inside_le, hs.saturated, ⟨is, hidle⟩, hs.free⟩

/-- Requests of the demo get their slots in the order in which they came. One that is refused as
busy had to wait until its time was up, and when no task was about to run on then, the demo was
full of requests that had come before it. -/
theorem demo_in_order (settings : SlotSettings) (es : List Semaphore.Event)
    (e : Semaphore.Event) :
    let s := Runs.final demoConcurrency settings.demoSemaphore es
    (∀ j, (demoConcurrency s e).1 = .yields j →
      ∀ w ∈ (demoConcurrency s e).2.waiters, w.request < j → w.future ≠ .pending) ∧
    ∀ i err, (demoConcurrency s e).1 = .raises i err → err = demoBusy ∧
      ∃ pre post, es = pre ++ .expire i :: post ∧
        let t := Runs.final demoConcurrency settings.demoSemaphore pre
        (∃ w ∈ t.waiters, w.request = i) ∧
          (t.Idle → t.inside.length = settings.demoMaxConcurrency ∧ ∀ j ∈ t.inside, j < i) := by
  have hsound : ∀ fs, Semaphore.Sound settings.demoMaxConcurrency
      (Runs.final demoConcurrency settings.demoSemaphore fs) := by
    intro fs
    have hrun := (Semaphore.sound_start settings.demoMaxConcurrency).run fs
    rw [← final_withSlot demoBusy] at hrun
    exact hrun
  intro s
  refine ⟨fun j hyields w hw hlt => (hsound es).first (withSlot_yields hyields) hw hlt,
    fun i err hraises => ?_⟩
  obtain ⟨herr, hbusy⟩ := withSlot_raises hraises
  obtain ⟨w, hw, rfl, hexpired⟩ := (hsound es).busy hbusy
  have hstart : settings.demoSemaphore.waiters = [] := rfl
  rw [demoConcurrency, final_withSlot] at hw
  obtain ⟨pre, post, hes, w', hw', hrequest⟩ :=
    Semaphore.expired_run hstart es w hw hexpired
  rw [← final_withSlot demoBusy] at hw'
  refine ⟨herr, pre, post, hes, ⟨w', hw', hrequest⟩, fun hidle => ?_⟩
  rw [← hrequest]
  exact (hsound pre).full hidle hw'

end GeoPlatform.Api
