import GeoPlatform.Api.UsageRecorder
import GeoPlatform.Library.Run

/-! The buffer of `UsageRecorder` between `record`, the background task, the gateway and `stop`.
Every `await` is a place where other steps come in between: the lock, and the gateway call. -/
namespace GeoPlatform.Api
variable {config : RecorderConfig}

/-! ### The buffer -/

/-- A flush that awaits `record_usage`: who runs it, and the batch it has popped. -/
structure FlushCall where
  byStop : Bool
  batch : List TaggedRecord
  deriving DecidableEq

/-- `flushing` holds the lock. `recorded` and `acknowledged`, all records and those whose call
completed, are read only by statements. -/
structure Recorder where
  pending : List TaggedRecord := []
  /-- The background task runs. -/
  task : Bool := false
  flushing : Option FlushCall := none
  /-- Calls of `stop` that wait to flush, and those that have returned. -/
  stopping : ℕ := 0
  stopped : ℕ := 0
  recorded : List TaggedRecord := []
  acknowledged : List TaggedRecord := []
  deriving DecidableEq

inductive RecorderEvent where
  | record (r : UsageRecord)
  /-- The task wakes up, and finds the lock free. -/
  | wake
  /-- The gateway call returns. -/
  | delivered
  /-- The gateway call raises `ConvexGatewayError`. -/
  | failed
  /-- `stop` is called and cancels the task. -/
  | stop
  /-- A call of `stop` goes on to its own flush. -/
  | stopFlush
  deriving DecidableEq

/-- `flush` ends; in `stop`, so does the call. -/
def Recorder.endFlush (s : Recorder) (byStop : Bool) : Recorder :=
  { s with flushing := none, stopped := if byStop then s.stopped + 1 else s.stopped }

/-- The head of the loop of `flush`. -/
def Recorder.nextBatch (config : RecorderConfig) (s : Recorder) (byStop : Bool) : Recorder :=
  if s.pending = [] then s.endFlush byStop
  else
    { s with
      pending := s.pending.drop config.batchSize
      flushing := some ⟨byStop, s.pending.take config.batchSize⟩ }

def Recorder.next (config : RecorderConfig) (s : Recorder) : RecorderEvent → Recorder
  | .record r =>
      let t : TaggedRecord := ⟨s.recorded.length, r⟩
      { s with
        pending := append config.maxPending s.pending t
        recorded := s.recorded ++ [t] }
  | .wake => if s.task ∧ s.flushing = none then s.nextBatch config false else s
  | .delivered =>
      match s.flushing with
      | none => s
      | some c =>
          ({ s with acknowledged := s.acknowledged ++ c.batch } : Recorder).nextBatch
            config c.byStop
  | .failed =>
      match s.flushing with
      | none => s
      | some c =>
          ({ s with pending := requeue config.maxPending c.batch s.pending } : Recorder).endFlush
            c.byStop
  | .stop =>
      { s with
        task := false
        -- `CancelledError` is no `ConvexGatewayError`: the batch does not go back
        flushing := if s.task then s.flushing.filter (·.byStop) else s.flushing
        stopping := s.stopping + 1 }
  | .stopFlush =>
      if 0 < s.stopping ∧ s.flushing = none then
        ({ s with stopping := s.stopping - 1 } : Recorder).nextBatch config true
      else s

def Recorder.step (config : RecorderConfig) (s : Recorder) (e : RecorderEvent) :
    Unit × Recorder := ((), s.next config e)

/-- Before any record, with or without the background task. -/
def Recorder.init (started : Bool) : Recorder := { task := started }

/-! ### What is kept -/

def unacknowledged (s : Recorder) : ℕ := s.recorded.countP fun t => t ∉ s.acknowledged

/-- No flush is in progress, or every call of `stop` has returned. -/
def Settled (s : Recorder) : Prop :=
  s.flushing = none ∨ (0 < s.stopped ∧ s.stopping = 0 ∧ ∀ c ∈ s.flushing, c.byStop = false)

/-- Every record is pending or acknowledged, and not both, and the pending ones are in the order
in which they were recorded. -/
structure Kept (s : Recorder) : Prop where
  somewhere : ∀ t ∈ s.recorded, t ∈ s.pending ∨ t ∈ s.acknowledged
  apart : ∀ t ∈ s.pending, t ∉ s.acknowledged
  ordered : s.pending.Sublist s.recorded

/-- `stop` cancels the task in the middle of a gateway call. -/
def CutsCall (s : Recorder) (e : RecorderEvent) : Prop :=
  e = .stop ∧ s.task = true ∧ ∃ c ∈ s.flushing, c.byStop = false ∧ c.batch ≠ []

instance (s : Recorder) (e : RecorderEvent) : Decidable (CutsCall s e) :=
  inferInstanceAs (Decidable (_ ∧ _ ∧ ∃ c ∈ s.flushing, _))

/-! ### Invariant -/

def inFlight (s : Recorder) : List TaggedRecord := (s.flushing.map FlushCall.batch).getD []

/-- Records pass from `pending` through the call to `acknowledged`, in order. -/
structure RecorderInv (s : Recorder) : Prop where
  flow : s.acknowledged ++ (inFlight s ++ s.pending) = s.recorded
  tags : s.recorded.map TaggedRecord.tag = List.range s.recorded.length
  owner : ∀ c ∈ s.flushing, c.byStop = !s.task
  ended : s.task = true → s.stopping = 0 ∧ s.stopped = 0

theorem recorderInv_init (started : Bool) : RecorderInv (.init started) :=
  ⟨rfl, rfl, fun _ hc => (by cases hc), fun _ => ⟨rfl, rfl⟩⟩

theorem RecorderInv.nodup {s : Recorder} (h : RecorderInv s) : s.recorded.Nodup := by
  apply List.Nodup.of_map TaggedRecord.tag
  rw [h.tags]
  exact List.nodup_range

theorem RecorderInv.unacknowledged_eq {s : Recorder} (h : RecorderInv s) :
    unacknowledged s = (inFlight s).length + s.pending.length := by
  have hnodup := h.nodup
  rw [← h.flow, List.nodup_append] at hnodup
  obtain ⟨-, -, hapart⟩ := hnodup
  have hold : s.acknowledged.countP (fun t => decide (t ∉ s.acknowledged)) = 0 := by
    rw [List.countP_eq_zero]
    intro t ht
    simpa using ht
  have hnew : (inFlight s ++ s.pending).countP (fun t => decide (t ∉ s.acknowledged)) =
      (inFlight s ++ s.pending).length := by
    rw [List.countP_eq_length]
    intro t ht
    rw [decide_eq_true_eq]
    exact fun hack => hapart t hack t ht rfl
  rw [unacknowledged, ← h.flow, List.countP_append, hold, hnew, List.length_append, Nat.zero_add]

theorem RecorderInv.settled {s : Recorder} (h : RecorderInv s) (hs : Settled s) :
    s.flushing = none := by
  rcases hs with hs | ⟨hstopped, -, hnone⟩
  · exact hs
  · cases hc : s.flushing with
    | none => rfl
    | some c =>
      have htask := h.owner c hc
      rw [hnone c hc, eq_comm, Bool.not_eq_false'] at htask
      have hzero := h.ended htask
      omega

/-- With no call in flight, what has flowed is kept. -/
theorem RecorderInv.kept {s : Recorder} (h : RecorderInv s) (hs : s.flushing = none) : Kept s := by
  have hflow := h.flow
  have hnodup := h.nodup
  simp only [inFlight, hs, Option.map_none, Option.getD_none, List.nil_append] at hflow
  rw [← hflow, List.nodup_append] at hnodup
  constructor
  · intro t ht
    rw [← hflow, List.mem_append] at ht
    exact ht.symm
  · intro t ht hack
    exact hnodup.2.2 t hack t ht rfl
  · rw [← hflow]
    exact List.sublist_append_right ..

/-! ### Steps -/

theorem endFlush_inv {s : Recorder} {byStop : Bool}
    (hflow : s.acknowledged ++ s.pending = s.recorded)
    (htags : s.recorded.map TaggedRecord.tag = List.range s.recorded.length)
    (howner : byStop = !s.task) (hended : s.task = true → s.stopping = 0 ∧ s.stopped = 0) :
    RecorderInv (s.endFlush byStop) := by
  constructor
  case flow => exact hflow
  case tags => exact htags
  case owner => exact fun _ hc => by cases hc
  case ended =>
    intro htask
    have htask' : s.task = true := htask
    rw [htask'] at howner
    subst howner
    exact hended htask'

theorem nextBatch_inv {s : Recorder} {byStop : Bool}
    (hflow : s.acknowledged ++ s.pending = s.recorded)
    (htags : s.recorded.map TaggedRecord.tag = List.range s.recorded.length)
    (howner : byStop = !s.task) (hended : s.task = true → s.stopping = 0 ∧ s.stopped = 0) :
    RecorderInv (s.nextBatch config byStop) := by
  unfold Recorder.nextBatch
  split_ifs
  · exact endFlush_inv hflow htags howner hended
  · constructor
    case flow => simpa [inFlight] using hflow
    case tags => exact htags
    case owner =>
      intro c hc
      cases hc
      exact howner
    case ended => exact hended

theorem record_inv {s : Recorder} (h : RecorderInv s) (r : UsageRecord)
    (hroom : s.pending.length < config.maxPending) :
    RecorderInv (s.next config (.record r)) := by
  constructor
  case flow =>
    have hflow := h.flow
    simp only [Recorder.next, append, if_pos hroom, inFlight] at hflow ⊢
    rw [← hflow]
    simp
  case tags =>
    have htags := h.tags
    simp only [Recorder.next, List.map_append, List.map_singleton, List.length_append,
      List.length_singleton, List.range_succ, htags]
  case owner => exact h.owner
  case ended => exact h.ended

/-- A batch that fits is put back whole. -/
theorem failed_inv {s : Recorder} (h : RecorderInv s)
    (hroom : (inFlight s).length + s.pending.length ≤ config.maxPending) :
    RecorderInv (s.next config .failed) := by
  simp only [Recorder.next]
  cases hc : s.flushing with
  | none => exact h
  | some c =>
    have hflow := h.flow
    simp only [inFlight, hc, Option.map_some, Option.getD_some] at hflow hroom
    refine endFlush_inv ?_ h.tags (h.owner c hc) h.ended
    have hwhole : requeue config.maxPending c.batch s.pending = c.batch ++ s.pending := by
      apply List.take_of_length_le
      rw [List.length_append]
      exact hroom
    simpa only [hwhole] using hflow

theorem delivered_inv {s : Recorder} (h : RecorderInv s) :
    RecorderInv (s.next config .delivered) := by
  simp only [Recorder.next]
  cases hc : s.flushing with
  | none => exact h
  | some c =>
    have hflow := h.flow
    simp only [inFlight, hc, Option.map_some, Option.getD_some] at hflow
    refine nextBatch_inv ?_ h.tags (h.owner c hc) h.ended
    rw [← hflow, List.append_assoc]

theorem wake_inv {s : Recorder} (h : RecorderInv s) : RecorderInv (s.next config .wake) := by
  simp only [Recorder.next]
  split_ifs with hfree
  · have hflow := h.flow
    simp only [inFlight, hfree.2, Option.map_none, Option.getD_none, List.nil_append] at hflow
    exact nextBatch_inv hflow h.tags (by rw [hfree.1]; rfl) h.ended
  · exact h

theorem stopFlush_inv {s : Recorder} (h : RecorderInv s) :
    RecorderInv (s.next config .stopFlush) := by
  simp only [Recorder.next]
  split_ifs with hfree
  · have hflow := h.flow
    simp only [inFlight, hfree.2, Option.map_none, Option.getD_none, List.nil_append] at hflow
    have htask : s.task = false := by
      by_contra htask
      have hzero := h.ended (by simpa using htask)
      omega
    refine nextBatch_inv hflow h.tags ?_ ?_
    · rw [htask]
      rfl
    · intro hrunning
      rw [htask] at hrunning
      cases hrunning
  · exact h

theorem stop_inv {s : Recorder} (h : RecorderInv s) (hwhole : ¬ CutsCall s .stop) :
    RecorderInv (s.next config .stop) := by
  have hflight : inFlight (s.next config .stop) = inFlight s := by
    simp only [Recorder.next, inFlight]
    split_ifs with htask
    · cases hc : s.flushing with
      | none => rfl
      | some c =>
        have howner := h.owner c hc
        rw [htask, Bool.not_true] at howner
        have hempty : c.batch = [] := by
          by_contra hne
          exact hwhole ⟨rfl, htask, c, hc, howner, hne⟩
        simp [Option.filter_some, howner, hempty]
    · rfl
  constructor
  case flow =>
    rw [hflight]
    exact h.flow
  case tags => exact h.tags
  case owner =>
    intro c hc
    simp only [Recorder.next] at hc ⊢
    split_ifs at hc with htask
    · obtain ⟨-, hby⟩ := Option.filter_eq_some_iff.mp hc
      rw [hby]
      rfl
    · rw [h.owner c hc]
      simp [htask]
  case ended =>
    intro htask
    cases htask

/-- A new record is one more that has not been acknowledged. -/
theorem unacknowledged_record {s : Recorder} (h : RecorderInv s) (r : UsageRecord) :
    unacknowledged (s.next config (.record r)) = unacknowledged s + 1 := by
  have hfresh : (⟨s.recorded.length, r⟩ : TaggedRecord) ∉ s.acknowledged := by
    intro hack
    have hmem : (⟨s.recorded.length, r⟩ : TaggedRecord) ∈
        s.acknowledged ++ (inFlight s ++ s.pending) := List.mem_append_left _ hack
    rw [h.flow] at hmem
    have htag := List.mem_map_of_mem (f := TaggedRecord.tag) hmem
    rw [h.tags, List.mem_range] at htag
    exact lt_irrefl _ htag
  show (s.recorded ++ [(⟨s.recorded.length, r⟩ : TaggedRecord)]).countP
    (fun t => decide (t ∉ s.acknowledged)) = _
  rw [List.countP_append, List.countP_singleton, if_pos (decide_eq_true hfresh)]
  rfl

/-- One step keeps the invariant, below the capacity and without cutting a call. -/
theorem next_inv {s : Recorder} (h : RecorderInv s) {e : RecorderEvent}
    (hcap : unacknowledged s ≤ config.maxPending)
    (hcap' : unacknowledged (s.next config e) ≤ config.maxPending) (hwhole : ¬ CutsCall s e) :
    RecorderInv (s.next config e) := by
  rw [h.unacknowledged_eq] at hcap
  cases e with
  | record r =>
    apply record_inv h
    rw [unacknowledged_record h, h.unacknowledged_eq] at hcap'
    omega
  | wake => exact wake_inv h
  | delivered => exact delivered_inv h
  | failed => exact failed_inv h hcap
  | stop => exact stop_inv h hwhole
  | stopFlush => exact stopFlush_inv h

/-- A call that is cut loses its batch for good. -/
theorem cut_not_kept (config : RecorderConfig) {s : Recorder} (h : RecorderInv s)
    {e : RecorderEvent} (hcut : CutsCall s e) :
    Settled (s.next config e) ∧ ¬ Kept (s.next config e) := by
  obtain ⟨rfl, htask, c, hc, hby, hne⟩ := hcut
  have hflushing : s.flushing = some c := hc
  constructor
  · left
    simp [Recorder.next, htask, hflushing, hby]
  · intro hkept
    obtain ⟨t, ht⟩ := List.exists_mem_of_ne_nil _ hne
    have hnodup := h.nodup
    have hflow := h.flow
    simp only [inFlight, hflushing, Option.map_some, Option.getD_some] at hflow
    rw [← hflow, List.nodup_append, List.nodup_append] at hnodup
    obtain ⟨-, ⟨-, -, hpending⟩, hacknowledged⟩ := hnodup
    have hrecorded : t ∈ s.recorded := by
      rw [← hflow]
      simp [ht]
    rcases hkept.somewhere t hrecorded with hp | ha
    · exact hpending t ht t hp rfl
    · exact hacknowledged t ha t (List.mem_append_left _ ht) rfl

/-! ### Runs -/

section Runs
variable (config)

/-- The unacknowledged records fit the buffer all along. -/
def WithinCapacity (s : Recorder) (es : List RecorderEvent) : Prop :=
  ∀ pre, pre <+: es →
    unacknowledged (Runs.final (Recorder.step config) s pre) ≤ config.maxPending

/-- In every settled state of the run the records are kept. -/
def KeepsAll (s : Recorder) (es : List RecorderEvent) : Prop :=
  ∀ pre, pre <+: es → Settled (Runs.final (Recorder.step config) s pre) →
    Kept (Runs.final (Recorder.step config) s pre)

end Runs

theorem run_inv {started : Bool} {es : List RecorderEvent}
    (hcap : WithinCapacity config (.init started) es)
    (hwhole : Runs.Guarded (Recorder.step config) (fun s e => ¬ CutsCall s e) (.init started) es) :
    RecorderInv (Runs.final (Recorder.step config) (.init started) es) := by
  induction es using List.reverseRecOn with
  | nil => exact recorderInv_init started
  | append_singleton pre e ih =>
    rw [Runs.guarded_append] at hwhole
    have hcapPre : WithinCapacity config (.init started) pre := fun q hq =>
      hcap q (hq.trans (List.prefix_append pre [e]))
    have hcapEnd := hcap (pre ++ [e]) (List.prefix_refl _)
    rw [Runs.final_append] at hcapEnd ⊢
    exact next_inv (ih hcapPre hwhole.1) (hcapPre pre (List.prefix_refl _)) hcapEnd hwhole.2.1

/-- Within the capacity, nothing is lost just when `stop` never cuts a gateway call of the
background task. -/
theorem buffer_keeps_iff (config : RecorderConfig) (started : Bool) (es : List RecorderEvent)
    (hcap : WithinCapacity config (.init started) es) :
    KeepsAll config (.init started) es ↔
      Runs.Guarded (Recorder.step config) (fun s e => ¬ CutsCall s e) (.init started) es := by
  constructor
  · intro hkeeps
    induction es using List.reverseRecOn with
    | nil => trivial
    | append_singleton pre e ih =>
      have hguarded := ih (fun q hq => hcap q (hq.trans (List.prefix_append pre [e])))
        (fun q hq => hkeeps q (hq.trans (List.prefix_append pre [e])))
      rw [Runs.guarded_append]
      refine ⟨hguarded, fun hcut => ?_, trivial⟩
      have hinv := run_inv (fun q hq => hcap q (hq.trans (List.prefix_append pre [e]))) hguarded
      obtain ⟨hsettled, hlost⟩ := cut_not_kept config hinv hcut
      have hkept := hkeeps (pre ++ [e]) (List.prefix_refl _)
      rw [Runs.final_append] at hkept
      exact hlost (hkept hsettled)
  · rintro hguarded pre ⟨post, rfl⟩ hsettled
    rw [Runs.guarded_append] at hguarded
    have hinv := run_inv (fun q hq => hcap q (hq.trans (List.prefix_append pre post))) hguarded.1
    exact hinv.kept (hinv.settled hsettled)

/-! ### One record -/

def geocodeRecord : UsageRecord := ⟨"key_AAAA", "user_1", "/v1/geocode", "GET", 200, 12, 1000⟩

/-- The task flushes the record, goes back to sleep, and is stopped there. -/
theorem buffer_keeps_delivered :
    KeepsAll {} (.init true) [.record geocodeRecord, .wake, .delivered, .stop, .stopFlush] := by
  have hcap : WithinCapacity {} (.init true)
      [.record geocodeRecord, .wake, .delivered, .stop, .stopFlush] := by
    intro pre hpre
    rw [← List.mem_inits] at hpre
    revert pre
    decide
  apply (buffer_keeps_iff {} true _ hcap).mpr
  refine ⟨?_, ?_, ?_, ?_, ?_, trivial⟩ <;> decide

/-- The same record, with `stop` while the gateway call is under way. -/
theorem buffer_loses_cut :
    WithinCapacity {} (.init true) [.record geocodeRecord, .wake, .stop, .stopFlush] ∧
    ¬ KeepsAll {} (.init true) [.record geocodeRecord, .wake, .stop, .stopFlush] := by
  constructor
  · intro pre hpre
    rw [← List.mem_inits] at hpre
    revert pre
    decide
  · intro hkeeps
    have hkept := hkeeps _ (List.prefix_refl _) (Or.inl rfl)
    rcases hkept.somewhere ⟨0, geocodeRecord⟩ (by decide) with hp | ha
    · cases hp
    · cases ha

end GeoPlatform.Api
