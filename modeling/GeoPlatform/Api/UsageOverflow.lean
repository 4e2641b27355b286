import GeoPlatform.Api.UsageBuffer

/-! What `UsageRecorder` loses when its buffer overflows. A record that comes in drops the oldest
one, and a batch that is put back the newest ones. -/
namespace GeoPlatform.Api
variable {config : RecorderConfig} {s : Recorder}

/-- The records whose call has not completed, in the order in which they were recorded. -/
def waiting (s : Recorder) : List TaggedRecord := s.recorded.filter fun t => t ∉ s.acknowledged

/-- `pending` is the newest of the waiting records, `max_pending` of them or fewer. -/
def KeepsNewest (config : RecorderConfig) (s : Recorder) : Prop :=
  s.pending <:+ waiting s ∧ s.pending.length ≤ config.maxPending

/-- With the batch put back, the buffer does not overflow. -/
def FitsBack (config : RecorderConfig) (s : Recorder) (e : RecorderEvent) : Prop :=
  e = .failed → ∀ c ∈ s.flushing, c.batch.length + s.pending.length ≤ config.maxPending

instance (s : Recorder) (e : RecorderEvent) : Decidable (FitsBack config s e) :=
  inferInstanceAs (Decidable (e = .failed → ∀ c ∈ s.flushing, _))

/-! ### Invariant -/

/-- Between the batch in flight and `pending` records are missing only while `pending` is full. -/
structure OverflowInv (config : RecorderConfig) (s : Recorder) : Prop where
  flow : ∃ lost cut, waiting s = lost ++ (inFlight s ++ (cut ++ s.pending)) ∧
    (cut ≠ [] → s.pending.length = config.maxPending)
  length_le : s.pending.length ≤ config.maxPending
  batch_le : (inFlight s).length ≤ config.maxPending
  tags : s.recorded.map TaggedRecord.tag = List.range s.recorded.length
  acknowledged : ∀ t ∈ s.acknowledged, t ∈ s.recorded

theorem overflowInv_init (started : Bool) : OverflowInv config (.init started) where
  flow := ⟨[], [], rfl, fun h => absurd rfl h⟩
  length_le := Nat.zero_le _
  batch_le := Nat.zero_le _
  tags := rfl
  acknowledged := fun _ ht => ht

theorem OverflowInv.nodup (h : OverflowInv config s) : (waiting s).Nodup := by
  have hrecorded : s.recorded.Nodup := by
    apply List.Nodup.of_map TaggedRecord.tag
    rw [h.tags]
    exact List.nodup_range
  exact hrecorded.filter _

theorem OverflowInv.keepsNewest (h : OverflowInv config s) (hs : s.flushing = none) :
    KeepsNewest config s := by
  obtain ⟨lost, cut, hflow, -⟩ := h.flow
  simp only [inFlight, hs, Option.map_none, Option.getD_none, List.nil_append] at hflow
  refine ⟨⟨lost ++ cut, ?_⟩, h.length_le⟩
  rw [hflow, List.append_assoc]

/-! ### Steps -/

/-- Without a batch in flight, the newest records are all that is asked of `pending`. -/
theorem overflowInv_of_suffix (hflight : inFlight s = []) (hsuffix : s.pending <:+ waiting s)
    (hlength : s.pending.length ≤ config.maxPending)
    (htags : s.recorded.map TaggedRecord.tag = List.range s.recorded.length)
    (hack : ∀ t ∈ s.acknowledged, t ∈ s.recorded) : OverflowInv config s := by
  obtain ⟨lost, hlost⟩ := hsuffix
  refine ⟨⟨lost, [], ?_, fun h => absurd rfl h⟩, hlength, ?_, htags, hack⟩
  · rw [hflight, ← hlost]
    rfl
  · rw [hflight]
    exact Nat.zero_le _

theorem nextBatch_overflow {byStop : Bool} (hsuffix : s.pending <:+ waiting s)
    (hlength : s.pending.length ≤ config.maxPending)
    (htags : s.recorded.map TaggedRecord.tag = List.range s.recorded.length)
    (hack : ∀ t ∈ s.acknowledged, t ∈ s.recorded) :
    OverflowInv config (s.nextBatch config byStop) := by
  unfold Recorder.nextBatch
  split_ifs
  · exact overflowInv_of_suffix rfl hsuffix hlength htags hack
  · obtain ⟨lost, hlost⟩ := hsuffix
    refine ⟨⟨lost, [], ?_, fun h => absurd rfl h⟩, ?_, ?_, htags, hack⟩
    · show waiting s = lost ++ (s.pending.take _ ++ ([] ++ s.pending.drop _))
      rw [List.nil_append, List.take_append_drop, hlost]
    · rw [List.length_drop]
      omega
    · show (s.pending.take _).length ≤ _
      rw [List.length_take]
      omega

/-- A record that finds the buffer full drops the oldest pending one. -/
theorem record_overflow (h : OverflowInv config s) (r : UsageRecord) :
    OverflowInv config (s.next config (.record r)) := by
  have hfresh : (⟨s.recorded.length, r⟩ : TaggedRecord) ∉ s.acknowledged := by
    intro hack
    have htag := List.mem_map_of_mem (f := TaggedRecord.tag) (h.acknowledged _ hack)
    rw [h.tags, List.mem_range] at htag
    exact lt_irrefl _ htag
  have hwaiting : waiting (s.next config (.record r)) = waiting s ++ [⟨s.recorded.length, r⟩] := by
    show (s.recorded ++ [_]).filter _ = s.recorded.filter _ ++ [_]
    rw [List.filter_append]
    congr 1
    exact List.filter_cons_of_pos (decide_eq_true hfresh)
  obtain ⟨lost, cut, hflow, hfull⟩ := h.flow
  have hlength := h.length_le
  constructor
  case flow =>
    rw [hwaiting, hflow]
    show ∃ lost' cut', _ = lost' ++ (inFlight s ++ (cut' ++ append config.maxPending s.pending _)) ∧
      (_ → (append config.maxPending s.pending _).length = _)
    unfold append
    split_ifs with hroom
    · have hcut : cut = [] := by
        by_contra hne
        have := hfull hne
        omega
      subst hcut
      exact ⟨lost, [], by simp, fun hne => absurd rfl hne⟩
    · cases hp : s.pending with
      | nil =>
        refine ⟨lost, cut ++ [⟨s.recorded.length, r⟩], by simp, fun _ => ?_⟩
        rw [hp] at hroom
        simp at hroom ⊢
        omega
      | cons oldest rest =>
        refine ⟨lost, cut ++ [oldest], by simp, fun _ => ?_⟩
        rw [hp] at hroom hlength
        simp at hroom hlength ⊢
        omega
  case length_le =>
    show (append config.maxPending s.pending _).length ≤ _
    unfold append
    split_ifs with hroom
    · rw [List.length_append, List.length_singleton]
      omega
    · rw [List.length_drop, List.length_append, List.length_singleton]
      omega
  case batch_le => exact h.batch_le
  case tags =>
    have htags := h.tags
    simp only [Recorder.next, List.map_append, List.map_singleton, List.length_append,
      List.length_singleton, List.range_succ, htags]
  case acknowledged => exact fun t ht => List.mem_append_left _ (h.acknowledged t ht)

/-- A batch that fits is put back whole, and then nothing is missing behind it. -/
theorem failed_overflow (h : OverflowInv config s) (hfits : FitsBack config s .failed) :
    OverflowInv config (s.next config .failed) := by
  simp only [Recorder.next]
  cases hc : s.flushing with
  | none => exact h
  | some c =>
    have hroom := hfits rfl c hc
    obtain ⟨lost, cut, hflow, hfull⟩ := h.flow
    simp only [inFlight, hc, Option.map_some, Option.getD_some] at hflow
    have hwhole : requeue config.maxPending c.batch s.pending = c.batch ++ s.pending := by
      apply List.take_of_length_le
      rw [List.length_append]
      exact hroom
    refine overflowInv_of_suffix rfl ?_ ?_ h.tags h.acknowledged
    · show requeue config.maxPending c.batch s.pending <:+ waiting s
      rw [hwhole, hflow]
      by_cases hcut : cut = []
      · subst hcut
        exact List.suffix_append _ _
      · have hbatch : c.batch = [] := by
          rw [← List.length_eq_zero_iff]
          have := hfull hcut
          omega
        rw [hbatch]
        exact ⟨lost ++ cut, by simp⟩
    · show (requeue config.maxPending c.batch s.pending).length ≤ _
      rw [hwhole, List.length_append]
      exact hroom

/-- What is cut short does not end where the whole list does. -/
theorem take_not_suffix {α : Type*} {all l : List α} {m : ℕ} (hnodup : all.Nodup)
    (hlt : m < all.length) (hpos : 0 < m) (hlast : all.getLast? = l.getLast?) :
    ¬ all.take m <:+ l := by
  intro hsuffix
  have hne : all.take m ≠ [] := by
    rw [← List.length_pos_iff, List.length_take]
    omega
  have hl : l ≠ [] := fun hnil => hne (List.suffix_nil.mp (hnil ▸ hsuffix))
  have htaken := hsuffix.getLast hne
  have hdropped : (all.drop m).getLast? = some (l.getLast hl) := by
    rw [List.getLast?_drop, if_neg (not_le.mpr hlt), hlast, List.getLast?_eq_some_getLast hl]
  exact List.disjoint_take_drop hnodup le_rfl (htaken ▸ List.getLast_mem hne)
    (List.mem_of_getLast? hdropped)

/-- A batch that does not fit is put back at the cost of the newest records. -/
theorem failed_not_keepsNewest (h : OverflowInv config s) (hnot : ¬ FitsBack config s .failed) :
    (s.next config .failed).flushing = none ∧ ¬ KeepsNewest config (s.next config .failed) := by
  unfold FitsBack at hnot
  push Not at hnot
  obtain ⟨-, c, hc, hover⟩ := hnot
  have hflushing : s.flushing = some c := hc
  simp only [Recorder.next, hflushing]
  refine ⟨rfl, fun hkeeps => ?_⟩
  obtain ⟨lost, cut, hflow, hfull⟩ := h.flow
  have hbatch := h.batch_le
  simp only [inFlight, hflushing, Option.map_some, Option.getD_some] at hflow hbatch
  have hpending : s.pending ≠ [] := by
    rintro hnil
    rw [hnil, List.length_nil] at hover
    omega
  have hnodup : (c.batch ++ s.pending).Nodup := by
    have hwaiting := h.nodup
    rw [hflow] at hwaiting
    refine hwaiting.sublist (List.Sublist.trans ?_ (List.sublist_append_right _ _))
    exact List.Sublist.append_left (List.sublist_append_right _ _) _
  obtain ⟨t, ht⟩ : ∃ t, s.pending.getLast? = some t :=
    ⟨s.pending.getLast hpending, List.getLast?_eq_some_getLast hpending⟩
  have hlast : (c.batch ++ s.pending).getLast? = some t := by
    simp [List.getLast?_append, ht]
  have hwaiting : (waiting s).getLast? = some t := by
    simp [hflow, List.getLast?_append, ht]
  refine take_not_suffix hnodup ?_ ?_ (hlast.trans hwaiting.symm) hkeeps.1
  · rw [List.length_append]
    exact hover
  · have := List.length_pos_of_ne_nil hpending
    have := h.length_le
    omega

/-- The batch of a call that completes waits no longer. -/
theorem delivered_overflow (h : OverflowInv config s) :
    OverflowInv config (s.next config .delivered) := by
  cases hc : s.flushing with
  | none =>
    simp only [Recorder.next, hc]
    exact h
  | some c =>
    simp only [Recorder.next, hc]
    obtain ⟨lost, cut, hflow, -⟩ := h.flow
    have hnodup := h.nodup
    simp only [inFlight, hc, Option.map_some, Option.getD_some] at hflow
    have hbatch : ∀ t ∈ c.batch, t ∈ s.recorded := by
      intro t ht
      have hmem : t ∈ waiting s := by
        rw [hflow]
        simp [ht]
      exact List.mem_of_mem_filter hmem
    have hack : ∀ t ∈ s.acknowledged ++ c.batch, t ∈ s.recorded := by
      intro t ht
      rcases List.mem_append.mp ht with ht | ht
      · exact h.acknowledged t ht
      · exact hbatch t ht
    refine nextBatch_overflow ?_ h.length_le h.tags hack
    · have hwaiting : waiting { s with
          flushing := some c, acknowledged := s.acknowledged ++ c.batch } =
          (waiting s).filter fun t => t ∉ c.batch := by
        unfold waiting
        rw [List.filter_filter]
        refine List.filter_congr fun t _ => ?_
        simp [not_or, and_comm]
      have hapart : ∀ t ∈ s.pending, t ∉ c.batch := by
        rw [hflow, List.nodup_append, List.nodup_append] at hnodup
        intro t ht hin
        exact hnodup.2.1.2.2 t hin t (List.mem_append_right _ ht) rfl
      have hkept : s.pending.filter (fun t => t ∉ c.batch) = s.pending :=
        List.filter_eq_self.mpr fun t ht => by simpa using hapart t ht
      rw [hwaiting, hflow, List.filter_append, List.filter_append, List.filter_append, hkept]
      exact ⟨_, by rw [List.append_assoc, List.append_assoc]⟩

/-- A call that is cut loses its batch, which is older than what is pending. -/
theorem stop_overflow (h : OverflowInv config s) : OverflowInv config (s.next config .stop) := by
  obtain ⟨lost, cut, hflow, hfull⟩ := h.flow
  by_cases hsame : inFlight (s.next config .stop) = inFlight s
  · refine ⟨⟨lost, cut, ?_, hfull⟩, h.length_le, ?_, h.tags, h.acknowledged⟩
    · rw [hsame]
      exact hflow
    · rw [hsame]
      exact h.batch_le
  · have hnone : inFlight (s.next config .stop) = [] := by
      simp only [Recorder.next, inFlight] at hsame ⊢
      split_ifs at hsame ⊢ with htask
      · cases hc : s.flushing with
        | none => rfl
        | some c =>
          cases hby : c.byStop with
          | true => exact absurd (by simp [hc, Option.filter_some, hby]) hsame
          | false => simp [Option.filter_some, hby]
      · exact absurd rfl hsame
    refine overflowInv_of_suffix hnone ⟨lost ++ (inFlight s ++ cut), ?_⟩ h.length_le h.tags
      h.acknowledged
    show lost ++ (inFlight s ++ cut) ++ s.pending = waiting s
    rw [hflow]
    simp

/-- One step keeps the invariant, unless it puts back a batch that does not fit. -/
theorem next_overflow (h : OverflowInv config s) {e : RecorderEvent}
    (hfits : FitsBack config s e) : OverflowInv config (s.next config e) := by
  cases e with
  | record r => exact record_overflow h r
  | wake =>
    simp only [Recorder.next]
    split_ifs with hfree
    · obtain ⟨hsuffix, hlength⟩ := h.keepsNewest hfree.2
      exact nextBatch_overflow hsuffix hlength h.tags h.acknowledged
    · exact h
  | delivered => exact delivered_overflow h
  | failed => exact failed_overflow h hfits
  | stop => exact stop_overflow h
  | stopFlush =>
    simp only [Recorder.next]
    split_ifs with hfree
    · obtain ⟨hsuffix, hlength⟩ := h.keepsNewest hfree.2
      exact nextBatch_overflow hsuffix hlength h.tags h.acknowledged
    · exact h

/-! ### Runs -/

/-- As long as the buffer has room for all of them and no call is cut, all waiting records are
pending. -/
theorem pending_eq_waiting {started : Bool} {es : List RecorderEvent}
    (hcap : WithinCapacity config (.init started) es)
    (hwhole : Runs.Guarded (Recorder.step config) (fun s e => ¬ CutsCall s e) (.init started) es)
    (hidle : (Runs.final (Recorder.step config) (.init started) es).flushing = none) :
    (Runs.final (Recorder.step config) (.init started) es).pending =
      waiting (Runs.final (Recorder.step config) (.init started) es) := by
  have h := run_inv hcap hwhole
  generalize Runs.final (Recorder.step config) (.init started) es = s at h hidle
  have hflow := h.flow
  have hapart := (h.kept hidle).apart
  simp only [inFlight, hidle, Option.map_none, Option.getD_none, List.nil_append] at hflow
  have hacknowledged : s.acknowledged.filter (fun t => t ∉ s.acknowledged) = [] :=
    List.filter_eq_nil_iff.mpr fun t ht => by simpa using ht
  have hpending : s.pending.filter (fun t => t ∉ s.acknowledged) = s.pending :=
    List.filter_eq_self.mpr fun t ht => by simpa using hapart t ht
  rw [waiting, ← hflow, List.filter_append, hacknowledged, hpending, List.nil_append]

/-- In a state of a run without a batch in flight, `pending` is the newest of the records not yet
acknowledged, and all of them as long as they fit and no call is cut. -/
def EndsWithNewest (config : RecorderConfig) (started : Bool) (es : List RecorderEvent) : Prop :=
  let s := Runs.final (Recorder.step config) (.init started) es
  s.flushing = none → KeepsNewest config s ∧
    (WithinCapacity config (.init started) es →
      Runs.Guarded (Recorder.step config) (fun s e => ¬ CutsCall s e) (.init started) es →
        s.pending = waiting s)

/-- In every state of a run without a batch in flight, `pending` is the newest of the records not
yet acknowledged, just when every failed batch of the run fits back into the buffer. -/
theorem buffer_keeps_newest_iff (config : RecorderConfig) (started : Bool)
    (es : List RecorderEvent) :
    (∀ pre, pre <+: es → EndsWithNewest config started pre) ↔
      Runs.Guarded (Recorder.step config) (FitsBack config) (.init started) es := by
  have hkept : ∀ {pre}, Runs.Guarded (Recorder.step config) (FitsBack config) (.init started) pre →
      OverflowInv config (Runs.final (Recorder.step config) (.init started) pre) := fun hg =>
    hg.final_induction _ (overflowInv_init started) fun s e hfits h => next_overflow h hfits
  constructor
  · intro hnewest
    induction es using List.reverseRecOn with
    | nil => trivial
    | append_singleton pre e ih =>
      have hguarded := ih fun q hq => hnewest q (hq.trans (List.prefix_append pre [e]))
      rw [Runs.guarded_append]
      refine ⟨hguarded, ?_, trivial⟩
      by_contra hnot
      obtain rfl : e = .failed := by
        by_contra hne
        exact hnot fun he => absurd he hne
      obtain ⟨hidle, hlost⟩ := failed_not_keepsNewest (hkept hguarded) hnot
      have hend := hnewest (pre ++ [.failed]) (List.prefix_refl _)
      rw [EndsWithNewest, Runs.final_append] at hend
      exact hlost (hend hidle).1
  · rintro hguarded pre ⟨post, rfl⟩ hidle
    exact ⟨(hkept ((Runs.guarded_append ..).mp hguarded).1).keepsNewest hidle,
      fun hcap hwhole => pending_eq_waiting hcap hwhole hidle⟩

/-- While the call fails the buffer fills up, and the newest record is lost. -/
theorem buffer_drops_newest :
    ¬ ∀ (config : RecorderConfig) (es : List RecorderEvent),
      (∀ e ∈ es, e = .wake ∨ e = .delivered ∨ e = .failed ∨ ∃ r, e = .record r) →
      (Runs.final (Recorder.step config) (.init true) es).flushing = none →
      KeepsNewest config (Runs.final (Recorder.step config) (.init true) es) := by
  intro h
  have hkeeps := h ⟨1, 1⟩ [.record geocodeRecord, .wake, .record geocodeRecord, .failed]
    (by simp) rfl
  exact absurd hkeeps.1 (by decide)

end GeoPlatform.Api
