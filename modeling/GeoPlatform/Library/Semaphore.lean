import GeoPlatform.Library.Run
import Mathlib.Data.List.Count

/-! `asyncio.Semaphore`, with the requests that wait for it and those it has let in, numbered as
they arrive. A waiter's future is done before the waiter runs on, and in between anything may
happen; a deadline or a cancellation stops a waiter as `Task.cancel` does. -/
namespace Semaphore

inductive Future where
  | pending | woken | cancelled
  deriving DecidableEq, Repr

/-- A request in the queue, with whether its deadline has passed and whether it was cancelled. -/
structure Waiter where
  request : ℕ
  future : Future := .pending
  expired : Bool := false
  stopped : Bool := false
  deriving DecidableEq, Repr

structure State where
  value : ℕ
  waiters : List Waiter := []
  inside : List ℕ := []
  arrived : ℕ := 0
  deriving DecidableEq, Repr

def State.locked (s : State) : Bool :=
  s.value = 0 || s.waiters.any (·.future ≠ .cancelled)

def Waiter.wake (w : Waiter) : Waiter := { w with future := .woken }

/-- `_wake_up_next` on the queue, unless nobody in it is pending. -/
def wakeNext : List Waiter → Option (List Waiter)
  | [] => none
  | w :: ws => if w.future = .pending then some (w.wake :: ws) else (wakeNext ws).map (w :: ·)

/-- `_wake_up_next`, as long as there is a permit and somebody to wake. -/
def wakeAll : ℕ → List Waiter → ℕ × List Waiter
  | 0, ws => (0, ws)
  | v + 1, ws =>
      match wakeNext ws with
      | some ws' => wakeAll v ws'
      | none => (v + 1, ws)

def release (value : ℕ) (ws : List Waiter) : ℕ × List Waiter :=
  match wakeNext ws with
  | some ws' => (value, ws')
  | none => (value + 1, ws)

/-- What `Task.cancel` does to the future. -/
def Waiter.cancel (w : Waiter) : Waiter :=
  { w with future := if w.future = .pending then .cancelled else w.future }

/-- The waiter goes in when it runs on. -/
def Waiter.enters (w : Waiter) : Bool := w.future = .woken && !w.expired && !w.stopped

/-- The permits that a waiter leaves behind when it runs on. -/
def Waiter.returned (w : Waiter) (value : ℕ) : ℕ :=
  if w.future = .woken ∧ w.enters = false then value + 1 else value

inductive Event where
  | arrive
  /-- The deadline of a request passes. -/
  | expire (i : ℕ)
  /-- A request is cancelled from outside. -/
  | stop (i : ℕ)
  /-- A waiter whose future is done runs on. -/
  | resume (i : ℕ)
  | leave (i : ℕ)
  deriving DecidableEq, Repr

inductive Reply where
  | entered (i : ℕ)
  | queued (i : ℕ)
  | busy (i : ℕ)
  | cancelled (i : ℕ)
  | left (i : ℕ)
  | nothing
  deriving DecidableEq, Repr

def State.signal (s : State) (i : ℕ) (f : Waiter → Waiter) : State :=
  { s with waiters := s.waiters.map fun w => if w.request = i then f w else w }

def State.dequeue (s : State) (w : Waiter) : State :=
  let (value, waiters) := wakeAll (w.returned s.value) (s.waiters.erase w)
  { s with value, waiters }

/-- The end of `acquire`, after the future. -/
def State.proceed (s : State) (w : Waiter) : Reply × State :=
  if w.enters then
    (.entered w.request, { s.dequeue w with inside := s.inside ++ [w.request] })
  else (if w.stopped then .cancelled w.request else .busy w.request, s.dequeue w)

def State.enqueue (s : State) : State :=
  { s with waiters := s.waiters ++ [{ request := s.arrived }], arrived := s.arrived + 1 }

def State.letIn (s : State) : State :=
  { s with value := s.value - 1, inside := s.inside ++ [s.arrived], arrived := s.arrived + 1 }

def State.leave (s : State) (i : ℕ) : State :=
  let (value, waiters) := release s.value s.waiters
  { s with value, waiters, inside := s.inside.erase i }

def State.step (s : State) : Event → Reply × State
  | .arrive =>
      if s.locked then (.queued s.arrived, s.enqueue) else (.entered s.arrived, s.letIn)
  | .expire i => (.nothing, s.signal i fun w => { w.cancel with expired := true })
  | .stop i => (.nothing, s.signal i fun w => { w.cancel with stopped := true })
  | .resume i =>
      match s.waiters.find? (·.request = i) with
      | some w => if w.future = .pending then (.nothing, s) else s.proceed w
      | none => (.nothing, s)
  | .leave i => if i ∈ s.inside then (.left i, s.leave i) else (.nothing, s)

/-! ### Waking -/

def woken (ws : List Waiter) : ℕ := ws.countP (·.future = .woken)

/-- Nobody behind a pending waiter has been woken. -/
def InOrder (ws : List Waiter) : Prop :=
  ws.Pairwise fun w w' => w'.future = .woken → w.future ≠ .pending

/-- The first pending waiter is woken. -/
theorem wakeNext_some {ws ws' : List Waiter} (h : wakeNext ws = some ws') :
    ∃ pre w post, ws = pre ++ w :: post ∧ (∀ x ∈ pre, x.future ≠ .pending) ∧
      w.future = .pending ∧ ws' = pre ++ w.wake :: post := by
  induction ws generalizing ws' with
  | nil => cases h
  | cons w ws ih =>
    rw [wakeNext] at h
    split_ifs at h with hw
    · cases h
      exact ⟨[], w, ws, rfl, fun x hx => absurd hx List.not_mem_nil, hw, rfl⟩
    · obtain ⟨ws₁, h₁, rfl⟩ := Option.map_eq_some_iff.mp h
      obtain ⟨pre, w', post, rfl, hpre, hw', rfl⟩ := ih h₁
      refine ⟨w :: pre, w', post, rfl, ?_, hw', rfl⟩
      intro x hx
      rcases List.mem_cons.mp hx with rfl | hx
      · exact hw
      · exact hpre x hx

theorem wakeNext_none {ws : List Waiter} :
    wakeNext ws = none ↔ ∀ w ∈ ws, w.future ≠ .pending := by
  induction ws with
  | nil => simp [wakeNext]
  | cons w ws ih =>
    rw [wakeNext]
    split_ifs with hw
    · simp [hw]
    · rw [Option.map_eq_none_iff, ih]
      simp [hw]

/-- `ws'` is the queue `ws`, with some pending waiters woken. -/
def Wakes (ws ws' : List Waiter) : Prop :=
  List.Forall₂ (fun w w' => w' = w ∨ (w.future = .pending ∧ w' = w.wake)) ws ws'

theorem Wakes.refl (ws : List Waiter) : Wakes ws ws :=
  List.forall₂_same.mpr fun _ _ => Or.inl rfl

theorem Wakes.trans {ws ws' ws'' : List Waiter} (h : Wakes ws ws') (h' : Wakes ws' ws'') :
    Wakes ws ws'' := by
  induction h generalizing ws'' with
  | nil => exact h'
  | @cons w w' ws ws' hw _ ih =>
    cases h' with
    | @cons _ w'' _ _ hw' h' =>
      refine .cons ?_ (ih h')
      rcases hw with rfl | ⟨hp, rfl⟩
      · exact hw'
      · rcases hw' with rfl | ⟨hp', -⟩
        · exact Or.inr ⟨hp, rfl⟩
        · cases hp'

theorem Wakes.mem {ws ws' : List Waiter} (h : Wakes ws ws') {w' : Waiter} (hw' : w' ∈ ws') :
    ∃ w ∈ ws, w' = w ∨ (w.future = .pending ∧ w' = w.wake) := by
  induction h with
  | nil => cases hw'
  | @cons w v ws ws' hw _ ih =>
    rcases List.mem_cons.mp hw' with rfl | hw'
    · exact ⟨w, List.mem_cons_self, hw⟩
    · obtain ⟨x, hx, hxw⟩ := ih hw'
      exact ⟨x, List.mem_cons_of_mem w hx, hxw⟩

theorem Wakes.requests {ws ws' : List Waiter} (h : Wakes ws ws') :
    ws'.map Waiter.request = ws.map Waiter.request := by
  induction h with
  | nil => rfl
  | cons hw _ ih =>
    rcases hw with rfl | ⟨-, rfl⟩
    · rw [List.map_cons, List.map_cons, ih]
    · rw [List.map_cons, List.map_cons, ih]
      rfl

theorem wakeNext_wakes {ws ws' : List Waiter} (h : wakeNext ws = some ws') : Wakes ws ws' := by
  obtain ⟨pre, w, post, rfl, -, hw, rfl⟩ := wakeNext_some h
  exact List.rel_append (Wakes.refl pre) (.cons (Or.inr ⟨hw, rfl⟩) (Wakes.refl post))

theorem wakeNext_woken {ws ws' : List Waiter} (h : wakeNext ws = some ws') :
    woken ws' = woken ws + 1 := by
  obtain ⟨pre, w, post, rfl, -, hw, rfl⟩ := wakeNext_some h
  simp [woken, List.countP_append, Waiter.wake, hw]
  omega

theorem wakeNext_inOrder {ws ws' : List Waiter} (h : wakeNext ws = some ws')
    (hord : InOrder ws) : InOrder ws' := by
  obtain ⟨pre, w, post, rfl, hpre, hw, rfl⟩ := wakeNext_some h
  obtain ⟨h₁, h₂, h₃⟩ := List.pairwise_append.mp hord
  obtain ⟨h₄, h₅⟩ := List.pairwise_cons.mp h₂
  refine List.pairwise_append.mpr ⟨h₁, List.pairwise_cons.mpr ⟨?_, h₅⟩, ?_⟩
  · intro x _ _
    exact Future.noConfusion
  · intro x hx y _ _
    exact hpre x hx

theorem wakeAll_wakes (v : ℕ) (ws : List Waiter) : Wakes ws (wakeAll v ws).2 := by
  induction v generalizing ws with
  | zero => exact Wakes.refl ws
  | succ v ih =>
    rw [wakeAll]
    split
    · next ws' h => exact (wakeNext_wakes h).trans (ih ws')
    · exact Wakes.refl ws

theorem wakeAll_conserves (v : ℕ) (ws : List Waiter) :
    (wakeAll v ws).1 + woken (wakeAll v ws).2 = v + woken ws := by
  induction v generalizing ws with
  | zero => rfl
  | succ v ih =>
    rw [wakeAll]
    split
    · next ws' h =>
      rw [ih ws', wakeNext_woken h]
      omega
    · rfl

theorem wakeAll_inOrder (v : ℕ) {ws : List Waiter} (hord : InOrder ws) :
    InOrder (wakeAll v ws).2 := by
  induction v generalizing ws with
  | zero => exact hord
  | succ v ih =>
    rw [wakeAll]
    split
    · next ws' h => exact ih (wakeNext_inOrder h hord)
    · exact hord

/-- A permit is left only when nobody is pending. -/
theorem wakeAll_kept {v : ℕ} {ws : List Waiter} (h : 0 < (wakeAll v ws).1) :
    ∀ w ∈ (wakeAll v ws).2, w.future ≠ .pending := by
  induction v generalizing ws with
  | zero => exact absurd h (Nat.lt_irrefl 0)
  | succ v ih =>
    cases hws : wakeNext ws with
    | some ws' =>
      simp only [wakeAll, hws] at h ⊢
      exact ih h
    | none =>
      simp only [wakeAll, hws]
      exact wakeNext_none.mp hws

theorem release_wakes (v : ℕ) (ws : List Waiter) : Wakes ws (release v ws).2 := by
  unfold release
  split
  · next ws' h => exact wakeNext_wakes h
  · exact Wakes.refl ws

theorem release_conserves (v : ℕ) (ws : List Waiter) :
    (release v ws).1 + woken (release v ws).2 = v + woken ws + 1 := by
  unfold release
  split
  · next ws' h =>
    rw [wakeNext_woken h]
    omega
  · exact Nat.add_right_comm v 1 (woken ws)

theorem release_inOrder (v : ℕ) {ws : List Waiter} (hord : InOrder ws) :
    InOrder (release v ws).2 := by
  unfold release
  split
  · next ws' h => exact wakeNext_inOrder h hord
  · exact hord

/-- A free permit has somebody woken before it, or nobody to take it. -/
theorem release_kept {v : ℕ} {ws : List Waiter}
    (h : ∃ w ∈ (release v ws).2, w.future = .pending) :
    ∃ w ∈ (release v ws).2, w.future = .woken := by
  cases hws : wakeNext ws with
  | some ws' =>
    simp only [release, hws] at h ⊢
    obtain ⟨pre, w, post, rfl, -, -, rfl⟩ := wakeNext_some hws
    exact ⟨w.wake, List.mem_append_right pre List.mem_cons_self, rfl⟩
  | none =>
    simp only [release, hws] at h
    obtain ⟨w, hw, hp⟩ := h
    exact absurd hp (wakeNext_none.mp hws w hw)

/-! ### The invariant -/

/-- What holds at any time: no permit is lost, and the permits go out in the order of arrival. -/
structure Sound (permits : ℕ) (s : State) : Prop where
  conserved : s.value + woken s.waiters + s.inside.length = permits
  inOrder : InOrder s.waiters
  kept : 0 < s.value → (∃ w ∈ s.waiters, w.future = .pending) →
    ∃ w ∈ s.waiters, w.future = .woken
  queue : (s.waiters.map Waiter.request).Pairwise (· < ·)
  apart : ∀ i ∈ s.inside, i ∉ s.waiters.map Waiter.request
  distinct : s.inside.Nodup
  numbered : ∀ i ∈ s.inside ++ s.waiters.map Waiter.request, i < s.arrived
  served : ∀ i ∈ s.inside, ∀ w ∈ s.waiters, w.request < i → w.future ≠ .pending
  given : ∀ w ∈ s.waiters, w.future = .cancelled → w.expired = true ∨ w.stopped = true

theorem sound_start (permits : ℕ) : Sound permits { value := permits } where
  conserved := rfl
  inOrder := List.Pairwise.nil
  kept _ h := by
    obtain ⟨w, hw, -⟩ := h
    cases hw
  queue := List.Pairwise.nil
  apart i hi := by cases hi
  distinct := List.nodup_nil
  numbered i hi := by cases hi
  served i hi := by cases hi
  given w hw := by cases hw

variable {permits : ℕ} {s : State}

theorem locked_iff : s.locked = true ↔ s.value = 0 ∨ ∃ w ∈ s.waiters, w.future ≠ .cancelled := by
  simp [State.locked]

theorem Sound.enqueue (h : Sound permits s) (hlocked : s.locked = true) :
    Sound permits s.enqueue where
  conserved := by simpa [State.enqueue, woken, List.countP_append] using h.conserved
  inOrder := by
    refine List.pairwise_append.mpr ⟨h.inOrder, List.pairwise_singleton _ _, ?_⟩
    intro w _ w' hw' hwoken
    obtain rfl := List.mem_singleton.mp hw'
    cases hwoken
  kept hpos _ := by
    have hwoken : ∃ w ∈ s.waiters, w.future = .woken := by
      obtain hzero | ⟨w, hw, hfuture⟩ := locked_iff.mp hlocked
      · exact absurd hzero hpos.ne'
      · cases hf : w.future with
        | pending => exact h.kept hpos ⟨w, hw, hf⟩
        | woken => exact ⟨w, hw, hf⟩
        | cancelled => exact absurd hf hfuture
    obtain ⟨w, hw, hwoken⟩ := hwoken
    exact ⟨w, List.mem_append_left _ hw, hwoken⟩
  queue := by
    simp only [State.enqueue, List.map_append, List.pairwise_append]
    refine ⟨h.queue, List.pairwise_singleton _ _, fun i hi j hj => ?_⟩
    obtain rfl := List.mem_singleton.mp hj
    exact h.numbered i (List.mem_append_right _ hi)
  apart i hi hmem := by
    simp only [State.enqueue, List.map_append, List.mem_append] at hmem
    rcases hmem with hmem | hmem
    · exact h.apart i hi hmem
    · obtain rfl := List.mem_singleton.mp hmem
      exact absurd (h.numbered _ (List.mem_append_left _ hi)) (Nat.lt_irrefl _)
  distinct := h.distinct
  numbered i hi := by
    simp only [State.enqueue, List.map_append, ← List.append_assoc] at hi
    rcases List.mem_append.mp hi with hi | hi
    · exact (h.numbered i hi).trans (Nat.lt_succ_self _)
    · obtain rfl := List.mem_singleton.mp hi
      exact Nat.lt_succ_self _
  served i hi w hw hlt := by
    rcases List.mem_append.mp hw with hw | hw
    · exact h.served i hi w hw hlt
    · obtain rfl := List.mem_singleton.mp hw
      exact absurd (hlt.trans (h.numbered i (List.mem_append_left _ hi))) (Nat.lt_irrefl _)
  given w hw hcancelled := by
    rcases List.mem_append.mp hw with hw | hw
    · exact h.given w hw hcancelled
    · obtain rfl := List.mem_singleton.mp hw
      cases hcancelled

theorem Sound.letIn (h : Sound permits s) (hopen : ¬ s.locked = true) :
    Sound permits s.letIn := by
  rw [locked_iff, not_or, not_exists] at hopen
  obtain ⟨hpos, hdone⟩ := hopen
  have hnew : s.arrived ∉ s.inside ++ s.waiters.map Waiter.request :=
    fun hmem => absurd (h.numbered _ hmem) (Nat.lt_irrefl _)
  rw [List.mem_append, not_or] at hnew
  exact {
    conserved := by
      have hconserved := h.conserved
      simp only [State.letIn, List.length_append, List.length_singleton]
      omega
    inOrder := h.inOrder
    kept := fun _ hp => h.kept (Nat.pos_of_ne_zero hpos) hp
    queue := h.queue
    apart := by
      intro i hi
      rcases List.mem_append.mp hi with hi | hi
      · exact h.apart i hi
      · obtain rfl := List.mem_singleton.mp hi
        exact hnew.2
    distinct := by
      refine List.nodup_append.mpr ⟨h.distinct, List.nodup_singleton _, ?_⟩
      intro i hi j hj hij
      obtain rfl := List.mem_singleton.mp hj
      exact hnew.1 (hij ▸ hi)
    numbered := by
      intro i hi
      simp only [State.letIn, List.mem_append, List.mem_singleton] at hi
      rcases hi with (hi | rfl) | hi
      · exact (h.numbered i (List.mem_append_left _ hi)).trans (Nat.lt_succ_self _)
      · exact Nat.lt_succ_self _
      · exact (h.numbered i (List.mem_append_right _ hi)).trans (Nat.lt_succ_self _)
    served := by
      intro i _ w hw _ hp
      exact hdone w ⟨hw, by rw [hp]; exact Future.noConfusion⟩
    given := h.given }

/-- A deadline and a cancellation touch pending futures only. -/
theorem Sound.signal (h : Sound permits s) (i : ℕ) {f : Waiter → Waiter}
    (hrequest : ∀ w, (f w).request = w.request) (hfuture : ∀ w, (f w).future = w.cancel.future)
    (hgiven : ∀ w, (f w).expired = true ∨ (f w).stopped = true) :
    Sound permits (s.signal i f) := by
  have hmap : (s.signal i f).waiters.map Waiter.request = s.waiters.map Waiter.request := by
    simp only [State.signal, List.map_map]
    refine List.map_congr_left fun w _ => ?_
    simp only [Function.comp_apply]
    split_ifs
    · exact hrequest w
    · rfl
  have hpending : ∀ w, (if w.request = i then f w else w).future = .pending →
      w.future = .pending := by
    intro w
    split_ifs
    · rw [hfuture, Waiter.cancel]
      cases w.future <;> simp
    · exact id
  have hwoken : ∀ w, (if w.request = i then f w else w).future = .woken ↔ w.future = .woken := by
    intro w
    split_ifs
    · rw [hfuture, Waiter.cancel]
      cases w.future <;> simp
    · exact Iff.rfl
  exact {
    conserved := by
      have hsame : woken (s.signal i f).waiters = woken s.waiters := by
        simp only [woken, State.signal, List.countP_map]
        refine List.countP_congr fun w _ => ?_
        simp only [Function.comp_apply, decide_eq_true_eq]
        exact hwoken w
      rw [hsame]
      exact h.conserved
    inOrder := by
      refine List.pairwise_map.mpr (h.inOrder.imp fun hww hw' hp => ?_)
      exact hww ((hwoken _).mp hw') (hpending _ hp)
    kept := by
      intro hpos hp
      obtain ⟨_, hmem, hp⟩ := hp
      obtain ⟨w, hw, rfl⟩ := List.mem_map.mp hmem
      obtain ⟨v, hv, hvw⟩ := h.kept hpos ⟨w, hw, hpending w hp⟩
      exact ⟨_, List.mem_map_of_mem hv, (hwoken v).mpr hvw⟩
    queue := by rw [hmap]; exact h.queue
    apart := by rw [hmap]; exact h.apart
    distinct := h.distinct
    numbered := by rw [hmap]; exact h.numbered
    served := by
      intro j hj _ hmem hlt hp
      obtain ⟨w, hw, rfl⟩ := List.mem_map.mp hmem
      refine h.served j hj w hw ?_ (hpending w hp)
      split_ifs at hlt
      · exact hrequest w ▸ hlt
      · exact hlt
    given := by
      intro _ hmem hcancelled
      obtain ⟨w, hw, rfl⟩ := List.mem_map.mp hmem
      split_ifs at hcancelled ⊢
      · exact hgiven w
      · exact h.given w hw hcancelled }

theorem Sound.order (h : Sound permits s) {w w' : Waiter} (hw : w ∈ s.waiters)
    (hw' : w' ∈ s.waiters) (hlt : w.request < w'.request) (hwoken : w'.future = .woken) :
    w.future ≠ .pending := by
  have hqueue := List.pairwise_map.mp h.queue
  have hall := List.Pairwise.forall_of_forall_of_flip
    (R := fun a b : Waiter => a.request < b.request → b.future = .woken → a.future ≠ .pending)
    (fun a _ hlt => absurd hlt (Nat.lt_irrefl _))
    (List.Pairwise.imp (fun hab _ hwoken => hab hwoken) h.inOrder)
    (hqueue.imp fun hab hba => absurd (hab.trans hba) (Nat.lt_irrefl _))
  exact hall hw hw' hlt hwoken

section Dequeue
variable {w : Waiter}

theorem dequeue_requests :
    ((s.dequeue w).waiters.map Waiter.request).Sublist (s.waiters.map Waiter.request) := by
  rw [State.dequeue, (wakeAll_wakes _ _).requests]
  exact List.erase_sublist.map _

/-- Who is still pending was pending before. -/
theorem dequeue_pending {x : Waiter} (hx : x ∈ (s.dequeue w).waiters)
    (hp : x.future = .pending) : x ∈ s.waiters := by
  obtain ⟨y, hy, rfl | ⟨-, rfl⟩⟩ := (wakeAll_wakes _ _).mem hx
  · exact List.mem_of_mem_erase hy
  · cases hp

/-- Who has given up had given up before. -/
theorem dequeue_given (h : Sound permits s) {x : Waiter} (hx : x ∈ (s.dequeue w).waiters)
    (hcancelled : x.future = .cancelled) : x.expired = true ∨ x.stopped = true := by
  obtain ⟨y, hy, rfl | ⟨-, rfl⟩⟩ := (wakeAll_wakes _ _).mem hx
  · exact h.given x (List.mem_of_mem_erase hy) hcancelled
  · cases hcancelled

theorem dequeue_gone (h : Sound permits s) (hw : w ∈ s.waiters) :
    w.request ∉ (s.dequeue w).waiters.map Waiter.request := by
  have hnodup : (s.waiters.map Waiter.request).Nodup := h.queue.imp Nat.ne_of_lt
  rw [((List.perm_cons_erase hw).map Waiter.request).nodup_iff] at hnodup
  rw [State.dequeue, (wakeAll_wakes _ _).requests]
  exact (List.nodup_cons.mp hnodup).1

theorem dequeue_conserves (hw : w ∈ s.waiters) :
    (s.dequeue w).value + woken (s.dequeue w).waiters + (if w.enters = true then 1 else 0) =
      s.value + woken s.waiters := by
  have hcount : woken s.waiters =
      woken (s.waiters.erase w) + if w.future = .woken then 1 else 0 := by
    rw [woken, (List.perm_cons_erase hw).countP_eq, List.countP_cons]
    simp [woken]
  have hconserves : (s.dequeue w).value + woken (s.dequeue w).waiters =
      w.returned s.value + woken (s.waiters.erase w) := wakeAll_conserves _ _
  rw [hconserves, hcount, Waiter.returned]
  by_cases hwoken : w.future = .woken
  · cases henters : w.enters
    · simp [hwoken]
      omega
    · simp [hwoken]
      omega
  · have henters : w.enters = false := by simp [Waiter.enters, hwoken]
    simp [hwoken, henters]

/-- A waiter runs on, and its permit goes to whoever waits longest unless it goes in. -/
theorem Sound.proceed (h : Sound permits s) (hw : w ∈ s.waiters) :
    Sound permits (s.proceed w).2 := by
  have hconserves := dequeue_conserves hw
  have hconserved := h.conserved
  have hinOrder : InOrder (s.dequeue w).waiters :=
    wakeAll_inOrder _ (List.Pairwise.sublist List.erase_sublist h.inOrder)
  have hkept : 0 < (s.dequeue w).value → (∃ x ∈ (s.dequeue w).waiters, x.future = .pending) →
      ∃ x ∈ (s.dequeue w).waiters, x.future = .woken := by
    intro hpos hp
    obtain ⟨x, hx, hp⟩ := hp
    exact absurd hp (wakeAll_kept hpos x hx)
  have hsub : ((s.dequeue w).waiters.map Waiter.request).Sublist
      (s.waiters.map Waiter.request) := dequeue_requests
  rw [State.proceed]
  by_cases henters : w.enters = true
  · have hfuture : w.future = .woken := by
      simp only [Waiter.enters, Bool.and_eq_true, decide_eq_true_eq] at henters
      exact henters.1.1
    rw [if_pos henters] at hconserves ⊢
    exact {
      conserved := by
        simp only [List.length_append, List.length_singleton]
        omega
      inOrder := hinOrder
      kept := hkept
      queue := h.queue.sublist hsub
      apart := by
        intro i hi hmem
        rcases List.mem_append.mp hi with hi | hi
        · exact h.apart i hi (hsub.subset hmem)
        · obtain rfl := List.mem_singleton.mp hi
          exact dequeue_gone h hw hmem
      distinct := by
        refine List.nodup_append.mpr ⟨h.distinct, List.nodup_singleton _, ?_⟩
        intro i hi j hj hij
        obtain rfl := List.mem_singleton.mp hj
        exact h.apart i hi (hij ▸ List.mem_map_of_mem hw)
      numbered := by
        intro i hi
        simp only [List.mem_append, List.mem_singleton] at hi
        rcases hi with (hi | rfl) | hi
        · exact h.numbered i (List.mem_append_left _ hi)
        · exact h.numbered _ (List.mem_append_right _ (List.mem_map_of_mem hw))
        · exact h.numbered i (List.mem_append_right _ (hsub.subset hi))
      served := by
        intro i hi x hx hlt hp
        rcases List.mem_append.mp hi with hi | hi
        · exact h.served i hi x (dequeue_pending hx hp) hlt hp
        · obtain rfl := List.mem_singleton.mp hi
          exact h.order (dequeue_pending hx hp) hw hlt hfuture hp
      given := fun x hx => dequeue_given h hx }
  · rw [if_neg henters] at hconserves ⊢
    change Sound permits (s.dequeue w)
    exact {
      conserved := by
        have hinside : (s.dequeue w).inside = s.inside := rfl
        rw [hinside]
        omega
      inOrder := hinOrder
      kept := hkept
      queue := h.queue.sublist hsub
      apart := fun i hi hmem => h.apart i hi (hsub.subset hmem)
      distinct := h.distinct
      numbered := by
        intro i hi
        rcases List.mem_append.mp hi with hi | hi
        · exact h.numbered i (List.mem_append_left _ hi)
        · exact h.numbered i (List.mem_append_right _ (hsub.subset hi))
      served := fun i hi x hx hlt hp => h.served i hi x (dequeue_pending hx hp) hlt hp
      given := fun x hx => dequeue_given h hx }

end Dequeue

theorem Sound.leave (h : Sound permits s) {i : ℕ} (hi : i ∈ s.inside) :
    Sound permits (s.leave i) := by
  have hwakes : Wakes s.waiters (s.leave i).waiters := release_wakes s.value s.waiters
  have hsub : ∀ j, j ∈ s.inside.erase i → j ∈ s.inside := fun j hj => List.mem_of_mem_erase hj
  exact {
    conserved := by
      have hconserved := h.conserved
      have hrelease : (s.leave i).value + woken (s.leave i).waiters =
          s.value + woken s.waiters + 1 := release_conserves s.value s.waiters
      have hlength : (s.leave i).inside.length + 1 = s.inside.length :=
        (List.length_erase_add_one hi)
      omega
    inOrder := release_inOrder s.value h.inOrder
    kept := fun _ hp => release_kept hp
    queue := by rw [hwakes.requests]; exact h.queue
    apart := by rw [hwakes.requests]; exact fun j hj => h.apart j (hsub j hj)
    distinct := h.distinct.erase i
    numbered := by
      rw [hwakes.requests]
      intro j hj
      rcases List.mem_append.mp hj with hj | hj
      · exact h.numbered j (List.mem_append_left _ (hsub j hj))
      · exact h.numbered j (List.mem_append_right _ hj)
    served := by
      intro j hj x hx hlt hp
      obtain ⟨y, hy, rfl | ⟨-, rfl⟩⟩ := hwakes.mem hx
      · exact h.served j (hsub j hj) x hy hlt hp
      · cases hp
    given := by
      intro x hx hcancelled
      obtain ⟨y, hy, rfl | ⟨-, rfl⟩⟩ := hwakes.mem hx
      · exact h.given x hy hcancelled
      · cases hcancelled }

theorem Sound.step (h : Sound permits s) (e : Event) : Sound permits (s.step e).2 := by
  cases e with
  | arrive =>
    rw [State.step]
    split_ifs with hlocked
    · exact h.enqueue hlocked
    · exact h.letIn hlocked
  | expire i => exact h.signal i (fun _ => rfl) (fun _ => rfl) fun _ => Or.inl rfl
  | stop i => exact h.signal i (fun _ => rfl) (fun _ => rfl) fun _ => Or.inr rfl
  | resume i =>
    simp only [State.step]
    cases hfind : s.waiters.find? (·.request = i) with
    | none => exact h
    | some w =>
      simp only
      split_ifs
      · exact h
      · exact h.proceed (List.mem_of_find?_eq_some hfind)
  | leave i =>
    rw [State.step]
    split_ifs with hi
    · exact h.leave hi
    · exact h

theorem Sound.run (h : Sound permits s) (es : List Event) :
    Sound permits (Runs.final State.step s es) :=
  Runs.final_induction State.step h (fun _ e hs => hs.step e) es

/-! ### What it gives -/

/-- No waiter is about to run on. -/
def State.Idle (s : State) : Prop := ∀ w ∈ s.waiters, w.future = .pending

theorem Sound.inside_le (h : Sound permits s) : s.inside.length ≤ permits := by
  have := h.conserved
  omega

/-- At rest nobody waits unless all permits are with requests that came earlier. -/
theorem Sound.full (h : Sound permits s) (hidle : s.Idle) {w : Waiter} (hw : w ∈ s.waiters) :
    s.inside.length = permits ∧ ∀ j ∈ s.inside, j < w.request := by
  have hconserved := h.conserved
  have hnone : woken s.waiters = 0 := by
    refine List.countP_eq_zero.mpr fun w hw => ?_
    simp [hidle w hw]
  have hzero : s.value = 0 := by
    by_contra hpos
    obtain ⟨v, hv, hwoken⟩ := h.kept (Nat.pos_of_ne_zero hpos) ⟨w, hw, hidle w hw⟩
    exact Future.noConfusion (hwoken.symm.trans (hidle v hv))
  refine ⟨by omega, fun j hj => ?_⟩
  have hne : j ≠ w.request := fun heq => h.apart j hj (heq ▸ List.mem_map_of_mem hw)
  have hle : ¬ w.request < j := fun hlt => h.served j hj w hw hlt (hidle w hw)
  omega

/-- At rest, as many are inside as there are permits or requests. -/
theorem Sound.saturated (h : Sound permits s) (hidle : s.Idle) :
    s.inside.length = min permits (s.inside.length + s.waiters.length) := by
  have hle := h.inside_le
  cases hwaiters : s.waiters with
  | nil =>
    rw [List.length_nil, Nat.add_zero]
    omega
  | cons w ws =>
    obtain ⟨hfull, -⟩ := h.full hidle (hwaiters ▸ List.mem_cons_self : w ∈ s.waiters)
    omega

theorem Sound.free (h : Sound permits s) (hinside : s.inside = []) (hwaiters : s.waiters = []) :
    s.value = permits := by
  have hconserved := h.conserved
  rw [hinside, hwaiters] at hconserved
  exact hconserved

theorem Sound.unique (h : Sound permits s) {w w' : Waiter} (hw : w ∈ s.waiters)
    (hw' : w' ∈ s.waiters) (heq : w.request = w'.request) : w = w' := by
  have hnodup : (s.waiters.map Waiter.request).Nodup := h.queue.imp Nat.ne_of_lt
  exact List.inj_on_of_nodup_map hnodup hw hw' heq

theorem Sound.resume (h : Sound permits s) {w : Waiter} (hw : w ∈ s.waiters)
    (hdone : w.future ≠ .pending) : s.step (.resume w.request) = s.proceed w := by
  simp only [State.step]
  cases hfind : s.waiters.find? (·.request = w.request) with
  | none => simpa using List.find?_eq_none.mp hfind w hw
  | some w' =>
    have heq : w'.request = w.request := by simpa using List.find?_some hfind
    obtain rfl := h.unique (List.mem_of_find?_eq_some hfind) hw heq
    simp only [if_neg hdone]

theorem proceed_length {w : Waiter} (hw : w ∈ s.waiters) :
    (s.proceed w).2.waiters.length + 1 = s.waiters.length := by
  have hsame : (s.proceed w).2.waiters = (s.dequeue w).waiters := by
    rw [State.proceed]
    split_ifs <;> rfl
  have hlength := congrArg List.length
    (wakeAll_wakes (w.returned s.value) (s.waiters.erase w)).requests
  rw [List.length_map, List.length_map] at hlength
  rw [hsame]
  exact (congrArg (· + 1) hlength).trans (List.length_erase_add_one hw)

/-- Once those that are about to run on have done so, the semaphore is at rest. -/
theorem Sound.settles (h : Sound permits s) :
    ∃ is : List ℕ, (Runs.final State.step s (is.map .resume)).Idle := by
  induction hn : s.waiters.length generalizing s with
  | zero =>
    refine ⟨[], fun w hw => ?_⟩
    rw [List.map_nil, Runs.final_nil, List.length_eq_zero_iff.mp hn] at hw
    cases hw
  | succ n ih =>
    by_cases hidle : s.Idle
    · exact ⟨[], hidle⟩
    · simp only [State.Idle, not_forall] at hidle
      obtain ⟨w, hw, hdone⟩ := hidle
      have hlength := proceed_length hw
      obtain ⟨is, his⟩ := ih (h.proceed hw) (by omega)
      refine ⟨w.request :: is, ?_⟩
      rw [List.map_cons, Runs.final_cons, Runs.next, h.resume hw hdone]
      exact his

theorem step_entered {e : Event} {j : ℕ} (hentered : (s.step e).1 = .entered j) :
    j ∈ (s.step e).2.inside := by
  cases e with
  | arrive =>
    rw [State.step] at hentered ⊢
    split_ifs at hentered ⊢ with hlocked
    cases hentered
    exact List.mem_append_right _ (List.mem_singleton_self _)
  | resume i =>
    simp only [State.step] at hentered ⊢
    cases hfind : s.waiters.find? (·.request = i) with
    | none =>
      rw [hfind] at hentered
      cases hentered
    | some w =>
      simp only [hfind, State.proceed] at hentered ⊢
      split_ifs at hentered ⊢
      cases hentered
      exact List.mem_append_right _ (List.mem_singleton_self _)
  | leave i =>
    rw [State.step] at hentered
    split_ifs at hentered
  | expire i => cases hentered
  | stop i => cases hentered

/-- Whoever goes in leaves nobody behind who came first, save those that can go in too or have
given up. -/
theorem Sound.first (h : Sound permits s) {e : Event} {j : ℕ}
    (hentered : (s.step e).1 = .entered j) {w : Waiter} (hw : w ∈ (s.step e).2.waiters)
    (hlt : w.request < j) : w.future ≠ .pending :=
  (h.step e).served j (step_entered hentered) w hw hlt

/-- Only a waiter whose deadline has passed is told that the semaphore is busy. -/
theorem Sound.busy (h : Sound permits s) {e : Event} {i : ℕ} (hbusy : (s.step e).1 = .busy i) :
    ∃ w ∈ s.waiters, w.request = i ∧ w.expired = true := by
  cases e with
  | arrive =>
    rw [State.step] at hbusy
    split_ifs at hbusy
  | resume j =>
    simp only [State.step] at hbusy
    cases hfind : s.waiters.find? (·.request = j) with
    | none =>
      rw [hfind] at hbusy
      cases hbusy
    | some w =>
      simp only [hfind] at hbusy
      split_ifs at hbusy with hpending
      simp only [State.proceed] at hbusy
      split_ifs at hbusy with henters hstopped
      cases hbusy
      have hw := List.mem_of_find?_eq_some hfind
      refine ⟨w, hw, rfl, ?_⟩
      cases hfuture : w.future with
      | pending => exact absurd hfuture hpending
      | woken => simpa [Waiter.enters, hfuture, hstopped] using henters
      | cancelled => exact (h.given w hw hfuture).resolve_right hstopped
  | leave j =>
    rw [State.step] at hbusy
    split_ifs at hbusy
  | expire j => cases hbusy
  | stop j => cases hbusy

/-- A waiter is expired by the passing of its own deadline. -/
theorem step_expired {e : Event} {w' : Waiter} (hw' : w' ∈ (s.step e).2.waiters)
    (hexpired : w'.expired = true) :
    (e = .expire w'.request ∧ ∃ w ∈ s.waiters, w.request = w'.request) ∨
      ∃ w ∈ s.waiters, w.request = w'.request ∧ w.expired = true := by
  have hold : w' ∈ s.waiters → ∃ w ∈ s.waiters, w.request = w'.request ∧ w.expired = true :=
    fun hw => ⟨w', hw, rfl, hexpired⟩
  have hwakes : ∀ {ws ws' : List Waiter}, Wakes ws ws' → ws ⊆ s.waiters → w' ∈ ws' →
      ∃ w ∈ s.waiters, w.request = w'.request ∧ w.expired = true := by
    intro ws ws' hwakes hsub hw'
    obtain ⟨w, hw, rfl | ⟨-, rfl⟩⟩ := hwakes.mem hw'
    · exact ⟨w', hsub hw, rfl, hexpired⟩
    · exact ⟨w, hsub hw, rfl, hexpired⟩
  cases e with
  | arrive =>
    rw [State.step] at hw'
    split_ifs at hw'
    · rcases List.mem_append.mp hw' with hw | hw
      · exact Or.inr (hold hw)
      · obtain rfl := List.mem_singleton.mp hw
        cases hexpired
    · exact Or.inr (hold hw')
  | expire i =>
    obtain ⟨w, hw, rfl⟩ := List.mem_map.mp hw'
    split_ifs at hexpired ⊢ with hi
    · exact Or.inl ⟨congrArg Event.expire hi.symm, w, hw, rfl⟩
    · exact Or.inr ⟨w, hw, rfl, hexpired⟩
  | stop i =>
    obtain ⟨w, hw, rfl⟩ := List.mem_map.mp hw'
    split_ifs at hexpired ⊢ with hi
    · exact Or.inr ⟨w, hw, rfl, hexpired⟩
    · exact Or.inr ⟨w, hw, rfl, hexpired⟩
  | resume i =>
    simp only [State.step] at hw'
    cases hfind : s.waiters.find? (·.request = i) with
    | none =>
      rw [hfind] at hw'
      exact Or.inr (hold hw')
    | some w =>
      simp only [hfind, State.proceed] at hw'
      have hsub : s.waiters.erase w ⊆ s.waiters := List.erase_subset
      split_ifs at hw'
      · exact Or.inr (hold hw')
      · exact Or.inr (hwakes (wakeAll_wakes _ _) hsub hw')
      · exact Or.inr (hwakes (wakeAll_wakes _ _) hsub hw')
      · exact Or.inr (hwakes (wakeAll_wakes _ _) hsub hw')
  | leave i =>
    rw [State.step] at hw'
    split_ifs at hw'
    · exact Or.inr (hwakes (release_wakes _ _) (fun _ h => h) hw')
    · exact Or.inr (hold hw')

/-- The deadline of an expired waiter passed while it waited. -/
theorem expired_run {start : State} (hstart : start.waiters = []) (es : List Event) :
    ∀ w ∈ (Runs.final State.step start es).waiters, w.expired = true →
      ∃ pre post, es = pre ++ .expire w.request :: post ∧
        ∃ w' ∈ (Runs.final State.step start pre).waiters, w'.request = w.request := by
  induction es using List.reverseRecOn with
  | nil =>
    intro w hw
    rw [Runs.final_nil, hstart] at hw
    cases hw
  | append_singleton es e ih =>
    intro w hw hexpired
    rw [Runs.final_append] at hw
    rcases step_expired hw hexpired with ⟨rfl, hwaited⟩ | ⟨w', hw', heq, hexpired'⟩
    · exact ⟨es, [], rfl, hwaited⟩
    · obtain ⟨pre, post, rfl, hwaited⟩ := ih w' hw' hexpired'
      rw [heq] at hwaited ⊢
      exact ⟨pre, post ++ [e], by rw [List.append_assoc, List.cons_append], hwaited⟩

end Semaphore
