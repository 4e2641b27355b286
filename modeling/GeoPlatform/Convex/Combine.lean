import GeoPlatform.Convex.Windows
import GeoPlatform.Library.StableSort

/-! What `combine` makes of the states of a call: it reports the one that goes first in its
order. -/
namespace GeoPlatform.Convex
open Docs

theorem combine_cons (s : RateLimitState) (states : List RateLimitState) :
    combine (s :: states) =
      { StableSort.first (fun a b => bindsBefore a b = true) s states with
        allowed := (s :: states).all RateLimitState.allowed } := by
  have hhead := StableSort.head?_insertionSort (fun a b => bindsBefore a b = true) s states
  unfold combine
  cases hsorted : (s :: states).insertionSort fun a b => bindsBefore a b = true with
  | nil =>
    rw [hsorted] at hhead
    cases hhead
  | cons binding rest =>
    rw [hsorted, List.head?_cons, Option.some.injEq] at hhead
    rw [← hhead]

/-- A refusal reports the first refused state when no refused state has anything left. -/
theorem combine_refused (states : List RateLimitState)
    (hzero : ∀ s ∈ states, s.allowed = false → s.remaining = 0)
    (h : states.all RateLimitState.allowed = false) :
    states.find? (fun s => !s.allowed) = some (combine states) := by
  cases states with
  | nil => cases h
  | cons s states =>
    have hrefused : ∃ x ∈ s :: states, (!x.allowed) = true := by
      obtain ⟨x, hx, hnot⟩ := List.all_eq_false.mp h
      exact ⟨x, hx, by simpa using hnot⟩
    have hfirst := StableSort.find?_eq_first (r := fun a b => bindsBefore a b = true)
      (p := fun s => !s.allowed) (a := s) (l := states) ?_ ?_ hrefused
    · have hmeets := List.find?_some hfirst
      rw [hfirst, combine_cons, h]
      simp only [Bool.not_eq_true'] at hmeets
      rw [← hmeets]
    · intro x hx y hy hpx
      rw [Bool.not_eq_true'] at hpx
      unfold bindsBefore
      split_ifs with hsame
      · rw [decide_eq_true_eq, hzero x hx hpx, hzero y hy (hsame ▸ hpx)]
      · rw [hpx]
        rfl
    · intro x hx y hy hpx hpy
      rw [Bool.not_eq_true'] at hpy
      rw [Bool.not_eq_false'] at hpx
      simp [bindsBefore, hpx, hpy]

/-! ### Counters that a call hits once -/

/-- The counter has no room for the hit. -/
def counterFull (t : Table RateLimitWindow) (now : ℕ) (h : Hit) : Bool :=
  h.limit < (windowCount t h.bucket (windowStart now h.durationMs) + h.cost : ℕ)

theorem rateLimitState_refused {h : Hit} {start count : ℕ}
    (hs : (rateLimitState h start count).allowed = false) :
    (rateLimitState h start count).remaining = 0 := by
  simp only [rateLimitState, decide_eq_false_iff_not, not_le] at hs ⊢
  exact max_eq_left (by linarith)

/-- The state of a hit whose counter no other hit of the call touches. -/
def counterState (t : Table RateLimitWindow) (now : ℕ) (h : Hit) : RateLimitState :=
  rateLimitState h (windowStart now h.durationMs)
    (windowCount t h.bucket (windowStart now h.durationMs) + h.cost)

theorem hitAll_states {t t' : Table RateLimitWindow} {now : ℕ} {hs : List Hit}
    {states : List RateLimitState} (hnodup : (hs.map Hit.bucket).Nodup)
    (h : hitAll t now hs = .ok (states, t')) : states = hs.map (counterState t now) := by
  induction hs generalizing t states with
  | nil =>
    cases h
    rfl
  | cons g hs ih =>
    obtain ⟨hnotin, hnodup⟩ := List.nodup_cons.mp hnodup
    obtain ⟨⟨state, u⟩, hhit, h⟩ := except_bind_ok.mp h
    obtain ⟨⟨states, u'⟩, hrest, h⟩ := except_bind_ok.mp h
    cases h
    obtain ⟨hcount, rfl⟩ := hitWindow_ok hhit
    rw [List.map_cons, ih hnodup hrest]
    congr 1
    refine List.map_congr_left fun h' hh' => ?_
    have hother : g.addsTo now h'.bucket (windowStart now h'.durationMs) = 0 := by
      apply if_neg
      rintro ⟨hbucket, -⟩
      exact hnotin (hbucket ▸ List.mem_map_of_mem hh')
    unfold counterState
    rw [hcount, hother, Nat.add_zero]

theorem counterState_allowed (t : Table RateLimitWindow) (now : ℕ) (h : Hit) :
    (!(counterState t now h).allowed) = counterFull t now h := by
  simp only [counterState, rateLimitState, counterFull, ← decide_not, not_le]

end GeoPlatform.Convex
