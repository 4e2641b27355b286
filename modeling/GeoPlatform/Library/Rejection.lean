import Mathlib.Data.List.Range
import Mathlib.Tactic

/-! Sampling by rejection: buffers are filled from a source and read until enough of what they
hold has been accepted. What comes out are the first accepted items of the source. -/
namespace Rejection
variable {β γ : Type*} (pick : β → Option γ) (need : ℕ)

/-- One buffer, item by item, up to the last that is needed. -/
def fill : List γ → List β → List γ
  | result, [] => result
  | result, b :: buffer =>
    match pick b with
    | none => fill result buffer
    | some c =>
      if result.length + 1 = need then result ++ [c] else fill (result ++ [c]) buffer

/-- Buffer after buffer, as long as something is missing; the turns stand for the loop. -/
def rounds (buffer : ℕ → List β) : ℕ → ℕ → List γ → Option (List γ)
  | 0, _, result => if need ≤ result.length then some result else none
  | turns + 1, k, result =>
    if need ≤ result.length then some result
    else rounds buffer turns (k + 1) (fill pick need result (buffer k))

/-- What the first `k` buffers hold that is accepted. -/
def accepted (buffer : ℕ → List β) (k : ℕ) : List γ :=
  ((List.range k).flatMap buffer).filterMap pick

variable {pick need} {buffer : ℕ → List β}

theorem accepted_succ (pick : β → Option γ) (buffer : ℕ → List β) (k : ℕ) :
    accepted pick buffer (k + 1) = accepted pick buffer k ++ (buffer k).filterMap pick := by
  simp [accepted, List.range_succ]

theorem accepted_prefix (pick : β → Option γ) (buffer : ℕ → List β) {j k : ℕ} (h : j ≤ k) :
    accepted pick buffer j <+: accepted pick buffer k := by
  induction k, h using Nat.le_induction with
  | base => exact List.prefix_refl _
  | succ k _ ih =>
    rw [accepted_succ]
    exact ih.trans (List.prefix_append ..)

/-- A buffer adds its accepted items, as many as are missing. -/
theorem fill_eq {result : List γ} (hmissing : result.length < need) (buffer : List β) :
    fill pick need result buffer =
      result ++ (buffer.filterMap pick).take (need - result.length) := by
  induction buffer generalizing result with
  | nil => simp [fill]
  | cons b buffer ih =>
    rw [fill]
    cases hb : pick b with
    | none =>
      rw [List.filterMap_cons_none hb]
      exact ih hmissing
    | some c =>
      rw [List.filterMap_cons_some hb]
      obtain ⟨m, hm⟩ : ∃ m, need - result.length = m + 1 := ⟨need - result.length - 1, by omega⟩
      rw [hm, List.take_succ_cons]
      by_cases hlast : result.length + 1 = need
      · have hzero : m = 0 := by omega
        simp [hlast, hzero]
      · have hnext : (result ++ [c]).length < need := by
          rw [List.length_append, List.length_singleton]
          omega
        have hrest : need - (result ++ [c]).length = m := by
          rw [List.length_append, List.length_singleton]
          omega
        simp only [hlast, if_false, ih hnext, hrest, List.append_assoc, List.singleton_append]

theorem fill_accepted {k : ℕ} (hmissing : (accepted pick buffer k).length < need) :
    fill pick need (accepted pick buffer k) (buffer k) =
      (accepted pick buffer (k + 1)).take need := by
  rw [fill_eq hmissing, accepted_succ, List.take_append,
    List.take_of_length_le (Nat.le_of_lt hmissing)]

/-- The loop ends with the first items that are accepted, or it does not end. -/
theorem rounds_eq (pick : β → Option γ) (need : ℕ) (buffer : ℕ → List β) (turns k : ℕ) :
    rounds pick need buffer turns k ((accepted pick buffer k).take need) =
      if need ≤ (accepted pick buffer (k + turns)).length
        then some ((accepted pick buffer (k + turns)).take need) else none := by
  have henough (turns k : ℕ) (h : need ≤ (accepted pick buffer k).length) :
      need ≤ (accepted pick buffer (k + turns)).length ∧
        (accepted pick buffer (k + turns)).take need = (accepted pick buffer k).take need := by
    obtain ⟨rest, hrest⟩ := accepted_prefix pick buffer (Nat.le_add_right k turns)
    rw [← hrest, List.take_append_of_le_length h, List.length_append]
    exact ⟨by omega, rfl⟩
  induction turns generalizing k with
  | zero => simp [rounds]
  | succ turns ih =>
    rw [rounds, List.length_take]
    by_cases h : need ≤ (accepted pick buffer k).length
    · obtain ⟨hlength, htake⟩ := henough (turns + 1) k h
      rw [if_pos (by omega), if_pos hlength, htake]
    · rw [if_neg (by omega), List.take_of_length_le (by omega), fill_accepted (by omega), ih,
        show k + 1 + turns = k + (turns + 1) by omega]

theorem rounds_from_nothing (turns : ℕ) : rounds pick need buffer turns 0 [] =
    if need ≤ (accepted pick buffer turns).length
      then some ((accepted pick buffer turns).take need) else none := by
  have hnothing : (accepted pick buffer 0).take need = [] := List.take_nil
  have h := rounds_eq pick need buffer turns 0
  rwa [hnothing, Nat.zero_add] at h

/-- More turns change nothing once the loop has ended. -/
theorem rounds_more {turns : ℕ} {result : List γ}
    (h : rounds pick need buffer turns 0 [] = some result) {more : ℕ} (hmore : turns ≤ more) :
    rounds pick need buffer more 0 [] = some result := by
  rw [rounds_from_nothing] at h ⊢
  obtain ⟨rest, hrest⟩ := accepted_prefix pick buffer hmore
  split_ifs at h with henough
  rw [← hrest, List.take_append_of_le_length henough, List.length_append, if_pos (by omega)]
  exact h

end Rejection
