import GeoPlatform.Library.OrderedMap
import Mathlib.Data.List.Sort

/-! Windows that start with their first hit, one for each key. Dropping windows that are over
changes nothing, and no key sees the hits of another. -/
namespace HitWindows

structure Window where
  start : ℕ
  count : ℕ
  deriving DecidableEq, Repr

/-- The window is over. -/
def Window.Over (length now : ℕ) (w : Window) : Prop := length < now - w.start

instance (length now : ℕ) (w : Window) : Decidable (w.Over length now) :=
  inferInstanceAs (Decidable (_ < _))

/-- A hit starts a window, or falls into the one that is not over. -/
def hit (length now : ℕ) : Option Window → Window
  | none => ⟨now, 1⟩
  | some w => if w.Over length now then ⟨now, 1⟩ else { w with count := w.count + 1 }

variable {length now : ℕ} {w : Window}

theorem Window.Over.later {later : ℕ} (h : w.Over length now) (hle : now ≤ later) :
    w.Over length later := by
  unfold Window.Over at *
  omega

theorem hit_over (h : w.Over length now) : hit length now (some w) = ⟨now, 1⟩ := if_pos h

theorem hit_live (h : ¬ w.Over length now) :
    hit length now (some w) = { w with count := w.count + 1 } := if_neg h

/-! ### A map of windows -/

section Map
variable {κ : Type*} [DecidableEq κ] {m : List (κ × Window)} {f : κ → Option Window}

/-- The map has the window of every key, save windows that are over. -/
def Keeps (length now : ℕ) (m : List (κ × Window)) (f : κ → Option Window) : Prop :=
  ∀ k, OrderedMap.get? m k = f k ∨
    (OrderedMap.get? m k = none ∧ ∃ w, f k = some w ∧ w.Over length now)

theorem keeps_nil : Keeps length now ([] : List (κ × Window)) fun _ => none :=
  fun _ => Or.inl rfl

theorem Keeps.later (h : Keeps length now m f) {later : ℕ} (hle : now ≤ later) :
    Keeps length later m f := by
  intro k
  rcases h k with heq | ⟨hnone, w, hw, hover⟩
  · exact Or.inl heq
  · exact Or.inr ⟨hnone, w, hw, hover.later hle⟩

/-- Whatever the map has dropped, a hit gives the same window. -/
theorem Keeps.hit_eq (h : Keeps length now m f) (k : κ) :
    hit length now (OrderedMap.get? m k) = hit length now (f k) := by
  rcases h k with heq | ⟨hnone, w, hw, hover⟩
  · rw [heq]
  · rw [hnone, hw, hit_over hover]
    rfl

theorem Keeps.set (h : Keeps length now m f) (k : κ) (w : Window) :
    Keeps length now (OrderedMap.set m k w) (Function.update f k (some w)) := by
  intro j
  rw [OrderedMap.get?_set]
  by_cases hj : j = k
  · subst hj
    rw [if_pos rfl, Function.update_self]
    exact Or.inl rfl
  · rw [if_neg hj, Function.update_of_ne hj]
    exact h j

/-- Dropping windows that are over. -/
theorem Keeps.prune (h : Keeps length now m f) {keep : κ × Window → Bool}
    (hkeep : ∀ e ∈ m, keep e = false → e.2.Over length now)
    (hkeys : (m.map Prod.fst).Nodup) : Keeps length now (m.filter keep) f := by
  intro k
  rw [OrderedMap.get?_filter hkeys]
  rcases h k with heq | ⟨hnone, hover⟩
  · cases hget : OrderedMap.get? m k with
    | none =>
      rw [hget] at heq
      exact Or.inl heq
    | some w =>
      rw [hget] at heq
      cases hw : keep (k, w) with
      | true =>
        rw [← heq]
        exact Or.inl (if_pos hw)
      | false =>
        refine Or.inr ⟨by simp [Option.filter, hw], w, heq.symm, ?_⟩
        exact hkeep _ (OrderedMap.get?_eq_some hget) hw
  · rw [hnone]
    exact Or.inr ⟨rfl, hover⟩

end Map

/-! ### How many hits a window lets through -/

/-- The hits from `a` on, over one length, that are among the first `limit` of their window. -/
def passes (length limit a : ℕ) : Option Window → List ℕ → ℕ
  | _, [] => 0
  | v, now :: times =>
      (if (hit length now v).count ≤ limit ∧ a ≤ now ∧ now ≤ a + length then 1 else 0) +
        passes length limit a (some (hit length now v)) times

variable {limit a : ℕ} {times : List ℕ}

/-- Nothing passes before `a` or later than one length after it. -/
theorem passes_outside (v : Option Window) (h : ∀ t ∈ times, ¬ (a ≤ t ∧ t ≤ a + length)) :
    passes length limit a v times = 0 := by
  induction times generalizing v with
  | nil => rfl
  | cons t times ih =>
    rw [passes, if_neg fun hpass => h t List.mem_cons_self hpass.2,
      ih _ fun x hx => h x (List.mem_cons_of_mem t hx)]

/-- What the current window, and a window after it, may still let through. -/
def room (limit a : ℕ) : Option Window → ℕ
  | none => limit
  | some w => limit - w.count + if w.start < a then limit else 0

/-- A window that starts at `a` or later is the last one that matters. -/
theorem passes_le_room (hlimit : 1 ≤ limit) (v : Option Window) (hafter : ∀ t ∈ times, a ≤ t)
    (hsorted : times.Pairwise (· ≤ ·)) : passes length limit a v times ≤ room limit a v := by
  induction times generalizing v with
  | nil => exact Nat.zero_le _
  | cons now times ih =>
    obtain ⟨hnow, hsorted⟩ := List.pairwise_cons.mp hsorted
    have ha : a ≤ now := hafter now List.mem_cons_self
    by_cases hlate : a + length < now
    · rw [passes_outside v fun t ht hin => ?_]
      · exact Nat.zero_le _
      · rcases List.mem_cons.mp ht with rfl | ht
        · omega
        · have := hnow t ht
          omega
    · have hrest := ih (some (hit length now v)) (fun t ht => hafter t (List.mem_cons_of_mem _ ht))
        hsorted
      have hnew : room limit a (some ⟨now, 1⟩) = limit - 1 := by
        simp only [room, if_neg (Nat.not_lt.mpr ha), Nat.add_zero]
      have hpass : ∀ u : Window,
          (if u.count ≤ limit ∧ a ≤ now ∧ now ≤ a + length then 1 else 0) ≤ 1 := by
        intro u
        split_ifs <;> omega
      rw [passes]
      cases v with
      | none =>
        rw [hit, hnew] at hrest
        have := hpass ⟨now, 1⟩
        rw [hit, room]
        omega
      | some w =>
        by_cases hover : w.Over length now
        · rw [hit_over hover, hnew] at hrest
          have hstart : w.start < a := by
            unfold Window.Over at hover
            omega
          have := hpass ⟨now, 1⟩
          rw [hit_over hover, room, if_pos hstart]
          omega
        · rw [hit_live hover] at hrest ⊢
          simp only [room] at hrest ⊢
          split_ifs at hrest ⊢ <;> omega

/-- In no stretch of one length do more than two windows' worth of hits pass, less the first hit
of the earlier window. -/
theorem passes_le (hlimit : 1 ≤ limit) (v : Option Window)
    (hv : ∀ u, v = some u → 1 ≤ u.count ∧ u.start < a) (hsorted : times.Pairwise (· ≤ ·)) :
    passes length limit a v times ≤ 2 * limit - 1 := by
  induction times generalizing v with
  | nil => exact Nat.zero_le _
  | cons now times ih =>
    by_cases hnow : now < a
    · rw [passes, if_neg fun hpass => absurd hpass.2.1 (Nat.not_le.mpr hnow), Nat.zero_add]
      refine ih _ (fun u hu => ?_) (List.pairwise_cons.mp hsorted).2
      cases hu
      cases v with
      | none => exact ⟨Nat.le_refl 1, hnow⟩
      | some u =>
        by_cases hover : u.Over length now
        · rw [hit_over hover]
          exact ⟨Nat.le_refl 1, hnow⟩
        · rw [hit_live hover]
          exact ⟨Nat.le_add_left 1 u.count, (hv u rfl).2⟩
    · have hafter : ∀ t ∈ now :: times, a ≤ t := by
        intro t ht
        rcases List.mem_cons.mp ht with rfl | ht
        · exact Nat.not_lt.mp hnow
        · exact (Nat.not_lt.mp hnow).trans ((List.pairwise_cons.mp hsorted).1 t ht)
      refine (passes_le_room hlimit v hafter hsorted).trans ?_
      cases v with
      | none =>
        rw [room]
        omega
      | some w =>
        obtain ⟨hcount, hstart⟩ := hv w rfl
        rw [room, if_pos hstart]
        omega

end HitWindows
