import Mathlib.Tactic

/-! Computations that may fail, with the exact condition under which they do not and the value
that they then have. The conditions of a sequence of steps are those of its steps. -/
namespace Fallible
variable {ε ε' α β : Type}

/-- Exactly under `p` the computation succeeds, and then with `a`. -/
def Yields (x : Except ε α) (p : Prop) (a : α) : Prop := ∀ b, x = .ok b ↔ p ∧ b = a

variable {x : Except ε α} {f : α → Except ε β} {p q : Prop} {a : α} {b : β}

theorem Yields.ok (h : Yields x p a) (hp : p) : x = .ok a := (h a).mpr ⟨hp, rfl⟩

theorem Yields.error (h : Yields x p a) (hp : ¬ p) : ∃ e, x = .error e := by
  cases x with
  | error e => exact ⟨e, rfl⟩
  | ok b => exact absurd ((h b).mp rfl).1 hp

theorem yields_ok (a : α) : Yields (.ok a : Except ε α) True a := by
  intro b
  simp [eq_comm]

theorem yields_error (e : ε) (a : α) : Yields (.error e) False a := by
  intro b
  simp

theorem Yields.congr (h : Yields x p a) (hpq : p ↔ q) : Yields x q a := by
  rwa [Yields, ← propext hpq]

/-- The condition is decided before the computation. -/
theorem Yields.of_cases (hp : p → x = .ok a) (hn : ¬ p → ∃ e, x = .error e) : Yields x p a := by
  intro b
  by_cases h : p
  · rw [hp h]
    simp [h, eq_comm]
  · obtain ⟨e, he⟩ := hn h
    rw [he]
    simp [h]

theorem Yields.bind (hx : Yields x p a) (hf : p → Yields (f a) q b) :
    Yields (x >>= f) (p ∧ q) b := by
  apply Yields.of_cases
  · rintro ⟨hp, hq⟩
    rw [hx.ok hp]
    exact (hf hp).ok hq
  · intro hn
    by_cases hp : p
    · rw [hx.ok hp]
      exact (hf hp).error fun hq => hn ⟨hp, hq⟩
    · obtain ⟨e, he⟩ := hx.error hp
      exact ⟨e, by rw [he]; rfl⟩

theorem Yields.map (hx : Yields x p a) (g : α → β) : Yields (x.map g) p (g a) := by
  apply Yields.of_cases
  · intro hp
    rw [hx.ok hp]
    rfl
  · intro hn
    obtain ⟨e, he⟩ := hx.error hn
    exact ⟨e, by rw [he]; rfl⟩

theorem Yields.mapM {step : α → Except ε β} {cond : α → Prop} {value : α → β}
    (h : ∀ x, Yields (step x) (cond x) (value x)) (xs : List α) :
    Yields (xs.mapM step) (∀ x ∈ xs, cond x) (xs.map value) := by
  induction xs with
  | nil => exact (yields_ok []).congr (by simp)
  | cons x xs ih =>
    rw [List.mapM_cons]
    have hrest : Yields (do let ys ← xs.mapM step; pure (value x :: ys)) _
        (value x :: xs.map value) :=
      ih.bind fun _ => yields_ok (value x :: xs.map value)
    exact ((h x).bind fun _ => hrest).congr (by simp)

end Fallible
