import Mathlib.Data.List.Basic

/-! Loops whose steps may fail. A loop with an invariant that lets no step fail computes what the
loop without the checks computes. -/
namespace Loops
variable {σ α : Type*} {step : σ → α → σ} {checked : σ → α → Option σ}

/-- `Inv` speaks of the items that the loop has behind it. -/
theorem foldlM_eq_some (Inv : List α → σ → Prop) {xs : List α} {s : σ} (hbegin : Inv [] s)
    (hstep : ∀ p x q s, xs = p ++ x :: q → Inv p s →
      checked s x = some (step s x) ∧ Inv (p ++ [x]) (step s x)) :
    xs.foldlM checked s = some (xs.foldl step s) ∧ Inv xs (xs.foldl step s) := by
  have hrest : ∀ q p s, xs = p ++ q → Inv p s →
      q.foldlM checked s = some (q.foldl step s) ∧ Inv xs (q.foldl step s) := by
    intro q
    induction q with
    | nil =>
      intro p s hxs hs
      rw [List.append_nil] at hxs
      exact ⟨rfl, hxs ▸ hs⟩
    | cons x q ih =>
      intro p s hxs hs
      obtain ⟨hx, hnext⟩ := hstep p x q s hxs hs
      rw [List.foldlM_cons, hx]
      exact ih (p ++ [x]) (step s x) (by simp [hxs]) hnext
  exact hrest xs [] s rfl hbegin

/-- An invariant that does not look back. -/
theorem foldlM_eq_some_of_forall (Inv : σ → Prop) {xs : List α} {s : σ} (hbegin : Inv s)
    (hstep : ∀ s, Inv s → ∀ x ∈ xs, checked s x = some (step s x) ∧ Inv (step s x)) :
    xs.foldlM checked s = some (xs.foldl step s) ∧ Inv (xs.foldl step s) :=
  foldlM_eq_some (fun _ => Inv) hbegin fun p x q s hxs hs => hstep s hs x (by simp [hxs])

end Loops
