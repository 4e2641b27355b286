import Mathlib.Data.List.Forall2
import Mathlib.Tactic

/-! `mapM` over a list with steps that may fail. One bad element stops it; without one, each
result is that of the element in its place. -/
namespace ExceptMap
variable {α β ε : Type} {step : α → Except ε β} {xs : List α} {ys : List β} {x : α}

theorem mapM_eq_ok :
    xs.mapM step = .ok ys ↔ List.Forall₂ (fun x y => step x = .ok y) xs ys := by
  induction xs generalizing ys with
  | nil => simp [pure, Except.pure, eq_comm]
  | cons x xs ih =>
    rw [List.mapM_cons]
    cases hx : step x with
    | error e => cases ys <;> simp [bind, Except.bind, hx]
    | ok y =>
      cases hxs : xs.mapM step with
      | error e => cases ys <;> simp [bind, Except.bind, ← ih, hxs]
      | ok zs => cases ys <;> simp [bind, Except.bind, pure, Except.pure, hx, ← ih, hxs]

/-- Each element has its result, and each result its element. -/
theorem forall₂_mem {R : α → β → Prop} (h : List.Forall₂ R xs ys) :
    (∀ x ∈ xs, ∃ y ∈ ys, R x y) ∧ ∀ y ∈ ys, ∃ x ∈ xs, R x y := by
  induction h with
  | nil => simp
  | cons hxy _ ih =>
    simp only [List.forall_mem_cons, List.exists_mem_cons_iff]
    exact ⟨⟨Or.inl hxy, fun x hx => Or.inr (ih.1 x hx)⟩, Or.inl hxy,
      fun y hy => Or.inr (ih.2 y hy)⟩

theorem mapM_ok (h : ∀ x ∈ xs, ∃ y, step x = .ok y) : ∃ ys, xs.mapM step = .ok ys := by
  induction xs with
  | nil => exact ⟨[], rfl⟩
  | cons x xs ih =>
    obtain ⟨y, hy⟩ := h x (List.mem_cons_self ..)
    obtain ⟨ys, hys⟩ := ih fun x' hx' => h x' (List.mem_cons_of_mem _ hx')
    exact ⟨y :: ys, mapM_eq_ok.mpr (.cons hy (mapM_eq_ok.mp hys))⟩

theorem mapM_error {e : ε} (hx : x ∈ xs) (he : step x = .error e) :
    ∃ e', xs.mapM step = .error e' := by
  cases hxs : xs.mapM step with
  | error e' => exact ⟨e', rfl⟩
  | ok ys =>
    obtain ⟨y, -, hy⟩ := (forall₂_mem (mapM_eq_ok.mp hxs)).1 x hx
    cases he.symm.trans hy

/-- The error is that of the first element that has one. -/
theorem mapM_eq_error {e : ε} : xs.mapM step = .error e ↔
    ∃ before x after, xs = before ++ x :: after ∧ (∀ y ∈ before, ∃ z, step y = .ok z) ∧
      step x = .error e := by
  induction xs with
  | nil => simp [pure, Except.pure]
  | cons x xs ih =>
    rw [List.mapM_cons]
    cases hx : step x with
    | error e' =>
      simp only [bind, Except.bind, Except.error.injEq]
      constructor
      · rintro rfl
        exact ⟨[], x, xs, rfl, by simp, hx⟩
      · rintro ⟨before, y, after, heq, hok, hy⟩
        cases before with
        | nil =>
          cases heq
          exact Except.error.inj (hx.symm.trans hy)
        | cons z before =>
          cases heq
          obtain ⟨v, hv⟩ := hok x (List.mem_cons_self ..)
          cases hx.symm.trans hv
    | ok v =>
      have hrest : (do let ys ← xs.mapM step; pure (v :: ys)) = Except.error e ↔
          xs.mapM step = .error e := by
        cases xs.mapM step <;> simp [bind, Except.bind, pure, Except.pure]
      simp only [bind, Except.bind] at hrest ⊢
      rw [hrest, ih]
      constructor
      · rintro ⟨before, y, after, rfl, hok, hy⟩
        exact ⟨x :: before, y, after, rfl, List.forall_mem_cons.mpr ⟨⟨v, hx⟩, hok⟩, hy⟩
      · rintro ⟨before, y, after, heq, hok, hy⟩
        cases before with
        | nil =>
          cases heq
          cases hx.symm.trans hy
        | cons z before =>
          cases heq
          exact ⟨before, y, after, rfl, (List.forall_mem_cons.mp hok).2, hy⟩

theorem mapM_mem (h : xs.mapM step = .ok ys) :
    (∀ x ∈ xs, ∃ y ∈ ys, step x = .ok y) ∧ ∀ y ∈ ys, ∃ x ∈ xs, step x = .ok y :=
  forall₂_mem (mapM_eq_ok.mp h)

end ExceptMap
