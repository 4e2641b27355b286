import Mathlib.Algebra.BigOperators.Group.List.Basic
import Mathlib.Tactic

/-! Weighted sums over a list of which one element is taken out or replaced. -/
namespace ListSums

theorem sum_map_eraseIdx {α : Type} (f : α → ℕ) {l : List α} {i : ℕ} {x : α}
    (h : l[i]? = some x) : ((l.eraseIdx i).map f).sum + f x = (l.map f).sum := by
  induction l generalizing i with
  | nil => simp at h
  | cons y l ih =>
    cases i with
    | zero =>
      simp only [List.getElem?_cons_zero, Option.some.injEq] at h
      subst h
      simp only [List.eraseIdx_cons_zero, List.map_cons, List.sum_cons]
      omega
    | succ i =>
      have hrest := ih (by simpa using h)
      simp only [List.eraseIdx_cons_succ, List.map_cons, List.sum_cons]
      omega

theorem sum_map_set {α : Type} (f : α → ℕ) {l : List α} {i : ℕ} {x : α} (y : α)
    (h : l[i]? = some x) : ((l.set i y).map f).sum + f x = (l.map f).sum + f y := by
  induction l generalizing i with
  | nil => simp at h
  | cons z l ih =>
    cases i with
    | zero =>
      simp only [List.getElem?_cons_zero, Option.some.injEq] at h
      subst h
      simp only [List.set_cons_zero, List.map_cons, List.sum_cons]
      omega
    | succ i =>
      have hrest := ih (by simpa using h)
      simp only [List.set_cons_succ, List.map_cons, List.sum_cons]
      omega

/-- A weight on one element of a list without duplicates is its whole weight. -/
theorem sum_map_ite_eq {κ : Type} [DecidableEq κ] {ks : List κ} (hks : ks.Nodup) {k : κ}
    (hk : k ∈ ks) (n : ℕ) : (ks.map fun j => if k = j then n else 0).sum = n := by
  induction ks with
  | nil => cases hk
  | cons j ks ih =>
    obtain ⟨hnotin, hks⟩ := List.nodup_cons.mp hks
    rw [List.map_cons, List.sum_cons]
    rcases List.mem_cons.mp hk with rfl | hlater
    · have hrest : (ks.map fun j => if k = j then n else 0).sum = 0 := by
        apply List.sum_eq_zero
        intro x hx
        obtain ⟨j, hj, rfl⟩ := List.mem_map.mp hx
        rw [if_neg]
        rintro rfl
        exact hnotin hj
      rw [if_pos rfl, hrest, Nat.add_zero]
    · have hne : k ≠ j := by
        rintro rfl
        exact hnotin hlater
      rw [if_neg hne, ih hks hlater, Nat.zero_add]

/-- Sums by key add up to the whole sum when every element has a key of the list. -/
theorem sum_map_filter_keys {α κ : Type} [DecidableEq κ] (key : α → κ) (f : α → ℕ) {ks : List κ}
    (hks : ks.Nodup) {l : List α} (hl : ∀ x ∈ l, key x ∈ ks) :
    (ks.map fun k => ((l.filter fun x => key x = k).map f).sum).sum = (l.map f).sum := by
  induction l with
  | nil => simp
  | cons x l ih =>
    have hsplit : ∀ k, (((x :: l).filter fun x => key x = k).map f).sum =
        (if key x = k then f x else 0) + ((l.filter fun x => key x = k).map f).sum := by
      intro k
      by_cases hk : key x = k <;> simp [hk]
    have hrest := ih fun y hy => hl y (List.mem_cons_of_mem _ hy)
    simp only [hsplit, List.sum_map_add, List.map_cons, List.sum_cons]
    rw [sum_map_ite_eq hks (hl x (List.mem_cons_self ..)), hrest]

end ListSums
