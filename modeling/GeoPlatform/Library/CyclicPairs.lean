import Mathlib.Algebra.BigOperators.Group.List.Basic
import Mathlib.Data.List.Rotate
import Mathlib.Tactic

/-! Sums over the neighbours in a list whose last item comes before its first: they do not
depend on where the list begins, and differences along them vanish. -/
namespace CyclicPairs
variable {α β M : Type*}

/-- Every item with the one after it, and the last with the first. -/
def sides (xs : List α) : List (α × α) := xs.zip (xs.drop 1 ++ xs.take 1)

theorem sides_eq (xs : List α) : sides xs = xs.zip (xs.rotate 1) := by
  cases xs with
  | nil => rfl
  | cons x xs => simp [sides]

theorem map_fst_sides (xs : List α) : (sides xs).map Prod.fst = xs := by
  rw [sides_eq]
  exact List.map_fst_zip (by simp)

theorem map_snd_sides (xs : List α) : (sides xs).map Prod.snd = xs.rotate 1 := by
  rw [sides_eq]
  exact List.map_snd_zip (by simp)

theorem sides_map (f : α → β) (xs : List α) :
    sides (xs.map f) = (sides xs).map (Prod.map f f) := by
  rw [sides_eq, sides_eq, ← List.map_rotate, List.zip_map]

/-! ### The same ring, written down in another way -/

theorem sides_rotate (xs : List α) (k : ℕ) : sides (xs.rotate k) = (sides xs).rotate k := by
  have hlength : xs.length = (xs.rotate 1).length := by simp
  calc sides (xs.rotate k) = (xs.rotate k).zip ((xs.rotate 1).rotate k) := by
        rw [sides_eq, List.rotate_rotate, List.rotate_rotate, Nat.add_comm]
    _ = (sides xs).rotate k := by
        rw [sides_eq]
        exact (List.zipWith_rotate_distrib Prod.mk xs _ k hlength).symm

theorem reverse_rotate_one (xs : List α) : (xs.rotate 1).reverse.rotate 1 = xs.reverse := by
  cases xs with
  | nil => rfl
  | cons x xs => simp

/-- Backwards, every side is turned round. -/
theorem sides_reverse (xs : List α) : (sides xs.reverse).Perm ((sides xs).map Prod.swap) := by
  have hlength : (xs.rotate 1).length = xs.length := by simp
  have hback : ((sides xs).map Prod.swap).reverse = sides (xs.rotate 1).reverse := by
    rw [sides_eq, sides_eq, List.zip_swap, reverse_rotate_one]
    exact List.reverse_zipWith hlength
  have hturned : sides xs.reverse = (sides (xs.rotate 1).reverse).rotate 1 := by
    rw [← sides_rotate, reverse_rotate_one]
  rw [hturned, ← hback]
  exact (List.rotate_perm ..).trans (List.reverse_perm _)

/-- The first item once more at the end adds one side, which leads nowhere. -/
theorem sides_closed (xs : List α) :
    sides (xs ++ xs.take 1) = sides xs ++ (xs.take 1).map fun x => (x, x) := by
  cases xs with
  | nil => rfl
  | cons x xs =>
    have hlength : (x :: xs).length = (xs ++ [x]).length := by simp
    calc sides (x :: xs ++ [x]) = ((x :: xs) ++ [x]).zip ((xs ++ [x]) ++ [x]) := rfl
      _ = (x :: xs).zip (xs ++ [x]) ++ [x].zip [x] := List.zip_append hlength
      _ = sides (x :: xs) ++ [(x, x)] := rfl

/-! ### Sums -/

section Monoid
variable [AddCommMonoid M] (f : α × α → M)

theorem sum_sides_rotate (xs : List α) (k : ℕ) :
    ((sides (xs.rotate k)).map f).sum = ((sides xs).map f).sum := by
  rw [sides_rotate]
  exact ((List.rotate_perm _ k).map f).sum_eq

theorem sum_sides_reverse (xs : List α) :
    ((sides xs.reverse).map f).sum = ((sides xs).map fun s => f s.swap).sum := by
  rw [((sides_reverse xs).map f).sum_eq, List.map_map]
  rfl

theorem sum_sides_closed (hf : ∀ x, f (x, x) = 0) (xs : List α) :
    ((sides (xs ++ xs.take 1)).map f).sum = ((sides xs).map f).sum := by
  rw [sides_closed, List.map_append, List.sum_append]
  cases xs with
  | nil => exact add_zero _
  | cons x xs => simp [hf]

end Monoid

section Group
variable [AddCommGroup M]

/-- What a walk round the ring gains on the way, it loses again. -/
theorem sum_sides_sub (g : α → M) (xs : List α) :
    ((sides xs).map fun s => g s.2 - g s.1).sum = 0 := by
  have hto : (sides xs).map (fun s => g s.2) = (xs.rotate 1).map g := by
    rw [← map_snd_sides, List.map_map]
    rfl
  have hfrom : (sides xs).map (fun s => g s.1) = xs.map g := by
    conv_rhs => rw [← map_fst_sides xs, List.map_map]
    rfl
  have hsum : ((sides xs).map fun s => g s.2 - g s.1).sum + (xs.map g).sum = (xs.map g).sum :=
    calc _ = ((sides xs).map fun s => g s.2 - g s.1 + g s.1).sum := by
          rw [← hfrom, ← List.sum_map_add]
      _ = ((xs.rotate 1).map g).sum := by simp only [sub_add_cancel, hto]
      _ = (xs.map g).sum := ((List.rotate_perm xs 1).map g).sum_eq
  exact add_eq_right.mp hsum

/-- Terms that differ by a difference along the sides have one sum. -/
theorem sum_sides_congr {f f' : α × α → M} (g : α → M)
    (hf : ∀ s, f' s = f s + (g s.2 - g s.1)) (xs : List α) :
    ((sides xs).map f').sum = ((sides xs).map f).sum := by
  have hadd : (sides xs).map f' = (sides xs).map fun s => f s + (g s.2 - g s.1) :=
    List.map_congr_left fun s _ => hf s
  rw [hadd, List.sum_map_add, sum_sides_sub, add_zero]

end Group

end CyclicPairs
