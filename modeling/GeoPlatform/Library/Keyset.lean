import Mathlib.Data.List.Basic
import Mathlib.Order.Lattice
import Mathlib.Tactic

/-! Rows in the order of a key. A reader that has seen a first part of them finds the rest by
asking for the keys beyond the last one it saw. -/
namespace Keyset
variable {α κ : Type*} [LinearOrder κ] {key : α → κ} {rows seen rest : List α}

def inOrder (key : α → κ) (rows : List α) : List α := rows.mergeSort fun a b => key a ≤ key b

/-- The keys climb, so no key comes twice. -/
def Climbs (key : α → κ) (rows : List α) : Prop := rows.Pairwise (key · < key ·)

theorem inOrder_climbs (h : (rows.map key).Nodup) : Climbs key (inOrder key rows) := by
  have hsorted : (inOrder key rows).Pairwise (key · ≤ key ·) := by
    have hle : (inOrder key rows).Pairwise fun a b => decide (key a ≤ key b) = true := by
      apply List.pairwise_mergeSort
      · intro a b c hab hbc
        rw [decide_eq_true_eq] at hab hbc ⊢
        exact hab.trans hbc
      · intro a b
        rw [Bool.or_eq_true, decide_eq_true_eq, decide_eq_true_eq]
        exact le_total _ _
    exact hle.imp fun hab => of_decide_eq_true hab
  have hnodup : ((inOrder key rows).map key).Nodup :=
    ((List.mergeSort_perm rows _).map key).nodup_iff.mpr h
  rw [List.Nodup, List.pairwise_map] at hnodup
  exact (hsorted.and hnodup).imp fun ⟨hle, hne⟩ => lt_of_le_of_ne hle hne

theorem Climbs.filter (h : Climbs key rows) (p : α → Bool) : Climbs key (rows.filter p) :=
  List.Pairwise.sublist List.filter_sublist h

/-- Beyond the last row seen are just the rows not seen yet. -/
theorem Climbs.beyond {last : α} (h : Climbs key (seen ++ last :: rest)) :
    (seen ++ last :: rest).filter (fun a => decide (key last < key a)) = rest := by
  obtain ⟨-, hlast, hseen⟩ := List.pairwise_append.mp h
  obtain ⟨hrest, -⟩ := List.pairwise_cons.mp hlast
  have hold : seen.filter (fun a => decide (key last < key a)) = [] := by
    rw [List.filter_eq_nil_iff]
    intro a ha
    have hlt := hseen a ha last (List.mem_cons_self ..)
    simpa using hlt.le
  have hnew : rest.filter (fun a => decide (key last < key a)) = rest := by
    rw [List.filter_eq_self]
    intro a ha
    simpa using hrest a ha
  rw [List.filter_append, hold, List.nil_append, List.filter_cons_of_neg (by simp), hnew]

end Keyset
