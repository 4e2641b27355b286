import Mathlib.Data.List.MinMax
import Mathlib.Tactic

/-! The closest element of a list that has a description. Taking the closest element first and
describing it afterwards is something else than taking the closest of those that can be
described. -/
namespace Closest
variable {α β δ : Type*} [LinearOrder δ]

/-- `x` is the first of the closest elements. -/
def IsFirst (distance : α → δ) (xs : List α) (x : α) : Prop :=
  ∃ before after, xs = before ++ x :: after ∧
    (∀ y ∈ before, distance x < distance y) ∧ ∀ y ∈ after, distance x ≤ distance y

/-- Nothing is returned only if nothing can be described, and otherwise the description of one of
the closest elements that have one. -/
def Describes (distance : α → δ) (describe : α → Option β) (xs : List α) : Option β → Prop
  | none => ∀ x ∈ xs, describe x = none
  | some y => ∃ x ∈ xs, describe x = some y ∧
      ∀ x' ∈ xs, (describe x').isSome → distance x ≤ distance x'

variable {distance : α → δ} {describe : α → Option β} {xs : List α} {x x' : α}

theorem IsFirst.mem (h : IsFirst distance xs x) : x ∈ xs := by
  obtain ⟨before, after, rfl, -⟩ := h
  exact List.mem_append_right _ (List.mem_cons_self ..)

theorem IsFirst.le (h : IsFirst distance xs x) : ∀ y ∈ xs, distance x ≤ distance y := by
  obtain ⟨before, after, rfl, hbefore, hafter⟩ := h
  intro y hy
  rcases List.mem_append.mp hy with hy | hy
  · exact (hbefore y hy).le
  · rcases List.mem_cons.mp hy with rfl | hy
    · exact le_rfl
    · exact hafter y hy

/-- One more element at the end takes the place only if it is strictly closer. -/
theorem IsFirst.concat (h : IsFirst distance xs x) (y : α) :
    IsFirst distance (xs ++ [y]) (if distance y < distance x then y else x) := by
  split_ifs with hlt
  · exact ⟨xs, [], rfl, fun z hz => hlt.trans_le (h.le z hz), by simp⟩
  · obtain ⟨before, after, rfl, hbefore, hafter⟩ := h
    refine ⟨before, after ++ [y], by simp, hbefore, ?_⟩
    intro z hz
    rcases List.mem_append.mp hz with hz | hz
    · exact hafter z hz
    · rw [List.mem_singleton.mp hz]
      exact not_lt.mp hlt

theorem isFirst_of_argmin (h : xs.argmin distance = some x) : IsFirst distance xs x := by
  induction xs using List.reverseRecOn generalizing x with
  | nil => cases h
  | append_singleton xs y ih =>
    rw [List.argmin_concat] at h
    cases hxs : xs.argmin distance with
    | none =>
      obtain rfl := List.argmin_eq_none.mp hxs
      cases h
      exact ⟨[], [], rfl, by simp, by simp⟩
    | some z =>
      have hfirst := (ih hxs).concat y
      rw [hxs] at h
      dsimp only at h
      split_ifs at h hfirst <;> cases h <;> exact hfirst

theorem IsFirst.unique (h : IsFirst distance xs x) (h' : IsFirst distance xs x') : x = x' := by
  obtain ⟨before, after, heq, hbefore, hafter⟩ := h
  obtain ⟨before', after', heq', hbefore', hafter'⟩ := h'
  rw [heq] at heq'
  rcases List.append_eq_append_iff.mp heq' with ⟨rest, rfl, hrest⟩ | ⟨rest, rfl, hrest⟩
  · cases rest with
    | nil => exact (List.cons.inj hrest).1
    | cons z rest =>
      obtain ⟨rfl, rfl⟩ := List.cons.inj hrest
      exact absurd (hbefore' x (by simp)) (not_lt.mpr (hafter x' (by simp)))
  · cases rest with
    | nil => exact (List.cons.inj hrest).1.symm
    | cons z rest =>
      obtain ⟨rfl, rfl⟩ := List.cons.inj hrest
      exact absurd (hbefore x' (by simp)) (not_lt.mpr (hafter' x (by simp)))

/-- To take the first of the closest and to describe it goes right just where it has a
description, or where there is none. -/
theorem argmin_bind_iff : Describes distance describe xs ((xs.argmin distance).bind describe) ↔
    (∀ x ∈ xs, describe x = none) ∨
      ∃ x, IsFirst distance xs x ∧ (describe x).isSome := by
  cases hxs : xs.argmin distance with
  | none =>
    rw [List.argmin_eq_none.mp hxs]
    simp [Describes]
  | some x =>
    have hfirst := isFirst_of_argmin hxs
    rw [Option.bind_some]
    cases hx : describe x with
    | none =>
      constructor
      · exact Or.inl
      · rintro (hnone | ⟨x', hx', hsome⟩)
        · exact hnone
        · rw [← hfirst.unique hx', hx] at hsome
          cases hsome
    | some y =>
      constructor
      · exact fun _ => Or.inr ⟨x, hfirst, by simp [hx]⟩
      · exact fun _ => ⟨x, hfirst.mem, hx, fun x' hx' _ => hfirst.le x' hx'⟩

/-- To take the closest of those that have a description always goes right. -/
theorem describes_argmin_map {γ : Type*} {f : γ → δ} {g : γ → β} {ys : List γ} :
    Describes f (fun y => some (g y)) ys ((ys.argmin f).map g) := by
  cases hys : ys.argmin f with
  | none =>
    rw [List.argmin_eq_none.mp hys]
    simp [Describes]
  | some y =>
    have hfirst := isFirst_of_argmin hys
    exact ⟨y, hfirst.mem, rfl, fun y' hy' _ => hfirst.le y' hy'⟩

end Closest
